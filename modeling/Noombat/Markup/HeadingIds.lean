import Noombat.Markup.Headings
import Noombat.Scanning

/-!
# The ids of headings

The slugs of the headings are injected as ids into the rendered HTML.  For each heading in turn a
cursor goes on to the next opening tag of its depth, whatever heading this is the tag of.  So every
slug becomes the id of its own heading just if the tags of these headings come in their order, and
no other tag of the depth of a heading lies between its tag and that of the one before.
-/

namespace Markup

open Text Scanning

/-- The opening tag of a heading, up to what delimits it. -/
def tagPrefix (depth : Nat) : List Char :=
  '<' :: 'h' :: (toString depth).toList

/-- Whether a character delimits the name of a tag. -/
def isDelimiter (c : Char) : Bool :=
  c == '>' || c == ' '

def idAttribute (slug : String) : List Char :=
  " id=\"".toList ++ slug.toList ++ "\"".toList

/-- The next opening tag with a prefix: what lies in front of it, and what follows the prefix. -/
def findTag (pre : List Char) : Nat → List Char → Option (List Char × List Char)
  | 0, _ => none
  | n + 1, html =>
      match cutAt pre html with
      | none => none
      | some (before, after) =>
          if after.head?.any isDelimiter then some (before, after)
          -- not a valid heading tag; skip past this occurrence
          else (findTag pre n after).map fun (b, a) => (before ++ (pre ++ b), a)

/-- The HTML from the cursor on, with the ids of some headings. -/
def injectFrom : List Heading → List Char → List Char
  | [], html => html
  | heading :: headings, html =>
      match findTag (tagPrefix heading.depth) (html.length + 1) html with
      | none => injectFrom headings html
      | some (before, after) =>
          match cutAt ['>'] after with
          | none => injectFrom headings html
          | some (attrs, rest) =>
              before ++ (tagPrefix heading.depth ++ ((
                if (cutAt "id=".toList attrs).isSome then [] else idAttribute heading.slug) ++
                  (attrs ++ '>' :: injectFrom headings rest)))

/-- Inject `id` attributes into the tags of headings. -/
def injectIds (html : String) (headings : List Heading) : String :=
  String.ofList (injectFrom headings html.toList)

/-! ### What is injected -/

/-- Some HTML is another with the ids of some headings, each right after the prefix of a tag of its
depth. -/
inductive Inserts : List Heading → List Char → List Char → Prop where
  | refl (headings : List Heading) (html : List Char) : Inserts headings html html
  | skip (heading : Heading) {headings : List Heading} {html out : List Char}
      (h : Inserts headings html out) : Inserts (heading :: headings) html out
  | insert (heading : Heading) (before : List Char) {headings : List Heading}
      {rest out : List Char} (h : Inserts headings rest out) :
      Inserts (heading :: headings) (before ++ (tagPrefix heading.depth ++ rest))
        (before ++ (tagPrefix heading.depth ++ (idAttribute heading.slug ++ out)))

theorem Inserts.append_left {headings : List Heading} {html out : List Char}
    (h : Inserts headings html out) (front : List Char) :
  Inserts headings (front ++ html) (front ++ out)
  := by
  induction h with
  | refl headings html => exact .refl headings _
  | skip heading _ ih => exact .skip heading ih
  | insert heading before h _ =>
      have hinsert := Inserts.insert heading (front ++ before) h
      rw [List.append_assoc, List.append_assoc] at hinsert
      exact hinsert

/-- Where a tag with a prefix starts. -/
def TagAt (pre cs : List Char) : Prop :=
  ∃ after, cs = pre ++ after ∧ after.head?.any isDelimiter = true

/-- The first tag with a prefix. -/
structure FirstTag (pre html before after : List Char) : Prop where
  cut : html = before ++ (pre ++ after)
  delimited : after.head?.any isDelimiter = true
  first : ∀ front back, before = front ++ back → back ≠ [] → ¬ TagAt pre (back ++ (pre ++ after))

/-- A prefix of a tag, which starts with its only bracket. -/
structure Bracketed (pre : List Char) : Prop where
  head : ∃ cs, pre = '<' :: cs ∧ '<' ∉ cs

theorem bracketed_tagPrefix (depth : Nat) :
  Bracketed (tagPrefix depth)
  := by
  refine ⟨_, rfl, ?_⟩
  have hlist : (toString depth).toList = Nat.toDigits 10 depth := Nat.toList_repr
  rw [List.mem_cons, hlist, not_or]
  constructor
  · decide
  · intro hmem
    have hdigit := Nat.isDigit_of_mem_toDigits (b := 10) (by decide) (by decide) hmem
    cases hdigit

theorem Bracketed.ne_nil {pre : List Char} (h : Bracketed pre) :
  pre ≠ []
  := by
  obtain ⟨cs, rfl, _⟩ := h.head
  apply List.cons_ne_nil

theorem Bracketed.front_eq_nil {pre : List Char} (h : Bracketed pre) {front back : List Char}
    (hpre : pre = front ++ '<' :: back) :
  front = []
  := by
  obtain ⟨cs, hcs, hbracket⟩ := h.head
  cases front with
  | nil => rfl
  | cons f front =>
      rw [hcs] at hpre
      injection hpre with _ hrest
      refine absurd ?_ hbracket
      rw [hrest]
      apply List.mem_append_right
      apply List.mem_cons_self

/-- A tag does not start within the prefix of another. -/
theorem Bracketed.not_tagAt {pre : List Char} (h : Bracketed pre) {front back : List Char}
    (hpre : pre = front ++ back) (hfront : front ≠ []) (hback : back ≠ []) (rest : List Char) :
  ¬ TagAt pre (back ++ rest)
  := by
  obtain ⟨cs, hcs, _⟩ := h.head
  rintro ⟨after, hafter, _⟩
  obtain ⟨b, back, rfl⟩ := List.exists_cons_of_ne_nil hback
  rw [hcs] at hafter
  injection hafter with hb _
  rw [hb] at hpre
  exact hfront (h.front_eq_nil hpre)

theorem findTag_eq_some {pre : List Char} (hpre : Bracketed pre) {n : Nat}
    {html before after : List Char} (h : findTag pre n html = some (before, after)) :
  FirstTag pre html before after
  := by
  induction n generalizing html before after with
  | zero => cases h
  | succ n ih =>
      rw [findTag] at h
      split at h
      · cases h
      · rename_i before₁ after₁ hcut
        obtain ⟨hhtml, hfirst⟩ := (cutAt_eq_some_iff hpre.ne_nil).mp hcut
        have hnone : ∀ front back, before₁ = front ++ back → back ≠ [] → ∀ rest,
            back ++ (pre ++ after₁) = rest → ¬ TagAt pre rest := by
          rintro front back hsplit hback rest rfl ⟨tail, htail, _⟩
          apply hfirst front back hsplit hback
          rw [htail]
          apply List.prefix_append
        split at h
        · rename_i hdelimited
          obtain ⟨rfl, rfl⟩ := Prod.mk.inj (Option.some.inj h)
          refine ⟨hhtml, hdelimited, ?_⟩
          intro front back hsplit hback
          exact hnone front back hsplit hback _ rfl
        · rename_i hopen
          obtain ⟨⟨before₂, after₂⟩, hfound, hparts⟩ := Option.map_eq_some_iff.mp h
          obtain ⟨rfl, rfl⟩ := Prod.mk.inj hparts
          obtain ⟨hcut₂, hdelimited, hfirst₂⟩ := ih hfound
          have hwhole : pre ++ (before₂ ++ (pre ++ after₂)) = pre ++ after₁ := by
            rw [hcut₂]
          refine ⟨?_, hdelimited, ?_⟩
          · rw [hhtml, hcut₂]
            simp only [List.append_assoc]
          · intro front back hsplit hback
            rcases List.append_eq_append_iff.mp hsplit with ⟨more, _, hmore⟩ | ⟨more, hmore, hback'⟩
            · rcases List.append_eq_append_iff.mp hmore with ⟨more', _, hrest⟩ | ⟨more', hpre', hb⟩
              · exact hfirst₂ more' back hrest hback
              · rw [hb, List.append_assoc]
                cases more' with
                | nil =>
                    rw [List.nil_append] at hb ⊢
                    rw [hb] at hback
                    exact hfirst₂ [] before₂ rfl hback
                | cons c more' =>
                    cases more with
                    | nil =>
                        rw [List.nil_append] at hpre'
                        rw [← hpre', hwhole]
                        rintro ⟨tail, htail, hdelimited'⟩
                        rw [← List.append_cancel_left htail] at hdelimited'
                        exact hopen hdelimited'
                    | cons d more =>
                        exact hpre.not_tagAt hpre' (List.cons_ne_nil d more)
                          (List.cons_ne_nil c more') _
            · rw [hback', List.append_assoc, List.append_assoc, hwhole]
              cases more with
              | nil =>
                  rintro ⟨tail, htail, hdelimited'⟩
                  rw [List.nil_append] at htail
                  rw [← List.append_cancel_left htail] at hdelimited'
                  exact hopen hdelimited'
              | cons c more =>
                  exact hnone front (c :: more) hmore (List.cons_ne_nil c more) _ rfl

theorem findTag_isSome {pre : List Char} (hpre : Bracketed pre) {n : Nat}
    {html before after : List Char} (hn : html.length < n) (hhtml : html = before ++ (pre ++ after))
    (hdelimited : after.head?.any isDelimiter = true) :
  ∃ before' after', findTag pre n html = some (before', after')
  := by
  induction n generalizing html before with
  | zero => cases hn
  | succ n ih =>
      have hoccurs : pre <:+: html := by
        use before, after
        rw [hhtml, List.append_assoc]
      obtain ⟨before₁, after₁, hcut⟩ := cutAt_isSome hoccurs
      obtain ⟨hsplit, hfirst⟩ := (cutAt_eq_some_iff hpre.ne_nil).mp hcut
      rw [findTag, hcut]
      simp only
      split
      · exact ⟨_, _, rfl⟩
      · rename_i hopen
        have hlater : ∃ front, after₁ = front ++ (pre ++ after) := by
          rw [hhtml] at hsplit
          rcases List.append_eq_append_iff.mp hsplit with ⟨more, hmore, hrest⟩ | ⟨more, hmore, hrest⟩
          · cases more with
            | nil =>
                rw [← List.append_cancel_left hrest] at hopen
                exact absurd hdelimited hopen
            | cons c more =>
                refine absurd ?_ (hfirst before (c :: more) hmore (List.cons_ne_nil c more))
                rw [← hrest]
                apply List.prefix_append
          · rcases List.append_eq_append_iff.mp hrest with ⟨more', hmore', htail⟩ | ⟨more', hpre', htail⟩
            · exact ⟨more', htail⟩
            · cases more' with
              | nil => exact ⟨[], htail.symm⟩
              | cons d more' =>
                  cases more with
                  | nil =>
                      rw [List.nil_append] at hrest
                      rw [List.append_cancel_left hrest] at hopen
                      exact absurd hdelimited hopen
                  | cons c more =>
                      have hat : TagAt pre ((d :: more') ++ after₁) := ⟨after, htail.symm, hdelimited⟩
                      exact absurd hat (hpre.not_tagAt hpre' (List.cons_ne_nil c more)
                        (List.cons_ne_nil d more') _)
        obtain ⟨front, hfront⟩ := hlater
        have hlength : after₁.length < n := by
          have hpos := List.length_pos_iff.mpr hpre.ne_nil
          rw [hsplit, List.length_append, List.length_append] at hn
          omega
        obtain ⟨b, a, hfound⟩ := ih hlength hfront
        rw [hfound]
        exact ⟨_, _, rfl⟩

/-- What is done for one heading: nothing, or an id where its tag is found. -/
theorem injectFrom_cons (heading : Heading) (headings : List Heading) (html : List Char) :
  injectFrom (heading :: headings) html = injectFrom headings html ∨
    ∃ before attrs rest,
      FirstTag (tagPrefix heading.depth) html before (attrs ++ '>' :: rest) ∧ '>' ∉ attrs ∧
      (injectFrom (heading :: headings) html =
          before ++ (tagPrefix heading.depth ++ (attrs ++ '>' :: injectFrom headings rest)) ∨
        ¬ "id=".toList <:+: attrs ∧
          injectFrom (heading :: headings) html =
            before ++ (tagPrefix heading.depth ++
              (idAttribute heading.slug ++ (attrs ++ '>' :: injectFrom headings rest))))
  := by
  rw [injectFrom]
  split
  · exact Or.inl rfl
  · rename_i before after hfound
    have hfirst := findTag_eq_some (bracketed_tagPrefix heading.depth) hfound
    split
    · exact Or.inl rfl
    · rename_i attrs rest hclose
      obtain ⟨hafter, hattrs⟩ := cutAt_singleton_iff.mp hclose
      rw [hafter] at hfirst
      right
      refine ⟨before, attrs, rest, hfirst, hattrs, ?_⟩
      cases hid : cutAt "id=".toList attrs with
      | some found =>
          left
          rw [Option.isSome_some, if_pos rfl, List.nil_append]
      | none =>
          right
          refine ⟨cutAt_eq_none hid, ?_⟩
          rw [Option.isSome_none, if_neg Bool.false_ne_true]

/-- The HTML changes only by ids that are inserted right after the prefixes of tags. -/
theorem inserts_injectFrom (headings : List Heading) (html : List Char) :
  Inserts headings html (injectFrom headings html)
  := by
  induction headings generalizing html with
  | nil => exact .refl [] html
  | cons heading headings ih =>
      rcases injectFrom_cons heading headings html with
        hkept | ⟨before, attrs, rest, hfirst, _, hresult | ⟨_, hresult⟩⟩
      · rw [hkept]
        exact .skip heading (ih html)
      · rw [hresult, hfirst.cut]
        apply Inserts.skip heading
        apply Inserts.append_left
        apply Inserts.append_left
        apply Inserts.append_left
        exact (ih rest).append_left ['>']
      · rw [hresult, hfirst.cut]
        apply Inserts.insert heading before
        apply Inserts.append_left
        exact (ih rest).append_left ['>']

/-! ### Where the ids land -/

/-- The opening tag of a heading in some HTML: what lies in front of it, and the slug of the heading
if that is listed. -/
structure HeadingTag where
  gap : List Char
  depth : Nat
  mark : Option String

namespace HeadingTag

/-- The HTML with tags in it. -/
def plain : List HeadingTag → List Char → List Char
  | [], last => last
  | t :: tags, last => t.gap ++ (tagPrefix t.depth ++ '>' :: plain tags last)

/-- The HTML with the slugs of the headings as the ids of their own tags. -/
def withIds : List HeadingTag → List Char → List Char
  | [], last => last
  | t :: tags, last =>
      t.gap ++ (tagPrefix t.depth ++ (t.mark.elim [] idAttribute ++ '>' :: withIds tags last))

def marks (tags : List HeadingTag) : List String :=
  tags.filterMap mark

end HeadingTag

open HeadingTag (plain withIds marks)

/-- No tag of a depth starts in some HTML that others follow. -/
def Clear (depth : Nat) (html rest : List Char) : Prop :=
  ∀ front back, html = front ++ back → back ≠ [] → ¬ TagAt (tagPrefix depth) (back ++ rest)

/-- The tags of the listed headings come in the order of the list, and between two of them, or in
front of the first, no tag of the depth of the second starts; some HTML since the last is given. -/
def Lands : List Heading → List Char → List HeadingTag → Prop
  | [], _, _ => True
  | _ :: _, _, [] => False
  | heading :: headings, front, t :: tags =>
      match t.mark with
      | none =>
          Lands (heading :: headings) (front ++ (t.gap ++ (tagPrefix t.depth ++ ['>']))) tags
      | some slug =>
          slug = heading.slug ∧ t.depth = heading.depth ∧
            Clear heading.depth (front ++ t.gap) (tagPrefix t.depth ++ ['>']) ∧
            Lands headings [] tags

/-- The length of some ids. -/
def idsLength (slugs : List String) : Nat :=
  (slugs.map fun slug => (idAttribute slug).length).sum

theorem idAttribute_length_pos (slug : String) :
  0 < (idAttribute slug).length
  := by
  rw [idAttribute, List.append_assoc, List.length_append]
  have hpos : 0 < " id=\"".toList.length := by decide
  omega

theorem length_withIds (tags : List HeadingTag) (last : List Char) :
  (withIds tags last).length = (plain tags last).length + idsLength (marks tags)
  := by
  induction tags with
  | nil => rfl
  | cons t tags ih =>
      rw [withIds, plain, marks, List.filterMap_cons]
      cases t.mark with
      | none =>
          simp only [Option.elim_none, List.nil_append, List.length_append, List.length_cons, ih]
          rw [marks]
          omega
      | some slug =>
          simp only [Option.elim_some, List.length_append, List.length_cons, ih, idsLength,
            List.map_cons, List.sum_cons]
          rw [marks]
          omega

theorem length_injectFrom_le (headings : List Heading) (html : List Char) :
  (injectFrom headings html).length ≤ html.length + idsLength (headings.map Heading.slug)
  := by
  induction headings generalizing html with
  | nil => apply le_rfl
  | cons heading headings ih =>
      have hids : idsLength ((heading :: headings).map Heading.slug) =
          (idAttribute heading.slug).length + idsLength (headings.map Heading.slug) := rfl
      rcases injectFrom_cons heading headings html with
        hkept | ⟨before, attrs, rest, hfirst, _, hresult | ⟨_, hresult⟩⟩
      · rw [hkept, hids]
        have hle := ih html
        omega
      · rw [hresult, hfirst.cut, hids]
        have hle := ih rest
        simp only [List.length_append, List.length_cons]
        omega
      · rw [hresult, hfirst.cut, hids]
        have hle := ih rest
        simp only [List.length_append, List.length_cons]
        omega

/-- If all ids are as long together as they can be, an id is injected for the first heading. -/
theorem injected_of_length {heading : Heading} {headings : List Heading} {html : List Char}
    (h : html.length + idsLength ((heading :: headings).map Heading.slug) ≤
      (injectFrom (heading :: headings) html).length) :
  ∃ before attrs rest,
    FirstTag (tagPrefix heading.depth) html before (attrs ++ '>' :: rest) ∧ '>' ∉ attrs ∧
    ¬ "id=".toList <:+: attrs ∧
    injectFrom (heading :: headings) html =
      before ++ (tagPrefix heading.depth ++
        (idAttribute heading.slug ++ (attrs ++ '>' :: injectFrom headings rest)))
  := by
  have hids : idsLength ((heading :: headings).map Heading.slug) =
      (idAttribute heading.slug).length + idsLength (headings.map Heading.slug) := rfl
  have hpos := idAttribute_length_pos heading.slug
  rcases injectFrom_cons heading headings html with
    hkept | ⟨before, attrs, rest, hfirst, hattrs, hresult | ⟨hid, hresult⟩⟩
  · have hle := length_injectFrom_le headings html
    rw [hkept, hids] at h
    omega
  · have hle := length_injectFrom_le headings rest
    rw [hresult, hfirst.cut, hids] at h
    simp only [List.length_append, List.length_cons] at h
    omega
  · exact ⟨before, attrs, rest, hfirst, hattrs, hid, hresult⟩

theorem FirstTag.unique {pre html before before' after after' : List Char}
    (h : FirstTag pre html before after) (h' : FirstTag pre html before' after') :
  before = before' ∧ after = after'
  := by
  have hcut := h.cut.symm.trans h'.cut
  have hbefore : before = before' := by
    rcases List.append_eq_append_iff.mp hcut with ⟨more, hmore, hrest⟩ | ⟨more, hmore, hrest⟩
    · cases more with
      | nil => rw [hmore, List.append_nil]
      | cons c more =>
          have hat : TagAt pre (c :: more ++ (pre ++ after')) := ⟨after, hrest.symm, h.delimited⟩
          exact absurd hat (h'.first before (c :: more) hmore (List.cons_ne_nil c more))
    · cases more with
      | nil => rw [hmore, List.append_nil]
      | cons c more =>
          have hat : TagAt pre (c :: more ++ (pre ++ after)) := ⟨after', hrest.symm, h'.delimited⟩
          exact absurd hat (h.first before' (c :: more) hmore (List.cons_ne_nil c more))
  subst hbefore
  exact ⟨rfl, List.append_cancel_left (List.append_cancel_left hcut)⟩

/-- The id of a heading is injected into the first tag of its depth. -/
theorem injectFrom_of_first {heading : Heading} {html before rest : List Char}
    (h : FirstTag (tagPrefix heading.depth) html before ('>' :: rest)) (headings : List Heading) :
  injectFrom (heading :: headings) html =
    before ++ (tagPrefix heading.depth ++
      (idAttribute heading.slug ++ '>' :: injectFrom headings rest))
  := by
  have hpre := bracketed_tagPrefix heading.depth
  obtain ⟨before', after', hfound⟩ :=
    findTag_isSome hpre (Nat.lt_succ_self html.length) h.cut h.delimited
  obtain ⟨rfl, rfl⟩ := h.unique (findTag_eq_some hpre hfound)
  have hclose : cutAt ['>'] ('>' :: rest) = some ([], rest) := by
    apply cutAt_singleton_iff.mpr
    exact ⟨rfl, List.not_mem_nil⟩
  rw [injectFrom, hfound]
  simp only [hclose]
  rfl

/-- The digits of a depth end where a tag is delimited. -/
theorem tagPrefix_append_inj {depth depth' : Nat} {rest rest' : List Char}
    (h : tagPrefix depth ++ rest = tagPrefix depth' ++ rest')
    (hrest : rest.head?.any isDelimiter = true) (hrest' : rest'.head?.any isDelimiter = true) :
  depth = depth' ∧ rest = rest'
  := by
  have hdigits : ∀ n : Nat, ∀ c ∈ (toString n).toList, c.isDigit = true := by
    intro n c hc
    have hlist : (toString n).toList = Nat.toDigits 10 n := Nat.toList_repr
    rw [hlist] at hc
    exact Nat.isDigit_of_mem_toDigits (b := 10) (by decide) (by decide) hc
  have hstop : ∀ cs : List Char, cs.head?.any isDelimiter = true →
      cs.takeWhile Char.isDigit = [] := by
    intro cs hcs
    cases cs with
    | nil => rfl
    | cons c cs =>
        have hc : isDelimiter c = true := hcs
        have hcases : c = '>' ∨ c = ' ' := by
          rw [isDelimiter, Bool.or_eq_true, beq_iff_eq, beq_iff_eq] at hc
          exact hc
        rcases hcases with rfl | rfl
        · rfl
        · rfl
  have htail : (toString depth).toList ++ rest = (toString depth').toList ++ rest' := by
    injection h with _ h
    injection h with _ h
  have htaken := congrArg (List.takeWhile Char.isDigit) htail
  rw [List.takeWhile_append_of_pos (hdigits depth), List.takeWhile_append_of_pos (hdigits depth'),
    hstop rest hrest, hstop rest' hrest', List.append_nil, List.append_nil] at htaken
  have hdepth : depth = depth' := by
    have hlist : (toString depth).toList = Nat.toDigits 10 depth := Nat.toList_repr
    have hlist' : (toString depth').toList = Nat.toDigits 10 depth' := Nat.toList_repr
    rw [← Nat.ofDigitChars_ten_toDigits (n := depth), ← hlist, htaken, hlist',
      Nat.ofDigitChars_ten_toDigits]
  subst hdepth
  exact ⟨rfl, List.append_cancel_left htail⟩

/-- A slug can be read off the id that is made of it. -/
theorem idAttribute_append_inj {slug slug' : String} {rest rest' : List Char}
    (h : idAttribute slug ++ rest = idAttribute slug' ++ rest')
    (hslug : '"' ∉ slug.toList) (hslug' : '"' ∉ slug'.toList) :
  slug = slug' ∧ rest = rest'
  := by
  rw [idAttribute, idAttribute] at h
  simp only [List.append_assoc] at h
  have hquoted := List.append_cancel_left h
  have hcut : cutAt ['"'] (slug.toList ++ '"' :: rest) = some (slug.toList, rest) :=
    cutAt_singleton_iff.mpr ⟨rfl, hslug⟩
  have hcut' : cutAt ['"'] (slug'.toList ++ '"' :: rest') = some (slug'.toList, rest') :=
    cutAt_singleton_iff.mpr ⟨rfl, hslug'⟩
  have hsame : slug.toList ++ '"' :: rest = slug'.toList ++ '"' :: rest' := hquoted
  rw [hsame, hcut'] at hcut
  obtain ⟨hlist, hrest⟩ := Prod.mk.inj (Option.some.inj hcut)
  exact ⟨String.toList_inj.mp hlist.symm, hrest.symm⟩

theorem idAttribute_append (slug : String) (rest : List Char) :
  idAttribute slug ++ rest = " id=".toList ++ ('"' :: (slug.toList ++ '"' :: rest))
  := by
  rw [idAttribute]
  simp only [List.append_assoc]
  rfl

/-- A tag without an id does not go on as one with an id. -/
theorem not_id_prefix {attrs : List Char} (hid : ¬ "id=".toList <:+: attrs) (rest : List Char) :
  ¬ " id=".toList <+: attrs ++ '>' :: rest
  := by
  rintro ⟨tail, htail⟩
  rcases List.append_eq_append_iff.mp htail with ⟨more, hmore, _⟩ | ⟨more, hmore, hrest⟩
  · apply hid
    rw [hmore]
    exact ⟨[' '], more, rfl⟩
  · cases more with
    | nil =>
        apply hid
        rw [List.append_nil] at hmore
        rw [← hmore]
        exact ⟨[' '], [], rfl⟩
    | cons c more =>
        injection hrest with hhead _
        have hmem : '>' ∈ " id=".toList := by
          rw [hmore, hhead]
          apply List.mem_append_right
          apply List.mem_cons_self
        revert hmem
        decide

section Injected

variable {pre pre' attrs rest rest' out out' : List Char} {slug slug' : String}
  (hpre : Bracketed pre) (hpre' : Bracketed pre')

include hpre hpre'

/-- A tag does not come after the one that an id is injected into. -/
theorem eq_nil_of_after {more : List Char} (h : pre' ++ '>' :: rest = more ++ (pre ++ out))
    (h' : pre' ++ (idAttribute slug ++ rest') = more ++ (pre ++ out')) :
  more = []
  := by
  obtain ⟨cs, hcs, _⟩ := hpre.head
  rcases List.append_eq_append_iff.mp h with ⟨more', hmore, hrest⟩ | ⟨more', hmore, hrest⟩
  · exfalso
    rw [hmore, List.append_assoc] at h'
    have hid := List.append_cancel_left h'
    rw [hcs] at hrest
    cases more' with
    | nil =>
        injection hrest with hhead _
        cases hhead
    | cons c more' =>
        rw [idAttribute_append] at hid
        injection hrest with hhead _
        injection hid with hhead' _
        rw [← hhead] at hhead'
        cases hhead'
  · rw [hcs] at hrest
    cases more' with
    | nil =>
        injection hrest with hhead _
        cases hhead
    | cons c more' =>
        injection hrest with hhead _
        rw [← hhead] at hmore
        exact hpre'.front_eq_nil hmore

/-- A tag does not come before the one that an id is injected into, if it has none. -/
theorem eq_nil_of_before {more : List Char} (hid : ¬ "id=".toList <:+: attrs)
    (hdelimited : (attrs ++ '>' :: rest).head?.any isDelimiter = true)
    (h : pre ++ (attrs ++ '>' :: rest) = more ++ (pre' ++ out))
    (h' : pre ++ (idAttribute slug ++ rest') = more ++ (pre' ++ out')) :
  more = []
  := by
  obtain ⟨cs, hcs, _⟩ := hpre'.head
  have hopen : ∀ tail, attrs ++ '>' :: rest ≠ '<' :: tail := by
    intro tail htail
    rw [htail] at hdelimited
    cases hdelimited
  have hid' := not_id_prefix hid rest
  rcases List.append_eq_append_iff.mp h with ⟨more', hmore, hrest⟩ | ⟨more', hmore, hrest⟩
  · exfalso
    rw [hmore, List.append_assoc] at h'
    have hinjected := List.append_cancel_left h'
    rw [idAttribute_append] at hinjected
    rcases List.append_eq_append_iff.mp hinjected with
      ⟨tail, htail, _⟩ | ⟨tail, htail, hafter⟩
    · apply hid'
      rw [hrest, htail, List.append_assoc]
      apply List.prefix_append
    · cases tail with
      | nil =>
          rw [List.append_nil] at htail
          apply hid'
          rw [hrest, htail]
          apply List.prefix_append
      | cons c tail =>
          rw [hcs] at hafter
          injection hafter with hhead _
          have hmem : '<' ∈ " id=".toList := by
            rw [htail, hhead]
            apply List.mem_append_right
            apply List.mem_cons_self
          revert hmem
          decide
  · rw [hcs] at hrest
    cases more' with
    | nil => exact absurd hrest.symm (hopen _)
    | cons c more' =>
        injection hrest with hhead _
        rw [← hhead] at hmore
        exact hpre.front_eq_nil hmore

end Injected

theorem tagAt_iff_isPrefix {pre cs : List Char} :
  TagAt pre cs ↔ ∃ c, isDelimiter c = true ∧ pre ++ [c] <+: cs
  := by
  constructor
  · rintro ⟨after, rfl, hdelimited⟩
    cases after with
    | nil => cases hdelimited
    | cons c after =>
        use c, hdelimited
        exact ⟨after, by simp⟩
  · rintro ⟨c, hc, after, rfl⟩
    exact ⟨c :: after, by simp, hc⟩

/-- The first tag of a depth is one that no other starts in front of. -/
theorem firstTag_iff_clear (depth : Nat) (front rest : List Char) :
  FirstTag (tagPrefix depth) (front ++ (tagPrefix depth ++ '>' :: rest)) front ('>' :: rest) ↔
    Clear depth front (tagPrefix depth ++ ['>'])
  := by
  have hat : ∀ back : List Char, TagAt (tagPrefix depth) (back ++ (tagPrefix depth ++ '>' :: rest)) ↔
      TagAt (tagPrefix depth) (back ++ (tagPrefix depth ++ ['>'])) := by
    intro back
    have hlonger : back ++ (tagPrefix depth ++ '>' :: rest) =
        (back ++ (tagPrefix depth ++ ['>'])) ++ rest := by simp
    have hlength : ∀ c : Char, (tagPrefix depth ++ [c]).length ≤
        (back ++ (tagPrefix depth ++ ['>'])).length := by
      intro c
      simp only [List.length_append, List.length_singleton]
      omega
    rw [tagAt_iff_isPrefix, tagAt_iff_isPrefix, hlonger]
    constructor
    · rintro ⟨c, hc, hprefix'⟩
      exact ⟨c, hc, List.prefix_of_prefix_length_le hprefix' (List.prefix_append _ rest) (hlength c)⟩
    · rintro ⟨c, hc, hprefix'⟩
      exact ⟨c, hc, hprefix'.trans (List.prefix_append _ rest)⟩
  constructor
  · intro h front' back hfront hback
    rw [← hat back]
    exact h.first front' back hfront hback
  · intro h
    refine ⟨rfl, rfl, ?_⟩
    intro front' back hfront hback
    rw [hat back]
    exact h front' back hfront hback

/-- The id of the first heading is that of a tag just if this is the first tag of its depth. -/
theorem injected_iff {heading : Heading} {headings : List Heading} {depth : Nat} {slug : String}
    {front rest out : List Char} (hslug : '"' ∉ slug.toList) (hheading : '"' ∉ heading.slug.toList)
    (hlength : (front ++ (tagPrefix depth ++ '>' :: rest)).length +
        idsLength ((heading :: headings).map Heading.slug) ≤
      (front ++ (tagPrefix depth ++ (idAttribute slug ++ '>' :: out))).length) :
  injectFrom (heading :: headings) (front ++ (tagPrefix depth ++ '>' :: rest)) =
      front ++ (tagPrefix depth ++ (idAttribute slug ++ '>' :: out)) ↔
    slug = heading.slug ∧ depth = heading.depth ∧
      FirstTag (tagPrefix heading.depth) (front ++ (tagPrefix depth ++ '>' :: rest)) front
        ('>' :: rest) ∧
      injectFrom headings rest = out
  := by
  constructor
  · intro h
    rw [← h] at hlength
    obtain ⟨before, attrs, rest', hfirst, hattrs, hid, hinjected⟩ := injected_of_length hlength
    have hout := hinjected.symm.trans h
    have hpre := bracketed_tagPrefix heading.depth
    have hpre' := bracketed_tagPrefix depth
    have hbefore : before = front := by
      rcases List.append_eq_append_iff.mp hfirst.cut with ⟨more, hmore, hrest⟩ | ⟨more, hmore, hrest⟩
      · rw [hmore, List.append_assoc] at hout
        have hnil := eq_nil_of_after hpre hpre' hrest (List.append_cancel_left hout).symm
        rw [hmore, hnil, List.append_nil]
      · rw [hmore, List.append_assoc] at hout
        have hnil := eq_nil_of_before hpre hpre' hid hfirst.delimited hrest
          (List.append_cancel_left hout)
        rw [hmore, hnil, List.append_nil]
    subst hbefore
    have htag := List.append_cancel_left hfirst.cut
    obtain ⟨hdepth, hattrs'⟩ := tagPrefix_append_inj htag rfl hfirst.delimited
    subst hdepth
    have hnone : attrs = [] ∧ rest = rest' := by
      cases attrs with
      | nil =>
          injection hattrs' with _ hrest
          exact ⟨rfl, hrest⟩
      | cons c attrs =>
          injection hattrs' with hhead _
          rw [hhead] at hattrs
          exact absurd List.mem_cons_self hattrs
    obtain ⟨rfl, rfl⟩ := hnone
    obtain ⟨hsame, hrest⟩ := idAttribute_append_inj
      (List.append_cancel_left (List.append_cancel_left hout)) hheading hslug
    injection hrest with _ hrest
    exact ⟨hsame.symm, rfl, hfirst, hrest⟩
  · rintro ⟨rfl, rfl, hfirst, rfl⟩
    exact injectFrom_of_first hfirst headings

/-- The ids are those of the tags of their own headings, just if they land there. -/
theorem injectFrom_eq_withIds_iff {headings : List Heading} {tags : List HeadingTag}
    (hmarks : (marks tags).Perm (headings.map Heading.slug))
    (hslugs : ∀ heading ∈ headings, '"' ∉ heading.slug.toList) (front last : List Char) :
  injectFrom headings (front ++ plain tags last) = front ++ withIds tags last ↔
    Lands headings front tags
  := by
  induction tags generalizing headings front with
  | nil =>
      have hnil : headings = [] := List.map_eq_nil_iff.mp (List.Perm.nil_eq hmarks).symm
      subst hnil
      exact iff_of_true rfl trivial
  | cons t tags ih =>
      cases headings with
      | nil =>
          rw [List.map_nil, List.perm_nil] at hmarks
          apply iff_of_true
          · have hplain : ∀ tags : List HeadingTag, marks tags = [] →
                withIds tags last = plain tags last := by
              intro tags hnone
              induction tags with
              | nil => rfl
              | cons t tags ih =>
                  rw [marks, List.filterMap_cons] at hnone
                  cases hmark : t.mark with
                  | none =>
                      rw [hmark] at hnone
                      rw [withIds, plain, hmark, ih hnone]
                      rfl
                  | some slug =>
                      rw [hmark] at hnone
                      cases hnone
            rw [hplain _ hmarks]
            rfl
          · trivial
      | cons heading headings =>
          rw [Lands, plain, withIds]
          cases hmark : t.mark with
          | none =>
              have hmarks' : (marks tags).Perm ((heading :: headings).map Heading.slug) := by
                rw [marks, List.filterMap_cons, hmark] at hmarks
                exact hmarks
              have hrest := ih hmarks' hslugs (front ++ (t.gap ++ (tagPrefix t.depth ++ ['>'])))
              simp only [List.append_assoc, List.cons_append, List.nil_append] at hrest
              simp only [Option.elim_none, List.nil_append]
              exact hrest
          | some slug =>
              have hmarks' : (slug :: marks tags).Perm ((heading :: headings).map Heading.slug) := by
                rw [marks, List.filterMap_cons, hmark] at hmarks
                exact hmarks
              have hslug : '"' ∉ slug.toList := by
                obtain ⟨h, hh, hhslug⟩ := List.mem_map.mp (hmarks'.subset List.mem_cons_self)
                rw [← hhslug]
                exact hslugs h hh
              have hlength : (front ++ t.gap ++ (tagPrefix t.depth ++ '>' :: plain tags last)).length +
                    idsLength ((heading :: headings).map Heading.slug) ≤
                  (front ++ t.gap ++ (tagPrefix t.depth ++
                    (idAttribute slug ++ '>' :: withIds tags last))).length := by
                have hids : idsLength ((heading :: headings).map Heading.slug) =
                    (idAttribute slug).length + idsLength (marks tags) :=
                  ((hmarks'.map _).sum_nat).symm
                rw [hids]
                simp only [List.length_append, List.length_cons, length_withIds]
                omega
              have hfirst := injected_iff hslug (hslugs heading List.mem_cons_self) hlength
              simp only [List.append_assoc] at hfirst
              simp only [Option.elim_some]
              rw [hfirst]
              constructor
              · rintro ⟨hslug', hdepth, htag, hrest⟩
                refine ⟨hslug', hdepth, ?_, ?_⟩
                · rw [hdepth, ← List.append_assoc front] at htag
                  rw [hdepth]
                  exact (firstTag_iff_clear heading.depth _ _).mp htag
                · rw [hslug', List.map_cons] at hmarks'
                  apply (ih hmarks'.cons_inv _ []).mp hrest
                  intro h hh
                  exact hslugs h (List.mem_cons_of_mem heading hh)
              · rintro ⟨hslug', hdepth, hclear, hlands⟩
                refine ⟨hslug', hdepth, ?_, ?_⟩
                · rw [hdepth] at hclear
                  rw [hdepth, ← List.append_assoc front]
                  exact (firstTag_iff_clear heading.depth _ _).mpr hclear
                · rw [hslug', List.map_cons] at hmarks'
                  apply (ih hmarks'.cons_inv _ []).mpr hlands
                  intro h hh
                  exact hslugs h (List.mem_cons_of_mem heading hh)

end Markup
