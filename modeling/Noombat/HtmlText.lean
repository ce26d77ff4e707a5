import Mathlib.Data.List.Basic
import Noombat.Text

/-!
# Text in HTML

A text is written in HTML with entities in the place of the characters of markup.  A reader sees
of a piece of HTML what is left when its tags are taken away and its entities are read.
-/

namespace HtmlText

/-- The quotation mark. -/
def quote : Char :=
  Char.ofNat 0x22

/-- The apostrophe. -/
def apostrophe : Char :=
  Char.ofNat 0x27

/-- A character as it is written in HTML. -/
def escapeChar (c : Char) : List Char :=
  if c = '&' then "&amp;".toList
  else if c = '<' then "&lt;".toList
  else if c = '>' then "&gt;".toList
  else if c = quote then "&quot;".toList
  else if c = apostrophe then "&#x27;".toList
  else [c]

def escape (cs : List Char) : List Char :=
  cs.flatMap escapeChar

/-- The text of some HTML without tags. -/
def unescape : List Char → List Char
  | [] => []
  | '&' :: 'a' :: 'm' :: 'p' :: ';' :: cs => '&' :: unescape cs
  | '&' :: 'l' :: 't' :: ';' :: cs => '<' :: unescape cs
  | '&' :: 'g' :: 't' :: ';' :: cs => '>' :: unescape cs
  | '&' :: 'q' :: 'u' :: 'o' :: 't' :: ';' :: cs => quote :: unescape cs
  | '&' :: '#' :: 'x' :: '2' :: '7' :: ';' :: cs => apostrophe :: unescape cs
  | c :: cs => c :: unescape cs

/-- Some HTML without its tags, the first of which may be open. -/
def stripTags : Bool → List Char → List Char
  | _, [] => []
  | true, c :: cs => stripTags (c != '>') cs
  | false, c :: cs => if c = '<' then stripTags true cs else c :: stripTags false cs

/-- The characters that an escaped text does not have. -/
def isMarkup (c : Char) : Bool :=
  c == '<' || c == '>' || c == quote || c == apostrophe

/-- Every ampersand of a text starts an entity. -/
def EntitiesOnly (cs : List Char) : Prop :=
  ∀ front back, cs = front ++ '&' :: back →
    ∃ name ∈ ["amp;".toList, "lt;".toList, "gt;".toList, "quot;".toList, "#x27;".toList],
      name <+: back

/-- A text that is no markup. -/
structure Escaped (cs : List Char) : Prop where
  plain : ∀ c ∈ cs, isMarkup c = false
  entities : EntitiesOnly cs

theorem unescape_cons {c : Char} (h : c ≠ '&') (cs : List Char) :
  unescape (c :: cs) = c :: unescape cs
  := by
  rw [unescape]
  all_goals
    intro _ hc _
    exact h hc

theorem unescape_escapeChar (c : Char) (cs : List Char) :
  unescape (escapeChar c ++ cs) = c :: unescape cs
  := by
  rw [escapeChar]
  split
  · rename_i hc
    rw [hc]
    rfl
  · rename_i hamp
    split
    · rename_i hc
      rw [hc]
      rfl
    · split
      · rename_i hc
        rw [hc]
        rfl
      · split
        · rename_i hc
          rw [hc]
          rfl
        · split
          · rename_i hc
            rw [hc]
            rfl
          · exact unescape_cons hamp cs

/-- An escaped text is read as it was. -/
@[simp]
theorem unescape_escape (cs : List Char) :
  unescape (escape cs) = cs
  := by
  induction cs with
  | nil => rfl
  | cons c cs ih =>
      rw [escape, List.flatMap_cons, unescape_escapeChar]
      exact congrArg (List.cons c) ih

theorem plain_escapeChar (c : Char) :
  ∀ d ∈ escapeChar c, isMarkup d = false
  := by
  rw [escapeChar]
  split
  · decide
  · split
    · decide
    · split
      · decide
      · split
        · decide
        · split
          · decide
          · rename_i hlt hgt hquote hapostrophe
            intro d hd
            obtain rfl := List.mem_singleton.mp hd
            rw [isMarkup, beq_false_of_ne hlt, beq_false_of_ne hgt, beq_false_of_ne hquote,
              beq_false_of_ne hapostrophe]
            rfl

theorem plain_escape (cs : List Char) :
  ∀ c ∈ escape cs, isMarkup c = false
  := by
  intro c hc
  obtain ⟨d, _, hd⟩ := List.mem_flatMap.mp hc
  exact plain_escapeChar d c hd

/-- An entity starts with its ampersand, and has no other. -/
theorem escapeChar_cases (c : Char) :
  (∃ name ∈ ["amp;".toList, "lt;".toList, "gt;".toList, "quot;".toList, "#x27;".toList],
    escapeChar c = '&' :: name ∧ '&' ∉ name) ∨ (c ≠ '&' ∧ escapeChar c = [c])
  := by
  rw [escapeChar]
  split
  · left
    exact ⟨"amp;".toList, by decide, rfl, by decide⟩
  · rename_i hamp
    split
    · left
      exact ⟨"lt;".toList, by decide, rfl, by decide⟩
    · split
      · left
        exact ⟨"gt;".toList, by decide, rfl, by decide⟩
      · split
        · left
          exact ⟨"quot;".toList, by decide, rfl, by decide⟩
        · split
          · left
            exact ⟨"#x27;".toList, by decide, rfl, by decide⟩
          · right
            exact ⟨hamp, rfl⟩

theorem entitiesOnly_escape (cs : List Char) :
  EntitiesOnly (escape cs)
  := by
  induction cs with
  | nil =>
      intro front back hcs
      exact absurd hcs.symm (List.append_ne_nil_of_right_ne_nil front (List.cons_ne_nil _ back))
  | cons c cs ih =>
      intro front back hcs
      rw [escape, List.flatMap_cons] at hcs
      rcases escapeChar_cases c with ⟨name, hname, hescaped, hone⟩ | ⟨hamp, hescaped⟩
      · rw [hescaped] at hcs
        rcases List.append_eq_append_iff.mp hcs with ⟨more, hfront, hback⟩ | ⟨more, hfront, hback⟩
        · exact ih more back hback
        · cases front with
          | nil =>
              use name, hname
              cases more with
              | nil => cases hfront
              | cons d more =>
                  injection hfront with hd hmore
                  injection hback with _ hback
                  rw [hmore, hback]
                  apply List.prefix_append
          | cons d front =>
              injection hfront with _ hname'
              cases more with
              | nil => exact ih [] back hback.symm
              | cons e more =>
                  injection hback with he _
                  refine absurd ?_ hone
                  rw [hname', ← he]
                  apply List.mem_append_right
                  apply List.mem_cons_self
      · rw [hescaped] at hcs
        cases front with
        | nil =>
            injection hcs with hc _
            exact absurd hc hamp
        | cons d front =>
            injection hcs with _ hcs
            exact ih front back hcs

/-- Whatever a text is, it is no markup when it is escaped. -/
theorem escaped_escape (cs : List Char) :
  Escaped (escape cs)
  := ⟨plain_escape cs, entitiesOnly_escape cs⟩

/-! ### Tags -/

theorem stripTags_plain {cs : List Char} (h : ∀ c ∈ cs, c ≠ '<') (rest : List Char) :
  stripTags false (cs ++ rest) = cs ++ stripTags false rest
  := by
  induction cs with
  | nil => rfl
  | cons c cs ih =>
      obtain ⟨hc, hcs⟩ := List.forall_mem_cons.mp h
      rw [List.cons_append, stripTags, if_neg hc, ih hcs]
      rfl

/-- A tag ends with the first character that closes one. -/
theorem stripTags_tag {tag : List Char} (h : ∀ c ∈ tag, c ≠ '>') (rest : List Char) :
  stripTags true (tag ++ '>' :: rest) = stripTags false rest
  := by
  induction tag with
  | nil => rfl
  | cons c tag ih =>
      obtain ⟨hc, htag⟩ := List.forall_mem_cons.mp h
      rw [List.cons_append, stripTags, bne_iff_ne.mpr hc]
      exact ih htag

theorem Escaped.ne {cs : List Char} (h : Escaped cs) :
  (∀ c ∈ cs, c ≠ '<') ∧ ∀ c ∈ cs, c ≠ '>'
  := by
  constructor
  · rintro c hc rfl
    have hplain := h.plain _ hc
    cases hplain
  · rintro c hc rfl
    have hplain := h.plain _ hc
    cases hplain

end HtmlText
