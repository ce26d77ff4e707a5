import Noombat.Markup.HeadingAgreement

/-!
# The ids of rendered headings

A document is rendered to sanitised HTML, and the slugs of its headings are injected as ids.  The
writer and the sanitiser of HTML are libraries, of which we know only that a heading has at most
one opening tag in the HTML; tags in raw HTML of the user are part of what lies between.
-/

namespace Markup

open Text
open HeadingTag (plain withIds marks)

/-! ### Rendering -/

/-- The depths of the headings that some events open. -/
def headingDepths (events : List Event) : List Nat :=
  events.filterMap fun event =>
    match event with
    | .start (.heading level) => some level.depth
    | _ => none

/-- Sanitised HTML, cut at the opening tags of headings: each tag with what lies in front of it and
the heading that it is of. -/
structure SanitisedHtml (depths : List Nat) where
  tags : List (List Char × Fin depths.length)
  last : List Char
  nodup : (tags.map Prod.snd).Nodup

namespace SanitisedHtml

variable {depths : List Nat}

/-- The opening tags of headings, those of listed headings marked with their slugs. -/
def marked (mark : Nat → Option String) (html : SanitisedHtml depths) : List HeadingTag :=
  html.tags.map fun (gap, origin) => ⟨gap, depths.get origin, mark origin⟩

/-- The text of the HTML. -/
def text (html : SanitisedHtml depths) : String :=
  String.ofList (plain (html.marked fun _ => none) html.last)

end SanitisedHtml

/-- The writer of HTML and the sanitiser, with its strict profile or without. -/
structure HtmlWriter where
  write : (events : List Event) → (strict : Bool) → SanitisedHtml (headingDepths events)

structure MarkupOptions where
  strictSanitisation : Bool
  injectHeadingIds : Bool

structure MarkupOutput where
  html : String
  headings : List Heading

section Render

variable (r : Renderer) (w : HtmlWriter)

/-- The events that a document is rendered from. -/
def renderedEvents (input : String) : List Event :=
  (r.parse input).flatMap (transformEvent r)

/-- Render with explicit options. -/
def renderWithOptions (input : String) (opts : MarkupOptions) : MarkupOutput :=
  let events := renderedEvents r input
  let headings := extractHeadings r events
  let html := (w.write events opts.strictSanitisation).text
  { html := if opts.injectHeadingIds && !headings.isEmpty then injectIds html headings else html
    headings := headings }

/-! ### Which headings are listed -/

/-- The extraction of headings, with the number of headings opened so far, and which of these are
listed. -/
structure Located where
  extraction : Extraction
  opened : Nat
  origins : List Nat

def Located.start : Located :=
  ⟨Extraction.start, 0, []⟩

def Located.step (l : Located) (event : Event) : Located where
  extraction := l.extraction.step r event
  opened := l.opened + (headingDepths [event]).length
  origins :=
    if (l.extraction.step r event).headings.length = l.extraction.headings.length then l.origins
    else l.origins ++ [l.opened - 1]

/-- Which of the headings that are opened are listed. -/
def origins (events : List Event) : List Nat :=
  (events.foldl (Located.step r) Located.start).origins

/-- The slug of a heading, if that is listed. -/
def slugOf (events : List Event) (origin : Nat) : Option String :=
  ((origins r events).zip ((extractHeadings r events).map Heading.slug)).lookup origin

/-- Every listed heading has its opening tag in some HTML. -/
def AllPresent (events : List Event) (html : SanitisedHtml (headingDepths events)) : Prop :=
  ∀ origin ∈ origins r events, ∃ tag ∈ html.tags, tag.2.val = origin

/-- The headings of a source are those of its rendering; if ids are injected, every listed heading
has its slug as its id, and nothing else changes; and ids are only inserted right after the prefix
of a tag. -/
structure HeadingsAgree (input : String) (opts : MarkupOptions) : Prop where
  same : sourceHeadings r input = (renderWithOptions r w input opts).headings
  own : opts.injectHeadingIds = true →
    let events := renderedEvents r input
    let html := w.write events opts.strictSanitisation
    AllPresent r events html ∧
      (renderWithOptions r w input opts).html =
        String.ofList (withIds (html.marked (slugOf r events)) html.last)
  inserts : ∀ html headings, Inserts headings html.toList (injectIds html headings).toList

end Render

variable {r : Renderer} {w : HtmlWriter}

/-! ### Listed headings are different headings -/

/-- The listed headings are different, and the one that is open is not listed. -/
structure WellLocated (l : Located) : Prop where
  length : l.origins.length = l.extraction.headings.length
  nodup : l.origins.Nodup
  lt : ∀ origin ∈ l.origins, origin < l.opened
  current : l.extraction.currentDepth.isSome = true →
    0 < l.opened ∧ ∀ origin ∈ l.origins, origin + 1 < l.opened

theorem length_close (x : Extraction) (depth : Nat) :
  (x.close r depth).headings.length = x.headings.length ∨
    (x.close r depth).headings.length = x.headings.length + 1
  := by
  rw [Extraction.close]
  by_cases htext : trim x.currentText = ""
  · left
    simp only [htext, if_true]
  · right
    simp only [htext, if_false, List.length_append, List.length_singleton]

/-- An event lists at most the heading that is open, and that is then open no more. -/
theorem step_cases (x : Extraction) (event : Event) :
  (x.step r event).headings.length = x.headings.length ∧
      ((x.step r event).currentDepth.isSome = true →
        x.currentDepth.isSome = true ∨ headingDepths [event] ≠ []) ∨
    (x.step r event).headings.length = x.headings.length + 1 ∧ x.currentDepth.isSome = true ∧
      (x.step r event).currentDepth = none
  := by
  cases event with
  | start tag =>
      left
      cases tag with
      | heading level =>
          refine ⟨rfl, ?_⟩
          intro _
          right
          apply List.cons_ne_nil
      | _ => exact ⟨rfl, Or.inl⟩
  | «end» tag =>
      cases tag with
      | heading level =>
          rw [step_end_heading]
          cases hdepth : x.currentDepth with
          | none => exact Or.inl ⟨rfl, nofun⟩
          | some depth =>
              rcases @length_close r x depth with hkept | hlisted
              · exact Or.inl ⟨hkept, nofun⟩
              · exact Or.inr ⟨hlisted, rfl, rfl⟩
      | _ => exact Or.inl ⟨rfl, Or.inl⟩
  | text text =>
      left
      rw [Extraction.step]
      split
      · exact ⟨rfl, Or.inl⟩
      · exact ⟨rfl, Or.inl⟩
  | code text =>
      left
      rw [Extraction.step]
      split
      · exact ⟨rfl, Or.inl⟩
      · exact ⟨rfl, Or.inl⟩
  | _ => exact Or.inl ⟨rfl, Or.inl⟩

theorem WellLocated.step {l : Located} (h : WellLocated l) (event : Event) :
  WellLocated (l.step r event)
  := by
  rcases @step_cases r l.extraction event with ⟨hlength, hopen⟩ | ⟨hlength, hopen, hclosed⟩
  · have horigins : (l.step r event).origins = l.origins := if_pos hlength
    refine ⟨?_, ?_, ?_, ?_⟩
    · rw [horigins, h.length]
      exact hlength.symm
    · rw [horigins]
      exact h.nodup
    · intro origin horigin
      rw [horigins] at horigin
      have hlt := h.lt origin horigin
      exact lt_of_lt_of_le hlt (Nat.le_add_right _ _)
    · intro hcurrent
      rw [horigins]
      change 0 < l.opened + (headingDepths [event]).length ∧
        ∀ origin ∈ l.origins, origin + 1 < l.opened + (headingDepths [event]).length
      rcases hopen hcurrent with hbefore | hstart
      · obtain ⟨hpos, hlt⟩ := h.current hbefore
        exact ⟨Nat.lt_add_right _ hpos, fun origin horigin => Nat.lt_add_right _ (hlt origin horigin)⟩
      · have hpos := List.length_pos_iff.mpr hstart
        refine ⟨Nat.lt_of_lt_of_le hpos (Nat.le_add_left _ _), ?_⟩
        intro origin horigin
        have hlt := h.lt origin horigin
        omega
  · have hne : ¬ (l.extraction.step r event).headings.length = l.extraction.headings.length := by
      omega
    have horigins : (l.step r event).origins = l.origins ++ [l.opened - 1] := if_neg hne
    obtain ⟨hpos, hbefore⟩ := h.current hopen
    refine ⟨?_, ?_, ?_, ?_⟩
    · rw [horigins, List.length_append, List.length_singleton, h.length]
      exact hlength.symm
    · rw [horigins]
      apply List.nodup_append.mpr
      refine ⟨h.nodup, List.nodup_singleton _, ?_⟩
      intro origin horigin origin' horigin'
      obtain rfl := List.mem_singleton.mp horigin'
      have hlt := hbefore origin horigin
      omega
    · intro origin horigin
      change origin < l.opened + (headingDepths [event]).length
      rw [horigins, List.mem_append, List.mem_singleton] at horigin
      rcases horigin with horigin | rfl
      · have hlt := h.lt origin horigin
        omega
      · omega
    · intro hcurrent
      change (l.extraction.step r event).currentDepth.isSome = true at hcurrent
      rw [hclosed] at hcurrent
      cases hcurrent

theorem wellLocated_foldl (events : List Event) {l : Located} (h : WellLocated l) :
  WellLocated (events.foldl (Located.step r) l)
  := by
  induction events generalizing l with
  | nil => exact h
  | cons event events ih => exact ih (h.step event)

theorem extraction_foldl (events : List Event) (l : Located) :
  (events.foldl (Located.step r) l).extraction = events.foldl (Extraction.step r) l.extraction
  := by
  induction events generalizing l with
  | nil => rfl
  | cons event events ih => exact ih (l.step r event)

theorem wellLocated (r : Renderer) (events : List Event) :
  WellLocated (events.foldl (Located.step r) Located.start)
  := by
  apply wellLocated_foldl
  exact ⟨rfl, List.nodup_nil, nofun, nofun⟩

theorem length_origins (r : Renderer) (events : List Event) :
  (origins r events).length = (extractHeadings r events).length
  := by
  rw [origins, (wellLocated r events).length, extraction_foldl]
  rfl

/-! ### Slugs in attributes -/

theorem quote_not_mem_slugChars (hyphen : Bool) (cs : List Char) :
  '"' ∉ slugChars hyphen cs
  := by
  induction cs generalizing hyphen with
  | nil => exact List.not_mem_nil
  | cons c cs ih =>
      rw [slugChars]
      split
      · rename_i hc
        rw [List.mem_cons, not_or]
        refine ⟨?_, ih false⟩
        rintro rfl
        cases hc
      · split
        · rw [List.mem_cons, not_or]
          exact ⟨by decide, ih true⟩
        · exact ih hyphen

theorem quote_not_mem_slugify (text : String) :
  '"' ∉ (slugify r text).toList
  := by
  rw [slugify, String.toList_ofList]
  split
  · intro hmem
    exact quote_not_mem_slugChars true _ ((List.dropLast_sublist _).subset hmem)
  · apply quote_not_mem_slugChars

theorem quote_not_mem_numbered (text : String) (n : Nat) :
  '"' ∉ (slugify r text ++ "-" ++ toString n).toList
  := by
  have hdigits : (toString n).toList = Nat.toDigits 10 n := Nat.toList_repr
  rw [String.toList_append, String.toList_append, List.mem_append, List.mem_append, not_or, not_or]
  refine ⟨⟨quote_not_mem_slugify text, by decide⟩, ?_⟩
  rw [hdigits]
  intro hmem
  have hdigit := Nat.isDigit_of_mem_toDigits (b := 10) (by decide) (by decide) hmem
  cases hdigit

/-- A slug needs no escaping in an attribute. -/
theorem quote_not_mem_slug (r : Renderer) (events : List Event) :
  ∀ heading ∈ extractHeadings r events, '"' ∉ heading.slug.toList
  := by
  have hstep : ∀ x : Extraction, (∀ heading ∈ x.headings, '"' ∉ heading.slug.toList) →
      ∀ event, ∀ heading ∈ (x.step r event).headings, '"' ∉ heading.slug.toList := by
    intro x hx event
    cases event with
    | «end» tag =>
        cases tag with
        | heading level =>
            rw [step_end_heading]
            cases x.currentDepth with
            | none => exact hx
            | some depth =>
                simp only [Option.elim_some, Extraction.close]
                by_cases htext : trim x.currentText = ""
                · simp only [htext, if_true]
                  exact hx
                · simp only [htext, if_false, List.forall_mem_append, List.forall_mem_singleton]
                  refine ⟨hx, ?_⟩
                  split
                  · apply quote_not_mem_slugify
                  · apply quote_not_mem_numbered
        | _ => exact hx
    | start tag =>
        cases tag with
        | _ => exact hx
    | text text =>
        rw [Extraction.step]
        split
        · exact hx
        · exact hx
    | code text =>
        rw [Extraction.step]
        split
        · exact hx
        · exact hx
    | _ => exact hx
  have hfoldl : ∀ (x : Extraction), (∀ heading ∈ x.headings, '"' ∉ heading.slug.toList) →
      ∀ heading ∈ (events.foldl (Extraction.step r) x).headings, '"' ∉ heading.slug.toList := by
    induction events with
    | nil =>
        intro x hx
        exact hx
    | cons event events ih =>
        intro x hx
        exact ih (x.step r event) (hstep x hx event)
  exact hfoldl Extraction.start (by simp [Extraction.start])

/-! ### The tags of listed headings -/

theorem filterMap_lookup_zip {keys : List Nat} {slugs : List String}
    (hlength : keys.length = slugs.length) (hkeys : keys.Nodup) :
  keys.filterMap (fun key => (keys.zip slugs).lookup key) = slugs
  := by
  have hlookup : ∀ (front : List (Nat × String)) (keys : List Nat) (slugs : List String),
      keys.length = slugs.length → keys.Nodup → (∀ key ∈ keys, key ∉ front.map Prod.fst) →
      keys.filterMap (fun key => (front ++ keys.zip slugs).lookup key) = slugs := by
    intro front keys
    induction keys generalizing front with
    | nil =>
        intro slugs hlength _ _
        exact (List.length_eq_zero_iff.mp hlength.symm).symm
    | cons key keys ih =>
        intro slugs hlength hkeys hfront
        obtain ⟨slug, slugs, rfl⟩ := List.exists_cons_of_length_pos
          (show 0 < slugs.length by rw [← hlength]; apply Nat.succ_pos)
        obtain ⟨hkey, hkeys⟩ := List.nodup_cons.mp hkeys
        have hnew := hfront key List.mem_cons_self
        have hnone : front.lookup key = none := by
          apply List.lookup_eq_none_iff.mpr
          intro e he
          simp only [bne_iff_ne, ne_eq]
          rintro rfl
          exact hnew (List.mem_map_of_mem he)
        have hfirst : (front ++ (key :: keys).zip (slug :: slugs)).lookup key = some slug := by
          rw [List.lookup_append, hnone, Option.none_or, List.zip_cons_cons, List.lookup_cons_self]
        rw [List.filterMap_cons, hfirst]
        have hrest := ih (front ++ [(key, slug)]) slugs (Nat.succ.inj hlength) hkeys (by
          intro key' hkey'
          rw [List.map_append, List.mem_append, not_or]
          refine ⟨hfront key' (List.mem_cons_of_mem key hkey'), ?_⟩
          rw [List.map_singleton, List.mem_singleton]
          rintro rfl
          exact hkey hkey')
        rw [List.append_assoc] at hrest
        exact congrArg (List.cons slug) hrest
  exact hlookup [] keys slugs hlength hkeys (fun _ _ => List.not_mem_nil)

/-- If every listed heading has its tag, the marks of the tags are the slugs, in some order. -/
theorem marks_perm {events : List Event} {html : SanitisedHtml (headingDepths events)}
    (h : AllPresent r events html) :
  (marks (html.marked (slugOf r events))).Perm ((extractHeadings r events).map Heading.slug)
  := by
  have hlength : (origins r events).length =
      ((extractHeadings r events).map Heading.slug).length := by
    rw [length_origins, List.length_map]
  have hnodup : (origins r events).Nodup := (wellLocated r events).nodup
  have hmarks : marks (html.marked (slugOf r events)) =
      (html.tags.map fun tag => tag.2.val).filterMap (slugOf r events) := by
    rw [marks, SanitisedHtml.marked, List.filterMap_map, List.filterMap_map]
    rfl
  have htags : (html.tags.map fun tag => tag.2.val).Nodup := by
    have hvals := html.nodup.map (fun _ _ heq => Fin.ext heq : Function.Injective Fin.val)
    rw [List.map_map] at hvals
    exact hvals
  have hlisted : ((html.tags.map fun tag => tag.2.val).filter
      fun origin => decide (origin ∈ origins r events)).Perm (origins r events) := by
    apply (List.perm_ext_iff_of_nodup (htags.filter _) hnodup).mpr
    intro origin
    rw [List.mem_filter, decide_eq_true_eq]
    constructor
    · rintro ⟨_, horigin⟩
      exact horigin
    · intro horigin
      obtain ⟨tag, htag, hval⟩ := h origin horigin
      refine ⟨?_, horigin⟩
      rw [← hval]
      exact List.mem_map_of_mem htag
  have hunlisted : (html.tags.map fun tag => tag.2.val).filterMap (slugOf r events) =
      ((html.tags.map fun tag => tag.2.val).filter
        fun origin => decide (origin ∈ origins r events)).filterMap (slugOf r events) := by
    rw [List.filterMap_filter]
    apply List.filterMap_congr
    intro origin _
    by_cases horigin : origin ∈ origins r events
    · rw [decide_eq_true horigin]
      rfl
    · rw [decide_eq_false horigin, slugOf, List.lookup_eq_none_iff.mpr]
      · rfl
      · intro e he
        simp only [bne_iff_ne, ne_eq]
        rintro rfl
        exact horigin (List.of_mem_zip he).1
  rw [hmarks, hunlisted]
  have hslugs := filterMap_lookup_zip hlength hnodup
  rw [← hslugs]
  exact hlisted.filterMap _

theorem plain_marked {depths : List Nat} (html : SanitisedHtml depths)
    (mark : Nat → Option String) :
  plain (html.marked mark) html.last = html.text.toList
  := by
  rw [SanitisedHtml.text, String.toList_ofList, SanitisedHtml.marked, SanitisedHtml.marked]
  generalize html.last = last
  induction html.tags with
  | nil => rfl
  | cons tag tags ih =>
      rw [List.map_cons, List.map_cons, plain, plain, ih]

/-- The headings of a source and of its rendering agree, just if no DOI is in a heading and, if ids
are injected, the tags of the listed headings are there, in the order of the list, and no other tag
of the depth of a heading starts between its tag and that of the one before. -/
theorem headingsAgree_iff (isDecimal : Char → Bool) (r : Renderer) (w : HtmlWriter)
    (input : String) (opts : MarkupOptions) :
  HeadingsAgree (r.withDois isDecimal) w input opts ↔
    doiInHeading (r.withDois isDecimal) none (r.parse input) = false ∧
      (opts.injectHeadingIds = true →
        let events := renderedEvents (r.withDois isDecimal) input
        let html := w.write events opts.strictSanitisation
        AllPresent (r.withDois isDecimal) events html ∧
          Lands (extractHeadings (r.withDois isDecimal) events) []
            (html.marked (slugOf (r.withDois isDecimal) events)))
  := by
  have hsame := sourceHeadings_eq_iff isDecimal r input
  have hlands : opts.injectHeadingIds = true →
      AllPresent (r.withDois isDecimal) (renderedEvents (r.withDois isDecimal) input)
        (w.write (renderedEvents (r.withDois isDecimal) input) opts.strictSanitisation) →
      ((renderWithOptions (r.withDois isDecimal) w input opts).html =
          String.ofList (withIds
            ((w.write (renderedEvents (r.withDois isDecimal) input) opts.strictSanitisation).marked
              (slugOf (r.withDois isDecimal) (renderedEvents (r.withDois isDecimal) input)))
            (w.write (renderedEvents (r.withDois isDecimal) input) opts.strictSanitisation).last) ↔
        Lands (extractHeadings (r.withDois isDecimal) (renderedEvents (r.withDois isDecimal) input)) []
          ((w.write (renderedEvents (r.withDois isDecimal) input) opts.strictSanitisation).marked
            (slugOf (r.withDois isDecimal) (renderedEvents (r.withDois isDecimal) input)))) := by
    intro hinject hpresent
    rw [renderWithOptions]
    simp only [hinject, Bool.true_and]
    generalize renderedEvents (r.withDois isDecimal) input = events at hpresent ⊢
    generalize w.write events opts.strictSanitisation = html at hpresent ⊢
    have hiff := injectFrom_eq_withIds_iff (marks_perm hpresent)
      (quote_not_mem_slug (r.withDois isDecimal) events) [] html.last
    have hempty : (if !(extractHeadings (r.withDois isDecimal) events).isEmpty then
          injectIds html.text (extractHeadings (r.withDois isDecimal) events) else html.text) =
        String.ofList (injectFrom (extractHeadings (r.withDois isDecimal) events)
          html.text.toList) := by
      cases extractHeadings (r.withDois isDecimal) events with
      | nil =>
          rw [injectFrom, String.ofList_toList]
          rfl
      | cons heading headings => rfl
    rw [List.nil_append, List.nil_append, plain_marked] at hiff
    rw [← hiff, hempty]
    constructor
    · intro h
      have hlist := congrArg String.toList h
      rw [String.toList_ofList, String.toList_ofList] at hlist
      exact hlist
    · intro h
      rw [h]
  constructor
  · intro h
    refine ⟨hsame.mp h.same, ?_⟩
    intro hinject
    obtain ⟨hpresent, hids⟩ := h.own hinject
    exact ⟨hpresent, (hlands hinject hpresent).mp hids⟩
  · rintro ⟨hnone, hown⟩
    constructor
    · exact hsame.mpr hnone
    · intro hinject
      obtain ⟨hpresent, hland⟩ := hown hinject
      exact ⟨hpresent, (hlands hinject hpresent).mpr hland⟩
    · intro html headings
      rw [injectIds, String.toList_ofList]
      exact inserts_injectFrom headings html.toList

/-! ### A DOI in a heading -/

/-- The parser on a document whose only heading has a DOI. -/
def doiHeading : Renderer where
  parse _ := [.start (.heading .h1), .text "See doi:10.1000/x", .end (.heading .h1)]
  captures _ := []
  renderMath math _ := math
  toLowercase := toAsciiLowercase

/-- The writer on a document with one heading. -/
def oneHeading : HtmlWriter where
  write events _ :=
    { tags := (List.finRange (headingDepths events).length).map fun origin => ([], origin)
      last := events.flatMap Doi.visible ++ "</h1>".toList
      nodup := by
        rw [List.map_map]
        exact (List.nodup_finRange _).map fun _ _ h => h }

/-- The heading has the DOI in its text in the source, but not in the rendering. -/
theorem doiHeading_disagrees :
  ¬ HeadingsAgree (doiHeading.withDois Char.isDigit) oneHeading "# See doi:10.1000/x" ⟨true, true⟩
  := by
  intro h
  have hsame := h.same
  revert hsame
  decide +kernel

end Markup
