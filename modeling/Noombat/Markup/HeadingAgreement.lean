import Noombat.Markup.Doi
import Noombat.Markup.HeadingIds

/-!
# The headings of a document and of its rendering

The headings of a document are extracted twice: from the events of the parser, for a table of
contents, and from the events that the document is rendered from, for the ids in the HTML.  A DOI
is part of the text of a heading in the first, but a link, which is no text, in the second.
-/

namespace Markup

open Text HtmlText
open HeadingTag (plain withIds marks)

section Agreement

variable (r : Renderer)

/-- Extract all headings from a Markdown source. -/
def sourceHeadings (input : String) : List Heading :=
  extractHeadings r (r.parse input)

/-- Whether a DOI is in the text of a heading, given whether one is in the text of the heading that
is open. -/
def doiInHeading : Option Bool → List Event → Bool
  | _, [] => false
  | _, .start (.heading _) :: events => doiInHeading (some false) events
  | current, .end (.heading _) :: events => current.getD false || doiInHeading none events
  | current, .text text :: events =>
      doiInHeading (current.map fun found => found || !(detectInText r text).isEmpty) events
  | current, _ :: events => doiInHeading current events

end Agreement

variable {r : Renderer} {isDecimal : Char → Bool}

/-! ### The text of links -/

/-- The text of an event that is part of a heading. -/
def plainText : Event → List Char
  | .text text => text.toList
  | _ => []

/-- An event that a text may be rendered as. -/
def IsTextOrLink (event : Event) : Prop :=
  (∃ text, event = .text text) ∨ ∃ html, event = .inlineHtml html

/-- The number of characters that are not white space. -/
def inkCount (cs : List Char) : Nat :=
  cs.countP fun c => !isWhitespace c

theorem inkCount_append (cs cs' : List Char) :
  inkCount (cs ++ cs') = inkCount cs + inkCount cs'
  := List.countP_append

theorem isTextOrLink_of_escaped {event : Event} (h : Doi.EscapedEvent event) :
  IsTextOrLink event
  := by
  cases event with
  | text text => exact Or.inl ⟨text, rfl⟩
  | inlineHtml html => exact Or.inr ⟨html, rfl⟩
  | _ => exact h.elim

theorem inkCount_plainText_le {events : List Event} (h : ∀ event ∈ events, IsTextOrLink event) :
  inkCount (events.flatMap plainText) ≤ inkCount (events.flatMap Doi.visible)
  := by
  induction events with
  | nil => apply le_rfl
  | cons event events ih =>
      obtain ⟨hevent, hevents⟩ := List.forall_mem_cons.mp h
      rw [List.flatMap_cons, List.flatMap_cons, inkCount_append, inkCount_append]
      apply Nat.add_le_add _ (ih hevents)
      rcases hevent with ⟨text, rfl⟩ | ⟨html, rfl⟩
      · apply le_rfl
      · apply Nat.zero_le

/-- A link takes away from the text of a heading what it shows. -/
theorem inkCount_plainText_lt {events : List Event} (h : ∀ event ∈ events, IsTextOrLink event)
    {html : String} (hlink : .inlineHtml html ∈ events)
    (hink : 0 < inkCount (Doi.visible (.inlineHtml html))) :
  inkCount (events.flatMap plainText) < inkCount (events.flatMap Doi.visible)
  := by
  obtain ⟨before, after, rfl⟩ := List.append_of_mem hlink
  have hbefore := inkCount_plainText_le fun event hevent => h event (List.mem_append_left _ hevent)
  have hafter := inkCount_plainText_le fun event hevent =>
    h event (List.mem_append_right _ (List.mem_cons_of_mem _ hevent))
  have hnone : inkCount (plainText (.inlineHtml html)) = 0 := rfl
  simp only [List.flatMap_append, List.flatMap_cons, inkCount_append]
  omega

/-- What the text of an event with DOIs is rendered as. -/
theorem splitAround_pieces {text : String} (h : Doi.pieces isDecimal text ≠ []) :
  let events := splitAround text ((Doi.pieces isDecimal text).map Doi.reference)
  (∀ event ∈ events, IsTextOrLink event) ∧
    inkCount (events.flatMap plainText) < inkCount text.toList
  := by
  intro events
  have hscanned : Scanning.Scanned (Doi.matcher isDecimal) text.toList
      (Doi.pieces isDecimal text) (Doi.last isDecimal text) := Scanning.scanned_scanAll _ _
  have htexts : ∀ event ∈ events, IsTextOrLink event := by
    intro event hevent
    exact isTextOrLink_of_escaped (Doi.escaped_splitAround _ _ event hevent)
  have hvisible : events.flatMap Doi.visible = text.toList := by
    apply Doi.visible_splitAround
    intro doi hdoi
    obtain ⟨p, hp, rfl⟩ := List.mem_map.mp hdoi
    obtain ⟨rest, hfound⟩ := Doi.found_of_mem hscanned hp
    rw [Doi.reference, String.toList_ofList]
    exact hfound.source_ne_nil
  refine ⟨htexts, ?_⟩
  obtain ⟨p, found, hpieces⟩ := List.exists_cons_of_ne_nil h
  rw [hpieces] at hscanned
  cases hscanned with
  | next hfirst _ =>
      obtain ⟨hcut, hp⟩ := Doi.found_of_firstMatch hfirst
      have hoccurs : Doi.source p <:+: text.toList := by
        rw [hcut, ← Doi.source_append p]
        exact ⟨p.gap, _, by simp only [List.append_assoc]; rfl⟩
      obtain ⟨before, after, hfound⟩ := Scanning.cutAt_isSome hoccurs
      have hsplit : splitOnceStr (Doi.reference p).sourceUri text =
          some (String.ofList before, String.ofList after) := by
        rw [← @String.ofList_toList text, Doi.reference, Doi.splitOnceStr_ofList, hfound]
        rfl
      have hlink : .inlineHtml (doiLink (Doi.reference p)) ∈ events := by
        change _ ∈ splitAround text ((Doi.pieces isDecimal text).map Doi.reference)
        rw [hpieces, List.map_cons, splitAround, hsplit]
        simp
      rw [← hvisible]
      apply inkCount_plainText_lt htexts hlink
      obtain ⟨c, cs, hsource, _, hspace⟩ := hp.source_head
      rw [Doi.visible_doiLink, Doi.reference, String.toList_ofList, hsource, inkCount,
        List.countP_cons_of_pos]
      · apply Nat.succ_pos
      · rw [hspace]
        rfl

/-! ### Extraction from texts and links -/

theorem foldl_of_closed {x : Extraction} (h : x.currentDepth = none) {events : List Event}
    (hevents : ∀ event ∈ events, IsTextOrLink event) :
  events.foldl (Extraction.step r) x = x
  := by
  induction events with
  | nil => rfl
  | cons event events ih =>
      obtain ⟨hevent, hevents⟩ := List.forall_mem_cons.mp hevents
      have hstep : x.step r event = x := by
        rcases hevent with ⟨text, rfl⟩ | ⟨html, rfl⟩
        · apply if_neg
          rw [h]
          nofun
        · rfl
      rw [List.foldl_cons, hstep]
      exact ih hevents

theorem foldl_of_open {x : Extraction} (h : x.currentDepth.isSome = true) {events : List Event}
    (hevents : ∀ event ∈ events, IsTextOrLink event) :
  events.foldl (Extraction.step r) x =
    { x with currentText := x.currentText ++ String.ofList (events.flatMap plainText) }
  := by
  induction events generalizing x with
  | nil =>
      rw [List.flatMap_nil, String.ofList_nil, String.append_empty]
      rfl
  | cons event events ih =>
      obtain ⟨hevent, hrest⟩ := List.forall_mem_cons.mp hevents
      rw [List.foldl_cons, List.flatMap_cons]
      rcases hevent with ⟨text, rfl⟩ | ⟨html, rfl⟩
      · have hstep : x.step r (.text text) = { x with currentText := x.currentText ++ text } :=
          if_pos h
        rw [hstep, plainText, String.ofList_append, String.ofList_toList, ← String.append_assoc]
        exact ih (x := { x with currentText := x.currentText ++ text }) h hrest
      · exact ih h hrest

/-! ### What is missing in a rendering -/

/-- The number of characters in headings that are not white space. -/
def inkTotal (headings : List Heading) : Nat :=
  (headings.map fun heading => inkCount heading.text.toList).sum

theorem inkCount_dropWhile (cs : List Char) :
  inkCount (cs.dropWhile isWhitespace) = inkCount cs
  := by
  induction cs with
  | nil => rfl
  | cons c cs ih =>
      rw [List.dropWhile_cons]
      split
      · rename_i hc
        rw [ih, inkCount, inkCount, List.countP_cons_of_neg]
        rw [hc]
        nofun
      · rfl

theorem inkCount_reverse (cs : List Char) :
  inkCount cs.reverse = inkCount cs
  := List.countP_reverse

theorem inkCount_trim (text : String) :
  inkCount (trim text).toList = inkCount text.toList
  := by
  rw [trim, String.toList_ofList, inkCount_reverse, inkCount_dropWhile, inkCount_reverse,
    inkCount_dropWhile]

/-- A heading that is closed adds its text. -/
theorem inkTotal_close (x : Extraction) (depth : Nat) :
  inkTotal (x.close r depth).headings = inkTotal x.headings + inkCount x.currentText.toList
  := by
  rw [← inkCount_trim x.currentText]
  by_cases htext : trim x.currentText = ""
  · have hkept : x.close r depth = x := if_pos htext
    have hink : inkCount (trim x.currentText).toList = 0 := by
      rw [htext, String.toList_empty]
      rfl
    rw [hkept, hink, Nat.add_zero]
  · have hclosed : (x.close r depth).headings.map (fun heading => heading.text) =
        x.headings.map (fun heading => heading.text) ++ [trim x.currentText] := by
      rw [Extraction.close]
      simp only [htext, if_false]
      rw [List.map_append]
      rfl
    have htotal : ∀ headings : List Heading, inkTotal headings =
        ((headings.map fun heading => heading.text).map fun text => inkCount text.toList).sum := by
      intro headings
      rw [List.map_map]
      rfl
    rw [htotal, htotal, hclosed, List.map_append, List.sum_append, List.map_singleton,
      List.sum_singleton]

theorem step_end_heading {x : Extraction} (level : HeadingLevel) :
  x.step r (.end (.heading level)) =
    { (x.currentDepth.elim x fun depth => x.close r depth) with currentDepth := none, currentText := "" }
  := by
  rw [Extraction.step]
  cases x.currentDepth with
  | none => rfl
  | some depth => rfl

/-- The extraction from a rendering has not more text than that from the source, and less in a
heading with a DOI. -/
structure Behind (current : Option Bool) (x y : Extraction) : Prop where
  depth : y.currentDepth = x.currentDepth
  isOpen : current.isSome = x.currentDepth.isSome
  text : ∀ found, current = some found →
    inkCount y.currentText.toList + found.toNat ≤ inkCount x.currentText.toList

/-- What an event does to a rendering that is behind. -/
theorem Behind.step {current : Option Bool} {x y : Extraction} (h : Behind current x y) {text : String}
    (hopen : x.currentDepth.isSome = true) {events : List Event}
    (hevents : ∀ event ∈ events, IsTextOrLink event) {found : Bool}
    (hink : inkCount (events.flatMap plainText) + found.toNat ≤ inkCount text.toList) :
  Behind (current.map (· || found)) { x with currentText := x.currentText ++ text }
    (events.foldl (Extraction.step r) y)
  := by
  have hopen' : y.currentDepth.isSome = true := by
    rw [h.depth]
    exact hopen
  rw [foldl_of_open hopen' hevents]
  refine ⟨h.depth, ?_, ?_⟩
  · rw [Option.isSome_map]
    exact h.isOpen
  · intro missing hmissing
    obtain ⟨before, hbefore, rfl⟩ := Option.map_eq_some_iff.mp hmissing
    have htext := h.text before hbefore
    simp only [String.toList_append, String.toList_ofList, inkCount_append]
    have hor : (before || found).toNat ≤ before.toNat + found.toNat := by
      cases before <;> cases found <;> decide
    omega

theorem transformEvent_text (text : String) :
  (∀ event ∈ transformEvent (r.withDois isDecimal) (.text text), IsTextOrLink event) ∧
    inkCount ((transformEvent (r.withDois isDecimal) (.text text)).flatMap plainText) +
        (!(detectInText (r.withDois isDecimal) text).isEmpty).toNat ≤
      inkCount text.toList
  := by
  rw [transformEvent]
  by_cases hnone : (detectInText (r.withDois isDecimal) text).isEmpty = true
  · simp only [hnone, if_true, List.forall_mem_singleton, List.flatMap_singleton]
    exact ⟨Or.inl ⟨text, rfl⟩, le_rfl⟩
  · have hsome : Doi.pieces isDecimal text ≠ [] := by
      rw [Doi.detectInText_withDois, List.isEmpty_map, List.isEmpty_iff] at hnone
      exact hnone
    obtain ⟨htexts, hink⟩ := splitAround_pieces hsome
    simp only [hnone, if_false, Bool.false_eq_true]
    rw [Doi.detectInText_withDois]
    exact ⟨htexts, hink⟩

/-- The end of a heading adds to the source what was behind. -/
theorem Behind.close {current : Option Bool} {x y : Extraction} (h : Behind current x y)
    {missing : Nat} (htotal : inkTotal y.headings + missing ≤ inkTotal x.headings)
    (level : HeadingLevel) :
  Behind none (x.step r (.end (.heading level))) (y.step r (.end (.heading level))) ∧
    inkTotal (y.step r (.end (.heading level))).headings + (missing + (current.getD false).toNat) ≤
      inkTotal (x.step r (.end (.heading level))).headings
  := by
  rw [step_end_heading, step_end_heading, h.depth]
  have hisOpen := h.isOpen
  cases hdepth : x.currentDepth with
  | none =>
      rw [hdepth] at hisOpen
      have hnone : current = none := Option.isSome_eq_false_iff.mp hisOpen |> Option.isNone_iff_eq_none.mp
      subst hnone
      exact ⟨⟨rfl, rfl, nofun⟩, htotal⟩
  | some depth =>
      rw [hdepth] at hisOpen
      obtain ⟨found, rfl⟩ := Option.isSome_iff_exists.mp hisOpen
      refine ⟨⟨rfl, rfl, nofun⟩, ?_⟩
      have htext := h.text found rfl
      simp only [Option.elim_some, Option.getD_some, inkTotal_close]
      omega

/-- The text of an event leaves a rendering behind, as it was or further. -/
theorem Behind.text' {current : Option Bool} {x y : Extraction} (h : Behind current x y)
    {text : String} {events : List Event} (hevents : ∀ event ∈ events, IsTextOrLink event)
    {found : Bool} (hink : inkCount (events.flatMap plainText) + found.toNat ≤ inkCount text.toList) :
  Behind (current.map (· || found)) (x.step r (.text text))
      (events.foldl (Extraction.step r) y) ∧
    (x.step r (.text text)).headings = x.headings ∧
    (events.foldl (Extraction.step r) y).headings = y.headings
  := by
  by_cases hopen : x.currentDepth.isSome = true
  · have hopen' : y.currentDepth.isSome = true := by
      rw [h.depth]
      exact hopen
    have hx : x.step r (.text text) = { x with currentText := x.currentText ++ text } :=
      if_pos hopen
    have hstep := h.step (r := r) hopen hevents hink
    rw [hx]
    refine ⟨hstep, rfl, ?_⟩
    rw [foldl_of_open hopen' hevents]
  · have hx : x.step r (.text text) = x := if_neg hopen
    have hnone : x.currentDepth = none := Option.not_isSome_iff_eq_none.mp hopen
    have hcurrent : current = none := by
      rw [← Option.not_isSome_iff_eq_none, h.isOpen]
      exact hopen
    rw [hx, foldl_of_closed (h.depth.trans hnone) hevents]
    subst hcurrent
    exact ⟨h, rfl, rfl⟩

/-- A rendering stays behind, and falls behind further with every heading that has a DOI. -/
theorem inkTotal_foldl (events : List Event) {current : Option Bool} {x y : Extraction}
    (h : Behind current x y) {missing : Nat}
    (htotal : inkTotal y.headings + missing ≤ inkTotal x.headings) :
  let fx := events.foldl (Extraction.step (r.withDois isDecimal)) x
  let fy := (events.flatMap (transformEvent (r.withDois isDecimal))).foldl
    (Extraction.step (r.withDois isDecimal)) y
  inkTotal fy.headings + missing ≤ inkTotal fx.headings ∧
    (doiInHeading (r.withDois isDecimal) current events = true →
      inkTotal fy.headings + missing < inkTotal fx.headings)
  := by
  induction events generalizing current x y missing with
  | nil => exact ⟨htotal, nofun⟩
  | cons event events ih =>
      simp only [List.foldl_cons, List.flatMap_cons, List.foldl_append]
      cases event with
      | start tag =>
          cases tag with
          | heading level =>
              have hbehind : Behind (some false)
                  (x.step (r.withDois isDecimal) (.start (.heading level)))
                  (y.step (r.withDois isDecimal) (.start (.heading level))) := by
                refine ⟨rfl, rfl, ?_⟩
                intro found hfound
                obtain rfl := Option.some.inj hfound
                apply le_rfl
              exact ih hbehind htotal
          | _ => exact ih h htotal
      | «end» tag =>
          cases tag with
          | heading level =>
              obtain ⟨hbehind, hmissing⟩ := h.close (r := r.withDois isDecimal) htotal level
              obtain ⟨hle, hlt⟩ := ih hbehind hmissing
              have hend : transformEvent (r.withDois isDecimal) (.end (.heading level)) =
                  [.end (.heading level)] := rfl
              rw [hend, List.foldl_cons, List.foldl_nil]
              constructor
              · omega
              · intro hfound
                rw [doiInHeading, Bool.or_eq_true] at hfound
                rcases hfound with hfound | hfound
                · rw [hfound, Bool.toNat_true] at hle
                  omega
                · have hless := hlt hfound
                  omega
          | _ => exact ih h htotal
      | text text =>
          obtain ⟨htexts, hink⟩ := @transformEvent_text r isDecimal text
          obtain ⟨hbehind, hx, hy⟩ := h.text' (r := r.withDois isDecimal) htexts hink
          apply ih hbehind
          rw [hx, hy]
          exact htotal
      | code text =>
          -- code is added as a text is
          have hcode : ∀ event ∈ [Event.text text], IsTextOrLink event := by
            intro event hevent
            exact Or.inl ⟨text, List.mem_singleton.mp hevent⟩
          have hink : inkCount ([Event.text text].flatMap plainText) + false.toNat ≤
              inkCount text.toList := by
            rw [List.flatMap_singleton]
            apply le_rfl
          obtain ⟨hbehind, hx, hy⟩ := h.text' (r := r.withDois isDecimal) hcode hink
          have hsame : current.map (· || false) = current := by
            simp only [Bool.or_false, Option.map_id']
          rw [hsame] at hbehind
          apply ih hbehind
          rw [← hx, ← hy] at htotal
          exact htotal
      | _ => exact ih h htotal

/-! ### What is the same in a rendering -/

/-- The extraction from a rendering is that from the source, but for the text of a heading with a
DOI. -/
structure Same (current : Option Bool) (x y : Extraction) : Prop where
  headings : y.headings = x.headings
  slugCounts : y.slugCounts = x.slugCounts
  depth : y.currentDepth = x.currentDepth
  isOpen : current.isSome = x.currentDepth.isSome
  text : current ≠ some true → y.currentText = x.currentText

theorem Same.close {current : Option Bool} {x y : Extraction} (h : Same current x y)
    (hfound : current ≠ some true) (level : HeadingLevel) :
  Same none (x.step r (.end (.heading level))) (y.step r (.end (.heading level)))
  := by
  have hsame : y = x := by
    cases x
    cases y
    have htext := h.text hfound
    obtain ⟨rfl, rfl, rfl, _, _⟩ := h
    simp only at htext
    rw [htext]
  rw [hsame]
  refine ⟨rfl, rfl, rfl, ?_, fun _ => rfl⟩
  rw [step_end_heading]
  rfl

theorem Same.textEvent {current : Option Bool} {x y : Extraction} (h : Same current x y)
    {text : String} {events : List Event} (hevents : ∀ event ∈ events, IsTextOrLink event)
    {found : Bool} (hplain : found = false → events = [.text text]) :
  Same (current.map (· || found)) (x.step r (.text text)) (events.foldl (Extraction.step r) y)
  := by
  by_cases hopen : x.currentDepth.isSome = true
  · have hopen' : y.currentDepth.isSome = true := by
      rw [h.depth]
      exact hopen
    have hx : x.step r (.text text) = { x with currentText := x.currentText ++ text } :=
      if_pos hopen
    rw [hx, foldl_of_open hopen' hevents]
    refine ⟨h.headings, h.slugCounts, h.depth, ?_, ?_⟩
    · rw [Option.isSome_map]
      exact h.isOpen
    · intro hmissing
      have hisSome : current.isSome = true := h.isOpen.trans hopen
      obtain ⟨before, rfl⟩ := Option.isSome_iff_exists.mp hisSome
      rw [Option.map_some] at hmissing
      have hneither : ¬ (before || found) = true := fun hor => hmissing (congrArg some hor)
      rw [Bool.or_eq_true, not_or] at hneither
      have htext : y.currentText = x.currentText := by
        apply h.text
        intro hbefore
        exact hneither.1 (Option.some.inj hbefore)
      rw [hplain (eq_false_of_ne_true hneither.2), List.flatMap_singleton, plainText,
        String.ofList_toList, htext]
  · have hx : x.step r (.text text) = x := if_neg hopen
    have hnone : x.currentDepth = none := Option.not_isSome_iff_eq_none.mp hopen
    have hcurrent : current = none := by
      rw [← Option.not_isSome_iff_eq_none, h.isOpen]
      exact hopen
    rw [hx, foldl_of_closed (h.depth.trans hnone) hevents]
    subst hcurrent
    exact h

/-- If no heading has a DOI, the rendering has the headings of the source. -/
theorem headings_foldl (events : List Event) {current : Option Bool} {x y : Extraction}
    (h : Same current x y)
    (hnone : doiInHeading (r.withDois isDecimal) current events = false) :
  ((events.flatMap (transformEvent (r.withDois isDecimal))).foldl
      (Extraction.step (r.withDois isDecimal)) y).headings =
    (events.foldl (Extraction.step (r.withDois isDecimal)) x).headings
  := by
  induction events generalizing current x y with
  | nil => exact h.headings
  | cons event events ih =>
      simp only [List.foldl_cons, List.flatMap_cons, List.foldl_append]
      cases event with
      | start tag =>
          cases tag with
          | heading level =>
              apply ih _ hnone
              exact ⟨h.headings, h.slugCounts, rfl, rfl, fun _ => rfl⟩
          | _ => exact ih h hnone
      | «end» tag =>
          cases tag with
          | heading level =>
              rw [doiInHeading, Bool.or_eq_false_iff] at hnone
              have hfound : current ≠ some true := by
                rintro rfl
                cases hnone.1
              exact ih (h.close hfound level) hnone.2
          | _ => exact ih h hnone
      | text text =>
          rw [doiInHeading] at hnone
          obtain ⟨htexts, _⟩ := @transformEvent_text r isDecimal text
          apply ih _ hnone
          apply h.textEvent htexts
          intro hempty
          rw [Bool.not_eq_false'] at hempty
          rw [transformEvent]
          simp only [hempty, if_true]
      | code text =>
          have hcode : ∀ event ∈ [Event.text text], IsTextOrLink event := by
            intro event hevent
            exact Or.inl ⟨text, List.mem_singleton.mp hevent⟩
          have hplain : false = false → [Event.text text] = [.text text] := fun _ => rfl
          have hstep := h.textEvent (r := r.withDois isDecimal) hcode hplain
          have hsame : current.map (· || false) = current := by
            simp only [Bool.or_false, Option.map_id']
          rw [hsame] at hstep
          exact ih hstep hnone
      | _ => exact ih h hnone

/-- The headings of a source are those of its rendering, just if no DOI is in a heading. -/
theorem sourceHeadings_eq_iff (isDecimal : Char → Bool) (r : Renderer) (input : String) :
  sourceHeadings (r.withDois isDecimal) input = renderedHeadings (r.withDois isDecimal) input ↔
    doiInHeading (r.withDois isDecimal) none (r.parse input) = false
  := by
  constructor
  · intro hsame
    apply eq_false_of_ne_true
    intro hfound
    have hbehind : Behind none Extraction.start Extraction.start := ⟨rfl, rfl, nofun⟩
    obtain ⟨_, hlt⟩ := @inkTotal_foldl r isDecimal (r.parse input) _ _ _ hbehind 0 le_rfl
    apply lt_irrefl (inkTotal (sourceHeadings (r.withDois isDecimal) input))
    apply lt_of_le_of_lt _ (hlt hfound)
    rw [hsame]
    apply le_rfl
  · intro hnone
    have hstart : Same none Extraction.start Extraction.start :=
      ⟨rfl, rfl, rfl, rfl, fun _ => rfl⟩
    exact (headings_foldl (r.parse input) hstart hnone).symm

end Markup
