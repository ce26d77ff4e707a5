import Mathlib.Data.List.DropRight
import Noombat.HtmlText
import Noombat.Markup.Headings
import Noombat.Scanning

/-!
# DOIs in a text

A text event is cut around the DOIs that are found in it, and each is made a link.  The cuts are
made where the text of a DOI, without punctuation at its end, occurs first in what is left, which
need not be where it was found: if nothing but punctuation follows the slash of a DOI, what is
left of it may occur in front of it, where it is no DOI.
-/

namespace Markup

open Text Scanning HtmlText

/-! ### The pattern -/

namespace Doi

/-- What a DOI may start with. -/
def schemes : List (List Char) :=
  ["https://doi.org/".toList, "http://doi.org/".toList, "doi:".toList]

/-- Whether a DOI may go on with a character. -/
def isSuffixChar (c : Char) : Bool :=
  !(isWhitespace c || c == ')' || c == ',' || c == ']')

/-- The parts of an identifier: the digits of the registrant and the suffix. -/
def ofParts (digits suffix : List Char) : List Char :=
  '1' :: '0' :: '.' :: (digits ++ '/' :: suffix)

section Pattern

variable (isDecimal : Char → Bool)

/-- The suffix after the digits of the registrant, if there are enough. -/
def identifierFrom (digits : List Char) : List Char → Option (List Char)
  | '/' :: cs =>
      let suffix := cs.takeWhile isSuffixChar
      if 4 ≤ digits.length ∧ suffix ≠ [] then some (ofParts digits suffix) else none
  | _ => none

/-- The identifier at the start of a text. -/
def identifier : List Char → Option (List Char)
  | '1' :: '0' :: '.' :: cs => identifierFrom (cs.takeWhile isDecimal) (cs.dropWhile isDecimal)
  | _ => none

/-- The DOI at the start of a text, and the identifier in it. -/
def matchAt (cs : List Char) : Option (List Char × List Char) :=
  schemes.findSome? fun scheme =>
    if scheme.isPrefixOf cs then
      (identifier isDecimal (cs.drop scheme.length)).map fun doi => (scheme ++ doi, doi)
    else none

/-- A DOI in its parts. -/
structure IsDoi (scheme digits suffix : List Char) : Prop where
  scheme_mem : scheme ∈ schemes
  enough : 4 ≤ digits.length
  decimal : ∀ c ∈ digits, isDecimal c = true
  slash : isDecimal '/' = false
  suffixChars : ∀ c ∈ suffix, isSuffixChar c = true
  nonempty : suffix ≠ []

variable {isDecimal}

theorem identifier_eq_some {cs doi : List Char} (h : identifier isDecimal cs = some doi) :
  ∃ digits suffix, doi = ofParts digits suffix ∧ doi <+: cs ∧ 4 ≤ digits.length ∧
    (∀ c ∈ digits, isDecimal c = true) ∧ isDecimal '/' = false ∧
    (∀ c ∈ suffix, isSuffixChar c = true) ∧ suffix ≠ []
  := by
  rw [identifier.eq_def] at h
  split at h
  · rename_i cs
    rw [identifierFrom.eq_def] at h
    split at h
    · rename_i rest hslash
      simp only at h
      split at h
      · rename_i henough
        obtain rfl := Option.some.inj h
        refine ⟨cs.takeWhile isDecimal, rest.takeWhile isSuffixChar, rfl, ?_, henough.1, ?_, ?_, ?_,
          henough.2⟩
        · obtain ⟨after, hafter⟩ := List.takeWhile_prefix isSuffixChar (l := rest)
          use after
          have hcs := List.takeWhile_append_dropWhile (p := isDecimal) (l := cs)
          rw [hslash, ← hafter] at hcs
          rw [ofParts]
          simp only [List.cons_append, List.append_assoc]
          rw [hcs]
        · intro c hc
          exact List.mem_takeWhile_imp hc
        · have hhead := List.head?_dropWhile_not isDecimal cs
          rw [hslash] at hhead
          exact hhead
        · intro c hc
          exact List.mem_takeWhile_imp hc
      · cases h
    · cases h
  · cases h

theorem identifier_isSome {digits suffix : List Char} (henough : 4 ≤ digits.length)
    (hdigits : ∀ c ∈ digits, isDecimal c = true) (hslash : isDecimal '/' = false)
    (hsuffix : ∀ c ∈ suffix, isSuffixChar c = true) (hnonempty : suffix ≠ [])
    (rest : List Char) :
  (identifier isDecimal (ofParts digits suffix ++ rest)).isSome = true
  := by
  have hstop : ¬ isDecimal '/' = true := by
    rw [hslash]
    nofun
  rw [ofParts, List.cons_append, List.cons_append, List.cons_append, List.append_assoc,
    List.cons_append, identifier, List.takeWhile_append_of_pos hdigits,
    List.dropWhile_append_of_pos hdigits, List.takeWhile_cons_of_neg hstop,
    List.dropWhile_cons_of_neg hstop, List.append_nil, identifierFrom]
  rw [if_pos]
  · rfl
  · use henough
    obtain ⟨c, cs, rfl⟩ := List.exists_cons_of_ne_nil hnonempty
    rw [List.cons_append, List.takeWhile_cons_of_pos (hsuffix c List.mem_cons_self)]
    apply List.cons_ne_nil

/-- What is matched is a DOI in its parts. -/
theorem matchAt_eq_some {cs whole doi : List Char} (h : matchAt isDecimal cs = some (whole, doi)) :
  whole <+: cs ∧ ∃ scheme digits suffix, IsDoi isDecimal scheme digits suffix ∧
    whole = scheme ++ doi ∧ doi = ofParts digits suffix
  := by
  obtain ⟨scheme, hscheme, hfound⟩ := List.exists_of_findSome?_eq_some h
  split at hfound
  · rename_i hpre
    obtain ⟨found, hidentifier, hparts⟩ := Option.map_eq_some_iff.mp hfound
    obtain ⟨rfl, rfl⟩ := Prod.mk.inj hparts
    obtain ⟨digits, suffix, hdoi, hstart, henough, hdigits, hslash, hsuffix, hnonempty⟩ :=
      identifier_eq_some hidentifier
    constructor
    · obtain ⟨rest, hrest⟩ := List.isPrefixOf_iff_prefix.mp hpre
      rw [← hrest, List.drop_left] at hstart
      rw [← hrest]
      exact (List.prefix_append_right_inj scheme).mpr hstart
    · exact ⟨scheme, digits, suffix,
        ⟨hscheme, henough, hdigits, hslash, hsuffix, hnonempty⟩, rfl, hdoi⟩
  · cases hfound

/-- A DOI at the start of a text is matched there, though perhaps not to its end. -/
theorem matchAt_isSome {scheme digits suffix : List Char}
    (h : IsDoi isDecimal scheme digits suffix) (rest : List Char) :
  matchAt isDecimal (scheme ++ (ofParts digits suffix ++ rest)) ≠ none
  := by
  rw [← Option.isSome_iff_ne_none, matchAt, List.findSome?_isSome_iff]
  use scheme, h.scheme_mem
  rw [if_pos (List.isPrefixOf_iff_prefix.mpr (List.prefix_append _ _)), List.drop_left,
    Option.isSome_map]
  exact identifier_isSome h.enough h.decimal h.slash h.suffixChars h.nonempty rest

theorem scheme_head {scheme : List Char} (h : scheme ∈ schemes) :
  ∃ c cs, scheme = c :: cs ∧ isTrailingPunct c = false ∧ isWhitespace c = false
  := by
  rw [schemes, List.mem_cons, List.mem_cons, List.mem_singleton] at h
  rcases h with rfl | rfl | rfl
  · exact ⟨_, _, rfl, rfl, rfl⟩
  · exact ⟨_, _, rfl, rfl, rfl⟩
  · exact ⟨_, _, rfl, rfl, rfl⟩

end Pattern

/-- The DOIs as a matcher. -/
def matcher (isDecimal : Char → Bool) : Matcher Char (List Char) where
  atStart := matchAt isDecimal
  matched h := (matchAt_eq_some h).1
  nonempty h := by
    obtain ⟨_, scheme, digits, suffix, hdoi, rfl, _⟩ := matchAt_eq_some h
    obtain ⟨c, cs, rfl, _⟩ := scheme_head hdoi.scheme_mem
    apply List.cons_ne_nil

/-- The DOIs in a text. -/
def pieces (isDecimal : Char → Bool) (text : String) : List (Piece Char (List Char)) :=
  (scanAll (matcher isDecimal) text.toList).1

/-- What follows the last DOI of a text. -/
def last (isDecimal : Char → Bool) (text : String) : List Char :=
  (scanAll (matcher isDecimal) text.toList).2

end Doi

/-- The libraries with the pattern of DOIs, whose digits are the decimal digits of Unicode. -/
def Renderer.withDois (isDecimal : Char → Bool) (r : Renderer) : Renderer :=
  { r with
    captures := fun text => (Doi.pieces isDecimal text).map fun p =>
      (String.ofList p.whole, String.ofList p.group) }

namespace Doi

/-! ### Links in a text -/

/-- A DOI without the punctuation at its end. -/
def source (p : Piece Char (List Char)) : List Char :=
  p.whole.rdropWhile isTrailingPunct

/-- The punctuation at the end of a DOI. -/
def punctuation (p : Piece Char (List Char)) : List Char :=
  p.whole.rtakeWhile isTrailingPunct

def reference (p : Piece Char (List Char)) : DoiReference where
  doi := String.ofList (p.group.rdropWhile isTrailingPunct)
  sourceUri := String.ofList (source p)

/-- A text with every DOI as a link in its own place, given the punctuation of the one before. -/
def linked (lead : List Char) : List (Piece Char (List Char)) → List Char → List Event
  | [], last => textEvent (String.ofList (lead ++ last))
  | p :: pieces, last =>
      textEvent (String.ofList (lead ++ p.gap)) ++ [.inlineHtml (doiLink (reference p))] ++
        linked (punctuation p) pieces last

/-- What a reader sees of an event; the text of a text event is escaped when it is written. -/
def visible : Event → List Char
  | .text text => text.toList
  | .inlineHtml html => unescape (stripTags false html.toList)
  | _ => []

/-- The events have no text of the user that is not escaped. -/
def EscapedEvent : Event → Prop
  | .text _ => True
  | .inlineHtml html => ∃ href doi shown, Escaped href ∧ Escaped doi ∧ Escaped shown ∧
      html = "<a href=\"https://doi.org/" ++ String.ofList href ++
        "\" class=\"doi-link\" data-doi=\"" ++ String.ofList doi ++ "\">" ++
        String.ofList shown ++ "</a>"
  | _ => False

/-- The events of a text have its text and, for every DOI that is found, a link in its place. -/
structure LinksDois (isDecimal : Char → Bool) (text : String) (events : List Event) : Prop where
  visible : events.flatMap visible = text.toList
  links : pieces isDecimal text ≠ [] →
    events = linked [] (pieces isDecimal text) (last isDecimal text)
  escaped : ∀ event ∈ events, EscapedEvent event
  unchanged : pieces isDecimal text = [] → events = [.text text]

/-- The suffix of a DOI is punctuation that is taken off. -/
def OnlyPunctuation (p : Piece Char (List Char)) : Prop :=
  ∀ c ∈ (p.group.dropWhile (· != '/')).tail, isTrailingPunct c = true

/-- The text of a DOI starts in front of the place where it was found. -/
def StartsBefore (p : Piece Char (List Char)) : Prop :=
  ∃ front back, p.gap = front ++ back ∧ back ≠ [] ∧ source p <+: back ++ p.whole

/-! ### The text that is seen -/

theorem toList_escapeHtml (input : String) :
  (escapeHtml input).toList = escape input.toList
  := by
  have hreplace (c : Char) (sub s : String) : (replaceChar c sub s).toList =
      s.toList.flatMap fun d => if d = c then sub.toList else [d] := by
    rw [replaceChar, String.toList_ofList]
  simp only [escapeHtml, List.foldl_cons, List.foldl_nil, hreplace, List.flatMap_assoc]
  rw [escape]
  congr 1
  funext c
  rw [escapeChar]
  by_cases hamp : c = '&'
  · rw [if_pos hamp, if_pos hamp]
    rfl
  · rw [if_neg hamp, if_neg hamp]
    by_cases hlt : c = '<'
    · simp only [hlt, List.flatMap_singleton]
      rfl
    · by_cases hgt : c = '>'
      · simp only [hgt, List.flatMap_singleton]
        rfl
      · by_cases hquote : c = quote
        · simp only [hquote, List.flatMap_singleton]
          rfl
        · by_cases hapostrophe : c = apostrophe
          · simp only [hapostrophe, List.flatMap_singleton]
            rfl
          · have hquote' : ¬ c = Char.ofNat 0x22 := hquote
            have hapostrophe' : ¬ c = Char.ofNat 0x27 := hapostrophe
            simp only [if_neg hlt, if_neg hgt, if_neg hquote, if_neg hapostrophe, if_neg hquote',
              if_neg hapostrophe', List.flatMap_singleton]

theorem toList_concat (a b c d e f g : String) :
  (a ++ b ++ c ++ d ++ e ++ f ++ g).toList =
    a.toList ++ b.toList ++ c.toList ++ d.toList ++ e.toList ++ f.toList ++ g.toList
  := by
  simp only [String.toList_append]

theorem toList_doiLink (doi : DoiReference) :
  (doiLink doi).toList = "<a href=\"https://doi.org/".toList ++ escape doi.doi.toList ++
    "\" class=\"doi-link\" data-doi=\"".toList ++ escape doi.doi.toList ++ "\">".toList ++
    escape doi.sourceUri.toList ++ "</a>".toList
  := by
  rw [← toList_escapeHtml, ← toList_escapeHtml]
  exact toList_concat _ _ _ _ _ _ _

/-- A link is escaped, and shows the text that the DOI was found as. -/
theorem visible_doiLink (doi : DoiReference) :
  visible (.inlineHtml (doiLink doi)) = doi.sourceUri.toList
  := by
  have hdoi := (escaped_escape doi.doi.toList).ne
  have hsource := (escaped_escape doi.sourceUri.toList).ne
  have hopen : "<a href=\"https://doi.org/".toList = '<' :: "a href=\"https://doi.org/".toList := by
    decide
  have hmiddle : "\">".toList = "\"".toList ++ ['>'] := by decide
  have hend : "</a>".toList = '<' :: ("/a".toList ++ ['>']) := by decide
  have htag : ∀ c ∈ "a href=\"https://doi.org/".toList ++ (escape doi.doi.toList ++
      ("\" class=\"doi-link\" data-doi=\"".toList ++ (escape doi.doi.toList ++ "\"".toList))),
      c ≠ '>' := by
    simp only [List.forall_mem_append]
    exact ⟨by decide, hdoi.2, by decide, hdoi.2, by decide⟩
  have hstrip := stripTags_tag htag
    (escape doi.sourceUri.toList ++ '<' :: ("/a".toList ++ ['>']))
  simp only [List.append_assoc] at hstrip
  rw [visible, toList_doiLink, hopen, hmiddle, hend]
  simp only [List.append_assoc, List.cons_append, List.nil_append]
  rw [stripTags, if_pos rfl, hstrip, stripTags_plain hsource.1, stripTags, if_pos rfl,
    stripTags_tag (by decide), stripTags, List.append_nil, unescape_escape]

theorem escaped_doiLink (doi : DoiReference) :
  EscapedEvent (.inlineHtml (doiLink doi))
  := by
  have hofList (s : String) : String.ofList (escape s.toList) = escapeHtml s := by
    rw [← toList_escapeHtml, String.ofList_toList]
  refine ⟨escape doi.doi.toList, escape doi.doi.toList, escape doi.sourceUri.toList,
    escaped_escape _, escaped_escape _, escaped_escape _, ?_⟩
  rw [hofList, hofList]
  rfl

theorem visible_textEvent (text : String) :
  (textEvent text).flatMap visible = text.toList
  := by
  rw [textEvent]
  split
  · rename_i htext
    rw [htext]
    rfl
  · rw [List.flatMap_singleton]
    rfl

theorem escaped_textEvent (text : String) :
  ∀ event ∈ textEvent text, EscapedEvent event
  := by
  intro event hevent
  rw [textEvent] at hevent
  split at hevent
  · cases hevent
  · obtain rfl := List.mem_singleton.mp hevent
    trivial

/-- Wherever the cuts are made, no text is lost and none is doubled. -/
theorem visible_splitAround (dois : List DoiReference) (remaining : String)
    (hdois : ∀ doi ∈ dois, doi.sourceUri.toList ≠ []) :
  (splitAround remaining dois).flatMap visible = remaining.toList
  := by
  induction dois generalizing remaining with
  | nil => exact visible_textEvent remaining
  | cons doi dois ih =>
      obtain ⟨hdoi, hdois⟩ := List.forall_mem_cons.mp hdois
      rw [splitAround]
      split
      · rename_i before after hsplit
        obtain ⟨⟨before', after'⟩, hcut, hparts⟩ := Option.map_eq_some_iff.mp hsplit
        obtain ⟨rfl, rfl⟩ := Prod.mk.inj hparts
        rw [List.flatMap_append, List.flatMap_append, List.flatMap_singleton, visible_textEvent,
          visible_doiLink, ih _ hdois, ((cutAt_eq_some_iff hdoi).mp hcut).1,
          String.toList_ofList, String.toList_ofList, List.append_assoc]
      · exact ih remaining hdois

theorem escaped_splitAround (dois : List DoiReference) (remaining : String) :
  ∀ event ∈ splitAround remaining dois, EscapedEvent event
  := by
  induction dois generalizing remaining with
  | nil => exact escaped_textEvent remaining
  | cons doi dois ih =>
      rw [splitAround]
      split
      · rename_i before after hsplit
        simp only [List.forall_mem_append, List.forall_mem_singleton]
        exact ⟨⟨escaped_textEvent before, escaped_doiLink doi⟩, ih after⟩
      · exact ih remaining

/-! ### Where the links land -/

variable {isDecimal : Char → Bool}

theorem detectInText_withDois (isDecimal : Char → Bool) (r : Renderer) (text : String) :
  detectInText (r.withDois isDecimal) text = (pieces isDecimal text).map reference
  := by
  rw [detectInText, Renderer.withDois, List.map_map]
  apply List.map_congr_left
  intro p _
  simp only [Function.comp_apply, trimEndPunct, String.toList_ofList]
  rfl

theorem source_append (p : Piece Char (List Char)) :
  source p ++ punctuation p = p.whole
  := List.rdropWhile_append_rtakeWhile ..

/-- What a DOI that was found is, and that none starts in front of it. -/
structure Found (isDecimal : Char → Bool) (p : Piece Char (List Char)) (rest : List Char) :
    Prop where
  parts : ∃ scheme digits suffix, IsDoi isDecimal scheme digits suffix ∧
    p.whole = scheme ++ p.group ∧ p.group = ofParts digits suffix
  leftmost : ∀ front back, p.gap = front ++ back → back ≠ [] →
    matchAt isDecimal (back ++ (p.whole ++ rest)) = none

theorem found_of_firstMatch {cs rest : List Char} {p : Piece Char (List Char)}
    (h : firstMatch (matcher isDecimal) cs = some (p, rest)) :
  cs = p.gap ++ (p.whole ++ rest) ∧ Found isDecimal p rest
  := by
  obtain ⟨hcut, hmatch, hleftmost⟩ := firstMatch_eq_some h
  exact ⟨hcut, (matchAt_eq_some hmatch).2, hleftmost⟩

section Found

variable {p : Piece Char (List Char)} {rest : List Char} (h : Found isDecimal p rest)

include h

theorem Found.source_head :
  ∃ c cs, source p = c :: cs ∧ isTrailingPunct c = false ∧ isWhitespace c = false
  := by
  obtain ⟨scheme, digits, suffix, hdoi, hwhole, _⟩ := h.parts
  obtain ⟨c, cs, rfl, hc, hspace⟩ := scheme_head hdoi.scheme_mem
  have hall := source_append p
  cases hsource : source p with
  | nil =>
      have hmem : c ∈ p.whole := by
        rw [hwhole]
        apply List.mem_cons_self
      rw [List.rdropWhile_eq_nil_iff.mp hsource c hmem] at hc
      cases hc
  | cons d ds =>
      rw [hsource, hwhole] at hall
      injection hall with hhead _
      use d, ds, rfl
      rw [hhead]
      exact ⟨hc, hspace⟩

theorem Found.source_ne_nil :
  source p ≠ []
  := by
  obtain ⟨c, cs, hsource, _⟩ := h.source_head
  rw [hsource]
  apply List.cons_ne_nil

/-- If anything but punctuation follows the slash, a text that starts with the DOI is matched. -/
theorem Found.matchAt_of_prefix (hsuffix : ¬ OnlyPunctuation p) {cs : List Char}
    (hcs : source p <+: cs) :
  matchAt isDecimal cs ≠ none
  := by
  obtain ⟨scheme, digits, suffix, hdoi, hwhole, hgroup⟩ := h.parts
  have htail : (p.group.dropWhile (· != '/')).tail = suffix := by
    have hdigits : ∀ c ∈ digits, (c != '/') = true := by
      intro c hc
      apply bne_iff_ne.mpr
      rintro rfl
      have hdecimal := hdoi.decimal _ hc
      rw [hdoi.slash] at hdecimal
      cases hdecimal
    rw [hgroup, ofParts, List.dropWhile_cons_of_pos (by decide),
      List.dropWhile_cons_of_pos (by decide), List.dropWhile_cons_of_pos (by decide),
      List.dropWhile_append_of_pos hdigits, List.dropWhile_cons_of_neg (by decide), List.tail_cons]
  rw [OnlyPunctuation, htail, ← List.rdropWhile_eq_nil_iff] at hsuffix
  have hkept : source p = (scheme ++ '1' :: '0' :: '.' :: (digits ++ ['/'])) ++
      suffix.rdropWhile isTrailingPunct := by
    have hwhole' : p.whole = (scheme ++ '1' :: '0' :: '.' :: (digits ++ ['/'])) ++ suffix := by
      rw [hwhole, hgroup, ofParts]
      simp only [List.append_assoc, List.cons_append, List.nil_append]
    have hleft : (suffix.reverse.dropWhile isTrailingPunct).isEmpty = false := by
      rw [List.isEmpty_eq_false_iff]
      intro hnil
      apply hsuffix
      rw [List.rdropWhile, hnil]
      rfl
    rw [source, hwhole', List.rdropWhile, List.reverse_append, List.dropWhile_append, hleft]
    simp only [Bool.false_eq_true, if_false, List.reverse_append, List.reverse_reverse]
    rfl
  obtain ⟨after, rfl⟩ := hcs
  have hshort : IsDoi isDecimal scheme digits (suffix.rdropWhile isTrailingPunct) := by
    refine ⟨hdoi.scheme_mem, hdoi.enough, hdoi.decimal, hdoi.slash, ?_, hsuffix⟩
    intro c hc
    exact hdoi.suffixChars c ((List.rdropWhile_prefix isTrailingPunct suffix).subset hc)
  have hmatch := matchAt_isSome hshort after
  rw [ofParts] at hmatch
  rw [hkept]
  simp only [List.append_assoc, List.cons_append, List.nil_append] at hmatch ⊢
  exact hmatch

/-- A DOI starts in front of its place only if nothing but punctuation follows its slash. -/
theorem Found.onlyPunctuation (hbefore : StartsBefore p) :
  OnlyPunctuation p
  := by
  by_contra hsuffix
  obtain ⟨front, back, hgap, hback, hstarts⟩ := hbefore
  have hnone := h.leftmost front back hgap hback
  apply h.matchAt_of_prefix hsuffix _ hnone
  rw [← List.append_assoc]
  exact hstarts.trans (List.prefix_append _ _)

/-- The first occurrence of a DOI after punctuation is where it was found, just if it does not
start before. -/
theorem Found.cutAt_iff {lead : List Char} (hlead : ∀ c ∈ lead, isTrailingPunct c = true) :
  (∃ after, cutAt (source p) (lead ++ (p.gap ++ (p.whole ++ rest))) =
      some (lead ++ p.gap, after)) ↔ ¬ StartsBefore p
  := by
  have hwhole := source_append p
  have hlength : ∀ back : List Char, (source p).length ≤ (back ++ p.whole).length := by
    intro back
    rw [← hwhole, List.length_append, List.length_append]
    omega
  constructor
  · rintro ⟨after, hcut⟩ ⟨front, back, hgap, hback, hstarts⟩
    obtain ⟨hsplit, hfirst⟩ := (cutAt_eq_some_iff h.source_ne_nil).mp hcut
    rw [← List.append_assoc] at hsplit
    rw [← List.append_cancel_left hsplit] at hfirst
    apply hfirst (lead ++ front) back _ hback
    · rw [← List.append_assoc]
      exact hstarts.trans (List.prefix_append _ _)
    · rw [hgap, List.append_assoc]
  · intro hclear
    use punctuation p ++ rest
    apply (cutAt_eq_some_iff h.source_ne_nil).mpr
    rw [← List.append_assoc (source p), hwhole]
    constructor
    · rw [List.append_assoc]
    · intro front back hsplit hback hstarts
      rcases List.append_eq_append_iff.mp hsplit with ⟨more, _, hgap⟩ | ⟨more, hlead', hback'⟩
      · apply hclear
        refine ⟨more, back, hgap, hback, ?_⟩
        rw [← List.append_assoc] at hstarts
        exact List.prefix_of_prefix_length_le hstarts (List.prefix_append _ rest) (hlength back)
      · cases more with
        | nil =>
            apply hclear
            refine ⟨[], back, hback'.symm, hback, ?_⟩
            rw [← List.append_assoc] at hstarts
            exact List.prefix_of_prefix_length_le hstarts (List.prefix_append _ rest) (hlength back)
        | cons d more =>
            -- the text of a DOI does not start with punctuation
            obtain ⟨c, cs, hsource, hc, _⟩ := h.source_head
            rw [hsource, hback'] at hstarts
            obtain ⟨tail, htail⟩ := hstarts
            injection htail with hhead _
            have hpunct := hlead d (by rw [hlead']; simp)
            rw [← hhead, hc] at hpunct
            cases hpunct

end Found

theorem splitOnceStr_ofList (sep cs : List Char) :
  splitOnceStr (String.ofList sep) (String.ofList cs) =
    (cutAt sep cs).map fun (before, after) => (String.ofList before, String.ofList after)
  := by
  rw [splitOnceStr, String.toList_ofList, String.toList_ofList]

/-- A text in front of a link can be told from the events. -/
theorem textEvent_append_inj {a b : List Char} {html html' : String} {events events' : List Event}
    (h : textEvent (String.ofList a) ++ [.inlineHtml html] ++ events =
      textEvent (String.ofList b) ++ [.inlineHtml html'] ++ events') :
  a = b ∧ events = events'
  := by
  rw [textEvent, textEvent] at h
  by_cases ha : String.ofList a = ""
  · by_cases hb : String.ofList b = ""
    · rw [if_pos ha, if_pos hb] at h
      injection h with _ hevents
      refine ⟨?_, hevents⟩
      rw [← @String.toList_ofList a, ← @String.toList_ofList b, ha, hb]
    · rw [if_pos ha, if_neg hb] at h
      injection h with hevent
      cases hevent
  · by_cases hb : String.ofList b = ""
    · rw [if_neg ha, if_pos hb] at h
      injection h with hevent
      cases hevent
    · rw [if_neg ha, if_neg hb] at h
      injection h with hevent hrest
      injection hevent with htext
      injection hrest with _ hevents
      refine ⟨?_, hevents⟩
      rw [← @String.toList_ofList a, ← @String.toList_ofList b, htext]

/-- Every link is in its own place just if no DOI starts in front of its place. -/
theorem splitAround_eq_iff {cs last : List Char} {found : List (Piece Char (List Char))}
    (h : Scanned (matcher isDecimal) cs found last) {lead : List Char}
    (hlead : ∀ c ∈ lead, isTrailingPunct c = true) :
  splitAround (String.ofList (lead ++ cs)) (found.map reference) = linked lead found last ↔
    ∀ p ∈ found, ¬ StartsBefore p
  := by
  induction h generalizing lead with
  | last hnone =>
      apply iff_of_true
      · rfl
      · intro p hp
        cases hp
  | next hfirst hrest ih =>
      rename_i cs rest last p found
      obtain ⟨hcut, hp⟩ := found_of_firstMatch hfirst
      have hpunct : ∀ c ∈ punctuation p, isTrailingPunct c = true :=
        fun c hc => List.mem_rtakeWhile_imp hc
      have hoccurs : source p <:+: lead ++ cs := by
        use lead ++ p.gap, punctuation p ++ rest
        rw [hcut, ← source_append p]
        simp only [List.append_assoc]
      obtain ⟨before, after, hfound⟩ := cutAt_isSome hoccurs
      have hsplit : splitOnceStr (reference p).sourceUri (String.ofList (lead ++ cs)) =
          some (String.ofList before, String.ofList after) := by
        rw [reference, splitOnceStr_ofList, hfound]
        rfl
      have hlands : before = lead ++ p.gap ↔ ¬ StartsBefore p := by
        rw [← hp.cutAt_iff hlead, ← hcut, hfound]
        constructor
        · rintro rfl
          exact ⟨after, rfl⟩
        · rintro ⟨after', hafter⟩
          exact (Prod.mk.inj (Option.some.inj hafter)).1
      have hafter : before = lead ++ p.gap → after = punctuation p ++ rest := by
        rintro rfl
        have hall := ((cutAt_eq_some_iff hp.source_ne_nil).mp hfound).1
        rw [hcut, ← source_append p] at hall
        simp only [List.append_assoc, List.append_cancel_left_eq] at hall
        exact hall.symm
      rw [List.map_cons, splitAround, hsplit, linked, List.forall_mem_cons, ← hlands]
      simp only
      constructor
      · intro hevents
        obtain ⟨hbefore, htails⟩ := textEvent_append_inj hevents
        use hbefore
        rw [hafter hbefore] at htails
        exact (ih hpunct).mp htails
      · rintro ⟨hbefore, hclear⟩
        rw [hafter hbefore, hbefore, (ih hpunct).mpr hclear]

theorem found_of_mem {cs last : List Char} {found : List (Piece Char (List Char))}
    (h : Scanned (matcher isDecimal) cs found last) {p : Piece Char (List Char)} (hp : p ∈ found) :
  ∃ rest, Found isDecimal p rest
  := by
  induction h with
  | last hnone => cases hp
  | next hfirst hrest ih =>
      rcases List.mem_cons.mp hp with rfl | hp
      · exact ⟨_, (found_of_firstMatch hfirst).2⟩
      · exact ih hp

/-- The DOIs of a text become links in their places, just if none of which the suffix is only
punctuation starts, without it, in front of its place. -/
theorem linksDois_iff (isDecimal : Char → Bool) (r : Renderer) (text : String) :
  LinksDois isDecimal text (transformEvent (r.withDois isDecimal) (.text text)) ↔
    ∀ p ∈ pieces isDecimal text, OnlyPunctuation p → ¬ StartsBefore p
  := by
  have hscanned := scanned_scanAll (matcher isDecimal) text.toList
  have hclear : (∀ p ∈ pieces isDecimal text, OnlyPunctuation p → ¬ StartsBefore p) ↔
      ∀ p ∈ pieces isDecimal text, ¬ StartsBefore p := by
    constructor
    · intro hall p hp hbefore
      obtain ⟨rest, hfound⟩ := found_of_mem hscanned hp
      exact hall p hp (hfound.onlyPunctuation hbefore) hbefore
    · intro hall p hp _
      exact hall p hp
  have hlinks := @splitAround_eq_iff isDecimal _ _ _ hscanned [] (by simp)
  rw [List.nil_append, String.ofList_toList] at hlinks
  have htransform : transformEvent (r.withDois isDecimal) (.text text) =
      if (pieces isDecimal text).isEmpty then [.text text]
      else splitAround text ((pieces isDecimal text).map reference) := by
    rw [transformEvent, detectInText_withDois]
    simp only [List.isEmpty_map]
  rw [hclear, htransform]
  by_cases hnone : pieces isDecimal text = []
  · rw [hnone, List.isEmpty_nil, if_pos rfl]
    apply iff_of_true
    · constructor
      · rw [List.flatMap_singleton]
        rfl
      · intro hsome
        exact absurd hnone hsome
      · intro event hevent
        obtain rfl := List.mem_singleton.mp hevent
        trivial
      · intro _
        rfl
    · intro p hp
      cases hp
  · have hempty : ¬ (pieces isDecimal text).isEmpty = true := by
      rw [List.isEmpty_iff]
      exact hnone
    rw [if_neg hempty]
    constructor
    · intro h
      exact hlinks.mp (h.links hnone)
    · intro hall
      constructor
      · apply visible_splitAround
        intro doi hdoi
        obtain ⟨p, hp, rfl⟩ := List.mem_map.mp hdoi
        rw [reference, String.toList_ofList]
        obtain ⟨rest, hfound⟩ := found_of_mem hscanned hp
        exact hfound.source_ne_nil
      · intro _
        exact hlinks.mpr hall
      · apply escaped_splitAround
      · intro hnil
        exact absurd hnil hnone

/-- A text with a DOI that is only punctuation after the slash, and the same without it before. -/
def punctuationText : String :=
  "doi:10.1000/ doi:10.1000/."

/-- The link is made of the text in front. -/
theorem punctuation_not_linked :
  ¬ LinksDois Char.isDigit punctuationText
    (transformEvent (numberedRenderer.withDois Char.isDigit) (.text punctuationText))
  := by
  intro h
  have hfound : pieces Char.isDigit punctuationText ≠ [] := by decide +kernel
  have hevents := congrArg (fun events => events.head?.map visible) (h.links hfound)
  revert hevents
  decide +kernel

end Doi

end Markup
