import Noombat.Numbering
import Noombat.Markup.TypstConv

/-!
# The slugs of headings

The headings of a document are taken from the events of its parser, and each is given a slug: its
text made safe for an URL, with a number if the same slug was given before.  The numbers are counted
for each slug by itself, so a heading whose own slug ends in a number may be given the slug of
another, and a text without any letter or digit of ASCII has an empty slug.
-/

namespace Markup

open Text

/-- The functions of libraries that the extraction of headings relies on. -/
structure Renderer where
  /-- The events of the parser on a document. -/
  parse : String → List Event
  /-- The matches of the DOI pattern in a text, each with the identifier in it. -/
  captures : String → List (String × String)
  /-- A formula as it is rendered, on its own or in a line. -/
  renderMath : String → Bool → String
  /-- A text in lower case. -/
  toLowercase : String → String

/-- A heading of a document. -/
structure Heading where
  depth : Nat
  text : String
  slug : String
  deriving DecidableEq, Repr

/-- The number of a level. -/
def HeadingLevel.depth : HeadingLevel → Nat
  | .h1 => 1
  | .h2 => 2
  | .h3 => 3
  | .h4 => 4
  | .h5 => 5
  | .h6 => 6

variable (r : Renderer)

/-! ### The events of a document -/

/-- A DOI in a text, and the text that it was found as. -/
structure DoiReference where
  doi : String
  sourceUri : String

/-- Whether a character is taken off the end of a DOI. -/
def isTrailingPunct (c : Char) : Bool :=
  ['.', ',', ';', ':', '!', '?'].contains c

def trimEndPunct (s : String) : String :=
  String.ofList (s.toList.reverse.dropWhile isTrailingPunct).reverse

/-- The DOIs in a text. -/
def detectInText (text : String) : List DoiReference :=
  (r.captures text).map fun (whole, doi) => ⟨trimEndPunct doi, trimEndPunct whole⟩

def escapeHtml (input : String) : String :=
  -- the last two are the quotation mark and the apostrophe
  [('&', "&amp;"), ('<', "&lt;"), ('>', "&gt;"), (Char.ofNat 0x22, "&quot;"),
    (Char.ofNat 0x27, "&#x27;")].foldl (fun s sub => replaceChar sub.1 sub.2 s) input

/-- A DOI as a link. -/
def doiLink (doi : DoiReference) : String :=
  "<a href=\"https://doi.org/" ++ escapeHtml doi.doi ++ "\" class=\"doi-link\" data-doi=\"" ++
    escapeHtml doi.doi ++ "\">" ++ escapeHtml doi.sourceUri ++ "</a>"

/-- A text as an event, unless it is empty. -/
def textEvent (text : String) : List Event :=
  if text = "" then [] else [.text text]

/-- The text around the DOIs, with links in their places. -/
def splitAround (remaining : String) : List DoiReference → List Event
  | [] => textEvent remaining
  | doi :: dois =>
      match splitOnceStr doi.sourceUri remaining with
      | some (before, after) =>
          textEvent before ++ [.inlineHtml (doiLink doi)] ++ splitAround after dois
      | none => splitAround remaining dois

/-- The events that one event of the parser is rendered as. -/
def transformEvent : Event → List Event
  | .inlineMath math => [.inlineHtml (r.renderMath math false)]
  | .displayMath math => [.html (r.renderMath math true)]
  | .text text =>
      let detected := detectInText r text
      if detected.isEmpty then [.text text] else splitAround text detected
  | event => [event]

/-! ### Slugs -/

/-- The characters of a slug, given whether the last was a hyphen. -/
def slugChars : Bool → List Char → List Char
  | _, [] => []
  | prevHyphen, c :: cs =>
      if c.isAlphanum then c :: slugChars false cs
      else if (isWhitespace c || c == '-' || c == '_') && !prevHyphen then '-' :: slugChars true cs
      else slugChars prevHyphen cs

/-- A text made safe for an URL. -/
def slugify (text : String) : String :=
  let slug := slugChars true (r.toLowercase text).toList
  String.ofList (if slug.getLast? = some '-' then slug.dropLast else slug)

/-! ### Extraction -/

/-- The loop over the events: the headings so far, the heading that is open, its text, and how often
each slug was given. -/
structure Extraction where
  headings : List Heading
  currentDepth : Option Nat
  currentText : String
  slugCounts : String → UInt32

namespace Extraction

def start : Extraction :=
  ⟨[], none, "", fun _ => 0⟩

/-- Close the heading that is open. -/
def close (depth : Nat) (x : Extraction) : Extraction :=
  let text := trim x.currentText
  if text = "" then x
  else
    let baseSlug := slugify r text
    let count := x.slugCounts baseSlug
    let slug := if count = 0 then baseSlug else baseSlug ++ "-" ++ toString count.toNat
    { x with
      headings := x.headings ++ [⟨depth, text, slug⟩]
      slugCounts := fun s => if s = baseSlug then count + 1 else x.slugCounts s }

def step (x : Extraction) : Event → Extraction
  | .start (.heading level) => { x with currentDepth := some level.depth, currentText := "" }
  | .end (.heading _) =>
      let closed := match x.currentDepth with
        | some depth => x.close r depth
        | none => x
      { closed with currentDepth := none, currentText := "" }
  | .text text | .code text =>
      if x.currentDepth.isSome then { x with currentText := x.currentText ++ text } else x
  | _ => x

end Extraction

/-- The headings of the events of a document. -/
def extractHeadings (events : List Event) : List Heading :=
  (events.foldl (Extraction.step r) Extraction.start).headings

/-- The headings that rendering a document gives. -/
def renderedHeadings (input : String) : List Heading :=
  extractHeadings r ((r.parse input).flatMap (transformEvent r))

/-! ### The texts of headings -/

/-- The texts of the headings of the events, given the text of the one that is open. -/
def headingTexts : Option String → List Event → List String
  | _, [] => []
  | _, .start (.heading _) :: events => headingTexts (some "") events
  | current, .end (.heading _) :: events =>
      (current.map trim).toList.filter (· ≠ "") ++ headingTexts none events
  | current, .text text :: events => headingTexts (current.map (· ++ text)) events
  | current, .code text :: events => headingTexts (current.map (· ++ text)) events
  | current, _ :: events => headingTexts current events

/-! ### What the slugs are -/

variable {r}

/-- The text of the heading that is open. -/
def Extraction.current (x : Extraction) : Option String :=
  x.currentDepth.map fun _ => x.currentText

/-- The headings have the slugs of the texts, numbered, and the counts are those of the slugs, as
far as they can be counted. -/
structure Extracted (r : Renderer) (texts : List String) (x : Extraction) : Prop where
  slugs : x.headings.map Heading.slug =
    Numbering.numberedAfter (2 ^ 32) [] (texts.map (slugify r))
  counts : ∀ slug, x.slugCounts slug = UInt32.ofNat ((texts.map (slugify r)).count slug)

theorem extracted_start :
  Extracted r [] Extraction.start
  := by
  constructor
  · rfl
  · intro slug
    rfl

theorem extracted_close {texts : List String} {x : Extraction} (h : Extracted r texts x)
    (depth : Nat) :
  Extracted r (texts ++ [trim x.currentText].filter (· ≠ "")) (x.close r depth)
  := by
  rw [Extraction.close]
  by_cases htext : trim x.currentText = ""
  · rw [htext]
    simpa using h
  · have hfilter : [trim x.currentText].filter (· ≠ "") = [trim x.currentText] := by
      simp [htext]
    rw [hfilter]
    simp only [htext, if_false]
    generalize trim x.currentText = text
    have hcount := h.counts (slugify r text)
    have hnumber : (x.slugCounts (slugify r text)).toNat =
        (texts.map (slugify r)).count (slugify r text) % 2 ^ 32 := by
      rw [hcount, UInt32.toNat_ofNat']
    constructor
    · rw [List.map_append, h.slugs, List.map_append, List.map_singleton, List.map_singleton,
        Numbering.numberedAfter_concat, List.nil_append, Numbering.suffixed, ← hnumber]
      have hzero : x.slugCounts (slugify r text) = 0 ↔
          (x.slugCounts (slugify r text)).toNat = 0 := by
        rw [← UInt32.toNat_inj]
        rfl
      simp only [hzero]
    · intro slug
      rw [List.map_append, List.map_singleton, List.count_append]
      simp only
      split
      · rename_i hslug
        rw [hslug, hcount, List.count_singleton_self, UInt32.ofNat_add]
        rfl
      · rename_i hslug
        rw [List.count_singleton, if_neg (by simpa using Ne.symm hslug), Nat.add_zero]
        exact h.counts slug

theorem current_of_open {x : Extraction} (h : x.currentDepth.isSome = true) (text : String) :
  Extraction.current { x with currentText := x.currentText ++ text } =
    x.current.map fun open' => open' ++ text
  := by
  obtain ⟨depth, hdepth⟩ := Option.isSome_iff_exists.mp h
  simp [Extraction.current, hdepth]

/-- The text of an event goes on with the heading that is open. -/
theorem extracted_text {texts : List String} {x : Extraction} (h : Extracted r texts x)
    (text : String) :
  let x' := if x.currentDepth.isSome then { x with currentText := x.currentText ++ text } else x
  Extracted r texts x' ∧ x'.current = x.current.map fun open' => open' ++ text
  := by
  intro x'
  by_cases hopen : x.currentDepth.isSome = true
  · have hx' : x' = { x with currentText := x.currentText ++ text } := if_pos hopen
    rw [hx']
    constructor
    · exact ⟨h.slugs, h.counts⟩
    · exact current_of_open hopen text
  · have hx' : x' = x := if_neg hopen
    have hnone : x.currentDepth = none := by simpa using hopen
    rw [hx']
    constructor
    · exact h
    · simp [Extraction.current, hnone]

/-- One event closes at most one heading. -/
theorem extracted_step {texts : List String} {x : Extraction} (h : Extracted r texts x)
    (event : Event) :
  ∃ closed, Extracted r (texts ++ closed) (x.step r event) ∧
    ∀ events, headingTexts x.current (event :: events) =
      closed ++ headingTexts (x.step r event).current events
  := by
  have quiet (hstep : x.step r event = x)
      (htexts : ∀ events, headingTexts x.current (event :: events) =
        headingTexts x.current events) :
      ∃ closed, Extracted r (texts ++ closed) (x.step r event) ∧
        ∀ events, headingTexts x.current (event :: events) =
          closed ++ headingTexts (x.step r event).current events := by
    use []
    rw [hstep, List.append_nil]
    exact ⟨h, htexts⟩
  cases event with
  | start tag =>
      cases tag with
      | heading level =>
          use []
          rw [List.append_nil]
          exact ⟨⟨h.slugs, h.counts⟩, fun _ => rfl⟩
      | _ => exact quiet rfl fun _ => rfl
  | «end» tag =>
      cases tag with
      | heading level =>
          cases hdepth : x.currentDepth with
          | none =>
              use []
              rw [List.append_nil, Extraction.step, hdepth]
              constructor
              · exact ⟨h.slugs, h.counts⟩
              · intro events
                rw [Extraction.current, hdepth]
                rfl
          | some depth =>
              use [trim x.currentText].filter (· ≠ "")
              have hclose := extracted_close h depth
              rw [Extraction.step, hdepth]
              constructor
              · exact ⟨hclose.slugs, hclose.counts⟩
              · intro events
                rw [Extraction.current, hdepth]
                rfl
      | _ => exact quiet rfl fun _ => rfl
  | text text =>
      use []
      rw [List.append_nil]
      obtain ⟨hextracted, hcurrent⟩ := extracted_text h text
      constructor
      · exact hextracted
      · intro events
        rw [List.nil_append, headingTexts]
        exact congrArg (headingTexts · events) hcurrent.symm
  | code text =>
      use []
      rw [List.append_nil]
      obtain ⟨hextracted, hcurrent⟩ := extracted_text h text
      constructor
      · exact hextracted
      · intro events
        rw [List.nil_append, headingTexts]
        exact congrArg (headingTexts · events) hcurrent.symm
  | _ => exact quiet rfl fun _ => rfl

theorem extracted_foldl {texts : List String} {x : Extraction} (h : Extracted r texts x)
    (events : List Event) :
  Extracted r (texts ++ headingTexts x.current events) (events.foldl (Extraction.step r) x)
  := by
  induction events generalizing texts x with
  | nil =>
      rw [headingTexts, List.append_nil]
      exact h
  | cons event events ih =>
      obtain ⟨closed, hstep, htexts⟩ := extracted_step h event
      rw [List.foldl_cons, htexts, ← List.append_assoc]
      exact ih hstep

variable (r)

/-- The texts of the headings of a document. -/
def documentTexts (input : String) : List String :=
  headingTexts none ((r.parse input).flatMap (transformEvent r))

/-- The slugs of the headings are their texts made safe, and numbered. -/
theorem slugs_renderedHeadings (input : String) :
  (renderedHeadings r input).map Heading.slug =
    Numbering.numberedAfter (2 ^ 32) [] ((documentTexts r input).map (slugify r))
  := (extracted_foldl extracted_start _).slugs

/-- Every entry of a table of contents can link to its own heading. -/
structure Usable (headings : List Heading) : Prop where
  some : ∀ heading ∈ headings, heading.slug ≠ ""
  different : headings.Pairwise fun heading heading' => heading.slug ≠ heading'.slug

/-- The slugs of a document are usable just if no heading's own slug is empty, none is that of more
headings than can be counted, and none is that of another heading with one of its numbers. -/
theorem slugs_usable_iff (input : String) :
  Usable (renderedHeadings r input) ↔
    "" ∉ (documentTexts r input).map (slugify r) ∧
      Numbering.Apart (2 ^ 32) ((documentTexts r input).map (slugify r))
  := by
  have hslugs := slugs_renderedHeadings r input
  rw [← @Numbering.ne_empty_numberedAfter_iff (2 ^ 32),
    ← Numbering.nodup_numberedAfter_iff (by decide), ← hslugs, List.forall_mem_map, List.Nodup,
    List.pairwise_map]
  constructor
  · intro h
    exact ⟨h.some, h.different⟩
  · intro h
    exact ⟨h.1, h.2⟩

/-! ### Two headings with one slug -/

/-- A document with a heading twice, and another that is the first with a number. -/
def numberedDocument : String :=
  "# Part\n# Part\n# Part 1\n"

/-- The events of that document. -/
def numberedEvents : List Event :=
  ["Part", "Part", "Part 1"].flatMap fun text =>
    [.start (.heading .h1), .text text, .end (.heading .h1)]

/-- The libraries on that document. -/
def numberedRenderer : Renderer where
  parse input := if input = numberedDocument then numberedEvents else []
  captures _ := []
  renderMath math _ := math
  toLowercase := toAsciiLowercase

theorem numbered_not_usable :
  ¬ Usable (renderedHeadings numberedRenderer numberedDocument)
  := by
  intro h
  have hslugs : (renderedHeadings numberedRenderer numberedDocument).map Heading.slug =
      ["part", "part-1", "part-1"] := by decide +kernel
  have hdifferent := List.pairwise_map.mpr h.different
  rw [hslugs] at hdifferent
  revert hdifferent
  decide

end Markup
