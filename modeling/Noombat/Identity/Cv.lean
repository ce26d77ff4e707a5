import Noombat.Federation.Types
import Noombat.Json
import Noombat.Markup.TypstSafety

/-!
# The source of a CV

A CV is typeset from Typst code that is assembled from the data of a profile.  What the user has
written stands in string literals: plain fields are escaped, Markdown is converted.  The code is the
same for all profiles of one shape, and its literals denote the fields.
-/

namespace Identity.Cv

open Federation (NoombatError)
open Markup Typst

/-! ### The profile -/

/-- A day, by what is written of it. -/
structure NaiveDate where
  year : Int
  month : Fin 12

structure Actor where
  username : String
  displayName : Option String
  headline : Option String
  summaryMd : Option String
  orcid : Option String
  isLocal : Bool

structure WorkExperience where
  title : String
  organization : String
  startDate : NaiveDate
  endDate : Option NaiveDate
  descriptionMd : Option String

structure EducationEntry where
  institution : String
  degree : Option String
  fieldOfStudy : Option String
  startDate : NaiveDate
  endDate : Option NaiveDate
  descriptionMd : Option String

structure Skill where
  name : String

structure ScholarlyArticle where
  doi : String
  title : String
  authors : Json
  journal : Option String
  publishedDate : Option NaiveDate

structure ProfileLink where
  url : String
  isVerified : Bool

/-- The data of a profile that a CV is generated from. -/
structure Profile where
  actor : Actor
  experiences : List WorkExperience
  educations : List EducationEntry
  skills : List Skill
  publications : List ScholarlyArticle
  links : List ProfileLink

/-! ### Fields -/

/-- Escape a string for embedding in a Typst string literal. -/
def escapeTypstString (s : String) : String :=
  -- backslash and quote only
  Text.replaceChar '"' "\\\"" (Text.replaceChar '\\' "\\\\" s)

/-- A string as a Typst string literal. -/
def quoted (value : String) : String :=
  "\"" ++ escapeTypstString value ++ "\""

def months : List String :=
  ["Jan", "Feb", "Mar", "Apr", "May", "Jun", "Jul", "Aug", "Sep", "Oct", "Nov", "Dec"]

/-- A number with zeros before it, so that it has at least four digits. -/
def fourDigits (n : Nat) : String :=
  String.ofList (List.replicate (4 - (Nat.toDigits 10 n).length) '0' ++ Nat.toDigits 10 n)

/-- A year, with a sign if it has not four digits. -/
def NaiveDate.yearText (d : NaiveDate) : String :=
  if d.year < 0 then "-" ++ fourDigits d.year.natAbs
  else if d.year ≤ 9999 then fourDigits d.year.natAbs
  else "+" ++ fourDigits d.year.natAbs

def NaiveDate.text (d : NaiveDate) : String :=
  months.getD d.month.val "" ++ " " ++ d.yearText

/-- Format a date range. -/
def formatDateRange (start : NaiveDate) (stop : Option NaiveDate) : String :=
  start.text ++ " - " ++ stop.elim "present" NaiveDate.text

/-- A date range as a string literal: it is written as it is. -/
def quotedDates (start : NaiveDate) (stop : Option NaiveDate) : String :=
  "\"" ++ formatDateRange start stop ++ "\""

/-- Format a single publication citation in the requested style. -/
def formatCitation (style authors title journal year doi : String) : String :=
  if style = "ieee" then
    authors ++ ", \"" ++ title ++ ",\"" ++
      (if journal = "" then "" else " " ++ journal ++ ",") ++
      (if year = "" then "" else " " ++ year ++ ".") ++
      (if doi = "" then "" else " doi:" ++ doi ++ ".")
  else if style = "vancouver" then
    authors ++ ". " ++ title ++ "." ++
      (if journal = "" then "" else " " ++ journal ++ ".") ++
      (if year = "" then "" else " " ++ year ++ ".") ++
      (if doi = "" then "" else " doi:" ++ doi ++ ".")
  else
    authors ++ " " ++ (if year = "" then "(n.d.)" else "(" ++ year ++ ")") ++ ". " ++ title ++ "." ++
      (if journal = "" then "" else " " ++ journal ++ ".") ++
      (if doi = "" then "" else " https://doi.org/" ++ doi)

/-- The citation of an article. -/
def ScholarlyArticle.formatted (citationStyle : String) (article : ScholarlyArticle) : String :=
  let authors := (article.authors.asArray.map fun items =>
    ", ".intercalate (items.filterMap Json.asStr)).getD ""
  formatCitation citationStyle authors article.title (article.journal.getD "")
    ((article.publishedDate.map NaiveDate.yearText).getD "") article.doi

/-! ### The source -/

def preludeLines : List String :=
  ["// Noombat prelude: the only route by which user text enters the",
    "// document. Each of these takes strings and arrays, never markup.",
    "#let nb-text(s) = s",
    "#let nb-seq(parts) = parts.join()",
    "#let nb-strong(parts) = strong(parts.join())",
    "#let nb-emph(parts) = emph(parts.join())",
    "#let nb-strike(parts) = strike(parts.join())",
    "#let nb-raw(s) = raw(s)",
    "#let nb-link(url, parts) = link(url, parts.join())",
    "#let nb-quote(parts) = quote(block: true, parts.join())",
    "#let nb-heading(level, parts) = heading(level: level, parts.join())",
    "#let nb-par(parts) = par(parts.join())",
    "#let nb-item(parts) = parts.join()",
    "#let nb-list(items) = if items.len() == 0 \x7b none \x7d else \x7b list(..items) \x7d",
    "#let nb-enum(items) = if items.len() == 0 \x7b none \x7d else \x7b enum(..items) \x7d",
    "#let nb-rule() = line(length: 100%)",
    "#let nb-break() = linebreak()",
    "#let nb-doc(blocks) = blocks.join()"]

/-- Definitions the generated source must contain before any expression is evaluated. -/
def TYPST_PRELUDE : String :=
  String.join (preludeLines.map fun line => line ++ "\n")

variable (parse : String → List Event) (citationStyle : String)

/-- A description, or `none`. -/
def description (md : Option String) : String :=
  (md.map fun md => mdToTypstExpr (parse md)).getD "none"

/-- The summary that is written: a blank one counts as absent. -/
def Actor.summary (actor : Actor) : Option String :=
  actor.summaryMd.filter fun md => Text.trim md != ""

def WorkExperience.line (exp : WorkExperience) : String :=
  String.join ["  (title: ", quoted exp.title, ", organization: ", quoted exp.organization,
    ", dates: ", quotedDates exp.startDate exp.endDate,
    ", description: ", description parse exp.descriptionMd, "),\n"]

def EducationEntry.line (edu : EducationEntry) : String :=
  String.join ["  (institution: ", quoted edu.institution, ", degree: ",
    quoted (edu.degree.getD ""), ", field: ", quoted (edu.fieldOfStudy.getD ""),
    ", dates: ", quotedDates edu.startDate edu.endDate,
    ", description: ", description parse edu.descriptionMd, "),\n"]

/-- An element of an array of strings. -/
def element (value : String) : String :=
  String.join ["  ", quoted value, ",\n"]

def ScholarlyArticle.line (article : ScholarlyArticle) : String :=
  String.join ["  (formatted: ", quoted (article.formatted citationStyle),
    ", doi: ", quoted article.doi, "),\n"]

/-- The source before the body of the template. -/
def Profile.source (p : Profile) : String :=
  String.join [TYPST_PRELUDE, "\n",
    "#let name = ", quoted (p.actor.displayName.getD p.actor.username), "\n",
    "#let title = ", quoted (p.actor.headline.getD ""), "\n",
    "#let summary = ", description parse p.actor.summary, "\n",
    "#let orcid = ", p.actor.orcid.elim "\"\"" quoted, "\n",
    "#let experiences = (\n", String.join (p.experiences.map (WorkExperience.line parse)), ")\n",
    "#let educations = (\n", String.join (p.educations.map (EducationEntry.line parse)), ")\n",
    "#let skills = (\n", String.join (p.skills.map fun skill => element skill.name), ")\n",
    "#let citation_style = ", quoted citationStyle, "\n",
    "#let publications = (\n",
      String.join (p.publications.map (ScholarlyArticle.line citationStyle)), ")\n",
    "#let verified_links = (\n",
      String.join ((p.links.filter (·.isVerified)).map fun link => element link.url), ")\n\n"]

/-- The source that is compiled: the body of the template comes last. -/
def cvSource (templateSrc : String) (p : Profile) : Except NoombatError String :=
  if !p.actor.isLocal then
    .error (.badRequest "a CV is generated from profile data, and this profile came from another instance with nothing to check it against")
  else .ok (p.source parse citationStyle ++ templateSrc)

/-! ### Escaped strings -/

/-- A character of a string, escaped. -/
def escapeChar (c : Char) : List Char :=
  if c = '\\' then ['\\', '\\'] else if c = '"' then ['\\', '"'] else [c]

theorem toList_escapeTypstString (s : String) :
  (escapeTypstString s).toList = s.toList.flatMap escapeChar
  := by
  have hinner : (Text.replaceChar '\\' "\\\\" s).toList =
      s.toList.flatMap fun d => if d = '\\' then ['\\', '\\'] else [d] := String.toList_ofList
  have houter : ∀ t : String, (Text.replaceChar '"' "\\\"" t).toList =
      t.toList.flatMap fun d => if d = '"' then ['\\', '"'] else [d] := fun _ => String.toList_ofList
  rw [escapeTypstString, houter, hinner, List.flatMap_assoc]
  congr 1
  funext c
  rw [escapeChar]
  split
  · rfl
  · exact List.flatMap_singleton _ _

/-- A character is escaped by a backslash, or stands for itself and neither ends a literal nor
escapes. -/
theorem escapeChar_cases (c : Char) :
  (escapeChar c = ['\\', c] ∧ unescape c = some c) ∨
    (escapeChar c = [c] ∧ c ≠ '"' ∧ c ≠ '\\')
  := by
  rw [escapeChar]
  split
  next h => exact .inl ⟨by rw [h], by rw [h]; rfl⟩
  next hbackslash =>
    split
    next h => exact .inl ⟨by rw [h], by rw [h]; rfl⟩
    next hquote => exact .inr ⟨rfl, hquote, hbackslash⟩

/-- An escaped string is read up to the quote after it. -/
theorem scan_escaped (s raw rest : List Char) :
  scan (some (false, raw)) (s.flatMap escapeChar ++ '"' :: rest) =
    (scan none rest).map (.literal (raw.reverse ++ s.flatMap escapeChar) :: ·)
  := by
  induction s generalizing raw with
  | nil => simp [scan]
  | cons c s ih =>
      rw [List.flatMap_cons, List.append_assoc]
      obtain ⟨hc, _⟩ | ⟨hc, hquote, hbackslash⟩ := escapeChar_cases c
      · rw [hc]
        simp only [List.cons_append, List.nil_append]
        rw [scan_escape, ih]
        simp
      · have hplain : ∀ d ∈ [c], d ≠ '"' ∧ d ≠ '\\' := by
          intro d hd
          obtain rfl := List.mem_singleton.mp hd
          exact ⟨hquote, hbackslash⟩
        rw [hc, scan_plain hplain, ih]
        simp

/-- An escaped string denotes the string. -/
theorem decode_escaped (s : List Char) :
  decode (s.flatMap escapeChar) = s
  := by
  induction s with
  | nil => simp [decode]
  | cons c s ih =>
      rw [List.flatMap_cons]
      obtain ⟨hc, hescape⟩ | ⟨hc, _, hbackslash⟩ := escapeChar_cases c
      · rw [hc]
        exact (decode_escape hescape _).trans (congrArg _ ih)
      · rw [hc]
        exact (decode_of_ne hbackslash _).trans (congrArg _ ih)

/-! ### Spans -/

/-- A span of the source: a part of converted Markdown, or a string that is escaped between
quotes. -/
inductive Span where
  | chunk (chunk : Chunk)
  | quoted (value : String)

namespace Span

def text : Span → List Char
  | chunk c => c.text.toList
  | quoted value => '"' :: (value.toList.flatMap escapeChar ++ ['"'])

def pieces : Span → List Piece
  | chunk c => c.pieces
  | quoted value => [.literal (value.toList.flatMap escapeChar)]

def quoteless : Span → Bool
  | chunk c => c.quoteless
  | quoted _ => true

/-- The value of a literal. -/
def value : Span → Option String
  | chunk (.code _) => none
  | chunk (.literal value) => some value
  | quoted value => some value

end Span

/-- Spans without quotes in their code are read as they are. -/
theorem scan_spans {spans : List Span} (h : ∀ span ∈ spans, span.quoteless = true) :
  scan none (spans.flatMap Span.text) = some (spans.flatMap Span.pieces)
  := by
  induction spans with
  | nil => rfl
  | cons span spans ih =>
      have hspan := h span List.mem_cons_self
      have hrest := ih fun span hmem => h span (List.mem_cons_of_mem _ hmem)
      rw [List.flatMap_cons, List.flatMap_cons]
      cases span with
      | quoted value =>
          rw [Span.text, List.cons_append, List.append_assoc, List.singleton_append, scan,
            if_pos rfl, scan_escaped, hrest]
          rfl
      | chunk c =>
          cases c with
          | code s =>
              have hcode : ∀ c ∈ s.toList, c ≠ '"' :=
                fun c hc => bne_iff_ne.mp (List.all_eq_true.mp hspan c hc)
              rw [Span.text, Chunk.text, scan_code hcode, hrest]
              rfl
          | literal value =>
              have htext : (Span.chunk (.literal value)).text ++ spans.flatMap Span.text =
                  '"' :: (value.toList.flatMap literalChar ++ '"' :: spans.flatMap Span.text) := by
                simp [Span.text, Chunk.text, literal]
              rw [htext, scan, if_pos rfl, scan_literal, hrest]
              rfl

/-- The literals of spans denote their values. -/
theorem literalsOf_spans (spans : List Span) :
  literalsOf (spans.flatMap Span.pieces) = spans.filterMap Span.value
  := by
  induction spans with
  | nil => rfl
  | cons span spans ih =>
      rw [List.flatMap_cons, literalsOf_append, ih]
      cases span with
      | quoted value => simp [Span.pieces, literalsOf, decode_escaped, Span.value]
      | chunk c =>
          cases c with
          | code s =>
              rw [Span.pieces, literalsOf_code]
              rfl
          | literal value =>
              rw [Span.pieces, literalsOf_literal]
              rfl

/-! ### The spans of the source -/

/-- A span of code. -/
def code (s : String) : Span :=
  .chunk (.code s)

section Spans

variable (parse : String → List Event) (citationStyle : String)

/-- The spans of an expression for Markdown, or of `none`. -/
def descriptionSpans (md : Option String) : List Span :=
  (md.map fun md => (exprChunks (parse md)).map Span.chunk).getD [code "none"]

def WorkExperience.spans (exp : WorkExperience) : List Span :=
  [code "  (title: ", .quoted exp.title, code ", organization: ", .quoted exp.organization,
    code ", dates: ", .quoted (formatDateRange exp.startDate exp.endDate),
    code ", description: "] ++ descriptionSpans parse exp.descriptionMd ++ [code "),\n"]

def EducationEntry.spans (edu : EducationEntry) : List Span :=
  [code "  (institution: ", .quoted edu.institution, code ", degree: ", .quoted (edu.degree.getD ""),
    code ", field: ", .quoted (edu.fieldOfStudy.getD ""),
    code ", dates: ", .quoted (formatDateRange edu.startDate edu.endDate),
    code ", description: "] ++ descriptionSpans parse edu.descriptionMd ++ [code "),\n"]

def elementSpans (value : String) : List Span :=
  [code "  ", .quoted value, code ",\n"]

def ScholarlyArticle.spans (article : ScholarlyArticle) : List Span :=
  [code "  (formatted: ", .quoted (article.formatted citationStyle), code ", doi: ",
    .quoted article.doi, code "),\n"]

/-- The spans of the source before the body of the template. -/
def Profile.spans (p : Profile) : List Span :=
  preludeLines.flatMap (fun line => [code (line ++ "\n")]) ++
  [code "\n", code "#let name = ", .quoted (p.actor.displayName.getD p.actor.username), code "\n",
    code "#let title = ", .quoted (p.actor.headline.getD ""), code "\n",
    code "#let summary = "] ++ descriptionSpans parse p.actor.summary ++
  [code "\n", code "#let orcid = ", .quoted (p.actor.orcid.getD ""), code "\n",
    code "#let experiences = (\n"] ++ p.experiences.flatMap (WorkExperience.spans parse) ++
  [code ")\n", code "#let educations = (\n"] ++
    p.educations.flatMap (EducationEntry.spans parse) ++
  [code ")\n", code "#let skills = (\n"] ++
    p.skills.flatMap (fun skill => elementSpans skill.name) ++
  [code ")\n", code "#let citation_style = ", .quoted citationStyle, code "\n",
    code "#let publications = (\n"] ++
    p.publications.flatMap (ScholarlyArticle.spans citationStyle) ++
  [code ")\n", code "#let verified_links = (\n"] ++
    (p.links.filter (·.isVerified)).flatMap (fun link => elementSpans link.url) ++
  [code ")\n\n"]

end Spans

section Text

variable {parse : String → List Event} {citationStyle : String}

theorem toList_join_cons (s : String) (l : List String) :
  (String.join (s :: l)).toList = s.toList ++ (String.join l).toList
  := by
  rw [String.join_cons, String.toList_append]

theorem toList_join_nil :
  (String.join []).toList = []
  := rfl

theorem text_code (s : String) :
  (code s).text = s.toList
  := rfl

theorem text_singleton (s : String) :
  [code s].flatMap Span.text = s.toList
  := List.append_nil _

theorem text_quoted (value : String) :
  (Span.quoted value).text = (quoted value).toList
  := by
  have hquote : "\"".toList = ['"'] := rfl
  rw [quoted, String.toList_append, String.toList_append, toList_escapeTypstString, hquote]
  rfl

theorem text_descriptionSpans (md : Option String) :
  (descriptionSpans parse md).flatMap Span.text = (description parse md).toList
  := by
  cases md with
  | none => exact List.append_nil _
  | some md =>
      change ((exprChunks (parse md)).map Span.chunk).flatMap Span.text =
        (mdToTypstExpr (parse md)).toList
      rw [mdToTypstExpr_eq, textOf, List.flatMap_map]
      rfl

/-- A text without quotes and without backslashes. -/
def IsPlain (s : String) : Prop :=
  ∀ c ∈ s.toList, c ≠ '"' ∧ c ≠ '\\'

theorem IsPlain.append {s t : String} (hs : IsPlain s) (ht : IsPlain t) :
  IsPlain (s ++ t)
  := by
  intro c hc
  rw [String.toList_append] at hc
  obtain hc | hc := List.mem_append.mp hc
  · exact hs c hc
  · exact ht c hc

theorem IsPlain.escape {s : String} (h : IsPlain s) :
  escapeTypstString s = s
  := by
  apply String.toList_inj.mp
  rw [toList_escapeTypstString]
  unfold IsPlain at h
  generalize s.toList = cs at h
  induction cs with
  | nil => rfl
  | cons c cs ih =>
      obtain ⟨hquote, hbackslash⟩ := h c List.mem_cons_self
      rw [List.flatMap_cons, ih fun d hd => h d (List.mem_cons_of_mem _ hd), escapeChar,
        if_neg hbackslash, if_neg hquote]
      rfl

theorem isPlain_fourDigits (n : Nat) :
  IsPlain (fourDigits n)
  := by
  intro c hc
  have hdigit : c.isDigit = true := by
    rw [fourDigits, String.toList_ofList] at hc
    obtain hc | hc := List.mem_append.mp hc
    · rw [List.eq_of_mem_replicate hc]
      rfl
    · exact Nat.isDigit_of_mem_toDigits (by decide) (by decide) hc
  constructor
  · rintro rfl
    cases hdigit
  · rintro rfl
    cases hdigit

theorem isPlain_yearText (d : NaiveDate) :
  IsPlain d.yearText
  := by
  have hsigns : IsPlain "-" ∧ IsPlain "+" := by
    unfold IsPlain
    decide
  rw [NaiveDate.yearText]
  split
  · exact hsigns.1.append (isPlain_fourDigits _)
  · split
    · exact isPlain_fourDigits _
    · exact hsigns.2.append (isPlain_fourDigits _)

theorem isPlain_text (d : NaiveDate) :
  IsPlain d.text
  := by
  have hmonths : ∀ i : Fin 12, IsPlain (months.getD i.val "") := by
    unfold IsPlain
    decide
  have hblank : IsPlain " " := by
    unfold IsPlain
    decide
  exact ((hmonths d.month).append hblank).append (isPlain_yearText d)

/-- A date is written without quotes and without backslashes. -/
theorem escape_formatDateRange (start : NaiveDate) (stop : Option NaiveDate) :
  escapeTypstString (formatDateRange start stop) = formatDateRange start stop
  := by
  have hbetween : IsPlain " - " ∧ IsPlain "present" := by
    unfold IsPlain
    decide
  apply IsPlain.escape
  apply ((isPlain_text start).append hbetween.1).append
  cases stop with
  | none => exact hbetween.2
  | some d => exact isPlain_text d

theorem quotedDates_eq (start : NaiveDate) (stop : Option NaiveDate) :
  quotedDates start stop = quoted (formatDateRange start stop)
  := by
  rw [quoted, escape_formatDateRange, quotedDates]

theorem text_experience (exp : WorkExperience) :
  (exp.spans parse).flatMap Span.text = (exp.line parse).toList
  := by
  simp only [WorkExperience.spans, WorkExperience.line, quotedDates_eq, List.flatMap_append,
    List.flatMap_cons, List.flatMap_nil, text_code, text_quoted, text_descriptionSpans,
    toList_join_cons, toList_join_nil, List.append_assoc, List.append_nil, -String.reduceToList]

theorem text_education (edu : EducationEntry) :
  (edu.spans parse).flatMap Span.text = (edu.line parse).toList
  := by
  simp only [EducationEntry.spans, EducationEntry.line, quotedDates_eq, List.flatMap_append,
    List.flatMap_cons, List.flatMap_nil, text_code, text_quoted, text_descriptionSpans,
    toList_join_cons, toList_join_nil, List.append_assoc, List.append_nil, -String.reduceToList]

theorem text_element (value : String) :
  (elementSpans value).flatMap Span.text = (element value).toList
  := by
  simp only [elementSpans, element, List.flatMap_cons, List.flatMap_nil, text_code, text_quoted,
    toList_join_cons, toList_join_nil, -String.reduceToList]

theorem text_article (article : ScholarlyArticle) :
  (article.spans citationStyle).flatMap Span.text = (article.line citationStyle).toList
  := by
  simp only [ScholarlyArticle.spans, ScholarlyArticle.line, List.flatMap_cons, List.flatMap_nil,
    text_code, text_quoted, toList_join_cons, toList_join_nil, -String.reduceToList]

/-- Lines that are written one after the other. -/
theorem text_join {α : Type} {spans : α → List Span} {line : α → String}
    (h : ∀ a, (spans a).flatMap Span.text = (line a).toList) (l : List α) :
  (l.flatMap spans).flatMap Span.text = (String.join (l.map line)).toList
  := by
  induction l with
  | nil => rfl
  | cons a l ih =>
      rw [List.flatMap_cons, List.flatMap_append, h, ih, List.map_cons, toList_join_cons]

theorem quoted_orcid (orcid : Option String) :
  orcid.elim "\"\"" quoted = quoted (orcid.getD "")
  := by
  cases orcid with
  | none => decide
  | some orcid => rfl

/-- The source is what its spans are. -/
theorem text_source (p : Profile) :
  (p.spans parse citationStyle).flatMap Span.text = (p.source parse citationStyle).toList
  := by
  have hexperiences := text_join (@text_experience parse) p.experiences
  have heducations := text_join (@text_education parse) p.educations
  have hskills := text_join (fun skill : Skill => text_element skill.name) p.skills
  have hpublications := text_join (@text_article citationStyle) p.publications
  have hlinks := text_join (fun link : ProfileLink => text_element link.url)
    (p.links.filter (·.isVerified))
  have hprelude := text_join (fun line => text_singleton (line ++ "\n")) preludeLines
  rw [Profile.spans, Profile.source, TYPST_PRELUDE]
  simp only [hprelude, quoted_orcid, List.flatMap_append, List.flatMap_cons, List.flatMap_nil,
    text_code, text_quoted, text_descriptionSpans, hexperiences, heducations, hskills, hpublications, hlinks,
    toList_join_cons, toList_join_nil, List.append_assoc, List.append_nil, -String.reduceToList]

end Text

section Quotes

variable {parse : String → List Event} {citationStyle : String}

theorem quoteless_append {spans spans' : List Span} (h : ∀ span ∈ spans, span.quoteless = true)
    (h' : ∀ span ∈ spans', span.quoteless = true) :
  ∀ span ∈ spans ++ spans', span.quoteless = true
  := List.forall_mem_append.mpr ⟨h, h'⟩

theorem quoteless_flatMap {α : Type} {f : α → List Span} {l : List α}
    (h : ∀ a, ∀ span ∈ f a, span.quoteless = true) :
  ∀ span ∈ l.flatMap f, span.quoteless = true
  := by
  intro span hspan
  obtain ⟨a, _, hspan⟩ := List.mem_flatMap.mp hspan
  exact h a span hspan

theorem quoteless_description (md : Option String) :
  ∀ span ∈ descriptionSpans parse md, span.quoteless = true
  := by
  cases md with
  | none => exact List.all_eq_true.mp rfl
  | some md =>
      intro span hspan
      obtain ⟨chunk, hchunk, rfl⟩ := List.mem_map.mp hspan
      exact quoteless_exprChunks _ chunk hchunk

theorem quoteless_experience (exp : WorkExperience) :
  ∀ span ∈ exp.spans parse, span.quoteless = true
  := by
  apply quoteless_append (quoteless_append _ (quoteless_description _))
  · exact List.all_eq_true.mp rfl
  · exact List.all_eq_true.mp rfl

theorem quoteless_education (edu : EducationEntry) :
  ∀ span ∈ edu.spans parse, span.quoteless = true
  := by
  apply quoteless_append (quoteless_append _ (quoteless_description _))
  · exact List.all_eq_true.mp rfl
  · exact List.all_eq_true.mp rfl

theorem quoteless_element (value : String) :
  ∀ span ∈ elementSpans value, span.quoteless = true
  := List.all_eq_true.mp rfl

theorem quoteless_article (article : ScholarlyArticle) :
  ∀ span ∈ article.spans citationStyle, span.quoteless = true
  := List.all_eq_true.mp rfl

theorem quoteless_code {cs : List Char} (h : cs.all (· != '"') = true) :
  (code (String.ofList cs)).quoteless = true
  := by
  change (String.ofList cs).toList.all (· != '"') = true
  rw [String.toList_ofList, h]

theorem quoteless_prelude :
  ∀ span ∈ preludeLines.flatMap (fun line => [code (line ++ "\n")]), span.quoteless = true
  := by
  have hlines : ∀ line ∈ preludeLines, (code line).quoteless = true := by
    simp only [preludeLines, List.forall_mem_cons]
    iterate 18
      apply And.intro
      · apply quoteless_code
        rfl
    exact List.forall_mem_nil _
  intro span hspan
  obtain ⟨line, hline, hspan⟩ := List.mem_flatMap.mp hspan
  obtain rfl := List.mem_singleton.mp hspan
  change (line ++ "\n").toList.all (· != '"') = true
  rw [String.toList_append, List.all_append, Bool.and_eq_true]
  exact ⟨hlines line hline, rfl⟩

theorem quoteless_source (p : Profile) :
  ∀ span ∈ p.spans parse citationStyle, span.quoteless = true
  := by
  rw [Profile.spans]
  refine quoteless_append ?_ (List.all_eq_true.mp rfl)
  refine quoteless_append ?_ (quoteless_flatMap fun link => quoteless_element link.url)
  refine quoteless_append ?_ (List.all_eq_true.mp rfl)
  refine quoteless_append ?_ (quoteless_flatMap quoteless_article)
  refine quoteless_append ?_ (List.all_eq_true.mp rfl)
  refine quoteless_append ?_ (quoteless_flatMap fun skill => quoteless_element skill.name)
  refine quoteless_append ?_ (List.all_eq_true.mp rfl)
  refine quoteless_append ?_ (quoteless_flatMap quoteless_education)
  refine quoteless_append ?_ (List.all_eq_true.mp rfl)
  refine quoteless_append ?_ (quoteless_flatMap quoteless_experience)
  refine quoteless_append ?_ (List.all_eq_true.mp rfl)
  refine quoteless_append ?_ (quoteless_description _)
  refine quoteless_append ?_ (List.all_eq_true.mp rfl)
  exact quoteless_prelude

end Quotes

/-! ### The texts of the source -/

section Texts

variable (parse : String → List Event) (citationStyle : String)

/-- The texts that are written for a description. -/
def descriptionTexts (md : Option String) : List String :=
  (md.map fun md => (parse md).flatMap Event.written).getD []

def WorkExperience.texts (exp : WorkExperience) : List String :=
  [exp.title, exp.organization, formatDateRange exp.startDate exp.endDate] ++
    descriptionTexts parse exp.descriptionMd

def EducationEntry.texts (edu : EducationEntry) : List String :=
  [edu.institution, edu.degree.getD "", edu.fieldOfStudy.getD "",
    formatDateRange edu.startDate edu.endDate] ++ descriptionTexts parse edu.descriptionMd

/-- What a CV says of a profile, in order. -/
def Profile.texts (p : Profile) : List String :=
  [p.actor.displayName.getD p.actor.username, p.actor.headline.getD ""] ++
    descriptionTexts parse p.actor.summary ++ [p.actor.orcid.getD ""] ++
    p.experiences.flatMap (WorkExperience.texts parse) ++
    p.educations.flatMap (EducationEntry.texts parse) ++
    p.skills.map (·.name) ++ [citationStyle] ++
    p.publications.flatMap (fun article => [article.formatted citationStyle, article.doi]) ++
    (p.links.filter (·.isVerified)).map (·.url)

variable {parse citationStyle}

theorem value_code (s : String) :
  (code s).value = none
  := rfl

theorem value_quoted (value : String) :
  (Span.quoted value).value = some value
  := rfl

theorem values_description (md : Option String) :
  (descriptionSpans parse md).filterMap Span.value = descriptionTexts parse md
  := by
  cases md with
  | none => rfl
  | some md =>
      have hvalues := valuesOf_events (parse md)
      change ((exprChunks (parse md)).map Span.chunk).filterMap Span.value =
        (parse md).flatMap Event.written
      rw [List.filterMap_map, ← hvalues, valuesOf]
      congr 1
      funext chunk
      cases chunk with
      | code s => rfl
      | literal value => rfl

theorem values_prelude :
  (preludeLines.flatMap fun line => [code (line ++ "\n")].filterMap Span.value) = []
  := List.flatMap_eq_nil_iff.mpr fun _ _ => rfl

theorem values_experience (exp : WorkExperience) :
  (exp.spans parse).filterMap Span.value = exp.texts parse
  := by
  simp only [WorkExperience.spans, WorkExperience.texts, List.filterMap_append,
    List.filterMap_cons, List.filterMap_nil, values_description, value_code, value_quoted,
    List.append_nil]

theorem values_education (edu : EducationEntry) :
  (edu.spans parse).filterMap Span.value = edu.texts parse
  := by
  simp only [EducationEntry.spans, EducationEntry.texts, List.filterMap_append,
    List.filterMap_cons, List.filterMap_nil, values_description, value_code, value_quoted,
    List.append_nil]

theorem values_element (value : String) :
  (elementSpans value).filterMap Span.value = [value]
  := rfl

theorem values_article (article : ScholarlyArticle) :
  (article.spans citationStyle).filterMap Span.value =
    [article.formatted citationStyle, article.doi]
  := rfl

/-- The literals of the source are its texts. -/
theorem values_source (p : Profile) :
  (p.spans parse citationStyle).filterMap Span.value = p.texts parse citationStyle
  := by
  have hexperiences : (fun exp => (WorkExperience.spans parse exp).filterMap Span.value) =
      WorkExperience.texts parse := funext values_experience
  have heducations : (fun edu => (EducationEntry.spans parse edu).filterMap Span.value) =
      EducationEntry.texts parse := funext values_education
  rw [Profile.spans]
  simp only [Profile.texts, List.filterMap_append, List.filterMap_flatMap]
  rw [values_prelude]
  simp only [List.filterMap_cons, List.filterMap_nil, values_description, hexperiences,
    heducations, values_element, values_article, value_code, value_quoted, List.map_eq_flatMap,
    List.nil_append, List.append_nil]

end Texts

/-! ### The shape of the source -/

/-- What the code of the source depends on: which texts in Markdown there are and how they are
formatted, and how many entries of each kind. -/
structure Shape where
  summary : Option (List Event)
  experiences : List (Option (List Event))
  educations : List (Option (List Event))
  skills : Nat
  publications : Nat
  verifiedLinks : Nat

def descriptionShape (parse : String → List Event) (md : Option String) : Option (List Event) :=
  md.map fun md => (parse md).map Event.shape

def Profile.shape (parse : String → List Event) (p : Profile) : Shape where
  summary := descriptionShape parse p.actor.summary
  experiences := p.experiences.map fun exp => descriptionShape parse exp.descriptionMd
  educations := p.educations.map fun edu => descriptionShape parse edu.descriptionMd
  skills := p.skills.length
  publications := p.publications.length
  verifiedLinks := (p.links.filter (·.isVerified)).length

section Skeletons

variable {parse : String → List Event} {citationStyle : String}

/-- The code of spans, with one placeholder for every literal. -/
def skeletonOfSpans (spans : List Span) : List (Option Char) :=
  skeleton (spans.flatMap Span.pieces)

theorem skeletonOfSpans_append (spans spans' : List Span) :
  skeletonOfSpans (spans ++ spans') = skeletonOfSpans spans ++ skeletonOfSpans spans'
  := by
  simp [skeletonOfSpans, skeleton]

theorem skeletonOfSpans_flatMap {α : Type} (f : α → List Span) (l : List α) :
  skeletonOfSpans (l.flatMap f) = l.flatMap fun a => skeletonOfSpans (f a)
  := by
  induction l with
  | nil => rfl
  | cons a l ih => rw [List.flatMap_cons, skeletonOfSpans_append, ih, List.flatMap_cons]

theorem skeleton_description {md md' : Option String}
    (h : descriptionShape parse md = descriptionShape parse md') :
  skeletonOfSpans (descriptionSpans parse md) = skeletonOfSpans (descriptionSpans parse md')
  := by
  have hchunks : ∀ events, skeletonOfSpans ((exprChunks events).map Span.chunk) =
      skeletonOf (exprChunks events) := by
    intro events
    rw [skeletonOfSpans, List.flatMap_map, skeletonOf]
    rfl
  cases md with
  | none =>
      cases md' with
      | none => rfl
      | some md' => cases h
  | some md =>
      cases md' with
      | none => cases h
      | some md' =>
          have hshapes : (parse md).map Event.shape = (parse md').map Event.shape :=
            Option.some.inj h
          change skeletonOfSpans ((exprChunks (parse md)).map Span.chunk) =
            skeletonOfSpans ((exprChunks (parse md')).map Span.chunk)
          rw [hchunks, hchunks, ← skeletonOf_events, hshapes, skeletonOf_events]

/-- Lists with the same shapes have the same code. -/
theorem flatMap_congr_shape {α β γ : Type} {f : α → β} {g : α → List γ}
    (h : ∀ a a', f a = f a' → g a = g a') {l l' : List α} (hl : l.map f = l'.map f) :
  l.flatMap g = l'.flatMap g
  := by
  induction l generalizing l' with
  | nil =>
      rw [List.map_nil, eq_comm, List.map_eq_nil_iff] at hl
      rw [hl]
  | cons a l ih =>
      cases l' with
      | nil => cases hl
      | cons a' l' =>
          obtain ⟨ha, hl⟩ := List.cons.inj hl
          rw [List.flatMap_cons, List.flatMap_cons, h a a' ha, ih hl]

theorem skeleton_cons_code (s : String) (spans : List Span) :
  skeletonOfSpans (code s :: spans) = s.toList.map some ++ skeletonOfSpans spans
  := by
  have hcode : skeletonOfSpans [code s] = s.toList.map some := by
    simp [skeletonOfSpans, code, Span.pieces, Chunk.pieces, skeleton]
  rw [← hcode, ← skeletonOfSpans_append, List.singleton_append]

theorem skeleton_cons_quoted (value : String) (spans : List Span) :
  skeletonOfSpans (.quoted value :: spans) = none :: skeletonOfSpans spans
  := rfl

theorem skeleton_experience {exp exp' : WorkExperience}
    (h : descriptionShape parse exp.descriptionMd = descriptionShape parse exp'.descriptionMd) :
  skeletonOfSpans (exp.spans parse) = skeletonOfSpans (exp'.spans parse)
  := by
  simp only [WorkExperience.spans, skeletonOfSpans_append, skeleton_cons_code,
    skeleton_cons_quoted, skeleton_description h]

theorem skeleton_education {edu edu' : EducationEntry}
    (h : descriptionShape parse edu.descriptionMd = descriptionShape parse edu'.descriptionMd) :
  skeletonOfSpans (edu.spans parse) = skeletonOfSpans (edu'.spans parse)
  := by
  simp only [EducationEntry.spans, skeletonOfSpans_append, skeleton_cons_code,
    skeleton_cons_quoted, skeleton_description h]

theorem skeleton_element (value : String) :
  skeletonOfSpans (elementSpans value) = skeletonOfSpans (elementSpans "")
  := by
  simp only [elementSpans, skeleton_cons_code, skeleton_cons_quoted]

theorem skeleton_article (article article' : ScholarlyArticle) :
  skeletonOfSpans (article.spans citationStyle) = skeletonOfSpans (article'.spans citationStyle)
  := by
  simp only [ScholarlyArticle.spans, skeleton_cons_code, skeleton_cons_quoted]

/-- Lists of the same length have the same code, if all their elements have. -/
theorem flatMap_congr_length {α γ : Type} {g : α → List γ} (h : ∀ a a', g a = g a')
    {l l' : List α} (hl : l.length = l'.length) :
  l.flatMap g = l'.flatMap g
  := by
  apply @flatMap_congr_shape _ _ _ (fun _ => ()) g fun a a' _ => h a a'
  rw [List.map_const', List.map_const', hl]

/-- Profiles of one shape have the same code. -/
theorem skeleton_source {p p' : Profile} (h : p.shape parse = p'.shape parse) :
  skeletonOfSpans (p.spans parse citationStyle) = skeletonOfSpans (p'.spans parse citationStyle)
  := by
  have hsummary := skeleton_description (congrArg Shape.summary h)
  have hexperiences := flatMap_congr_shape (fun exp exp' => @skeleton_experience parse exp exp')
    (congrArg Shape.experiences h)
  have heducations := flatMap_congr_shape (fun edu edu' => @skeleton_education parse edu edu')
    (congrArg Shape.educations h)
  have hskills := flatMap_congr_length (g := fun skill : Skill =>
    skeletonOfSpans (elementSpans skill.name)) (fun skill skill' =>
      (skeleton_element skill.name).trans (skeleton_element skill'.name).symm)
    (congrArg Shape.skills h)
  have hpublications := flatMap_congr_length (@skeleton_article citationStyle)
    (congrArg Shape.publications h)
  have hlinks := flatMap_congr_length (g := fun link : ProfileLink =>
    skeletonOfSpans (elementSpans link.url)) (fun link link' =>
      (skeleton_element link.url).trans (skeleton_element link'.url).symm)
    (congrArg Shape.verifiedLinks h)
  simp only [Profile.spans, skeletonOfSpans_append, skeletonOfSpans_flatMap, skeleton_cons_code,
    skeleton_cons_quoted, hsummary, hexperiences, heducations, hskills, hpublications, hlinks]

end Skeletons

/-! ### Confinement -/

/-- A text between quotes is one literal, which ends at the second quote and denotes `s`. -/
def IsLiteralOf (body : List Char) (s : String) : Prop :=
  (∀ rest, scan none ('"' :: (body ++ '"' :: rest)) = (scan none rest).map (.literal body :: ·)) ∧
    decode body = s.toList

theorem isLiteralOf_escape (s : String) :
  IsLiteralOf (escapeTypstString s).toList s
  := by
  rw [toList_escapeTypstString]
  constructor
  · intro rest
    rw [scan, if_pos rfl, scan_escaped]
    rfl
  · exact decode_escaped s.toList

theorem isLiteralOf_pushString (s : String) :
  IsLiteralOf (s.toList.flatMap literalChar) s
  := by
  constructor
  · intro rest
    rw [scan, if_pos rfl, scan_literal]
    rfl
  · exact decode_literal s.toList

/-- The pieces of the source. -/
theorem scan_source {parse : String → List Event} {citationStyle : String} (p : Profile) :
  scan none (p.source parse citationStyle).toList =
    some ((p.spans parse citationStyle).flatMap Span.pieces)
  := by
  rw [← text_source, scan_spans (quoteless_source p)]

/-- A string that is escaped or pushed is one literal, which denotes the string.  The source of a CV
splits into code and literals; the literals denote the fields, and the code is that of all profiles
of the same shape. -/
theorem cv_confined (parse : String → List Event) (citationStyle : String) (p : Profile) :
  (∀ s, IsLiteralOf (escapeTypstString s).toList s) ∧
  (∀ s o, ∃ body, (pushString s o).out = o.out ++ String.ofList ('"' :: (body ++ ['"'])) ∧
    IsLiteralOf body s) ∧
  ∃ pieces, scan none (p.source parse citationStyle).toList = some pieces ∧
    literalsOf pieces = p.texts parse citationStyle ∧
    ∀ p' : Profile, p'.shape parse = p.shape parse →
      ∃ pieces', scan none (p'.source parse citationStyle).toList = some pieces' ∧
        skeleton pieces' = skeleton pieces
  := by
  refine ⟨isLiteralOf_escape, ?_, _, scan_source p, ?_, ?_⟩
  · intro s o
    exact ⟨_, rfl, isLiteralOf_pushString s⟩
  · rw [literalsOf_spans, values_source]
  · intro p' hshape
    exact ⟨_, scan_source p', skeleton_source hshape⟩

/-- The same code in both sources has the same code for the summary. -/
theorem skeleton_summary {parse : String → List Event} {citationStyle : String} {p : Profile}
    {actor : Actor} (h : skeletonOfSpans (({ p with actor := actor } : Profile).spans parse citationStyle) =
      skeletonOfSpans (p.spans parse citationStyle)) :
  skeletonOfSpans (descriptionSpans parse actor.summary) =
    skeletonOfSpans (descriptionSpans parse p.actor.summary)
  := by
  simp only [Profile.spans, skeletonOfSpans_append, skeleton_cons_code, skeleton_cons_quoted,
    List.append_left_inj, List.append_right_inj] at h
  exact h

/-- A profile with a summary and nothing else. -/
def summarized (summaryMd : String) : Profile where
  actor :=
    { username := "ada"
      displayName := none
      headline := none
      summaryMd := some summaryMd
      orcid := none
      isLocal := true }
  experiences := []
  educations := []
  skills := []
  publications := []
  links := []

/-- Every text is one paragraph. -/
def paragraphs (md : String) : List Event :=
  [.start .paragraph, .text md, .end .paragraph]

/-- A blank summary is code of its own. -/
theorem structure_depends_on_summary :
  ∃ pieces pieces',
    scan none ((summarized " ").source paragraphs "apa").toList = some pieces ∧
    scan none ((summarized "a").source paragraphs "apa").toList = some pieces' ∧
    skeleton pieces ≠ skeleton pieces'
  := by
  refine ⟨_, _, scan_source _, scan_source _, ?_⟩
  intro h
  have hblank : (summarized " ").actor.summary = none := by decide +kernel
  have hsummary : (summarized "a").actor.summary = some "a" := by decide +kernel
  have hcode := @skeleton_summary paragraphs "apa" (summarized "a") (summarized " ").actor h
  rw [hblank, hsummary] at hcode
  revert hcode
  decide +kernel

end Identity.Cv
