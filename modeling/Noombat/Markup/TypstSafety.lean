import Noombat.Markup.TypstConv

/-!
# No text reaches the code

The code of a converted source is an expression of calls that depends on the shape of the
source only, and its string literals denote the texts of the source.
-/

namespace Markup

open Typst

/-! ### Literals -/

/-- The control characters in hexadecimal digits. -/
theorem charOfHex_toDigits :
  ∀ n < 160, (Nat.toDigits 16 n).all isHexDigit = true ∧
    charOfHex (Nat.toDigits 16 n) = some (Char.ofNat n)
  := by
  decide +kernel

/-- In a literal a character is escaped, or numbered, or stands for itself and neither ends
the literal nor escapes. -/
theorem literalChar_cases (c : Char) :
  (∃ d, literalChar c = ['\\', d] ∧ unescape d = some c) ∨
  (∃ digits, literalChar c = '\\' :: 'u' :: '\x7b' :: digits ++ ['\x7d'] ∧
    digits.all isHexDigit = true ∧ charOfHex digits = some c) ∨
  (literalChar c = [c] ∧ c ≠ '"' ∧ c ≠ '\\')
  := by
  rw [literalChar]
  split
  next h => exact .inl ⟨'\\', rfl, by rw [h]; decide⟩
  next hbackslash =>
    split
    next h => exact .inl ⟨'"', rfl, by rw [h]; decide⟩
    next hquote =>
      split
      next h => exact .inl ⟨'n', rfl, by rw [h]; decide⟩
      next =>
        split
        next h => exact .inl ⟨'r', rfl, by rw [h]; decide⟩
        next =>
          split
          next h => exact .inl ⟨'t', rfl, by rw [h]; decide⟩
          next =>
            split
            next hcontrol =>
              have hlt : c.toNat < 160 := by
                simp only [isControl, Bool.or_eq_true, Bool.and_eq_true, decide_eq_true_eq]
                  at hcontrol
                omega
              obtain ⟨hdigits, hchar⟩ := charOfHex_toDigits c.toNat hlt
              rw [Char.ofNat_toNat] at hchar
              exact .inr (.inl ⟨Nat.toDigits 16 c.toNat, rfl, hdigits, hchar⟩)
            next => exact .inr (.inr ⟨rfl, hquote, hbackslash⟩)

/-- No hexadecimal digit ends a literal or escapes. -/
theorem plain_of_isHexDigit {c : Char} (h : isHexDigit c = true) :
  c ≠ '"' ∧ c ≠ '\\'
  := by
  constructor
  · rintro rfl
    revert h
    decide
  · rintro rfl
    revert h
    decide

/-- A character is read within a literal. -/
theorem scan_literalChar (c : Char) (raw rest : List Char) :
  scan (some (false, raw)) (literalChar c ++ rest) =
    scan (some (false, (literalChar c).reverse ++ raw)) rest
  := by
  obtain ⟨d, hc, _⟩ | ⟨digits, hc, hdigits, _⟩ | ⟨hc, hquote, hbackslash⟩ := literalChar_cases c
  · rw [hc]
    exact scan_escape d raw rest
  · have hplain : ∀ d ∈ '\x7b' :: digits ++ ['\x7d'], d ≠ '"' ∧ d ≠ '\\' := by
      intro d hd
      simp only [List.cons_append, List.mem_cons, List.mem_append, List.not_mem_nil, or_false]
        at hd
      obtain rfl | hd | rfl := hd
      · decide
      · exact plain_of_isHexDigit (List.all_eq_true.mp hdigits d hd)
      · decide
    have hread := scan_plain hplain ('u' :: '\\' :: raw) rest
    rw [hc]
    simp only [List.cons_append] at hread ⊢
    rw [scan_escape, hread]
    simp
  · rw [hc]
    apply scan_plain
    intro d hd
    obtain rfl := List.mem_singleton.mp hd
    exact ⟨hquote, hbackslash⟩

/-- A literal is read up to its end. -/
theorem scan_literal (value raw rest : List Char) :
  scan (some (false, raw)) (value.flatMap literalChar ++ '"' :: rest) =
    (scan none rest).map (.literal (raw.reverse ++ value.flatMap literalChar) :: ·)
  := by
  induction value generalizing raw with
  | nil => simp [scan]
  | cons c value ih =>
      rw [List.flatMap_cons, List.append_assoc, scan_literalChar, ih]
      simp

/-- A literal denotes the value that it is of. -/
theorem decode_literal (value : List Char) :
  decode (value.flatMap literalChar) = value
  := by
  induction value with
  | nil => simp [decode]
  | cons c value ih =>
      rw [List.flatMap_cons]
      obtain ⟨d, hc, hescape⟩ | ⟨digits, hc, hdigits, hchar⟩ | ⟨hc, _, hbackslash⟩ :=
        literalChar_cases c
      · rw [hc]
        exact (decode_escape hescape _).trans (congrArg _ ih)
      · have hread := decode_hex hdigits hchar (value.flatMap literalChar)
        rw [hc, List.append_assoc]
        exact hread.trans (congrArg _ ih)
      · rw [hc]
        exact (decode_of_ne hbackslash _).trans (congrArg _ ih)

/-! ### Parts -/

/-- The pieces of a part. -/
def Chunk.pieces : Chunk → List Piece
  | .code s => s.toList.map .code
  | .literal value => [.literal (value.toList.flatMap literalChar)]

/-- Whether a part has no quotes in its code. -/
def Chunk.quoteless : Chunk → Bool
  | .code s => s.toList.all (· != '"')
  | .literal _ => true

/-- Parts without quotes in their code are read as they are. -/
theorem scan_textOf {chunks : List Chunk} (h : ∀ chunk ∈ chunks, chunk.quoteless = true) :
  scan none (textOf chunks) = some (chunks.flatMap Chunk.pieces)
  := by
  induction chunks with
  | nil => rfl
  | cons chunk chunks ih =>
      have hchunk := h chunk List.mem_cons_self
      have hrest := ih fun chunk hmem => h chunk (List.mem_cons_of_mem _ hmem)
      rw [textOf_cons, List.flatMap_cons]
      cases chunk with
      | code s =>
          have hcode : ∀ c ∈ s.toList, c ≠ '"' :=
            fun c hc => bne_iff_ne.mp (List.all_eq_true.mp hchunk c hc)
          rw [Chunk.text, scan_code hcode, hrest]
          rfl
      | literal value =>
          have htext : (Chunk.literal value).text.toList ++ textOf chunks =
              '"' :: (value.toList.flatMap literalChar ++ '"' :: textOf chunks) := by
            simp [Chunk.text, literal]
          rw [htext, scan, if_pos rfl, scan_literal, hrest]
          rfl

theorem quoteless_form (form : Form) :
  ∀ chunk ∈ form.chunks, chunk.quoteless = true
  := by
  apply List.all_eq_true.mp
  cases form with
  | heading level => cases level <;> decide
  | _ => rfl

theorem quoteless_event (event : Event) :
  ∀ chunk ∈ event.chunks, chunk.quoteless = true
  := by
  cases event with
  | start tag => exact quoteless_form tag.form
  | _ => exact List.all_eq_true.mp rfl

theorem quoteless_exprChunks (events : List Event) :
  ∀ chunk ∈ exprChunks events, chunk.quoteless = true
  := by
  intro chunk hchunk
  simp only [exprChunks, List.cons_append, List.mem_cons, List.mem_append, List.mem_flatMap,
    List.not_mem_nil, or_false] at hchunk
  obtain rfl | ⟨event, _, hchunk⟩ | rfl := hchunk
  · decide
  · exact quoteless_event event chunk hchunk
  · decide

/-- The pieces of the expression for some events. -/
theorem scan_mdToTypstExpr (events : List Event) :
  scan none (mdToTypstExpr events).toList = some ((exprChunks events).flatMap Chunk.pieces)
  := by
  rw [mdToTypstExpr_eq, scan_textOf (quoteless_exprChunks events)]

/-! ### The shape of the code -/

/-- The code of some pieces, with one placeholder for every literal. -/
def skeleton (pieces : List Piece) : List (Option Char) :=
  pieces.map fun piece =>
    match piece with
    | .code c => some c
    | .literal _ => none

/-- An event without its texts.  Of a URL there is left whether it is admitted. -/
def Event.shape : Event → Event
  | .start (.link destUrl) =>
      .start (.link (if (safeUrl destUrl).isSome then "https://" else ""))
  | .start (.list number) => .start (.list (number.map fun _ => 1))
  | .text _ => .text ""
  | .code _ => .code ""
  | .inlineMath _ => .inlineMath ""
  | .displayMath _ => .displayMath ""
  | .html _ => .html ""
  | .inlineHtml _ => .inlineHtml ""
  | .footnoteReference _ => .footnoteReference ""
  | event => event

def skeletonOf (chunks : List Chunk) : List (Option Char) :=
  skeleton (chunks.flatMap Chunk.pieces)

theorem skeletonOf_append (chunks chunks' : List Chunk) :
  skeletonOf (chunks ++ chunks') = skeletonOf chunks ++ skeletonOf chunks'
  := by
  simp [skeletonOf, skeleton]

/-- What is written for an event has the code that its shape has. -/
theorem skeletonOf_shape (event : Event) :
  skeletonOf event.shape.chunks = skeletonOf event.chunks
  := by
  cases event with
  | start tag =>
      cases tag with
      | link destUrl =>
          have hadmitted : (linkForm "https://") = .link "https://" := by decide
          have hrejected : (linkForm "") = .seq := by decide
          cases hurl : safeUrl destUrl with
          | none =>
              have hform : linkForm destUrl = .seq := by rw [linkForm, hurl, Option.elim_none]
              simp only [Event.shape, hurl, Option.isSome_none, Event.chunks, Tag.form, hform]
              exact congrArg (fun form => skeletonOf form.chunks) hrejected
          | some url =>
              have hform : linkForm destUrl = .link url := by
                rw [linkForm, hurl, Option.elim_some]
              simp only [Event.shape, hurl, Option.isSome_some, if_true, Event.chunks, Tag.form,
                hform, hadmitted]
              rfl
      | list start => cases start <;> rfl
      | _ => rfl
  | _ => rfl

theorem skeletonOf_events (events : List Event) :
  skeletonOf (exprChunks (events.map Event.shape)) = skeletonOf (exprChunks events)
  := by
  have hevents : skeletonOf ((events.map Event.shape).flatMap Event.chunks) =
      skeletonOf (events.flatMap Event.chunks) := by
    induction events with
    | nil => rfl
    | cons event events ih =>
        rw [List.map_cons, List.flatMap_cons, List.flatMap_cons, skeletonOf_append,
          skeletonOf_append, skeletonOf_shape, ih]
  have hsplit (es : List Event) : exprChunks es =
      [.code "nb-doc(("] ++ (es.flatMap Event.chunks ++ [.code "))"]) := rfl
  rw [hsplit, hsplit, skeletonOf_append, skeletonOf_append, skeletonOf_append, skeletonOf_append,
    hevents]

/-! ### Nesting -/

def Event.isTag : Event → Bool
  | .start _ | .end _ => true
  | _ => false

/-- Every container that is opened is closed, after those that are opened in it. -/
inductive WellNested : List Event → Prop
  | nil : WellNested []
  | single {event : Event} {events : List Event} : event.isTag = false → WellNested events →
      WellNested (event :: events)
  | container (tag : Tag) {inner events : List Event} : WellNested inner → WellNested events →
      WellNested (.start tag :: inner ++ .end tag.toEnd :: events)

/-- How deep in parentheses some code ends, if it closes none that is not open. -/
def depthAfter : Nat → List (Option Char) → Option Nat
  | n, [] => some n
  | n, some '(' :: code => depthAfter (n + 1) code
  | 0, some ')' :: _ => none
  | n + 1, some ')' :: code => depthAfter n code
  | n, _ :: code => depthAfter n code

/-- The opening of a container opens two parentheses. -/
theorem depthAfter_form (form : Form) (n : Nat) (code : List (Option Char)) :
  depthAfter n (skeletonOf form.chunks ++ code) = depthAfter (n + 2) code
  := by
  cases form with
  | heading level => cases level <;> rfl
  | _ => rfl

theorem depthAfter_single {event : Event} (h : event.isTag = false) (n : Nat)
    (code : List (Option Char)) :
  depthAfter n (skeletonOf event.chunks ++ code) = depthAfter n code
  := by
  cases event with
  | start tag => cases h
  | «end» tag => cases h
  | _ => rfl

/-- The code that is written for well-nested events is balanced. -/
theorem WellNested.depthAfter {events : List Event} (h : WellNested events) (n : Nat)
    (code : List (Option Char)) :
  depthAfter n (skeletonOf (events.flatMap Event.chunks) ++ code) = Markup.depthAfter n code
  := by
  induction h generalizing n code with
  | nil => rfl
  | single hsingle _ ih =>
      rw [List.flatMap_cons, skeletonOf_append, List.append_assoc, depthAfter_single hsingle, ih]
  | container tag _ _ ihInner ihRest =>
      have hchunks : (Event.start tag).chunks = tag.form.chunks := rfl
      have hclose (code : List (Option Char)) :
          Markup.depthAfter (n + 2) (skeletonOf (Event.end tag.toEnd).chunks ++ code) =
            Markup.depthAfter n code := rfl
      rw [List.cons_append, List.flatMap_cons, List.flatMap_append, List.flatMap_cons,
        skeletonOf_append, skeletonOf_append, skeletonOf_append, List.append_assoc,
        List.append_assoc, List.append_assoc, hchunks, depthAfter_form, ihInner, hclose, ihRest]

/-! ### The grammar of the calls -/

/-- An expression of calls of the functions of the prelude. -/
inductive Expr where
  | text (value : String)
  | raw (value : String)
  | lineBreak
  | rule
  | container (form : Form) (parts : List Expr)

mutual

/-- How an expression is written. -/
def Expr.chunks : Expr → List Chunk
  | .text value => callChunks "nb-text" value
  | .raw value => callChunks "nb-raw" value
  | .lineBreak => [.code "nb-break(),"]
  | .rule => [.code "nb-rule(),"]
  | .container form parts => form.chunks ++ partsChunks parts ++ [.code ")),"]

/-- How the elements of an array are written. -/
def partsChunks : List Expr → List Chunk
  | [] => []
  | part :: parts => part.chunks ++ partsChunks parts

end

/-- How a document is written. -/
def docChunks (blocks : List Expr) : List Chunk :=
  .code "nb-doc((" :: partsChunks blocks ++ [.code "))"]

/-- What is written for well-nested events are the elements of an array. -/
theorem WellNested.parts {events : List Event} (h : WellNested events) :
  ∃ parts, events.flatMap Event.chunks = partsChunks parts
  := by
  induction h with
  | nil => exact ⟨[], rfl⟩
  | @single event events hsingle _ ih =>
      obtain ⟨parts, hparts⟩ := ih
      rw [List.flatMap_cons, hparts]
      cases event with
      | start tag => cases hsingle
      | «end» tag => cases hsingle
      | text value => exact ⟨.text value :: parts, rfl⟩
      | code value => exact ⟨.raw value :: parts, rfl⟩
      | inlineMath math => exact ⟨.text ("$" ++ math ++ "$") :: parts, rfl⟩
      | displayMath math => exact ⟨.text ("$$" ++ math ++ "$$") :: parts, rfl⟩
      | softBreak => exact ⟨.text " " :: parts, rfl⟩
      | hardBreak => exact ⟨.lineBreak :: parts, rfl⟩
      | rule => exact ⟨.rule :: parts, rfl⟩
      | _ => exact ⟨parts, rfl⟩
  | container tag _ _ ihInner ihRest =>
      obtain ⟨inner, hinner⟩ := ihInner
      obtain ⟨parts, hparts⟩ := ihRest
      use .container tag.form inner :: parts
      rw [List.cons_append, List.flatMap_cons, List.flatMap_append, List.flatMap_cons, hinner,
        hparts, partsChunks, Expr.chunks]
      simp only [List.append_assoc]
      rfl

/-! ### The texts -/

/-- What the literals of some pieces denote, in order. -/
def literalsOf (pieces : List Piece) : List String :=
  pieces.filterMap fun piece =>
    match piece with
    | .code _ => none
    | .literal raw => some (String.ofList (decode raw))

/-- The texts that are written for an event: a fragment of mathematics is between its
delimiters, a soft break is a space, and a URL is written if it is admitted. -/
def Event.written : Event → List String
  | .start (.link destUrl) => (safeUrl destUrl).toList
  | .text value => [value]
  | .code value => [value]
  | .inlineMath math => ["$" ++ math ++ "$"]
  | .displayMath math => ["$$" ++ math ++ "$$"]
  | .softBreak => [" "]
  | _ => []

/-- The texts of an event, and the URL if it is admitted. -/
def Event.userText : Event → List String
  | .start (.link destUrl) => (safeUrl destUrl).toList
  | .text value | .code value | .inlineMath value | .displayMath value => [value]
  | .html value | .inlineHtml value => [value]
  | _ => []

theorem literalsOf_append (pieces pieces' : List Piece) :
  literalsOf (pieces ++ pieces') = literalsOf pieces ++ literalsOf pieces'
  := List.filterMap_append

theorem literalsOf_code (s : String) :
  literalsOf (Chunk.code s).pieces = []
  := by
  rw [literalsOf, Chunk.pieces, List.filterMap_map]
  exact List.filterMap_none _

theorem literalsOf_literal (value : String) :
  literalsOf (Chunk.literal value).pieces = [value]
  := by
  simp [literalsOf, Chunk.pieces, decode_literal]

/-- The values of the literals among some parts. -/
def valuesOf (chunks : List Chunk) : List String :=
  chunks.filterMap fun chunk =>
    match chunk with
    | .code _ => none
    | .literal value => some value

/-- The literals of some parts denote their values. -/
theorem literalsOf_chunks (chunks : List Chunk) :
  literalsOf (chunks.flatMap Chunk.pieces) = valuesOf chunks
  := by
  induction chunks with
  | nil => rfl
  | cons chunk chunks ih =>
      rw [List.flatMap_cons, literalsOf_append, ih]
      cases chunk with
      | code s =>
          rw [literalsOf_code]
          rfl
      | literal value =>
          rw [literalsOf_literal]
          rfl

theorem valuesOf_event (event : Event) :
  valuesOf event.chunks = event.written
  := by
  cases event with
  | start tag =>
      cases tag with
      | link destUrl =>
          have hform : (Event.start (.link destUrl)).chunks = (linkForm destUrl).chunks := rfl
          have hwritten : (Event.start (.link destUrl)).written = (safeUrl destUrl).toList := rfl
          rw [hform, hwritten, linkForm]
          cases safeUrl destUrl with
          | none => rfl
          | some url => rfl
      | list number => cases number <;> rfl
      | _ => rfl
  | _ => rfl

theorem valuesOf_events (events : List Event) :
  valuesOf (exprChunks events) = events.flatMap Event.written
  := by
  have hevents : valuesOf (events.flatMap Event.chunks) = events.flatMap Event.written := by
    induction events with
    | nil => rfl
    | cons event events ih =>
        rw [List.flatMap_cons, List.flatMap_cons, ← ih, ← valuesOf_event]
        exact List.filterMap_append
  have hsplit : exprChunks events =
      [.code "nb-doc(("] ++ (events.flatMap Event.chunks ++ [.code "))"]) := rfl
  rw [← hevents, hsplit, valuesOf, List.filterMap_append, List.filterMap_append]
  exact List.append_nil _

/-! ### Safety -/

/-- The expression for well-nested events splits into code and literals.  The code, with
placeholders for the literals, is that of all events of the same shape, and is balanced; the
expression is a document of calls; and the literals denote the texts, in order. -/
theorem typst_injection_safe (events : List Event) (h : WellNested events) :
  ∃ pieces, scan none (mdToTypstExpr events).toList = some pieces ∧
    (∀ events' : List Event, events'.map Event.shape = events.map Event.shape →
      ∃ pieces', scan none (mdToTypstExpr events').toList = some pieces' ∧
        skeleton pieces' = skeleton pieces) ∧
    depthAfter 0 (skeleton pieces) = some 0 ∧
    (∃ blocks, (mdToTypstExpr events).toList = textOf (docChunks blocks)) ∧
    literalsOf pieces = events.flatMap Event.written
  := by
  refine ⟨_, scan_mdToTypstExpr events, ?_, ?_, ?_, ?_⟩
  · intro events' hshape
    refine ⟨_, scan_mdToTypstExpr events', ?_⟩
    change skeletonOf (exprChunks events') = skeletonOf (exprChunks events)
    rw [← skeletonOf_events events', hshape, skeletonOf_events]
  · have hsplit : exprChunks events =
        [.code "nb-doc(("] ++ (events.flatMap Event.chunks ++ [.code "))"]) := rfl
    have hopen (code : List (Option Char)) :
        depthAfter 0 (skeletonOf [.code "nb-doc(("] ++ code) = depthAfter 2 code := rfl
    change depthAfter 0 (skeletonOf (exprChunks events)) = some 0
    rw [hsplit, skeletonOf_append, skeletonOf_append, hopen, h.depthAfter]
    rfl
  · obtain ⟨blocks, hblocks⟩ := h.parts
    use blocks
    rw [mdToTypstExpr_eq, exprChunks, docChunks, hblocks]
  · rw [literalsOf_chunks, valuesOf_events]

/-- A hostile link in a heading. -/
theorem typst_injection_safe_link :
  ∃ pieces, scan none (mdToTypstExpr [.start (.heading .h2),
      .start (.link " https://x\"+panic(\"y"), .text "\\\")); #panic(", .end .link,
      .end (.heading .h2)]).toList = some pieces ∧
    literalsOf pieces = ["https://x\"+panic(\"y", "\\\")); #panic("]
  := by
  have hnested : WellNested ([.start (.heading .h2), .start (.link " https://x\"+panic(\"y"),
      .text "\\\")); #panic(", .end .link, .end (.heading .h2)] : List Event) :=
    .container (.heading .h2) (.container (.link " https://x\"+panic(\"y") (.single rfl .nil) .nil)
      .nil
  obtain ⟨pieces, hpieces, _, _, _, hliterals⟩ := typst_injection_safe _ hnested
  refine ⟨pieces, hpieces, hliterals.trans ?_⟩
  decide +kernel

/-- HTML is a text of the source that is not written. -/
theorem html_not_written :
  WellNested [.inlineHtml "<b>"] ∧
  ∃ pieces, scan none (mdToTypstExpr [.inlineHtml "<b>"]).toList = some pieces ∧
    literalsOf pieces ≠ [Event.inlineHtml "<b>"].flatMap Event.userText
  := by
  constructor
  · exact .single rfl .nil
  · refine ⟨_, scan_mdToTypstExpr _, ?_⟩
    rw [literalsOf_chunks, valuesOf_events]
    decide

end Markup
