import Noombat.Markup.Typst
import Noombat.Text

/-!
# Markdown to Typst

The conversion of the events of a Markdown parser to a Typst expression.
-/

namespace Markup

inductive HeadingLevel where
  | h1
  | h2
  | h3
  | h4
  | h5
  | h6
  deriving DecidableEq, Repr

/-- The containers of Markdown, with what the conversion reads of them. -/
inductive Tag where
  | paragraph
  | heading (level : HeadingLevel)
  | blockQuote
  | codeBlock
  | htmlBlock
  | list (start : Option Nat)
  | item
  | footnoteDefinition
  | definitionList
  | definitionListTitle
  | definitionListDefinition
  | table
  | tableHead
  | tableRow
  | tableCell
  | emphasis
  | strong
  | strikethrough
  | superscript
  | subscript
  | link (destUrl : String)
  | image
  | metadataBlock
  deriving DecidableEq, Repr

inductive TagEnd where
  | paragraph
  | heading (level : HeadingLevel)
  | blockQuote
  | codeBlock
  | htmlBlock
  | list (ordered : Bool)
  | item
  | footnoteDefinition
  | definitionList
  | definitionListTitle
  | definitionListDefinition
  | table
  | tableHead
  | tableRow
  | tableCell
  | emphasis
  | strong
  | strikethrough
  | superscript
  | subscript
  | link
  | image
  | metadataBlock
  deriving DecidableEq, Repr

/-- The end of a container. -/
def Tag.toEnd : Tag → TagEnd
  | .paragraph => .paragraph
  | .heading level => .heading level
  | .blockQuote => .blockQuote
  | .codeBlock => .codeBlock
  | .htmlBlock => .htmlBlock
  | .list start => .list start.isSome
  | .item => .item
  | .footnoteDefinition => .footnoteDefinition
  | .definitionList => .definitionList
  | .definitionListTitle => .definitionListTitle
  | .definitionListDefinition => .definitionListDefinition
  | .table => .table
  | .tableHead => .tableHead
  | .tableRow => .tableRow
  | .tableCell => .tableCell
  | .emphasis => .emphasis
  | .strong => .strong
  | .strikethrough => .strikethrough
  | .superscript => .superscript
  | .subscript => .subscript
  | .link _ => .link
  | .image => .image
  | .metadataBlock => .metadataBlock

inductive Event where
  | start (tag : Tag)
  | «end» (tag : TagEnd)
  | text (text : String)
  | code (code : String)
  | inlineMath (math : String)
  | displayMath (math : String)
  | html (html : String)
  | inlineHtml (html : String)
  | footnoteReference (label : String)
  | softBreak
  | hardBreak
  | rule
  | taskListMarker (checked : Bool)
  deriving DecidableEq, Repr

inductive ListKind where
  | ordered
  | unordered
  deriving DecidableEq, Repr

/-- What the conversion has written, and the lists that it is in. -/
structure Output where
  out : String
  listStack : List ListKind

def Output.pushStr (s : String) (o : Output) : Output :=
  { o with out := o.out ++ s }

/-! ### Literals -/

/-- Whether a character is in the Unicode category `Cc`. -/
def isControl (c : Char) : Bool :=
  c.toNat < 0x20 || (0x7F ≤ c.toNat && c.toNat < 0xA0)

/-- A character in a string literal. -/
def literalChar (c : Char) : List Char :=
  if c = '\\' then ['\\', '\\']
  else if c = '"' then ['\\', '"']
  else if c = '\n' then ['\\', 'n']
  else if c = '\r' then ['\\', 'r']
  else if c = '\t' then ['\\', 't']
  else if isControl c then '\\' :: 'u' :: '\x7b' :: Nat.toDigits 16 c.toNat ++ ['\x7d']
  else [c]

/-- A value as a string literal. -/
def literal (value : String) : String :=
  String.ofList ('"' :: value.toList.flatMap literalChar ++ ['"'])

def pushString (value : String) (o : Output) : Output :=
  o.pushStr (literal value)

def pushCall (name value : String) (o : Output) : Output :=
  (pushString value ((o.pushStr name).pushStr "(")).pushStr "),"

def pushMath (body : String) (display : Bool) (o : Output) : Output :=
  let delimiter := if display then "$$" else "$"
  pushCall "nb-text" (delimiter ++ body ++ delimiter) o

def allowedSchemes : List String :=
  ["https://", "http://", "mailto:"]

/-- The URL without the whitespace around it, if its scheme is allowed. -/
def safeUrl (url : String) : Option String :=
  let lowered := Text.toAsciiLowercase (Text.trim url)
  if allowedSchemes.any (Text.startsWith lowered) then some (Text.trim url) else none

/-! ### Containers -/

def HeadingLevel.digit : HeadingLevel → String
  | .h1 => "1"
  | .h2 => "2"
  | .h3 => "3"
  | .h4 => "4"
  | .h5 => "5"
  | .h6 => "6"

/-- Open a link, or a sequence in its place if the scheme of the URL is not allowed. -/
def pushLink (destUrl : String) (o : Output) : Output :=
  (safeUrl destUrl).elim (o.pushStr "nb-seq((") fun url =>
    (pushString url (o.pushStr "nb-link(")).pushStr ", ("

/-- Open a container.  One that has no form of its own is a sequence. -/
def pushStart (tag : Tag) (o : Output) : Output :=
  match tag with
  | .paragraph => o.pushStr "nb-par(("
  | .heading level => o.pushStr ("nb-heading(" ++ level.digit ++ ", (")
  | .emphasis => o.pushStr "nb-emph(("
  | .strong => o.pushStr "nb-strong(("
  | .strikethrough => o.pushStr "nb-strike(("
  | .blockQuote => o.pushStr "nb-quote(("
  | .list (some _) => { o with listStack := .ordered :: o.listStack }.pushStr "nb-enum(("
  | .list none => { o with listStack := .unordered :: o.listStack }.pushStr "nb-list(("
  | .item => o.pushStr "nb-item(("
  | .link destUrl => pushLink destUrl o
  | _ => o.pushStr "nb-seq(("

/-- Close a container. -/
def pushEnd (tag : TagEnd) (o : Output) : Output :=
  match tag with
  | .list _ => { o with listStack := o.listStack.tail }.pushStr ")),"
  | _ => o.pushStr ")),"

def pushEvent (o : Output) : Event → Output
  | .start tag => pushStart tag o
  | .end tag => pushEnd tag o
  | .text text => pushCall "nb-text" text o
  | .code code => pushCall "nb-raw" code o
  | .inlineMath math => pushMath math false o
  | .displayMath math => pushMath math true o
  | .softBreak => pushCall "nb-text" " " o
  | .hardBreak => o.pushStr "nb-break(),"
  | .rule => o.pushStr "nb-rule(),"
  | .html _ | .inlineHtml _ | .footnoteReference _ | .taskListMarker _ => o

/-- The Typst expression for the events that the parser emits for a source. -/
def mdToTypstExpr (events : List Event) : String :=
  (events.foldl pushEvent ⟨"nb-doc((", []⟩).out ++ "))"

/-! ### What is written -/

/-- A part of what is written: code, or a literal of a value. -/
inductive Chunk where
  | code (s : String)
  | literal (value : String)
  deriving DecidableEq, Repr

def Chunk.text : Chunk → String
  | .code s => s
  | .literal value => Markup.literal value

/-- What is written for some parts. -/
def textOf (chunks : List Chunk) : List Char :=
  chunks.flatMap fun chunk => chunk.text.toList

/-- The call of a function on a value. -/
def callChunks (name value : String) : List Chunk :=
  [.code (name ++ "("), .literal value, .code "),"]

/-- The form that a container has. -/
inductive Form where
  | par
  | heading (level : HeadingLevel)
  | emph
  | strong
  | strike
  | quote
  | enum
  | list
  | item
  | link (url : String)
  | seq
  deriving DecidableEq, Repr

def Form.chunks : Form → List Chunk
  | .par => [.code "nb-par(("]
  | .heading level => [.code ("nb-heading(" ++ level.digit ++ ", (")]
  | .emph => [.code "nb-emph(("]
  | .strong => [.code "nb-strong(("]
  | .strike => [.code "nb-strike(("]
  | .quote => [.code "nb-quote(("]
  | .enum => [.code "nb-enum(("]
  | .list => [.code "nb-list(("]
  | .item => [.code "nb-item(("]
  | .link url => [.code "nb-link(", .literal url, .code ", ("]
  | .seq => [.code "nb-seq(("]

def linkForm (destUrl : String) : Form :=
  (safeUrl destUrl).elim .seq .link

def Tag.form : Tag → Form
  | .paragraph => .par
  | .heading level => .heading level
  | .emphasis => .emph
  | .strong => .strong
  | .strikethrough => .strike
  | .blockQuote => .quote
  | .list (some _) => .enum
  | .list none => .list
  | .item => .item
  | .link destUrl => linkForm destUrl
  | _ => .seq

/-- The parts that are written for an event. -/
def Event.chunks : Event → List Chunk
  | .start tag => tag.form.chunks
  | .end _ => [.code ")),"]
  | .text value => callChunks "nb-text" value
  | .code value => callChunks "nb-raw" value
  | .inlineMath math => callChunks "nb-text" ("$" ++ math ++ "$")
  | .displayMath math => callChunks "nb-text" ("$$" ++ math ++ "$$")
  | .softBreak => callChunks "nb-text" " "
  | .hardBreak => [.code "nb-break(),"]
  | .rule => [.code "nb-rule(),"]
  | .html _ | .inlineHtml _ | .footnoteReference _ | .taskListMarker _ => []

theorem textOf_append (chunks chunks' : List Chunk) :
  textOf (chunks ++ chunks') = textOf chunks ++ textOf chunks'
  := List.flatMap_append

theorem textOf_cons (chunk : Chunk) (chunks : List Chunk) :
  textOf (chunk :: chunks) = chunk.text.toList ++ textOf chunks
  := rfl

theorem pushStr_out (s : String) (o : Output) :
  (o.pushStr s).out.toList = o.out.toList ++ textOf [.code s]
  := by
  rw [Output.pushStr, String.toList_append, textOf_cons]
  exact congrArg _ (List.append_nil _).symm

theorem pushString_out (value : String) (o : Output) :
  (pushString value o).out.toList = o.out.toList ++ textOf [.literal value]
  := pushStr_out (literal value) o

theorem pushCall_out (name value : String) (o : Output) :
  (pushCall name value o).out.toList = o.out.toList ++ textOf (callChunks name value)
  := by
  have hname : textOf [.code (name ++ "(")] = textOf [.code name] ++ textOf [.code "("] := by
    simp only [textOf_cons, Chunk.text, String.toList_append, List.append_assoc]
    rfl
  have hchunks : callChunks name value =
      [.code (name ++ "(")] ++ ([.literal value] ++ [.code "),"]) := rfl
  rw [pushCall, pushStr_out, pushString_out, pushStr_out, pushStr_out, hchunks, textOf_append,
    textOf_append, hname]
  simp only [List.append_assoc]

theorem pushLink_out (destUrl : String) (o : Output) :
  (pushLink destUrl o).out.toList = o.out.toList ++ textOf (linkForm destUrl).chunks
  := by
  rw [pushLink, linkForm]
  cases safeUrl destUrl with
  | none => exact pushStr_out "nb-seq((" o
  | some url =>
      have hchunks : (Form.link url).chunks =
          [.code "nb-link("] ++ ([.literal url] ++ [.code ", ("]) := rfl
      simp only [Option.elim_some, hchunks, textOf_append]
      rw [pushStr_out, pushString_out, pushStr_out, List.append_assoc, List.append_assoc]

theorem pushStart_out (tag : Tag) (o : Output) :
  (pushStart tag o).out.toList = o.out.toList ++ textOf tag.form.chunks
  := by
  cases tag with
  | list start =>
      cases start with
      | none => exact pushStr_out "nb-list((" o
      | some number => exact pushStr_out "nb-enum((" o
  | link destUrl => exact pushLink_out destUrl o
  | _ => exact pushStr_out _ o

theorem pushEvent_out (o : Output) (event : Event) :
  (pushEvent o event).out.toList = o.out.toList ++ textOf event.chunks
  := by
  cases event with
  | start tag => exact pushStart_out tag o
  | «end» tag => cases tag <;> exact pushStr_out "))," _
  | text text => exact pushCall_out "nb-text" text o
  | code code => exact pushCall_out "nb-raw" code o
  | inlineMath math => exact pushCall_out "nb-text" _ o
  | displayMath math => exact pushCall_out "nb-text" _ o
  | softBreak => exact pushCall_out "nb-text" " " o
  | hardBreak => exact pushStr_out "nb-break()," o
  | rule => exact pushStr_out "nb-rule()," o
  | _ => exact (List.append_nil _).symm

/-- The parts that are written for the events of a source. -/
def exprChunks (events : List Event) : List Chunk :=
  .code "nb-doc((" :: events.flatMap Event.chunks ++ [.code "))"]

/-- The expression consists of the parts that are written for the events. -/
theorem mdToTypstExpr_eq (events : List Event) :
  (mdToTypstExpr events).toList = textOf (exprChunks events)
  := by
  have hevents : ∀ o : Output, (events.foldl pushEvent o).out.toList =
      o.out.toList ++ textOf (events.flatMap Event.chunks) := by
    induction events with
    | nil =>
        intro o
        simp [textOf]
    | cons event events ih =>
        intro o
        rw [List.foldl_cons, ih, pushEvent_out, List.flatMap_cons, textOf_append, List.append_assoc]
  have hopener : (Output.mk "nb-doc((" []).out.toList = textOf [.code "nb-doc(("] :=
    (List.append_nil _).symm
  have hchunks : exprChunks events =
      [.code "nb-doc(("] ++ (events.flatMap Event.chunks ++ [.code "))"]) := rfl
  change ((events.foldl pushEvent ⟨"nb-doc((", []⟩).pushStr "))").out.toList = _
  rw [pushStr_out, hevents, hopener, hchunks, textOf_append, textOf_append, List.append_assoc]

end Markup
