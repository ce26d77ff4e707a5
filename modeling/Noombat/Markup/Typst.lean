import Mathlib.Data.List.Basic

/-!
# Typst code

How Typst reads the string literals of code: where they begin and end, and what they denote.
-/

namespace Typst

/-- A piece of code: a character outside the string literals, or what stands between the
quotes of a literal. -/
inductive Piece where
  | code (c : Char)
  | literal (raw : List Char)
  deriving DecidableEq, Repr

/-- The pieces of code, from outside a literal or, given whether the last character escapes
the next and what there is of the literal in reverse, from within.  There are none if a
literal does not end. -/
def scan : Option (Bool × List Char) → List Char → Option (List Piece)
  | none, [] => some []
  | some _, [] => none
  | none, c :: cs =>
      if c = '"' then scan (some (false, [])) cs else (scan none cs).map (.code c :: ·)
  | some (escaped, raw), c :: cs =>
      if c = '"' ∧ escaped = false then (scan none cs).map (.literal raw.reverse :: ·)
      else scan (some (decide (c = '\\' ∧ escaped = false), c :: raw)) cs

/-- What a character denotes after a backslash. -/
def unescape (c : Char) : Option Char :=
  if c = '\\' then some '\\'
  else if c = '"' then some '"'
  else if c = 'n' then some '\n'
  else if c = 'r' then some '\r'
  else if c = 't' then some '\t'
  else none

def isHexDigit (c : Char) : Bool :=
  c.isDigit || ('a' ≤ c && c ≤ 'f') || ('A' ≤ c && c ≤ 'F')

def hexValue (c : Char) : Nat :=
  if c.isDigit then c.toNat - '0'.toNat
  else if 'a' ≤ c then c.toNat - 'a'.toNat + 10
  else c.toNat - 'A'.toNat + 10

/-- The character that hexadecimal digits number. -/
def charOfHex (digits : List Char) : Option Char :=
  let n := digits.foldl (fun n c => 16 * n + hexValue c) 0
  if digits ≠ [] ∧ n.isValidChar then some (Char.ofNat n) else none

/-- The characters after an optional closing brace. -/
def dropBrace : List Char → List Char
  | [] => []
  | c :: cs => if c = '\x7d' then cs else c :: cs

theorem length_dropBrace_le (cs : List Char) :
  (dropBrace cs).length ≤ cs.length
  := by
  cases cs with
  | nil => exact Nat.le_refl 0
  | cons c cs =>
      rw [dropBrace]
      split
      · exact Nat.le_succ _
      · exact Nat.le_refl _

/-- What a literal denotes.  An escape that is none stands for itself. -/
def decode : List Char → List Char
  | [] => []
  | [c] => [c]
  | c :: d :: cs =>
      if c = '\\' then
        match unescape d with
        | some e => e :: decode cs
        | none =>
            if d = 'u' ∧ cs.head? = some '\x7b' then
              let digits := cs.tail.takeWhile isHexDigit
              let rest := cs.tail.drop digits.length
              match charOfHex digits with
              | some e => e :: decode (dropBrace rest)
              | none =>
                  c :: d :: '\x7b' :: digits ++
                    rest.take (rest.length - (dropBrace rest).length) ++ decode (dropBrace rest)
            else c :: d :: decode cs
      else c :: decode (d :: cs)
termination_by cs => cs.length
decreasing_by
  all_goals simp only [List.length_cons]
  all_goals first
    | omega
    | have hrest := length_dropBrace_le (cs.tail.drop (cs.tail.takeWhile isHexDigit).length)
      simp only [List.length_drop, List.length_tail] at hrest
      omega

/-! ### Literals that are read -/

/-- Characters that neither end a literal nor escape are read as they are. -/
theorem scan_plain {cs : List Char} (h : ∀ c ∈ cs, c ≠ '"' ∧ c ≠ '\\') (raw rest : List Char) :
  scan (some (false, raw)) (cs ++ rest) = scan (some (false, cs.reverse ++ raw)) rest
  := by
  induction cs generalizing raw with
  | nil => rfl
  | cons c cs ih =>
      obtain ⟨hquote, hbackslash⟩ := h c List.mem_cons_self
      rw [List.cons_append, scan, if_neg (fun heq => hquote heq.1), decide_eq_false
        (fun heq => hbackslash heq.1), ih fun c hc => h c (List.mem_cons_of_mem _ hc)]
      simp

/-- A backslash and the character after it are read, whatever this is. -/
theorem scan_escape (c : Char) (raw rest : List Char) :
  scan (some (false, raw)) ('\\' :: c :: rest) = scan (some (false, c :: '\\' :: raw)) rest
  := by
  rw [scan, if_neg (by decide), scan, if_neg (by simp)]
  simp

/-- Code without quotes is read as it is. -/
theorem scan_code {cs : List Char} (h : ∀ c ∈ cs, c ≠ '"') (rest : List Char) :
  scan none (cs ++ rest) = (scan none rest).map (cs.map .code ++ ·)
  := by
  induction cs with
  | nil => simp
  | cons c cs ih =>
      rw [List.cons_append, scan, if_neg (h c List.mem_cons_self),
        ih fun c hc => h c (List.mem_cons_of_mem _ hc), Option.map_map]
      rfl

/-! ### Literals that are decoded -/

theorem decode_of_ne {c : Char} (h : c ≠ '\\') (cs : List Char) :
  decode (c :: cs) = c :: decode cs
  := by
  cases cs with
  | nil => simp [decode]
  | cons d cs => rw [decode, if_neg h]

theorem decode_escape {c e : Char} (h : unescape c = some e) (cs : List Char) :
  decode ('\\' :: c :: cs) = e :: decode cs
  := by
  rw [decode, if_pos rfl, h]

/-- A character in hexadecimal digits between braces. -/
theorem decode_hex {digits : List Char} {e : Char} (hdigits : digits.all isHexDigit = true)
    (hchar : charOfHex digits = some e) (cs : List Char) :
  decode ('\\' :: 'u' :: '\x7b' :: digits ++ '\x7d' :: cs) = e :: decode cs
  := by
  have htake : (digits ++ '\x7d' :: cs).takeWhile isHexDigit = digits := by
    rw [List.takeWhile_append_of_pos (List.all_eq_true.mp hdigits), List.takeWhile_cons_of_neg
      (by decide), List.append_nil]
  simp only [List.cons_append]
  rw [decode, if_pos rfl]
  have hu : unescape 'u' = none := by decide
  simp only [hu, List.head?_cons, List.tail_cons, htake, List.drop_left, hchar, and_self,
    if_true, dropBrace]

end Typst
