import Mathlib.Algebra.Ring.Nat
import Mathlib.Data.List.Basic

/-!
# Text and bytes

The operations on strings and byte strings that the standard library of the source
provides, each under its own name there.  A string is worked on as the list of its
characters; a position in it is a number of characters, which finds the same substrings
as a number of bytes does.
-/

/-- A byte string. -/
abbrev Bytes : Type :=
  List UInt8

namespace Text

/-! ### Characters -/

/-- Whether a character has the Unicode property `White_Space`. -/
def isWhitespace (c : Char) : Bool :=
  let n := c.toNat
  (9 ≤ n && n ≤ 13) || n == 0x20 || n == 0x85 || n == 0xA0 || n == 0x1680 ||
    (0x2000 ≤ n && n ≤ 0x200A) || n == 0x2028 || n == 0x2029 || n == 0x202F ||
    n == 0x205F || n == 0x3000

/-- A property of the characters of a text is decided by going through the text, not through all
characters. -/
instance (priority := 2000) decidableForallMem (p : Char → Prop) [DecidablePred p]
    (l : List Char) : Decidable (∀ c ∈ l, p c) :=
  List.decidableBAll p l

theorem isUpper_eq (c : Char) :
  c.isUpper = decide (c.val ≥ 'A'.val ∧ c.val ≤ 'Z'.val)
  := rfl

theorem isLower_eq (c : Char) :
  c.isLower = (decide (c.val ≥ 'a'.val) && decide (c.val ≤ 'z'.val))
  := rfl

theorem isAlpha_eq (c : Char) :
  c.isAlpha = (c.isUpper || c.isLower)
  := rfl

/-- Apply a function to the characters of a string. -/
def map (f : Char → Char) (s : String) : String :=
  String.ofList (s.toList.map f)

def toAsciiLowercase (s : String) : String :=
  map Char.toLower s

def toAsciiUppercase (s : String) : String :=
  map Char.toUpper s

def eqIgnoreAsciiCase (s t : String) : Bool :=
  toAsciiLowercase s == toAsciiLowercase t

/-! ### Finding and cutting -/

/-- The position of the first occurrence of a character. -/
def find (c : Char) (s : String) : Option Nat :=
  s.toList.idxOf? c

/-- The position of the last occurrence of a character. -/
def rfind (c : Char) (s : String) : Option Nat :=
  (s.toList.reverse.idxOf? c).map fun i => s.toList.length - 1 - i

/-- The characters of a string from position `i` up to position `j`. -/
def slice (i j : Nat) (s : String) : String :=
  String.ofList ((s.toList.drop i).take (j - i))

/-- The parts of a string before and after the first occurrence of a character. -/
def splitOnce (c : Char) (s : String) : Option (String × String) :=
  (find c s).map fun i =>
    (String.ofList (s.toList.take i), String.ofList (s.toList.drop (i + 1)))

/-- The parts of a string before and after the last occurrence of a character. -/
def rsplitOnce (c : Char) (s : String) : Option (String × String) :=
  (rfind c s).map fun i =>
    (String.ofList (s.toList.take i), String.ofList (s.toList.drop (i + 1)))

/-- The parts of a list between the elements that satisfy `p`. -/
def splitList {α : Type} (p : α → Bool) : List α → List (List α)
  | [] => [[]]
  | a :: as =>
      match p a, splitList p as with
      | true, parts => [] :: parts
      | false, [] => [[a]]
      | false, part :: parts => (a :: part) :: parts

/-- The first part is what stands before the first separator. -/
theorem head_splitList {α : Type} (p : α → Bool) (l : List α) :
  (splitList p l).head? = some (l.takeWhile (!p ·))
  := by
  induction l with
  | nil => rfl
  | cons a l ih =>
      rw [splitList, List.takeWhile_cons]
      cases hparts : splitList p l with
      | nil =>
          rw [hparts] at ih
          cases ih
      | cons part parts =>
          rw [hparts] at ih
          cases p a with
          | true => rfl
          | false =>
              rw [Option.some.inj ih]
              rfl

/-- The parts of a string between the occurrences of a character. -/
def split (c : Char) (s : String) : List String :=
  (splitList (· == c) s.toList).map String.ofList

/-- The parts of a string between the characters that satisfy `p`. -/
def splitBy (p : Char → Bool) (s : String) : List String :=
  (splitList p s.toList).map String.ofList

/-- The parts of a list before and after the first occurrence of another as a substring. -/
def cutAt {α : Type} [BEq α] (sep : List α) : List α → Option (List α × List α)
  | [] => if sep.isEmpty then some ([], []) else none
  | a :: as =>
      if sep.isPrefixOf (a :: as) then some ([], (a :: as).drop sep.length)
      else (cutAt sep as).map fun (before, after) => (a :: before, after)

/-- The parts of a string before and after the first occurrence of another. -/
def splitOnceStr (sep s : String) : Option (String × String) :=
  (cutAt sep.toList s.toList).map fun (before, after) =>
    (String.ofList before, String.ofList after)

/-- The string with every occurrence of a character replaced. -/
def replaceChar (c : Char) (sub s : String) : String :=
  String.ofList (s.toList.flatMap fun d => if d = c then sub.toList else [d])

/-- The string without the whitespace at its start and at its end. -/
def trim (s : String) : String :=
  String.ofList
    (((s.toList.dropWhile isWhitespace).reverse.dropWhile isWhitespace).reverse)

/-- Whether a string starts with another. -/
def startsWith (s pre : String) : Bool :=
  pre.toList.isPrefixOf s.toList

@[simp]
theorem startsWith_append (s t : String) :
  startsWith (s ++ t) s = true
  := by
  simp [startsWith, String.toList_append]

/-- What is left of a string after a prefix. -/
def stripPrefix (pre s : String) : Option String :=
  if startsWith s pre then some (String.ofList (s.toList.drop pre.toList.length)) else none

theorem stripPrefix_append (pre s : String) :
  stripPrefix pre (pre ++ s) = some s
  := by
  rw [stripPrefix, if_pos (startsWith_append pre s), String.toList_append,
    List.drop_left, String.ofList_toList]

/-- What is left of a string before a suffix. -/
def stripSuffix (suf s : String) : Option String :=
  if suf.toList.isSuffixOf s.toList then
    some (String.ofList (s.toList.take (s.toList.length - suf.toList.length)))
  else none

/-- The string without the occurrences of a character at its start. -/
def trimStartMatches (c : Char) (s : String) : String :=
  String.ofList (s.toList.dropWhile (· == c))

/-- The string without the occurrences of a character at its end. -/
def trimEndMatches (c : Char) (s : String) : String :=
  String.ofList (s.toList.reverse.dropWhile (· == c)).reverse

/-- The longest start of a list of characters with at most `n` bytes. -/
def takeBytes : Nat → List Char → List Char
  | _, [] => []
  | n, c :: cs => if c.utf8Size ≤ n then c :: takeBytes (n - c.utf8Size) cs else []

/-- The first word of a string, the empty string if it has none. -/
def firstWord (s : String) : String :=
  String.ofList ((s.toList.dropWhile isWhitespace).takeWhile (!isWhitespace ·))

/-- Whether a string occurs in another. -/
def contains (s sub : String) : Bool :=
  s.toList.tails.any (sub.toList.isPrefixOf ·)

/-- The lines of a string, without their ends, a line feed with or without a carriage return.  What
comes after the last line feed has no line end. -/
def lines (s : String) : List String :=
  let parts := splitList (· == '\n') s.toList
  let ended := parts.dropLast.map fun l => if l.getLast? = some '\r' then l.dropLast else l
  (ended ++ (parts.getLast?.filter (· ≠ [])).toList).map String.ofList

/-- What is left of a list of characters after its first `n` bytes, if they end between
two characters. -/
def dropBytes : Nat → List Char → Option (List Char)
  | 0, cs => some cs
  | _ + 1, [] => none
  | n + 1, c :: cs => if c.utf8Size ≤ n + 1 then dropBytes (n + 1 - c.utf8Size) cs else none

/-- The string from its byte `n` on. -/
def fromByte (n : Nat) (s : String) : Option String :=
  (dropBytes n s.toList).map String.ofList

/-! ### Bytes -/

/-- The UTF-8 encoding of a string. -/
def asBytes (s : String) : Bytes :=
  s.toList.flatMap String.utf8EncodeChar

/-- The encoding of a string is the bytes that it is kept as. -/
theorem toByteArray_eq (s : String) :
  s.toByteArray = (asBytes s).toByteArray
  := by
  conv_lhs => rw [← String.ofList_toList (s := s)]
  rw [String.toByteArray_ofList]
  rfl

theorem length_asBytes (s : String) :
  (asBytes s).length = s.utf8ByteSize
  := by
  rw [← String.size_toByteArray, toByteArray_eq, List.size_toByteArray]

/-- A string of characters of one byte has as many bytes as characters. -/
theorem utf8ByteSize_eq_length {s : String} (h : ∀ c ∈ s.toList, c.utf8Size = 1) :
  s.utf8ByteSize = s.toList.length
  := by
  rw [← length_asBytes, asBytes]
  generalize s.toList = cs at h
  induction cs with
  | nil => rfl
  | cons c cs ih =>
      rw [List.flatMap_cons, List.length_append, List.length_cons,
        ih fun d hd => h d (List.mem_cons_of_mem c hd), String.length_utf8EncodeChar,
        h c List.mem_cons_self, Nat.add_comm]

/-- Strings with one encoding are the same. -/
theorem asBytes_injective {s t : String} (h : asBytes s = asBytes t) :
  s = t
  := by
  rw [← String.toByteArray_inj, toByteArray_eq s, toByteArray_eq t, h]

/-- Whether a byte continues a UTF-8 sequence. -/
def isContinuation (b : UInt8) : Bool :=
  0x80 ≤ b && b ≤ 0xBF

/-- Whether `b₁` may follow the lead byte `b₀` of a UTF-8 sequence of three bytes. -/
def isSecondOfThree (b₀ b₁ : UInt8) : Bool :=
  (b₀ == 0xE0 && 0xA0 ≤ b₁ && b₁ ≤ 0xBF) ||
    (b₀ == 0xED && 0x80 ≤ b₁ && b₁ ≤ 0x9F) ||
    (0xE1 ≤ b₀ && b₀ ≤ 0xEF && b₀ != 0xED && isContinuation b₁)

/-- Whether `b₁` may follow the lead byte `b₀` of a UTF-8 sequence of four bytes. -/
def isSecondOfFour (b₀ b₁ : UInt8) : Bool :=
  (b₀ == 0xF0 && 0x90 ≤ b₁ && b₁ ≤ 0xBF) ||
    (b₀ == 0xF4 && 0x80 ≤ b₁ && b₁ ≤ 0x8F) ||
    (0xF1 ≤ b₀ && b₀ ≤ 0xF3 && isContinuation b₁)

/-- The low bits of a byte, those of the mask. -/
def bits (b mask : UInt8) : Nat :=
  (b &&& mask).toNat

/-- The character that starts at the byte `b₀`, before the bytes `rest`, and the number of
bytes of `rest` that belong to it: a replacement character with the longest start of a
UTF-8 sequence that is there, if the sequence is ill-formed. -/
def decodeChar (b₀ : UInt8) (rest : Bytes) : Char × Nat :=
  if b₀ < 0x80 then (Char.ofNat b₀.toNat, 0)
  else
    match rest with
    | [] => ('\uFFFD', 0)
    | b₁ :: rest =>
        if 0xC2 ≤ b₀ && b₀ ≤ 0xDF && isContinuation b₁ then
          (Char.ofNat (bits b₀ 0x1F * 64 + bits b₁ 0x3F), 1)
        else if isSecondOfThree b₀ b₁ then
          match rest with
          | [] => ('\uFFFD', 1)
          | b₂ :: _ =>
              if isContinuation b₂ then
                (Char.ofNat ((bits b₀ 0x0F * 64 + bits b₁ 0x3F) * 64 + bits b₂ 0x3F), 2)
              else ('\uFFFD', 1)
        else if isSecondOfFour b₀ b₁ then
          match rest with
          | [] => ('\uFFFD', 1)
          | [b₂] => ('\uFFFD', if isContinuation b₂ then 2 else 1)
          | b₂ :: b₃ :: _ =>
              if isContinuation b₂ && isContinuation b₃ then
                (Char.ofNat
                  (((bits b₀ 0x07 * 64 + bits b₁ 0x3F) * 64 + bits b₂ 0x3F) * 64 +
                    bits b₃ 0x3F), 3)
              else ('\uFFFD', if isContinuation b₂ then 2 else 1)
        else ('\uFFFD', 0)

/-- The characters of a byte string after its first `n` bytes, with ill-formed UTF-8
replaced. -/
def lossyChars : Nat → Bytes → List Char
  | _, [] => []
  | n + 1, _ :: bytes => lossyChars n bytes
  | 0, b :: bytes =>
      let (c, n) := decodeChar b bytes
      c :: lossyChars n bytes

/-- The string of a byte string, with ill-formed UTF-8 replaced. -/
def fromUtf8Lossy (bytes : Bytes) : String :=
  String.ofList (lossyChars 0 bytes)

/-- The number a byte string of decimal digits stands for. -/
def parseDigits (bytes : Bytes) : Option Nat :=
  if bytes = [] then none
  else bytes.foldlM (fun n b => if 0x30 ≤ b && b ≤ 0x39 then some (n * 10 + (b - 0x30).toNat)
    else none) 0

/-- The number below `2 ^ 16` that a byte string stands for: digits, after a plus sign or
not. -/
def parseU16 (bytes : Bytes) : Option Nat :=
  let digits := match bytes with
    | 0x2B :: rest => rest
    | _ => bytes
  (parseDigits digits).filter (· < 2 ^ 16)

/-- The lines of a byte string, each with its line feed. -/
def splitInclusive : Bytes → List Bytes
  | [] => []
  | b :: bs =>
      if b = 0x0A then [b] :: splitInclusive bs
      else
        match splitInclusive bs with
        | [] => [[b]]
        | line :: lines => (b :: line) :: lines

end Text
