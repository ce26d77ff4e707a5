import Mathlib.Data.List.DropRight
import Noombat.Url

/-!
# The host in the text of a URL

The part of a string that the parser of URLs reads as the host, for the schemes `http` and
`https` and before the host itself is decoded: the characters that the parser ignores are
dropped, slashes of both kinds count, and what stands before the last at sign of the authority
is no part of the host.
-/

namespace Url

def isC0ControlOrSpace (c : Char) : Bool :=
  c.toNat ≤ 0x20

def isTabOrNewline (c : Char) : Bool :=
  c == '\t' || c == '\n' || c == '\r'

def isSlash (c : Char) : Bool :=
  c == '/' || c == '\\'

def isSchemeChar (c : Char) : Bool :=
  c.isAlphanum || c == '+' || c == '-' || c == '.'

/-- Whether a character ends the authority of a URL. -/
def endsAuthority (c : Char) : Bool :=
  isSlash c || c == '?' || c == '#'

/-- The characters of a string that the parser reads. -/
def significant (cs : List Char) : List Char :=
  ((cs.dropWhile isC0ControlOrSpace).rdropWhile isC0ControlOrSpace).filter (!isTabOrNewline ·)

/-- The scheme, in lower case, and what follows its colon. -/
def splitScheme (cs : List Char) : Option (List Char × List Char) :=
  match cs.head?, cs.dropWhile isSchemeChar with
  | some c, ':' :: rest =>
      if c.isAlpha then some ((cs.takeWhile isSchemeChar).map Char.toLower, rest) else none
  | _, _ => none

/-- The start of a list of characters up to a colon that is not between square brackets. -/
def beforePort : Bool → List Char → List Char
  | _, [] => []
  | inside, c :: cs =>
      if c = ':' ∧ inside = false then []
      else c :: beforePort (if c = '[' then true else if c = ']' then false else inside) cs

/-- The host in an authority. -/
def hostOfAuthority (authority : List Char) : List Char :=
  beforePort false (authority.rtakeWhile (· != '@'))

/-- The host in the text of a URL whose scheme is `http` or `https`. -/
def hostText (s : String) : Option String :=
  (splitScheme (significant s.toList)).bind fun (scheme, rest) =>
    if String.ofList scheme ∈ ["http", "https"] then
      some (String.ofList
        (hostOfAuthority ((rest.dropWhile isSlash).takeWhile (!endsAuthority ·))))
    else none

/-! ### What is ignored -/

theorem not_isC0ControlOrSpace_of_isAlpha {c : Char} (hc : c.isAlpha = true) :
  isC0ControlOrSpace c = false
  := by
  apply decide_eq_false
  intro hle
  have hval : c.val.toNat ≤ 0x20 := hle
  simp only [Text.isAlpha_eq, Text.isUpper_eq, Text.isLower_eq, Bool.or_eq_true, Bool.and_eq_true,
    decide_eq_true_eq, UInt32.le_iff_toNat_le, ge_iff_le, Char.reduceVal] at hc
  have hA : (65 : UInt32).toNat = 65 := rfl
  have ha : (97 : UInt32).toNat = 97 := rfl
  omega

/-- What is ignored among the characters of a string is at least among the blanks. -/
theorem not_isTabOrNewline {c : Char} (hc : isC0ControlOrSpace c = false) :
  isTabOrNewline c = false
  := by
  apply Bool.eq_false_iff.mpr
  intro h
  simp only [isTabOrNewline, Bool.or_eq_true, beq_iff_eq] at h
  rcases h with (rfl | rfl) | rfl
  all_goals
    revert hc
    decide

/-- Blanks at the end of a list that is not blank before them are dropped from its end. -/
theorem rdropWhile_append_of_last {α : Type} {p : α → Bool} {front : List α} (l : List α)
    (hfront : front.rdropWhile p = front) :
  (front ++ l).rdropWhile p = front ++ l.rdropWhile p
  := by
  rw [List.rdropWhile, List.reverse_append, List.dropWhile_append]
  split
  · next h =>
      have hl : l.rdropWhile p = [] := by
        rw [List.rdropWhile, List.isEmpty_iff.mp h, List.reverse_nil]
      rw [hl, List.append_nil]
      exact hfront
  · rw [List.reverse_append, List.reverse_reverse, List.rdropWhile]

end Url
