import Noombat.Json
import Mathlib.Data.Nat.Digits.Defs

/-!
# Reading JSON values

Integers and lists as JSON values, and the fields of an object that may be missing.  What is
written is read back.
-/

namespace Json

/-! ### Numerals -/

/-- The number of some digits. -/
def readDigits (digits : List Char) : Option Nat :=
  if digits ≠ [] ∧ digits.all Char.isDigit then some (Nat.ofDigitChars 10 digits 0) else none

/-- The integer of a literal. -/
def readInt (literal : String) : Option Int :=
  match literal.toList with
  | '-' :: digits => (readDigits digits).map fun n => -(n : Int)
  | digits => (readDigits digits).map Int.ofNat

def ofInt (n : Int) : Json :=
  num (toString n)

def asInt : Json → Option Int
  | num literal => readInt literal
  | _ => none

theorem readDigits_toDigits (n : Nat) :
  readDigits (Nat.toDigits 10 n) = some n
  := by
  have hdigits : Nat.toDigits 10 n ≠ [] ∧ (Nat.toDigits 10 n).all Char.isDigit = true := by
    constructor
    · apply Nat.toDigits_ne_nil
    · apply List.all_eq_true.mpr
      intro c hc
      exact Nat.isDigit_of_mem_toDigits (b := 10) (by decide) (by decide) hc
  rw [readDigits, if_pos hdigits, Nat.ofDigitChars_ten_toDigits]

theorem readInt_toString (n : Int) :
  readInt (toString n) = some n
  := by
  cases n with
  | ofNat n =>
      have hlist : (toString (Int.ofNat n)).toList = Nat.toDigits 10 n := Nat.toList_repr
      have hsign : ∀ digits, Nat.toDigits 10 n ≠ '-' :: digits := by
        intro digits hdigits
        have hdigit : '-'.isDigit = true := by
          apply Nat.isDigit_of_mem_toDigits (b := 10) (n := n) (by decide) (by decide)
          rw [hdigits]
          apply List.mem_cons_self
        cases hdigit
      rw [readInt, hlist]
      split
      · rename_i digits hdigits
        exact absurd hdigits (hsign digits)
      · rw [readDigits_toDigits]
        rfl
  | negSucc n =>
      have hlist : (toString (Int.negSucc n)).toList = '-' :: Nat.toDigits 10 (n + 1) := by
        change ("-" ++ Nat.repr (n + 1)).toList = _
        rw [String.toList_append, Nat.toList_repr]
        rfl
      rw [readInt, hlist]
      simp only [readDigits_toDigits]
      rfl

@[simp]
theorem asInt_ofInt (n : Int) :
  (ofInt n).asInt = some n
  := readInt_toString n

/-! ### Lists -/

section Lists

variable {α : Type} {read : Json → Option α} {write : α → Json}

def ofList (write : α → Json) (xs : List α) : Json :=
  arr (xs.map write)

def asList (read : Json → Option α) : Json → Option (List α)
  | arr items => items.mapM read
  | _ => none

theorem mapM_map_eq_some {β : Type} {f : β → Option α} {g : α → β} (h : ∀ a, f (g a) = some a)
    (xs : List α) :
  (xs.map g).mapM f = some xs
  := by
  induction xs with
  | nil => rfl
  | cons x xs ih => simp only [List.map_cons, List.mapM_cons, h, ih, Option.bind_eq_bind,
      Option.bind_some, Option.pure_def]

theorem asList_ofList (h : ∀ a, read (write a) = some a) (xs : List α) :
  (ofList write xs).asList read = some xs
  := mapM_map_eq_some h xs

/-- A value that may be `null`. -/
def ofNullable (write : α → Json) : Option α → Json
  | none => null
  | some a => write a

def asNullable (read : Json → Option α) : Json → Option (Option α)
  | null => some none
  | j => (read j).map some

theorem asNullable_ofNullable (h : ∀ a, read (write a) = some a) (hnull : ∀ a, write a ≠ null)
    (x : Option α) :
  (ofNullable write x).asNullable read = some x
  := by
  cases x with
  | none => rfl
  | some a =>
      rw [ofNullable, asNullable, h]
      · rfl
      · exact hnull a

end Lists

/-- What is read under a key of an object, with a default where there is nothing. -/
def field {α : Type} (key : String) (read : Json → Option α) (default : α) (j : Json) : Option α :=
  match j.get key with
  | none => some default
  | some value => read value

theorem field_of_get {α : Type} {key : String} {read : Json → Option α} {default a : α}
    {j value : Json} (h : j.get key = some value) (hread : read value = some a) :
  j.field key read default = some a
  := by
  rw [field, h]
  exact hread

end Json
