import Mathlib.Algebra.Order.Group.Nat
import Mathlib.Data.List.Pairwise
import Noombat.TextCuts

/-!
# Sequence ranges of IMAP

A client names messages by a range of two numbers, either of which may be an asterisk for the
greatest number in use.  The order of the two does not matter, so that a range from a number to the
asterisk always holds the last message, even where that message has a smaller number.
-/

namespace Imap

/-- A number in a range. -/
inductive SeqNumber where
  | star
  | num (n : Nat)
  deriving DecidableEq

/-- A number as it is written, from one up to the greatest of 32 bits, without leading zeros. -/
def parseSeqNumber (cs : List Char) : Option SeqNumber :=
  if cs = ['*'] then some .star
  else if cs.head? ≠ some '0' ∧ cs ≠ [] ∧ cs.all Char.isDigit ∧ Nat.ofDigitChars 10 cs 0 < 2 ^ 32 then
    some (.num (Nat.ofDigitChars 10 cs 0))
  else none

/-- A range as it is written. -/
def parseRange (s : String) : Option (SeqNumber × SeqNumber) :=
  (Text.splitOnce ':' s).bind fun (first, last) =>
    (parseSeqNumber first.toList).bind fun a => (parseSeqNumber last.toList).map fun b => (a, b)

def SeqNumber.value (highest : Nat) : SeqNumber → Nat
  | star => highest
  | num n => n

/-- A mailbox: its messages by their identifiers, which are positive and ascend. -/
structure Mailbox (μ : Type) where
  messages : List (UInt32 × μ)
  positive : ∀ m ∈ messages, 0 < m.1
  ascending : messages.Pairwise fun m m' => m.1 < m'.1

variable {μ : Type}

namespace Mailbox

variable (box : Mailbox μ)

/-- The messages with identifiers in a range. -/
def inRange (range : SeqNumber × SeqNumber) : List (UInt32 × μ) :=
  match box.messages.getLast? with
  | none => []
  | some highest =>
      let a := range.1.value highest.1.toNat
      let b := range.2.value highest.1.toNat
      box.messages.filter fun m => decide (min a b ≤ m.1.toNat ∧ m.1.toNat ≤ max a b)

/-- The messages that a server finds for a range, unless it is not well-formed. -/
def uidFetch (query : String) : Option (List (UInt32 × μ)) :=
  (parseRange query).map box.inRange

end Mailbox

/-! ### Ranges up to the last message -/

theorem toDigits_ne_zero {n : Nat} (hn : 0 < n) :
  (Nat.toDigits 10 n).head? ≠ some '0'
  := by
  induction n using Nat.strongRecOn with
  | ind n ih =>
      by_cases hsmall : n < 10
      · rw [Nat.toDigits_of_lt_base hsmall]
        exact (by decide : ∀ n, n < 10 → 0 < n → [n.digitChar].head? ≠ some '0') n hsmall hn
      · rw [Nat.toDigits_of_base_le (by decide) (by omega)]
        have hhead := ih (n / 10) (by omega) (by omega)
        cases hdigits : Nat.toDigits 10 (n / 10) with
        | nil => exact absurd hdigits Nat.toDigits_ne_nil
        | cons d ds =>
            rw [hdigits] at hhead
            exact hhead

theorem parseSeqNumber_toDigits {n : Nat} (hn : 0 < n) (hlt : n < 2 ^ 32) :
  parseSeqNumber (Nat.toDigits 10 n) = some (.num n)
  := by
  have hdigit : ∀ c ∈ Nat.toDigits 10 n, c.isDigit = true := by
    intro c hc
    exact Nat.isDigit_of_mem_toDigits (by decide) (by decide) hc
  have hstar : Nat.toDigits 10 n ≠ ['*'] := by
    intro h
    have hc := hdigit '*' (by rw [h]; exact List.mem_singleton_self _)
    revert hc
    decide
  rw [parseSeqNumber, if_neg hstar, Nat.ofDigitChars_ten_toDigits, if_pos]
  exact ⟨toDigits_ne_zero hn, Nat.toDigits_ne_nil, List.all_eq_true.mpr hdigit, hlt⟩

/-- The range from a number to the asterisk is read as it was meant. -/
theorem parseRange_from {n : Nat} (hn : 0 < n) (hlt : n < 2 ^ 32) :
  parseRange (toString n ++ ":*") = some (.num n, .star)
  := by
  have hcolon : ':' ∉ Nat.toDigits 10 n := by
    intro hc
    have hdigit := Nat.isDigit_of_mem_toDigits (by decide) (by decide) hc
    revert hdigit
    decide
  have hstring : toString n ++ ":*" = String.ofList (Nat.toDigits 10 n ++ ':' :: ['*']) := by
    simp [← String.toList_inj, Nat.toString_eq_repr]
  rw [parseRange, hstring, Text.splitOnce, Text.find_append_cons hcolon]
  simp only [Option.map_some, Option.bind_some, String.toList_ofList, List.take_left]
  rw [parseSeqNumber_toDigits hn hlt]
  have hdrop : (Nat.toDigits 10 n ++ ':' :: ['*']).drop ((Nat.toDigits 10 n).length + 1) = ['*'] := by
    simp
  rw [hdrop]
  rfl

namespace Mailbox

variable (box : Mailbox μ)

/-- No message has a greater identifier than the last. -/
theorem le_last {last : UInt32 × μ} (hlast : box.messages.getLast? = some last) :
  ∀ m ∈ box.messages, m.1.toNat ≤ last.1.toNat
  := by
  obtain ⟨front, hfront⟩ := List.getLast?_eq_some_iff.mp hlast
  intro m hm
  have hascending := box.ascending
  rw [hfront] at hm hascending
  obtain hm | hm := List.mem_append.mp hm
  · have hlt := (List.pairwise_append.mp hascending).2.2 m hm last (List.mem_singleton_self _)
    exact Nat.le_of_lt (UInt32.lt_iff_toNat_lt.mp hlt)
  · obtain rfl := List.mem_singleton.mp hm
    exact Nat.le_refl _

/-- The range from a number finds the messages from there on; past the last message it finds that
one. -/
theorem inRange_from (n : Nat) :
  box.inRange (.num n, .star) =
    if ∃ m ∈ box.messages, n ≤ m.1.toNat then
      box.messages.filter fun m => decide (n ≤ m.1.toNat)
    else box.messages.getLast?.toList
  := by
  rw [inRange]
  cases hlast : box.messages.getLast? with
  | none =>
      rw [List.getLast?_eq_none_iff.mp hlast]
      simp
  | some last =>
      have hle := box.le_last hlast
      simp only
      split
      · rename_i hsome
        obtain ⟨m, hm, hn⟩ := hsome
        have hhighest : n ≤ last.1.toNat := hn.trans (hle m hm)
        apply List.filter_congr
        intro m' hm'
        rw [decide_eq_decide, SeqNumber.value, SeqNumber.value, Nat.min_eq_left hhighest,
          Nat.max_eq_right hhighest]
        constructor
        · exact And.left
        · intro h
          exact ⟨h, hle m' hm'⟩
      · rename_i hnone
        have hhighest : last.1.toNat < n := by
          by_contra hge
          apply hnone
          exact ⟨last, List.mem_of_getLast? hlast, Nat.le_of_not_lt hge⟩
        have hrange : ∀ m ∈ box.messages, decide (min (SeqNumber.value last.1.toNat (.num n))
            (SeqNumber.value last.1.toNat .star) ≤ m.1.toNat ∧ m.1.toNat ≤
              max (SeqNumber.value last.1.toNat (.num n)) (SeqNumber.value last.1.toNat .star)) =
            decide (last.1.toNat ≤ m.1.toNat) := by
          intro m hm
          have hm' := hle m hm
          rw [decide_eq_decide, SeqNumber.value, SeqNumber.value,
            Nat.min_eq_right (Nat.le_of_lt hhighest), Nat.max_eq_left (Nat.le_of_lt hhighest)]
          omega
        rw [List.filter_congr hrange]
        obtain ⟨front, hfront⟩ := List.getLast?_eq_some_iff.mp hlast
        have hascending := box.ascending
        rw [hfront] at hascending ⊢
        rw [List.filter_append, List.filter_eq_nil_iff.mpr, List.nil_append, Option.toList_some,
          List.filter_cons_of_pos (by simp), List.filter_nil]
        intro m hm
        have hlt := (List.pairwise_append.mp hascending).2.2 m hm last (List.mem_singleton_self _)
        have hlt' := UInt32.lt_iff_toNat_lt.mp hlt
        simp only [decide_eq_true_eq]
        omega

end Mailbox

end Imap
