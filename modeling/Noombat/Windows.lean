import Mathlib.Data.List.Basic
import Mathlib.Algebra.Order.Ring.Int

/-!
# Windows of time

Events are admitted one after the other, each at a time of its own.  If fewer than `n` of those
that were admitted before an event have times that are later than a period before its own, then
no set of times any two of which are less than a period apart has more than `n` events.  The
times need not be in the order of admission, and the period need not have a fixed length:
`since t` is the moment a period before `t`.
-/

/-- Each time, the latest admitted first, has fewer than `n` of the others before it later than a
period before it. -/
def Spaced (n : Nat) (since : Int → Int) : List Int → Prop
  | [] => True
  | t :: ts => ts.countP (fun t' => decide (since t < t')) < n ∧ Spaced n since ts

/-- Any two of the times are less than a period apart. -/
def Window (since : Int → Int) (w : Int → Bool) : Prop :=
  ∀ t t', w t = true → w t' = true → since t < t'

/-- The times after one moment and up to another. -/
def between (start stop : Int) (t : Int) : Bool :=
  decide (start < t) && decide (t ≤ stop)

/-- The times in the period before a moment. -/
theorem window_between {since : Int → Int} (h : ∀ t t', t ≤ t' → since t ≤ since t')
    (stop : Int) :
  Window since (between (since stop) stop)
  := by
  intro t t' ht ht'
  simp only [between, Bool.and_eq_true, decide_eq_true_eq] at ht ht'
  exact Int.lt_of_le_of_lt (h t stop ht.2) ht'.1

namespace Spaced

variable {n : Nat} {since : Int → Int} {ts ts' : List Int}

@[simp]
theorem nil :
  Spaced n since []
  := trivial

@[simp]
theorem cons_iff {t : Int} :
  Spaced n since (t :: ts) ↔
    ts.countP (fun t' => decide (since t < t')) < n ∧ Spaced n since ts
  := Iff.rfl

/-- Events that are forgotten leave the others spaced. -/
theorem sublist (h : Spaced n since ts) (hsub : ts'.Sublist ts) :
  Spaced n since ts'
  := by
  induction hsub with
  | slnil => exact h
  | cons t _ ih => exact ih h.2
  | cons_cons t hsub ih =>
      constructor
      · exact Nat.lt_of_le_of_lt hsub.countP_le h.1
      · exact ih h.2

/-- No window has more than `n` of the times. -/
theorem countP_le (h : Spaced n since ts) {w : Int → Bool} (hw : Window since w) :
  ts.countP w ≤ n
  := by
  induction ts with
  | nil => exact Nat.zero_le n
  | cons t ts ih =>
      obtain ⟨hfew, hrest⟩ := h
      rw [List.countP_cons]
      split
      · -- those in the window with the time admitted last are later than a period before it
        rename_i hin
        have hle : ts.countP w ≤ ts.countP (fun t' => decide (since t < t')) := by
          apply List.countP_mono_left
          intro t' _ ht'
          exact decide_eq_true (hw t t' hin ht')
        omega
      · apply ih hrest

end Spaced
