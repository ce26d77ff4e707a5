import Mathlib.Data.List.Basic

/-!
# The generic cell rate algorithm

An arrival is admitted if it comes no earlier than the tolerance before it is due, and an arrival
that is admitted puts off when the next is due by an interval.  Arrivals are a list of times in any
order.
-/

namespace Gcra

section

variable (interval tolerance : Nat)

/-- When the next arrival is due, after one that was admitted. -/
def next (due now : Nat) : Nat :=
  max due now + interval

/-- Which of the arrivals are admitted. -/
def answers (due : Nat) : List Nat → List Bool
  | [] => []
  | now :: arrivals =>
      if due ≤ now + tolerance then true :: answers (next interval due now) arrivals
      else false :: answers due arrivals

/-- The arrivals that are admitted. -/
def admitted (due : Nat) : List Nat → List Nat
  | [] => []
  | now :: arrivals =>
      if due ≤ now + tolerance then now :: admitted (next interval due now) arrivals
      else admitted due arrivals

/-- When the next arrival is due after all of them. -/
def after (due : Nat) : List Nat → Nat
  | [] => due
  | now :: arrivals =>
      if due ≤ now + tolerance then after (next interval due now) arrivals
      else after due arrivals

end

variable {interval tolerance : Nat}

/-- What is due counts the arrivals admitted in a window. -/
theorem max_due_add_le (start length : Nat) (arrivals : List Nat) (due : Nat) :
  let counted := (admitted interval tolerance due arrivals).filter
    fun t => start ≤ t ∧ t ≤ start + length
  counted = [] ∨
    max due start + counted.length * interval ≤ start + length + tolerance + interval
  := by
  induction arrivals generalizing due with
  | nil => exact Or.inl rfl
  | cons now arrivals ih =>
      rw [admitted]
      split
      · rename_i hdue
        have hlater := ih (next interval due now)
        rw [next] at hlater
        rw [List.filter_cons]
        split
        · rename_i hwindow
          have hwindow := of_decide_eq_true hwindow
          right
          rw [List.length_cons, Nat.succ_mul, next]
          rcases hlater with hnone | hlater
          · rw [hnone, List.length_nil]
            omega
          · omega
        · rcases hlater with hnone | hlater
          · exact Or.inl hnone
          · right
            rw [next]
            omega
      · apply ih

/-- At most a burst and one arrival for each interval are admitted in a window. -/
theorem length_admitted_le {burst : Nat} (hinterval : 0 < interval)
    (hburst : tolerance + interval = burst * interval) (start length : Nat) (arrivals : List Nat)
    (due : Nat) :
  ((admitted interval tolerance due arrivals).filter
    fun t => start ≤ t ∧ t ≤ start + length).length ≤ burst + length / interval
  := by
  rcases max_due_add_le start length arrivals due with hnone | hbound
  · rw [hnone]
    apply Nat.zero_le
  · have hcount : ((admitted interval tolerance due arrivals).filter
        fun t => start ≤ t ∧ t ≤ start + length).length * interval ≤ length + burst * interval := by
      omega
    have hquotient := (Nat.le_div_iff_mul_le hinterval).mpr hcount
    rw [Nat.add_mul_div_right length burst hinterval] at hquotient
    rw [Nat.add_comm burst]
    exact hquotient

/-- A burst is admitted at once if nothing is due later than now. -/
theorem answers_replicate {due now count : Nat}
    (h : count = 0 ∨ max due now + count * interval ≤ now + tolerance + interval) :
  answers interval tolerance due (List.replicate count now) = List.replicate count true
  := by
  induction count generalizing due with
  | zero => rfl
  | succ count ih =>
      have h := h.resolve_left (Nat.succ_ne_zero count)
      rw [Nat.succ_mul] at h
      have hdue : due ≤ now + tolerance := by omega
      rw [List.replicate_succ, answers, if_pos hdue, ih, List.replicate_succ]
      rw [next]
      omega

/-- Nothing is due later than now once the tolerance and an interval have passed since the last
arrival that was admitted. -/
theorem after_le {due now : Nat} {arrivals : List Nat} (hdue : due ≤ now)
    (hidle : ∀ t ∈ admitted interval tolerance due arrivals, t + tolerance + interval ≤ now) :
  after interval tolerance due arrivals ≤ now
  := by
  induction arrivals generalizing due with
  | nil => exact hdue
  | cons t arrivals ih =>
      rw [admitted] at hidle
      rw [after]
      split
      · rename_i hadmitted
        rw [if_pos hadmitted] at hidle
        obtain ⟨ht, hothers⟩ := List.forall_mem_cons.mp hidle
        apply ih _ hothers
        rw [next]
        omega
      · rename_i hrefused
        rw [if_neg hrefused] at hidle
        exact ih hdue hidle

end Gcra
