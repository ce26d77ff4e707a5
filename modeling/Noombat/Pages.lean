import Mathlib.Data.List.Basic
import Mathlib.Algebra.Order.Group.Nat

/-!
# Pages

A list is cut into pages of one size, and of each page what may be shown is shown.  If a page is
taken to be the last as soon as less is shown of it than fits on a page, then everything that may
be shown is, as long as nothing that may be shown comes after a page from which something is
withheld.
-/

namespace Pages

variable {α β : Type}

/-- A page of a list, the first with the number zero. -/
def page (size : Nat) (l : List α) (k : Nat) : List α :=
  (l.drop (k * size)).take size

/-- Nothing that may be shown comes after a page from which something is withheld. -/
def Unbroken (size : Nat) (f : α → Option β) (l : List α) : Prop :=
  ∀ k, (∃ a ∈ page size l k, f a = none) → ∀ a ∈ l.drop ((k + 1) * size), f a = none

variable {size : Nat} {f : α → Option β} {l : List α}

/-- What is left of a list is a page of it and what is left after that. -/
theorem page_append (size : Nat) (l : List α) (k : Nat) :
  page size l k ++ l.drop ((k + 1) * size) = l.drop (k * size)
  := by
  rw [page, Nat.succ_mul, ← List.drop_drop, List.take_append_drop]

theorem page_eq_nil {k : Nat} (h : l.length ≤ k * size) :
  page size l k = []
  := by
  rw [page, List.drop_of_length_le h, List.take_nil]

theorem lt_of_page_ne_nil {k : Nat} (h : page size l k ≠ []) :
  k * size < l.length
  := by
  by_contra hle
  exact h (page_eq_nil (not_lt.mp hle))

/-- If less is shown of a page than fits on it, nothing is shown of what comes after it. -/
theorem filterMap_drop_eq_nil (h : Unbroken size f l) {k : Nat}
    (hlast : ((page size l k).filterMap f).length < size) :
  (l.drop ((k + 1) * size)).filterMap f = []
  := by
  by_cases hwithheld : ∃ a ∈ page size l k, f a = none
  · apply List.filterMap_eq_nil_iff.mpr
    apply h k hwithheld
  -- everything on the page is shown, so that it is short
  · have hall : ((page size l k).filterMap f).length = (page size l k).length := by
      rw [List.length_filterMap_eq_countP, List.countP_eq_length]
      intro a ha
      apply Option.isSome_iff_ne_none.mpr
      intro hnone
      exact hwithheld ⟨a, ha, hnone⟩
    rw [hall, page, List.length_take, List.length_drop] at hlast
    have hlength : l.length ≤ (k + 1) * size := by
      rw [Nat.succ_mul]
      omega
    rw [List.drop_of_length_le hlength]
    rfl

end Pages
