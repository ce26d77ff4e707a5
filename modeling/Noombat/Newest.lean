import Mathlib.Order.Basic
import Mathlib.Order.Lattice
import Mathlib.Data.List.Basic

/-!
# The newest of several values

A register that is replaced by each newer value.  After any list of values it holds the
newest, and what it held before where none is newer.  If no two values are of one time, this
determines what it holds, so that the order of the values does not matter.
-/

variable {α T : Type} [LinearOrder T] (time : α → T)

/-- The register `r`, replaced by `a` if that is newer. -/
def keepNewest (r a : α) : α :=
  if time r < time a then a else r

/-- The value `r` is the newest of those in `l`, or it is `r₀` and none is newer than it. -/
def IsNewest (r₀ : α) (l : List α) (r : α) : Prop :=
  (r = r₀ ∧ ∀ a ∈ l, time a ≤ time r₀) ∨ r ∈ l ∧ time r₀ < time r ∧ ∀ a ∈ l, time a ≤ time r

theorem time_le_keepNewest (r a : α) :
  time r ≤ time (keepNewest time r a) ∧ time a ≤ time (keepNewest time r a)
  := by
  rw [keepNewest]
  split
  · rename_i hlt
    exact ⟨hlt.le, le_rfl⟩
  · rename_i hge
    exact ⟨le_rfl, not_lt.mp hge⟩

variable {time}

/-- A register holds the newest of the values it is given. -/
theorem isNewest_foldl (r₀ : α) (l : List α) :
  IsNewest time r₀ l (l.foldl (keepNewest time) r₀)
  := by
  induction l generalizing r₀ with
  | nil =>
      left
      constructor
      · rfl
      · intro a ha
        cases ha
  | cons a l ih =>
      obtain ⟨hr₀, ha⟩ := time_le_keepNewest time r₀ a
      rw [List.foldl_cons]
      rcases ih (keepNewest time r₀ a) with ⟨hkept, hle⟩ | ⟨hmem, hlt, hle⟩
      · rw [hkept]
        by_cases hnewer : time r₀ < time a
        · have hnow : keepNewest time r₀ a = a := if_pos hnewer
          rw [hnow] at hle ⊢
          right
          exact ⟨List.mem_cons_self, hnewer, List.forall_mem_cons.mpr ⟨le_rfl, hle⟩⟩
        · have hnow : keepNewest time r₀ a = r₀ := if_neg hnewer
          rw [hnow] at hle ⊢
          left
          exact ⟨rfl, List.forall_mem_cons.mpr ⟨not_lt.mp hnewer, hle⟩⟩
      · right
        exact ⟨List.mem_cons_of_mem a hmem, hr₀.trans_lt hlt,
          List.forall_mem_cons.mpr ⟨ha.trans hlt.le, hle⟩⟩

/-- There is one newest value, if no two values are of one time. -/
theorem IsNewest.unique {r₀ r r' : α} {l : List α}
    (hl : ∀ a ∈ l, ∀ b ∈ l, time a = time b → a = b) (h : IsNewest time r₀ l r)
    (h' : IsNewest time r₀ l r') :
  r = r'
  := by
  rcases h with ⟨rfl, hle⟩ | ⟨hmem, hlt, hle⟩
  · rcases h' with ⟨rfl, _⟩ | ⟨hmem', hlt', _⟩
    · rfl
    · exact absurd hlt' (not_lt.mpr (hle r' hmem'))
  · rcases h' with ⟨rfl, hle'⟩ | ⟨hmem', _, hle'⟩
    · exact absurd hlt (not_lt.mpr (hle' r hmem))
    · apply hl r hmem r' hmem' (le_antisymm (hle' r hmem) (hle r' hmem'))

/-- The newest value does not depend on the order of the values. -/
theorem IsNewest.perm {r₀ r : α} {l l' : List α} (h : IsNewest time r₀ l r) (hp : l.Perm l') :
  IsNewest time r₀ l' r
  := by
  have hmem : ∀ a, a ∈ l ↔ a ∈ l' := fun a => hp.mem_iff
  simpa only [IsNewest, hmem] using h

/-- A value that is older than none of `l`, and newer than the register was, is the one
that the register holds. -/
theorem IsNewest.eq_of_newer {r₀ r a : α} {l : List α}
    (hl : ∀ a ∈ l, ∀ b ∈ l, time a = time b → a = b) (h : IsNewest time r₀ l r) (ha : a ∈ l)
    (hnewer : time r₀ < time a) (hle : ∀ b ∈ l, time b ≤ time a) :
  r = a
  := h.unique hl (.inr ⟨ha, hnewer, hle⟩)
