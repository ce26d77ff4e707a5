import Mathlib.Data.List.Basic

/-!
# The past

A history is a list of what has happened, the latest first, and a fact about the past is a
predicate on histories.  `Since q P` says that `P` held at some moment and that nothing
satisfying `q` has happened since; `Once P` says that `P` held at some moment.
-/

namespace Past

variable {α : Type}

/-- What happened last satisfies `p`. -/
def Now (p : α → Prop) : List α → Prop
  | [] => False
  | x :: _ => p x

/-- What happened last satisfies `p`, and `P` held before. -/
def After (p : α → Prop) (P : List α → Prop) : List α → Prop
  | [] => False
  | x :: h => p x ∧ P h

/-- `P` held at some moment, and nothing that satisfies `q` has happened since. -/
def Since (q : α → Prop) (P : List α → Prop) : List α → Prop
  | [] => P []
  | x :: h => P (x :: h) ∨ (¬ q x ∧ Since q P h)

/-- `P` held at some moment. -/
def Once (P : List α → Prop) : List α → Prop :=
  Since (fun _ => False) P

/-- Whatever happened stood in the relation `R` to what had happened before. -/
def Throughout (R : α → List α → Prop) : List α → Prop
  | [] => True
  | x :: h => R x h ∧ Throughout R h

variable {p q : α → Prop} {P P' : List α → Prop} {R : α → List α → Prop} {x : α} {h : List α}

@[simp]
theorem now_cons :
  Now p (x :: h) ↔ p x
  := Iff.rfl

@[simp]
theorem after_cons :
  After p P (x :: h) ↔ p x ∧ P h
  := Iff.rfl

theorem since_cons :
  Since q P (x :: h) ↔ P (x :: h) ∨ (¬ q x ∧ Since q P h)
  := Iff.rfl

/-- What holds now has held since now. -/
theorem since_of_now (hP : P h) :
  Since q P h
  := by
  cases h with
  | nil => exact hP
  | cons x h => exact .inl hP

/-- What does not satisfy `q` interrupts nothing. -/
theorem Since.cons (hh : Since q P h) (hx : ¬ q x) :
  Since q P (x :: h)
  := .inr ⟨hx, hh⟩

theorem Since.mono (hP : ∀ h, P h → P' h) (hh : Since q P h) :
  Since q P' h
  := by
  induction h with
  | nil => exact hP [] hh
  | cons x h ih =>
      rcases hh with hnow | ⟨hx, hbefore⟩
      · exact .inl (hP _ hnow)
      · exact .inr ⟨hx, ih hbefore⟩

/-- The moment at which `P` held, what happened before and what has happened since. -/
theorem since_iff :
  Since q P h ↔ ∃ later earlier, h = later ++ earlier ∧ P earlier ∧ ∀ x ∈ later, ¬ q x
  := by
  induction h with
  | nil =>
      constructor
      · intro hP
        exact ⟨[], [], rfl, hP, by simp⟩
      · rintro ⟨later, earlier, hsplit, hP, _⟩
        obtain ⟨rfl, rfl⟩ := List.append_eq_nil_iff.mp hsplit.symm
        exact hP
  | cons x h ih =>
      rw [since_cons, ih]
      constructor
      · rintro (hP | ⟨hx, later, earlier, rfl, hP, hlater⟩)
        · exact ⟨[], x :: h, rfl, hP, by simp⟩
        · refine ⟨x :: later, earlier, rfl, hP, ?_⟩
          intro y hy
          rcases List.mem_cons.mp hy with rfl | hy
          · exact hx
          · apply hlater y hy
      · rintro ⟨later, earlier, hsplit, hP, hlater⟩
        cases later with
        | nil =>
            left
            rw [hsplit]
            exact hP
        | cons y later =>
            obtain ⟨rfl, rfl⟩ := List.cons.inj hsplit
            right
            constructor
            · apply hlater x List.mem_cons_self
            · exact ⟨later, earlier, rfl, hP, fun y hy => hlater y (List.mem_cons_of_mem _ hy)⟩

theorem throughout_iff :
  Throughout R h ↔ ∀ later x earlier, h = later ++ x :: earlier → R x earlier
  := by
  induction h with
  | nil => simp [Throughout]
  | cons x h ih =>
      rw [Throughout, ih]
      constructor
      · rintro ⟨hx, hbefore⟩ later y earlier hsplit
        cases later with
        | nil =>
            obtain ⟨rfl, rfl⟩ := List.cons.inj hsplit
            exact hx
        | cons z later => exact hbefore later y earlier (List.cons.inj hsplit).2
      · intro hall
        constructor
        · exact hall [] x h rfl
        · intro later y earlier hsplit
          apply hall (x :: later) y earlier
          rw [hsplit, List.cons_append]

instance Now.decidable [DecidablePred p] : DecidablePred (Now p)
  | [] => isFalse id
  | x :: _ => inferInstanceAs (Decidable (p x))

instance After.decidable [DecidablePred p] [DecidablePred P] : DecidablePred (After p P)
  | [] => isFalse id
  | x :: h => inferInstanceAs (Decidable (p x ∧ P h))

instance Since.decidable [DecidablePred q] [DecidablePred P] :
    ∀ h : List α, Decidable (Since q P h)
  | [] => inferInstanceAs (Decidable (P []))
  | x :: h =>
      have := Since.decidable h
      inferInstanceAs (Decidable (P (x :: h) ∨ (¬ q x ∧ Since q P h)))

end Past
