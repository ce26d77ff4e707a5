/-!
# Runs of a step function

A system takes a step with each event that can happen.  A property holds throughout a run if it
holds of every state of it, and a run meets a condition if every step of it does.  Where a step
keeps a property just if it meets a condition, a run that starts with the property has it
throughout just if it meets the condition.
-/

namespace Runs

variable {S E : Type} (step : S → E → Option S)

/-- A property of every state of a run. -/
def Throughout (P : S → Prop) : List E → S → Prop
  | [], s => P s
  | e :: es, s => P s ∧ ∀ s', step s e = some s' → Throughout P es s'

/-- A property of every step of a run, by the state before it and the event. -/
def Meets (C : S → E → Prop) : List E → S → Prop
  | [], _ => True
  | e :: es, s => ∀ s', step s e = some s' → C s e ∧ Meets C es s'

/-- The state after a run, if each of its events can happen. -/
def run : List E → S → Option S
  | [], s => some s
  | e :: es, s => (step s e).bind (run es)

variable {step} {P I : S → Prop} {A C : S → E → Prop}

theorem Throughout.head {es : List E} {s : S} (h : Throughout step P es s) :
  P s
  := by
  cases es with
  | nil => exact h
  | cons e es => exact h.1

/-- What holds throughout a run holds at its end. -/
theorem Throughout.run {es : List E} {s s' : S} (h : Throughout step P es s)
    (hrun : run step es s = some s') :
  P s'
  := by
  induction es generalizing s with
  | nil =>
      obtain rfl := Option.some.inj hrun
      exact h
  | cons e es ih =>
      obtain ⟨s₁, hs₁, hrest⟩ := Option.bind_eq_some_iff.mp hrun
      apply ih (h.2 s₁ hs₁) hrest

/-- A condition that every step meets is met by every run. -/
theorem meets_of_forall (h : ∀ s e, C s e) (es : List E) (s : S) :
  Meets step C es s
  := by
  induction es generalizing s with
  | nil => trivial
  | cons e es ih =>
      intro s' _
      exact ⟨h s e, ih s'⟩

/-- What every step that meets the condition keeps holds throughout a run of such steps. -/
theorem throughout_of_meets
    (hstep : ∀ {s s' : S} {e : E}, P s → C s e → step s e = some s' → P s')
    {s : S} (hP : P s) {es : List E} (hC : Meets step C es s) :
  Throughout step P es s
  := by
  induction es generalizing s with
  | nil => exact hP
  | cons e es ih =>
      constructor
      · exact hP
      · intro s' hs'
        obtain ⟨hCe, hrest⟩ := hC s' hs'
        apply ih (hstep hP hCe hs') hrest

theorem Throughout.mono {Q : S → Prop} (hPQ : ∀ s, P s → Q s) {es : List E} {s : S}
    (h : Throughout step P es s) :
  Throughout step Q es s
  := by
  induction es generalizing s with
  | nil => exact hPQ s h
  | cons e es ih => exact ⟨hPQ s h.1, fun s' hs' => ih (h.2 s' hs')⟩

theorem Meets.mono {D : S → E → Prop} (hCD : ∀ s e, C s e → D s e) {es : List E} {s : S}
    (h : Meets step C es s) :
  Meets step D es s
  := by
  induction es generalizing s with
  | nil => trivial
  | cons e es ih => exact fun s' hs' => ⟨hCD s e (h s' hs').1, ih (h s' hs').2⟩

/-- In a run whose steps meet `A`, the property holds throughout just if the steps meet `C`, when
this is so of each step from a state that satisfies the invariant. -/
theorem throughout_iff_meets_of
    (hstep : ∀ {s s' : S} {e : E}, I s → P s → A s e → step s e = some s' →
      (P s' ↔ C s e) ∧ (P s' → I s'))
    {s : S} (hI : I s) (hP : P s) {es : List E} (hA : Meets step A es s) :
  Throughout step P es s ↔ Meets step C es s
  := by
  induction es generalizing s with
  | nil => exact iff_of_true hP trivial
  | cons e es ih =>
      constructor
      · intro hrun s' hs'
        obtain ⟨hAe, hAes⟩ := hA s' hs'
        obtain ⟨hiff, hinv⟩ := hstep hI hP hAe hs'
        have hrest := hrun.2 s' hs'
        have hP' : P s' := hrest.head
        exact ⟨hiff.mp hP', (ih (hinv hP') hP' hAes).mp hrest⟩
      · intro hrun
        constructor
        · exact hP
        · intro s' hs'
          obtain ⟨hAe, hAes⟩ := hA s' hs'
          obtain ⟨hC, hrest⟩ := hrun s' hs'
          obtain ⟨hiff, hinv⟩ := hstep hI hP hAe hs'
          have hP' : P s' := hiff.mpr hC
          exact (ih (hinv hP') hP' hAes).mpr hrest

theorem throughout_iff_meets
    (hstep : ∀ {s s' : S} {e : E}, I s → P s → step s e = some s' →
      (P s' ↔ C s e) ∧ (P s' → I s'))
    {s : S} (hI : I s) (hP : P s) (es : List E) :
  Throughout step P es s ↔ Meets step C es s
  := by
  apply throughout_iff_meets_of (A := fun _ _ => True) _ hI hP
  · apply meets_of_forall
    intro _ _
    trivial
  · intro s s' e hI hP _ hs'
    apply hstep hI hP hs'

end Runs
