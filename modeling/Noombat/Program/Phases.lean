import Noombat.Program.Threads
import Noombat.Program.Past
import Mathlib.Logic.Function.Basic

/-!
# Phases of threads

A thread of a pool is in a phase, which its exchanges determine.  A phase fits the shared state
if what the thread in it relies on is so, and two phases are compatible if their threads do not
get in each other's way.  `Compatible.enter` says what is to be shown when a thread goes on to
another phase while the state changes: its new phase fits, and every other phase still fits and
is still compatible with it.  `Reaches.asked` says that each request of a thread was one that its task
lets it make after the exchanges before.
-/

variable {I : Interface} {σ τ Φ : Type}

/-! ### What the threads have asked -/

/-- A thread has made its requests only after the exchanges after which its task lets it. -/
theorem Reaches.asked {W : World I σ} {body : τ → Program I Unit} {C : StepCondition W τ}
    {Q : τ → List I.Exchange → I.Request → Prop}
    (hbody : ∀ t, Program.Asks (Q t) (fun _ _ => True) (body t) []) {s₀ : σ} {s : Pool I τ σ}
    (h : Reaches W body C (.initial s₀) s) {i : Nat} {t : τ} {p : Program I Unit}
    (hthread : s.threads[i]? = some ⟨t, p⟩) :
  Past.Throughout (fun x l => Q t l x.request) (s.history.trace i)
  := by
  let Inv : Pool I τ σ → Prop := fun s => ∀ i t p, s.threads[i]? = some ⟨t, p⟩ →
    Past.Throughout (fun x l => Q t l x.request) (s.history.trace i)
  suffices hinv : s.Disciplined Q ∧ Inv s from hinv.2 i t p hthread
  refine Step.inv_of_disciplined Inv hbody ?_ ?_ (Pool.initial_disciplined Q s₀) ?_ h
  · intro s t hdisc hs i t' p hp
    rcases Nat.lt_or_ge i s.threads.length with hi | hi
    · rw [List.getElem?_append_left hi] at hp
      exact hs i t' p hp
    · have htrace : s.history.trace i = [] := Step.trace_of_ge hdisc hi
      change Past.Throughout _ (s.history.trace i)
      rw [htrace]
      trivial
  · intro s i t q k c _ hs hthread hasked _ j t' p hp
    by_cases hij : i = j
    · subst hij
      have hlt := (List.getElem?_eq_some_iff.mp hthread).1
      have hset : (s.exchange W i t q k c).threads[i]? = some ⟨t, k (W.exec q c s.state).1⟩ := by
        simp [Pool.exchange, hlt]
      obtain ⟨rfl, _⟩ := Thread.mk.inj (Option.some.inj (hset.symm.trans hp))
      rw [Pool.trace_exchange_same]
      exact ⟨hasked, hs i t _ hthread⟩
    · rw [Pool.trace_exchange_other hij]
      apply hs j t' p
      rw [← hp, Pool.exchange, List.getElem?_set_ne hij]
  · intro i t p hp
    simp [Pool.initial] at hp

/-- What has happened stays in the history. -/
theorem Reaches.history {W : World I σ} {body : τ → Program I Unit} {C : StepCondition W τ}
    {s s' : Pool I τ σ} (h : Reaches W body C s s') :
  ∃ later, s'.history = later ++ s.history
  := by
  induction h with
  | refl => exact ⟨[], rfl⟩
  | tail _ hstep ih =>
      obtain ⟨later, hlater⟩ := ih
      cases hstep with
      | start t => exact ⟨later, hlater⟩
      | exchange i t q k c _ _ => exact ⟨_ :: later, congrArg _ hlater⟩

/-! ### Phases -/

/-- The phase after the exchanges given, the latest first. -/
def phaseOf (start : Φ) (next : Φ → I.Exchange → Φ) (l : List I.Exchange) : Φ :=
  l.foldr (fun x φ => next φ x) start

variable {start : Φ} {next : Φ → I.Exchange → Φ}

@[simp]
theorem phaseOf_nil :
  phaseOf start next ([] : List I.Exchange) = start
  := rfl

@[simp]
theorem phaseOf_cons (x : I.Exchange) (l : List I.Exchange) :
  phaseOf start next (x :: l) = next (phaseOf start next l) x
  := rfl

/-- The phases of the threads of a pool. -/
def Pool.phases (start : Φ) (next : Φ → I.Exchange → Φ) (s : Pool I τ σ) (i : Nat) : Φ :=
  phaseOf start next (s.history.trace i)

/-- An exchange changes the phase of its thread. -/
theorem Pool.phases_exchange (W : World I σ) (s : Pool I τ σ) (i : Nat) (t : τ) (q : I.Request)
    (k : I.Answer q → Program I Unit) (c : W.Choice q) :
  (s.exchange W i t q k c).phases start next =
    Function.update (s.phases start next) i
      (next (s.phases start next i) ⟨q, (W.exec q c s.state).1⟩)
  := by
  funext j
  by_cases hj : j = i
  · subst hj
    rw [Function.update_self, phases, Pool.trace_exchange_same, phaseOf_cons]
    rfl
  · rw [Function.update_of_ne hj, phases, Pool.trace_exchange_other (Ne.symm hj)]
    rfl

/-- The phases fit the state, and those of different threads are apart. -/
structure Compatible (Fits : σ → Φ → Prop) (Apart : Φ → Φ → Prop) (s : σ) (φ : Nat → Φ) :
    Prop where
  fits : ∀ i, Fits s (φ i)
  apart : ∀ i j, i ≠ j → Apart (φ i) (φ j)

variable {Fits : σ → Φ → Prop} {Apart : Φ → Φ → Prop} {s s' : σ} {φ : Nat → Φ}

/-- A thread goes on to the phase `ψ`, while the state becomes `s'`. -/
theorem Compatible.enter (h : Compatible Fits Apart s φ) (i : Nat) {ψ : Φ} (hψ : Fits s' ψ)
    (hothers : ∀ φ', Fits s φ' → Apart (φ i) φ' → Apart φ' (φ i) →
      Fits s' φ' ∧ Apart ψ φ' ∧ Apart φ' ψ) :
  Compatible Fits Apart s' (Function.update φ i ψ)
  := by
  have hother : ∀ j, j ≠ i → Fits s' (φ j) ∧ Apart ψ (φ j) ∧ Apart (φ j) ψ := by
    intro j hj
    apply hothers _ (h.fits j) (h.apart i j (Ne.symm hj)) (h.apart j i hj)
  constructor
  · intro j
    by_cases hj : j = i
    · subst hj
      rw [Function.update_self]
      exact hψ
    · rw [Function.update_of_ne hj]
      exact (hother j hj).1
  · intro j j' hne
    by_cases hj : j = i
    · subst hj
      rw [Function.update_self, Function.update_of_ne (Ne.symm hne)]
      exact (hother j' (Ne.symm hne)).2.1
    · rw [Function.update_of_ne hj]
      by_cases hj' : j' = i
      · subst hj'
        rw [Function.update_self]
        exact (hother j hj).2.2
      · rw [Function.update_of_ne hj']
        apply h.apart j j' hne
