import Mathlib.Logic.Basic

/-!
# Programs over an interface

A program over an interface either is done with a result, or makes a request of the
interface and goes on with the answer.  A world says how requests are answered: for each
request there is a type of choices, made by the environment, and a choice determines the
answer and the next state.  A script makes all the choices of one run.

`Program.wp C Post p s` says that every run of `p` from `s` ends in a result and a state
satisfying `Post`, provided that every request it makes meets the condition `C` at the
state and for the choice it is made with.  `Program.Every P p` says that every request
`p` may make satisfies `P`.
-/

/-- The requests a program may make, and the answers they are given. -/
structure Interface where
  Request : Type
  Answer : Request → Type

/-- A program over the interface `I` with results in `α`. -/
inductive Program (I : Interface) (α : Type) : Type where
  | done : α → Program I α
  | call : (q : I.Request) → (I.Answer q → Program I α) → Program I α

/-- How the requests of `I` are answered in states of type `σ`. -/
structure World (I : Interface) (σ : Type) where
  Choice : I.Request → Type
  exec : (q : I.Request) → Choice q → σ → I.Answer q × σ

namespace Program

variable {I : Interface} {α β γ σ : Type}

/-! ### The monad -/

/-- The program that runs `p` and then `f` on its result. -/
def bind : Program I α → (α → Program I β) → Program I β
  | done a, f => f a
  | call q k, f => call q (fun r => (k r).bind f)

instance : Monad (Program I) where
  pure := done
  bind := bind

/-- The program that makes one request and returns the answer. -/
def request (q : I.Request) : Program I (I.Answer q) :=
  call q done

@[simp]
theorem pure_eq (a : α) :
  (pure a : Program I α) = done a
  := rfl

@[simp]
theorem done_bind (a : α) (f : α → Program I β) :
  (done a >>= f) = f a
  := rfl

@[simp]
theorem call_bind (q : I.Request) (k : I.Answer q → Program I α) (f : α → Program I β) :
  (call q k >>= f) = call q (fun r => k r >>= f)
  := rfl

@[simp]
theorem request_bind (q : I.Request) (f : I.Answer q → Program I β) :
  (request q >>= f) = call q f
  := rfl

/-- Binding `done` changes nothing. -/
theorem bind_done (p : Program I α) :
  (p >>= done) = p
  := by
  induction p with
  | done a => rfl
  | call q k ih =>
      rw [call_bind]
      congr 1
      funext r
      apply ih

theorem bind_assoc (p : Program I α) (f : α → Program I β) (g : β → Program I γ) :
  (p >>= f >>= g) = (p >>= fun a => f a >>= g)
  := by
  induction p with
  | done a => rfl
  | call q k ih =>
      simp only [call_bind]
      congr 1
      funext r
      apply ih

instance : LawfulMonad (Program I) :=
  LawfulMonad.mk' (Program I) bind_done (fun _ _ => rfl) bind_assoc

/-! ### Runs -/

/-- A script makes every choice of a run: the `n`-th request `q` is answered with the
choice `script n q`. -/
abbrev Script (W : World I σ) : Type :=
  Nat → (q : I.Request) → W.Choice q

/-- The result and the final state of the run of a program under a script whose first
`n` choices have been used. -/
def runFrom (W : World I σ) (script : Script W) : Nat → Program I α → σ → α × σ
  | _, done a, s => (a, s)
  | n, call q k, s =>
      let r := W.exec q (script n q) s
      runFrom W script (n + 1) (k r.1) r.2

/-- The result and the final state of the run of a program under a script. -/
def run (W : World I σ) (script : Script W) (p : Program I α) (s : σ) : α × σ :=
  runFrom W script 0 p s

/-- A condition on the steps of a run: on a request, the choice that answers it and the
state it is made in. -/
abbrev Condition (W : World I σ) : Type :=
  (q : I.Request) → W.Choice q → σ → Prop

/-- Every step of the run under a script whose first `n` choices have been used meets
the condition `C`. -/
def AlongFrom (W : World I σ) (C : Condition W) (script : Script W) :
    Nat → Program I α → σ → Prop
  | _, done _, _ => True
  | n, call q k, s =>
      C q (script n q) s ∧
        AlongFrom W C script (n + 1) (k (W.exec q (script n q) s).1)
          (W.exec q (script n q) s).2

/-- Every step of the run under a script meets the condition `C`. -/
def Along (W : World I σ) (C : Condition W) (script : Script W) (p : Program I α) (s : σ) :
    Prop :=
  AlongFrom W C script 0 p s

/-- The number of choices that are used when a program ends. -/
def usedFrom (W : World I σ) (script : Script W) : Nat → Program I α → σ → Nat
  | n, done _, _ => n
  | n, call q k, s =>
      let r := W.exec q (script n q) s
      usedFrom W script (n + 1) (k r.1) r.2

section Sequence

variable {W : World I σ} {C : Condition W} {script : Script W} (f : α → Program I β)

/-- The run of a sequence is that of its first program, and then that of its second. -/
theorem runFrom_bind : ∀ (n : Nat) (p : Program I α) (s : σ),
    runFrom W script n (p >>= f) s =
      runFrom W script (usedFrom W script n p s) (f (runFrom W script n p s).1)
        (runFrom W script n p s).2
  | _, done _, _ => rfl
  | n, call _ _, _ => runFrom_bind (n + 1) _ _

end Sequence

/-! ### Weakest preconditions -/

/-- Every run of a program whose steps meet `C` ends in a result and a state satisfying
`Post`. -/
def wp (W : World I σ) (C : Condition W) (Post : α → σ → Prop) : Program I α → σ → Prop
  | done a, s => Post a s
  | call q k, s => ∀ c : W.Choice q, C q c s →
      wp W C Post (k (W.exec q c s).1) (W.exec q c s).2

variable {W : World I σ} {C : Condition W}

@[simp]
theorem wp_done (Post : α → σ → Prop) (a : α) (s : σ) :
  wp W C Post (done a) s ↔ Post a s
  := Iff.rfl

@[simp]
theorem wp_call (Post : α → σ → Prop) (q : I.Request) (k : I.Answer q → Program I α) (s : σ) :
  wp W C Post (call q k) s ↔
    ∀ c : W.Choice q, C q c s → wp W C Post (k (W.exec q c s).1) (W.exec q c s).2
  := Iff.rfl

/-- The weakest precondition of a sequence is that of its first program for the weakest
precondition of the second. -/
@[simp]
theorem wp_bind (Post : β → σ → Prop) (p : Program I α) (f : α → Program I β) (s : σ) :
  wp W C Post (p >>= f) s ↔ wp W C (fun a s' => wp W C Post (f a) s') p s
  := by
  induction p generalizing s with
  | done a => rfl
  | call q k ih =>
      rw [call_bind, wp_call, wp_call]
      apply forall_congr'
      intro c
      rw [ih]

theorem wp_mono {Post Post' : α → σ → Prop} (h : ∀ a s, Post a s → Post' a s) :
    ∀ {p : Program I α} {s : σ}, wp W C Post p s → wp W C Post' p s
  | done a, s, hp => h a s hp
  | call _ _, _, hp => fun c hc => wp_mono h (hp c hc)

/-- Two postconditions that every run establishes are established together. -/
theorem wp_and {Post Post' : α → σ → Prop} :
    ∀ {p : Program I α} {s : σ}, wp W C Post p s → wp W C Post' p s →
      wp W C (fun a s' => Post a s' ∧ Post' a s') p s
  | done _, _, hp, hp' => ⟨hp, hp'⟩
  | call _ _, _, hp, hp' => fun c hc => wp_and (hp c hc) (hp' c hc)

theorem wp_true (p : Program I α) (s : σ) :
  wp W C (fun _ _ => True) p s
  := by
  induction p generalizing s with
  | done a => trivial
  | call q k ih =>
      intro c _
      apply ih

theorem wp_runFrom {Post : α → σ → Prop} (script : Script W) :
    ∀ (n : Nat) {p : Program I α} {s : σ}, wp W C Post p s → AlongFrom W C script n p s →
      Post (runFrom W script n p s).1 (runFrom W script n p s).2
  | _, done _, _, hp, _ => hp
  | n, call q _, _, hp, hC => wp_runFrom script (n + 1) (hp (script n q) hC.1) hC.2

/-- A run whose steps meet the condition ends as the weakest precondition says. -/
theorem wp_run {Post : α → σ → Prop} {script : Script W} {p : Program I α} {s : σ}
    (hp : wp W C Post p s) (hC : Along W C script p s) :
  Post (run W script p s).1 (run W script p s).2
  := wp_runFrom script 0 hp hC

/-- The condition every step meets. -/
def Always (W : World I σ) : Condition W :=
  fun _ _ _ => True

theorem alongFrom_always (script : Script W) :
    ∀ (n : Nat) (p : Program I α) (s : σ), AlongFrom W (Always W) script n p s
  | _, done _, _ => trivial
  | n, call _ _, _ => ⟨trivial, alongFrom_always script (n + 1) _ _⟩

/-- Without a condition, every run ends as the weakest precondition says. -/
theorem wp_run_always {Post : α → σ → Prop} {script : Script W} {p : Program I α} {s : σ}
    (hp : wp W (Always W) Post p s) :
  Post (run W script p s).1 (run W script p s).2
  := wp_run hp (alongFrom_always script 0 p s)

/-! ### The requests of a program -/

/-- Every request a program may make satisfies `P`. -/
def Every (P : I.Request → Prop) : Program I α → Prop
  | done _ => True
  | call q k => P q ∧ ∀ r, Every P (k r)

variable {P : I.Request → Prop}

@[simp]
theorem every_done (a : α) :
  Every P (done a : Program I α)
  := trivial

@[simp]
theorem every_call (q : I.Request) (k : I.Answer q → Program I α) :
  Every P (call q k) ↔ P q ∧ ∀ r, Every P (k r)
  := Iff.rfl

theorem every_bind {p : Program I α} {f : α → Program I β}
    (hp : Every P p) (hf : ∀ a, Every P (f a)) :
  Every P (p >>= f)
  := by
  induction p with
  | done a => apply hf
  | call q k ih =>
      constructor
      · apply hp.1
      · intro r
        apply ih r (hp.2 r)

theorem Every.mono {P' : I.Request → Prop} (h : ∀ q, P q → P' q) :
    ∀ {p : Program I α}, Every P p → Every P' p
  | done _, _ => trivial
  | call q _, hp => ⟨h q hp.1, fun r => Every.mono h (hp.2 r)⟩

theorem every_true (p : Program I α) :
  Every (fun _ => True) p
  := by
  induction p with
  | done a => trivial
  | call q k ih => exact ⟨trivial, ih⟩

/-- If every request of a program, made in any state, moves the state along the
reflexive and transitive relation `G`, then so does every run of the program. -/
theorem Every.wp_rel {G : σ → σ → Prop} (refl : ∀ s, G s s)
    (trans : ∀ {s s' s''}, G s s' → G s' s'' → G s s'')
    (step : ∀ q, P q → ∀ c s, C q c s → G s (W.exec q c s).2) :
    ∀ {p : Program I α} (_ : Every P p) (s : σ), wp W C (fun _ s' => G s s') p s
  | done _, _, s => refl s
  | call q _, hp, s => by
      intro c hc
      apply wp_mono _ (Every.wp_rel refl trans step (hp.2 _) _)
      intro _ s' hs'
      apply trans (step q hp.1 c s hc) hs'

/-- What every request of a program preserves, every run of the program does. -/
theorem Every.wp_inv (Inv : σ → Prop)
    (step : ∀ q, P q → ∀ c s, C q c s → Inv s → Inv (W.exec q c s).2)
    {p : Program I α} (h : Every P p) {s : σ} (hs : Inv s) :
  wp W C (fun _ s' => Inv s') p s
  := by
  apply wp_mono _ (Every.wp_rel (C := C) (G := fun s s' => Inv s → Inv s') _ _ step h s)
  · intro _ s' hs'
    apply hs' hs
  · intro s hs
    exact hs
  · intro s s' s'' h h' hs
    exact h' (h hs)

/-- If a condition is met by every step with a request that satisfies `P`, it is met along
every run of a program that makes only such requests. -/
theorem Every.along {script : Script W} (step : ∀ q c s, P q → C q c s) :
    ∀ (n : Nat) {p : Program I α} (_ : Every P p) (s : σ), AlongFrom W C script n p s
  | _, done _, _, _ => trivial
  | n, call q _, hp, s => ⟨step q _ s hp.1, Every.along step (n + 1) (hp.2 _) _⟩

/-- A condition that a script meets whatever the state is met along its runs. -/
theorem alongFrom_of_script {script : Script W} (h : ∀ n q s, C q (script n q) s) :
    ∀ (n : Nat) (p : Program I α) (s : σ), AlongFrom W C script n p s
  | _, done _, _ => trivial
  | n, call q _, s => ⟨h n q s, alongFrom_of_script h (n + 1) _ _⟩

instance AlongFrom.decidable [∀ q c s, Decidable (C q c s)] (script : Script W) :
    ∀ (n : Nat) (p : Program I α) (s : σ), Decidable (AlongFrom W C script n p s)
  | _, done _, _ => isTrue trivial
  | n, call q k, s =>
      have := AlongFrom.decidable script (n + 1) (k (W.exec q (script n q) s).1)
        (W.exec q (script n q) s).2
      inferInstanceAs (Decidable (_ ∧ _))

instance Along.decidable [∀ q c s, Decidable (C q c s)] (script : Script W) (p : Program I α)
    (s : σ) : Decidable (Along W C script p s) :=
  AlongFrom.decidable script 0 p s

/-- Two conditions that are met along a run are met together. -/
theorem AlongFrom.and {C C' : Condition W} {script : Script W} :
    ∀ {n : Nat} {p : Program I α} {s : σ}, AlongFrom W C script n p s →
      AlongFrom W C' script n p s → AlongFrom W (fun q c s => C q c s ∧ C' q c s) script n p s
  | _, done _, _, _, _ => trivial
  | _, call _ _, _, h, h' => ⟨⟨h.1, h'.1⟩, AlongFrom.and h.2 h'.2⟩

theorem AlongFrom.mono {C C' : Condition W} (h : ∀ q c s, C q c s → C' q c s)
    {script : Script W} :
    ∀ {n : Nat} {p : Program I α} {s : σ}, AlongFrom W C script n p s →
      AlongFrom W C' script n p s
  | _, done _, _, _ => trivial
  | _, call _ _, _, hC => ⟨h _ _ _ hC.1, AlongFrom.mono h hC.2⟩

-- from here on programs are reasoned about with the rules above
attribute [irreducible] wp Every

end Program

/-! ### What a run asked and was told -/

/-- A request together with the answer it was given. -/
structure Interface.Exchange (I : Interface) where
  request : I.Request
  answer : I.Answer request

/-- The world `W` with a record of the exchanges, the latest first. -/
def World.traced {I : Interface} {σ : Type} (W : World I σ) :
    World I (σ × List I.Exchange) where
  Choice := W.Choice
  exec q c s :=
    let r := W.exec q c s.1
    (r.1, r.2, ⟨q, r.1⟩ :: s.2)

/-- The world `W` with a record of the exchanges and of the states they took place in, the
latest first. -/
def World.filmed {I : Interface} {σ : Type} (W : World I σ) :
    World I (σ × List (σ × I.Exchange)) where
  Choice := W.Choice
  exec q c s :=
    let r := W.exec q c s.1
    (r.1, r.2, (s.1, ⟨q, r.1⟩) :: s.2)

/-- What every run establishes of the state, every recorded run does. -/
theorem Program.wp_traced {I : Interface} {α σ : Type} {W : World I σ} {C : Condition W}
    {Post : α → σ → Prop} {p : Program I α} {s : σ} (h : wp W C Post p s)
    (log : List I.Exchange) :
  wp W.traced (fun q c s => C q c s.1) (fun a s' => Post a s'.1) p (s, log)
  := by
  induction p generalizing s log with
  | done a => exact (wp_done _ _ _).mpr ((wp_done _ _ _).mp h)
  | call q k ih =>
      apply (wp_call _ _ _ _).mpr
      intro c hc
      apply ih _ ((wp_call _ _ _ _).mp h c hc)
