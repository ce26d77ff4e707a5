import Noombat.Program.Basic

/-!
# Programs that may fail

A fallible program over an interface ends in a result or in an error.  An error ends the
whole program, unless it is observed with `attempt`.  The rules of `Program.wp`,
`Program.Every` are extended to fallible programs; a postcondition of
a fallible program is one on `Except`, given separately on results and on errors by
`onExcept`.
-/

/-- A program over the interface `I` with results in `α` or errors in `ε`. -/
abbrev Fallible (I : Interface) (ε α : Type) : Type :=
  ExceptT ε (Program I) α

/-- The interface all of whose requests may fail with an error in `ε`, and otherwise are
answered with the results given. -/
abbrev Interface.fallible (ε Request : Type) (Result : Request → Type) : Interface :=
  ⟨Request, fun q => Except ε (Result q)⟩

/-- The world whose requests may fail, with any error, and then change nothing; for a
request that does not fail the environment makes a choice, if there is one. -/
def World.failing (ε : Type) {Request σ : Type} {Result Choice : Request → Type}
    (exec : (q : Request) → Choice q → σ → Except ε (Result q) × σ) :
    World (Interface.fallible ε Request Result) σ where
  Choice q := Except ε (Choice q)
  exec q c s :=
    match c with
    | .error e => (.error e, s)
    | .ok c => exec q c s

variable {I : Interface} {ε α β σ : Type}

namespace Fallible

open Program

/-- The program that makes one request, and fails if the request does. -/
def ask {Request : Type} {Result : Request → Type} (q : Request) :
    Fallible (Interface.fallible ε Request Result) ε (Result q) :=
  ExceptT.mk (request (I := Interface.fallible ε Request Result) q)

/-- The program that runs `p` and returns how it ended. -/
def attempt (p : Fallible I ε α) : Fallible I ε (Except ε α) :=
  ExceptT.lift p.run

/-- The program that cannot fail, as one that may. -/
def lift (p : Program I α) : Fallible I ε α :=
  ExceptT.lift p

/-- The result of a program, or a default if it fails. -/
def unwrapOr (default : α) (p : Fallible I ε α) : Fallible I ε α := do
  let r ← attempt p
  match r with
  | .ok a => return a
  | .error _ => return default

/-- The postcondition that is `Post` on results and `Err` on errors. -/
def onExcept (Post : α → σ → Prop) (Err : ε → σ → Prop) : Except ε α → σ → Prop
  | .ok a => Post a
  | .error e => Err e

@[simp]
theorem onExcept_ok (Post : α → σ → Prop) (Err : ε → σ → Prop) (a : α) :
  onExcept Post Err (.ok a) = Post a
  := rfl

@[simp]
theorem onExcept_error (Post : α → σ → Prop) (Err : ε → σ → Prop) (e : ε) :
  onExcept Post Err (.error e) = Err e
  := rfl

/-- Running a sequence is running its first program and, if that gives a result, its
second. -/
theorem run_bind (p : Fallible I ε α) (f : α → Fallible I ε β) :
  (p >>= f).run = p.run >>= fun r =>
    match r with
    | .ok a => (f a).run
    | .error e => done (.error e)
  := rfl

theorem run_pure (a : α) :
  (pure a : Fallible I ε α).run = done (.ok a)
  := rfl

theorem run_throw (e : ε) :
  (throw e : Fallible I ε α).run = done (.error e)
  := rfl

theorem run_lift (p : Program I α) :
  (lift p : Fallible I ε α).run = p >>= fun a => done (.ok a)
  := rfl

theorem run_attempt (p : Fallible I ε α) :
  (attempt p).run = p.run >>= fun r => done (.ok r)
  := rfl

theorem run_ask {Request : Type} {Result : Request → Type} (q : Request) :
  (ask q : Fallible (Interface.fallible ε Request Result) ε (Result q)).run =
    call (I := Interface.fallible ε Request Result) q done
  := rfl

theorem run_ofExcept (r : Except ε α) :
  (MonadExcept.ofExcept r : Fallible I ε α).run = done r
  := by
  cases r with
  | error e => rfl
  | ok a => rfl

/-- A result or a default is what the program has ended with, or the default. -/
theorem run_unwrapOr (default : α) (p : Fallible I ε α) :
  (unwrapOr default p).run = p.run >>= fun r => done (.ok (r.toOption.getD default))
  := by
  rw [unwrapOr, run_bind, run_attempt, bind_assoc]
  congr 1
  funext r
  cases r with
  | error e => rfl
  | ok a => rfl

/-! ### Weakest preconditions -/

variable {W : World I σ} {C : Condition W}

@[simp]
theorem wp_run_bind (Post : Except ε β → σ → Prop) (p : Fallible I ε α)
    (f : α → Fallible I ε β) (s : σ) :
  wp W C Post (p >>= f).run s ↔
    wp W C (onExcept (fun a s' => wp W C Post (f a).run s') (fun e => Post (.error e))) p.run s
  := by
  rw [run_bind, wp_bind]
  constructor
  all_goals
    apply wp_mono
    rintro (e | a) s' h
    all_goals simpa using h

@[simp]
theorem wp_run_lift (Post : Except ε α → σ → Prop) (p : Program I α) (s : σ) :
  wp W C Post (lift p : Fallible I ε α).run s ↔ wp W C (fun a => Post (.ok a)) p s
  := by
  simp only [run_lift, wp_bind, wp_done]

@[simp]
theorem wp_run_attempt (Post : Except ε (Except ε α) → σ → Prop) (p : Fallible I ε α) (s : σ) :
  wp W C Post (attempt p).run s ↔ wp W C (fun r => Post (.ok r)) p.run s
  := by
  simp only [run_attempt, wp_bind, wp_done]

@[simp]
theorem wp_run_pure (Post : Except ε α → σ → Prop) (a : α) (s : σ) :
  wp W C Post (pure a : Fallible I ε α).run s ↔ Post (.ok a) s
  := by
  rw [run_pure, wp_done]

@[simp]
theorem wp_run_throw (Post : Except ε α → σ → Prop) (e : ε) (s : σ) :
  wp W C Post (throw e : Fallible I ε α).run s ↔ Post (.error e) s
  := by
  rw [run_throw, wp_done]

@[simp]
theorem wp_run_ask {Request : Type} {Result : Request → Type}
    {W : World (Interface.fallible ε Request Result) σ} {C : Condition W} (q : Request)
    (Post : Except ε (Result q) → σ → Prop) (s : σ) :
  wp W C Post (ask q).run s ↔ ∀ c, C q c s → Post (W.exec q c s).1 (W.exec q c s).2
  := by
  simp only [run_ask, wp_call, wp_done]

/-- A request fails and changes nothing, or it takes effect. -/
theorem wp_run_ask_failing {Request : Type} {Result Choice : Request → Type}
    {exec : (q : Request) → Choice q → σ → Except ε (Result q) × σ}
    {C : Condition (World.failing ε exec)} (q : Request)
    {Post : Except ε (Result q) → σ → Prop} {s : σ}
    (herror : ∀ e, C q (.error e) s → Post (.error e) s)
    (hok : ∀ c, C q (.ok c) s → Post (exec q c s).1 (exec q c s).2) :
  wp (World.failing ε exec) C Post (ask q).run s
  := by
  apply (wp_run_ask (W := World.failing ε exec) q Post s).mpr
  rintro (e | c) hc
  · apply herror e hc
  · apply hok c hc

/-- An invariant that both programs of a sequence keep is kept by the sequence. -/
theorem wp_run_bind_inv {Inv : σ → Prop} {p : Fallible I ε α} {f : α → Fallible I ε β} {s : σ}
    (hp : wp W C (fun _ s' => Inv s') p.run s)
    (hf : ∀ a s', Inv s' → wp W C (fun _ s'' => Inv s'') (f a).run s') :
  wp W C (fun _ s' => Inv s') (p >>= f).run s
  := by
  rw [wp_run_bind]
  apply wp_mono _ hp
  rintro (e | a) s' hs'
  · apply hs'
  · apply hf a s' hs'

/-- If each turn of a loop takes the invariant of the elements left before it to that of
the elements left after it, then the whole loop does. -/
theorem wp_run_forM (Inv : List β → σ → Prop) {Err : ε → σ → Prop} {f : β → Fallible I ε Unit}
    (turn : ∀ x xs s, Inv (x :: xs) s → wp W C (onExcept (fun _ => Inv xs) Err) (f x).run s)
    {xs : List β} {s : σ} (h : Inv xs s) :
  wp W C (onExcept (fun _ => Inv []) Err) (forM xs f : Fallible I ε PUnit).run s
  := by
  induction xs generalizing s with
  | nil =>
      rw [List.forM_nil, wp_run_pure]
      apply h
  | cons x xs ih =>
      rw [List.forM_cons, wp_run_bind]
      apply wp_mono _ (turn x xs s h)
      rintro (e | _) s' hs'
      · apply hs'
      · apply ih hs'

/-! ### The requests of a program -/

variable {P : I.Request → Prop}

@[simp]
theorem every_run_pure (a : α) :
  Every P (pure a : Fallible I ε α).run
  := by
  rw [run_pure]
  apply every_done

@[simp]
theorem every_run_throw (e : ε) :
  Every P (throw e : Fallible I ε α).run
  := by
  rw [run_throw]
  apply every_done

theorem every_run_bind {p : Fallible I ε α} {f : α → Fallible I ε β}
    (hp : Every P p.run) (hf : ∀ a, Every P (f a).run) :
  Every P (p >>= f).run
  := by
  rw [run_bind]
  apply every_bind hp
  rintro (e | a)
  · apply every_done
  · apply hf

theorem every_run_ofExcept (r : Except ε α) :
  Every P (MonadExcept.ofExcept r : Fallible I ε α).run
  := by
  rw [run_ofExcept]
  apply every_done

theorem every_run_attempt {p : Fallible I ε α} (hp : Every P p.run) :
  Every P (attempt p).run
  := every_bind hp (fun _ => every_done _)

@[simp]
theorem every_run_ask {Request : Type} {Result : Request → Type} {P : Request → Prop}
    (q : Request) :
  Every P (ask q : Fallible (Interface.fallible ε Request Result) ε (Result q)).run ↔ P q
  := by
  rw [run_ask, every_call]
  simp

theorem every_run_forM {f : β → Fallible I ε Unit} {xs : List β}
    (hf : ∀ x ∈ xs, Every P (f x).run) :
  Every P (forM xs f : Fallible I ε PUnit).run
  := by
  induction xs with
  | nil =>
      rw [List.forM_nil]
      apply every_run_pure
  | cons x xs ih =>
      rw [List.forM_cons]
      apply every_run_bind (hf x List.mem_cons_self)
      intro _
      apply ih
      intro y hy
      apply hf y (List.mem_cons_of_mem x hy)

end Fallible
