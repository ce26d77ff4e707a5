import Noombat.Program.Fallible
import Mathlib.Algebra.Ring.Nat
import Mathlib.Logic.Relation

/-!
# Threads and their history

Threads run programs over one interface and share the state of a world.  Each thread works
on a task, which determines its program.  At every moment a new thread may start, or some
thread makes its next request, which the world answers at once.  The history records every
exchange, with the thread that made it.

`Program.Asks Q Post p l` says of a program that has had the exchanges `l` that it makes a
request `q` only after exchanges `l'` with `Q l' q`, and is done only after exchanges
satisfying `Post`.  What the threads do is thus said once, by a predicate `Q`, and
`Step.inv` derives from it what all of them preserve together.
-/

variable {I : Interface} {α β σ τ : Type}

/-- An exchange of a thread that works on a task. -/
structure Interface.Event (I : Interface) (τ : Type) where
  thread : Nat
  task : τ
  exchange : I.Exchange

/-- The events so far, the latest first. -/
abbrev Interface.History (I : Interface) (τ : Type) : Type :=
  List (I.Event τ)

/-- The exchanges of one thread, the latest first. -/
def Interface.History.trace (h : I.History τ) (i : Nat) : List I.Exchange :=
  (h.filter (·.thread == i)).map (·.exchange)

/-- What is left to run of a thread. -/
structure Thread (I : Interface) (τ : Type) where
  task : τ
  rest : Program I Unit

/-- The threads that have started, the state they share, and what has happened. -/
structure Pool (I : Interface) (τ σ : Type) where
  threads : List (Thread I τ)
  state : σ
  history : I.History τ

/-- A condition on the steps of a pool: on the thread, its task, its request, the choice
that answers it, and the pool before. -/
abbrev StepCondition (W : World I σ) (τ : Type) : Type :=
  (i : Nat) → (t : τ) → (q : I.Request) → W.Choice q → Pool I τ σ → Prop

/-- The pool after the thread `i` has made the request `q` and goes on as `k`. -/
def Pool.exchange (W : World I σ) (i : Nat) (t : τ) (q : I.Request)
    (k : I.Answer q → Program I Unit) (c : W.Choice q) (s : Pool I τ σ) : Pool I τ σ where
  threads := s.threads.set i ⟨t, k (W.exec q c s.state).1⟩
  state := (W.exec q c s.state).2
  history := ⟨i, t, q, (W.exec q c s.state).1⟩ :: s.history

/-- A thread starts on a task, or a thread makes its next request, meeting the condition. -/
inductive Step (W : World I σ) (body : τ → Program I Unit) (C : StepCondition W τ) :
    Pool I τ σ → Pool I τ σ → Prop where
  | start (s : Pool I τ σ) (t : τ) :
      Step W body C s { s with threads := s.threads ++ [⟨t, body t⟩] }
  | exchange (s : Pool I τ σ) (i : Nat) (t : τ) (q : I.Request)
      (k : I.Answer q → Program I Unit) (c : W.Choice q) :
      s.threads[i]? = some ⟨t, .call q k⟩ → C i t q c s → Step W body C s (s.exchange W i t q k c)

/-- One pool can become another. -/
abbrev Reaches (W : World I σ) (body : τ → Program I Unit) (C : StepCondition W τ) :
    Pool I τ σ → Pool I τ σ → Prop :=
  Relation.ReflTransGen (Step W body C)

/-- Before any thread has started. -/
def Pool.initial (s : σ) : Pool I τ σ :=
  ⟨[], s, []⟩

/-- What can be reached under a condition can be reached under a weaker one. -/
theorem Reaches.mono {W : World I σ} {body : τ → Program I Unit} {C C' : StepCondition W τ}
    (hC : ∀ i t q c s, C i t q c s → C' i t q c s) {s s' : Pool I τ σ}
    (h : Reaches W body C s s') :
  Reaches W body C' s s'
  := by
  induction h with
  | refl => exact .refl
  | tail _ hstep ih =>
      apply ih.tail
      cases hstep with
      | start t => apply Step.start
      | exchange i t q k c hthread hstep => exact .exchange _ i t q k c hthread (hC i t q c _ hstep)

namespace Program

/-! ### What a program asks -/

/-- After the exchanges `l`, a program makes a request only when `Q` holds of it and the
exchanges before, and is done only when `Post` holds. -/
def Asks (Q : List I.Exchange → I.Request → Prop) (Post : α → List I.Exchange → Prop) :
    Program I α → List I.Exchange → Prop
  | done a, l => Post a l
  | call q k, l => Q l q ∧ ∀ r, Asks Q Post (k r) (⟨q, r⟩ :: l)

variable {Q : List I.Exchange → I.Request → Prop}

@[simp]
theorem asks_done (Post : α → List I.Exchange → Prop) (a : α) (l : List I.Exchange) :
  Asks Q Post (done a) l ↔ Post a l
  := Iff.rfl

@[simp]
theorem asks_call (Post : α → List I.Exchange → Prop) (q : I.Request)
    (k : I.Answer q → Program I α) (l : List I.Exchange) :
  Asks Q Post (call q k) l ↔ Q l q ∧ ∀ r, Asks Q Post (k r) (⟨q, r⟩ :: l)
  := Iff.rfl

@[simp]
theorem asks_bind (Post : β → List I.Exchange → Prop) (p : Program I α) (f : α → Program I β)
    (l : List I.Exchange) :
  Asks Q Post (p >>= f) l ↔ Asks Q (fun a l' => Asks Q Post (f a) l') p l
  := by
  induction p generalizing l with
  | done a => rfl
  | call q k ih =>
      rw [call_bind, asks_call, asks_call]
      apply and_congr Iff.rfl
      apply forall_congr'
      intro r
      apply ih

theorem Asks.mono {Post Post' : α → List I.Exchange → Prop} (h : ∀ a l, Post a l → Post' a l) :
    ∀ {p : Program I α} {l : List I.Exchange}, Asks Q Post p l → Asks Q Post' p l
  | done a, l, hp => h a l hp
  | call _ _, _, hp => ⟨hp.1, fun r => Asks.mono h (hp.2 r)⟩

/-- If every request of a program is allowed whenever the exchanges satisfy `Inv`, and keeps
them so, then the program asks what it may. -/
theorem Every.asks {P : I.Request → Prop} (Inv : List I.Exchange → Prop)
    (step : ∀ q l, P q → Inv l → Q l q ∧ ∀ r, Inv (⟨q, r⟩ :: l))
    {p : Program I α} (hp : Every P p) {l : List I.Exchange} (hl : Inv l) :
  Asks Q (fun _ l' => Inv l') p l
  := by
  induction p generalizing l with
  | done a => exact hl
  | call q k ih =>
      obtain ⟨hq, hk⟩ := (every_call q k).mp hp
      obtain ⟨hallowed, hkept⟩ := step q l hq hl
      constructor
      · exact hallowed
      · intro r
        apply ih r (hk r) (hkept r)

end Program

namespace Fallible

open Program

variable {ε : Type} {Q : List I.Exchange → I.Request → Prop}

@[simp]
theorem asks_run_bind (Post : Except ε β → List I.Exchange → Prop) (p : Fallible I ε α)
    (f : α → Fallible I ε β) (l : List I.Exchange) :
  Asks Q Post (p >>= f).run l ↔
    Asks Q (onExcept (fun a l' => Asks Q Post (f a).run l') (fun e => Post (.error e))) p.run l
  := by
  rw [run_bind, asks_bind]
  constructor
  all_goals
    apply Asks.mono
    rintro (e | a) l' h
    all_goals simpa using h

@[simp]
theorem asks_run_pure (Post : Except ε α → List I.Exchange → Prop) (a : α)
    (l : List I.Exchange) :
  Asks Q Post (pure a : Fallible I ε α).run l ↔ Post (.ok a) l
  := by
  rw [run_pure, asks_done]

@[simp]
theorem asks_run_throw (Post : Except ε α → List I.Exchange → Prop) (e : ε)
    (l : List I.Exchange) :
  Asks Q Post (throw e : Fallible I ε α).run l ↔ Post (.error e) l
  := by
  rw [run_throw, asks_done]

@[simp]
theorem asks_run_ofExcept (Post : Except ε α → List I.Exchange → Prop) (r : Except ε α)
    (l : List I.Exchange) :
  Asks Q Post (MonadExcept.ofExcept r : Fallible I ε α).run l ↔ Post r l
  := by
  rw [run_ofExcept, asks_done]

@[simp]
theorem asks_run_unwrapOr (Post : Except ε α → List I.Exchange → Prop) (default : α)
    (p : Fallible I ε α) (l : List I.Exchange) :
  Asks Q Post (unwrapOr default p).run l ↔
    Asks Q (fun r => Post (.ok (r.toOption.getD default))) p.run l
  := by
  simp only [run_unwrapOr, asks_bind, asks_done]

@[simp]
theorem asks_run_attempt (Post : Except ε (Except ε α) → List I.Exchange → Prop)
    (p : Fallible I ε α) (l : List I.Exchange) :
  Asks Q Post (attempt p).run l ↔ Asks Q (fun r => Post (.ok r)) p.run l
  := by
  simp only [run_attempt, asks_bind, asks_done]

@[simp]
theorem asks_run_ask {Request : Type} {Result : Request → Type}
    {Q : List (Interface.fallible ε Request Result).Exchange → Request → Prop} (q : Request)
    (Post : Except ε (Result q) → List (Interface.fallible ε Request Result).Exchange → Prop)
    (l : List (Interface.fallible ε Request Result).Exchange) :
  Asks Q Post (ask q).run l ↔ Q l q ∧ ∀ r, Post r (⟨q, r⟩ :: l)
  := by
  simp only [run_ask, asks_call, asks_done]

end Fallible

/-! ### Invariants of pools -/

open Program

namespace Interface.History

theorem trace_cons_same (e : I.Event τ) (h : I.History τ) :
  trace (e :: h) e.thread = e.exchange :: h.trace e.thread
  := by
  simp [trace]

theorem trace_cons_other {e : I.Event τ} {i : Nat} (hne : e.thread ≠ i) (h : I.History τ) :
  trace (e :: h) i = h.trace i
  := by
  simp [trace, hne]

theorem trace_append (later earlier : I.History τ) (i : Nat) :
  trace (later ++ earlier) i = later.trace i ++ earlier.trace i
  := by
  simp [trace]

theorem mem_trace {h : I.History τ} {i : Nat} {x : I.Exchange} :
  x ∈ h.trace i ↔ ∃ e ∈ h, e.thread = i ∧ e.exchange = x
  := by
  simp [trace, and_assoc]

theorem sum_filter_add_sum_filter (p : α → Bool) (f : α → Nat) (l : List α) :
  ((l.filter p).map f).sum + ((l.filter (!p ·)).map f).sum = (l.map f).sum
  := by
  induction l with
  | nil => rfl
  | cons a l ih =>
      cases hp : p a with
      | true =>
          simp only [List.filter_cons, hp, Bool.not_true, Bool.false_eq_true, if_false, if_true,
            List.map_cons, List.sum_cons]
          omega
      | false =>
          simp only [List.filter_cons, hp, Bool.not_false, Bool.false_eq_true, if_false, if_true,
            List.map_cons, List.sum_cons]
          omega

/-- A weight that is at most another in every thread is at most that in all of them. -/
theorem sum_le_of_threads {f g : I.Event τ → Nat} {h : I.History τ}
    (hle : ∀ i, ((h.filter (·.thread == i)).map f).sum ≤ ((h.filter (·.thread == i)).map g).sum) :
  (h.map f).sum ≤ (h.map g).sum
  := by
  induction hn : h.length using Nat.strongRecOn generalizing h with
  | _ n ih =>
      cases h with
      | nil => exact Nat.le_refl _
      | cons e h =>
          -- the events of the first one's thread, and the others
          rw [← sum_filter_add_sum_filter (·.thread == e.thread) f (e :: h),
            ← sum_filter_add_sum_filter (·.thread == e.thread) g (e :: h)]
          apply Nat.add_le_add (hle e.thread)
          apply ih _ _ _ rfl
          · rw [List.filter_cons_of_neg (by simp)]
            rw [← hn, List.length_cons]
            exact Nat.lt_succ_of_le (List.length_filter_le _ _)
          · intro i
            rw [List.filter_filter]
            by_cases hi : e.thread = i
            · rw [List.filter_eq_nil_iff.mpr (by simp [hi])]
              exact Nat.le_refl _
            · have hfilter : (fun e' : I.Event τ => e'.thread == i && !(e'.thread == e.thread)) =
                  (·.thread == i) := by
                funext e'
                by_cases he' : e'.thread = i
                · simp [he', Ne.symm hi]
                · simp [he']
              simpa [hfilter] using hle i

/-- What is counted at most as often in every thread is counted at most as often. -/
theorem countP_le_of_threads {p q : I.Event τ → Bool} {h : I.History τ}
    (hle : ∀ i, (h.filter (·.thread == i)).countP p ≤ (h.filter (·.thread == i)).countP q) :
  h.countP p ≤ h.countP q
  := by
  have hsum : ∀ (p : I.Event τ → Bool) (l : I.History τ),
      l.countP p = (l.map fun e => if p e then 1 else 0).sum := by
    intro p l
    induction l with
    | nil => rfl
    | cons e l ih => rw [List.countP_cons, ih, List.map_cons, List.sum_cons, Nat.add_comm]
  rw [hsum, hsum]
  apply sum_le_of_threads
  intro i
  rw [← hsum, ← hsum]
  apply hle

/-- What every thread has at most as often among some of its exchanges' items as among
others, the history has at most as often. -/
theorem count_flatMap_le_of_threads {β : Type} [DecidableEq β] {f g : I.Exchange → List β}
    {b : β} {h : I.History τ}
    (hle : ∀ i, ((h.trace i).flatMap f).count b ≤ ((h.trace i).flatMap g).count b) :
  (h.flatMap fun e => f e.exchange).count b ≤ (h.flatMap fun e => g e.exchange).count b
  := by
  rw [List.count_flatMap, List.count_flatMap]
  apply sum_le_of_threads
  intro i
  have htrace : ∀ f : I.Exchange → List β, ((h.trace i).flatMap f).count b =
      ((h.filter (·.thread == i)).map (List.count b ∘ fun e => f e.exchange)).sum := by
    intro f
    rw [trace, List.flatMap_map, List.count_flatMap]
  rw [← htrace, ← htrace]
  apply hle

end Interface.History

/-- The events of a pool are of its threads, each of which works on one task and asks what
its task lets it ask. -/
structure Pool.Disciplined (Q : τ → List I.Exchange → I.Request → Prop) (s : Pool I τ σ) :
    Prop where
  threads : ∀ i t p, s.threads[i]? = some ⟨t, p⟩ →
    Asks (Q t) (fun _ _ => True) p (s.history.trace i)
  events : ∀ e ∈ s.history, ∃ p, s.threads[e.thread]? = some ⟨e.task, p⟩

/-- The threads ask what `Q` lets their tasks ask, and end as `Post` says of them. -/
def Pool.Asking (Q : τ → List I.Exchange → I.Request → Prop)
    (Post : τ → List I.Exchange → Prop) (s : Pool I τ σ) : Prop :=
  ∀ i t p, s.threads[i]? = some ⟨t, p⟩ → Asks (Q t) (fun _ => Post t) p (s.history.trace i)

namespace Pool

variable {W : World I σ} {i j : Nat} {t : τ} {q : I.Request} {k : I.Answer q → Program I Unit}
  {c : W.Choice q} {s : Pool I τ σ}

/-- The thread that makes an exchange has it in its trace. -/
theorem trace_exchange_same :
  (s.exchange W i t q k c).history.trace i =
    ⟨q, (W.exec q c s.state).1⟩ :: s.history.trace i
  := Interface.History.trace_cons_same ⟨i, t, q, (W.exec q c s.state).1⟩ s.history

/-- The other threads go on with the traces they had. -/
theorem trace_exchange_other (h : i ≠ j) :
  (s.exchange W i t q k c).history.trace j = s.history.trace j
  := Interface.History.trace_cons_other (e := ⟨i, t, q, (W.exec q c s.state).1⟩) h s.history

/-- What a thread has exchanged is an event of its task. -/
theorem Disciplined.event_of_trace {Q : τ → List I.Exchange → I.Request → Prop}
    {p : Program I Unit} {x : I.Exchange} (hs : s.Disciplined Q)
    (hthread : s.threads[i]? = some ⟨t, p⟩) (hx : x ∈ s.history.trace i) :
  ∃ e ∈ s.history, e.thread = i ∧ e.task = t ∧ e.exchange = x
  := by
  obtain ⟨e, he, rfl, rfl⟩ := Interface.History.mem_trace.mp hx
  obtain ⟨p', hp'⟩ := hs.events e he
  rw [hthread] at hp'
  exact ⟨e, he, rfl, (Thread.mk.inj (Option.some.inj hp')).1.symm, rfl⟩

/-- What a thread that has started since has exchanged has happened since. -/
theorem Disciplined.event_since {Q : τ → List I.Exchange → I.Request → Prop} {s' : Pool I τ σ}
    (hs : s.Disciplined Q) {later : I.History τ} (hhistory : s'.history = later ++ s.history)
    (hi : s.threads.length ≤ i) {x : I.Exchange} (hx : x ∈ s'.history.trace i) :
  ∃ e ∈ later, e.exchange = x
  := by
  obtain ⟨e, he, rfl, rfl⟩ := Interface.History.mem_trace.mp hx
  rw [hhistory] at he
  rcases List.mem_append.mp he with he | he
  · exact ⟨e, he, rfl⟩
  · obtain ⟨p, hp⟩ := hs.events e he
    have hlt := (List.getElem?_eq_some_iff.mp hp).1
    omega

end Pool

namespace Step

variable {W : World I σ} {body : τ → Program I Unit} {C : StepCondition W τ}
  {Q : τ → List I.Exchange → I.Request → Prop}

theorem trace_of_ge {s : Pool I τ σ} (hs : s.Disciplined Q) {i : Nat}
    (hi : s.threads.length ≤ i) :
  s.history.trace i = []
  := by
  apply List.eq_nil_iff_forall_not_mem.mpr
  intro x hx
  obtain ⟨e, he, rfl, _⟩ := Interface.History.mem_trace.mp hx
  obtain ⟨p, hp⟩ := hs.events e he
  have hlt := (List.getElem?_eq_some_iff.mp hp).1
  omega

variable {Post : τ → List I.Exchange → Prop}

theorem asking_start {s : Pool I τ σ} (hs : s.Disciplined Q)
    {Q' : τ → List I.Exchange → I.Request → Prop} (hasking : s.Asking Q' Post) {t : τ}
    (hbody : Asks (Q' t) (fun _ => Post t) (body t) []) :
  Pool.Asking Q' Post { s with threads := s.threads ++ [⟨t, body t⟩] }
  := by
  intro i t' p hp
  rcases Nat.lt_trichotomy i s.threads.length with hi | rfl | hi
  · rw [List.getElem?_append_left hi] at hp
    apply hasking i t' p hp
  · rw [List.getElem?_append_right (Nat.le_refl _), Nat.sub_self] at hp
    cases hp
    rw [trace_of_ge hs (Nat.le_refl _)]
    apply hbody
  · rw [List.getElem?_eq_none (by simp; omega)] at hp
    cases hp

theorem asking_exchange {s : Pool I τ σ} (hasking : s.Asking Q Post) {i : Nat} {t : τ}
    {q : I.Request} {k : I.Answer q → Program I Unit} (c : W.Choice q)
    (hthread : s.threads[i]? = some ⟨t, .call q k⟩) :
  (s.exchange W i t q k c).Asking Q Post
  := by
  have hlt := (List.getElem?_eq_some_iff.mp hthread).1
  have hasks := (asks_call _ _ _ _).mp (hasking i t _ hthread)
  intro j t' p hp
  by_cases hij : i = j
  · subst hij
    have hset : (s.exchange W i t q k c).threads[i]? =
        some ⟨t, k (W.exec q c s.state).1⟩ := by
      simp [Pool.exchange, hlt]
    obtain ⟨rfl, rfl⟩ := Thread.mk.inj (Option.some.inj (hset.symm.trans hp))
    rw [Pool.trace_exchange_same]
    apply hasks.2
  · rw [Pool.trace_exchange_other hij]
    apply hasking j t' p
    rw [← hp, Pool.exchange, List.getElem?_set_ne hij]

theorem disciplined (hbody : ∀ t, Asks (Q t) (fun _ _ => True) (body t) [])
    {s s' : Pool I τ σ} (hs : s.Disciplined Q) (h : Step W body C s s') :
  s'.Disciplined Q
  := by
  have hasking : s.Asking Q (fun _ _ => True) := hs.threads
  cases h with
  | start t =>
      constructor
      · exact asking_start hs hasking (hbody t)
      · intro e he
        obtain ⟨p, hp⟩ := hs.events e he
        have hlt := (List.getElem?_eq_some_iff.mp hp).1
        exact ⟨p, by rw [List.getElem?_append_left hlt, hp]⟩
  | exchange i t q k c hthread hC =>
      have hlt := (List.getElem?_eq_some_iff.mp hthread).1
      constructor
      · exact asking_exchange hasking c hthread
      · intro e he
        rcases List.mem_cons.mp he with rfl | he
        · exact ⟨k (W.exec q c s.state).1, by simp [Pool.exchange, hlt]⟩
        · obtain ⟨p, hp⟩ := hs.events e he
          by_cases hij : i = e.thread
          · rw [← hij, hthread] at hp
            cases hp
            exact ⟨k (W.exec q c s.state).1, by simp [Pool.exchange, ← hij, hlt]⟩
          · exact ⟨p, by rw [← hp, Pool.exchange, List.getElem?_set_ne hij]⟩

/-- What the start of a thread and every exchange that the tasks allow preserve, holds of every
pool that can be reached. -/
theorem inv_of_disciplined (Inv : Pool I τ σ → Prop)
    (hbody : ∀ t, Asks (Q t) (fun _ _ => True) (body t) [])
    (hstart : ∀ s t, s.Disciplined Q → Inv s →
      Inv { s with threads := s.threads ++ [⟨t, body t⟩] })
    (hexchange : ∀ s i t q k c, s.Disciplined Q → Inv s → s.threads[i]? = some ⟨t, .call q k⟩ →
      Q t (s.history.trace i) q → C i t q c s → Inv (s.exchange W i t q k c))
    {s s' : Pool I τ σ} (hdisc : s.Disciplined Q) (hs : Inv s) (h : Reaches W body C s s') :
  s'.Disciplined Q ∧ Inv s'
  := by
  induction h with
  | refl => exact ⟨hdisc, hs⟩
  | tail _ hstep ih =>
      obtain ⟨hdisc, hs⟩ := ih
      constructor
      · apply disciplined hbody hdisc hstep
      · cases hstep with
        | start t => apply hstart _ t hdisc hs
        | exchange i t q k c hthread hC =>
            have hasks := (asks_call _ _ _ _).mp (hdisc.threads i t _ hthread)
            apply hexchange _ i t q k c hdisc hs hthread hasks.1 hC

/-- What every exchange that the tasks allow preserves, holds of every pool that can be
reached. -/
theorem inv (Inv : Pool I τ σ → Prop)
    (hbody : ∀ t, Asks (Q t) (fun _ _ => True) (body t) [])
    (hstart : ∀ s t, Inv s → Inv { s with threads := s.threads ++ [⟨t, body t⟩] })
    (hexchange : ∀ s i t q k c, s.Disciplined Q → Inv s → s.threads[i]? = some ⟨t, .call q k⟩ →
      Q t (s.history.trace i) q → C i t q c s → Inv (s.exchange W i t q k c))
    {s s' : Pool I τ σ} (hdisc : s.Disciplined Q) (hs : Inv s) (h : Reaches W body C s s') :
  s'.Disciplined Q ∧ Inv s'
  := inv_of_disciplined Inv hbody (fun s t _ => hstart s t) hexchange hdisc hs h

/-- The threads of every pool that can be reached end as their tasks do. -/
theorem asking_of_reaches (hbody : ∀ t, Asks (Q t) (fun _ => Post t) (body t) [])
    {s s' : Pool I τ σ} (hdisc : s.Disciplined Q) (hs : s.Asking Q Post)
    (h : Reaches W body C s s') :
  s'.Asking Q Post
  := by
  have hdisciplined : ∀ t, Asks (Q t) (fun _ _ => True) (body t) [] :=
    fun t => Asks.mono (fun _ _ _ => trivial) (hbody t)
  apply (inv_of_disciplined (Pool.Asking Q Post) hdisciplined _ _ hdisc hs h).2
  · intro s t hdisc hasking
    exact asking_start hdisc hasking (hbody t)
  · intro s i t q k c _ hasking hthread _ _
    exact asking_exchange hasking c hthread

/-- What the answer to every request preserves in the state, holds of the state of every pool
that can be reached. -/
theorem state_inv (Inv : σ → Prop)
    (hexec : ∀ s i t q c, C i t q c s → Inv s.state → Inv (W.exec q c s.state).2)
    {s s' : Pool I τ σ} (hs : Inv s.state) (h : Reaches W body C s s') :
  Inv s'.state
  := by
  induction h with
  | refl => exact hs
  | tail _ hstep ih =>
      cases hstep with
      | start t => exact ih
      | exchange i t q k c _ hC => apply hexec _ i t q c hC ih

end Step

theorem Pool.initial_disciplined (Q : τ → List I.Exchange → I.Request → Prop) (s : σ) :
  (Pool.initial s : Pool I τ σ).Disciplined Q
  := by
  constructor
  · intro i t p hp
    simp [Pool.initial] at hp
  · intro e he
    cases he

/-! ### Schedules -/

/-- A turn of a schedule: a thread starts on a task, or the thread `i` makes its next
request, which is answered by the choice given for it. -/
inductive Turn (W : World I σ) (τ : Type) where
  | start (t : τ)
  | exchange (i : Nat) (choice : (q : I.Request) → W.Choice q)

namespace Pool

variable (W : World I σ) (body : τ → Program I Unit) (C : StepCondition W τ)
  [∀ i t q c s, Decidable (C i t q c s)]

/-- The pool after a turn, if the turn can be taken. -/
def turn (s : Pool I τ σ) : Turn W τ → Option (Pool I τ σ)
  | .start t => some { s with threads := s.threads ++ [⟨t, body t⟩] }
  | .exchange i choice =>
      match s.threads[i]? with
      | some ⟨t, .call q k⟩ =>
          if C i t q (choice q) s then some (s.exchange W i t q k (choice q)) else none
      | _ => none

/-- The pool after a schedule, if all its turns can be taken. -/
def play : List (Turn W τ) → Pool I τ σ → Option (Pool I τ σ)
  | [], s => some s
  | u :: us, s => (s.turn W body C u).bind (play us)

theorem step_of_turn {s s' : Pool I τ σ} {u : Turn W τ} (h : s.turn W body C u = some s') :
  Step W body C s s'
  := by
  cases u with
  | start t =>
      cases h
      apply Step.start
  | exchange i choice =>
      simp only [turn] at h
      split at h
      · rename_i t q k hthread
        split at h
        · rename_i hC
          cases h
          apply Step.exchange s i t q k (choice q) hthread hC
        · cases h
      · cases h

/-- What a schedule leads to can be reached. -/
theorem reaches_of_play {us : List (Turn W τ)} {s s' : Pool I τ σ}
    (h : play W body C us s = some s') :
  Reaches W body C s s'
  := by
  induction us generalizing s with
  | nil =>
      cases h
      apply Relation.ReflTransGen.refl
  | cons u us ih =>
      obtain ⟨s₁, hturn, hrest⟩ := Option.bind_eq_some_iff.mp h
      apply Relation.ReflTransGen.head (step_of_turn W body C hturn) (ih hrest)

end Pool
