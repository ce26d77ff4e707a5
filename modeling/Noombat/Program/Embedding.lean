import Noombat.Program.Threads

/-!
# Embedded programs

An interface is embedded in another one when each of its requests is a request of the other,
whose answers can be read as its own.  A program over the former is then one over the latter.
Where a state of one world has a state of another one as a part, and the embedded requests do
to the part what they do in the other world, so do the embedded programs.
-/

/-- The requests of `I` among those of `J`. -/
structure Interface.Embedding (I J : Interface) where
  request : I.Request → J.Request
  answer : (q : I.Request) → J.Answer (request q) → I.Answer q

variable {I J : Interface} {α β σ τ : Type} (e : I.Embedding J)

namespace Program

/-- A program over `I` as one over `J`. -/
def embed : Program I α → Program J α
  | done a => done a
  | call q k => call (e.request q) fun r => embed (k (e.answer q r))

theorem embed_done (a : α) :
  embed e (done a) = done a
  := rfl

theorem embed_call (q : I.Request) (k : I.Answer q → Program I α) :
  embed e (call q k) = call (e.request q) fun r => embed e (k (e.answer q r))
  := rfl

theorem embed_bind (p : Program I α) (f : α → Program I β) :
  embed e (p >>= f) = embed e p >>= fun a => embed e (f a)
  := by
  induction p with
  | done a => rfl
  | call q k ih =>
      rw [call_bind, embed_call, embed_call, call_bind]
      congr 1
      funext r
      apply ih

/-- An embedded program makes the requests that the program makes. -/
theorem every_embed {P : J.Request → Prop} {p : Program I α}
    (h : Every (fun q => P (e.request q)) p) :
  Every P (embed e p)
  := by
  induction p with
  | done a => apply every_done
  | call q k ih =>
      obtain ⟨hq, hk⟩ := (every_call q k).mp h
      rw [embed_call, every_call]
      constructor
      · exact hq
      · intro r
        apply ih _ (hk _)

end Program

/-- The states of `V` have states of `W` as parts, and an embedded request is answered as the
request is at the part, and does to it what the request does. -/
structure World.Part (W : World I σ) (V : World J τ) where
  part : τ → σ
  choice : (q : I.Request) → V.Choice (e.request q) → W.Choice q
  answer_exec : ∀ q c s,
    e.answer q (V.exec (e.request q) c s).1 = (W.exec q (choice q c) (part s)).1
  part_exec : ∀ q c s,
    part (V.exec (e.request q) c s).2 = (W.exec q (choice q c) (part s)).2

namespace Program

variable {e} {W : World I σ} {V : World J τ}

/-- What a program establishes of the part, the embedded one does; and what its requests
preserve of the whole, it does too. -/
theorem wp_embed (P : W.Part e V) {C : Condition W} {D : Condition V} {Post : α → σ → Prop}
    (hcondition : ∀ q c s, D (e.request q) c s → C q (P.choice q c) (P.part s))
    {p : Program I α} {s : τ} (h : wp W C Post p (P.part s)) :
  wp V D (fun a s' => Post a (P.part s')) (embed e p) s
  := by
  induction p generalizing s with
  | done a =>
      rw [embed_done, wp_done]
      exact (wp_done _ _ _).mp h
  | call q k ih =>
      rw [embed_call, wp_call]
      intro c hc
      rw [P.answer_exec]
      apply ih
      rw [P.part_exec]
      exact (wp_call _ _ _ _).mp h _ (hcondition q c s hc)

end Program

namespace Fallible

open Program

variable {ε : Type}

/-- A fallible program over `I` as one over `J`. -/
def embed (p : Fallible I ε α) : Fallible J ε α :=
  ExceptT.mk (Program.embed e p.run)

@[simp]
theorem run_embed (p : Fallible I ε α) :
  (embed e p).run = Program.embed e p.run
  := rfl

/-- An embedded sequence is the sequence of the embedded programs. -/
theorem run_embed_bind (p : Fallible I ε α) (f : α → Fallible I ε β) :
  (embed e (p >>= f)).run = (embed e p >>= fun a => embed e (f a)).run
  := by
  rw [run_embed, run_bind, run_bind, embed_bind, run_embed]
  congr 1
  funext r
  cases r with
  | error e => rfl
  | ok a => rfl

theorem run_embed_attempt (p : Fallible I ε α) :
  (embed e (attempt p)).run = (attempt (embed e p)).run
  := by
  rw [run_embed, run_attempt, run_attempt, embed_bind, run_embed]
  rfl

end Fallible
