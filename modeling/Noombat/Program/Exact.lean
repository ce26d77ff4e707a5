import Noombat.Program.Fallible

/-!
# Exact conditions

A condition on the steps of a program is exact for a postcondition if the runs that end in the
postcondition are those whose steps meet the condition.  A step that does not meet it is one after
which no run ends in the postcondition.  This is relative to an assumption on the steps, which all
runs are to meet.
-/

variable {I : Interface} {ε α β σ : Type}

namespace Program

variable {W : World I σ} {A C : Condition W}

/-- Of the runs whose steps meet `A`, those that end in `Post` are those whose steps meet `C`. -/
def Exact (W : World I σ) (A C : Condition W) (Post : α → σ → Prop) : Program I α → σ → Prop
  | done a, s => Post a s
  | call q k, s => ∀ c, A q c s →
      (C q c s → Exact W A C Post (k (W.exec q c s).1) (W.exec q c s).2) ∧
        (¬ C q c s → wp W A (fun a s' => ¬ Post a s') (k (W.exec q c s).1) (W.exec q c s).2)

@[simp]
theorem exact_done (Post : α → σ → Prop) (a : α) (s : σ) :
  Exact W A C Post (done a) s ↔ Post a s
  := Iff.rfl

theorem exact_call (Post : α → σ → Prop) (q : I.Request) (k : I.Answer q → Program I α) (s : σ) :
  Exact W A C Post (call q k) s ↔ ∀ c, A q c s →
    (C q c s → Exact W A C Post (k (W.exec q c s).1) (W.exec q c s).2) ∧
      (¬ C q c s → wp W A (fun a s' => ¬ Post a s') (k (W.exec q c s).1) (W.exec q c s).2)
  := Iff.rfl

theorem Exact.runFrom {Post : α → σ → Prop} {script : Script W} :
    ∀ {n : Nat} {p : Program I α} {s : σ}, Exact W A C Post p s → AlongFrom W A script n p s →
      (Post (Program.runFrom W script n p s).1 (Program.runFrom W script n p s).2 ↔
        AlongFrom W C script n p s)
  | _, done _, _, h, _ => iff_of_true h trivial
  | n, call q _, s, h, hA => by
      obtain ⟨hmeets, hfails⟩ := h (script n q) hA.1
      by_cases hC : C q (script n q) s
      · exact ((hmeets hC).runFrom hA.2).trans (and_iff_right hC).symm
      · apply iff_of_false
        · exact wp_runFrom script (n + 1) (hfails hC) hA.2
        · intro h
          exact hC h.1

/-- A run that meets the assumption ends in the postcondition just if it meets the condition. -/
theorem Exact.run {Post : α → σ → Prop} {script : Script W} {p : Program I α} {s : σ}
    (h : Exact W A C Post p s) (hA : Along W A script p s) :
  Post (Program.run W script p s).1 (Program.run W script p s).2 ↔ Along W C script p s
  := h.runFrom hA

/-- The postcondition may be replaced by one that all runs establish to be equivalent. -/
theorem Exact.congr {Post Post' : α → σ → Prop} {p : Program I α} {s : σ}
    (h : Exact W A C Post p s) (hpost : wp W A (fun a s' => Post a s' ↔ Post' a s') p s) :
  Exact W A C Post' p s
  := by
  induction p generalizing s with
  | done a =>
      rw [wp_done] at hpost
      exact hpost.mp h
  | call q k ih =>
      rw [wp_call] at hpost
      intro c hc
      obtain ⟨hmeets, hfails⟩ := h c hc
      constructor
      · intro hC
        exact ih _ (hmeets hC) (hpost c hc)
      · intro hC
        apply wp_mono _ (wp_and (hfails hC) (hpost c hc))
        rintro a s' ⟨hnot, hiff⟩ hPost
        exact hnot (hiff.mpr hPost)

/-- A program all of whose steps meet the condition is to establish the postcondition. -/
theorem exact_of_every {Post : α → σ → Prop} {p : Program I α} {s : σ}
    (h : Every (fun q => ∀ c s, A q c s → C q c s) p) (hp : wp W A Post p s) :
  Exact W A C Post p s
  := by
  induction p generalizing s with
  | done a =>
      rw [wp_done] at hp
      exact hp
  | call q k ih =>
      rw [every_call] at h
      rw [wp_call] at hp
      intro c hc
      constructor
      · intro _
        exact ih _ (h.2 _) (hp c hc)
      · intro hC
        exact absurd (h.1 c s hc) hC

/-- The condition is exact for a sequence if it is for its first program and some intermediate
condition, from which it is for the second, and without which the second fails. -/
theorem exact_bind {Post : β → σ → Prop} (Mid : α → σ → Prop) {p : Program I α}
    {f : α → Program I β} {s : σ} (hp : Exact W A C Mid p s)
    (hf : wp W A (fun a s' => (Mid a s' → Exact W A C Post (f a) s') ∧
      (¬ Mid a s' → wp W A (fun b s'' => ¬ Post b s'') (f a) s')) p s) :
  Exact W A C Post (p >>= f) s
  := by
  induction p generalizing s with
  | done a =>
      rw [wp_done] at hf
      exact hf.1 hp
  | call q k ih =>
      rw [wp_call] at hf
      intro c hc
      obtain ⟨hmeets, hfails⟩ := hp c hc
      constructor
      · intro hC
        exact ih _ (hmeets hC) (hf c hc)
      · intro hC
        have hrest := wp_and (hfails hC) (hf c hc)
        have hbind : wp W A (fun b s'' => ¬ Post b s'')
            (k (W.exec q c s).1 >>= f) (W.exec q c s).2 := by
          rw [wp_bind]
          apply wp_mono _ hrest
          rintro a s' ⟨hMid, _, hnever⟩
          exact hnever hMid
        exact hbind

/-- The condition is exact for a program if it is for the one whose results it turns into its
own. -/
theorem exact_map {Post : β → σ → Prop} {p : Program I α} {g : α → β} {s : σ}
    (h : Exact W A C (fun a s' => Post (g a) s') p s) :
  Exact W A C Post (p >>= fun a => done (g a)) s
  := by
  induction p generalizing s with
  | done a => exact h
  | call q k ih =>
      intro c hc
      obtain ⟨hmeets, hfails⟩ := h c hc
      constructor
      · intro hC
        exact ih _ (hmeets hC)
      · intro hC
        have hbind : wp W A (fun b s' => ¬ Post b s')
            (k (W.exec q c s).1 >>= fun a => done (g a)) (W.exec q c s).2 := by
          simp only [wp_bind, wp_done]
          exact hfails hC
        exact hbind

/-! ### Requests that are made once -/

/-- The program makes at most one request in `K`. -/
def AtMostOnce (K : I.Request → Prop) : Program I α → Prop
  | done _ => True
  | call q k => K q ∧ (∀ r, Every (fun q => ¬ K q) (k r)) ∨ ¬ K q ∧ ∀ r, AtMostOnce K (k r)

variable {K : I.Request → Prop}

theorem atMostOnce_of_every {p : Program I α} (h : Every (fun q => ¬ K q) p) :
  AtMostOnce K p
  := by
  induction p with
  | done a => trivial
  | call q k ih =>
      rw [every_call] at h
      exact .inr ⟨h.1, fun r => ih r (h.2 r)⟩

/-- The first program of a sequence makes no such request. -/
theorem atMostOnce_bind {p : Program I α} {f : α → Program I β}
    (hp : Every (fun q => ¬ K q) p) (hf : ∀ a, AtMostOnce K (f a)) :
  AtMostOnce K (p >>= f)
  := by
  induction p with
  | done a => exact hf a
  | call q k ih =>
      rw [every_call] at hp
      exact .inr ⟨hp.1, fun r => ih r (hp.2 r)⟩

/-- Only the first program of a sequence makes such a request. -/
theorem atMostOnce_bind_of_every {p : Program I α} {f : α → Program I β} (hp : AtMostOnce K p)
    (hf : ∀ a, Every (fun q => ¬ K q) (f a)) :
  AtMostOnce K (p >>= f)
  := by
  induction p with
  | done a => exact atMostOnce_of_every (hf a)
  | call q k ih =>
      obtain ⟨hq, hrest⟩ | ⟨hq, hrest⟩ := hp
      · exact .inl ⟨hq, fun r => every_bind (hrest r) hf⟩
      · exact .inr ⟨hq, fun r => ih r (hrest r)⟩

/-- If the request is made at most once, either each time it is made the condition is met or each
time it is not. -/
theorem AtMostOnce.along {p : Program I α} (h : AtMostOnce K p) (C : Condition W)
    {script : Script W} {n : Nat} {s : σ} :
  AlongFrom W (fun q c s => K q → C q c s) script n p s ∨
    AlongFrom W (fun q c s => K q → ¬ C q c s) script n p s
  := by
  induction p generalizing n s with
  | done a =>
      left
      trivial
  | call q k ih =>
      obtain ⟨hq, hrest⟩ | ⟨hq, hrest⟩ := h
      · by_cases hC : C q (script n q) s
        · left
          constructor
          · exact fun _ => hC
          · apply Every.along _ (n + 1) (hrest _)
            intro q' _ _ hq' hK
            exact absurd hK hq'
        · right
          constructor
          · exact fun _ => hC
          · apply Every.along _ (n + 1) (hrest _)
            intro q' _ _ hq' hK
            exact absurd hK hq'
      · obtain hleft | hright := @ih (W.exec q (script n q) s).1 (hrest _) (n + 1)
          (W.exec q (script n q) s).2
        · exact .inl ⟨fun hK => absurd hK hq, hleft⟩
        · exact .inr ⟨fun hK => absurd hK hq, hright⟩

end Program

namespace Fallible

open Program

variable {W : World I σ} {A C : Condition W}

/-- The condition is exact for a sequence if it is for its first program and some intermediate
condition, from which it is for what follows a result, and without which nothing that follows
ends in the postcondition. -/
theorem exact_run_bind {Post : Except ε β → σ → Prop} (Mid : Except ε α → σ → Prop)
    {p : Fallible I ε α} {f : α → Fallible I ε β} {s : σ} (hp : Exact W A C Mid p.run s)
    (hf : wp W A (fun r s' =>
      (Mid r s' → onExcept (fun a s' => Exact W A C Post (f a).run s')
        (fun e => Post (.error e)) r s') ∧
      (¬ Mid r s' → onExcept (fun a s' => wp W A (fun r s'' => ¬ Post r s'') (f a).run s')
        (fun e s' => ¬ Post (.error e) s') r s')) p.run s) :
  Exact W A C Post (p >>= f).run s
  := by
  rw [run_bind]
  apply exact_bind Mid hp
  apply wp_mono _ hf
  rintro (e | a) s' h
  · simpa using h
  · simpa using h

/-- A first program whose steps all meet the condition leaves it to the second to be exact. -/
theorem exact_run_bind_of_every {Post : Except ε β → σ → Prop} {p : Fallible I ε α}
    {f : α → Fallible I ε β} {s : σ}
    (h : Every (fun q => ∀ c s, A q c s → C q c s) p.run)
    (hf : wp W A (onExcept (fun a s' => Exact W A C Post (f a).run s')
      (fun e => Post (.error e))) p.run s) :
  Exact W A C Post (p >>= f).run s
  := by
  apply exact_run_bind _ (exact_of_every h hf)
  apply wp_mono _ hf
  intro r s' hr
  exact ⟨fun _ => hr, fun hnot => absurd hr hnot⟩

theorem exact_run_ask {Request : Type} {Result : Request → Type}
    {W : World (Interface.fallible ε Request Result) σ} {A C : Condition W} (q : Request)
    (Post : Except ε (Result q) → σ → Prop) (s : σ) :
  Exact W A C Post (ask q).run s ↔ ∀ c, A q c s →
    (C q c s → Post (W.exec q c s).1 (W.exec q c s).2) ∧
      (¬ C q c s → ¬ Post (W.exec q c s).1 (W.exec q c s).2)
  := by
  rw [run_ask, exact_call]
  simp only [exact_done, wp_done]

variable {K : I.Request → Prop}

theorem atMostOnce_run_bind {p : Fallible I ε α} {f : α → Fallible I ε β}
    (hp : Every (fun q => ¬ K q) p.run) (hf : ∀ a, AtMostOnce K (f a).run) :
  AtMostOnce K (p >>= f).run
  := by
  rw [run_bind]
  apply atMostOnce_bind hp
  rintro (e | a)
  · trivial
  · exact hf a

theorem atMostOnce_run_bind_of_every {p : Fallible I ε α} {f : α → Fallible I ε β}
    (hp : AtMostOnce K p.run) (hf : ∀ a, Every (fun q => ¬ K q) (f a).run) :
  AtMostOnce K (p >>= f).run
  := by
  rw [run_bind]
  apply atMostOnce_bind_of_every hp
  rintro (e | a)
  · apply every_done
  · exact hf a

end Fallible
