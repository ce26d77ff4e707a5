import Noombat.Table

/-!
# Transactions

A store has a committed state and the transactions that are under way.  A transaction has begun
at some time; it has made some writes, which are seen by nobody else before it is committed; and
it holds locks until it ends.  No two transactions hold the same lock.  What would have to wait
for a lock fails, and can be asked again later.
-/

/-- A transaction that is under way, with what it has written, the latest first. -/
structure Transaction (ω κ : Type) where
  id : Nat
  startedAt : Int
  writes : List ω
  locks : List κ

/-- Two transactions are different ones, and hold different locks. -/
def Transaction.Apart {ω κ : Type} (x y : Transaction ω κ) : Prop :=
  x.id ≠ y.id ∧ ∀ k ∈ x.locks, k ∉ y.locks

instance {ω κ : Type} : Std.Symm (@Transaction.Apart ω κ) :=
  ⟨fun _ _ h => ⟨h.1.symm, fun k hk hk' => h.2 k hk' hk⟩⟩

/-- A transaction after other writes, with more locks. -/
def Transaction.extend {ω κ : Type} (ws : List ω) (ks : List κ) (x : Transaction ω κ) :
    Transaction ω κ :=
  { x with writes := ws ++ x.writes, locks := ks ++ x.locks }

/-- What is committed, and what is under way. -/
structure Store (σ ω κ : Type) where
  committed : σ
  clock : Int
  nextId : Nat
  underWay : Table (@Transaction.Apart ω κ)
  old : ∀ x ∈ underWay, x.id < nextId

namespace Store

variable {σ ω κ : Type}

/-- A store without transactions. -/
def initial (committed : σ) (clock : Int) : Store σ ω κ where
  committed
  clock
  nextId := 0
  underWay := .empty
  old := by
    intro x hx
    cases hx

/-- The store some time later. -/
def later (elapsed : Nat) (s : Store σ ω κ) : Store σ ω κ :=
  { s with clock := s.clock + elapsed }

/-- The store with another committed state. -/
def withCommitted (committed : σ) (s : Store σ ω κ) : Store σ ω κ :=
  { s with committed }

/-- A transaction begins, whose identifier is `s.nextId`. -/
def begin (s : Store σ ω κ) : Store σ ω κ where
  committed := s.committed
  clock := s.clock
  nextId := s.nextId + 1
  underWay :=
    ⟨⟨s.nextId, s.clock, [], []⟩ :: s.underWay.rows, by
      apply List.Pairwise.cons _ s.underWay.apart
      intro y hy
      constructor
      · exact Nat.ne_of_gt (s.old y hy)
      · intro k hk
        cases hk⟩
  old := by
    intro x hx
    rcases List.mem_cons.mp hx with rfl | hx
    · apply Nat.lt_succ_self
    · apply Nat.lt_succ_of_lt (s.old x hx)

/-- The transaction with an identifier. -/
def find (id : Nat) (s : Store σ ω κ) : Option (Transaction ω κ) :=
  s.underWay.find (·.id == id)

theorem find_eq_some {s : Store σ ω κ} {id : Nat} {x : Transaction ω κ} (h : s.find id = some x) :
  x ∈ s.underWay ∧ x.id = id
  := by
  have hfound : s.underWay.find (·.id == id) = some x := h
  constructor
  · exact Table.mem_of_find hfound
  · simpa using Table.satisfies_of_find hfound

/-- A transaction has ended. -/
def close (id : Nat) (s : Store σ ω κ) : Store σ ω κ :=
  { s with
    underWay := s.underWay.delete (·.id == id)
    old := fun x hx => s.old x (Table.mem_delete.mp hx).1 }

/-- Whether a transaction holds a lock. -/
def locked [DecidableEq κ] (k : κ) (s : Store σ ω κ) : Bool :=
  s.underWay.rows.any (·.locks.contains k)

/-- A transaction makes other writes and takes more locks, if no other holds those. -/
def write [DecidableEq κ] (id : Nat) (ws : List ω) (ks : List κ) (s : Store σ ω κ) :
    Option (Store σ ω κ) :=
  match h : s.find id with
  | none => none
  | some x =>
      if hfree : ∀ y ∈ (s.close id).underWay.rows, ∀ k ∈ ks, k ∉ y.locks then
        some
          { s with
            underWay :=
              ⟨x.extend ws ks :: (s.close id).underWay.rows, by
                obtain ⟨hx, hid⟩ := find_eq_some h
                apply List.Pairwise.cons _ (s.close id).underWay.apart
                intro y hy
                obtain ⟨hmem, hne⟩ := Table.mem_delete.mp (Table.mem_rows.mp hy)
                have hother : x.id ≠ y.id := by
                  intro heq
                  simp [← heq, hid] at hne
                constructor
                · exact hother
                · intro k hk
                  rcases List.mem_append.mp hk with hk | hk
                  · exact hfree y hy k hk
                  · intro hk'
                    have heq : x = y := Table.eq_of_not_apart hx hmem fun h => h.2 k hk hk'
                    exact hother (congrArg _ heq)⟩
            old := by
              intro y hy
              rcases List.mem_cons.mp hy with rfl | hy
              · exact s.old x (find_eq_some h).1
              · exact (s.close id).old y hy }
      else none

/-- The state after writes, the latest first, if each can be made. -/
def replay (apply : ω → σ → Option σ) : List ω → σ → Option σ
  | [], state => some state
  | w :: ws, state => (replay apply ws state).bind (apply w)

/-- What a transaction sees: the committed state, with its own writes. -/
def view (apply : ω → σ → Option σ) (x : Transaction ω κ) (s : Store σ ω κ) : Option σ :=
  replay apply x.writes s.committed

/-- A transaction is committed, if its writes can be made. -/
def commit (apply : ω → σ → Option σ) (id : Nat) (s : Store σ ω κ) : Option (Store σ ω κ) :=
  (s.find id).bind fun x => (s.view apply x).map fun state => (s.close id).withCommitted state

/-! ### The transactions under way -/

variable {s s' : Store σ ω κ} {x y : Transaction ω κ} {id : Nat} {k : κ}

/-- A transaction is determined by its identifier. -/
theorem eq_of_id (hx : x ∈ s.underWay) (hy : y ∈ s.underWay) (h : x.id = y.id) :
  x = y
  := Table.eq_of_not_apart hx hy fun hapart => hapart.1 h

/-- A lock has one holder. -/
theorem eq_of_lock (hx : x ∈ s.underWay) (hy : y ∈ s.underWay) (hkx : k ∈ x.locks)
    (hky : k ∈ y.locks) :
  x = y
  := Table.eq_of_not_apart hx hy fun hapart => hapart.2 k hkx hky

theorem mem_begin :
  x ∈ s.begin.underWay ↔ x = ⟨s.nextId, s.clock, [], []⟩ ∨ x ∈ s.underWay
  := List.mem_cons

theorem mem_close :
  x ∈ (s.close id).underWay ↔ x ∈ s.underWay ∧ x.id ≠ id
  := by
  change x ∈ s.underWay.delete _ ↔ _
  rw [Table.mem_delete, beq_eq_false_iff_ne]

theorem locked_of_mem [DecidableEq κ] (hx : x ∈ s.underWay) (hk : k ∈ x.locks) :
  s.locked k = true
  := List.any_eq_true.mpr ⟨x, hx, List.contains_iff_mem.mpr hk⟩

/-- What a write leaves and what it changes. -/
structure Wrote (id : Nat) (ws : List ω) (ks : List κ) (s s' : Store σ ω κ) : Prop where
  committed : s'.committed = s.committed
  clock : s'.clock = s.clock
  nextId : s'.nextId = s.nextId
  own : ∃ x ∈ s.underWay, x.id = id ∧ x.extend ws ks ∈ s'.underWay
  others : ∀ y, y.id ≠ id → (y ∈ s'.underWay ↔ y ∈ s.underWay)

theorem wrote_of_write [DecidableEq κ] {ws : List ω} {ks : List κ}
    (h : s.write id ws ks = some s') :
  Wrote id ws ks s s'
  := by
  unfold write at h
  split at h
  · cases h
  rename_i x hfound
  obtain ⟨hx, hid⟩ := find_eq_some hfound
  split at h
  · cases h
    constructor
    · rfl
    · rfl
    · rfl
    · exact ⟨x, hx, hid, List.mem_cons_self⟩
    · intro y hne
      change y ∈ _ :: _ ↔ _
      rw [List.mem_cons, Table.mem_rows, mem_close]
      constructor
      · rintro (rfl | ⟨hy, _⟩)
        · exact absurd hid hne
        · exact hy
      · intro hy
        exact .inr ⟨hy, hne⟩
  · cases h

/-- What a commit leaves and what it changes. -/
theorem of_commit {apply : ω → σ → Option σ} (h : s.commit apply id = some s') :
  ∃ x ∈ s.underWay, x.id = id ∧ ∃ state, s.view apply x = some state ∧
    s' = (s.close id).withCommitted state
  := by
  obtain ⟨x, hfound, hstate⟩ := Option.bind_eq_some_iff.mp h
  obtain ⟨hx, hid⟩ := find_eq_some hfound
  obtain ⟨state, hview, rfl⟩ := Option.map_eq_some_iff.mp hstate
  exact ⟨x, hx, hid, state, hview, rfl⟩

end Store
