import Noombat.Program.Past
import Noombat.Search.Queue

/-!
# Removals win

A removal that is recorded while no drain has an upsert of the document in hand is not lost:
from then on no upsert of the document is written, and once the queue holds nothing
outstanding for it, the index does not hold it.
-/

namespace Search

open Federation (Uuid DateTime NoombatError)
open Program

abbrev Event : Type :=
  Interface.Event Searching Call

abbrev Indexing : Type :=
  Pool Searching Call Store

/-! ### Events -/

/-- The removal of a document is asked for. -/
def requestsRemoval (key : Key) : Searching.Exchange → Bool
  | ⟨.sql (.enqueueRemoval index documentId), _⟩ => (index, documentId) == key
  | _ => false

/-- An upsert of a document is asked for. -/
def requestsUpsert (key : Key) : Searching.Exchange → Bool
  | ⟨.sql (.enqueueUpsert index documentId _), _⟩ => (index, documentId) == key
  | _ => false

/-- A document is put into the index, or may have been. -/
def writes (key : Key) : Searching.Exchange → Bool
  | ⟨.upsert index documentId _, _⟩ => (index, documentId) == key
  | _ => false

/-- A document is deleted from the index, which acknowledges it. -/
def deletes (key : Key) : Searching.Exchange → Bool
  | ⟨.delete index documentId, .ok _⟩ => (index, documentId) == key
  | _ => false

/-- What an exchange reads of the rows that are due. -/
def duesOf : Searching.Exchange → List Due
  | ⟨.sql .selectDue, .ok rows⟩ => rows
  | _ => []

/-- A row is marked by its identifier. -/
def marks (id : Uuid) : Searching.Exchange → Bool
  | ⟨.sql (.markSucceeded id'), _⟩ => id' == id
  | ⟨.sql (.markFailed id' _ _ _ _), _⟩ => id' == id
  | _ => false

/-- What a thread has read of the rows that are due. -/
def dues (l : List Searching.Exchange) : List Due :=
  l.flatMap duesOf

/-- A thread has read an upsert of a document, and has still to mark it. -/
def InHand (key : Key) (l : List Searching.Exchange) : Prop :=
  ∃ due ∈ dues l, due.key = key ∧ due.operation = .upsert ∧
    l.countP (marks due.id) < (dues l).countP (·.id == due.id)

instance (key : Key) (l : List Searching.Exchange) : Decidable (InHand key l) :=
  inferInstanceAs (Decidable (∃ due ∈ dues l, _))

/-- A removal is recorded, and no drain has an upsert of the document in hand when it is. -/
def Unhanded : StepCondition searchWorld Call
  | _, _, .sql (.enqueueRemoval index documentId), c, s =>
      (searchWorld.exec (.sql (.enqueueRemoval index documentId)) c s.state).1.isOk = true ∧
        ∀ e ∈ s.history, ¬ InHand (index, documentId) (s.history.trace e.thread)
  | _, _, _, _, _ => True

instance Unhanded.decidable : ∀ (i : Nat) (t : Call) (q : SearchRequest)
    (c : searchWorld.Choice q) (s : Indexing), Decidable (Unhanded i t q c s)
  | _, _, .sql (.enqueueRemoval index documentId), c, s =>
      inferInstanceAs (Decidable
        ((searchWorld.exec (.sql (.enqueueRemoval index documentId)) c s.state).1.isOk = true ∧
          ∀ e ∈ s.history, ¬ InHand (index, documentId) (s.history.trace e.thread)))
  | _, _, .sql (.enqueueUpsert _ _ _), _, _ => isTrue trivial
  | _, _, .sql .selectDue, _, _ => isTrue trivial
  | _, _, .sql (.markSucceeded _), _, _ => isTrue trivial
  | _, _, .sql (.markFailed _ _ _ _ _), _, _ => isTrue trivial
  | _, _, .sql (.markRemoved _ _), _, _ => isTrue trivial
  | _, _, .upsert _ _ _, _, _ => isTrue trivial
  | _, _, .delete _ _, _, _ => isTrue trivial

/-- The removal of a document has been asked for. -/
def Requested (key : Key) (h : Searching.History Call) : Prop :=
  ∃ e ∈ h, requestsRemoval key e.exchange

/-- The removal of a document was asked for after the last upsert of it was. -/
def Withdrawn (key : Key) : Searching.History Call → Prop :=
  Past.Since (fun e => requestsUpsert key e.exchange)
    (Past.Now fun e => requestsRemoval key e.exchange)

/-- The queue has nothing outstanding for a document. -/
def Store.Settled (key : Key) (store : Store) : Prop :=
  ∀ r ∈ store.operations, r.key = key → r.state ≠ .pending ∧ r.state ≠ .failed

/-! ### What the calls ask -/

/-- What the exchanges of a thread are, when it makes a request: a document is put into the
index only while the thread has its upsert in hand; it is deleted, and its row is marked,
only by a call that is about its removal. -/
def Asked (t : Call) (l : List Searching.Exchange) : SearchRequest → Prop
  | .upsert index documentId _ => InHand (index, documentId) l
  | .delete index documentId =>
      (∃ due ∈ dues l, due.key = (index, documentId) ∧ due.operation = .remove) ∨
        (∃ x ∈ l, requestsRemoval (index, documentId) x) ∨ t = .removeFromIndex index documentId
  | .sql .selectDue => l = []
  | .sql (.markSucceeded id) => t = .drain ∧ ∃ due ∈ dues l, due.id = id ∧
      (due.operation = .upsert → InHand due.key l) ∧
        (due.operation = .remove → ∃ x ∈ l, deletes due.key x)
  | .sql (.markRemoved index documentId) =>
      t = .removeFromIndexDurably index documentId ∧ ∃ x ∈ l, deletes (index, documentId) x
  | _ => True

/-- The rows of a drain that has dealt with those before `rest`. -/
structure Draining (done rest : List Due) (l : List Searching.Exchange) : Prop where
  read : dues l = done ++ rest
  marked : ∀ id, l.countP (marks id) = done.countP (·.id == id)

theorem Draining.inHand {done rest : List Due} {due : Due} {l : List Searching.Exchange}
    (h : Draining done (due :: rest) l) (hupsert : due.operation = .upsert) :
  InHand due.key l
  := by
  refine ⟨due, ?_, rfl, hupsert, ?_⟩
  · rw [h.read]
    simp
  · rw [h.read, h.marked, List.countP_append, List.countP_cons]
    simp

/-- An exchange that neither reads nor marks rows changes nothing for a drain. -/
theorem Draining.other {done rest : List Due} {l : List Searching.Exchange}
    (h : Draining done rest l) {x : Searching.Exchange} (hread : duesOf x = [])
    (hmark : ∀ id, marks id x = false) :
  Draining done rest (x :: l)
  := by
  constructor
  · rw [dues, List.flatMap_cons, hread, List.nil_append]
    exact h.read
  · intro id
    rw [List.countP_cons_of_neg (by simp [hmark])]
    exact h.marked id

/-- A row is dealt with when it is marked. -/
theorem Draining.mark {done rest : List Due} {due : Due} {l : List Searching.Exchange}
    (h : Draining done (due :: rest) l) {x : Searching.Exchange} (hread : duesOf x = [])
    (hmark : ∀ id, marks id x = (due.id == id)) :
  Draining (done ++ [due]) rest (x :: l)
  := by
  constructor
  · rw [dues, List.flatMap_cons, hread, List.nil_append, List.append_assoc]
    exact h.read
  · intro id
    rw [List.countP_cons, h.marked, hmark, List.countP_append, List.countP_singleton]

theorem mem_dues {l : List Searching.Exchange} {due : Due} :
  due ∈ dues l ↔ ∃ x ∈ l, due ∈ duesOf x
  := List.mem_flatMap

section Drain

variable {done rest : List Due} {due : Due} {l : List Searching.Exchange}

theorem asks_markFailed (hl : Draining done (due :: rest) l) (attempts : Nat) (reason : String) :
  Asks (Asked .drain) (fun _ => Draining (done ++ [due]) rest)
    (markFailed due.id attempts reason) l
  := by
  constructor
  · trivial
  · intro r
    apply hl.mark rfl
    intro id
    rfl

theorem asks_record (hl : Draining done (due :: rest) l)
    (hupsert : due.operation = .upsert → InHand due.key l) (outcome : Except String Unit)
    (hremove : outcome = .ok () → due.operation = .remove → ∃ x ∈ l, deletes due.key x) :
  Asks (Asked .drain) (fun _ => Draining (done ++ [due]) rest) (record due outcome) l
  := by
  have hmem : due ∈ dues l := by
    rw [hl.read]
    simp
  cases outcome with
  | ok u =>
      rw [record, asks_bind]
      constructor
      · exact ⟨rfl, due, hmem, rfl, hupsert, hremove rfl⟩
      · intro r
        apply hl.mark rfl
        intro id
        rfl
  | error reason =>
      rw [record, asks_bind]
      apply Asks.mono _ (asks_markFailed hl due.attempts reason)
      intro _ l' hl'
      exact hl'

theorem asks_drainOne (hl : Draining done (due :: rest) l) :
  Asks (Asked .drain) (fun _ => Draining (done ++ [due]) rest) (drainOne due) l
  := by
  rw [drainOne.eq_def]
  split
  · rename_i hoperation
    have hmem : due ∈ dues l := by
      rw [hl.read]
      simp
    refine ⟨.inl ⟨due, hmem, rfl, hoperation⟩, ?_⟩
    intro outcome
    apply asks_record (hl.other rfl fun _ => rfl)
    · intro hupsert
      rw [hoperation] at hupsert
      cases hupsert
    · rintro rfl _
      exact ⟨_, List.mem_cons_self, by simp [deletes, Due.key]⟩
  · rename_i document hoperation _
    refine ⟨hl.inHand hoperation, ?_⟩
    intro outcome
    have hother := hl.other (x := ⟨.upsert due.indexName due.documentId document, outcome⟩) rfl
      fun _ => rfl
    apply asks_record hother
    · intro _
      apply hother.inHand hoperation
    · intro _ hremove
      rw [hoperation] at hremove
      cases hremove
  · rw [asks_bind]
    apply Asks.mono _ (asks_markFailed hl _ _)
    intro _ l' hl'
    exact hl'

end Drain

theorem asks_drainAll (rest : List Due) :
    ∀ (n : Nat) {done : List Due} {l : List Searching.Exchange}, Draining done rest l →
      Asks (Asked .drain) (fun _ _ => True) (drainAll rest n) l := by
  induction rest with
  | nil =>
      intro n done l hl
      trivial
  | cons due rest ih =>
      intro n done l hl
      rw [drainAll, asks_bind]
      apply Asks.mono _ (asks_drainOne hl)
      intro m l' hl'
      apply ih _ hl'

theorem asks_drain (search : Bool) :
  Asks (Asked .drain) (fun _ _ => True) (drain search) []
  := by
  rw [drain]
  split
  · refine ⟨rfl, ?_⟩
    rintro (e | rows)
    · trivial
    · refine asks_drainAll rows 0 (?_ : Draining [] rows _)
      constructor
      · simp [dues, duesOf]
      · intro id
        rfl
  · trivial

theorem asks_program (search : Bool) (t : Call) :
  Asks (Asked t) (fun _ _ => True) (t.program search) []
  := by
  cases t with
  | enqueueUpsert index documentId document => exact ⟨trivial, fun _ => trivial⟩
  | enqueueRemoval index documentId => exact ⟨trivial, fun _ => trivial⟩
  | drain =>
      rw [Call.program, asks_bind]
      exact asks_drain search
  | removeFromIndex index id =>
      rw [Call.program, removeFromIndex]
      split
      · exact ⟨.inr (.inr rfl), fun _ => trivial⟩
      · trivial
  | removeFromIndexDurably index id =>
      rw [Call.program, removeFromIndexDurably, enqueueRemoval, request_bind]
      refine ⟨trivial, ?_⟩
      intro enqueued
      split
      · refine ⟨.inr (.inl ⟨_, List.mem_cons_self, by simp [requestsRemoval]⟩), ?_⟩
        rintro (e | u)
        · trivial
        · refine ⟨⟨rfl, _, List.mem_cons_self, by simp [deletes]⟩, ?_⟩
          intro _
          trivial
      · trivial

/-! ### What a request does to the rows -/

section Rows

variable {store : Store} {r : Operation}

theorem Store.mem_updateWhere {p : Operation → Bool} {f : Change} :
  r ∈ (store.updateWhere p f).operations ↔
    ∃ r' ∈ store.operations, (if p r' then f.apply r' else r') = r
  := List.mem_map

/-- A row after it has been changed, or not. -/
theorem Store.mem_updateWhere_of_mem {p : Operation → Bool} {f : Change}
    (hr : r ∈ store.operations) :
  (if p r then f.apply r else r) ∈ (store.updateWhere p f).operations
  := Store.mem_updateWhere.mpr ⟨r, hr, rfl⟩

theorem Store.eq_of_key {r' : Operation} (hr : r ∈ store.operations)
    (hr' : r' ∈ store.operations) (h : r.key = r'.key) :
  r = r'
  := Table.eq_of_not_apart hr hr' fun hapart => hapart.2 h

theorem Store.eq_of_id {r' : Operation} (hr : r ∈ store.operations)
    (hr' : r' ∈ store.operations) (h : r.id = r'.id) :
  r = r'
  := Table.eq_of_not_apart hr hr' fun hapart => hapart.1 h

section Enqueue

variable {row : Operation} {admits : Operation → Bool} {f : Change}

/-- Where a row of the queue comes from after a document was enqueued. -/
theorem Store.mem_enqueue (h : r ∈ (store.enqueue row admits f).2.operations) :
  r ∈ store.operations ∨ r = row ∨
    ∃ r' ∈ store.operations, r'.key = row.key ∧ admits r' = true ∧ r = f.apply r'
  := by
  rw [enqueue] at h
  split at h
  · split at h
    · obtain ⟨r', hr', heq⟩ := Store.mem_updateWhere.mp h
      split at heq
      · rename_i hp
        rw [Bool.and_eq_true, beq_iff_eq] at hp
        exact .inr (.inr ⟨r', hr', hp.1, hp.2, heq.symm⟩)
      · exact .inl (heq ▸ hr')
    · split at h
      · rename_i operations hinsert
        rcases (Table.mem_of_insert hinsert).mp h with rfl | hr
        · exact .inr (.inl rfl)
        · exact .inl hr
      · exact .inl h
  · exact .inl h

/-- A row of the queue is still there after a document was enqueued, changed or not. -/
theorem Store.enqueue_kept (hr : r ∈ store.operations) :
  ∃ r' ∈ (store.enqueue row admits f).2.operations,
    r' = r ∨ (r.key = row.key ∧ admits r = true ∧ r' = f.apply r)
  := by
  rw [enqueue]
  split
  · split
    · refine ⟨_, Store.mem_updateWhere_of_mem hr, ?_⟩
      split
      · rename_i hp
        rw [Bool.and_eq_true, beq_iff_eq] at hp
        exact .inr ⟨hp.1, hp.2, rfl⟩
      · exact .inl rfl
    · split
      · rename_i operations hinsert
        exact ⟨r, (Table.mem_of_insert hinsert).mpr (.inr hr), .inl rfl⟩
      · exact ⟨r, hr, .inl rfl⟩
  · exact ⟨r, hr, .inl rfl⟩

/-- A document that was enqueued, when the change admits its row, has the row inserted, or
changed. -/
theorem Store.of_enqueue_ok (hadmits : ∀ r ∈ store.operations, r.key = row.key → admits r = true)
    (hok : (store.enqueue row admits f).1.isOk = true) :
  ∃ r ∈ (store.enqueue row admits f).2.operations,
    r = row ∨ ∃ r' ∈ store.operations, r'.key = row.key ∧ r = f.apply r'
  := by
  rw [enqueue] at *
  split at hok
  · rename_i hname
    rw [if_pos hname]
    split at hok
    · rename_i hany
      rw [if_pos hany]
      obtain ⟨r', hr', hkey⟩ := List.any_eq_true.mp hany
      have hmem : r' ∈ store.operations := Table.mem_rows.mp hr'
      have hchanged : (if r'.key == row.key && admits r' then f.apply r' else r') ∈
          (store.updateWhere (fun r => r.key == row.key && admits r) f).operations :=
        Store.mem_updateWhere_of_mem hr'
      rw [if_pos (by rw [hkey, hadmits r' hmem (beq_iff_eq.mp hkey), Bool.and_self])] at hchanged
      exact ⟨_, hchanged, .inr ⟨r', hmem, beq_iff_eq.mp hkey, rfl⟩⟩
    · rename_i hany
      rw [if_neg hany]
      split at hok
      · rename_i operations hinsert
        exact ⟨row, (Table.mem_of_insert hinsert).mpr (.inl rfl), .inl rfl⟩
      · cases hok
  · cases hok

end Enqueue

theorem Store.enqueue_index (row : Operation) (admits : Operation → Bool) (f : Change) :
  (store.enqueue row admits f).2.index = store.index
  := by
  rw [enqueue]
  split
  · split
    · rfl
    · split
      · rfl
      · rfl
  · rfl

section Exec

variable {q : SearchRequest} (c : searchWorld.Choice q)

theorem attemptWrite_operations (key : Key) (document : Option Json) (w : WriteChoice) :
  (store.attemptWrite key document w).2.operations = store.operations
  := by
  rw [Store.attemptWrite]
  split
  · rfl
  · split
    · rfl
    · rfl

/-- A row stays in the queue under its identifier, and one that asks for a removal goes on
doing so. -/
theorem row_kept (hr : r ∈ store.operations) :
  ∃ r' ∈ (searchWorld.exec q c store).2.operations, r'.id = r.id ∧ r'.key = r.key ∧
    (r.operation = .remove → r'.operation = .remove)
  := by
  have hupdate : ∀ (p : Operation → Bool) (f : Change), (∀ r, (f.apply r).operation = r.operation) →
      ∃ r' ∈ (store.updateWhere p f).operations, r'.id = r.id ∧ r'.key = r.key ∧
        (r.operation = .remove → r'.operation = .remove) := by
    intro p f hf
    refine ⟨_, Store.mem_updateWhere_of_mem hr, ?_⟩
    split
    · exact ⟨f.id_apply r, f.key_apply r, fun h => (hf r).trans h⟩
    · exact ⟨rfl, rfl, id⟩
  have henqueue : ∀ (row : Operation) (admits : Operation → Bool) (f : Change),
      (∀ r, admits r = true → r.operation = .remove → (f.apply r).operation = .remove) →
      ∃ r' ∈ (store.enqueue row admits f).2.operations, r'.id = r.id ∧ r'.key = r.key ∧
        (r.operation = .remove → r'.operation = .remove) := by
    intro row admits f hf
    obtain ⟨r', hr', heq | ⟨hkey, hadmits, heq⟩⟩ : ∃ r' ∈ (store.enqueue row admits f).2.operations,
        r' = r ∨ (r.key = row.key ∧ admits r = true ∧ r' = f.apply r) := Store.enqueue_kept hr
    · exact ⟨r', hr', by rw [heq], by rw [heq], by rw [heq]; exact id⟩
    · exact ⟨r', hr', by rw [heq, f.id_apply], by rw [heq, f.key_apply],
        fun h => by rw [heq]; exact hf r hadmits h⟩
  cases q with
  | sql st =>
      cases c with
      | error e => exact ⟨r, hr, rfl, rfl, id⟩
      | ok drawn =>
          cases st with
          | enqueueRemoval index documentId =>
              apply henqueue
              intro r _ _
              rfl
          | enqueueUpsert index documentId document =>
              apply henqueue
              intro r hadmits hremove
              rw [hremove] at hadmits
              cases hadmits
          | selectDue => exact ⟨r, hr, rfl, rfl, id⟩
          | markSucceeded id => exact hupdate _ _ fun _ => rfl
          | markFailed id attempts reason exhausted seconds => exact hupdate _ _ fun _ => rfl
          | markRemoved index documentId => exact hupdate _ _ fun _ => rfl
  | upsert index documentId document =>
      exact ⟨r, (attemptWrite_operations _ _ c).symm ▸ hr, rfl, rfl, id⟩
  | delete index documentId =>
      exact ⟨r, (attemptWrite_operations _ _ c).symm ▸ hr, rfl, rfl, id⟩

/-- Where a row that asks for a removal comes from: it did so before, and if it is done now
it was so before or has been marked; or its removal has just been recorded. -/
theorem removal_cases (hr : r ∈ (searchWorld.exec q c store).2.operations)
    (hremove : r.operation = .remove) :
  (∃ r' ∈ store.operations, r'.id = r.id ∧ r'.key = r.key ∧ r'.operation = .remove ∧
      (r.state = .succeeded → r'.state = .succeeded ∨ q = .sql (.markSucceeded r.id) ∨
        q = .sql (.markRemoved r.indexName r.documentId))) ∨
    (q = .sql (.enqueueRemoval r.indexName r.documentId) ∧ r.state = .pending)
  := by
  have hsame : r ∈ store.operations → ∃ r' ∈ store.operations, r'.id = r.id ∧ r'.key = r.key ∧
      r'.operation = .remove ∧ (r.state = .succeeded → r'.state = .succeeded ∨
        q = .sql (.markSucceeded r.id) ∨ q = .sql (.markRemoved r.indexName r.documentId)) :=
    fun hr => ⟨r, hr, rfl, rfl, hremove, .inl⟩
  cases q with
  | sql st =>
      cases c with
      | error e => exact .inl (hsame hr)
      | ok drawn =>
          cases st with
          | enqueueRemoval index documentId =>
              rcases Store.mem_enqueue hr with hr | rfl | ⟨r', hr', hkey, _, rfl⟩
              · exact .inl (hsame hr)
              · exact .inr ⟨rfl, rfl⟩
              · obtain ⟨hindex, hdocument⟩ := Prod.mk.inj hkey
                right
                constructor
                · change _ = SearchRequest.sql (.enqueueRemoval r'.indexName r'.documentId)
                  rw [hindex, hdocument]
                  rfl
                · rfl
          | enqueueUpsert index documentId document =>
              rcases Store.mem_enqueue hr with hr | rfl | ⟨r', hr', _, hadmits, rfl⟩
              · exact .inl (hsame hr)
              · cases hremove
              · have hnot : (r'.operation != .remove) = true := hadmits
                rw [show r'.operation = .remove from hremove] at hnot
                cases hnot
          | selectDue => exact .inl (hsame hr)
          | markSucceeded id =>
              obtain ⟨r', hr', heq⟩ := Store.mem_updateWhere.mp hr
              split at heq
              · rename_i hid
                subst heq
                have hmark := congrArg (fun i => SearchRequest.sql (.markSucceeded i))
                  (beq_iff_eq.mp hid)
                exact .inl ⟨r', hr', rfl, rfl, hremove, fun _ => .inr (.inl hmark.symm)⟩
              · exact .inl (hsame (heq ▸ hr'))
          | markFailed id attempts reason exhausted seconds =>
              obtain ⟨r', hr', heq⟩ := Store.mem_updateWhere.mp hr
              split at heq
              · subst heq
                left
                refine ⟨r', hr', rfl, rfl, hremove, ?_⟩
                intro hstate
                simp only [Store.fail, Operation.failed] at hstate
                split at hstate
                · cases hstate
                · cases hstate
              · exact .inl (hsame (heq ▸ hr'))
          | markRemoved index documentId =>
              obtain ⟨r', hr', heq⟩ := Store.mem_updateWhere.mp hr
              split at heq
              · rename_i hp
                subst heq
                rw [Bool.and_eq_true, beq_iff_eq] at hp
                obtain ⟨hindex, hdocument⟩ := Prod.mk.inj hp.1
                refine .inl ⟨r', hr', rfl, rfl, hremove, fun _ => .inr (.inr ?_)⟩
                change _ = SearchRequest.sql (.markRemoved r'.indexName r'.documentId)
                rw [hindex, hdocument]
              · exact .inl (hsame (heq ▸ hr'))
  | upsert index documentId document =>
      rw [show (searchWorld.exec _ c store).2.operations = store.operations from
        attemptWrite_operations _ _ c] at hr
      exact .inl (hsame hr)
  | delete index documentId =>
      rw [show (searchWorld.exec _ c store).2.operations = store.operations from
        attemptWrite_operations _ _ c] at hr
      exact .inl (hsame hr)

/-- A removal that is recorded is in the queue. -/
theorem removal_of_recorded {index documentId : String}
    (c : searchWorld.Choice (.sql (.enqueueRemoval index documentId)))
    (hok : (searchWorld.exec (.sql (.enqueueRemoval index documentId)) c store).1.isOk = true) :
  ∃ r ∈ (searchWorld.exec (.sql (.enqueueRemoval index documentId)) c store).2.operations,
    r.key = (index, documentId) ∧ r.operation = .remove
  := by
  cases c with
  | error e => cases hok
  | ok drawn =>
      obtain ⟨r, hr, heq | ⟨r', _, hkey, heq⟩⟩ := Store.of_enqueue_ok (fun _ _ _ => rfl) hok
      · exact ⟨r, hr, by rw [heq]; rfl, by rw [heq]; rfl⟩
      · exact ⟨r, hr, by rw [heq]; exact hkey, by rw [heq]; rfl⟩

/-- What a drain reads is in the queue. -/
theorem of_mem_duesOf {due : Due} (h : due ∈ duesOf ⟨q, (searchWorld.exec q c store).1⟩) :
  q = .sql .selectDue ∧ ∃ r ∈ store.operations, r.due = due ∧ r.state = .pending
  := by
  cases q with
  | sql st =>
      cases st with
      | selectDue =>
          cases c with
          | error e => cases h
          | ok drawn =>
              constructor
              · rfl
              · obtain ⟨r, hr, hdue⟩ := List.mem_map.mp h
                have hsorted := (List.mem_insertionSort _).mp (List.mem_of_mem_take hr)
                obtain ⟨hmem, hisDue⟩ := List.mem_filter.mp hsorted
                rw [Operation.isDue, Bool.and_eq_true, beq_iff_eq] at hisDue
                exact ⟨r, hmem, hdue, hisDue.1⟩
      | _ => cases h
  | _ => cases h

/-- A document is in the index no longer once a deletion of it is acknowledged. -/
theorem index_of_deletes {key : Key} (h : deletes key ⟨q, (searchWorld.exec q c store).1⟩ = true) :
  q = .delete key.1 key.2 ∧ (searchWorld.exec q c store).2.index key = none
  := by
  cases q with
  | delete index documentId =>
      simp only [searchWorld, Store.attemptWrite] at h ⊢
      split at h
      · obtain rfl := beq_iff_eq.mp h
        exact ⟨rfl, Store.write_self _ _ _⟩
      · cases h
  | _ => cases h

/-- A document that is not in the index is put there by a write of it only. -/
theorem index_none_kept {key : Key} (hnone : store.index key = none)
    (hwrites : writes key ⟨q, (searchWorld.exec q c store).1⟩ = false) :
  (searchWorld.exec q c store).2.index key = none
  := by
  cases q with
  | sql st =>
      cases c with
      | error e => exact hnone
      | ok drawn =>
          cases st with
          | enqueueRemoval index documentId =>
              change (Store.enqueue _ _ _ store).2.index key = none
              rw [Store.enqueue_index]
              exact hnone
          | enqueueUpsert index documentId document =>
              change (Store.enqueue _ _ _ store).2.index key = none
              rw [Store.enqueue_index]
              exact hnone
          | _ => exact hnone
  | upsert index documentId document =>
      have hne : key ≠ (index, documentId) := by
        rintro rfl
        simp [writes] at hwrites
      have hother : (store.write (index, documentId) (some document)).index key = none := by
        rw [Store.write_of_ne hne]
        exact hnone
      simp only [searchWorld, Store.attemptWrite]
      split
      · exact hother
      · split
        · exact hother
        · exact hnone
  | delete index documentId =>
      have hother : (store.write (index, documentId) none).index key = none := by
        by_cases heq : key = (index, documentId)
        · rw [heq, Store.write_self]
        · rw [Store.write_of_ne heq]
          exact hnone
      simp only [searchWorld, Store.attemptWrite]
      split
      · exact hother
      · split
        · exact hother
        · exact hnone

end Exec

end Rows

/-! ### The invariant -/

/-- The document has been deleted by a drain, or by a call that first recorded the removal. -/
def Cleared (key : Key) (h : Searching.History Call) : Prop :=
  ∃ e ∈ h, deletes key e.exchange ∧ e.task ≠ .removeFromIndex key.1 key.2

/-- No document is put into the index after its removal was asked for. -/
def Respected : Searching.History Call → Prop
  | [] => True
  | e :: h => (∀ key, writes key e.exchange → ¬ Requested key h) ∧ Respected h

/-- What holds of every pool whose removals are recorded while no drain has an upsert of the
document in hand. -/
structure Tracked (s : Indexing) : Prop where
  removal : ∀ r ∈ s.state.operations, r.operation = .remove → Requested r.key s.history
  requested : ∀ key, Requested key s.history →
    ∃ r ∈ s.state.operations, r.key = key ∧ r.operation = .remove
  read : ∀ e ∈ s.history, ∀ due ∈ duesOf e.exchange,
    (∃ r ∈ s.state.operations, r.id = due.id ∧ r.key = due.key) ∧
      (due.operation = .remove → Requested due.key s.history)
  unhanded : ∀ key, Requested key s.history → ∀ i, ¬ InHand key (s.history.trace i)
  cleared : ∀ key, Cleared key s.history → Requested key s.history ∧ s.state.index key = none
  succeeded : ∀ r ∈ s.state.operations, r.operation = .remove → r.state = .succeeded →
    Cleared r.key s.history
  respected : Respected s.history

theorem tracked_initial (index : Key → Option Json) :
  Tracked (.initial (.idle index))
  := by
  have hnone : ∀ r ∈ (Pool.initial (Store.idle index) : Indexing).state.operations, False :=
    fun r hr => Table.mem_empty r hr
  constructor
  case removal =>
    intro r hr
    exact (hnone r hr).elim
  case succeeded =>
    intro r hr
    exact (hnone r hr).elim
  case read =>
    intro e he
    cases he
  case respected => trivial
  all_goals
    rintro key ⟨e, he, _⟩
    cases he

theorem Requested.cons {key : Key} {h : Searching.History Call} (hkey : Requested key h)
    (e : Event) :
  Requested key (e :: h)
  := by
  obtain ⟨e', he', hrequests⟩ := hkey
  exact ⟨e', List.mem_cons_of_mem e he', hrequests⟩

theorem Cleared.cons {key : Key} {h : Searching.History Call} (hkey : Cleared key h)
    (e : Event) :
  Cleared key (e :: h)
  := by
  obtain ⟨e', he', hdeletes⟩ := hkey
  exact ⟨e', List.mem_cons_of_mem e he', hdeletes⟩

/-- A request for the removal of a document is a statement. -/
theorem of_requestsRemoval {key : Key} {x : Searching.Exchange}
    (h : requestsRemoval key x = true) :
  x.request = .sql (.enqueueRemoval key.1 key.2)
  := by
  obtain ⟨q, a⟩ := x
  cases q with
  | sql st =>
      cases st with
      | enqueueRemoval index documentId =>
          obtain rfl := beq_iff_eq.mp h
          rfl
      | _ => cases h
  | _ => cases h

/-- An exchange that reads nothing leaves at most what was in hand in hand. -/
theorem inHand_of_cons {key : Key} {l : List Searching.Exchange} {x : Searching.Exchange}
    (hread : duesOf x = []) (h : InHand key (x :: l)) :
  InHand key l
  := by
  obtain ⟨due, hdue, hkey, hupsert, hcount⟩ := h
  rw [dues, List.flatMap_cons, hread, List.nil_append] at hdue hcount
  refine ⟨due, hdue, hkey, hupsert, Nat.lt_of_le_of_lt ?_ hcount⟩
  rw [List.countP_cons]
  apply Nat.le_add_right

theorem not_inHand_nil (key : Key) :
  ¬ InHand key []
  := by
  rintro ⟨due, hdue, _⟩
  cases hdue

section Preserved

variable {q : SearchRequest} {i : Nat} {t : Call} {c : searchWorld.Choice q} {s : Indexing}
  (htracked : Tracked s) (hasked : Asked t (s.history.trace i) q) (hC : Unhanded i t q c s)
  {k : Searching.Answer q → Program Searching Unit}

/-- A removal that is asked for now, or was before. -/
theorem requested_cases {key : Key}
    (h : Requested key (s.exchange searchWorld i t q k c).history) :
  q = .sql (.enqueueRemoval key.1 key.2) ∨ Requested key s.history
  := by
  obtain ⟨e, he, hrequests⟩ := h
  rcases List.mem_cons.mp he with rfl | he
  · exact .inl (of_requestsRemoval hrequests)
  · exact .inr ⟨e, he, hrequests⟩

/-- Nothing of a document is in hand when its removal is recorded. -/
theorem not_inHand_of_unhanded {key : Key} (hq : q = .sql (.enqueueRemoval key.1 key.2))
    (hC : Unhanded i t q c s) (j : Nat) :
  ¬ InHand key (s.history.trace j)
  := by
  subst hq
  by_cases hj : ∃ e ∈ s.history, e.thread = j
  · obtain ⟨e, he, rfl⟩ := hj
    exact hC.2 e he
  · have hempty : s.history.trace j = [] := by
      apply List.eq_nil_iff_forall_not_mem.mpr
      intro x hx
      obtain ⟨e, he, hthread, _⟩ := Interface.History.mem_trace.mp hx
      exact hj ⟨e, he, hthread⟩
    rw [hempty]
    apply not_inHand_nil

include htracked

/-- An operation that a thread has read and that asks for a removal has been asked for. -/
theorem requested_of_dues {due : Due} (hdue : due ∈ dues (s.history.trace i))
    (hremove : due.operation = .remove) :
  Requested due.key s.history
  := by
  obtain ⟨x, hx, hmem⟩ := mem_dues.mp hdue
  obtain ⟨e, he, _, rfl⟩ := Interface.History.mem_trace.mp hx
  exact (htracked.read e he due hmem).2 hremove

theorem tracked_removal :
  ∀ r ∈ (s.exchange searchWorld i t q k c).state.operations, r.operation = .remove →
    Requested r.key (s.exchange searchWorld i t q k c).history
  := by
  intro r hr hremove
  rcases removal_cases c hr hremove with ⟨r', hr', _, hkey, hremove', _⟩ | ⟨rfl, _⟩
  · rw [← hkey]
    apply (htracked.removal r' hr' hremove').cons
  · exact ⟨_, List.mem_cons_self, by simp [requestsRemoval, Operation.key]⟩

theorem tracked_read :
  ∀ e ∈ (s.exchange searchWorld i t q k c).history, ∀ due ∈ duesOf e.exchange,
    (∃ r ∈ (s.exchange searchWorld i t q k c).state.operations,
      r.id = due.id ∧ r.key = due.key) ∧
      (due.operation = .remove → Requested due.key (s.exchange searchWorld i t q k c).history)
  := by
  intro e he due hdue
  have hbefore : (∃ r ∈ s.state.operations, r.id = due.id ∧ r.key = due.key) ∧
      (due.operation = .remove → Requested due.key s.history) := by
    rcases List.mem_cons.mp he with rfl | he
    · obtain ⟨_, r, hr, rfl, _⟩ := of_mem_duesOf c hdue
      exact ⟨⟨r, hr, rfl, rfl⟩, htracked.removal r hr⟩
    · exact htracked.read e he due hdue
  obtain ⟨⟨r, hr, hid, hkey⟩, hrequested⟩ := hbefore
  obtain ⟨r', hr', hid', hkey', _⟩ := row_kept c hr
  constructor
  · exact ⟨r', hr', hid'.trans hid, hkey'.trans hkey⟩
  · intro hremove
    apply (hrequested hremove).cons

include hC

theorem tracked_requested (key : Key)
    (h : Requested key (s.exchange searchWorld i t q k c).history) :
  ∃ r ∈ (s.exchange searchWorld i t q k c).state.operations, r.key = key ∧ r.operation = .remove
  := by
  rcases requested_cases h with rfl | hbefore
  · exact removal_of_recorded c hC.1
  · obtain ⟨r, hr, hkey, hremove⟩ := htracked.requested key hbefore
    obtain ⟨r', hr', _, hkey', hremove'⟩ := row_kept c hr
    exact ⟨r', hr', hkey'.trans hkey, hremove' hremove⟩

include hasked

theorem tracked_unhanded (key : Key)
    (h : Requested key (s.exchange searchWorld i t q k c).history) (j : Nat) :
  ¬ InHand key ((s.exchange searchWorld i t q k c).history.trace j)
  := by
  have hbefore : ∀ j, ¬ InHand key (s.history.trace j) := by
    rcases requested_cases h with hq | hbefore
    · exact not_inHand_of_unhanded hq hC
    · exact htracked.unhanded key hbefore
  by_cases hij : i = j
  · subst hij
    rw [Pool.trace_exchange_same]
    intro hin
    by_cases hread : duesOf ⟨q, (searchWorld.exec q c s.state).1⟩ = []
    · exact hbefore i (inHand_of_cons hread hin)
    · -- a drain that reads now finds the removal, not an upsert
      obtain ⟨due, hdue⟩ := List.exists_mem_of_ne_nil _ hread
      obtain ⟨rfl, _⟩ := of_mem_duesOf c hdue
      obtain ⟨due', hdue', hkey, hupsert, _⟩ := hin
      rw [show s.history.trace i = [] from hasked] at hdue'
      rw [dues, List.flatMap_cons, List.flatMap_nil, List.append_nil] at hdue'
      obtain ⟨_, r, hr, rfl, _⟩ := of_mem_duesOf c hdue'
      rcases requested_cases h with hq | hrequested
      · cases hq
      · obtain ⟨r', hr', hkey', hremove⟩ := htracked.requested key hrequested
        obtain rfl := Store.eq_of_key hr hr' (hkey.trans hkey'.symm)
        rw [show r.operation = .upsert from hupsert] at hremove
        cases hremove
  · rw [Pool.trace_exchange_other hij]
    exact hbefore j

omit hC

theorem tracked_cleared (key : Key)
    (h : Cleared key (s.exchange searchWorld i t q k c).history) :
  Requested key (s.exchange searchWorld i t q k c).history ∧
    (s.exchange searchWorld i t q k c).state.index key = none
  := by
  obtain ⟨e, he, hdeletes, htask⟩ := h
  rcases List.mem_cons.mp he with rfl | he
  · obtain ⟨rfl, hnone⟩ := index_of_deletes c hdeletes
    constructor
    · rcases hasked with ⟨due, hdue, hkey, hremove⟩ | ⟨x, hx, hrequests⟩ | ht
      · have hrequested := requested_of_dues htracked hdue hremove
        rw [hkey] at hrequested
        exact hrequested.cons _
      · obtain ⟨e, he, _, rfl⟩ := Interface.History.mem_trace.mp hx
        exact Requested.cons ⟨e, he, hrequests⟩ _
      · exact absurd ht htask
    · exact hnone
  · obtain ⟨hrequested, hnone⟩ := htracked.cleared key ⟨e, he, hdeletes, htask⟩
    constructor
    · exact hrequested.cons _
    · apply index_none_kept c hnone
      apply Bool.eq_false_iff.mpr
      intro hwrites
      cases q with
      | upsert index documentId document =>
          obtain rfl := beq_iff_eq.mp hwrites
          exact htracked.unhanded _ hrequested i hasked
      | _ => cases hwrites

theorem tracked_respected :
  Respected (s.exchange searchWorld i t q k c).history
  := by
  constructor
  · intro key hwrites hrequested
    cases q with
    | upsert index documentId document =>
        obtain rfl := beq_iff_eq.mp hwrites
        exact htracked.unhanded _ hrequested i hasked
    | _ => cases hwrites
  · exact htracked.respected

theorem tracked_succeeded (hdisc : s.Disciplined Asked)
    (hthread : s.threads[i]? = some ⟨t, .call q k⟩) :
  ∀ r ∈ (s.exchange searchWorld i t q k c).state.operations, r.operation = .remove →
    r.state = .succeeded → Cleared r.key (s.exchange searchWorld i t q k c).history
  := by
  intro r hr hremove hstate
  rcases removal_cases c hr hremove with ⟨r', hr', hid, hkey, hremove', hmark⟩ | ⟨_, hpending⟩
  · rw [← hkey]
    apply Cleared.cons
    rcases hmark hstate with hstate' | rfl | rfl
    · exact htracked.succeeded r' hr' hremove' hstate'
    · obtain ⟨ht, due, hdue, hdueId, hupsert, hdelete⟩ := hasked
      obtain ⟨x, hx, hmem⟩ := mem_dues.mp hdue
      obtain ⟨e, he, _, rfl⟩ := Interface.History.mem_trace.mp hx
      obtain ⟨⟨r'', hr'', hid'', hkey''⟩, _⟩ := htracked.read e he due hmem
      obtain rfl := Store.eq_of_id hr'' hr' (hid''.trans (hdueId.trans hid.symm))
      rw [hkey'']
      cases hoperation : due.operation with
      | upsert =>
          have hrequested := htracked.removal r'' hr' hremove'
          rw [hkey''] at hrequested
          exact absurd (hupsert hoperation) (htracked.unhanded _ hrequested i)
      | remove =>
          obtain ⟨y, hy, hdeletes⟩ := hdelete hoperation
          obtain ⟨e', he', _, hte, rfl⟩ := hdisc.event_of_trace hthread hy
          exact ⟨e', he', hdeletes, by rw [hte, ht]; intro h; cases h⟩
    · obtain ⟨ht, y, hy, hdeletes⟩ := hasked
      obtain ⟨e', he', _, hte, rfl⟩ := hdisc.event_of_trace hthread hy
      rw [hkey]
      exact ⟨e', he', hdeletes, by rw [hte, ht]; intro h; cases h⟩
  · rw [hpending] at hstate
    cases hstate

end Preserved

theorem tracked_of_reaches {search : Bool} {index : Key → Option Json} {s : Indexing}
    (h : Reaches searchWorld (Call.program search) Unhanded (.initial (.idle index)) s) :
  Tracked s
  := by
  apply (Step.inv Tracked (asks_program search) _ _ (Pool.initial_disciplined Asked _)
    (tracked_initial index) h).2
  · intro s t hs
    exact ⟨hs.removal, hs.requested, hs.read, hs.unhanded, hs.cleared, hs.succeeded, hs.respected⟩
  · intro s i t q k c hdisc hs hthread hasked hC
    exact ⟨tracked_removal hs, tracked_requested hs hC, tracked_read hs,
      tracked_unhanded hs hasked hC, tracked_cleared hs hasked,
      tracked_succeeded hs hasked hdisc hthread, tracked_respected hs hasked⟩

/-! ### Removals win -/

theorem requested_of_withdrawn {key : Key} {h : Searching.History Call} (hkey : Withdrawn key h) :
  Requested key h
  := by
  obtain ⟨later, earlier, rfl, hnow, _⟩ := Past.since_iff.mp hkey
  cases earlier with
  | nil => cases hnow
  | cons e earlier => exact ⟨e, by simp, hnow⟩

theorem Respected.of_append {later earlier : Searching.History Call} {e : Event}
    (h : Respected (later ++ e :: earlier)) {key : Key} (hwrites : writes key e.exchange = true) :
  ¬ Requested key earlier
  := by
  induction later with
  | nil => exact h.1 key hwrites
  | cons e' later ih => exact ih h.2

/-- If every removal is recorded, and no drain has an upsert of the document in hand when it
is, then a document whose removal was asked for after the last upsert of it, and for which
the queue has nothing outstanding, is not in the index; no document is put into the index
after its removal was asked for; and a removal is marked as done only after its document has
been deleted. -/
theorem removals_win (search : Bool) (index : Key → Option Json) (s : Indexing)
    (h : Reaches searchWorld (Call.program search) Unhanded (.initial (.idle index)) s) :
  (∀ key, Withdrawn key s.history → s.state.Settled key → s.state.index key = none) ∧
    (∀ later e earlier key, s.history = later ++ e :: earlier → writes key e.exchange = true →
      ¬ Requested key earlier) ∧
    ∀ r ∈ s.state.operations, r.operation = .remove → r.state = .succeeded →
      Cleared r.key s.history
  := by
  have htracked := tracked_of_reaches h
  constructor
  · intro key hwithdrawn hsettled
    obtain ⟨r, hr, rfl, hremove⟩ := htracked.requested key (requested_of_withdrawn hwithdrawn)
    have hstate : r.state = .succeeded := by
      obtain ⟨hpending, hfailed⟩ := hsettled r hr rfl
      cases hcase : r.state with
      | pending => exact absurd hcase hpending
      | failed => exact absurd hcase hfailed
      | succeeded => rfl
    exact (htracked.cleared r.key (htracked.succeeded r hr hremove hstate)).2
  constructor
  · intro later e earlier key hsplit hwrites
    have hrespected := htracked.respected
    rw [hsplit] at hrespected
    exact hrespected.of_append hwrites
  · exact htracked.succeeded

/-! ### A drain and a removal at once -/

/-- Nothing fails. -/
def drawing : (q : SearchRequest) → searchWorld.Choice q
  | .sql _ => .ok ⟨0, 1, id⟩
  | .upsert _ _ _ => ⟨none, true⟩
  | .delete _ _ => ⟨none, true⟩

/-- The thread `i` makes its next `n` requests. -/
def turns (i n : Nat) : List (Turn searchWorld Call) :=
  List.replicate n (.exchange i drawing)

/-- An upsert is drained; when the drain has read it, the removal is recorded and tried, and
then the drain goes on. -/
def overtaking : List (Turn searchWorld Call) :=
  .start (.enqueueUpsert "posts" "7" .null) :: turns 0 1 ++ [.start .drain] ++ turns 1 1 ++
    [.start (.removeFromIndexDurably "posts" "7")] ++ turns 2 3 ++ turns 1 2

/-- The removal of an indexed document is recorded and tried. -/
def removing : List (Turn searchWorld Call) :=
  .start (.removeFromIndexDurably "posts" "7") :: turns 0 3

def nothing : Key → Option Json :=
  fun _ => none

def everything : Key → Option Json :=
  fun _ => some .null

instance (key : Key) (store : Store) : Decidable (store.Settled key) :=
  inferInstanceAs (Decidable (∀ r ∈ store.operations.rows, _))

instance (key : Key) (h : Searching.History Call) : Decidable (Withdrawn key h) :=
  inferInstanceAs (Decidable (Past.Since (fun e : Event => requestsUpsert key e.exchange = true)
    (Past.Now fun e => requestsRemoval key e.exchange = true) h))

/-- A drain that has read an upsert puts the document into the index after its removal, and
the queue has nothing outstanding for it. -/
theorem overtaken_removal_lost :
  ∃ s, Reaches searchWorld (Call.program true) (fun _ _ _ _ _ => True)
      (.initial (.idle nothing)) s ∧
    Withdrawn ("posts", "7") s.history ∧ s.state.Settled ("posts", "7") ∧
    s.state.index ("posts", "7") ≠ none
  := by
  have hplayed : ((Pool.play searchWorld (Call.program true) (fun _ _ _ _ _ => True) overtaking
      (.initial (.idle nothing))).map fun s => decide (Withdrawn ("posts", "7") s.history ∧
        s.state.Settled ("posts", "7") ∧ (s.state.index ("posts", "7")).isSome)) = some true := by
    decide +kernel
  obtain ⟨s, hs, hdecided⟩ := Option.map_eq_some_iff.mp hplayed
  obtain ⟨hwithdrawn, hsettled, hindexed⟩ := of_decide_eq_true hdecided
  exact ⟨s, Pool.reaches_of_play _ _ _ hs, hwithdrawn, hsettled,
    Option.isSome_iff_ne_none.mp hindexed⟩

/-- A removal that no drain overtakes takes the document out of the index. -/
theorem removing_wins :
  ∃ s, Withdrawn ("posts", "7") s.history ∧ s.state.Settled ("posts", "7") ∧
    Reaches searchWorld (Call.program true) Unhanded (.initial (.idle everything)) s ∧
    ((∀ key, Withdrawn key s.history → s.state.Settled key → s.state.index key = none) ∧
      (∀ later e earlier key, s.history = later ++ e :: earlier → writes key e.exchange = true →
        ¬ Requested key earlier) ∧
      ∀ r ∈ s.state.operations, r.operation = .remove → r.state = .succeeded →
        Cleared r.key s.history)
  := by
  have hplayed : ((Pool.play searchWorld (Call.program true) Unhanded removing
      (.initial (.idle everything))).map fun s => decide (Withdrawn ("posts", "7") s.history ∧
        s.state.Settled ("posts", "7"))) = some true := by
    decide +kernel
  obtain ⟨s, hs, hdecided⟩ := Option.map_eq_some_iff.mp hplayed
  obtain ⟨hwithdrawn, hsettled⟩ := of_decide_eq_true hdecided
  have hreaches := Pool.reaches_of_play _ _ _ hs
  exact ⟨s, hwithdrawn, hsettled, hreaches, removals_win true everything s hreaches⟩

end Search
