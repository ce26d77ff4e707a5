import Noombat.Search.Removals

/-!
# Documents that are asked for again

The row of a document stays in the queue once it is done, and the next operation on the document
takes it over.  An upsert takes over the row of an upsert, and is then carried until the index has
acknowledged it or it has been tried as often as is allowed.  It does not take over the row of a
removal, pending or done.
-/

namespace Search

open Federation (Uuid DateTime NoombatError)
open Program

/-! ### What is asked for -/

/-- A row asks for the removal of a document. -/
def Store.AsksRemoval (key : Key) (store : Store) : Prop :=
  ∃ r ∈ store.operations, r.key = key ∧ r.operation = .remove

/-- The removal of a document is pending. -/
def Store.RemovalPending (key : Key) (store : Store) : Prop :=
  ∃ r ∈ store.operations, r.key = key ∧ r.operation = .remove ∧ r.state = .pending

/-- A thread has read an operation, and has still to mark it. -/
def Outstanding (due : Due) (l : List Searching.Exchange) : Prop :=
  due ∈ dues l ∧ l.countP (marks due.id) < (dues l).countP (·.id == due.id)

/-- A thread has read an operation on a document, and has still to mark it. -/
def Handles (key : Key) (l : List Searching.Exchange) : Prop :=
  ∃ due, Outstanding due l ∧ due.key = key

/-- The upsert that an operation asks for, if it does, has been tried. -/
def Due.Tried (due : Due) (l : List Searching.Exchange) : Prop :=
  ∀ document, due.operation = .upsert → due.document = some document →
    ∃ r, ⟨.upsert due.indexName due.documentId document, r⟩ ∈ l

/-- Since an upsert of a document was recorded, its row asks for it, until the index has
acknowledged it or it has been tried as often as is allowed.  Until then, the query of what is due
finds it, if it does not find a hundred operations, and a drain that has found it has tried it by
its end. -/
structure Carried (key : Key) (document : Json) (later : Searching.History Call)
    (s : Indexing) : Prop where
  row : ∃ r ∈ s.state.operations, r.key = key ∧ r.operation = .upsert ∧
    r.document = some document ∧
    (r.state = .succeeded → ∃ e ∈ later, e.exchange = ⟨.upsert key.1 key.2 document, .ok ()⟩) ∧
    (r.state = .failed → MAX_ATTEMPTS ≤ later.countP (writes key ·.exchange)) ∧
    (r.state = .pending → ∀ drawn : Drawn, r.nextAttemptAt ≤ drawn.now →
      r.due ∈ s.state.selectDue drawn ∨ (s.state.selectDue drawn).length = 100)
  bodies : ∀ e ∈ later, writes key e.exchange = true →
    ∃ r, e.exchange = ⟨.upsert key.1 key.2 document, r⟩
  tried : ∀ i t u, s.threads[i]? = some ⟨t, .done u⟩ → ∀ due ∈ dues (later.trace i),
    due.key = key → ∃ e ∈ later, e.thread = i ∧ writes key e.exchange = true

/-! ### What a drain accounts for -/

/-- What the exchanges of a thread are, when it makes a request: it writes what it has read and not
marked, and marks what it has tried. -/
def Accounts (l : List Searching.Exchange) : SearchRequest → Prop
  | .sql .selectDue => l = []
  | .upsert index documentId document => ∃ due, Outstanding due l ∧
      due.key = (index, documentId) ∧ due.operation = .upsert ∧ due.document = some document
  | .sql (.markSucceeded id) => ∃ due, Outstanding due l ∧ due.id = id ∧
      ∀ document, due.operation = .upsert → due.document = some document →
        ⟨.upsert due.indexName due.documentId document, .ok ()⟩ ∈ l
  | .sql (.markFailed id attempts _ exhausted _) => ∃ due, Outstanding due l ∧ due.id = id ∧
      ∀ document, due.operation = .upsert → due.document = some document →
        attempts = due.attempts + 1 ∧ exhausted = decide (attempts ≥ MAX_ATTEMPTS) ∧
          ∃ r, ⟨.upsert due.indexName due.documentId document, r⟩ ∈ l
  | _ => True

/-- All the operations that a thread has read have been tried. -/
def AllTried (_ : Call) (l : List Searching.Exchange) : Prop :=
  ∀ due ∈ dues l, due.Tried l

theorem Draining.outstanding {done rest : List Due} {due : Due} {l : List Searching.Exchange}
    (h : Draining done (due :: rest) l) :
  Outstanding due l
  := by
  constructor
  · rw [h.read]
    simp
  · rw [h.read, h.marked, List.countP_append, List.countP_cons]
    simp

theorem Due.Tried.cons {due : Due} {l : List Searching.Exchange} (h : due.Tried l)
    (x : Searching.Exchange) :
  due.Tried (x :: l)
  := by
  intro document hupsert hdocument
  obtain ⟨r, hr⟩ := h document hupsert hdocument
  exact ⟨r, List.mem_cons_of_mem x hr⟩

/-- A drain that has dealt with some operations, and tried them. -/
structure Trying (done rest : List Due) (l : List Searching.Exchange) : Prop
    extends Draining done rest l where
  tried : ∀ due ∈ done, due.Tried l

section Drain

variable {done rest : List Due} {due : Due} {l : List Searching.Exchange}

theorem Trying.other (h : Trying done rest l) {x : Searching.Exchange} (hread : duesOf x = [])
    (hmark : ∀ id, marks id x = false) :
  Trying done rest (x :: l)
  := ⟨h.toDraining.other hread hmark, fun due hdue => (h.tried due hdue).cons x⟩

theorem Trying.mark (h : Trying done (due :: rest) l) (htried : due.Tried l)
    {x : Searching.Exchange} (hread : duesOf x = []) (hmark : ∀ id, marks id x = (due.id == id)) :
  Trying (done ++ [due]) rest (x :: l)
  := by
  refine ⟨h.toDraining.mark hread hmark, ?_⟩
  intro due' hdue'
  obtain hdue' | hdue' := List.mem_append.mp hdue'
  · exact (h.tried due' hdue').cons x
  · rw [List.mem_singleton.mp hdue']
    exact htried.cons x

/-- The outcome of an attempt is recorded. -/
theorem accounts_record (h : Trying done (due :: rest) l) (outcome : Except String Unit)
    (htried : ∀ document, due.operation = .upsert → due.document = some document →
      ⟨.upsert due.indexName due.documentId document, outcome⟩ ∈ l) :
  Asks Accounts (fun _ => Trying (done ++ [due]) rest) (record due outcome) l
  := by
  have hdone : due.Tried l := fun document hupsert hdocument =>
    ⟨outcome, htried document hupsert hdocument⟩
  cases outcome with
  | ok u =>
      rw [record, asks_bind]
      constructor
      · exact ⟨due, h.outstanding, rfl, htried⟩
      · intro r
        apply h.mark hdone rfl
        intro id
        rfl
  | error reason =>
      rw [record, asks_bind]
      constructor
      · refine ⟨due, h.outstanding, rfl, ?_⟩
        intro document hupsert hdocument
        exact ⟨rfl, rfl, _, htried document hupsert hdocument⟩
      · intro r
        apply h.mark hdone rfl
        intro id
        rfl

theorem accounts_drainOne (h : Trying done (due :: rest) l) :
  Asks Accounts (fun _ => Trying (done ++ [due]) rest) (drainOne due) l
  := by
  rw [drainOne.eq_def]
  split
  · rename_i hremove
    refine ⟨trivial, ?_⟩
    intro outcome
    apply accounts_record (h.other rfl fun _ => rfl)
    intro document hupsert
    rw [hremove] at hupsert
    cases hupsert
  · rename_i document hupsert hdocument
    refine ⟨⟨due, h.outstanding, rfl, hupsert, hdocument⟩, ?_⟩
    intro outcome
    apply accounts_record (h.other rfl fun _ => rfl)
    intro document' _ hdocument'
    rw [hdocument] at hdocument'
    obtain rfl := Option.some.inj hdocument'
    exact List.mem_cons_self
  · rename_i hnone
    have habsent : ∀ document, due.document ≠ some document := by
      intro document hdocument
      rw [hnone] at hdocument
      cases hdocument
    rw [asks_bind]
    constructor
    · exact ⟨due, h.outstanding, rfl, fun document _ hdocument => absurd hdocument (habsent _)⟩
    · intro r
      apply h.mark (fun document _ hdocument => absurd hdocument (habsent _)) rfl
      intro id
      rfl

end Drain

theorem accounts_drainAll (rest : List Due) :
    ∀ (n : Nat) {done : List Due} {l : List Searching.Exchange}, Trying done rest l →
      Asks Accounts (fun _ => AllTried .drain) (drainAll rest n) l := by
  induction rest with
  | nil =>
      intro n done l h due hdue
      rw [h.read, List.append_nil] at hdue
      exact h.tried due hdue
  | cons due rest ih =>
      intro n done l h
      rw [drainAll, asks_bind]
      apply Asks.mono _ (accounts_drainOne h)
      intro m l' h'
      apply ih _ h'

theorem accounts_drain (search : Bool) :
  Asks Accounts (fun _ => AllTried .drain) (drain search) []
  := by
  have hnone : ∀ x, duesOf x = [] → AllTried .drain [x] := by
    intro x hx due hdue
    rw [dues, List.flatMap_cons, hx, List.flatMap_nil] at hdue
    cases hdue
  rw [drain]
  split
  · refine ⟨rfl, ?_⟩
    rintro (e | rows)
    · exact hnone _ rfl
    · refine accounts_drainAll rows 0 (?_ : Trying [] rows _)
      refine ⟨⟨?_, fun id => rfl⟩, fun due hdue => by cases hdue⟩
      simp [dues, duesOf]
  · intro due hdue
    cases hdue

theorem accounts_program (search : Bool) (t : Call) :
  Asks Accounts (fun _ => AllTried t) (t.program search) []
  := by
  have hnone : ∀ l : List Searching.Exchange, dues l = [] → AllTried t l := by
    intro l hl due hdue
    rw [hl] at hdue
    cases hdue
  cases t with
  | enqueueUpsert index documentId document => exact ⟨trivial, fun _ => hnone _ rfl⟩
  | enqueueRemoval index documentId => exact ⟨trivial, fun _ => hnone _ rfl⟩
  | drain =>
      rw [Call.program, asks_bind]
      exact accounts_drain search
  | removeFromIndex index id =>
      rw [Call.program, removeFromIndex]
      split
      · exact ⟨trivial, fun _ => hnone _ rfl⟩
      · exact hnone _ rfl
  | removeFromIndexDurably index id =>
      rw [Call.program, removeFromIndexDurably, enqueueRemoval, request_bind]
      refine ⟨trivial, ?_⟩
      intro enqueued
      split
      · refine ⟨trivial, ?_⟩
        rintro (e | u)
        · exact hnone _ rfl
        · exact ⟨trivial, fun _ => hnone _ rfl⟩
      · exact hnone _ rfl

/-! ### What has been recorded -/

/-- An operation on a document is recorded. -/
def records (key : Key) : Searching.Exchange → Bool
  | ⟨.sql (.enqueueUpsert index documentId _), .ok _⟩ => (index, documentId) == key
  | ⟨.sql (.enqueueRemoval index documentId), .ok _⟩ => (index, documentId) == key
  | _ => false

section Rows

variable {store : Store} {r : Operation} {q : SearchRequest} (c : searchWorld.Choice q)

/-- An operation that could not be recorded changes nothing. -/
theorem Store.enqueue_error {row : Operation} {admits : Operation → Bool} {f : Change}
    (h : (store.enqueue row admits f).1.isOk = false) :
  (store.enqueue row admits f).2 = store
  := by
  rw [enqueue] at *
  split at h
  · rename_i hname
    rw [if_pos hname]
    split at h
    · cases h
    · rename_i hany
      rw [if_neg hany]
      split at h
      · cases h
      · rfl
  · rename_i hname
    rw [if_neg hname]

/-- What is not recorded, of what would be, has failed. -/
theorem isOk_of_records {key : Key} {st : SearchSql} (a : Except NoombatError st.Result)
    (h : records key ⟨.sql st, a⟩ = false) (hst : ∀ u, records key ⟨.sql st, .ok u⟩ = true) :
  a.isOk = false
  := by
  cases a with
  | error e => rfl
  | ok u =>
      rw [hst u] at h
      cases h

/-- A row that asks for an upsert is as it was, if nothing is recorded for its document and it is
not marked. -/
theorem row_same (hr : r ∈ store.operations) (hupsert : r.operation = .upsert)
    (hrecords : records r.key ⟨q, (searchWorld.exec q c store).1⟩ = false)
    (hmarks : marks r.id ⟨q, (searchWorld.exec q c store).1⟩ = false) :
  r ∈ (searchWorld.exec q c store).2.operations
  := by
  have hupdate : ∀ (p : Operation → Bool) (f : Change), p r = false →
      r ∈ (store.updateWhere p f).operations := by
    intro p f hp
    exact Store.mem_updateWhere.mpr ⟨r, hr, if_neg (by simp [hp])⟩
  have henqueue : ∀ (row : Operation) (admits : Operation → Bool) (f : Change),
      (r.key = row.key → (store.enqueue row admits f).1.isOk = false) →
      r ∈ (store.enqueue row admits f).2.operations := by
    intro row admits f hrow
    by_cases hkey : r.key = row.key
    · rw [Store.enqueue_error (hrow hkey)]
      exact hr
    · obtain ⟨r', hr', heq | ⟨hkey', _⟩⟩ := @Store.enqueue_kept store r row admits f hr
      · rw [← heq]
        exact hr'
      · exact absurd hkey' hkey
  cases q with
  | sql st =>
      cases c with
      | error e => exact hr
      | ok drawn =>
          cases st with
          | enqueueRemoval index documentId =>
              apply henqueue
              intro hkey
              apply isOk_of_records _ hrecords
              rintro u
              exact beq_iff_eq.mpr hkey.symm
          | enqueueUpsert index documentId document =>
              apply henqueue
              intro hkey
              apply isOk_of_records _ hrecords
              rintro u
              exact beq_iff_eq.mpr hkey.symm
          | selectDue => exact hr
          | markSucceeded id =>
              apply hupdate
              rw [Bool.beq_comm]
              exact hmarks
          | markFailed id attempts reason exhausted seconds =>
              apply hupdate
              rw [Bool.beq_comm]
              exact hmarks
          | markRemoved index documentId =>
              apply hupdate
              rw [hupsert]
              exact Bool.and_false _
  | upsert index documentId document =>
      exact (attemptWrite_operations _ _ c).symm ▸ hr
  | delete index documentId =>
      exact (attemptWrite_operations _ _ c).symm ▸ hr

/-- An upsert that is recorded when no row asks for the removal of its document has a row. -/
theorem upsert_of_recorded {index documentId : String} {document : Json}
    (c : searchWorld.Choice (.sql (.enqueueUpsert index documentId document)))
    (hok : (searchWorld.exec (.sql (.enqueueUpsert index documentId document)) c store).1.isOk =
      true)
    (hasks : ¬ store.AsksRemoval (index, documentId)) :
  ∃ r ∈ (searchWorld.exec (.sql (.enqueueUpsert index documentId document)) c store).2.operations,
    r.key = (index, documentId) ∧ r.operation = .upsert ∧ r.document = some document ∧
      r.state = .pending ∧ r.attempts = 0
  := by
  have hupsert : ∀ r ∈ store.operations, r.key = (index, documentId) → r.operation = .upsert := by
    intro r hr hkey
    cases hoperation : r.operation with
    | upsert => rfl
    | remove => exact absurd ⟨r, hr, hkey, hoperation⟩ hasks
  cases c with
  | error e => cases hok
  | ok drawn =>
      have hadmits : ∀ r ∈ store.operations, r.key = (index, documentId) →
          (r.operation != .remove) = true := by
        intro r hr hkey
        rw [hupsert r hr hkey]
        rfl
      obtain ⟨r, hr, heq | ⟨r', hr', hkey, heq⟩⟩ := Store.of_enqueue_ok hadmits hok
      · exact ⟨r, hr, by rw [heq]; rfl, by rw [heq]; rfl, by rw [heq]; rfl, by rw [heq]; rfl,
          by rw [heq]; rfl⟩
      · exact ⟨r, hr, by rw [heq]; exact hkey, by rw [heq]; exact hupsert r' hr' hkey,
          by rw [heq]; rfl, by rw [heq]; rfl, by rw [heq]; rfl⟩

/-- The query of what is due finds a row that is due, if it does not find a hundred. -/
theorem mem_selectDue {drawn : Drawn} (hr : r ∈ store.operations)
    (hdue : r.isDue drawn.now = true) :
  r.due ∈ store.selectDue drawn ∨ (store.selectDue drawn).length = 100
  := by
  rw [Store.selectDue]
  generalize hsorted : ((store.operations.rows.filter (·.isDue drawn.now)).insertionSort
    fun r r' => Store.precedes drawn.order r r') = sorted
  have hmem : r ∈ sorted := by
    rw [← hsorted]
    exact (List.mem_insertionSort _).mpr (List.mem_filter.mpr ⟨Table.mem_rows.mpr hr, hdue⟩)
  by_cases hfew : sorted.length ≤ 100
  · left
    rw [List.take_of_length_le hfew]
    exact List.mem_map_of_mem hmem
  · right
    rw [List.length_map, List.length_take]
    omega

/-- Marking a row by its identifier, where the statement does not fail. -/
theorem of_marks {id : Uuid} {a : Searching.Answer q} (h : marks id ⟨q, a⟩ = true) :
  q = .sql (.markSucceeded id) ∨
    ∃ attempts reason exhausted seconds,
      q = .sql (.markFailed id attempts reason exhausted seconds)
  := by
  cases q with
  | sql st =>
      cases st with
      | markSucceeded id' =>
          obtain rfl := beq_iff_eq.mp h
          exact .inl rfl
      | markFailed id' attempts reason exhausted seconds =>
          obtain rfl := beq_iff_eq.mp h
          exact .inr ⟨attempts, reason, exhausted, seconds, rfl⟩
      | _ => cases h
  | _ => cases h

theorem of_writes {key : Key} {a : Searching.Answer q} (h : writes key ⟨q, a⟩ = true) :
  ∃ document, q = .upsert key.1 key.2 document
  := by
  cases q with
  | upsert index documentId document =>
      obtain rfl := beq_iff_eq.mp h
      exact ⟨document, rfl⟩
  | _ => cases h

end Rows

/-! ### Rows that have been read -/

/-- What a thread has read has a row. -/
def Known (s : Indexing) : Prop :=
  ∀ e ∈ s.history, ∀ due ∈ duesOf e.exchange, ∃ r ∈ s.state.operations, r.id = due.id ∧
    r.key = due.key

theorem known_exchange {s : Indexing} (h : Known s) (i : Nat) (t : Call) (q : SearchRequest)
    (k : Searching.Answer q → Program Searching Unit) (c : searchWorld.Choice q) :
  Known (s.exchange searchWorld i t q k c)
  := by
  intro e he due hdue
  have hbefore : ∃ r ∈ s.state.operations, r.id = due.id ∧ r.key = due.key := by
    obtain rfl | he := List.mem_cons.mp he
    · obtain ⟨_, r, hr, rfl, _⟩ := of_mem_duesOf c hdue
      exact ⟨r, hr, rfl, rfl⟩
    · exact h e he due hdue
  obtain ⟨r, hr, hid, hkey⟩ := hbefore
  obtain ⟨r', hr', hid', hkey', _⟩ := row_kept c hr
  exact ⟨r', hr', hid'.trans hid, hkey'.trans hkey⟩

section Reached

variable {search : Bool} {C : StepCondition searchWorld Call} {index : Key → Option Json}
  {s : Indexing}
  (h : Reaches searchWorld (Call.program search) C (.initial (.idle index)) s)

include h

theorem known_of_reaches :
  s.Disciplined (fun _ => Accounts) ∧ Known s
  := by
  have haccounts : ∀ t, Asks Accounts (fun _ _ => True) (Call.program search t) [] :=
    fun t => Asks.mono (fun _ _ _ => trivial) (accounts_program search t)
  apply Step.inv Known haccounts _ _ (Pool.initial_disciplined _ _) _ h
  · intro s t hs
    exact hs
  · intro s i t q k c _ hs _ _ _
    exact known_exchange hs i t q k c
  · intro e he
    cases he

/-- A thread that has ended has tried what it has read. -/
theorem allTried_of_reaches :
  s.Asking (fun _ => Accounts) AllTried
  := by
  apply Step.asking_of_reaches (accounts_program search) (Pool.initial_disciplined _ _) _ h
  intro i t p hp
  simp [Pool.initial] at hp

end Reached

/-! ### What is kept while nothing is recorded -/

/-- Since an upsert was recorded, what the threads have read asks for it, and has been tried no
more often than the row has been. -/
structure Reopened (key : Key) (document : Json) (earlier later : Searching.History Call)
    (s : Indexing) : Prop where
  row : ∃ r ∈ s.state.operations, r.key = key ∧ r.operation = .upsert ∧
    r.document = some document ∧
    (r.state = .succeeded → ∃ e ∈ later, e.exchange = ⟨.upsert key.1 key.2 document, .ok ()⟩) ∧
    (r.state ≠ .succeeded → r.attempts ≤ later.countP (writes key ·.exchange)) ∧
    (r.state = .failed → MAX_ATTEMPTS ≤ r.attempts)
  bodies : ∀ e ∈ later, writes key e.exchange = true →
    ∃ r, e.exchange = ⟨.upsert key.1 key.2 document, r⟩
  read : ∀ i, ∀ due ∈ dues (later.trace i), due.key = key →
    due.operation = .upsert ∧ due.document = some document ∧
      due.attempts + (later.trace i).countP (writes key) ≤ later.countP (writes key ·.exchange)
  fresh : ∀ i, earlier.trace i ≠ [] → dues (later.trace i) = []

section Exchange

variable {key : Key} {document : Json} {earlier later : Searching.History Call} {s : Indexing}
  {i : Nat} {t : Call} {q : SearchRequest} {c : searchWorld.Choice q}
  {k : Searching.Answer q → Program Searching Unit}

/-- A thread that handles the document has started since. -/
theorem Reopened.trace_eq_nil (h : Reopened key document earlier later s)
    (hhistory : s.history = later ++ earlier) (hhands : ¬ Handles key (earlier.trace i))
    (hnow : Handles key (s.history.trace i)) :
  earlier.trace i = []
  := by
  by_contra hne
  have hnone := h.fresh i hne
  apply hhands
  obtain ⟨due, ⟨hdue, hcount⟩, hkey⟩ := hnow
  have hdues : dues (s.history.trace i) = dues (earlier.trace i) := by
    rw [hhistory, Interface.History.trace_append, dues, List.flatMap_append, ← dues, hnone,
      List.nil_append]
    rfl
  refine ⟨due, ⟨?_, ?_⟩, hkey⟩
  · rw [← hdues]
    exact hdue
  · rw [← hdues]
    apply Nat.lt_of_le_of_lt _ hcount
    rw [hhistory, Interface.History.trace_append, List.countP_append]
    apply Nat.le_add_left

/-- What a thread has outstanding for the document, it has read since. -/
theorem Reopened.of_outstanding (h : Reopened key document earlier later s)
    (hhistory : s.history = later ++ earlier) (hhands : ¬ Handles key (earlier.trace i))
    {due : Due} (hdue : Outstanding due (s.history.trace i)) (hkey : due.key = key) :
  s.history.trace i = later.trace i ∧ due.operation = .upsert ∧ due.document = some document ∧
    due.attempts + (later.trace i).countP (writes key) ≤ later.countP (writes key ·.exchange)
  := by
  have hnil := h.trace_eq_nil hhistory hhands ⟨due, hdue, hkey⟩
  have htrace : s.history.trace i = later.trace i := by
    rw [hhistory, Interface.History.trace_append, hnil, List.append_nil]
  refine ⟨htrace, h.read i due ?_ hkey⟩
  rw [← htrace]
  exact hdue.1

/-- What a thread has read under an identifier is of the document that has it. -/
theorem key_of_outstanding (hknown : Known s) {due : Due}
    (hdue : Outstanding due (s.history.trace i)) {r : Operation} (hr : r ∈ s.state.operations)
    (hid : due.id = r.id) :
  due.key = r.key
  := by
  obtain ⟨x, hx, hmem⟩ := mem_dues.mp hdue.1
  obtain ⟨e, he, _, rfl⟩ := Interface.History.mem_trace.mp hx
  obtain ⟨r', hr', hid', hkey⟩ := hknown e he due hmem
  rw [← hkey, Store.eq_of_id hr' hr (hid'.trans hid)]

variable (hknown : Known s) (hhands : ∀ j, ¬ Handles key (earlier.trace j))
  (hhistory : s.history = later ++ earlier) (hasked : Accounts (s.history.trace i) q)
  (h : Reopened key document earlier later s)

include hhands hhistory hasked h in
theorem reopened_bodies :
  ∀ e ∈ (⟨i, t, q, (searchWorld.exec q c s.state).1⟩ :: later : Searching.History Call),
    writes key e.exchange = true → ∃ r, e.exchange = ⟨.upsert key.1 key.2 document, r⟩
  := by
  intro e he hwrites
  obtain rfl | he := List.mem_cons.mp he
  · obtain ⟨document', rfl⟩ := of_writes hwrites
    obtain ⟨due, hdue, hkey, _, hdocument⟩ := hasked
    obtain ⟨_, _, hdocument', _⟩ := h.of_outstanding hhistory (hhands i) hdue hkey
    rw [hdocument] at hdocument'
    obtain rfl := Option.some.inj hdocument'
    exact ⟨_, rfl⟩
  · exact h.bodies e he hwrites

include hhistory hasked h in
theorem reopened_fresh :
  ∀ j, earlier.trace j ≠ [] →
    dues (Interface.History.trace
      (⟨i, t, q, (searchWorld.exec q c s.state).1⟩ :: later : Searching.History Call) j) = []
  := by
  intro j hj
  by_cases hij : i = j
  · subst hij
    rw [Interface.History.trace_cons_same
      ⟨i, t, q, (searchWorld.exec q c s.state).1⟩ later, dues, List.flatMap_cons, ← dues,
      h.fresh i hj, List.append_nil]
    by_contra hread
    obtain ⟨due, hdue⟩ := List.exists_mem_of_ne_nil _ hread
    obtain ⟨rfl, _⟩ := of_mem_duesOf c hdue
    rw [Accounts, hhistory, Interface.History.trace_append] at hasked
    exact hj (List.append_eq_nil_iff.mp hasked).2
  · rw [@Interface.History.trace_cons_other _ _ ⟨i, t, q, (searchWorld.exec q c s.state).1⟩ j hij
      later]
    exact h.fresh j hj

include hhistory hasked h in
theorem reopened_read (j : Nat) :
  let later' : Searching.History Call := ⟨i, t, q, (searchWorld.exec q c s.state).1⟩ :: later
  ∀ due ∈ dues (later'.trace j), due.key = key →
    due.operation = .upsert ∧ due.document = some document ∧
      due.attempts + (later'.trace j).countP (writes key) ≤ later'.countP (writes key ·.exchange)
  := by
  intro later' due hdue hkey
  have hcount : later'.countP (writes key ·.exchange) = later.countP (writes key ·.exchange) +
      if writes key ⟨q, (searchWorld.exec q c s.state).1⟩ = true then 1 else 0 :=
    List.countP_cons
  rw [hcount]
  by_cases hij : i = j
  · subst hij
    have htrace : later'.trace i = ⟨q, (searchWorld.exec q c s.state).1⟩ :: later.trace i :=
      Interface.History.trace_cons_same ⟨i, t, q, (searchWorld.exec q c s.state).1⟩ later
    rw [htrace, dues, List.flatMap_cons, ← dues] at hdue
    rw [htrace, List.countP_cons]
    obtain hnow | hbefore := List.mem_append.mp hdue
    · -- the row is read as it stands, and is pending
      obtain ⟨rfl, r', hr', rfl, hpending⟩ := of_mem_duesOf c hnow
      obtain ⟨r, hr, hkey', hupsert, hdocument, _, hattempts, _⟩ := h.row
      obtain rfl := Store.eq_of_key hr' hr (hkey.trans hkey'.symm)
      have hfew := hattempts (by rw [hpending]; exact fun h => by cases h)
      rw [Accounts, hhistory, Interface.History.trace_append] at hasked
      rw [(List.append_eq_nil_iff.mp hasked).1]
      exact ⟨hupsert, hdocument, hfew⟩
    · obtain ⟨hupsert, hdocument, hfew⟩ := h.read i due hbefore hkey
      exact ⟨hupsert, hdocument, by omega⟩
  · have htrace : later'.trace j = later.trace j :=
      @Interface.History.trace_cons_other _ _ ⟨i, t, q, (searchWorld.exec q c s.state).1⟩ j hij
        later
    rw [htrace] at hdue ⊢
    obtain ⟨hupsert, hdocument, hfew⟩ := h.read j due hdue hkey
    exact ⟨hupsert, hdocument, by omega⟩

include hknown hhands hhistory hasked h in
theorem reopened_row (hrecords : records key ⟨q, (searchWorld.exec q c s.state).1⟩ = false) :
  let later' : Searching.History Call := ⟨i, t, q, (searchWorld.exec q c s.state).1⟩ :: later
  ∃ r ∈ (searchWorld.exec q c s.state).2.operations, r.key = key ∧ r.operation = .upsert ∧
    r.document = some document ∧
    (r.state = .succeeded → ∃ e ∈ later', e.exchange = ⟨.upsert key.1 key.2 document, .ok ()⟩) ∧
    (r.state ≠ .succeeded → r.attempts ≤ later'.countP (writes key ·.exchange)) ∧
    (r.state = .failed → MAX_ATTEMPTS ≤ r.attempts)
  := by
  intro later'
  obtain ⟨r, hr, rfl, hupsert, hdocument, hsucceeded, hattempts, hfailed⟩ := h.row
  have hcount : later.countP (writes r.key ·.exchange) ≤ later'.countP (writes r.key ·.exchange) :=
    List.Sublist.countP_le (List.sublist_cons_self _ _)
  have hsame : r ∈ (searchWorld.exec q c s.state).2.operations →
      ∃ r' ∈ (searchWorld.exec q c s.state).2.operations, r'.key = r.key ∧
        r'.operation = .upsert ∧ r'.document = some document ∧
        (r'.state = .succeeded →
          ∃ e ∈ later', e.exchange = ⟨.upsert r.key.1 r.key.2 document, .ok ()⟩) ∧
        (r'.state ≠ .succeeded → r'.attempts ≤ later'.countP (writes r.key ·.exchange)) ∧
        (r'.state = .failed → MAX_ATTEMPTS ≤ r'.attempts) := by
    intro hr'
    refine ⟨r, hr', rfl, hupsert, hdocument, ?_, fun hstate => (hattempts hstate).trans hcount,
      hfailed⟩
    intro hstate
    obtain ⟨e, he, hexchange⟩ := hsucceeded hstate
    exact ⟨e, List.mem_cons_of_mem _ he, hexchange⟩
  cases hmarks : marks r.id ⟨q, (searchWorld.exec q c s.state).1⟩ with
  | false => exact hsame (row_same c hr hupsert hrecords hmarks)
  | true =>
      obtain rfl | ⟨attempts, reason, exhausted, seconds, rfl⟩ := of_marks hmarks
      · cases c with
        | error e => exact hsame hr
        | ok drawn =>
            obtain ⟨due, hdue, hid, hacknowledged⟩ := hasked
            have hkey := key_of_outstanding hknown hdue hr hid
            obtain ⟨htrace, hdueUpsert, hdueDocument, _⟩ :=
              h.of_outstanding hhistory (hhands i) hdue hkey
            have hmem := hacknowledged document hdueUpsert hdueDocument
            rw [htrace] at hmem
            obtain ⟨e, he, _, hexchange⟩ := Interface.History.mem_trace.mp hmem
            have hchanged : Operation.succeeded drawn.now r ∈
                (searchWorld.exec (.sql (.markSucceeded r.id)) (.ok drawn) s.state).2.operations :=
              Store.mem_updateWhere.mpr ⟨r, hr, if_pos (beq_self_eq_true r.id)⟩
            refine ⟨_, hchanged, rfl, hupsert, hdocument, fun _ => ⟨e, ?_, ?_⟩, ?_, ?_⟩
            · exact List.mem_cons_of_mem _ he
            · rw [hexchange, ← hkey]
              rfl
            · exact fun hstate => absurd rfl hstate
            · exact fun hstate => by cases hstate
      · cases c with
        | error e => exact hsame hr
        | ok drawn =>
            obtain ⟨due, hdue, hid, htried⟩ := hasked
            have hkey := key_of_outstanding hknown hdue hr hid
            obtain ⟨htrace, hdueUpsert, hdueDocument, hfew⟩ :=
              h.of_outstanding hhistory (hhands i) hdue hkey
            obtain ⟨rfl, rfl, outcome, hmem⟩ := htried document hdueUpsert hdueDocument
            rw [htrace] at hmem
            have hwritten : 0 < (later.trace i).countP (writes r.key) := by
              apply List.countP_pos_iff.mpr
              refine ⟨_, hmem, ?_⟩
              rw [← hkey]
              exact beq_self_eq_true due.key
            have hchanged : Operation.failed (due.attempts + 1) reason
                (decide (due.attempts + 1 ≥ MAX_ATTEMPTS)) (after drawn.now seconds) r ∈
                (searchWorld.exec (.sql (.markFailed r.id (due.attempts + 1) reason
                  (decide (due.attempts + 1 ≥ MAX_ATTEMPTS)) seconds)) (.ok drawn)
                  s.state).2.operations :=
              Store.mem_updateWhere.mpr ⟨r, hr, if_pos (beq_self_eq_true r.id)⟩
            refine ⟨_, hchanged, rfl, hupsert, hdocument, ?_, fun _ => ?_, ?_⟩
            · intro hstate
              rw [Operation.failed] at hstate
              split at hstate
              · cases hstate
              · cases hstate
            · change due.attempts + 1 ≤ _
              omega
            · intro hstate
              rw [Operation.failed] at hstate
              split at hstate
              · rename_i hexhausted
                exact of_decide_eq_true hexhausted
              · cases hstate

end Exchange

/-- Every pool that can be reached from one, while nothing is recorded for a document, carries an
upsert of it. -/
def CarriedOn (search : Bool) (key : Key) (document : Json) (s : Indexing) : Prop :=
  ∀ (s' : Indexing) (later : Searching.History Call),
    Reaches searchWorld (Call.program search) (fun _ _ _ _ _ => True) s s' →
      s'.history = later ++ s.history → (∀ e ∈ later, records key e.exchange = false) →
        Carried key document later s'

section Reopening

variable {search : Bool} {key : Key} {document : Json} {s s' : Indexing}

theorem reopened_of_reaches (hdisc : s.Disciplined (fun _ => Accounts)) (hknown : Known s)
    (hhands : ∀ j, ¬ Handles key (s.history.trace j))
    (hrow : ∃ r ∈ s.state.operations, r.key = key ∧ r.operation = .upsert ∧
      r.document = some document ∧ r.state = .pending ∧ r.attempts = 0)
    (h : Reaches searchWorld (Call.program search) (fun _ _ _ _ _ => True) s s') :
  ∃ later, s'.history = later ++ s.history ∧
    ((∀ e ∈ later, records key e.exchange = false) →
      Reopened key document s.history later s')
  := by
  have haccounts : ∀ t, Asks Accounts (fun _ _ => True) (Call.program search t) [] :=
    fun t => Asks.mono (fun _ _ _ => trivial) (accounts_program search t)
  have hinv : Known s' ∧ ∃ later, s'.history = later ++ s.history ∧
      ((∀ e ∈ later, records key e.exchange = false) →
        Reopened key document s.history later s') := by
    apply (Step.inv (fun s' => Known s' ∧ ∃ later, s'.history = later ++ s.history ∧
      ((∀ e ∈ later, records key e.exchange = false) →
        Reopened key document s.history later s')) haccounts _ _ hdisc _ h).2
    · rintro s₁ t ⟨hknown, later, hhistory, hreopened⟩
      refine ⟨hknown, later, hhistory, fun hrecords => ?_⟩
      have hsame := hreopened hrecords
      exact ⟨hsame.row, hsame.bodies, hsame.read, hsame.fresh⟩
    · rintro s₁ i t q k c _ ⟨hknown, later, hhistory, hreopened⟩ _ hasked _
      refine ⟨known_exchange hknown i t q k c, _ :: later, congrArg _ hhistory, ?_⟩
      intro hrecords
      have hbefore := hreopened fun e he => hrecords e (List.mem_cons_of_mem _ he)
      constructor
      · exact reopened_row hknown hhands hhistory hasked hbefore
          (hrecords _ List.mem_cons_self)
      · exact reopened_bodies hhands hhistory hasked hbefore
      · exact reopened_read hhistory hasked hbefore
      · exact reopened_fresh hhistory hasked hbefore
    · refine ⟨hknown, [], rfl, fun _ => ?_⟩
      obtain ⟨r, hr, hkey, hupsert, hdocument, hpending, hattempts⟩ := hrow
      constructor
      · refine ⟨r, hr, hkey, hupsert, hdocument, ?_, ?_, ?_⟩
        · rw [hpending]
          exact fun hstate => by cases hstate
        · rw [hattempts]
          exact fun _ => Nat.zero_le _
        · rw [hpending]
          exact fun hstate => by cases hstate
      · intro e he
        cases he
      · intro i due hdue
        cases hdue
      · intro i _
        rfl
  exact hinv.2

/-- An upsert that was recorded is carried, since its row asks for it. -/
theorem Reopened.carried {earlier later : Searching.History Call}
    (h : Reopened key document earlier later s) (hhistory : s.history = later ++ earlier)
    (htried : s.Asking (fun _ => Accounts) AllTried) :
  Carried key document later s
  := by
  constructor
  · obtain ⟨r, hr, hkey, hupsert, hdocument, hsucceeded, hattempts, hfailed⟩ := h.row
    refine ⟨r, hr, hkey, hupsert, hdocument, hsucceeded, ?_, ?_⟩
    · intro hstate
      exact (hfailed hstate).trans (hattempts (by rw [hstate]; exact fun h => by cases h))
    · intro hstate drawn hdue
      apply mem_selectDue hr
      rw [Operation.isDue, hstate, decide_eq_true hdue]
      rfl
  · exact h.bodies
  · intro i t u hthread due hdue hkey
    obtain ⟨hupsert, hdocument, _⟩ := h.read i due hdue hkey
    have hended : AllTried t (s.history.trace i) := htried i t _ hthread
    have htrace : s.history.trace i = later.trace i := by
      by_cases hnil : earlier.trace i = []
      · rw [hhistory, Interface.History.trace_append, hnil, List.append_nil]
      · rw [h.fresh i hnil] at hdue
        cases hdue
    rw [htrace] at hended
    obtain ⟨r, hr⟩ := hended due hdue document hupsert hdocument
    obtain ⟨e, he, hi, hexchange⟩ := Interface.History.mem_trace.mp hr
    refine ⟨e, he, hi, ?_⟩
    rw [hexchange, ← hkey]
    exact beq_self_eq_true due.key

/-- While a row asks for the removal of a document, no upsert of it is carried. -/
theorem not_carriedOn {i : Nat} {t : Call} {q : SearchRequest}
    {k : Searching.Answer q → Program Searching Unit} {c : searchWorld.Choice q}
    (hasks : s.state.AsksRemoval key) :
  ¬ CarriedOn search key document (s.exchange searchWorld i t q k c)
  := by
  intro hcarried
  obtain ⟨r, hr, hkey, hremove⟩ := hasks
  obtain ⟨r', hr', _, hkey', hremove'⟩ := row_kept c hr
  obtain ⟨r'', hr'', hkey'', hupsert, _⟩ :=
    (hcarried _ [] .refl rfl (fun e he => by cases he)).row
  obtain rfl := Store.eq_of_key hr' hr'' ((hkey'.trans hkey).trans hkey''.symm)
  rw [hremove' hremove] at hupsert
  cases hupsert

/-- An upsert that is recorded is carried if no row asks for the removal of its document and no
drain has an operation on it in hand; and if it is carried, no row asks for the removal of its
document. -/
theorem upsert_carried_iff (search : Bool) {index : Key → Option Json} {s : Indexing}
    (h : Reaches searchWorld (Call.program search) (fun _ _ _ _ _ => True)
      (.initial (.idle index)) s)
    {i : Nat} {t : Call} {indexName documentId : String} {document : Json}
    {k : Searching.Answer (.sql (.enqueueUpsert indexName documentId document)) →
      Program Searching Unit}
    {c : searchWorld.Choice (.sql (.enqueueUpsert indexName documentId document))}
    (hthread : s.threads[i]? =
      some ⟨t, .call (.sql (.enqueueUpsert indexName documentId document)) k⟩)
    (hrecorded : (searchWorld.exec (.sql (.enqueueUpsert indexName documentId document)) c
      s.state).1.isOk = true) :
  (((∀ j, ¬ Handles (indexName, documentId) (s.history.trace j)) ∧
      ¬ s.state.AsksRemoval (indexName, documentId)) →
    CarriedOn search (indexName, documentId) document (s.exchange searchWorld i t
      (.sql (.enqueueUpsert indexName documentId document)) k c)) ∧
  (CarriedOn search (indexName, documentId) document (s.exchange searchWorld i t
      (.sql (.enqueueUpsert indexName documentId document)) k c) →
    ¬ s.state.AsksRemoval (indexName, documentId))
  := by
  have hstep : Reaches searchWorld (Call.program search) (fun _ _ _ _ _ => True) s
      (s.exchange searchWorld i t (.sql (.enqueueUpsert indexName documentId document)) k c) := by
    apply Relation.ReflTransGen.single
    apply Step.exchange
    · exact hthread
    · trivial
  have hreached := h.trans hstep
  constructor
  · rintro ⟨hhands, hasks⟩ s' later hreaches hhistory hrecords
    obtain ⟨hdisc, hknown⟩ := known_of_reaches hreached
    have hrow := upsert_of_recorded c hrecorded hasks
    have hhands' : ∀ j, ¬ Handles (indexName, documentId) ((s.exchange searchWorld i t
        (.sql (.enqueueUpsert indexName documentId document)) k c).history.trace j) := by
      intro j
      by_cases hij : i = j
      · subst hij
        rw [Pool.trace_exchange_same]
        rintro ⟨due, ⟨hdue, hcount⟩, hkey⟩
        rw [List.countP_cons_of_neg (fun h => by cases h)] at hcount
        exact hhands i ⟨due, ⟨hdue, hcount⟩, hkey⟩
      · rw [Pool.trace_exchange_other hij]
        exact hhands j
    obtain ⟨later', hhistory', hreopened⟩ := reopened_of_reaches hdisc hknown hhands' hrow hreaches
    obtain rfl := List.append_cancel_right (hhistory.symm.trans hhistory')
    exact (hreopened hrecords).carried hhistory (allTried_of_reaches (hreached.trans hreaches))
  · exact fun hcarried hasks => not_carriedOn hasks hcarried

end Reopening

/-! ### A removal that is done -/

/-- Before a thread that upserts a document has made its request. -/
def upserting : Indexing where
  threads := [⟨.enqueueUpsert "posts" "7" .null, Call.program true (.enqueueUpsert "posts" "7" .null)⟩]
  state := .idle nothing
  history := []

/-- An upsert of a document of which nothing has been asked is carried. -/
theorem upserting_carried :
  (searchWorld.exec (.sql (.enqueueUpsert "posts" "7" .null)) (.ok ⟨0, 1, id⟩)
      upserting.state).1.isOk = true ∧
    CarriedOn true ("posts", "7") .null (upserting.exchange searchWorld 0
      (.enqueueUpsert "posts" "7" .null) (.sql (.enqueueUpsert "posts" "7" .null))
      (fun _ => done ()) (.ok ⟨0, 1, id⟩))
  := by
  have hreaches : Reaches searchWorld (Call.program true) (fun _ _ _ _ _ => True)
      (.initial (.idle nothing)) upserting := by
    apply Relation.ReflTransGen.single
    apply Step.start
  have hrecorded : (searchWorld.exec (.sql (.enqueueUpsert "posts" "7" .null)) (.ok ⟨0, 1, id⟩)
      upserting.state).1.isOk = true := by
    decide +kernel
  refine ⟨hrecorded, ?_⟩
  apply (@upsert_carried_iff true nothing upserting hreaches 0 (.enqueueUpsert "posts" "7" .null)
    "posts" "7" .null (fun _ => done ()) (.ok ⟨0, 1, id⟩) rfl hrecorded).1
  constructor
  · rintro j ⟨due, ⟨hdue, _⟩, _⟩
    cases hdue
  · rintro ⟨r, hr, _⟩
    cases hr

/-- An upsert that is recorded after the removal of its document is done is not carried. -/
theorem settled_removal_swallows :
  ∃ (s : Indexing) (k : Except NoombatError Unit → Program Searching Unit),
    Reaches searchWorld (Call.program true) (fun _ _ _ _ _ => True)
      (.initial (.idle everything)) s ∧
    s.threads[1]? = some ⟨.enqueueUpsert "posts" "7" .null,
      .call (.sql (.enqueueUpsert "posts" "7" .null)) k⟩ ∧
    (searchWorld.exec (.sql (.enqueueUpsert "posts" "7" .null)) (.ok ⟨0, 2, id⟩)
      s.state).1.isOk = true ∧
    ¬ s.state.RemovalPending ("posts", "7") ∧
    ¬ CarriedOn true ("posts", "7") .null (s.exchange searchWorld 1
      (.enqueueUpsert "posts" "7" .null) (.sql (.enqueueUpsert "posts" "7" .null)) k
      (.ok ⟨0, 2, id⟩))
  := by
  have hplayed : ((Pool.play searchWorld (Call.program true) (fun _ _ _ _ _ => True) removing
      (.initial (.idle everything))).map fun s => decide (s.threads.length = 1 ∧
        (searchWorld.exec (.sql (.enqueueUpsert "posts" "7" .null)) (.ok ⟨0, 2, id⟩)
          s.state).1.isOk = true ∧
        s.state.operations.rows.map (fun r => (r.key, r.operation, r.state)) =
          [(("posts", "7"), .remove, .succeeded)])) = some true := by
    decide +kernel
  obtain ⟨s, hs, hdecided⟩ := Option.map_eq_some_iff.mp hplayed
  obtain ⟨hlength, hrecorded, hrows⟩ := of_decide_eq_true hdecided
  have hreaches := Pool.reaches_of_play _ _ _ hs
  refine ⟨_, fun _ => done (), hreaches.tail (Step.start s (.enqueueUpsert "posts" "7" .null)),
    ?_, hrecorded, ?_, ?_⟩
  · rw [List.getElem?_append_right (by omega), hlength]
    rfl
  · rintro ⟨r, hr, -, -, hpending⟩
    have hmem := List.mem_map_of_mem (f := fun r => (r.key, r.operation, r.state))
      (Table.mem_rows.mpr hr)
    rw [hrows, List.mem_singleton, hpending] at hmem
    cases (Prod.mk.inj (Prod.mk.inj hmem).2).2
  · apply not_carriedOn
    have hmem : ((("posts", "7"), .remove, .succeeded) : Key × _ × _) ∈
        s.state.operations.rows.map fun r => (r.key, r.operation, r.state) := by
      rw [hrows]
      exact List.mem_singleton_self _
    obtain ⟨r, hr, heq⟩ := List.mem_map.mp hmem
    exact ⟨r, Table.mem_rows.mp hr, (Prod.mk.inj heq).1, (Prod.mk.inj (Prod.mk.inj heq).2).1⟩

end Search
