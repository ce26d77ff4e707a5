import Noombat.Program.Threads
import Noombat.Federation.Database
import Mathlib.Data.List.Sort

/-!
# The search-index work queue

Search-index work is written down first and drained by a worker with backoff.  A removal
replaces a pending upsert, and an upsert does not replace a removal.  The statements on
`search_index_operations`, the writes to the index, and the calls that make them.

Each statement takes effect at once, or fails and changes nothing.  The index applies the
writes in the order in which they are made; a write that fails may have been applied.
-/

namespace Search

open Federation (Uuid DateTime NoombatError SearchOperation WorkState)
open Program

/-- How many attempts before an operation is given up on. -/
def MAX_ATTEMPTS : Nat :=
  8

/-- The seconds to wait after an attempt: doubling, and an hour at most. -/
def backoff (attempts : Nat) : Nat :=
  min (30 * 2 ^ min attempts 6) 3600

/-! ### The tables -/

/-- An index, and the identifier of a document in it. -/
abbrev Key : Type :=
  String × String

/-- A row of `search_index_operations`. -/
structure Operation extends Federation.SearchIndexOperation where
  id : Uuid
  nextAttemptAt : DateTime
  completedAt : Option DateTime

namespace Operation

def key (r : Operation) : Key :=
  (r.indexName, r.documentId)

/-- Two rows differ in their identifiers and in their documents. -/
def Apart (r r' : Operation) : Prop :=
  r.id ≠ r'.id ∧ r.key ≠ r'.key

instance : DecidableRel Apart :=
  fun r r' => inferInstanceAs (Decidable (r.id ≠ r'.id ∧ r.key ≠ r'.key))

instance : Std.Symm Apart where
  symm _ _ h := ⟨h.1.symm, h.2.symm⟩

def isDue (now : DateTime) (r : Operation) : Bool :=
  r.state == .pending && decide (r.nextAttemptAt ≤ now)

/-- The row, asking for a removal. -/
def removal (now : DateTime) (r : Operation) : Operation :=
  { r with
    operation := .remove
    document := none
    state := .pending
    attempts := 0
    lastError := none
    nextAttemptAt := now
    completedAt := none }

/-- The row, asking for an upsert of another body. -/
def upsertion (document : Json) (now : DateTime) (r : Operation) : Operation :=
  { r with
    document := some document
    state := .pending
    attempts := 0
    lastError := none
    nextAttemptAt := now
    completedAt := none }

/-- The row, done. -/
def succeeded (now : DateTime) (r : Operation) : Operation :=
  { r with
    state := .succeeded
    completedAt := some now
    attempts := r.attempts + 1
    lastError := none }

/-- The row, done by the immediate attempt. -/
def removed (now : DateTime) (r : Operation) : Operation :=
  { r with
    state := .succeeded
    completedAt := some now }

/-- The row, to be retried or given up on. -/
def failed (attempts : Nat) (reason : String) (exhausted : Bool) (retryAt : DateTime)
    (r : Operation) : Operation :=
  { r with
    attempts
    lastError := some reason
    state := if exhausted then .failed else .pending
    nextAttemptAt := retryAt }

end Operation

/-- A change of rows that leaves alone what identifies them. -/
structure Change where
  apply : Operation → Operation
  id_apply : ∀ r, (apply r).id = r.id
  key_apply : ∀ r, (apply r).key = r.key

/-- The queue, and the documents that the index holds. -/
structure Store where
  operations : Table Operation.Apart
  index : Key → Option Json

namespace Store

/-- The store with the rows that satisfy `p` changed. -/
def updateWhere (p : Operation → Bool) (f : Change) (store : Store) : Store :=
  { store with
    operations := store.operations.update p f.apply (by
      intro r r' h
      simpa [Operation.Apart, f.id_apply, f.key_apply] using h) }

/-- Nothing is queued, and the index holds the given documents. -/
def idle (index : Key → Option Json) : Store where
  operations := .empty
  index

end Store

/-! ### Statements -/

/-- What a drain reads of a row. -/
structure Due where
  id : Uuid
  indexName : String
  documentId : String
  operation : SearchOperation
  document : Option Json
  attempts : Nat

def Due.key (due : Due) : Key :=
  (due.indexName, due.documentId)

def Operation.due (r : Operation) : Due where
  id := r.id
  indexName := r.indexName
  documentId := r.documentId
  operation := r.operation
  document := r.document
  attempts := r.attempts

inductive SearchSql where
  | enqueueRemoval (index documentId : String)
  | enqueueUpsert (index documentId : String) (document : Json)
  | selectDue
  | markSucceeded (id : Uuid)
  | markFailed (id : Uuid) (attempts : Nat) (reason : String) (exhausted : Bool) (seconds : Nat)
  /-- The row is marked by what it asks for, not by its identifier. -/
  | markRemoved (index documentId : String)

inductive SearchRequest where
  | sql (s : SearchSql)
  /-- A write of a document to the index. -/
  | upsert (index documentId : String) (document : Json)
  /-- A deletion of a document from the index. -/
  | delete (index documentId : String)

@[reducible]
def SearchSql.Result : SearchSql → Type
  | selectDue => List Due
  | _ => Unit

/-- A write that fails is answered with what its error says. -/
@[reducible]
def SearchRequest.Answer : SearchRequest → Type
  | sql s => Except NoombatError s.Result
  | upsert _ _ _ => Except String Unit
  | delete _ _ => Except String Unit

/-- The time of the database, the identifier it draws, and the order of rows that the query
leaves open. -/
structure Drawn where
  now : DateTime
  id : Uuid
  order : Uuid → Nat

/-- How a statement fares: it fails, or it takes effect. -/
abbrev SqlChoice : Type :=
  Except NoombatError Drawn

/-- How a write to the index fares: the error, if it is not acknowledged, and then whether it
is applied nonetheless. -/
structure WriteChoice where
  error : Option String
  applied : Bool

/-- The columns of a row that is queued, with their defaults. -/
def Operation.new (index documentId : String) (operation : SearchOperation)
    (document : Option Json) (drawn : Drawn) : Operation where
  indexName := index
  documentId := documentId
  operation := operation
  document := document
  state := .pending
  attempts := 0
  lastError := none
  id := drawn.id
  nextAttemptAt := drawn.now
  completedAt := none

namespace Store

def indexNames : List String :=
  ["profiles", "posts", "jobs"]

/-- The row of a document is changed, where the change admits it, or inserted. -/
def enqueue (row : Operation) (admits : Operation → Bool) (f : Change) (store : Store) :
    Except NoombatError Unit × Store :=
  if row.indexName ∈ indexNames then
    if store.operations.rows.any (·.key == row.key) then
      (.ok (), store.updateWhere (fun r => r.key == row.key && admits r) f)
    else
      match store.operations.insert row with
      | some operations => (.ok (), { store with operations })
      | none =>
          (.error (.database "duplicate key value violates unique constraint"), store)
  else (.error (.database "new row violates check constraint"), store)

def remove (now : DateTime) : Change where
  apply := Operation.removal now
  id_apply _ := rfl
  key_apply _ := rfl

def replace (document : Json) (now : DateTime) : Change where
  apply := Operation.upsertion document now
  id_apply _ := rfl
  key_apply _ := rfl

def succeed (now : DateTime) : Change where
  apply := Operation.succeeded now
  id_apply _ := rfl
  key_apply _ := rfl

def clear (now : DateTime) : Change where
  apply := Operation.removed now
  id_apply _ := rfl
  key_apply _ := rfl

def fail (attempts : Nat) (reason : String) (exhausted : Bool) (retryAt : DateTime) :
    Change where
  apply := Operation.failed attempts reason exhausted retryAt
  id_apply _ := rfl
  key_apply _ := rfl

/-- Removals come first, and then what has been due longest. -/
def precedes (order : Uuid → Nat) (r r' : Operation) : Bool :=
  if r.operation = r'.operation then
    decide (r.nextAttemptAt < r'.nextAttemptAt) ||
      (r.nextAttemptAt == r'.nextAttemptAt && decide (order r.id ≤ order r'.id))
  else r.operation == .remove

def selectDue (drawn : Drawn) (store : Store) : List Due :=
  (((store.operations.rows.filter (·.isDue drawn.now)).insertionSort
    fun r r' => precedes drawn.order r r').take 100).map (·.due)

end Store

/-- The moment so many seconds later. -/
def after (now : DateTime) (seconds : Nat) : DateTime :=
  now + seconds * 1000000000

def SearchSql.exec : (s : SearchSql) → Drawn → Store →
    Except NoombatError s.Result × Store
  | enqueueRemoval index documentId, drawn, store =>
      store.enqueue (.new index documentId .remove none drawn) (fun _ => true)
        (Store.remove drawn.now)
  | enqueueUpsert index documentId document, drawn, store =>
      store.enqueue (.new index documentId .upsert (some document) drawn)
        (fun r => r.operation != .remove) (Store.replace document drawn.now)
  | selectDue, drawn, store => (.ok (store.selectDue drawn), store)
  | markSucceeded id, drawn, store =>
      (.ok (), store.updateWhere (·.id == id) (Store.succeed drawn.now))
  | markFailed id attempts reason exhausted seconds, drawn, store =>
      (.ok (), store.updateWhere (·.id == id)
        (Store.fail attempts reason exhausted (after drawn.now seconds)))
  | markRemoved index documentId, drawn, store =>
      (.ok (), store.updateWhere (fun r => r.key == (index, documentId) && r.operation == .remove)
        (Store.clear drawn.now))

namespace Store

/-- The store with a document put into the index, or taken out of it. -/
def write (key : Key) (document : Option Json) (store : Store) : Store :=
  { store with index := Function.update store.index key document }

@[simp]
theorem write_self (key : Key) (document : Option Json) (store : Store) :
  (store.write key document).index key = document
  := Function.update_self _ _ _

theorem write_of_ne {key key' : Key} (h : key' ≠ key) (document : Option Json) (store : Store) :
  (store.write key document).index key' = store.index key'
  := Function.update_of_ne h _ _

/-- A write that is acknowledged is applied. -/
def attemptWrite (key : Key) (document : Option Json) (c : WriteChoice) (store : Store) :
    Except String Unit × Store :=
  match c.error with
  | none => (.ok (), store.write key document)
  | some e => (.error e, if c.applied then store.write key document else store)

end Store

/-- The interface of the queue and the index. -/
abbrev Searching : Interface :=
  ⟨SearchRequest, SearchRequest.Answer⟩

def searchWorld : World Searching Store where
  Choice
    | .sql _ => SqlChoice
    | .upsert _ _ _ => WriteChoice
    | .delete _ _ => WriteChoice
  exec
    | .sql s, c, store =>
        match c with
        | .error e => (.error e, store)
        | .ok drawn => s.exec drawn store
    | .upsert index documentId document, c, store =>
        store.attemptWrite (index, documentId) (some document) c
    | .delete index documentId, c, store => store.attemptWrite (index, documentId) none c

/-! ### Enqueuing -/

def enqueueRemoval (index documentId : String) : Program Searching (Except NoombatError Unit) :=
  request (I := Searching) (.sql (.enqueueRemoval index documentId))

def enqueueUpsert (index documentId : String) (document : Json) :
    Program Searching (Except NoombatError Unit) :=
  request (I := Searching) (.sql (.enqueueUpsert index documentId document))

/-! ### Draining -/

/-- A failure to record is only logged. -/
def markSucceeded (id : Uuid) : Program Searching Unit := do
  let _ ← request (I := Searching) (.sql (.markSucceeded id))
  return ()

def markFailed (id : Uuid) (attempts : Nat) (reason : String) : Program Searching Unit := do
  let next := attempts + 1
  let exhausted := decide (next ≥ MAX_ATTEMPTS)
  let _ ← request (I := Searching) (.sql (.markFailed id next reason exhausted (backoff next)))
  return ()

/-- An operation has been tried: whether it succeeded is recorded, and returned as a count. -/
def record (due : Due) (outcome : Except String Unit) : Program Searching Nat :=
  match outcome with
  | .ok () => do
      markSucceeded due.id
      return 1
  | .error reason => do
      markFailed due.id due.attempts reason
      return 0

/-- One operation that is due is tried. -/
def drainOne (due : Due) : Program Searching Nat :=
  match due.operation, due.document with
  | .remove, _ => do
      let outcome ← request (I := Searching) (.delete due.indexName due.documentId)
      record due outcome
  | .upsert, some document => do
      let outcome ← request (I := Searching) (.upsert due.indexName due.documentId document)
      record due outcome
  | .upsert, none => do
      -- an upsert with no body cannot be retried into existence
      markFailed due.id MAX_ATTEMPTS "queued upsert carries no document"
      return 0

def drainAll : List Due → Nat → Program Searching Nat
  | [], succeeded => return succeeded
  | due :: rest, succeeded => do
      let n ← drainOne due
      drainAll rest (succeeded + n)

/-- Every operation that is due is tried once; the number of those that succeeded. -/
def drain (search : Bool) : Program Searching Nat :=
  if search then do
    let due ← request (I := Searching) (.sql .selectDue)
    match due with
    | .ok rows => drainAll rows 0
    | .error _ => return 0
  else return 0

/-! ### Immediate removals -/

def removeFromIndex (search : Bool) (index id : String) : Program Searching Unit :=
  if search then do
    let _ ← request (I := Searching) (.delete index id)
    return ()
  else return ()

/-- The removal is recorded, and then tried at once. -/
def removeFromIndexDurably (search : Bool) (index id : String) : Program Searching Unit := do
  let _ ← enqueueRemoval index id
  if search then do
    let outcome ← request (I := Searching) (.delete index id)
    match outcome with
    | .ok () => do
        let _ ← request (I := Searching) (.sql (.markRemoved index id))
        return ()
    | .error _ => return ()
  else return ()

/-! ### Calls -/

/-- What runs, in any order and any number of times. -/
inductive Call where
  | enqueueUpsert (index documentId : String) (document : Json)
  | enqueueRemoval (index documentId : String)
  | drain
  | removeFromIndex (index id : String)
  | removeFromIndexDurably (index id : String)

/-- The programs of an instance with or without a search backend. -/
def Call.program (search : Bool) : Call → Program Searching Unit
  | enqueueUpsert index documentId document => do
      let _ ← Search.enqueueUpsert index documentId document
      return ()
  | enqueueRemoval index documentId => do
      let _ ← Search.enqueueRemoval index documentId
      return ()
  | drain => do
      let _ ← Search.drain search
      return ()
  | removeFromIndex index id => Search.removeFromIndex search index id
  | removeFromIndexDurably index id => Search.removeFromIndexDurably search index id

end Search
