import Mathlib.Data.List.Sort
import Noombat.Program.Threads
import Noombat.Table
import Noombat.Json
import Noombat.Federation.Database

/-!
# The delivery queue

The worker that delivers activities to remote inboxes.  It claims the rows that are due by
putting off their next attempt, and spawns a delivery of each; a delivery removes its row
when it is done with it, or puts it off again, longer each time.  An inbox that is gone takes
the rows for it out of the queue.

Each statement takes effect at once, at the time of the database, or fails and changes
nothing.  A delivery that was spawned runs whenever it does, or not at all.
-/

namespace Delivery

open Federation (Uuid DateTime NoombatError)
open Program

/-- How many rows a worker claims at once. -/
def BATCH : Nat :=
  50

/-- How many attempts are made to deliver a row. -/
def MAX_ATTEMPTS : Nat :=
  10

def seconds (n : Nat) : DateTime :=
  n * 1000000000

/-- For how long a row is claimed. -/
def CLAIM : DateTime :=
  seconds 3600

/-! ### The tables -/

/-- A row of `delivery_queue`. -/
structure QueueRow where
  id : Nat
  actorId : Uuid
  payload : Json
  targetInbox : String
  attempts : Nat
  nextRetry : DateTime

/-- Two rows differ in their identifiers. -/
def QueueRow.Apart (r r' : QueueRow) : Prop :=
  r.id ≠ r'.id

instance : DecidableRel QueueRow.Apart :=
  fun _ _ => inferInstanceAs (Decidable (_ ≠ _))

instance : Std.Symm QueueRow.Apart where
  symm _ _ h := Ne.symm h

/-- What a worker reads of a row that it claims. -/
structure DeliveryRow where
  id : Nat
  actorId : Uuid
  payload : Json
  targetInbox : String
  attempts : Nat

def QueueRow.claimed (r : QueueRow) : DeliveryRow :=
  ⟨r.id, r.actorId, r.payload, r.targetInbox, r.attempts⟩

/-- The columns of `actors` that an inbox is looked up in. -/
structure InboxOwner where
  apId : String
  isLocal : Bool
  inboxUrl : Option String
  sharedInboxUrl : Option String

/-- The tables, and the deliveries that have been spawned and not begun. -/
structure Depot where
  /-- The time of the database. -/
  clock : DateTime
  queue : Table QueueRow.Apart
  /-- The next identifier of a row. -/
  nextId : Nat
  actors : List InboxOwner
  tombstonedActors : List String
  follows : List Federation.Follow
  spawned : List DeliveryRow

/-! ### Statements -/

inductive QueueSql where
  | enqueue (actorId : Uuid) (payload : Json) (targetInbox : String)
  | claim
  | deleteRow (id : Nat)
  | retry (id : Nat) (nextRetry : DateTime)
  | selectByInbox (inbox : String)
  | tombstone (apId : String)
  | purge (inbox : String)

@[reducible]
def QueueSql.Result : QueueSql → Type
  | claim => List DeliveryRow
  | selectByInbox _ => List String
  | purge _ => Nat
  | _ => Unit

/-- How a statement fares: the message it fails with, if it does, the time that passes until
then, and the rows that it skips because another statement has locked them. -/
structure SqlChoice where
  error : Option String
  elapsed : Nat
  skipped : Nat → Bool

namespace Depot

variable (d : Depot)

def later (elapsed : Nat) : Depot :=
  { d with clock := d.clock + elapsed }

/-- The queue with the rows that satisfy `p` changed by `f`, which keeps their identifiers. -/
def updateQueue (p : QueueRow → Bool) (f : QueueRow → QueueRow) (keeps : ∀ r, (f r).id = r.id) :
    Depot :=
  { d with
    queue := d.queue.update p f (by
      intro r r' h
      simpa [QueueRow.Apart, keeps] using h) }

def enqueue (actorId : Uuid) (payload : Json) (targetInbox : String) :
    Except NoombatError Unit × Depot :=
  match d.queue.insert ⟨d.nextId, actorId, payload, targetInbox, 0, d.clock⟩ with
  | none => (.error (.database "duplicate key value violates unique constraint"), d)
  | some queue => (.ok (), { d with queue, nextId := d.nextId + 1 })

/-- The rows that are due and not locked, those due first at the front. -/
def due (skipped : Nat → Bool) : List QueueRow :=
  ((d.queue.rows.filter fun r =>
      decide (r.nextRetry ≤ d.clock) && decide (r.attempts < MAX_ATTEMPTS) && !skipped r.id)
    |>.insertionSort fun r r' => r.nextRetry ≤ r'.nextRetry).take BATCH

/-- The rows that are due are put off by the time of a claim. -/
def claim (skipped : Nat → Bool) : List DeliveryRow × Depot :=
  let rows := d.due skipped
  (rows.map QueueRow.claimed,
    d.updateQueue (fun r => rows.any (·.id == r.id))
      (fun r => { r with nextRetry := d.clock + CLAIM }) (fun _ => rfl))

/-- The URIs of the remote actors with an inbox. -/
def ownersOf (inbox : String) : List String :=
  (d.actors.filter fun a =>
    !a.isLocal && (a.inboxUrl == some inbox || a.sharedInboxUrl == some inbox)).map (·.apId)

end Depot

/-- The effect of a statement, at the time that the database has. -/
def QueueSql.exec (skipped : Nat → Bool) :
    (s : QueueSql) → Depot → Except NoombatError s.Result × Depot
  | enqueue actorId payload targetInbox, d => d.enqueue actorId payload targetInbox
  | claim, d => (.ok (d.claim skipped).1, (d.claim skipped).2)
  | deleteRow id, d => (.ok (), { d with queue := d.queue.delete (·.id == id) })
  | retry id nextRetry, d =>
      (.ok (), d.updateQueue (·.id == id)
        (fun r => { r with
          attempts := r.attempts + 1
          nextRetry }) (fun _ => rfl))
  | selectByInbox inbox, d => (.ok (d.ownersOf inbox), d)
  | tombstone apId, d =>
      (.ok (), if apId ∈ d.tombstonedActors then d
        else { d with tombstonedActors := apId :: d.tombstonedActors })
  | purge inbox, d =>
      (.ok (d.queue.rows.countP (·.targetInbox == inbox)),
        { d with queue := d.queue.delete (·.targetInbox == inbox) })

/-! ### Requests -/

/-- What a delivery signs with. -/
structure SigningCredentials where
  keyId : String
  apId : String

inductive DeliveryRequest where
  | sql (s : QueueSql)
  /-- A delivery of each row is spawned. -/
  | spawn (rows : List DeliveryRow)
  /-- A delivery that was spawned begins. -/
  | next
  | fetchSigningCredentials (actorId : Uuid)
  | signRequest (row : DeliveryRow) (creds : SigningCredentials)
  /-- The signed request is sent to the inbox of a row, which answers with a status. -/
  | execute (row : DeliveryRow)
  | utcNow

@[reducible]
def DeliveryRequest.Result : DeliveryRequest → Type
  | sql s => s.Result
  | spawn _ => Unit
  | next => Option DeliveryRow
  | fetchSigningCredentials _ => SigningCredentials
  | signRequest _ _ => Unit
  | execute _ => Nat
  | utcNow => DateTime

abbrev Delivering : Interface :=
  Interface.fallible NoombatError DeliveryRequest DeliveryRequest.Result

/-- What a request that leaves the tables alone is answered with, and the time it takes. -/
structure Answering (α : Type) where
  answer : Except NoombatError α
  elapsed : Nat

def deliveryWorld : World Delivering Depot where
  Choice
    | .sql _ => SqlChoice
    | .spawn _ => Unit
    | .next => Nat
    | .fetchSigningCredentials _ => Answering SigningCredentials
    | .signRequest _ _ => Answering Unit
    | .execute _ => Answering Nat
    | .utcNow => DateTime
  exec
    | .sql s, c, d =>
        match c.error with
        | some e => (.error (.database e), d.later c.elapsed)
        | none => s.exec c.skipped (d.later c.elapsed)
    | .spawn rows, _, d => (.ok (), { d with spawned := d.spawned ++ rows })
    | .next, i, d => (.ok d.spawned[i]?, { d with spawned := d.spawned.eraseIdx i })
    | .fetchSigningCredentials _, c, d => (c.answer, d.later c.elapsed)
    | .signRequest _ _, c, d => (c.answer, d.later c.elapsed)
    | .execute _, c, d => (c.answer, d.later c.elapsed)
    | .utcNow, now, d => (.ok now, d)

/-! ### The worker -/

/-- Claim the rows that are due, and spawn their deliveries. -/
def processQueue : Program Delivering Unit := do
  match ← request (I := Delivering) (.sql .claim) with
  | .error _ => return ()
  | .ok rows =>
      if rows.isEmpty then return ()
      else do
        let _ ← request (I := Delivering) (.spawn rows)
        return ()

/-- How long a failed delivery is put off. -/
def backoff (attempts : Nat) : DateTime :=
  min (seconds (60 * 2 ^ attempts)) (seconds (7 * 86400))

/-- Apply exponential backoff to a failed delivery. -/
def scheduleRetry (queueId currentAttempts : Nat) : Program Delivering Unit := do
  match ← request (I := Delivering) .utcNow with
  | .error _ => return ()
  | .ok now =>
      let _ ← request (I := Delivering) (.sql (.retry queueId (now + backoff currentAttempts)))
      return ()

/-- Each actor is tombstoned, whether the others are or not. -/
def tombstoneAll : List String → Program Delivering Unit
  | [] => return ()
  | apId :: apIds => do
      let _ ← request (I := Delivering) (.sql (.tombstone apId))
      tombstoneAll apIds

/-- The inbox of a row is gone: the row is removed, the actors with that inbox are tombstoned,
and so are the other rows for it. -/
def inboxGone (row : DeliveryRow) : Program Delivering Unit := do
  let _ ← request (I := Delivering) (.sql (.deleteRow row.id))
  let tombstoned ← request (I := Delivering) (.sql (.selectByInbox row.targetInbox))
  tombstoneAll (tombstoned.toOption.getD [])
  let _ ← request (I := Delivering) (.sql (.purge row.targetInbox))
  return ()

def isSuccess (status : Nat) : Bool :=
  200 ≤ status && status < 300

/-- Attempt delivery of a single activity to a remote inbox.  Whether this instance may reach
an inbox is decided by `inboxCheck`, from the URI alone. -/
def deliverOne (inboxCheck : String → Bool) (row : DeliveryRow) : Program Delivering Unit := do
  match ← request (I := Delivering) (.fetchSigningCredentials row.actorId) with
  | .error _ => scheduleRetry row.id row.attempts
  | .ok creds =>
      if inboxCheck row.targetInbox then do
        match ← request (I := Delivering) (.signRequest row creds) with
        | .error _ => scheduleRetry row.id row.attempts
        | .ok _ =>
            match ← request (I := Delivering) (.execute row) with
            | .ok status =>
                if isSuccess status then do
                  let _ ← request (I := Delivering) (.sql (.deleteRow row.id))
                  return ()
                else if status = 410 then inboxGone row
                else scheduleRetry row.id row.attempts
            | .error _ => scheduleRetry row.id row.attempts
      else do
        -- dropped rather than retried
        let _ ← request (I := Delivering) (.sql (.deleteRow row.id))
        return ()

/-! ### Calls -/

/-- What runs, in any number and at any time. -/
inductive Call where
  | enqueue (actorId : Uuid) (payload : Json) (targetInbox : String)
  | processQueue
  /-- A delivery that was spawned. -/
  | deliver

def Call.program (inboxCheck : String → Bool) : Call → Program Delivering Unit
  | enqueue actorId payload targetInbox => do
      let _ ← request (I := Delivering) (.sql (.enqueue actorId payload targetInbox))
      return ()
  | processQueue => Delivery.processQueue
  | deliver => do
      match ← request (I := Delivering) .next with
      | .ok (some row) => deliverOne inboxCheck row
      | _ => return ()

end Delivery
