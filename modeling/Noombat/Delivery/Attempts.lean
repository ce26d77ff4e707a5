import Mathlib.Data.List.Perm.Basic
import Noombat.Program.Past
import Noombat.Delivery.Queue

/-!
# Attempts at delivery

A row leaves the queue only when its inbox has taken the activity, is gone or may not be
reached.  Provided that every delivery settles its row before the claim of it expires, no
row is claimed while a delivery of it is under way, and no more attempts are made for it
than the worker allows.
-/

namespace Delivery

open Federation (Uuid DateTime NoombatError)
open Program

abbrev Event : Type :=
  Interface.Event Delivering Call

abbrev Queueing : Type :=
  Pool Delivering Call Depot

/-! ### Exchanges -/

/-- The rows that an exchange claims. -/
def claimedRows : Delivering.Exchange → List DeliveryRow
  | ⟨.sql .claim, .ok rows⟩ => rows
  | _ => []

/-- The rows of which an exchange spawns deliveries. -/
def spawnedRows : Delivering.Exchange → List DeliveryRow
  | ⟨.spawn rows, _⟩ => rows
  | _ => []

/-- The row of which a delivery begins. -/
def takenRows : Delivering.Exchange → List DeliveryRow
  | ⟨.next, .ok (some row)⟩ => [row]
  | _ => []

def claimedIds (x : Delivering.Exchange) : List Nat :=
  (claimedRows x).map (·.id)

def spawnedIds (x : Delivering.Exchange) : List Nat :=
  (spawnedRows x).map (·.id)

def takenIds (x : Delivering.Exchange) : List Nat :=
  (takenRows x).map (·.id)

/-- The row that an exchange attempts to deliver. -/
def attemptedIds : Delivering.Exchange → List Nat
  | ⟨.execute row, _⟩ => [row.id]
  | _ => []

/-- The row that an exchange removes, or puts off, when its delivery is over. -/
def settledIds : Delivering.Exchange → List Nat
  | ⟨.sql (.deleteRow id), .ok _⟩ => [id]
  | ⟨.sql (.retry id _), .ok _⟩ => [id]
  | _ => []

/-- How often a row is among those of the exchanges. -/
def total (f : Delivering.Exchange → List Nat) (id : Nat) (h : Delivering.History Call) : Nat :=
  (h.flatMap fun e => f e.exchange).count id

/-- A row has been claimed more often than it has been settled. -/
def InFlight (id : Nat) (h : Delivering.History Call) : Prop :=
  total settledIds id h < total claimedIds id h

/-- The claim of no row expires before its delivery has settled it. -/
def Prompt : StepCondition deliveryWorld Call :=
  fun _ _ q c s => ∀ r ∈ s.state.queue, InFlight r.id s.history →
    (deliveryWorld.exec q c s.state).2.clock < r.nextRetry

instance (id : Nat) (h : Delivering.History Call) : Decidable (InFlight id h) :=
  inferInstanceAs (Decidable (_ < _))

instance Prompt.decidable (i : Nat) (t : Call) (q : DeliveryRequest)
    (c : deliveryWorld.Choice q) (s : Queueing) : Decidable (Prompt i t q c s) :=
  inferInstanceAs (Decidable (∀ r ∈ s.state.queue.rows, InFlight r.id s.history → _ < r.nextRetry))

/-! ### What the calls ask -/

/-- The delivery of a row is under way, and has not settled it. -/
structure Holding (row : DeliveryRow) (l : List Delivering.Exchange) : Prop where
  taken : l.flatMap takenRows = [row]
  settled : l.flatMap settledIds = []

/-- The inbox of a row may not be reached, has taken the activity, or is gone. -/
def Released (inboxCheck : String → Bool) (row : DeliveryRow) (l : List Delivering.Exchange) :
    Prop :=
  inboxCheck row.targetInbox = false ∨
    ∃ status, ⟨.execute row, .ok status⟩ ∈ l ∧ (isSuccess status = true ∨ status = 410)

/-- What a call makes a request for, after the exchanges it has had. -/
def Asked (inboxCheck : String → Bool) (l : List Delivering.Exchange) : DeliveryRequest → Prop
  | .sql .claim => l = []
  | .spawn rows => l = [⟨.sql .claim, .ok rows⟩]
  | .next => l = []
  | .execute row => Holding row l ∧ l.flatMap attemptedIds = []
  | .sql (.deleteRow id) => ∃ row, row.id = id ∧ Holding row l ∧ Released inboxCheck row l
  | .sql (.retry id _) => ∃ row, row.id = id ∧ Holding row l
  | .sql (.purge inbox) => ∃ row : DeliveryRow, row.targetInbox = inbox ∧
      ⟨.execute row, .ok 410⟩ ∈ l
  | _ => True

section Asks

variable {inboxCheck : String → Bool} {row : DeliveryRow} {l : List Delivering.Exchange}

theorem Holding.cons (h : Holding row l) {x : Delivering.Exchange} (htaken : takenRows x = [])
    (hsettled : settledIds x = []) :
  Holding row (x :: l)
  := by
  constructor
  · rw [List.flatMap_cons, htaken, List.nil_append, h.taken]
  · rw [List.flatMap_cons, hsettled, List.nil_append, h.settled]

theorem asks_scheduleRetry (hl : Holding row l) :
  Asks (Asked inboxCheck) (fun _ _ => True) (scheduleRetry row.id row.attempts) l
  := by
  refine ⟨trivial, ?_⟩
  rintro (e | now)
  · trivial
  · exact ⟨⟨row, rfl, hl.cons rfl rfl⟩, fun _ => trivial⟩

theorem asks_tombstoneAll (apIds : List String) {x : Delivering.Exchange} (hx : x ∈ l) :
  Asks (Asked inboxCheck) (fun _ l' => x ∈ l') (tombstoneAll apIds) l
  := by
  induction apIds generalizing l with
  | nil => exact hx
  | cons apId apIds ih =>
      refine ⟨trivial, ?_⟩
      intro r
      apply ih (List.mem_cons_of_mem _ hx)

theorem asks_inboxGone (hl : Holding row l) (hgone : ⟨.execute row, .ok 410⟩ ∈ l) :
  Asks (Asked inboxCheck) (fun _ _ => True) (inboxGone row) l
  := by
  refine ⟨⟨row, rfl, hl, .inr ⟨410, hgone, .inr rfl⟩⟩, ?_⟩
  intro _
  refine ⟨trivial, ?_⟩
  intro tombstoned
  dsimp only [Program.bind]
  rw [asks_bind]
  apply Asks.mono _ (asks_tombstoneAll _
    (List.mem_cons_of_mem _ (List.mem_cons_of_mem _ hgone)))
  intro _ l' hl'
  exact ⟨⟨row, rfl, hl'⟩, fun _ => trivial⟩

theorem asks_deliverOne (hl : Holding row l) (hfresh : l.flatMap attemptedIds = []) :
  Asks (Asked inboxCheck) (fun _ _ => True) (deliverOne inboxCheck row) l
  := by
  refine ⟨trivial, ?_⟩
  rintro (e | creds)
  · apply asks_scheduleRetry (hl.cons rfl rfl)
  · dsimp only
    split
    · refine ⟨trivial, ?_⟩
      rintro (e | _)
      · apply asks_scheduleRetry ((hl.cons rfl rfl).cons rfl rfl)
      · refine ⟨⟨(hl.cons rfl rfl).cons rfl rfl, hfresh⟩, ?_⟩
        rintro (e | status)
        · apply asks_scheduleRetry (((hl.cons rfl rfl).cons rfl rfl).cons rfl rfl)
        · have hheld := ((hl.cons (x := ⟨.fetchSigningCredentials row.actorId, .ok creds⟩) rfl
            rfl).cons (x := ⟨.signRequest row creds, .ok ()⟩) rfl rfl).cons
            (x := ⟨.execute row, .ok status⟩) rfl rfl
          dsimp only [Program.bind]
          split
          · rename_i hsuccess
            refine ⟨⟨row, rfl, hheld, .inr ⟨status, List.mem_cons_self, .inl hsuccess⟩⟩, ?_⟩
            intro _
            trivial
          · split
            · rename_i hstatus
              subst hstatus
              apply asks_inboxGone hheld List.mem_cons_self
            · apply asks_scheduleRetry hheld
    · rename_i hrefused
      refine ⟨⟨row, rfl, hl.cons rfl rfl, .inl (Bool.eq_false_iff.mpr hrefused)⟩, ?_⟩
      intro _
      trivial

theorem asks_program (inboxCheck : String → Bool) (t : Call) :
  Asks (Asked inboxCheck) (fun _ _ => True) (t.program inboxCheck) []
  := by
  cases t with
  | enqueue actorId payload targetInbox => exact ⟨trivial, fun _ => trivial⟩
  | processQueue =>
      refine ⟨rfl, ?_⟩
      rintro (e | rows)
      · trivial
      · dsimp only [Program.bind]
        split
        · trivial
        · exact ⟨rfl, fun _ => trivial⟩
  | deliver =>
      refine ⟨rfl, ?_⟩
      rintro (e | _ | row)
      · trivial
      · trivial
      · exact asks_deliverOne ⟨rfl, rfl⟩ rfl

end Asks

/-! ### What a request does to the queue -/

/-- What becomes of a row when an exchange is made at a time: it stays as it is, it is claimed,
or it is put off. -/
inductive QueueRow.Moves (now : DateTime) (x : Delivering.Exchange) : QueueRow → QueueRow → Prop
    where
  | same (r : QueueRow) (hclaimed : r.id ∉ claimedIds x) (hsettled : r.id ∉ settledIds x) :
      Moves now x r r
  | claimed (r : QueueRow) (hclaimed : r.claimed ∈ claimedRows x) (hsettled : settledIds x = []) :
      Moves now x r { r with nextRetry := now + CLAIM }
  | retried (r : QueueRow) (nextRetry : DateTime) (hclaimed : claimedIds x = [])
      (hsettled : settledIds x = [r.id]) :
      Moves now x r { r with
        attempts := r.attempts + 1
        nextRetry }

/-- A row is removed, or all rows for its inbox are. -/
def Removes (x : Delivering.Exchange) (r : QueueRow) : Prop :=
  x = ⟨.sql (.deleteRow r.id), .ok ()⟩ ∨ ∃ n, x = ⟨.sql (.purge r.targetInbox), .ok n⟩

/-- What an exchange does to the queue. -/
structure Depot.Moves (x : Delivering.Exchange) (d d' : Depot) : Prop where
  kept : ∀ r ∈ d.queue, (∃ r' ∈ d'.queue, r.Moves d'.clock x r') ∨ Removes x r
  source : ∀ r' ∈ d'.queue, (∃ r ∈ d.queue, r.Moves d'.clock x r') ∨
    (r'.id = d.nextId ∧ r'.attempts = 0 ∧ d'.nextId = d.nextId + 1 ∧ settledIds x = [])
  claimed : ∀ row ∈ claimedRows x, ∃ r ∈ d.queue, r.claimed = row ∧ r.nextRetry ≤ d'.clock ∧
    r.attempts < MAX_ATTEMPTS
  nodup : (claimedIds x).Nodup
  nextId : d.nextId ≤ d'.nextId
  follows : d'.follows = d.follows

section Exec

variable {d : Depot} {x : Delivering.Exchange}

/-- An exchange that leaves the queue alone. -/
theorem Depot.moves_of_queue_eq {d' : Depot} (hqueue : d'.queue = d.queue)
    (hnextId : d'.nextId = d.nextId) (hfollows : d'.follows = d.follows)
    (hclaimed : claimedRows x = []) (hsettled : settledIds x = []) :
  d.Moves x d'
  := by
  have hnone : claimedIds x = [] := by
    rw [claimedIds, hclaimed]
    rfl
  have hsame : ∀ r : QueueRow, r.Moves d'.clock x r := by
    intro r
    apply QueueRow.Moves.same
    · simp [hnone]
    · simp [hsettled]
  constructor
  · intro r hr
    exact .inl ⟨r, hqueue ▸ hr, hsame r⟩
  · intro r hr
    exact .inl ⟨r, hqueue ▸ hr, hsame r⟩
  · rw [hclaimed]
    simp
  · rw [hnone]
    exact List.nodup_nil
  · exact Nat.le_of_eq hnextId.symm
  · exact hfollows

/-- The rows that are removed satisfy `p`, and all others stay as they are. -/
theorem Depot.moves_of_delete {d' : Depot} {p : QueueRow → Bool}
    (hqueue : d'.queue = d.queue.delete p) (hnextId : d'.nextId = d.nextId)
    (hfollows : d'.follows = d.follows) (hclaimed : claimedRows x = [])
    (hremoves : ∀ r, p r = true → Removes x r)
    (hsettled : ∀ r : QueueRow, p r = false → r.id ∉ settledIds x) :
  d.Moves x d'
  := by
  have hnone : claimedIds x = [] := by
    rw [claimedIds, hclaimed]
    rfl
  have hsame : ∀ r : QueueRow, p r = false → r.Moves d'.clock x r := by
    intro r hp
    apply QueueRow.Moves.same
    · simp [hnone]
    · exact hsettled r hp
  constructor
  · intro r hr
    cases hp : p r with
    | true => exact .inr (hremoves r hp)
    | false => exact .inl ⟨r, hqueue ▸ Table.mem_delete.mpr ⟨hr, hp⟩, hsame r hp⟩
  · intro r hr
    obtain ⟨hr, hp⟩ := Table.mem_delete.mp (hqueue ▸ hr)
    exact .inl ⟨r, hr, hsame r hp⟩
  · rw [hclaimed]
    simp
  · rw [hnone]
    exact List.nodup_nil
  · exact Nat.le_of_eq hnextId.symm
  · exact hfollows

/-- The rows that are changed move on as the exchange says, and so do the others. -/
theorem Depot.moves_of_map {d' : Depot} {f : QueueRow → QueueRow}
    (hqueue : d'.queue.rows = d.queue.rows.map f) (hnextId : d'.nextId = d.nextId)
    (hfollows : d'.follows = d.follows) (hf : ∀ r ∈ d.queue, r.Moves d'.clock x (f r))
    (hclaimed : ∀ row ∈ claimedRows x, ∃ r ∈ d.queue, r.claimed = row ∧
      r.nextRetry ≤ d'.clock ∧ r.attempts < MAX_ATTEMPTS)
    (hnodup : (claimedIds x).Nodup) :
  d.Moves x d'
  := by
  constructor
  · intro r hr
    have hmem : f r ∈ d'.queue.rows := hqueue ▸ List.mem_map_of_mem hr
    exact .inl ⟨f r, hmem, hf r hr⟩
  · intro r' hr'
    obtain ⟨r, hr, rfl⟩ := List.mem_map.mp (hqueue ▸ Table.mem_rows.mpr hr')
    exact .inl ⟨r, hr, hf r hr⟩
  · exact hclaimed
  · exact hnodup
  · exact Nat.le_of_eq hnextId.symm
  · exact hfollows

theorem Depot.eq_of_id {r r' : QueueRow} (hr : r ∈ d.queue) (hr' : r' ∈ d.queue)
    (h : r.id = r'.id) :
  r = r'
  := Table.eq_of_not_apart hr hr' fun hapart => hapart h

/-- The rows that are due are in the queue, and each once. -/
theorem Depot.mem_due {skipped : Nat → Bool} {r : QueueRow} (h : r ∈ d.due skipped) :
  r ∈ d.queue ∧ r.nextRetry ≤ d.clock ∧ r.attempts < MAX_ATTEMPTS
  := by
  have hsorted := (List.mem_insertionSort _).mp (List.mem_of_mem_take h)
  obtain ⟨hr, hp⟩ := List.mem_filter.mp hsorted
  simp only [Bool.and_eq_true, decide_eq_true_eq] at hp
  exact ⟨hr, hp.1.1, hp.1.2⟩

theorem Depot.nodup_due (skipped : Nat → Bool) :
  ((d.due skipped).map (·.id)).Nodup
  := by
  have hrows : (d.queue.rows.map (·.id)).Nodup := List.pairwise_map.mpr d.queue.apart
  have hfilter : ∀ p : QueueRow → Bool, ((d.queue.rows.filter p).map (·.id)).Nodup := fun p =>
    hrows.sublist (List.filter_sublist.map _)
  rw [due]
  have hsort := ((List.perm_insertionSort (fun r r' : QueueRow => r.nextRetry ≤ r'.nextRetry)
    (d.queue.rows.filter fun r => decide (r.nextRetry ≤ d.clock) &&
      decide (r.attempts < MAX_ATTEMPTS) && !skipped r.id)).map (·.id)).nodup_iff.mpr (hfilter _)
  exact hsort.sublist ((List.take_sublist _ _).map _)

theorem exec_moves (skipped : Nat → Bool) (st : QueueSql) (d : Depot) :
  d.Moves ⟨.sql st, (st.exec skipped d).1⟩ (st.exec skipped d).2
  := by
  cases st with
  | enqueue actorId payload targetInbox =>
      rw [QueueSql.exec, Depot.enqueue]
      split
      · exact Depot.moves_of_queue_eq rfl rfl rfl rfl rfl
      · rename_i queue hinsert
        have hsame : ∀ r : QueueRow, r.Moves d.clock
            ⟨.sql (.enqueue actorId payload targetInbox), .ok ()⟩ r :=
          fun r => .same r (by simp [claimedIds, claimedRows]) (by simp [settledIds])
        constructor
        · intro r hr
          exact .inl ⟨r, (Table.mem_of_insert hinsert).mpr (.inr hr), hsame r⟩
        · intro r hr
          rcases (Table.mem_of_insert hinsert).mp hr with rfl | hr
          · exact .inr ⟨rfl, rfl, rfl, rfl⟩
          · exact .inl ⟨r, hr, hsame r⟩
        · intro row hrow
          cases hrow
        · exact List.nodup_nil
        · exact Nat.le_succ _
        · rfl
  | claim =>
      apply Depot.moves_of_map (by rfl) (by rfl) (by rfl)
      · intro r hr
        split
        · rename_i hany
          obtain ⟨r', hr', hid⟩ := List.any_eq_true.mp hany
          obtain rfl := Depot.eq_of_id (Depot.mem_due hr').1 hr (beq_iff_eq.mp hid)
          apply QueueRow.Moves.claimed
          · exact List.mem_map_of_mem hr'
          · rfl
        · rename_i hany
          apply QueueRow.Moves.same
          · intro hmem
            obtain ⟨row, hrow, hid⟩ := List.mem_map.mp hmem
            obtain ⟨r', hr', rfl⟩ := List.mem_map.mp hrow
            exact hany (List.any_eq_true.mpr ⟨r', hr', beq_iff_eq.mpr hid⟩)
          · simp [settledIds]
      · intro row hrow
        obtain ⟨r, hr, rfl⟩ := List.mem_map.mp hrow
        obtain ⟨hmem, hdue, hattempts⟩ := Depot.mem_due hr
        exact ⟨r, hmem, rfl, hdue, hattempts⟩
      · have hids : claimedIds ⟨.sql .claim, (QueueSql.claim.exec skipped d).1⟩ =
            (d.due skipped).map (·.id) := by
          change ((d.due skipped).map QueueRow.claimed).map (·.id) = _
          rw [List.map_map]
          rfl
        rw [hids]
        exact Depot.nodup_due skipped
  | deleteRow id =>
      apply Depot.moves_of_delete (p := fun r => r.id == id) (by rfl) (by rfl) (by rfl) (by rfl)
      · intro r hp
        obtain rfl := beq_iff_eq.mp hp
        exact .inl rfl
      · intro r hp hmem
        rw [List.mem_singleton.mp hmem, beq_self_eq_true] at hp
        cases hp
  | retry id nextRetry =>
      apply Depot.moves_of_map (by rfl) (by rfl) (by rfl)
      · intro r _
        split
        · rename_i hid
          obtain rfl := beq_iff_eq.mp hid
          exact .retried r nextRetry rfl rfl
        · rename_i hid
          apply QueueRow.Moves.same
          · simp [claimedIds, claimedRows]
          · intro hmem
            exact hid (beq_iff_eq.mpr (List.mem_singleton.mp hmem))
      · intro row hrow
        cases hrow
      · exact List.nodup_nil
  | selectByInbox inbox => exact Depot.moves_of_queue_eq rfl rfl rfl rfl rfl
  | tombstone apId =>
      rw [QueueSql.exec]
      split
      · exact Depot.moves_of_queue_eq rfl rfl rfl rfl rfl
      · exact Depot.moves_of_queue_eq rfl rfl rfl rfl rfl
  | purge inbox =>
      apply Depot.moves_of_delete (p := fun r => r.targetInbox == inbox) (by rfl) (by rfl) (by rfl) (by rfl)
      · intro r hp
        obtain rfl := beq_iff_eq.mp hp
        exact .inr ⟨_, rfl⟩
      · intro r _
        simp [settledIds]

/-- A statement that fails neither claims nor settles anything. -/
theorem claimedRows_error (st : QueueSql) (e : NoombatError) :
  claimedRows ⟨.sql st, .error e⟩ = []
  := by
  cases st <;> rfl

theorem settledIds_error (st : QueueSql) (e : NoombatError) :
  settledIds ⟨.sql st, .error e⟩ = []
  := by
  cases st <;> rfl

/-- What a request does to the queue. -/
theorem request_moves {q : DeliveryRequest} (c : deliveryWorld.Choice q) (d : Depot) :
  d.Moves ⟨q, (deliveryWorld.exec q c d).1⟩ (deliveryWorld.exec q c d).2
  := by
  cases q with
  | sql st =>
      cases herror : (show SqlChoice from c).error with
      | none =>
          have hexec : deliveryWorld.exec (.sql st) c d =
              st.exec (show SqlChoice from c).skipped (d.later (show SqlChoice from c).elapsed) := by
            simp only [deliveryWorld, herror]
          rw [hexec]
          obtain ⟨kept, source, claimed, nodup, nextId, follows⟩ :=
            exec_moves (show SqlChoice from c).skipped st (d.later (show SqlChoice from c).elapsed)
          exact ⟨kept, source, claimed, nodup, nextId, follows⟩
      | some e =>
          have hexec : deliveryWorld.exec (.sql st) c d =
              (.error (.database e), d.later (show SqlChoice from c).elapsed) := by
            simp only [deliveryWorld, herror]
          rw [hexec]
          exact Depot.moves_of_queue_eq rfl rfl rfl (claimedRows_error st _) (settledIds_error st _)
  | _ => exact Depot.moves_of_queue_eq rfl rfl rfl rfl rfl

end Exec

/-! ### The invariant -/

/-- A thread spawns at most what it claims, and attempts and settles at most what it takes. -/
structure Orderly (l : List Delivering.Exchange) : Prop where
  spawned : ∀ id, (l.flatMap spawnedIds).count id ≤ (l.flatMap claimedIds).count id
  attempted : ∀ id, (l.flatMap attemptedIds).count id ≤ (l.flatMap takenIds).count id
  settled : ∀ id, (l.flatMap settledIds).count id ≤ (l.flatMap takenIds).count id

/-- A row that is carried from the queue to its delivery has its identifier still, and the
inbox is that of the row of the queue. -/
def DeliveryRow.Fits (row : DeliveryRow) (d : Depot) : Prop :=
  row.id < d.nextId ∧ ∀ r ∈ d.queue, r.id = row.id → r.targetInbox = row.targetInbox

/-- The rows that an exchange carries. -/
def carried (x : Delivering.Exchange) : List DeliveryRow :=
  claimedRows x ++ spawnedRows x ++ takenRows x

/-- What holds of every pool whose queue was empty. -/
structure Tracked (s : Queueing) : Prop where
  orderly : ∀ i, Orderly (s.history.trace i)
  spawned : ∀ id, total takenIds id s.history + (s.state.spawned.map (·.id)).count id =
    total spawnedIds id s.history
  fits : ∀ e ∈ s.history, ∀ row ∈ carried e.exchange, row.Fits s.state
  waiting : ∀ row ∈ s.state.spawned, row.Fits s.state
  ids : ∀ r ∈ s.state.queue, r.id < s.state.nextId
  attempts : ∀ r ∈ s.state.queue, total settledIds r.id s.history = r.attempts

/-- What holds of the pools that are reached when every claim is settled before it expires. -/
structure Bounded (h : Delivering.History Call) : Prop where
  claimed : ∀ id, total claimedIds id h ≤ MAX_ATTEMPTS
  single : ∀ id, total claimedIds id h ≤ total settledIds id h + 1
  exclusive : Past.Throughout
    (fun e h => ∀ id ∈ claimedIds e.exchange, total claimedIds id h = total settledIds id h) h

theorem tracked_initial {d : Depot} (hqueue : ∀ r, ¬ r ∈ d.queue) (hspawned : d.spawned = []) :
  Tracked (.initial d)
  := by
  constructor
  case orderly =>
    intro i
    have hnone : (Pool.initial d : Queueing).history.trace i = [] := rfl
    rw [hnone]
    exact ⟨by simp, by simp, by simp⟩
  case spawned =>
    intro id
    change 0 + (d.spawned.map (·.id)).count id = 0
    rw [hspawned]
    rfl
  case fits =>
    intro e he
    cases he
  case waiting =>
    intro row hrow
    change row ∈ d.spawned at hrow
    rw [hspawned] at hrow
    cases hrow
  case ids =>
    intro r hr
    exact (hqueue r hr).elim
  case attempts =>
    intro r hr
    exact (hqueue r hr).elim

theorem bounded_nil :
  Bounded []
  where
  claimed _ := Nat.zero_le _
  single _ := Nat.zero_le _
  exclusive := trivial

theorem total_cons (f : Delivering.Exchange → List Nat) (id : Nat) (e : Event)
    (h : Delivering.History Call) :
  total f id (e :: h) = (f e.exchange).count id + total f id h
  := by
  rw [total, List.flatMap_cons, List.count_append]
  rfl

theorem Orderly.total_le {h : Delivering.History Call} (horderly : ∀ i, Orderly (h.trace i))
    (id : Nat) :
  total spawnedIds id h ≤ total claimedIds id h ∧
    total attemptedIds id h ≤ total takenIds id h ∧ total settledIds id h ≤ total takenIds id h
  := ⟨Interface.History.count_flatMap_le_of_threads fun i => (horderly i).spawned id,
    Interface.History.count_flatMap_le_of_threads fun i => (horderly i).attempted id,
    Interface.History.count_flatMap_le_of_threads fun i => (horderly i).settled id⟩

/-- At most what was claimed is settled, or attempted. -/
theorem Tracked.total_le {s : Queueing} (h : Tracked s) (id : Nat) :
  total settledIds id s.history ≤ total claimedIds id s.history ∧
    total attemptedIds id s.history ≤ total claimedIds id s.history
  := by
  obtain ⟨hspawned, hattempted, hsettled⟩ := Orderly.total_le h.orderly id
  have hsum := h.spawned id
  omega

theorem Holding.takenIds {row : DeliveryRow} {l : List Delivering.Exchange} (h : Holding row l) :
  l.flatMap takenIds = [row.id]
  := by
  have hmap : l.flatMap Delivery.takenIds = (l.flatMap takenRows).map (·.id) := by
    rw [List.map_flatMap]
    rfl
  rw [hmap, h.taken]
  rfl

theorem count_flatMap_cons_le {f g : Delivering.Exchange → List Nat}
    {l : List Delivering.Exchange} {x : Delivering.Exchange}
    (h : ∀ id, (l.flatMap f).count id ≤ (l.flatMap g).count id)
    (hx : f x = [] ∨ ∀ id, (f x).count id + (l.flatMap f).count id ≤ (l.flatMap g).count id) :
  ∀ id, ((x :: l).flatMap f).count id ≤ ((x :: l).flatMap g).count id
  := by
  intro id
  rw [List.flatMap_cons, List.flatMap_cons, List.count_append, List.count_append]
  rcases hx with hnone | hsome
  · rw [hnone, List.count_nil, Nat.zero_add]
    exact Nat.le_add_left_of_le (h id)
  · exact Nat.le_add_left_of_le (hsome id)

/-- An exchange that a call makes keeps its thread orderly. -/
theorem Orderly.cons {inboxCheck : String → Bool} {l : List Delivering.Exchange}
    (h : Orderly l) {x : Delivering.Exchange} (hasked : Asked inboxCheck l x.request) :
  Orderly (x :: l)
  := by
  obtain ⟨q, a⟩ := x
  have hheld : ∀ row : DeliveryRow, Holding row l →
      ∀ id, [row.id].count id + (l.flatMap settledIds).count id ≤ (l.flatMap takenIds).count id := by
    intro row hrow id
    rw [hrow.settled, hrow.takenIds, List.count_nil, Nat.add_zero]
  constructor
  · apply count_flatMap_cons_le h.spawned
    cases q with
    | spawn rows =>
        right
        intro id
        rw [show l = [⟨.sql .claim, .ok rows⟩] from hasked]
        simp [spawnedIds, claimedIds, spawnedRows, claimedRows]
    | _ => exact .inl rfl
  · apply count_flatMap_cons_le h.attempted
    cases q with
    | execute row =>
        obtain ⟨hrow, hnone⟩ := hasked
        right
        intro id
        rw [hnone, hrow.takenIds, List.count_nil, Nat.add_zero]
        exact Nat.le_refl _
    | _ => exact .inl rfl
  · apply count_flatMap_cons_le h.settled
    cases q with
    | sql st =>
        cases st with
        | deleteRow id =>
            obtain ⟨row, rfl, hrow, _⟩ := hasked
            cases a with
            | error e => exact .inl rfl
            | ok u => exact .inr (hheld row hrow)
        | retry id nextRetry =>
            obtain ⟨row, rfl, hrow⟩ := hasked
            cases a with
            | error e => exact .inl rfl
            | ok u => exact .inr (hheld row hrow)
        | _ => exact .inl rfl
    | _ => exact .inl rfl

theorem sql_spawned (st : QueueSql) (c : SqlChoice) (d : Depot) :
  (deliveryWorld.exec (.sql st) c d).2.spawned = d.spawned
  := by
  simp only [deliveryWorld]
  split
  · rfl
  · cases st with
    | enqueue actorId payload targetInbox =>
        rw [QueueSql.exec, Depot.enqueue]
        split
        · rfl
        · rfl
    | tombstone apId =>
        rw [QueueSql.exec]
        split
        · rfl
        · rfl
    | _ => rfl

/-- Only the spawning and the beginning of deliveries changes which are waiting. -/
theorem request_spawned {q : DeliveryRequest} (c : deliveryWorld.Choice q) (d : Depot) (id : Nat) :
  (takenIds ⟨q, (deliveryWorld.exec q c d).1⟩).count id +
      ((deliveryWorld.exec q c d).2.spawned.map (·.id)).count id =
    (spawnedIds ⟨q, (deliveryWorld.exec q c d).1⟩).count id + (d.spawned.map (·.id)).count id
  := by
  cases q with
  | sql st =>
      rw [sql_spawned st c d]
      rfl
  | spawn rows =>
      change 0 + ((d.spawned ++ rows).map (·.id)).count id = (rows.map (·.id)).count id + _
      rw [List.map_append, List.count_append]
      omega
  | next =>
      have htaken : ∀ i : Nat, (takenIds ⟨.next, .ok d.spawned[i]?⟩).count id +
          ((d.spawned.eraseIdx i).map (·.id)).count id = (d.spawned.map (·.id)).count id := by
        intro i
        by_cases hi : i < d.spawned.length
        · have hperm := ((List.getElem_cons_eraseIdx_perm hi).map (·.id)).count_eq id
          rw [List.map_cons, List.count_cons] at hperm
          rw [List.getElem?_eq_getElem hi, ← hperm, Nat.add_comm]
          congr 1
          exact List.count_singleton
        · rw [List.getElem?_eq_none (Nat.le_of_not_lt hi),
            List.eraseIdx_of_length_le (Nat.le_of_not_lt hi)]
          exact Nat.zero_add _
      rw [show (spawnedIds ⟨.next, _⟩).count id = 0 from rfl, Nat.zero_add]
      exact htaken c
  | _ => rfl

theorem DeliveryRow.Fits.moves {row : DeliveryRow} {d d' : Depot} {x : Delivering.Exchange}
    (h : row.Fits d) (hmoves : d.Moves x d') :
  row.Fits d'
  := by
  constructor
  · exact Nat.lt_of_lt_of_le h.1 hmoves.nextId
  · intro r' hr' hid
    rcases hmoves.source r' hr' with ⟨r, hr, hmove⟩ | ⟨hnew, _⟩
    · cases hmove with
      | same => exact h.2 r' hr hid
      | claimed => exact h.2 r hr hid
      | retried => exact h.2 r hr hid
    · exact absurd (hid.symm.trans hnew) (Nat.ne_of_lt h.1)

section Preserved

variable {inboxCheck : String → Bool} {q : DeliveryRequest} {i : Nat} {t : Call}
  {c : deliveryWorld.Choice q} {s : Queueing} (htracked : Tracked s)
  (hasked : Asked inboxCheck (s.history.trace i) q) {k : Delivering.Answer q → Program Delivering Unit}

include htracked

/-- A row that has its own identifier for a claim fits the queue. -/
theorem Tracked.fits_claimed {r : QueueRow} (hr : r ∈ s.state.queue) :
  r.claimed.Fits s.state
  := by
  constructor
  · exact htracked.ids r hr
  · intro r' hr' hid
    rw [Depot.eq_of_id hr' hr hid]
    rfl

/-- Nothing has been claimed under an identifier that is not in use yet. -/
theorem Tracked.total_new :
  total settledIds s.state.nextId s.history = 0
  := by
  have hclaimed : total claimedIds s.state.nextId s.history = 0 := by
    apply List.count_eq_zero.mpr
    intro hmem
    obtain ⟨e, he, hid⟩ := List.mem_flatMap.mp hmem
    obtain ⟨row, hrow, hid⟩ := List.mem_map.mp hid
    have hfits := htracked.fits e he row (by simp [carried, hrow])
    exact absurd hid (Nat.ne_of_lt hfits.1)
  have hle := (htracked.total_le s.state.nextId).1
  omega

theorem tracked_attempts :
  ∀ r ∈ (s.exchange deliveryWorld i t q k c).state.queue,
    total settledIds r.id (s.exchange deliveryWorld i t q k c).history = r.attempts
  := by
  intro r' hr'
  rw [Pool.exchange, total_cons]
  rcases (request_moves c s.state).source r' hr' with
    ⟨r, hr, hmove⟩ | ⟨hid, hattempts, _, hsettled⟩
  · have hbefore := htracked.attempts r hr
    cases hmove with
    | same hclaimed hsettled =>
        dsimp only
        rw [List.count_eq_zero.mpr hsettled, Nat.zero_add, hbefore]
    | claimed hclaimed hsettled =>
        dsimp only
        rw [hsettled, List.count_nil, Nat.zero_add, hbefore]
    | retried nextRetry hclaimed hsettled =>
        dsimp only
        rw [hsettled, hbefore, List.count_singleton_self, Nat.add_comm]
  · dsimp only
    rw [hsettled, hid, htracked.total_new, hattempts]
    rfl

include hasked

theorem tracked_carried :
  ∀ row ∈ carried ⟨q, (deliveryWorld.exec q c s.state).1⟩, row.Fits s.state
  := by
  intro row hrow
  simp only [carried, List.mem_append] at hrow
  rcases hrow with (hclaimed | hspawned) | htaken
  · obtain ⟨r, hr, rfl, _⟩ := (request_moves c s.state).claimed row hclaimed
    exact htracked.fits_claimed hr
  · cases q with
    | spawn rows =>
        have hmem : (⟨.sql .claim, .ok rows⟩ : Delivering.Exchange) ∈ s.history.trace i := by
          rw [show s.history.trace i = [⟨.sql .claim, .ok rows⟩] from hasked]
          exact List.mem_singleton_self _
        obtain ⟨e, he, _, hexchange⟩ := Interface.History.mem_trace.mp hmem
        apply htracked.fits e he
        rw [hexchange]
        simp only [carried, claimedRows, List.mem_append]
        exact .inl (.inl hspawned)
    | _ => cases hspawned
  · cases q with
    | next =>
        have hmem : ∀ o : Option DeliveryRow, row ∈ takenRows ⟨.next, .ok o⟩ → o = some row := by
          rintro (_ | row') h
          · cases h
          · rw [List.mem_singleton.mp h]
        exact htracked.waiting row (List.mem_of_getElem? (hmem _ htaken))
    | sql st => cases htaken
    | _ => cases htaken

theorem tracked_waiting :
  ∀ row ∈ (s.exchange deliveryWorld i t q k c).state.spawned, row.Fits s.state
  := by
  intro row hrow
  cases q with
  | sql st =>
      rw [Pool.exchange, sql_spawned st c s.state] at hrow
      exact htracked.waiting row hrow
  | spawn rows =>
      rcases List.mem_append.mp hrow with hwaiting | hspawned
      · exact htracked.waiting row hwaiting
      · apply tracked_carried (c := c) htracked hasked
        simp only [carried, spawnedRows, List.mem_append]
        exact .inl (.inr hspawned)
  | next => exact htracked.waiting row (List.mem_of_mem_eraseIdx hrow)
  | _ => exact htracked.waiting row hrow

theorem tracked_exchange :
  Tracked (s.exchange deliveryWorld i t q k c)
  := by
  have hmoves := request_moves c s.state
  constructor
  case orderly =>
    intro j
    by_cases hij : i = j
    · subst hij
      rw [Pool.trace_exchange_same]
      apply (htracked.orderly i).cons hasked
    · rw [Pool.trace_exchange_other hij]
      exact htracked.orderly j
  case spawned =>
    intro id
    have hsum := htracked.spawned id
    have hrequest := request_spawned c s.state id
    rw [Pool.exchange, total_cons, total_cons]
    dsimp only
    omega
  case fits =>
    intro e he row hrow
    have hbefore : row.Fits s.state := by
      rcases List.mem_cons.mp he with rfl | he
      · exact tracked_carried htracked hasked row hrow
      · exact htracked.fits e he row hrow
    exact hbefore.moves hmoves
  case waiting =>
    intro row hrow
    exact (tracked_waiting htracked hasked row hrow).moves hmoves
  case ids =>
    intro r' hr'
    rcases hmoves.source r' hr' with ⟨r, hr, hmove⟩ | ⟨hid, _, hnext, _⟩
    · have hid : r'.id = r.id := by
        cases hmove <;> rfl
      rw [hid]
      exact Nat.lt_of_lt_of_le (htracked.ids r hr) hmoves.nextId
    · change r'.id < (deliveryWorld.exec q c s.state).2.nextId
      rw [hid, hnext]
      exact Nat.lt_succ_self _
  case attempts => exact tracked_attempts htracked

end Preserved

/-! ### Attempts and claims -/

/-- A row is claimed only when no delivery of it is under way and it may still be attempted. -/
theorem bounded_exchange {q : DeliveryRequest} {i : Nat} {t : Call} {c : deliveryWorld.Choice q}
    {s : Queueing} (htracked : Tracked s) (hbounded : Bounded s.history)
    (hC : Prompt i t q c s) {k : Delivering.Answer q → Program Delivering Unit} :
  Bounded (s.exchange deliveryWorld i t q k c).history
  := by
  have hmoves := request_moves c s.state
  -- a row that is claimed is due, and its last claim has not expired if it is not settled
  have hidle : ∀ id ∈ claimedIds ⟨q, (deliveryWorld.exec q c s.state).1⟩,
      total claimedIds id s.history = total settledIds id s.history ∧
        total settledIds id s.history < MAX_ATTEMPTS := by
    intro id hid
    obtain ⟨row, hrow, rfl⟩ := List.mem_map.mp hid
    obtain ⟨r, hr, rfl, hdue, hattempts⟩ := hmoves.claimed row hrow
    have hle := (htracked.total_le r.id).1
    have hnot : ¬ InFlight r.id s.history := fun hflight =>
      absurd hdue (Int.not_le.mpr (hC r hr hflight))
    rw [InFlight, Nat.not_lt] at hnot
    constructor
    · exact Nat.le_antisymm hnot hle
    · change total settledIds r.id s.history < MAX_ATTEMPTS
      rw [htracked.attempts r hr]
      exact hattempts
  have hcount : ∀ id, (claimedIds ⟨q, (deliveryWorld.exec q c s.state).1⟩).count id ≤ 1 :=
    fun id => List.nodup_iff_count_le_one.mp hmoves.nodup id
  constructor
  · intro id
    rw [Pool.exchange, total_cons]
    by_cases hid : id ∈ claimedIds ⟨q, (deliveryWorld.exec q c s.state).1⟩
    · obtain ⟨heq, hlt⟩ := hidle id hid
      have hone := hcount id
      dsimp only
      omega
    · dsimp only
      rw [List.count_eq_zero.mpr hid, Nat.zero_add]
      exact hbounded.claimed id
  · intro id
    rw [Pool.exchange, total_cons, total_cons]
    by_cases hid : id ∈ claimedIds ⟨q, (deliveryWorld.exec q c s.state).1⟩
    · obtain ⟨heq, _⟩ := hidle id hid
      have hone := hcount id
      dsimp only
      omega
    · have hsingle := hbounded.single id
      dsimp only
      rw [List.count_eq_zero.mpr hid, Nat.zero_add]
      omega
  · exact ⟨fun id hid => (hidle id hid).1, hbounded.exclusive⟩

/-! ### Rows that leave the queue -/

/-- The inbox of a row may not be reached, has taken the activity, or is gone. -/
def Gone (inboxCheck : String → Bool) (r : QueueRow) (h : Delivering.History Call) : Prop :=
  inboxCheck r.targetInbox = false ∨
    ∃ e ∈ h, ∃ row status, e.exchange = ⟨.execute row, .ok status⟩ ∧
      row.targetInbox = r.targetInbox ∧ ((row.id = r.id ∧ isSuccess status = true) ∨ status = 410)

/-- A row is in the queue, or has left it as it may. -/
def Accounted (inboxCheck : String → Bool) (r : QueueRow) (s : Queueing) : Prop :=
  (∃ r' ∈ s.state.queue, r'.id = r.id ∧ r'.targetInbox = r.targetInbox) ∨
    Gone inboxCheck r s.history

theorem accounted_exchange {inboxCheck : String → Bool} {q : DeliveryRequest} {i : Nat} {t : Call}
    {c : deliveryWorld.Choice q} {s : Queueing} (htracked : Tracked s)
    (hasked : Asked inboxCheck (s.history.trace i) q) {r : QueueRow}
    (hr : Accounted inboxCheck r s) {k : Delivering.Answer q → Program Delivering Unit} :
  Accounted inboxCheck r (s.exchange deliveryWorld i t q k c)
  := by
  have hlater : Gone inboxCheck r s.history →
      Gone inboxCheck r (s.exchange deliveryWorld i t q k c).history := by
    rintro (hrefused | ⟨e, he, hexecuted⟩)
    · exact .inl hrefused
    · exact .inr ⟨e, List.mem_cons_of_mem _ he, hexecuted⟩
  rcases hr with ⟨r', hr', hid, hinbox⟩ | hgone
  · rcases (request_moves c s.state).kept r' hr' with ⟨r'', hr'', hmove⟩ | hremoves
    · left
      use r'', hr''
      cases hmove with
      | same => exact ⟨hid, hinbox⟩
      | claimed => exact ⟨hid, hinbox⟩
      | retried => exact ⟨hid, hinbox⟩
    · right
      apply hlater
      rcases hremoves with hdelete | ⟨n, hpurge⟩
      · obtain rfl := (Interface.Exchange.mk.inj hdelete).1
        obtain ⟨row, hrow, hheld, hreleased⟩ := hasked
        have hmem : row ∈ (s.history.trace i).flatMap takenRows := by
          rw [hheld.taken]
          exact List.mem_singleton_self _
        obtain ⟨x, hx, htaken⟩ := List.mem_flatMap.mp hmem
        obtain ⟨e, he, _, rfl⟩ := Interface.History.mem_trace.mp hx
        have hfits := htracked.fits e he row (by simp [carried, htaken])
        have hsame : r.targetInbox = row.targetInbox :=
          hinbox.symm.trans (hfits.2 r' hr' hrow.symm)
        rcases hreleased with hrefused | ⟨status, hexecuted, hstatus⟩
        · left
          rw [hsame]
          exact hrefused
        · obtain ⟨e', he', _, hexchange⟩ := Interface.History.mem_trace.mp hexecuted
          refine .inr ⟨e', he', row, status, hexchange, hsame.symm, ?_⟩
          rcases hstatus with hsuccess | hgone
          · exact .inl ⟨hrow.trans hid, hsuccess⟩
          · exact .inr hgone
      · obtain rfl := (Interface.Exchange.mk.inj hpurge).1
        obtain ⟨row, hrow, hexecuted⟩ := hasked
        obtain ⟨e', he', _, hexchange⟩ := Interface.History.mem_trace.mp hexecuted
        exact .inr ⟨e', he', row, 410, hexchange, hrow.trans hinbox, .inr rfl⟩
  · exact .inr (hlater hgone)

/-! ### Runs -/

theorem tracked_reaches {inboxCheck : String → Bool} {s s' : Queueing}
    (hdisc : s.Disciplined fun _ => Asked inboxCheck) (htracked : Tracked s)
    (hbounded : Bounded s.history)
    (h : Reaches deliveryWorld (Call.program inboxCheck) Prompt s s') :
  s'.Disciplined (fun _ => Asked inboxCheck) ∧ Tracked s' ∧ Bounded s'.history ∧
    (∀ r ∈ s.state.queue, Accounted inboxCheck r s') ∧ s'.state.follows = s.state.follows
  := by
  apply Step.inv (fun s' => Tracked s' ∧ Bounded s'.history ∧
    (∀ r ∈ s.state.queue, Accounted inboxCheck r s') ∧ s'.state.follows = s.state.follows)
    (asks_program inboxCheck) _ _ hdisc _ h
  · rintro s₁ t ⟨htracked, hrest⟩
    obtain ⟨orderly, spawned, fits, waiting, ids, attempts⟩ := htracked
    exact ⟨⟨orderly, spawned, fits, waiting, ids, attempts⟩, hrest⟩
  · rintro s₁ i t q k c _ ⟨htracked, hbounded, haccounted, hfollows⟩ _ hasked hC
    refine ⟨tracked_exchange htracked hasked, bounded_exchange htracked hbounded hC, ?_, ?_⟩
    · intro r hr
      exact accounted_exchange htracked hasked (haccounted r hr)
    · exact (request_moves c s₁.state).follows.trans hfollows
  · exact ⟨htracked, hbounded, fun r hr => .inl ⟨r, hr, rfl, rfl⟩, rfl⟩

/-- In every run in which the claim of no row expires before its delivery has settled it, a
row leaves the queue only when its inbox has taken the activity, is gone or may not be
reached; no more attempts are made for it than the worker allows; it is claimed only when no
delivery of it is under way; and no follow is touched. -/
theorem deliveries_bounded (inboxCheck : String → Bool) {d : Depot} (hqueue : ∀ r, ¬ r ∈ d.queue)
    (hspawned : d.spawned = []) {s s' : Queueing}
    (hs : Reaches deliveryWorld (Call.program inboxCheck) Prompt (.initial d) s)
    (hs' : Reaches deliveryWorld (Call.program inboxCheck) Prompt s s') :
  (∀ r ∈ s.state.queue, Accounted inboxCheck r s') ∧
    (∀ id, total attemptedIds id s'.history ≤ MAX_ATTEMPTS) ∧
    (∀ later e earlier, s'.history = later ++ e :: earlier →
      ∀ id ∈ claimedIds e.exchange, ¬ InFlight id earlier) ∧
    s'.state.follows = s.state.follows
  := by
  obtain ⟨hdisc, htracked, hbounded, _⟩ := tracked_reaches (Pool.initial_disciplined _ d)
    (tracked_initial hqueue hspawned) bounded_nil hs
  obtain ⟨_, htracked', hbounded', haccounted, hfollows⟩ :=
    tracked_reaches hdisc htracked hbounded hs'
  refine ⟨haccounted, ?_, ?_, hfollows⟩
  · intro id
    exact Nat.le_trans (htracked'.total_le id).2 (hbounded'.claimed id)
  · intro later e earlier hsplit id hid hflight
    have heq := Past.throughout_iff.mp hbounded'.exclusive later e earlier hsplit id hid
    rw [InFlight, heq] at hflight
    exact Nat.lt_irrefl _ hflight

/-! ### A retry that is not recorded -/

/-- An empty queue. -/
def idle : Depot where
  clock := 0
  queue := .empty
  nextId := 1
  actors := []
  tombstonedActors := []
  follows := []
  spawned := []

/-- The inbox answers with a status or not at all, and an attempt that has failed is recorded
or not; each attempt takes an hour when it is not. -/
def responding (status : Option Nat) : (q : DeliveryRequest) → deliveryWorld.Choice q
  | .sql (.retry _ _) => ⟨some "connection reset", 3600000000000, fun _ => false⟩
  | .sql _ => ⟨none, 0, fun _ => false⟩
  | .spawn _ => ()
  | .next => (0 : Nat)
  | .fetchSigningCredentials _ => ⟨.ok ⟨"key", "actor"⟩, 0⟩
  | .signRequest _ _ => ⟨.ok (), 0⟩
  | .execute _ =>
      ⟨match status with
        | some status => .ok status
        | none => .error (.internal "timeout"), 0⟩
  | .utcNow => (0 : DateTime)

/-- The thread `i` makes its next `n` requests. -/
def turns (status : Option Nat) (i n : Nat) : List (Turn deliveryWorld Call) :=
  List.replicate n (.exchange i (responding status))

/-- An activity is enqueued by the thread `0`. -/
def enqueuing : List (Turn deliveryWorld Call) :=
  .start (.enqueue 1 .null "https://remote.example/inbox") :: turns none 0 1

/-- A row is claimed by the thread `i`, and delivered by the next. -/
def delivering (status : Option Nat) (i : Nat) : List (Turn deliveryWorld Call) :=
  .start .processQueue :: turns status i 2 ++ .start .deliver :: turns status (i + 1) 6

/-- An inbox that does not answer is tried once more than the worker allows, when no attempt
is recorded. -/
theorem attempts_unbounded :
  ∃ s, Reaches deliveryWorld (Call.program fun _ => true) (fun _ _ _ _ _ => True)
      (.initial idle) s ∧
    MAX_ATTEMPTS < total attemptedIds 1 s.history
  := by
  have hplayed : ((Pool.play deliveryWorld (Call.program fun _ => true) (fun _ _ _ _ _ => True)
      (enqueuing ++ (List.range 11).flatMap fun n => delivering none (2 * n + 1))
      (.initial idle)).map fun s => decide (MAX_ATTEMPTS < total attemptedIds 1 s.history)) =
        some true := by
    decide +kernel
  obtain ⟨s, hs, hdecided⟩ := Option.map_eq_some_iff.mp hplayed
  exact ⟨s, Pool.reaches_of_play _ _ _ hs, of_decide_eq_true hdecided⟩

/-- An activity that its inbox takes at once. -/
theorem deliveries_bounded_accepted :
  ∃ s s' : Queueing, (∃ r ∈ s.state.queue, ∀ r' ∈ s'.state.queue, r'.id ≠ r.id) ∧
    (∀ r ∈ s.state.queue, Accounted (fun _ => true) r s') ∧
    (∀ id, total attemptedIds id s'.history ≤ MAX_ATTEMPTS) ∧
    (∀ later e earlier, s'.history = later ++ e :: earlier →
      ∀ id ∈ claimedIds e.exchange, ¬ InFlight id earlier) ∧
    s'.state.follows = s.state.follows
  := by
  have hplayed : ((Pool.play deliveryWorld (Call.program fun _ => true) Prompt enqueuing
      (.initial idle)).bind fun s => (s.play deliveryWorld (Call.program fun _ => true) Prompt
        (.start .processQueue :: turns (some 202) 1 2 ++ .start .deliver ::
          turns (some 202) 2 5)).map fun s' =>
        decide (∃ r ∈ s.state.queue.rows, ∀ r' ∈ s'.state.queue.rows, r'.id ≠ r.id)) =
          some true := by
    decide +kernel
  obtain ⟨s, hs, hrest⟩ := Option.bind_eq_some_iff.mp hplayed
  obtain ⟨s', hs', hdecided⟩ := Option.map_eq_some_iff.mp hrest
  exact ⟨s, s', of_decide_eq_true hdecided, deliveries_bounded _ (d := idle) (by simp [idle]) rfl
    (Pool.reaches_of_play _ _ _ hs) (Pool.reaches_of_play _ _ _ hs')⟩

end Delivery
