import Noombat.Program.Past
import Noombat.Program.Threads
import Noombat.Table
import Noombat.Identity.Authorisation

/-!
# Connections

The mutual, accepted half of the social graph: the `connections` table, the statements that
read and write it, and the five calls that invite, answer and part.  A connection is accepted
only after one actor has invited the other and the other has accepted; and what is read of it
is the same from either side.
-/

namespace Connections

open Authorisation (ConnectionState FollowStatus Relationship)
open Federation (Uuid DateTime NoombatError)
open Fallible Program

/-! ### The tables -/

/-- A row of `connections`: the invitation, and the acceptance once there is one. -/
structure Connection where
  id : Uuid
  requesterId : Uuid
  addresseeId : Uuid
  apId : Option String
  acceptedAt : Option DateTime
  distinct : requesterId ≠ addresseeId

namespace Connection

/-- The row is from the one actor to the other. -/
def isFrom (requesterId addresseeId : Uuid) (r : Connection) : Bool :=
  r.requesterId == requesterId && r.addresseeId == addresseeId

/-- The row is of the two actors, in either direction. -/
def joins (a b : Uuid) (r : Connection) : Bool :=
  r.isFrom a b || r.isFrom b a

def isPending (r : Connection) : Bool :=
  r.acceptedAt.isNone

/-- The unordered pair of the actors. -/
def pair (r : Connection) : Uuid × Uuid :=
  (min r.requesterId r.addresseeId, max r.requesterId r.addresseeId)

/-- Two rows differ in their identifiers, in those they are known by, and in their pairs. -/
def Apart (r r' : Connection) : Prop :=
  r.id ≠ r'.id ∧ (r.apId = none ∨ r.apId ≠ r'.apId) ∧ r.pair ≠ r'.pair

instance : DecidableRel Apart :=
  fun r r' => inferInstanceAs
    (Decidable (r.id ≠ r'.id ∧ (r.apId = none ∨ r.apId ≠ r'.apId) ∧ r.pair ≠ r'.pair))

instance : Std.Symm Apart where
  symm r r' h := by
    obtain ⟨hid, hapId, hpair⟩ := h
    refine ⟨hid.symm, ?_, hpair.symm⟩
    by_cases hnone : r'.apId = none
    · exact .inl hnone
    · right
      rintro heq
      rcases hapId with hnone' | hne
      · exact hnone (heq.trans hnone')
      · exact hne heq.symm

/-- The row, accepted. -/
def acceptedAtTime (now : DateTime) (r : Connection) : Connection :=
  { r with acceptedAt := some now }

theorem isFrom_iff {a b : Uuid} {r : Connection} :
  r.isFrom a b = true ↔ r.requesterId = a ∧ r.addresseeId = b
  := by
  simp [isFrom]

/-- The least and the greatest of two numbers determine them, up to their order. -/
theorem min_max_eq_iff (x y a b : Nat) :
  min x y = min a b ∧ max x y = max a b ↔ (x = a ∧ y = b) ∨ (x = b ∧ y = a)
  := by
  omega

theorem joins_iff {a b : Uuid} {r : Connection} :
  r.joins a b = true ↔ r.pair = (min a b, max a b)
  := by
  rw [joins, Bool.or_eq_true, isFrom_iff, isFrom_iff, pair, Prod.mk.injEq]
  exact (min_max_eq_iff _ _ a b).symm

theorem joins_comm (a b : Uuid) (r : Connection) :
  r.joins a b = r.joins b a
  := Bool.or_comm _ _

theorem joins_of_isFrom {a b : Uuid} {r : Connection} (h : r.isFrom a b = true) :
  r.joins a b = true
  := by
  rw [joins, h, Bool.true_or]

end Connection

/-- The identifiers of the actors, and the two axes of the social graph. -/
structure Db where
  actors : List Uuid
  follows : List Federation.Follow
  connections : Table Connection.Apart

namespace Db

/-- A database without connections. -/
def unconnected (actors : List Uuid) (follows : List Federation.Follow) : Db where
  actors
  follows
  connections := .empty

/-- The database with the connections that satisfy `p` accepted. -/
def acceptWhere (p : Connection → Bool) (now : DateTime) (db : Db) : Db :=
  { db with
    connections := db.connections.update p (·.acceptedAtTime now) (fun _ _ h => ⟨h, h, h⟩) }

/-- The database without the connections that satisfy `p`. -/
def deleteWhere (p : Connection → Bool) (db : Db) : Db :=
  { db with connections := db.connections.delete p }

/-- The number of connections that satisfy `p`. -/
def count (p : Connection → Bool) (db : Db) : Nat :=
  db.connections.rows.countP p

end Db

/-! ### Statements -/

inductive ConnectionSql where
  | insert (requesterId addresseeId : Uuid) (apId : Option String)
  | acceptPending (addresseeId requesterId : Uuid)
  | deletePending (requesterId addresseeId : Uuid)
  | deleteAccepted (actorId otherId : Uuid)
  | selectAcceptedAt (actorId otherId : Uuid)
  /-- Whether the follow of the one by the other is accepted, and whether their connection
  is, where there are such rows. -/
  | selectStanding (viewerId targetId : Uuid)

/-- A statement that changes rows is answered with their number. -/
@[reducible]
def ConnectionSql.Result : ConnectionSql → Type
  | insert _ _ _ => Option Uuid
  | acceptPending _ _ | deletePending _ _ | deleteAccepted _ _ => Nat
  | selectAcceptedAt _ _ => Option (Option DateTime)
  | selectStanding _ _ => Option Bool × Option Bool

/-- The time of the database, and the identifier it draws. -/
structure Drawn where
  now : DateTime
  id : Uuid

namespace Db

/-- Nothing is inserted where a row with a unique column of the new one is there. -/
def insertConnection (requesterId addresseeId : Uuid) (apId : Option String) (id : Uuid)
    (db : Db) : Except NoombatError (Option Uuid) × Db :=
  if distinct : requesterId ≠ addresseeId then
    match db.connections.insert ⟨id, requesterId, addresseeId, apId, none, distinct⟩ with
    | none => (.ok none, db)
    | some connections =>
        if requesterId ∈ db.actors ∧ addresseeId ∈ db.actors then
          (.ok (some id), { db with connections })
        else (.error (.database "insert or update violates foreign key constraint"), db)
  else (.error (.database "new row violates check constraint"), db)

end Db

def ConnectionSql.exec :
    (s : ConnectionSql) → Drawn → Db → Except NoombatError s.Result × Db
  | insert requesterId addresseeId apId, drawn, db =>
      db.insertConnection requesterId addresseeId apId drawn.id
  | acceptPending addresseeId requesterId, drawn, db =>
      let p r := Connection.isFrom requesterId addresseeId r && r.isPending
      (.ok (db.count p), db.acceptWhere p drawn.now)
  | deletePending requesterId addresseeId, _, db =>
      let p r := Connection.isFrom requesterId addresseeId r && r.isPending
      (.ok (db.count p), db.deleteWhere p)
  | deleteAccepted actorId otherId, _, db =>
      let p r := !Connection.isPending r && r.joins actorId otherId
      (.ok (db.count p), db.deleteWhere p)
  | selectAcceptedAt actorId otherId, _, db =>
      (.ok ((db.connections.find (·.joins actorId otherId)).map (·.acceptedAt)), db)
  | selectStanding viewerId targetId, _, db =>
      (.ok ((db.follows.find? fun f => f.followerId == viewerId && f.followingId == targetId).map
          (·.accepted),
        (db.connections.find (·.joins viewerId targetId)).map (!·.isPending)), db)

/-- The interface of the connections. -/
abbrev Connecting : Interface :=
  Interface.fallible NoombatError ConnectionSql ConnectionSql.Result

/-- Each statement takes effect at once, or fails. -/
def connectionWorld : World Connecting Db :=
  World.failing NoombatError ConnectionSql.exec

abbrev Op (α : Type) : Type :=
  Fallible Connecting NoombatError α

def sql (s : ConnectionSql) : Op s.Result :=
  ask s

/-! ### The lifecycle -/

/-- The identifier of the new row; none where the pair has a row. -/
def invite (requesterId addresseeId : Uuid) (apId : Option String) : Op (Option Uuid) :=
  if requesterId = addresseeId then throw (.badRequest "an actor cannot connect to itself")
  else sql (.insert requesterId addresseeId apId)

/-- Only the addressee may accept. -/
def accept (addresseeId requesterId : Uuid) : Op Bool := do
  let affected ← sql (.acceptPending addresseeId requesterId)
  return decide (affected > 0)

def reject (addresseeId requesterId : Uuid) : Op Bool := do
  let affected ← sql (.deletePending requesterId addresseeId)
  return decide (affected > 0)

def withdraw (requesterId addresseeId : Uuid) : Op Bool := do
  let affected ← sql (.deletePending requesterId addresseeId)
  return decide (affected > 0)

/-- An accepted connection is removed from either side. -/
def disconnect (actorId otherId : Uuid) : Op Bool := do
  let affected ← sql (.deleteAccepted actorId otherId)
  return decide (affected > 0)

/-! ### Reads -/

/-- The state that a row, if there is one, with its time of acceptance stands for. -/
def stateOf : Option (Option DateTime) → ConnectionState
  | none => .none
  | some none => .pending
  | some (some _) => .accepted

/-- The connection state between two actors, in either direction. -/
def state (actorId otherId : Uuid) : Op ConnectionState :=
  if actorId = otherId then return .none
  else do
    let accepted ← sql (.selectAcceptedAt actorId otherId)
    return stateOf accepted

/-- How a viewer stands towards an actor, on both axes at once. -/
def relationship (viewerId : Option Uuid) (targetId : Uuid) : Op Relationship :=
  match viewerId with
  | none => return .NONE
  | some viewerId =>
      if viewerId = targetId then return .NONE
      else do
        let row ← sql (.selectStanding viewerId targetId)
        return {
          follow := match row.1 with
            | none => .none
            | some false => .pending
            | some true => .accepted
          connection := match row.2 with
            | none => .none
            | some false => .pending
            | some true => .accepted }

/-- What is read of the standing of one actor towards another. -/
def Db.relationship (db : Db) (viewerId targetId : Uuid) : Relationship :=
  if viewerId = targetId then .NONE
  else {
    follow :=
      match (db.follows.find? fun f => f.followerId == viewerId && f.followingId == targetId).map
          (·.accepted) with
      | none => .none
      | some false => .pending
      | some true => .accepted
    connection :=
      match (db.connections.find (·.joins viewerId targetId)).map (!·.isPending) with
      | none => .none
      | some false => .pending
      | some true => .accepted }

/-- The statements change the connections, and nothing else. -/
theorem exec_graph (s : ConnectionSql) (c : connectionWorld.Choice s) (db : Db) :
  (connectionWorld.exec s c db).2 =
    { db with connections := (connectionWorld.exec s c db).2.connections }
  := by
  simp only [connectionWorld, World.failing]
  cases c with
  | error e => rfl
  | ok drawn =>
      cases s with
      | insert requesterId addresseeId apId =>
          simp only [ConnectionSql.exec, Db.insertConnection]
          split
          · split
            · rfl
            · split
              · rfl
              · rfl
          · rfl
      | _ => rfl

/-! ### Calls -/

/-- The calls that the actors make, in any order. -/
inductive Call where
  | invite (requesterId addresseeId : Uuid) (apId : Option String)
  | accept (addresseeId requesterId : Uuid)
  | reject (addresseeId requesterId : Uuid)
  | withdraw (requesterId addresseeId : Uuid)
  | disconnect (actorId otherId : Uuid)

def Call.program : Call → Program Connecting Unit
  | invite requesterId addresseeId apId => do
      let _ ← (Connections.invite requesterId addresseeId apId).run
  | accept addresseeId requesterId => do
      let _ ← (Connections.accept addresseeId requesterId).run
  | reject addresseeId requesterId => do
      let _ ← (Connections.reject addresseeId requesterId).run
  | withdraw requesterId addresseeId => do
      let _ ← (Connections.withdraw requesterId addresseeId).run
  | disconnect actorId otherId => do
      let _ ← (Connections.disconnect actorId otherId).run

/-! ### What has happened -/

abbrev Event : Type :=
  Interface.Event Connecting Call

abbrev Social : Type :=
  Pool Connecting Call Db

/-- The one actor invites the other, and a row is inserted. -/
def invites (requesterId addresseeId : Uuid) (e : Event) : Prop :=
  ∃ apId id, e.task = .invite requesterId addresseeId apId ∧
    e.exchange = ⟨.insert requesterId addresseeId apId, .ok (some id)⟩

/-- The one actor accepts the invitation of the other, and a row is changed. -/
def accepts (addresseeId requesterId : Uuid) (e : Event) : Prop :=
  ∃ n, e.task = .accept addresseeId requesterId ∧ 0 < n ∧
    e.exchange = ⟨.acceptPending addresseeId requesterId, .ok n⟩

/-- A row of the two actors is deleted. -/
def removes (a b : Uuid) (e : Event) : Prop :=
  match e.exchange with
  | ⟨.deletePending x y, .ok n⟩ => 0 < n ∧ ((x = a ∧ y = b) ∨ (x = b ∧ y = a))
  | ⟨.deleteAccepted x y, .ok n⟩ => 0 < n ∧ ((x = a ∧ y = b) ∨ (x = b ∧ y = a))
  | _ => False

/-- The one actor has invited the other, and no row of the two was deleted since. -/
def Invited (requesterId addresseeId : Uuid) : List Event → Prop :=
  Past.Since (removes requesterId addresseeId) (Past.Now (invites requesterId addresseeId))

/-- The one actor has invited the other, and the other has then accepted; no row of the two
was deleted between or since. -/
def Agreed (requesterId addresseeId : Uuid) : List Event → Prop :=
  Past.Since (removes requesterId addresseeId)
    (Past.After (accepts addresseeId requesterId) (Invited requesterId addresseeId))

/-- The history accounts for a row. -/
def Warranted (h : List Event) (r : Connection) : Prop :=
  if r.isPending then Invited r.requesterId r.addresseeId h
  else Agreed r.requesterId r.addresseeId h

theorem Warranted.cons {h : List Event} {r : Connection} {e : Event} (hr : Warranted h r)
    (he : ¬ removes r.requesterId r.addresseeId e) :
  Warranted (e :: h) r
  := by
  rw [Warranted] at *
  split
  · rename_i hpending
    rw [if_pos hpending] at hr
    apply Past.Since.cons hr he
  · rename_i haccepted
    rw [if_neg haccepted] at hr
    apply Past.Since.cons hr he

/-- Who asks what: an invitation is inserted by the actor it is from, and accepted by the
actor it is to. -/
def Asked (t : Call) (_ : List Connecting.Exchange) : ConnectionSql → Prop
  | .insert requesterId addresseeId apId => t = .invite requesterId addresseeId apId
  | .acceptPending addresseeId requesterId => t = .accept addresseeId requesterId
  | _ => True

theorem asks_program (t : Call) :
  Asks (Asked t) (fun _ _ => True) t.program []
  := by
  cases t with
  | invite requesterId addresseeId apId =>
      rw [Call.program, asks_bind, invite]
      split
      · trivial
      · exact ⟨rfl, fun _ => trivial⟩
  | accept addresseeId requesterId =>
      rw [Call.program, asks_bind, accept, asks_run_bind]
      refine ⟨rfl, ?_⟩
      rintro (e | n)
      · trivial
      · trivial
  | _ =>
      refine ⟨trivial, ?_⟩
      rintro (e | n)
      · trivial
      · trivial

/-! ### What a statement does to the rows -/

section Statements

variable {db : Db} {r : Connection}

theorem Db.mem_insertConnection {requesterId addresseeId : Uuid} {apId : Option String}
    {id : Uuid} (h : r ∈ (db.insertConnection requesterId addresseeId apId id).2.connections) :
  r ∈ db.connections ∨
    ((db.insertConnection requesterId addresseeId apId id).1 = .ok (some id) ∧
      r.requesterId = requesterId ∧ r.addresseeId = addresseeId ∧ r.isPending = true)
  := by
  rw [insertConnection] at *
  split at h
  · rename_i distinct
    rw [dif_pos distinct]
    split at h
    · exact .inl h
    · rename_i connections hinsert
      split at h
      · rename_i hactors
        rcases (Table.mem_of_insert hinsert).mp h with rfl | hr
        · exact .inr ⟨by rw [if_pos hactors], rfl, rfl, rfl⟩
        · exact .inl hr
      · exact .inl h
  · exact .inl h

theorem Db.mem_acceptWhere {p : Connection → Bool} {now : DateTime}
    (h : r ∈ (db.acceptWhere p now).connections) :
  r ∈ db.connections ∨
    ∃ r' ∈ db.connections, p r' = true ∧ r = r'.acceptedAtTime now
  := by
  obtain ⟨r', hr', heq⟩ := List.mem_map.mp h
  by_cases hp : p r' = true
  · rw [if_pos hp] at heq
    exact .inr ⟨r', hr', hp, heq.symm⟩
  · rw [if_neg hp] at heq
    exact .inl (heq ▸ hr')

theorem Db.count_pos {p : Connection → Bool} :
  0 < db.count p ↔ ∃ r ∈ db.connections, p r = true
  := List.countP_pos_iff

/-- Two rows of one pair are the same. -/
theorem Db.eq_of_joins {r' : Connection} {a b : Uuid} (hr : r ∈ db.connections)
    (hr' : r' ∈ db.connections) (h : r.joins a b = true) (h' : r'.joins a b = true) :
  r = r'
  := by
  rw [Connection.joins_iff] at h h'
  apply Table.eq_of_not_apart hr hr'
  intro hapart
  exact hapart.2.2 (h.trans h'.symm)

/-- A pair has one row at most. -/
theorem Db.count_joins_le_one (a b : Uuid) :
  db.count (·.joins a b) ≤ 1
  := by
  rw [count, List.countP_eq_length_filter]
  have hsome : ∀ r ∈ db.connections.rows.filter (·.joins a b),
      r ∈ db.connections ∧ r.joins a b = true := fun r hr => List.mem_filter.mp hr
  have hapart := db.connections.apart.filter (·.joins a b)
  generalize db.connections.rows.filter (·.joins a b) = rows at hsome hapart
  match rows with
  | [] => simp
  | [r] => simp
  | r :: r' :: rows =>
      obtain ⟨hr, hjoins⟩ := hsome r (by simp)
      obtain ⟨hr', hjoins'⟩ := hsome r' (by simp)
      have hne := (List.pairwise_cons.mp hapart).1 r' (by simp)
      exact absurd (congrArg _ (Db.eq_of_joins hr hr' hjoins hjoins')) hne.2.2

end Statements

/-! ### The invariant -/

section Preserved

variable {s : Social} {i : Nat} {t : Call} {r : Connection}

theorem warranted_insert {requesterId addresseeId : Uuid} {apId : Option String} {drawn : Drawn}
    (hs : ∀ r ∈ s.state.connections, Warranted s.history r)
    (ht : t = .invite requesterId addresseeId apId)
    (hr : r ∈ (s.state.insertConnection requesterId addresseeId apId drawn.id).2.connections) :
  Warranted
    (⟨i, t, .insert requesterId addresseeId apId,
      (s.state.insertConnection requesterId addresseeId apId drawn.id).1⟩ :: s.history) r
  := by
  rcases Db.mem_insertConnection hr with hr | ⟨hanswer, hrequester, haddressee, hpending⟩
  · apply (hs r hr).cons
    rw [removes]
    simp
  · rw [Warranted, if_pos hpending]
    apply Past.since_of_now
    rw [hrequester, haddressee]
    exact ⟨apId, drawn.id, ht, by rw [hanswer]⟩

theorem warranted_accept {addresseeId requesterId : Uuid} {now : DateTime}
    (hs : ∀ r ∈ s.state.connections, Warranted s.history r)
    (ht : t = .accept addresseeId requesterId)
    (hr : r ∈ (s.state.acceptWhere (fun r => r.isFrom requesterId addresseeId && r.isPending)
      now).connections) :
  Warranted
    (⟨i, t, .acceptPending addresseeId requesterId,
      .ok (s.state.count fun r => r.isFrom requesterId addresseeId && r.isPending)⟩ :: s.history) r
  := by
  rcases Db.mem_acceptWhere hr with hr | ⟨r', hr', hp, rfl⟩
  · apply (hs r hr).cons
    rw [removes]
    simp
  · obtain ⟨hfrom, hpending⟩ := (Bool.and_eq_true _ _).mp hp
    obtain ⟨rfl, rfl⟩ := Connection.isFrom_iff.mp hfrom
    have hinvited := hs r' hr'
    rw [Warranted, if_pos hpending] at hinvited
    rw [Warranted, if_neg (by simp [Connection.acceptedAtTime, Connection.isPending])]
    apply Past.since_of_now
    constructor
    · exact ⟨_, ht, Db.count_pos.mpr ⟨r', hr', hp⟩, rfl⟩
    · exact hinvited

/-- A row that a deletion leaves is not of the pair of the row that was deleted. -/
theorem not_removed_of_deleteWhere {p : Connection → Bool} {a b : Uuid}
    (hp : ∀ r, p r = true → r.joins a b = true)
    (hr : r ∈ (s.state.deleteWhere p).connections) (hcount : 0 < s.state.count p) :
  r.joins a b = false
  := by
  obtain ⟨hr, hkept⟩ := Table.mem_delete.mp hr
  obtain ⟨r', hr', hdeleted⟩ := Db.count_pos.mp hcount
  apply Bool.eq_false_iff.mpr
  intro hjoins
  rw [Db.eq_of_joins hr hr' hjoins (hp r' hdeleted), hdeleted] at hkept
  cases hkept

theorem joins_of_removed {a b : Uuid}
    (h : (a = r.requesterId ∧ b = r.addresseeId) ∨ (a = r.addresseeId ∧ b = r.requesterId)) :
  r.joins a b = true
  := by
  rw [Connection.joins, Bool.or_eq_true, Connection.isFrom_iff, Connection.isFrom_iff]
  rcases h with ⟨ha, hb⟩ | ⟨ha, hb⟩
  · exact .inl ⟨ha.symm, hb.symm⟩
  · exact .inr ⟨hb.symm, ha.symm⟩

theorem warranted_exchange (c : connectionWorld.Choice q)
    (hs : ∀ r ∈ s.state.connections, Warranted s.history r)
    (hasked : Asked t (s.history.trace i) q) {k : Connecting.Answer q → Program Connecting Unit}
    (hr : r ∈ (s.exchange connectionWorld i t q k c).state.connections) :
  Warranted (s.exchange connectionWorld i t q k c).history r
  := by
  cases c with
  | error e =>
      apply (hs r hr).cons
      cases q with
      | _ => exact id
  | ok drawn =>
      cases q with
      | insert requesterId addresseeId apId =>
          exact warranted_insert hs hasked hr
      | acceptPending addresseeId requesterId =>
          exact warranted_accept hs hasked hr
      | deletePending requesterId addresseeId =>
          apply (hs r (Table.mem_delete.mp hr).1).cons
          rintro ⟨hcount, hpair⟩
          have hleft := not_removed_of_deleteWhere (fun r hp =>
            Connection.joins_of_isFrom ((Bool.and_eq_true _ _).mp hp).1) hr hcount
          rw [joins_of_removed hpair] at hleft
          cases hleft
      | deleteAccepted actorId otherId =>
          apply (hs r (Table.mem_delete.mp hr).1).cons
          rintro ⟨hcount, hpair⟩
          have hleft := not_removed_of_deleteWhere (fun r hp =>
            ((Bool.and_eq_true _ _).mp hp).2) hr hcount
          rw [joins_of_removed hpair] at hleft
          cases hleft
      | selectAcceptedAt actorId otherId => exact (hs r hr).cons id
      | selectStanding viewerId targetId => exact (hs r hr).cons id

end Preserved

theorem warranted_of_reaches {C : StepCondition connectionWorld Call} {actors : List Uuid}
    {follows : List Federation.Follow} {s : Social}
    (h : Reaches connectionWorld Call.program C (.initial (.unconnected actors follows)) s)
    {r : Connection} (hr : r ∈ s.state.connections) :
  Warranted s.history r
  := by
  have hempty : ∀ r ∈ (Pool.initial (Db.unconnected actors follows) : Social).state.connections,
      Warranted [] r := fun r hr => absurd hr (Table.mem_empty r)
  have hinv := Step.inv (fun s : Social => ∀ r ∈ s.state.connections, Warranted s.history r)
    asks_program (fun _ _ hs => hs)
    (fun s i t q k c _ hs _ hasked _ r hr => warranted_exchange c hs hasked hr)
    (Pool.initial_disciplined Asked _) hempty h
  exact hinv.2 r hr

/-! ### The two views -/

/-- What the rows say of two actors, whichever side is asked. -/
def Db.between (a b : Uuid) (db : Db) : ConnectionState :=
  if a = b then .none
  else stateOf ((db.connections.find (·.joins a b)).map (·.acceptedAt))

theorem Db.between_comm (a b : Uuid) (db : Db) :
  db.between a b = db.between b a
  := by
  have hjoins : (fun r : Connection => r.joins a b) = fun r => r.joins b a := by
    funext r
    apply Connection.joins_comm
  rw [between, between, hjoins]
  by_cases hab : a = b
  · rw [if_pos hab, if_pos hab.symm]
  · rw [if_neg hab, if_neg (Ne.symm hab)]

/-- A call may answer so. -/
def Answers {α : Type} (p : Op α) (db : Db) (a : α) : Prop :=
  ∃ script : Script connectionWorld, (run connectionWorld script p.run db).1 = .ok a

theorem answers_of_wp {α : Type} {p : Op α} {db : Db} {a : α} {Post : α → Prop}
    (h : wp connectionWorld (Always _) (onExcept (fun a _ => Post a) (fun _ _ => True)) p.run db)
    (ha : Answers p db a) :
  Post a
  := by
  obtain ⟨script, hscript⟩ := ha
  have hpost := wp_run h (alongFrom_always script 0 p.run db)
  rw [hscript] at hpost
  exact hpost

theorem state_answers {db : Db} {a b : Uuid} {c : ConnectionState} (h : Answers (state a b) db c) :
  c = db.between a b
  := by
  apply answers_of_wp _ h
  rw [state, Db.between]
  split
  · apply (wp_run_pure _ _ _).mpr
    rfl
  · rw [wp_run_bind]
    apply wp_run_ask_failing (ConnectionSql.selectAcceptedAt a b)
    · intro e _
      trivial
    · intro drawn _
      exact (wp_run_pure _ _ _).mpr rfl

theorem relationship_answers {db : Db} {a b : Uuid} {r : Relationship}
    (h : Answers (relationship (some a) b) db r) :
  r.connection = db.between a b
  := by
  apply answers_of_wp _ h
  rw [relationship, Db.between]
  split
  · apply (wp_run_pure _ _ _).mpr
    rfl
  · rw [wp_run_bind]
    apply wp_run_ask_failing (ConnectionSql.selectStanding a b)
    · intro e _
      trivial
    · intro drawn _
      simp only [ConnectionSql.exec, onExcept_ok]
      apply (wp_run_pure _ _ _).mpr
      cases db.connections.find (·.joins a b) with
      | none => rfl
      | some r =>
          cases haccepted : r.acceptedAt with
          | none => simp [Connection.isPending, haccepted, stateOf]
          | some now => simp [Connection.isPending, haccepted, stateOf]

/-! ### Connections need both sides -/

/-- In every state that the calls reach, in any order, from one without connections: a pair
of actors has one row at most; a row is accepted only if the one actor has invited the other
and the other has then accepted, with no row of theirs deleted between or since; nobody is
connected to itself; and what is answered about a pair is the same from either side. -/
theorem connections_mutual (actors : List Uuid) (follows : List Federation.Follow) (s : Social)
    (h : Reaches connectionWorld Call.program (fun _ _ _ _ _ => True)
      (.initial (.unconnected actors follows)) s) :
  (∀ a b, s.state.count (·.joins a b) ≤ 1) ∧
    (∀ r ∈ s.state.connections, r.acceptedAt ≠ none →
      Agreed r.requesterId r.addresseeId s.history) ∧
    (∀ r ∈ s.state.connections, r.requesterId ≠ r.addresseeId) ∧
    (∀ a c, Answers (state a a) s.state c → c = .none) ∧
    (∀ a b c c', Answers (state a b) s.state c → Answers (state b a) s.state c' → c = c') ∧
    ∀ a b c r, Answers (state a b) s.state c → Answers (relationship (some b) a) s.state r →
      r.connection = c
  := by
  constructor
  · intro a b
    apply Db.count_joins_le_one
  constructor
  · intro r hr haccepted
    have hwarranted := warranted_of_reaches h hr
    rwa [Warranted, if_neg (by simpa [Connection.isPending] using haccepted)] at hwarranted
  constructor
  · intro r _
    exact r.distinct
  constructor
  · intro a c hc
    rw [state_answers hc, Db.between, if_pos rfl]
  constructor
  · intro a b c c' hc hc'
    rw [state_answers hc, state_answers hc', Db.between_comm]
  · intro a b c r hc hr
    rw [state_answers hc, relationship_answers hr, Db.between_comm]

/-! ### An invitation is seen alike from both sides -/

/-- No statement fails. -/
def drawing : (q : ConnectionSql) → connectionWorld.Choice q :=
  fun _ => .ok ⟨0, 7⟩

/-- The actor 1 invites the actor 2. -/
def inviting : List (Turn connectionWorld Call) :=
  [.start (.invite 1 2 none), .exchange 0 drawing]

/-- The actor 1 invites the actor 2, who accepts. -/
def agreeing : List (Turn connectionWorld Call) :=
  inviting ++ [.start (.accept 2 1), .exchange 1 drawing]

def strangers : Db :=
  .unconnected [1, 2] []

/-- When no statement fails, the rows say what is answered. -/
theorem answers_state (a b : Uuid) (db : Db) :
  Answers (state a b) db (db.between a b)
  := by
  use fun _ => drawing
  rw [state, Db.between]
  split
  · rfl
  · rfl

/-- The actor 1 has invited the actor 2, who has not answered; and what the one is told of it
is what the other is told, so that no answer means "sent" and another "received". -/
theorem invitation_undirected :
  ∃ s, Reaches connectionWorld Call.program (fun _ _ _ _ _ => True) (.initial strangers) s ∧
    (∃ r ∈ s.state.connections.rows, r.requesterId = 1 ∧ r.addresseeId = 2 ∧
      r.acceptedAt = none) ∧
    Answers (state 1 2) s.state .pending ∧ Answers (state 2 1) s.state .pending ∧
    ∀ sent received, Answers (state 1 2) s.state sent → Answers (state 2 1) s.state received →
      sent = received
  := by
  have hplayed : ((Pool.play connectionWorld Call.program (fun _ _ _ _ _ => True) inviting
      (.initial strangers)).map fun s => decide (s.state.between 1 2 = .pending ∧
        ∃ r ∈ s.state.connections.rows,
          r.requesterId = 1 ∧ r.addresseeId = 2 ∧ r.acceptedAt = none)) = some true := by
    decide +kernel
  obtain ⟨s, hs, hdecided⟩ := Option.map_eq_some_iff.mp hplayed
  obtain ⟨hpending, hrow⟩ := of_decide_eq_true hdecided
  refine ⟨s, Pool.reaches_of_play _ _ _ hs, hrow, ?_, ?_, ?_⟩
  · rw [← hpending]
    apply answers_state
  · rw [← hpending, Db.between_comm]
    apply answers_state
  · intro sent received hsent hreceived
    rw [state_answers hsent, state_answers hreceived, Db.between_comm]

/-- After an invitation and its acceptance the pair has one row, which is accepted. -/
theorem agreement_connects :
  ∃ s, s.state.count (·.acceptedAt.isSome) = 1 ∧
    Reaches connectionWorld Call.program (fun _ _ _ _ _ => True) (.initial strangers) s ∧
    ((∀ a b, s.state.count (·.joins a b) ≤ 1) ∧
      (∀ r ∈ s.state.connections, r.acceptedAt ≠ none →
        Agreed r.requesterId r.addresseeId s.history) ∧
      (∀ r ∈ s.state.connections, r.requesterId ≠ r.addresseeId) ∧
      (∀ a c, Answers (state a a) s.state c → c = .none) ∧
      (∀ a b c c', Answers (state a b) s.state c → Answers (state b a) s.state c' → c = c') ∧
      ∀ a b c r, Answers (state a b) s.state c → Answers (relationship (some b) a) s.state r →
        r.connection = c)
  := by
  have hplayed : ((Pool.play connectionWorld Call.program (fun _ _ _ _ _ => True) agreeing
      (.initial strangers)).map fun s => s.state.count (·.acceptedAt.isSome)) = some 1 := by
    decide +kernel
  obtain ⟨s, hs, hcount⟩ := Option.map_eq_some_iff.mp hplayed
  have hreaches := Pool.reaches_of_play _ _ _ hs
  exact ⟨s, hcount, hreaches, connections_mutual [1, 2] [] s hreaches⟩

end Connections
