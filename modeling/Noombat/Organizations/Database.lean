import Noombat.Program.Phases
import Noombat.Transactions
import Noombat.Text
import Noombat.Federation.Types

/-!
# Organisations

The tables that organisations are kept in, and the statements that read and write them.  An
organisation is enrolled in one transaction; every other statement is a transaction of its own,
among them the tombstoning of an actor and the purge of its row.  Any statement may fail, and has
no effect then.
-/

namespace Organizations

open Federation (Uuid DateTime NoombatError)
open Fallible

/-! ### Rows -/

inductive ActorType where
  | individual
  | organization
  | group
  | application
  deriving DecidableEq

inductive OrgKind where
  | employer
  | agency
  deriving DecidableEq

/-- Standing of an actor within an organisation. -/
inductive OrganizationRole where
  | owner
  | recruiter
  deriving DecidableEq

structure ActorRow where
  id : Uuid
  actorType : ActorType
  username : String
  displayName : Option String
  domain : String
  isLocal : Bool
  claimedDomain : Option String
  orgKind : Option OrgKind
  erasedAt : Option DateTime
  deriving DecidableEq

/-- Two actors differ in their identifiers, and in their names if both are local. -/
def ActorRow.Apart (r r' : ActorRow) : Prop :=
  r.id ≠ r'.id ∧ (r.isLocal = true → r'.isLocal = true →
    (r.username, r.domain) ≠ (r'.username, r'.domain))

instance : DecidableRel ActorRow.Apart :=
  fun _ _ => inferInstanceAs (Decidable (_ ∧ _))

instance : Std.Symm ActorRow.Apart :=
  ⟨fun _ _ h => ⟨h.1.symm, fun hl hl' => (h.2 hl' hl).symm⟩⟩

structure MemberRow where
  organizationId : Uuid
  memberId : Uuid
  role : OrganizationRole
  /-- Set when the member accepts. -/
  acceptedAt : Option DateTime
  deriving DecidableEq

/-- An actor is a member of an organisation once. -/
def MemberRow.Apart (r r' : MemberRow) : Prop :=
  (r.organizationId, r.memberId) ≠ (r'.organizationId, r'.memberId)

instance : DecidableRel MemberRow.Apart :=
  fun _ _ => inferInstanceAs (Decidable (_ ≠ _))

instance : Std.Symm MemberRow.Apart :=
  ⟨fun _ _ h => Ne.symm h⟩

/-- An organisation was enrolled; the row outlives the organisation. -/
structure EnrolmentRow where
  ownerId : Uuid
  organizationId : Option Uuid
  createdAt : DateTime
  deriving DecidableEq

/-- The columns of `instance_settings` that are about organisations. -/
structure Settings where
  enabled : Bool
  rateLimitCount : Int
  rateLimitAmount : Int
  rateLimitUnit : String
  concurrentCap : Int
  periodCapCount : Int
  periodCapAmount : Int
  periodCapUnit : String
  deriving DecidableEq

structure Db where
  actors : Table ActorRow.Apart
  organizationMembers : Table MemberRow.Apart
  /-- The latest first. -/
  organizationEnrolments : List EnrolmentRow
  instanceSettings : Option Settings

/-! ### Periods -/

inductive PeriodUnit where
  | hours
  | days
  | weeks
  | months
  | years
  deriving DecidableEq

def PeriodUnit.parse (raw : String) : Option PeriodUnit :=
  match raw with
  | "hours" => some hours
  | "days" => some days
  | "weeks" => some weeks
  | "months" => some months
  | "years" => some years
  | _ => none

structure Period where
  amount : Int
  unit : PeriodUnit
  deriving DecidableEq

/-- The arguments of `make_interval`. -/
structure Interval where
  years : Int
  months : Int
  weeks : Int
  days : Int
  hours : Int
  deriving DecidableEq

def Period.intervalArgs (p : Period) : Interval :=
  match p.unit with
  | .hours => ⟨0, 0, 0, 0, p.amount⟩
  | .days => ⟨0, 0, 0, p.amount, 0⟩
  | .weeks => ⟨0, 0, p.amount, 0, 0⟩
  | .months => ⟨0, p.amount, 0, 0, 0⟩
  | .years => ⟨p.amount, 0, 0, 0, 0⟩

/-- What comes from elsewhere: the database's subtraction of an interval from a time and its hash
of a text, the registrable domain of a host, and the texts of identifiers. -/
structure OrgLibrary where
  before : Interval → DateTime → DateTime
  hashtext : String → Int
  registrableDomain : String → Option String
  showUuid : Uuid → String

variable (lib : OrgLibrary)

/-- The moment a period before a time. -/
def since (p : Period) : DateTime → DateTime :=
  lib.before p.intervalArgs

/-! ### Writes -/

/-- What the statements of an enrolment write. -/
inductive Write where
  | actor (row : ActorRow)
  | claimedDomain (id : Uuid) (domain : String)
  | orgKind (id : Uuid) (kind : OrgKind)
  | member (row : MemberRow)
  | enrolment (row : EnrolmentRow)

/-- What a statement of an enrolment locks. -/
inductive Lock where
  | advisory (key : Int)
  | localName (username domain : String)
  deriving DecidableEq

namespace Db

/-- The rows of the actor with an identifier changed by `f`, which keeps what is unique. -/
def updateActor (id : Uuid) (f : ActorRow → ActorRow)
    (hf : ∀ r, (f r).id = r.id ∧ (f r).isLocal = r.isLocal ∧ (f r).username = r.username ∧
      (f r).domain = r.domain) (db : Db) : Db :=
  { db with
    actors := db.actors.update (·.id == id) f fun r r' h => by
      obtain ⟨hid, hlocal, husername, hdomain⟩ := hf r
      obtain ⟨hid', hlocal', husername', hdomain'⟩ := hf r'
      simp only [ActorRow.Apart, hid, hlocal, husername, hdomain, hid', hlocal', husername',
        hdomain'] at h ⊢
      exact ⟨h, h, h⟩ }

def hasActor (id : Uuid) (db : Db) : Bool :=
  db.actors.rows.any (·.id == id)

/-- A member is added, if both actors are there and it is not one already. -/
def insertMember (row : MemberRow) (db : Db) : Option Db :=
  if db.hasActor row.organizationId && db.hasActor row.memberId then
    (db.organizationMembers.insert row).map fun organizationMembers =>
      { db with organizationMembers }
  else none

/-- An enrolment is recorded, if the owner and the organisation are there. -/
def insertEnrolment (row : EnrolmentRow) (db : Db) : Option Db :=
  if db.hasActor row.ownerId && row.organizationId.all db.hasActor then
    some { db with organizationEnrolments := row :: db.organizationEnrolments }
  else none

/-- An actor is deleted, with its memberships, those of its members, and its enrolments; the
enrolment of an organisation forgets it. -/
def deleteActor (id : Uuid) (db : Db) : Db where
  actors := db.actors.delete (·.id == id)
  organizationMembers := db.organizationMembers.delete fun r =>
    r.organizationId == id || r.memberId == id
  organizationEnrolments := (db.organizationEnrolments.filter fun r => !(r.ownerId == id)).map
    fun r => if r.organizationId = some id then { r with organizationId := none } else r
  instanceSettings := db.instanceSettings

/-- An invitation, if the member has none. -/
def invite (organizationId memberId : Uuid) (db : Db) : Option Db :=
  db.insertMember ⟨organizationId, memberId, .recruiter, none⟩

/-- An invitation that is outstanding. -/
def isOutstanding (organizationId memberId : Uuid) (r : MemberRow) : Bool :=
  r.organizationId == organizationId && r.memberId == memberId && r.acceptedAt.isNone

def accept (organizationId memberId : Uuid) (now : DateTime) (db : Db) : Db :=
  { db with
    organizationMembers := db.organizationMembers.update (isOutstanding organizationId memberId)
      (fun r => { r with acceptedAt := some now }) fun _ _ h => ⟨h, h, h⟩ }

/-- A membership that can be removed. -/
def isRemovable (organizationId memberId : Uuid) (r : MemberRow) : Bool :=
  r.organizationId == organizationId && r.memberId == memberId && !(r.role == .owner)

def removeMember (organizationId memberId : Uuid) (db : Db) : Db :=
  { db with
    organizationMembers := db.organizationMembers.delete (isRemovable organizationId memberId) }

def tombstone (id : Uuid) (now : DateTime) (db : Db) : Db :=
  db.updateActor id (fun r => { r with erasedAt := some (r.erasedAt.getD now) })
    fun _ => ⟨rfl, rfl, rfl, rfl⟩

/-- The number of organisations that an actor holds as an accepted owner. -/
def held (ownerId : Uuid) (db : Db) : Nat :=
  db.organizationMembers.rows.countP fun r =>
    r.memberId == ownerId && r.role == .owner && r.acceptedAt.isSome

/-- The times of the enrolments of an owner, the latest first. -/
def enrolmentTimes (ownerId : Uuid) (db : Db) : List DateTime :=
  (db.organizationEnrolments.filter (·.ownerId == ownerId)).map (·.createdAt)

end Db

def Write.apply : Write → Db → Option Db
  | actor row, db => (db.actors.insert row).map fun actors => { db with actors }
  | claimedDomain id domain, db =>
      some (db.updateActor id (fun r => { r with claimedDomain := some domain })
        fun _ => ⟨rfl, rfl, rfl, rfl⟩)
  | orgKind id kind, db =>
      some (db.updateActor id (fun r => { r with orgKind := some kind })
        fun _ => ⟨rfl, rfl, rfl, rfl⟩)
  | member row, db => db.insertMember row
  | enrolment row, db => db.insertEnrolment row

/-! ### Requests -/

inductive OrgSql where
  /-- Whether a local actor has the identifier that a token names. -/
  | viewer (id : Uuid)
  | usernameTaken (domain username : String)
  /-- Returns the transaction, and the time that its statements take for the present. -/
  | begin
  | settings (tx : Nat)
  | lock (tx : Nat) (ownerId : Uuid)
  | held (tx : Nat) (ownerId : Uuid)
  | enrolmentsWithin (tx : Nat) (ownerId : Uuid) (interval : Interval)
  | createActor (tx : Nat) (row : ActorRow)
  | setClaimedDomain (tx : Nat) (id : Uuid) (domain : String)
  | setOrgKind (tx : Nat) (id : Uuid) (kind : OrgKind)
  /-- An accepted owner. -/
  | insertOwner (tx : Nat) (organizationId ownerId : Uuid)
  | insertEnrolment (tx : Nat) (ownerId organizationId : Uuid)
  | commit (tx : Nat)
  | rollback (tx : Nat)
  | findLocalByUsername (username : String)
  /-- The role of an accepted member. -/
  | memberRole (organizationId memberId : Uuid)
  /-- Returns the number of rows. -/
  | invite (organizationId memberId : Uuid)
  /-- Returns the number of rows. -/
  | accept (organizationId memberId : Uuid)
  /-- Returns the number of rows. -/
  | removeMember (organizationId memberId : Uuid)
  | findById (id : Uuid)
  /-- The transaction that tombstones an actor. -/
  | tombstone (id : Uuid)
  /-- Returns the number of rows. -/
  | purge (id : Uuid)

@[reducible]
def OrgSql.Result : OrgSql → Type
  | viewer _ => Bool
  | usernameTaken _ _ => Bool
  | begin => Nat × DateTime
  | settings _ => Option Settings
  | held _ _ => Nat
  | enrolmentsWithin _ _ _ => Nat
  | findLocalByUsername _ => Option ActorRow
  | memberRole _ _ => Option OrganizationRole
  | invite _ _ => Nat
  | accept _ _ => Nat
  | removeMember _ _ => Nat
  | findById _ => Option ActorRow
  | purge _ => Nat
  | _ => Unit

/-- What a call returns. -/
inductive Response where
  | enrolled (r : Except NoombatError Uuid)
  | answered (r : Except NoombatError Unit)

inductive OrgRequest where
  | sql (s : OrgSql)
  /-- The keys of a new actor are generated. -/
  | generateKeypair
  /-- The private keys of a new actor are encrypted. -/
  | sealKeys
  | newUuid
  | respond (r : Response)

@[reducible]
def OrgRequest.Result : OrgRequest → Type
  | sql s => s.Result
  | newUuid => Uuid
  | _ => Unit

abbrev Orgs : Interface :=
  Interface.fallible NoombatError OrgRequest OrgRequest.Result

abbrev OrgHandler (α : Type) : Type :=
  Fallible Orgs NoombatError α

abbrev Registry : Type :=
  Store Db Write Lock

/-! ### Statements -/

def noTransaction : NoombatError :=
  .database "there is no transaction in progress"

def lockTimeout : NoombatError :=
  .database "canceling statement due to lock timeout"

def constraintViolation : NoombatError :=
  .database "new row violates a constraint"

/-- What a statement of a transaction reads, from what the transaction sees. -/
def readIn {α : Type} (tx : Nat) (f : DateTime → Db → α) (s : Registry) :
    Except NoombatError α × Registry :=
  match s.find tx with
  | none => (.error noTransaction, s)
  | some x =>
      match s.view Write.apply x with
      | none => (.error constraintViolation, s)
      | some db => (.ok (f x.startedAt db), s)

/-- What a statement of a transaction writes, if it can be written. -/
def writeIn (tx : Nat) (w : DateTime → Write) (ks : List Lock) (s : Registry) :
    Except NoombatError Unit × Registry :=
  match s.find tx with
  | none => (.error noTransaction, s)
  | some x =>
      match (s.view Write.apply x).bind (w x.startedAt).apply with
      | none => (.error constraintViolation, s)
      | some _ =>
          match s.write tx [w x.startedAt] ks with
          | none => (.error lockTimeout, s)
          | some s' => (.ok (), s')

/-- A single statement changes the rows that satisfy `p`, and returns their number. -/
def changeRows (rows : List MemberRow) (p : MemberRow → Bool) (db : Db) (s : Registry) :
    Except NoombatError Nat × Registry :=
  (.ok (rows.countP p), s.withCommitted db)

/-- The effect of a statement. -/
def OrgSql.exec (lib : OrgLibrary) : (q : OrgSql) → Registry → Except NoombatError q.Result × Registry
  | viewer id, s =>
      (.ok (s.committed.actors.rows.any fun r => r.id == id && r.isLocal), s)
  | usernameTaken domain username, s =>
      (.ok (s.committed.actors.rows.any fun r =>
        r.username == username && r.domain == domain && r.isLocal), s)
  | begin, s => (.ok (s.nextId, s.clock), s.begin)
  | settings tx, s => readIn tx (fun _ db => db.instanceSettings) s
  | lock tx ownerId, s =>
      match s.write tx [] [.advisory (lib.hashtext (lib.showUuid ownerId))] with
      | none => (.error lockTimeout, s)
      | some s' => (.ok (), s')
  | held tx ownerId, s => readIn tx (fun _ db => db.held ownerId) s
  | enrolmentsWithin tx ownerId interval, s =>
      readIn tx (fun now db => (db.enrolmentTimes ownerId).countP fun t =>
        decide (lib.before interval now < t)) s
  | createActor tx row, s =>
      writeIn tx (fun _ => .actor row) [.localName row.username row.domain] s
  | setClaimedDomain tx id domain, s => writeIn tx (fun _ => .claimedDomain id domain) [] s
  | setOrgKind tx id kind, s => writeIn tx (fun _ => .orgKind id kind) [] s
  | insertOwner tx organizationId ownerId, s =>
      writeIn tx (fun now => .member ⟨organizationId, ownerId, .owner, some now⟩) [] s
  | insertEnrolment tx ownerId organizationId, s =>
      writeIn tx (fun now => .enrolment ⟨ownerId, some organizationId, now⟩) [] s
  | commit tx, s =>
      match s.commit Write.apply tx with
      | none => (.error constraintViolation, s.close tx)
      | some s' => (.ok (), s')
  | rollback tx, s => (.ok (), s.close tx)
  | findLocalByUsername username, s =>
      (.ok (s.committed.actors.find fun r => r.username == username && r.isLocal), s)
  | memberRole organizationId memberId, s =>
      (.ok ((s.committed.organizationMembers.find fun r =>
        r.organizationId == organizationId && r.memberId == memberId &&
          r.acceptedAt.isSome).map (·.role)), s)
  | invite organizationId memberId, s =>
      if s.committed.organizationMembers.rows.any fun r =>
          r.organizationId == organizationId && r.memberId == memberId then (.ok 0, s)
      else
        match s.committed.invite organizationId memberId with
        | none => (.error constraintViolation, s)
        | some db => (.ok 1, s.withCommitted db)
  | accept organizationId memberId, s =>
      changeRows s.committed.organizationMembers.rows (Db.isOutstanding organizationId memberId)
        (s.committed.accept organizationId memberId s.clock) s
  | removeMember organizationId memberId, s =>
      changeRows s.committed.organizationMembers.rows (Db.isRemovable organizationId memberId)
        (s.committed.removeMember organizationId memberId) s
  | findById id, s => (.ok (s.committed.actors.find (·.id == id)), s)
  | tombstone id, s => (.ok (), s.withCommitted (s.committed.tombstone id s.clock))
  | purge id, s =>
      if s.committed.actors.rows.any fun r => r.id == id && r.erasedAt.isSome then
        (.ok 1, s.withCommitted (s.committed.deleteActor id))
      else (.ok 0, s)

/-- The effect of a statement that fails: a transaction that cannot be committed ends. -/
def OrgSql.fail : OrgSql → Registry → Registry
  | commit tx, s => s.close tx
  | _, s => s

/-- The world of the calls.  A statement fails with the error chosen, or is executed after the
time chosen has passed; identifiers are chosen, and keys may fail to be made. -/
def orgWorld (lib : OrgLibrary) : World Orgs Registry where
  Choice
    | .sql _ => Except NoombatError Nat
    | .generateKeypair => Except NoombatError Unit
    | .sealKeys => Except NoombatError Unit
    | .newUuid => Uuid
    | .respond _ => Unit
  exec
    | .sql q, c, s =>
        match c with
        | .error e => (.error e, q.fail s)
        | .ok elapsed => q.exec lib (s.later elapsed)
    | .generateKeypair, c, s => (c, s)
    | .sealKeys, c, s => (c, s)
    | .newUuid, c, s => (.ok c, s)
    | .respond _, _, s => (.ok (), s)

def sql (q : OrgSql) : OrgHandler q.Result :=
  ask (OrgRequest.sql q)

end Organizations
