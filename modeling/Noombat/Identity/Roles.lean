import Noombat.Erasure.Schema
import Noombat.Identity.Session

/-!
# Roles and standing

The role and the status of the local accounts, and the requests that change them: an
administrator changes a role, a moderator suspends, silences or readmits an account, an account
asks for its deletion or takes that back, and is erased at once or when its time has come, after
which its row is removed.  Each statement takes effect at once or fails without any effect; the
transaction of an erasure takes effect when it is committed.
-/

namespace Roles

open Federation (Uuid DateTime NoombatError)
open Identity (InstanceRole)
open Erasure (ActorStatus)
open Fallible

structure ActorRow where
  id : Uuid
  username : String
  isLocal : Bool
  instanceRole : InstanceRole
  actorStatus : ActorStatus
  deletionRequestedAt : Option DateTime
  erasedAt : Option DateTime
  deriving DecidableEq

/-- Two actors have different identifiers. -/
def ActorRow.Apart (r r' : ActorRow) : Prop :=
  r.id ≠ r'.id

instance : DecidableRel ActorRow.Apart :=
  fun _ _ => inferInstanceAs (Decidable (_ ≠ _))

instance : Std.Symm ActorRow.Apart :=
  ⟨fun _ _ h => Ne.symm h⟩

structure Db where
  actors : Table ActorRow.Apart

def mayModerate : InstanceRole → Bool
  | .user => false
  | .moderator => true
  | .admin => true

def mayAdminister : InstanceRole → Bool
  | .user => false
  | .moderator => false
  | .admin => true

def isActive : ActorStatus → Bool
  | .active => true
  | .silenced => true
  | .pending => false
  | .suspended => false

/-- An active administrator of this instance. -/
def ActorRow.isActiveAdmin (r : ActorRow) : Bool :=
  r.isLocal && r.instanceRole == .admin && isActive r.actorStatus

/-- Standing of an actor within an organisation. -/
inductive OrganizationRole where
  | owner
  | recruiter
  deriving DecidableEq

/-! ### Statements -/

inductive RoleSql where
  /-- The role and the status of the account that a token names. -/
  | viewer (id : Uuid)
  | findLocalByUsername (username : String)
  | findById (id : Uuid)
  | countAdmins
  /-- Returns the number of rows. -/
  | setInstanceRole (id : Uuid) (role : InstanceRole)
  /-- Returns the number of rows. -/
  | setActorStatus (id : Uuid) (status : ActorStatus)
  | deletionRequestedAt (id : Uuid)
  | requestDeletion (id : Uuid)
  /-- Returns the number of rows. -/
  | cancelDeletion (id : Uuid)
  /-- The standing of a member of an organisation. -/
  | memberRole (organizationId memberId : Uuid)
  | dueForErasure (graceDays : Nat)
  /-- The transaction that tombstones an actor. -/
  | tombstone (id : Uuid)
  | retireRequest (id : Uuid)
  /-- The erased actors whose retention has ended. -/
  | dueForPurge
  /-- Returns the number of rows. -/
  | purge (id : Uuid)

@[reducible]
def RoleSql.Result : RoleSql → Type
  | viewer _ => Option (InstanceRole × ActorStatus)
  | findLocalByUsername _ => Option ActorRow
  | findById _ => Option ActorRow
  | countAdmins => Nat
  | setInstanceRole _ _ => Nat
  | setActorStatus _ _ => Nat
  | deletionRequestedAt _ => Option (Option DateTime)
  | requestDeletion _ => Unit
  | cancelDeletion _ => Nat
  | memberRole _ _ => Option OrganizationRole
  | dueForErasure _ => List Uuid
  | tombstone _ => Unit
  | retireRequest _ => Unit
  | dueForPurge => List Uuid
  | purge _ => Nat

/-- A day in nanoseconds. -/
def day : Int :=
  24 * 3600 * 1000000000

/-- A local actor with the identifier given. -/
def isLocalActor (id : Uuid) (r : ActorRow) : Bool :=
  r.id == id && r.isLocal

/-- The row of an actor after its erasure. -/
def ActorRow.tombstoned (now : DateTime) (r : ActorRow) : ActorRow :=
  { r with actorStatus := .suspended, erasedAt := some (r.erasedAt.getD now) }

/-- The rows that satisfy `p`, changed by `f`, which keeps identifiers. -/
def Db.updateWhere (p : ActorRow → Bool) (f : ActorRow → ActorRow) (hf : ∀ r, (f r).id = r.id)
    (db : Db) : Db where
  actors := db.actors.update p f fun r r' h => by
    simp only [ActorRow.Apart, hf] at h ⊢
    exact ⟨h, h, h⟩

abbrev Accounts : Interface :=
  Interface.fallible NoombatError RoleSql RoleSql.Result

abbrev RoleHandler (α : Type) : Type :=
  Fallible Accounts NoombatError α

/-- The world of the requests.  A statement fails with the error chosen, or is executed at the
time chosen; the standing of members and the rows whose retention has ended are chosen too. -/
def roleWorld : World Accounts Db where
  Choice
    | .memberRole _ _ => Except NoombatError (Option OrganizationRole)
    | .dueForPurge => Except NoombatError (List Uuid)
    | _ => Except NoombatError DateTime
  exec
    | .memberRole _ _, c, db => (c, db)
    | .dueForPurge, c, db =>
        (c.map fun ended => (db.actors.rows.filter fun r =>
          r.erasedAt.isSome && ended.contains r.id).map (·.id), db)
    | .viewer id, c, db =>
        (c.map fun _ => (db.actors.find (isLocalActor id)).map fun r =>
          (r.instanceRole, r.actorStatus), db)
    | .findLocalByUsername username, c, db =>
        (c.map fun _ => db.actors.find fun r => r.username == username && r.isLocal, db)
    | .findById id, c, db => (c.map fun _ => db.actors.find (·.id == id), db)
    | .countAdmins, c, db =>
        (c.map fun _ => db.actors.rows.countP fun r => r.isLocal && r.instanceRole == .admin, db)
    | .setInstanceRole id role, c, db =>
        match c with
        | .error e => (.error e, db)
        | .ok _ => (.ok (db.actors.rows.countP (isLocalActor id)),
            db.updateWhere (isLocalActor id) (fun r => { r with instanceRole := role })
              fun _ => rfl)
    | .setActorStatus id status, c, db =>
        match c with
        | .error e => (.error e, db)
        | .ok _ => (.ok (db.actors.rows.countP (isLocalActor id)),
            db.updateWhere (isLocalActor id) (fun r => { r with actorStatus := status })
              fun _ => rfl)
    | .deletionRequestedAt id, c, db =>
        (c.map fun _ => (db.actors.find (·.id == id)).map (·.deletionRequestedAt), db)
    | .requestDeletion id, c, db =>
        match c with
        | .error e => (.error e, db)
        | .ok now => (.ok (), db.updateWhere (·.id == id)
            (fun r => { r with deletionRequestedAt := some now }) fun _ => rfl)
    | .cancelDeletion id, c, db =>
        match c with
        | .error e => (.error e, db)
        | .ok _ =>
            let requested := fun r : ActorRow => r.id == id && r.deletionRequestedAt.isSome
            (.ok (db.actors.rows.countP requested),
              db.updateWhere requested (fun r => { r with deletionRequestedAt := none })
                fun _ => rfl)
    | .dueForErasure graceDays, c, db =>
        (c.map fun now => (db.actors.rows.filter fun r => r.isLocal &&
          r.deletionRequestedAt.any fun t => decide (t < now - graceDays * day)).map (·.id), db)
    | .tombstone id, c, db =>
        match c with
        | .error e => (.error e, db)
        | .ok now => (.ok (), db.updateWhere (·.id == id) (·.tombstoned now) fun _ => rfl)
    | .retireRequest id, c, db =>
        match c with
        | .error e => (.error e, db)
        | .ok _ => (.ok (), db.updateWhere (·.id == id)
            (fun r => { r with deletionRequestedAt := none }) fun _ => rfl)
    | .purge id, c, db =>
        match c with
        | .error e => (.error e, db)
        | .ok _ =>
            let erased := fun r : ActorRow => r.id == id && r.erasedAt.isSome
            (.ok (db.actors.rows.countP erased), ⟨db.actors.delete erased⟩)

def sql (s : RoleSql) : RoleHandler s.Result :=
  ask s

/-! ### Viewers -/

structure Viewer where
  actorId : Uuid
  instanceRole : InstanceRole
  actorStatus : ActorStatus

/-- The viewer that a valid token names. -/
def resolveViewer : Option Uuid → RoleHandler (Option Viewer)
  | none => return none
  | some id => do
      let row ← unwrapOr none (sql (.viewer id))
      return row.map fun (role, status) => ⟨id, role, status⟩

def requireAdminApi (viewer : Option Viewer) : Except NoombatError Viewer :=
  match viewer with
  | none => .error .forbidden
  | some v => if mayAdminister v.instanceRole then .ok v else .error .forbidden

def requireModerator (viewer : Option Viewer) : Except NoombatError Viewer :=
  match viewer with
  | none => .error .forbidden
  | some v => if mayModerate v.instanceRole then .ok v else .error .forbidden

def requireActor (viewer : Option Viewer) : Except NoombatError Uuid :=
  match viewer with
  | none => .error .forbidden
  | some v => .ok v.actorId

/-! ### Requests -/

def findLocalByUsername (username : String) : RoleHandler ActorRow := do
  let row ← sql (.findLocalByUsername username)
  match row with
  | none => throw (.actorNotFound username)
  | some actor => return actor

def setInstanceRole (actorId : Uuid) (role : InstanceRole) : RoleHandler Unit := do
  let affected ← sql (.setInstanceRole actorId role)
  if affected = 0 then throw (.actorNotFound (toString actorId)) else pure ()

/-- Promote or demote a local actor. -/
def setUserRole (token : Option Uuid) (username : String) (role : InstanceRole) :
    RoleHandler Unit := do
  let viewer ← resolveViewer token
  let admin ← ofExcept (requireAdminApi viewer)
  let target ← findLocalByUsername username
  if admin.actorId = target.id then
    throw (.badRequest "an administrator cannot change their own role; ask another administrator")
  else if target.instanceRole = .admin ∧ role ≠ .admin then do
    let admins ← sql .countAdmins
    if admins ≤ 1 then
      throw (.badRequest "refusing to demote the last administrator; promote another one first")
    else setInstanceRole target.id role
  else setInstanceRole target.id role

def findById (id : Uuid) : RoleHandler ActorRow := do
  let row ← sql (.findById id)
  match row with
  | none => throw (.notFound "actor" id)
  | some actor => return actor

def setActorStatus (actorId : Uuid) (status : ActorStatus) : RoleHandler ActorRow := do
  let affected ← sql (.setActorStatus actorId status)
  if affected = 0 then throw (.notFound "actor" actorId) else findById actorId

/-- A moderator sets the status of an account. -/
def moderate (token : Option Uuid) (actorId : Uuid) (status : ActorStatus) : RoleHandler Unit := do
  let viewer ← resolveViewer token
  let _ ← ofExcept (requireModerator viewer)
  let _ ← setActorStatus actorId status
  return ()

def suspendActor (token : Option Uuid) (actorId : Uuid) : RoleHandler Unit :=
  moderate token actorId .suspended

def unsuspendActor (token : Option Uuid) (actorId : Uuid) : RoleHandler Unit :=
  moderate token actorId .active

def silenceActor (token : Option Uuid) (actorId : Uuid) : RoleHandler Unit :=
  moderate token actorId .silenced

def requestDeletion (token : Option Uuid) : RoleHandler Unit := do
  let viewer ← resolveViewer token
  let actorId ← ofExcept (requireActor viewer)
  let existing ← sql (.deletionRequestedAt actorId)
  match existing with
  | none =>
      throw (.database "no rows returned by a query that expected to return at least one row")
  | some (some _) => throw (.badRequest "deletion already requested")
  | some none => sql (.requestDeletion actorId)

def cancelDeletion (token : Option Uuid) : RoleHandler Unit := do
  let viewer ← resolveViewer token
  let actorId ← ofExcept (requireActor viewer)
  let affected ← sql (.cancelDeletion actorId)
  if affected = 0 then throw (.badRequest "no pending deletion to cancel") else pure ()

/-! ### Erasure -/

def tombstoneActor (actorId : Uuid) : RoleHandler Unit := do
  let actor ← findById actorId
  if actor.isLocal then sql (.tombstone actorId)
  else throw (.badRequest "cannot delete a remote actor")

/-- An actor is tombstoned, and its request retired. -/
def eraseActor (actorId : Uuid) : RoleHandler Unit := do
  tombstoneActor actorId
  sql (.retireRequest actorId)

/-- Whether a viewer may act for an account: as itself, or with a role in it. -/
def requireActsFor (subjectId : Uuid) (viewer : Option Viewer) :
    RoleHandler (Option OrganizationRole) := do
  let actorId ← ofExcept (requireActor viewer)
  if actorId = subjectId then return none
  else do
    let role ← sql (.memberRole subjectId actorId)
    match role with
    | none => throw .forbidden
    | some role => return some role

def deleteActorHandler (token : Option Uuid) (username : String) : RoleHandler Unit := do
  let viewer ← resolveViewer token
  let actor ← findLocalByUsername username
  let role ← requireActsFor actor.id viewer
  match role with
  | some .recruiter => throw .forbidden
  | _ => eraseActor actor.id

/-- A failure of one erasure does not stop the rest. -/
def eraseAll : List Uuid → RoleHandler Unit
  | [] => pure ()
  | id :: ids => do
      let _ ← attempt (eraseActor id)
      eraseAll ids

def sweep (graceDays : Nat) : RoleHandler Unit := do
  let due ← sql (.dueForErasure graceDays)
  eraseAll due

def purgeTombstonedActor (actorId : Uuid) : RoleHandler Unit := do
  let affected ← sql (.purge actorId)
  if affected = 0 then throw (.notFound "actor" actorId) else pure ()

def purgeAll : List Uuid → RoleHandler Unit
  | [] => pure ()
  | id :: ids => do
      let _ ← attempt (purgeTombstonedActor id)
      purgeAll ids

def purgeRetained : RoleHandler Unit := do
  let due ← sql .dueForPurge
  purgeAll due

inductive Call where
  | setUserRole (token : Option Uuid) (username : String) (role : InstanceRole)
  | suspend (token : Option Uuid) (actorId : Uuid)
  | unsuspend (token : Option Uuid) (actorId : Uuid)
  | silence (token : Option Uuid) (actorId : Uuid)
  | requestDeletion (token : Option Uuid)
  | cancelDeletion (token : Option Uuid)
  | deleteActor (token : Option Uuid) (username : String)
  | sweep (graceDays : Nat)
  | purgeRetained

/-- The handler of a request. -/
def Call.handler : Call → RoleHandler Unit
  | setUserRole token username role => Roles.setUserRole token username role
  | suspend token actorId => suspendActor token actorId
  | unsuspend token actorId => unsuspendActor token actorId
  | silence token actorId => silenceActor token actorId
  | requestDeletion token => Roles.requestDeletion token
  | cancelDeletion token => Roles.cancelDeletion token
  | deleteActor token username => deleteActorHandler token username
  | sweep graceDays => Roles.sweep graceDays
  | purgeRetained => Roles.purgeRetained

/-- The program of a request, whose response is not looked at. -/
def Call.program (t : Call) : Program Accounts Unit := do
  let _ ← t.handler.run
  return ()

end Roles
