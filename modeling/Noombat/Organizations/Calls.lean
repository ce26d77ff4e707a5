import Noombat.Organizations.Database

/-!
# Enrolment and membership

The calls that enrol an organisation, invite, accept and remove its members, and erase and purge
actors.  The ceilings on enrolment are those of the settings of the instance; they are counted in
the transaction of the enrolment, under a lock on its owner.
-/

namespace Organizations

open Federation (Uuid DateTime NoombatError)
open Fallible

variable (lib : OrgLibrary)

/-! ### The policy -/

structure OrganizationPolicy where
  enabled : Bool
  rateLimitCount : Int
  rateLimitPeriod : Period
  concurrentCap : Int
  periodCapCount : Int
  capPeriod : Period
  deriving DecidableEq

def OrganizationPolicy.default : OrganizationPolicy where
  enabled := true
  rateLimitCount := 1
  rateLimitPeriod := ⟨7, .days⟩
  concurrentCap := 5
  periodCapCount := 10
  capPeriod := ⟨1, .years⟩

/-- The policy of an instance with the settings given, if there are any. -/
def policyOf : Option Settings → OrganizationPolicy
  | none => .default
  | some row =>
      { enabled := row.enabled
        rateLimitCount := row.rateLimitCount
        rateLimitPeriod := ⟨row.rateLimitAmount, (PeriodUnit.parse row.rateLimitUnit).getD
          OrganizationPolicy.default.rateLimitPeriod.unit⟩
        concurrentCap := row.concurrentCap
        periodCapCount := row.periodCapCount
        capPeriod := ⟨row.periodCapAmount, (PeriodUnit.parse row.periodCapUnit).getD
          OrganizationPolicy.default.capPeriod.unit⟩ }

def PeriodUnit.name : PeriodUnit → String
  | hours => "hour"
  | days => "day"
  | weeks => "week"
  | months => "month"
  | years => "year"

def Period.show (p : Period) : String :=
  if p.amount = 1 then p.unit.name else s!"{p.amount} {p.unit.name}s"

/-- Count the enrolments of an owner inside a window. -/
def enrolmentsWithin (tx : Nat) (ownerId : Uuid) (period : Period) : OrgHandler Nat :=
  sql (.enrolmentsWithin tx ownerId period.intervalArgs)

/-- A ceiling is enforced by counting, unless it is disabled. -/
def enforce (ceiling : Int) (count : OrgHandler Nat) (refusal : Nat → String) : OrgHandler Unit :=
  if 0 < ceiling then do
    let n ← count
    if ceiling ≤ n then throw (.quotaExceeded (refusal n)) else pure ()
  else pure ()

/-- Refuse an enrolment if the instance or the owner has run out of room. -/
def enforceOrganizationPolicy (tx : Nat) (ownerId : Uuid) : OrgHandler Unit := do
  let row ← sql (.settings tx)
  let policy := policyOf row
  if policy.enabled then do
    sql (.lock tx ownerId)
    enforce policy.concurrentCap (sql (.held tx ownerId)) fun held =>
      s!"you hold {held} organisations and this instance allows {policy.concurrentCap}. " ++
        "Dissolve one before enrolling another"
    enforce policy.periodCapCount (enrolmentsWithin tx ownerId policy.capPeriod) fun recent =>
      s!"you have enrolled {recent} organisations in the past {policy.capPeriod.show} and this " ++
        s!"instance allows {policy.periodCapCount}"
    enforce policy.rateLimitCount (enrolmentsWithin tx ownerId policy.rateLimitPeriod) fun _ =>
      s!"this instance allows {policy.rateLimitCount} organisation(s) every " ++
        s!"{policy.rateLimitPeriod.show} per account"
  else throw .forbidden

/-! ### Enrolment -/

def validateUsername (username : String) : Except NoombatError Unit :=
  if username.isEmpty ∨ username.utf8ByteSize > 30 then
    .error (.badRequest "username must be 1-30 characters")
  else if !(username.toList.head?.any fun c => decide ('a' ≤ c ∧ c ≤ 'z')) then
    .error (.badRequest "username must begin with a lowercase letter")
  else if !(username.toList.tail.all fun c =>
      decide ('a' ≤ c ∧ c ≤ 'z') || decide ('0' ≤ c ∧ c ≤ '9') || c == '_') then
    .error (.badRequest
      "username may contain only lowercase letters, digits, and underscores")
  else .ok ()

/-- What an enrolment asks for. -/
structure EnrolRequest where
  username : String
  displayName : Option String
  claimedDomain : Option String
  orgKind : Option OrgKind
  deriving DecidableEq

/-- The row of a new organisation. -/
def newOrganization (domain : String) (req : EnrolRequest) (id : Uuid) : ActorRow where
  id
  actorType := .organization
  username := req.username
  displayName := req.displayName
  domain
  isLocal := true
  claimedDomain := none
  orgKind := none
  erasedAt := none

def createActorTx (tx : Nat) (domain : String) (req : EnrolRequest) : OrgHandler Uuid := do
  let id ← ask OrgRequest.newUuid
  ask OrgRequest.sealKeys
  sql (.createActor tx (newOrganization domain req id))
  return id

/-- The domain that an organisation claims is stored as its registrable domain. -/
def claimDomain (tx : Nat) (id : Uuid) : Option String → OrgHandler Unit
  | none => pure ()
  | some raw =>
      match lib.registrableDomain raw with
      | none => throw (.badRequest s!"{raw} is not a registrable domain")
      | some domain => sql (.setClaimedDomain tx id domain)

def declareKind (tx : Nat) (id : Uuid) : Option OrgKind → OrgHandler Unit
  | none => pure ()
  | some kind => sql (.setOrgKind tx id kind)

/-- The statements of an enrolment, after the transaction has begun. -/
def enrolIn (tx : Nat) (domain : String) (ownerId : Uuid) (req : EnrolRequest) :
    OrgHandler Uuid := do
  enforceOrganizationPolicy tx ownerId
  let id ← createActorTx tx domain req
  claimDomain lib tx id req.claimedDomain
  declareKind tx id req.orgKind
  sql (.insertOwner tx id ownerId)
  sql (.insertEnrolment tx ownerId id)
  sql (.commit tx)
  return id

/-- Enrol an organisation as its own actor, owned by the actor enrolling it.  A transaction that
is left without being committed is rolled back. -/
def enrolOrganization (domain : String) (ownerId : Uuid) (req : EnrolRequest) :
    OrgHandler Uuid := do
  ofExcept (validateUsername req.username)
  let taken ← sql (.usernameTaken domain req.username)
  if taken then throw (.actorAlreadyExists req.username)
  else do
    ask OrgRequest.generateKeypair
    let (tx, _) ← sql .begin
    let enrolled ← attempt (enrolIn lib tx domain ownerId req)
    match enrolled with
    | .ok id => return id
    | .error e => do
        let _ ← attempt (sql (.rollback tx))
        throw e

/-! ### Viewers -/

/-- The viewer that a valid token names. -/
def resolveViewer : Option Uuid → OrgHandler (Option Uuid)
  | none => return none
  | some id => do
      let known ← unwrapOr false (sql (.viewer id))
      return if known then some id else none

def requireActor (viewer : Option Uuid) : Except NoombatError Uuid :=
  match viewer with
  | none => .error .forbidden
  | some id => .ok id

/-- The actor that makes a request. -/
def signedIn (token : Option Uuid) : OrgHandler Uuid := do
  let viewer ← resolveViewer token
  ofExcept (requireActor viewer)

/-- Refuse anyone but an owner of an organisation, or the organisation itself. -/
def requireOwner (organizationId actorId : Uuid) : OrgHandler Unit := do
  if actorId = organizationId then pure ()
  else do
    let role ← sql (.memberRole organizationId actorId)
    if role = some .owner then pure () else throw .forbidden

def findLocalByUsername (username : String) : OrgHandler ActorRow := do
  let row ← sql (.findLocalByUsername username)
  match row with
  | none => throw (.actorNotFound username)
  | some actor => return actor

def findById (id : Uuid) : OrgHandler ActorRow := do
  let row ← sql (.findById id)
  match row with
  | none => throw (.notFound "actor" id)
  | some actor => return actor

/-! ### Members -/

def inviteMember (organizationId : Uuid) (token : Option Uuid) (username : String) :
    OrgHandler Unit := do
  let inviter ← signedIn token
  requireOwner organizationId inviter
  let invitee ← findLocalByUsername (Text.trim username)
  if invitee.actorType ≠ .individual then
    throw (.badRequest "only a person can be invited to act for an organisation")
  else if invitee.id = organizationId then
    throw (.badRequest "an organisation cannot be invited to act for itself")
  else do
    let inserted ← sql (.invite organizationId invitee.id)
    if inserted = 0 then
      throw (.badRequest
        "that account is already a member of this organisation, or already invited")
    else pure ()

def acceptInvitation (organizationId : Uuid) (token : Option Uuid) : OrgHandler Unit := do
  let memberId ← signedIn token
  let updated ← sql (.accept organizationId memberId)
  if updated = 0 then throw (.actorNotFound "no outstanding invitation for this account")
  else pure ()

/-- An owner may remove anybody; anybody may remove themselves. -/
def requireMayRemove (organizationId targetId actorId : Uuid) : OrgHandler Unit :=
  if targetId ≠ actorId then requireOwner organizationId actorId else pure ()

def removeMember (organizationId : Uuid) (username : String) (token : Option Uuid) :
    OrgHandler Unit := do
  let actorId ← signedIn token
  let target ← findLocalByUsername (Text.trim username)
  requireMayRemove organizationId target.id actorId
  let removed ← sql (.removeMember organizationId target.id)
  if removed = 0 then
    throw (.actorNotFound "no removable membership for that account in this organisation")
  else pure ()

/-! ### Erasure -/

def tombstoneActor (actorId : Uuid) : OrgHandler Unit := do
  let actor ← findById actorId
  if actor.isLocal then sql (.tombstone actorId)
  else throw (.badRequest "cannot delete a remote actor")

/-- Whether a viewer may act for an account: as itself, or with a role in it. -/
def requireActsFor (subjectId : Uuid) (viewer : Option Uuid) :
    OrgHandler (Option OrganizationRole) := do
  let actorId ← ofExcept (requireActor viewer)
  if actorId = subjectId then return none
  else do
    let role ← sql (.memberRole subjectId actorId)
    match role with
    | none => throw .forbidden
    | some role => return some role

/-- An account is erased, or an organisation dissolved by an owner. -/
def deleteActorHandler (token : Option Uuid) (username : String) : OrgHandler Unit := do
  let viewer ← resolveViewer token
  let actor ← findLocalByUsername username
  let role ← requireActsFor actor.id viewer
  match role with
  | some .recruiter => throw .forbidden
  | _ => tombstoneActor actor.id

def purgeTombstonedActor (actorId : Uuid) : OrgHandler Unit := do
  let affected ← sql (.purge actorId)
  if affected = 0 then throw (.notFound "actor" actorId) else pure ()

inductive Call where
  | enrol (domain : String) (token : Option Uuid) (req : EnrolRequest)
  | invite (organizationId : Uuid) (token : Option Uuid) (username : String)
  | accept (organizationId : Uuid) (token : Option Uuid)
  | remove (organizationId : Uuid) (username : String) (token : Option Uuid)
  | deleteActor (token : Option Uuid) (username : String)
  /-- The grace period of an account has ended. -/
  | erase (actorId : Uuid)
  | purge (actorId : Uuid)
  deriving DecidableEq

/-- The program that ends a call. -/
def respond (r : Response) : Program Orgs Unit :=
  .call (.respond r) fun _ => .done ()

/-- An enrolment by the actor that makes the request. -/
def enrol (domain : String) (token : Option Uuid) (req : EnrolRequest) : OrgHandler Uuid := do
  let ownerId ← signedIn token
  enrolOrganization lib domain ownerId { req with username := Text.trim req.username }

/-- The program of a call that returns nothing but whether it was successful. -/
def answer (p : OrgHandler Unit) : Program Orgs Unit := do
  let r ← p.run
  respond (.answered r)

/-- The program of a call, which ends with its response. -/
def Call.program : Call → Program Orgs Unit
  | enrol domain token req => do
      let r ← (Organizations.enrol lib domain token req).run
      respond (.enrolled r)
  | invite organizationId token username => answer (inviteMember organizationId token username)
  | accept organizationId token => answer (acceptInvitation organizationId token)
  | remove organizationId username token => answer (removeMember organizationId username token)
  | deleteActor token username => answer (deleteActorHandler token username)
  | erase actorId => answer (tombstoneActor actorId)
  | purge actorId => answer (purgeTombstonedActor actorId)

end Organizations
