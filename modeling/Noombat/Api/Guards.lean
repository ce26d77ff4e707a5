import Noombat.Identity.Roles
import Noombat.Organizations.Database

/-!
# Guards

The guards of the routes that act on one account: a request is let through if its viewer is that
account, or has a standing in it.  The status of the viewer is read together with its role when
its token is looked at, and no guard asks for it.  So of an account that is suspended, or that
awaits its admission, a request is refused whatever its route does just when it would be of an
active one: when the account that the route names is another, in which it has no standing.
-/

namespace Guards

open Federation (Uuid DateTime NoombatError)
open Identity (InstanceRole)
open Erasure (ActorStatus)
open Roles (ActorRow isActive isLocalActor)
open Organizations (MemberRow OrganizationRole)

/-! ### Tokens -/

/-- The claims of an access token. -/
structure AccessClaims where
  sub : Uuid
  username : String
  exp : DateTime
  deriving DecidableEq

/-- The library that signs tokens under the secret of the instance, and verifies them at some
time. -/
structure Jwt where
  encode : AccessClaims → String
  decode : DateTime → String → Option AccessClaims

variable (jwt : Jwt) {Rows : Type}

/-! ### The database -/

/-- The tables that the guards read, and the rest of the database. -/
structure Db (Rows : Type) where
  actors : Table ActorRow.Apart
  organizationMembers : Table MemberRow.Apart
  rest : Rows

/-- The database, and the tokens that were issued. -/
structure State (Rows : Type) where
  db : Db Rows
  issued : List String

namespace Db

/-- The standing of an accepted member of an organisation. -/
def memberRole (organizationId memberId : Uuid) (db : Db Rows) : Option OrganizationRole :=
  (db.organizationMembers.find fun r =>
    r.organizationId == organizationId && r.memberId == memberId && r.acceptedAt.isSome).map
      (·.role)

def findLocalByUsername (username : String) (db : Db Rows) : Except NoombatError ActorRow :=
  match db.actors.find fun r => r.username == username && r.isLocal with
  | none => .error (.actorNotFound username)
  | some actor => .ok actor

theorem apart_of_id {f : ActorRow → ActorRow} (hf : ∀ r, (f r).id = r.id) (r r' : ActorRow)
    (h : r.Apart r') :
  (f r).Apart r' ∧ r.Apart (f r') ∧ (f r).Apart (f r')
  := by
  simp only [ActorRow.Apart, hf] at h ⊢
  exact ⟨h, h, h⟩

/-- The rows of the local actor with an identifier changed by `f`, which keeps identifiers. -/
def updateActor (id : Uuid) (f : ActorRow → ActorRow) (hf : ∀ r, (f r).id = r.id) (db : Db Rows) :
    Db Rows :=
  { db with
    actors := db.actors.update (isLocalActor id) f (apart_of_id hf) }

end Db

/-! ### Viewers -/

/-- Who is making a request, and what standing they hold. -/
structure Viewer where
  actorId : Uuid
  username : String
  instanceRole : InstanceRole
  actorStatus : ActorStatus

/-- The viewer that a token names. -/
def resolveViewer (now : DateTime) (token : Option String) (db : Db Rows) : Option Viewer := do
  let claims ← jwt.decode now (← token)
  let row ← db.actors.find (isLocalActor claims.sub)
  return ⟨claims.sub, claims.username, row.instanceRole, row.actorStatus⟩

/-! ### Guards -/

/-- Whether the viewer may act for an account: as itself, or with a standing in it. -/
def requireActsFor (subjectId : Uuid) (viewer : Option Viewer) (db : Db Rows) :
    Except NoombatError (Option OrganizationRole) :=
  match viewer with
  | none => .error .forbidden
  | some v =>
      if v.actorId = subjectId then .ok none
      else
        match db.memberRole subjectId v.actorId with
        | none => .error .forbidden
        | some role => .ok (some role)

/-- The local account with a name, if the viewer may act for it. -/
def requireLocalActor (viewer : Option Viewer) (username : String) (db : Db Rows) :
    Except NoombatError ActorRow :=
  match viewer with
  | none => .error .forbidden
  | some _ => do
      let actor ← db.findLocalByUsername username
      let _ ← requireActsFor actor.id viewer db
      return actor

/-! ### Routes -/

/-- How a route names the account that it acts on. -/
inductive Subject where
  /-- In its path, which is guarded by `requireLocalActor`. -/
  | username (username : String)
  /-- By its identifier, which is guarded by `requireActsFor`. -/
  | id (id : Uuid)

/-- What a route does once its guard has let a request through. -/
abbrev Body (Rows : Type) : Type :=
  Option Viewer → Db Rows → Except NoombatError Unit × Db Rows

structure Route (Rows : Type) where
  subject : Subject
  body : Body Rows

/-- The guard of a route. -/
def Subject.guard (subject : Subject) (viewer : Option Viewer) (db : Db Rows) :
    Except NoombatError Unit :=
  match subject with
  | username name => (requireLocalActor viewer name db).map fun _ => ()
  | id subjectId => (requireActsFor subjectId viewer db).map fun _ => ()

def Route.handle (now : DateTime) (token : Option String) (route : Route Rows) (db : Db Rows) :
    Except NoombatError Unit × Db Rows :=
  let viewer := resolveViewer jwt now token db
  match route.subject.guard viewer db with
  | .error e => (.error e, db)
  | .ok () => route.body viewer db

/-! ### Runs -/

inductive Event (Rows : Type) where
  /-- A session of an account is started, if it is active. -/
  | signIn (id : Uuid) (exp : DateTime)
  | setActorStatus (id : Uuid) (status : ActorStatus)
  | tombstone (id : Uuid) (now : DateTime)
  /-- An invitation of a member is accepted, or its standing given anew. -/
  | member (row : MemberRow)
  | removeMember (organizationId memberId : Uuid)
  | request (now : DateTime) (token : Option String) (route : Route Rows)

def State.signIn (id : Uuid) (exp : DateTime) (s : State Rows) : State Rows :=
  match s.db.actors.find (isLocalActor id) with
  | none => s
  | some r =>
      if isActive r.actorStatus then
        { s with issued := jwt.encode ⟨r.id, r.username, exp⟩ :: s.issued }
      else s

theorem id_status (status : ActorStatus) (r : ActorRow) :
  ({ r with actorStatus := status } : ActorRow).id = r.id
  := rfl

theorem id_tombstoned (now : DateTime) (r : ActorRow) :
  (r.tombstoned now).id = r.id
  := rfl

def State.step (s : State Rows) : Event Rows → State Rows
  | .signIn id exp => s.signIn jwt id exp
  | .setActorStatus id status =>
      { s with
        db := s.db.updateActor id (fun r => { r with actorStatus := status }) (id_status status) }
  | .tombstone id now =>
      { s with db := s.db.updateActor id (·.tombstoned now) (id_tombstoned now) }
  | .member row =>
      { s with
        db := { s.db with
          organizationMembers :=
            (s.db.organizationMembers.insert row).getD s.db.organizationMembers } }
  | .removeMember organizationId memberId =>
      { s with
        db := { s.db with
          organizationMembers := s.db.organizationMembers.delete fun r =>
            r.organizationId == organizationId && r.memberId == memberId } }
  | .request now token route => { s with db := (route.handle jwt now token s.db).2 }

def State.run (s : State Rows) (events : List (Event Rows)) : State Rows :=
  events.foldl (State.step jwt) s

/-! ### What the guards refuse -/

/-- The account that a route names. -/
def Subject.find (subject : Subject) (db : Db Rows) : Option Uuid :=
  match subject with
  | username name => (db.actors.find fun r => r.username == name && r.isLocal).map (·.id)
  | id subjectId => some subjectId

/-- An actor is the account that a route names, or has a standing in it. -/
def HasStanding (actorId : Uuid) (subject : Subject) (db : Db Rows) : Prop :=
  ∃ subjectId, subject.find db = some subjectId ∧
    (actorId = subjectId ∨ (db.memberRole subjectId actorId).isSome = true)

/-- A request is refused, and changes nothing. -/
def Refused (r : Except NoombatError Unit × Db Rows) (db : Db Rows) : Prop :=
  (∃ e, r.1 = .error e) ∧ r.2 = db

section Guard

variable {db : Db Rows} {v : Viewer}

theorem requireActsFor_ok_iff {subjectId : Uuid} :
  (∃ role, requireActsFor subjectId (some v) db = .ok role) ↔
    v.actorId = subjectId ∨ (db.memberRole subjectId v.actorId).isSome = true
  := by
  by_cases hself : v.actorId = subjectId
  · simp [requireActsFor, hself]
  · cases hrole : db.memberRole subjectId v.actorId with
    | none => simp [requireActsFor, hself, hrole]
    | some role => simp [requireActsFor, hself, hrole]

/-- A viewer is let through just when it has a standing, whatever its status. -/
theorem guard_ok_iff {subject : Subject} :
  subject.guard (some v) db = .ok () ↔ HasStanding v.actorId subject db
  := by
  cases subject with
  | id subjectId =>
      rw [HasStanding]
      simp only [Subject.find, Option.some.injEq, exists_eq_left', ← requireActsFor_ok_iff]
      rw [Subject.guard]
      cases requireActsFor subjectId (some v) db with
      | error e => simp [Except.map]
      | ok role => simp [Except.map]
  | username name =>
      rw [HasStanding, Subject.guard, requireLocalActor, Db.findLocalByUsername]
      simp only [Subject.find]
      cases db.actors.find fun r => r.username == name && r.isLocal with
      | none => simp [Except.map, bind, Except.bind]
      | some actor =>
          simp only [Option.map_some, Option.some.injEq, exists_eq_left',
            ← requireActsFor_ok_iff, bind, Except.bind, pure, Except.pure]
          cases requireActsFor actor.id (some v) db with
          | error e => simp [Except.map]
          | ok role => simp [Except.map]

end Guard

/-- An account that is suspended or awaits its admission has a token that is still valid. -/
structure Barred (now : DateTime) (token : String) (actor : ActorRow) (s : State Rows) : Prop where
  issued : token ∈ s.issued
  valid : ∃ claims, jwt.decode now token = some claims ∧ claims.sub = actor.id
  stored : actor ∈ s.db.actors
  isLocal : actor.isLocal = true
  status : isActive actor.actorStatus = false

variable {jwt}

/-- The viewer has the status that is stored when the request is handled. -/
theorem Barred.viewer {now : DateTime} {token : String} {actor : ActorRow} {s : State Rows}
    (h : Barred jwt now token actor s) :
  ∃ v, resolveViewer jwt now (some token) s.db = some v ∧ v.actorId = actor.id ∧
    v.actorStatus = actor.actorStatus
  := by
  obtain ⟨claims, hvalid, hsub⟩ := h.valid
  have hfound : s.db.actors.find (isLocalActor claims.sub) = some actor := by
    apply Table.find_eq_some h.stored
    · simp [isLocalActor, hsub, h.isLocal]
    · intro r hr hp
      simp only [isLocalActor, Bool.and_eq_true, beq_iff_eq] at hp
      apply Table.eq_of_not_apart hr h.stored
      exact fun hapart => hapart (hp.1.trans hsub)
  exact ⟨⟨claims.sub, claims.username, actor.instanceRole, actor.actorStatus⟩,
    by simp [resolveViewer, hvalid, hfound], hsub, rfl⟩

/-- In every run, a request with a valid token of an account that is suspended or awaits its
admission is refused just when the account has no standing in the one that the route names, or
the route itself refuses it; so it is refused on every route that names an account just when it
has no standing there. -/
theorem barred_refused_iff (jwt : Jwt) (s₀ : State Rows) (events : List (Event Rows))
    (now : DateTime) (token : String) (actor : ActorRow)
    (hbarred : Barred jwt now token actor (s₀.run jwt events)) (subject : Subject) :
  let db := (s₀.run jwt events).db
  (∀ body, Refused (Route.handle jwt now (some token) ⟨subject, body⟩ db) db ↔
      ¬ HasStanding actor.id subject db ∨
        Refused (body (resolveViewer jwt now (some token) db) db) db) ∧
    ((∀ body, Refused (Route.handle jwt now (some token) ⟨subject, body⟩ db) db) ↔
      ¬ HasStanding actor.id subject db)
  := by
  intro db
  obtain ⟨v, hviewer, hid, _⟩ := hbarred.viewer
  have hroute : ∀ body, Refused (Route.handle jwt now (some token) ⟨subject, body⟩ db) db ↔
      ¬ HasStanding actor.id subject db ∨
        Refused (body (resolveViewer jwt now (some token) db) db) db := by
    intro body
    have hguard : subject.guard (some v) db = .ok () ↔ HasStanding v.actorId subject db :=
      guard_ok_iff
    rw [hid] at hguard
    rw [Route.handle, hviewer]
    dsimp only
    cases h : subject.guard (some v) db with
    | ok u =>
        rw [or_iff_right (not_not_intro (hguard.mp h))]
    | error e =>
        rw [h] at hguard
        have hnone : ¬ HasStanding actor.id subject db := fun hstanding => by
          cases hguard.mpr hstanding
        exact iff_of_true ⟨⟨e, rfl⟩, rfl⟩ (.inl hnone)
  refine ⟨hroute, ?_⟩
  constructor
  · intro hall
    rcases (hroute fun _ db => (.ok (), db)).mp (hall _) with hnone | ⟨⟨e, he⟩, _⟩
    · exact hnone
    · cases he
  · intro hnone body
    exact (hroute body).mpr (.inl hnone)

/-- Tokens that are valid until their time, of one account. -/
def aliceTokens : Jwt where
  encode _ := "token"
  decode now token := if token = "token" ∧ now < 900 then some ⟨1, "alice", 900⟩ else none

/-- A local account, an organisation, and the posts that were published. -/
def aliceAndAcme : State (List String) where
  db :=
    { actors := ⟨[⟨1, "alice", true, .user, .active, none, none⟩,
        ⟨2, "acme", true, .user, .active, none, none⟩], by decide⟩
      organizationMembers := .empty
      rest := [] }
  issued := []

/-- A post is published. -/
def publish : Body (List String) :=
  fun _ db => (.ok (), { db with rest := "post" :: db.rest })

/-- The account signs in, and is suspended. -/
def suspension : List (Event (List String)) :=
  [.signIn 1 900, .setActorStatus 1 .suspended]

/-- The account, suspended. -/
def suspendedAlice : ActorRow :=
  ⟨1, "alice", true, .user, .suspended, none, none⟩

theorem suspendedAlice_barred :
  Barred aliceTokens 300 "token" suspendedAlice (aliceAndAcme.run aliceTokens suspension)
  := ⟨List.mem_cons_self, ⟨⟨1, "alice", 900⟩, by decide, rfl⟩, List.mem_cons_self, rfl, rfl⟩

/-- The account that is suspended publishes a post. -/
theorem suspended_publishes :
  Barred aliceTokens 300 "token" suspendedAlice (aliceAndAcme.run aliceTokens suspension) ∧
    let db := (aliceAndAcme.run aliceTokens suspension).db
    let r := Route.handle aliceTokens 300 (some "token") ⟨.username "alice", publish⟩ db
    r.1.isOk = true ∧ r.2.rest = ["post"] ∧ ¬ Refused r db
  := by
  refine ⟨suspendedAlice_barred, ?_, ?_, ?_⟩
  · decide
  · decide
  · rintro ⟨⟨e, he⟩, _⟩
    cases he

/-- It cannot publish for an organisation of which it is no member. -/
theorem suspended_refused_acme :
  let db := (aliceAndAcme.run aliceTokens suspension).db
  Refused (Route.handle aliceTokens 300 (some "token") ⟨.username "acme", publish⟩ db) db
  := by
  have hnone : ¬ HasStanding suspendedAlice.id (.username "acme")
      (aliceAndAcme.run aliceTokens suspension).db := by
    rintro ⟨subjectId, hfind, hstanding⟩
    have hacme : subjectId = 2 := (Option.some.inj hfind).symm
    subst hacme
    rcases hstanding with hself | hrole
    · cases hself
    · cases hrole
  exact (barred_refused_iff aliceTokens aliceAndAcme suspension 300 "token" suspendedAlice
    suspendedAlice_barred (.username "acme")).2.mpr hnone publish

end Guards
