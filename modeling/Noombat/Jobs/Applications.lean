import Noombat.Program.Threads
import Noombat.Table
import Noombat.Text
import Noombat.Federation.Types

/-!
# Applications and their grants

Applying to a posting, and the capability an employer reads the application with.  The
application is not sent to the employer; a grant to read it is, with a budget of uses, an
expiry and one audience, and every attempt to use it is logged.

Each statement takes effect at once, at the time of the database, or fails and changes
nothing.  A transaction is one statement.
-/

namespace Jobs

open Federation (Uuid DateTime NoombatError)
open Fallible Program

/-- How long a grant stands before it expires, in days. -/
def GRANT_TTL_DAYS : Nat :=
  90

/-- How many times the application may be fetched. -/
def DOCUMENT_USES : Int :=
  50

/-- How many times the CV may be fetched, where one was attached. -/
def CV_USES : Int :=
  20

/-! ### The tables -/

/-- The columns of `actors` that are read of an organisation, or of an applicant. -/
structure Organisation where
  id : Uuid
  apId : String
  displayName : Option String
  username : String

/-- The columns of `job_postings` that are read. -/
structure JobPosting where
  id : Uuid
  actorId : Uuid
  title : String
  publishedAt : Option DateTime

/-- A row of `job_applications`. -/
structure ApplicationRow where
  id : Uuid
  applicantId : Uuid
  jobPostingId : Uuid
  postingTitle : String
  postingOrganization : String
  apId : String
  coverLetterMd : Option String
  coverLetterHtml : Option String
  includeCv : Bool
  cvSnapshot : Option Bytes
  deriving DecidableEq

/-- Two applications differ in their identifiers, and in who applies to what. -/
def ApplicationRow.Apart (r r' : ApplicationRow) : Prop :=
  r.id ≠ r'.id ∧ r.apId ≠ r'.apId ∧
    (r.applicantId, r.jobPostingId) ≠ (r'.applicantId, r'.jobPostingId)

instance : DecidableRel ApplicationRow.Apart :=
  fun _ _ => inferInstanceAs (Decidable (_ ∧ _))

inductive GrantState where
  | active
  | revoked
  | expired
  deriving DecidableEq

/-- When a grant was revoked, and why; a time without a reason is refused. -/
structure Revocation where
  revokedAt : DateTime
  revokedReason : String
  deriving DecidableEq

/-- The columns of a grant that is minted. -/
structure NewGrant where
  jobApplicationId : Uuid
  tokenHash : String
  audienceApId : String
  audienceOrigin : String
  expiresAt : DateTime
  documentUsesRemaining : Int
  cvUsesRemaining : Int
  deriving DecidableEq

/-- A row of `job_application_grants`. -/
structure Grant extends NewGrant where
  id : Uuid
  state : GrantState
  revocation : Option Revocation
  deriving DecidableEq

/-- Two grants differ in their identifiers and in the hashes of their tokens. -/
def Grant.Apart (g g' : Grant) : Prop :=
  g.id ≠ g'.id ∧ g.tokenHash ≠ g'.tokenHash

instance : DecidableRel Grant.Apart :=
  fun _ _ => inferInstanceAs (Decidable (_ ∧ _))

instance : Std.Symm Grant.Apart where
  symm _ _ h := ⟨h.1.symm, h.2.symm⟩

/-- A row of `job_application_accesses`. -/
structure Access where
  jobApplicationId : Uuid
  grantId : Option Uuid
  readerId : Option Uuid
  kind : String
  outcome : String
  reason : Option String
  deriving DecidableEq

structure Db where
  /-- The time of the database. -/
  clock : DateTime
  organisations : List Organisation
  postings : List JobPosting
  applications : Table ApplicationRow.Apart
  grants : Table Grant.Apart
  accesses : List Access

/-! ### Statements -/

/-- What a redeemed grant admits. -/
inductive Document where
  | application
  | cv
  deriving DecidableEq

namespace Grant

/-- How many times a document may still be fetched. -/
def usesRemaining : Document → Grant → Int
  | .application, g => g.documentUsesRemaining
  | .cv, g => g.cvUsesRemaining

/-- The grant after a document has been fetched once more. -/
def charged : Document → Grant → Grant
  | .application, g => { g with documentUsesRemaining := g.documentUsesRemaining - 1 }
  | .cv, g => { g with cvUsesRemaining := g.cvUsesRemaining - 1 }

/-- Whether a grant admits a reader to a document, at a time. -/
def isLive (document : Document) (hash origin : String) (now : DateTime) (g : Grant) : Bool :=
  g.tokenHash == hash && g.audienceOrigin == origin && g.revocation.isNone &&
    decide (now < g.expiresAt) && decide (0 < g.usesRemaining document)

/-- The grant, revoked. -/
def revoke (now : DateTime) (reason : String) (g : Grant) : Grant :=
  { g with
    state := .revoked
    revocation := some ⟨now, reason⟩ }

end Grant

inductive JobSql where
  | getJob (id : Uuid)
  | selectOrganisation (actorId : Uuid)
  /-- An application and its grant are inserted, both or neither. -/
  | insertApplication (application : ApplicationRow) (grant : NewGrant)
  /-- A live grant is charged for a document. -/
  | spend (document : Document) (hash origin : String)
  | selectGrant (hash : String)
  | selectApplicant (id : Uuid)
  | insertAccess (access : Access)
  | revokeForApplication (applicantId jobApplicationId : Uuid) (reason : String)
  | revokeForMigration (sourceActorId : Uuid)

@[reducible]
def JobSql.Result : JobSql → Type
  | getJob _ => Option JobPosting
  | selectOrganisation _ => Option (String × String)
  | spend _ _ _ | selectGrant _ => Option (Uuid × Uuid)
  | selectApplicant _ => Uuid
  | revokeForApplication _ _ _ | revokeForMigration _ => Nat
  | _ => Unit

/-- How a statement fares: the message it fails with, if it does, the time that passes until
then, and the identifier that the database draws. -/
structure SqlChoice where
  error : Option String
  elapsed : Nat
  id : Uuid

def revocationReasons : List String :=
  ["applicant_withdrew", "applicant_revoked", "rejected_by_employer", "posting_removed",
    "posting_fraud_takedown", "account_deleted", "account_migrated", "superseded", "expired"]

def uniqueViolation : NoombatError :=
  .database "duplicate key value violates unique constraint"

def foreignKeyViolation : NoombatError :=
  .database "insert or update violates foreign key constraint"

def checkViolation : NoombatError :=
  .database "new row violates check constraint"

namespace Db

variable (db : Db)

/-- The database at a later time. -/
def later (elapsed : Nat) : Db :=
  { db with clock := db.clock + elapsed }

/-- The database with the grants that satisfy `p` changed by `f`, which leaves alone what
identifies them. -/
def updateGrants (p : Grant → Bool) (f : Grant → Grant)
    (keeps : ∀ g, (f g).id = g.id ∧ (f g).tokenHash = g.tokenHash) : Db :=
  { db with
    grants := db.grants.update p f (by
      intro g g' h
      simpa [Grant.Apart, keeps] using h) }

def hasApplication (id : Uuid) : Bool :=
  db.applications.rows.any (·.id == id)

/-- Whether an application is one of an applicant. -/
def isOf (applicantId jobApplicationId : Uuid) : Bool :=
  db.applications.rows.any fun a => a.id == jobApplicationId && a.applicantId == applicantId

/-- The row of a grant that is minted. -/
def newGrant (grant : NewGrant) (id : Uuid) : Grant :=
  { grant with id, state := .active, revocation := none }

def insertApplication (application : ApplicationRow) (grant : NewGrant) (id : Uuid) :
    Except NoombatError Unit × Db :=
  match db.applications.insert application with
  | none => (.error (.badRequest "you have already applied to this posting"), db)
  | some applications =>
      if db.organisations.any (·.id == application.applicantId) &&
          db.postings.any (·.id == application.jobPostingId) then
        if grant.jobApplicationId = application.id then
          match db.grants.insert (newGrant grant id) with
          | none => (.error uniqueViolation, db)
          | some grants => (.ok (), { db with applications, grants })
        else (.error foreignKeyViolation, db)
      else (.error foreignKeyViolation, db)

def spend (document : Document) (hash origin : String) :
    Except NoombatError (Option (Uuid × Uuid)) × Db :=
  let p g := Grant.isLive document hash origin db.clock g
  (.ok ((db.grants.find p).map fun g => (g.id, g.jobApplicationId)),
    db.updateGrants p (·.charged document) (by
      intro g
      cases document with
      | application => exact ⟨rfl, rfl⟩
      | cv => exact ⟨rfl, rfl⟩))

/-- A moderator's read states a reason. -/
def admits (access : Access) : Bool :=
  access.kind != "moderator_review" ||
    (access.readerId.isSome && access.reason.any fun reason => Text.trim reason != "")

def insertAccess (access : Access) : Except NoombatError Unit × Db :=
  if admits access then
    if db.hasApplication access.jobApplicationId &&
        access.grantId.all fun id => db.grants.rows.any (·.id == id) then
      (.ok (), { db with accesses := access :: db.accesses })
    else (.error foreignKeyViolation, db)
  else (.error checkViolation, db)

/-- The grants that satisfy `p` are revoked, at the time of the database. -/
def revokeWhere (p : Grant → Bool) (reason : String) : Except NoombatError Nat × Db :=
  if reason ∈ revocationReasons ∨ db.grants.rows.countP p = 0 then
    (.ok (db.grants.rows.countP p),
      db.updateGrants p (·.revoke db.clock reason) (fun _ => ⟨rfl, rfl⟩))
  else (.error checkViolation, db)

end Db

/-- The effect of a statement, at the time that the database has. -/
def JobSql.exec (id : Uuid) : (s : JobSql) → Db → Except NoombatError s.Result × Db
  | getJob jobId, db => (.ok (db.postings.find? (·.id == jobId)), db)
  | selectOrganisation actorId, db =>
      (.ok ((db.organisations.find? (·.id == actorId)).map fun o =>
        (o.apId, o.displayName.getD o.username)), db)
  | insertApplication application grant, db => db.insertApplication application grant id
  | spend document hash origin, db => db.spend document hash origin
  | selectGrant hash, db =>
      (.ok ((db.grants.find (·.tokenHash == hash)).map fun g => (g.id, g.jobApplicationId)), db)
  | selectApplicant applicationId, db =>
      match db.applications.find (·.id == applicationId) with
      | some a => (.ok a.applicantId, db)
      | none => (.error (.database "no rows returned"), db)
  | insertAccess access, db => db.insertAccess access
  | revokeForApplication applicantId jobApplicationId reason, db =>
      db.revokeWhere (fun g => g.jobApplicationId == jobApplicationId &&
        db.isOf applicantId jobApplicationId && g.revocation.isNone) reason
  | revokeForMigration sourceActorId, db =>
      db.revokeWhere (fun g => db.isOf sourceActorId g.jobApplicationId && g.state == .active)
        "account_migrated"

/-! ### Requests -/

/-- A freshly created application, and the grant that came with it. -/
structure Application where
  id : Uuid
  apId : String
  grantToken : String
  grantExpiresAt : DateTime

/-- A grant that has been checked and charged. -/
structure Redeemed where
  grantId : Uuid
  jobApplicationId : Uuid
  applicantId : Uuid
  deriving DecidableEq

/-- What a call returns. -/
inductive Response where
  | applied (r : Except NoombatError Application)
  | redeemed (r : Except NoombatError Redeemed)
  | revoked (r : Except NoombatError Nat)

inductive JobRequest where
  | sql (s : JobSql)
  /-- The HTML of a Markdown source. -/
  | renderMarkup (md : String)
  | newUuid
  | mintToken
  | utcNow
  | respond (r : Response)

@[reducible]
def JobRequest.Result : JobRequest → Type
  | sql s => s.Result
  | renderMarkup _ => String
  | newUuid => Uuid
  | mintToken => String
  | utcNow => DateTime
  | respond _ => Unit

abbrev Granting : Interface :=
  Interface.fallible NoombatError JobRequest JobRequest.Result

abbrev Op (α : Type) : Type :=
  Fallible Granting NoombatError α

def jobWorld : World Granting Db where
  Choice
    | .sql _ => SqlChoice
    | .renderMarkup _ => Except NoombatError String
    | .newUuid => Uuid
    | .mintToken => String
    | .utcNow => DateTime
    | .respond _ => Unit
  exec
    | .sql s, c, db =>
        match c.error with
        | some e => (.error (.database e), db.later c.elapsed)
        | none => s.exec c.id (db.later c.elapsed)
    | .renderMarkup _, c, db => (c, db)
    | .newUuid, c, db => (.ok c, db)
    | .mintToken, c, db => (.ok c, db)
    | .utcNow, c, db => (.ok c, db)
    | .respond _, _, db => (.ok (), db)

def sql (s : JobSql) : Op s.Result :=
  ask (JobRequest.sql s)

/-! ### Applying -/

/-- What an applicant submits. -/
structure NewApplication where
  coverLetterMd : Option String
  includeCv : Bool

/-- The origin half of an actor's URI, which pins the audience of a grant to one host. -/
def originOf (apId : String) : Except NoombatError String :=
  match (Text.stripPrefix "https://" apId).or (Text.stripPrefix "http://" apId) with
  | none => .error (.badRequest ("actor id is not a URL: " ++ apId))
  | some rest =>
      let host := (Text.split '/' rest).headD ""
      if host.isEmpty then .error (.badRequest ("actor id names no host: " ++ apId))
      else
        let scheme := if Text.startsWith apId "https://" then "https" else "http"
        .ok (scheme ++ "://" ++ host)

def getJob (id : Uuid) : Op JobPosting := do
  match ← sql (.getJob id) with
  | some job => return job
  | none => throw (.notFound "job_posting" id)

/-- The cover letter, rendered, if there is one. -/
def renderCoverLetter (coverLetterMd : Option String) : Op (Option String) :=
  match coverLetterMd with
  | some md =>
      if Text.trim md = "" then return none
      else do
        let html ← ask (JobRequest.renderMarkup md)
        return some html
  | none => return none

/-- The textual form of a UUID. -/
def uuidText (id : Uuid) : String :=
  toString id

/-- Apply to a posting, minting the grant the employer reads it with. -/
def apply (hashToken : String → String) (applicantId jobId : Uuid) (domain : String)
    (params : NewApplication) (cvSnapshot : Option Bytes) : Op Application := do
  let job ← getJob jobId
  if job.publishedAt.isNone then throw (.notFound "job_posting" jobId)
  else if job.actorId = applicantId then
    throw (.badRequest "an organisation cannot apply to its own posting")
  else
    match ← sql (.selectOrganisation job.actorId) with
    | none => throw (.notFound "job_posting" jobId)
    | some (organisationApId, organisationName) =>
        let audienceOrigin ← MonadExcept.ofExcept (originOf organisationApId)
        let coverLetterHtml ← renderCoverLetter params.coverLetterMd
        let id ← ask JobRequest.newUuid
        let apId := "https://" ++ domain ++ "/applications/" ++ uuidText id
        let token ← ask JobRequest.mintToken
        let now ← ask JobRequest.utcNow
        let expiresAt : DateTime := now + GRANT_TTL_DAYS * 86400 * 1000000000
        sql (.insertApplication
          { id
            applicantId
            jobPostingId := jobId
            postingTitle := job.title
            postingOrganization := organisationName
            apId
            coverLetterMd := params.coverLetterMd
            coverLetterHtml
            includeCv := params.includeCv
            cvSnapshot := cvSnapshot.filter fun _ => params.includeCv }
          { jobApplicationId := id
            tokenHash := hashToken token
            audienceApId := organisationApId
            audienceOrigin
            expiresAt
            documentUsesRemaining := DOCUMENT_USES
            cvUsesRemaining := if params.includeCv then CV_USES else 0 })
        return { id, apId, grantToken := token, grantExpiresAt := expiresAt }

/-! ### Redeeming -/

/-- The row of one disclosure, or of one refusal. -/
def access (jobApplicationId : Uuid) (grantId readerId : Option Uuid) (outcome : String)
    (reason : Option String) : Access where
  jobApplicationId := jobApplicationId
  grantId := grantId
  readerId := readerId
  kind := if grantId.isSome then "grant_dereference" else "moderator_review"
  outcome := outcome
  reason := reason

/-- Record one disclosure, or one refusal. -/
def logAccess (jobApplicationId : Uuid) (grantId readerId : Option Uuid) (outcome : String)
    (reason : Option String) : Op Unit :=
  sql (.insertAccess (access jobApplicationId grantId readerId outcome reason))

/-- Redeem a capability token for one read. -/
def redeem (hashToken : String → String) (token readerOrigin : String) (document : Document) :
    Op Redeemed := do
  let hash := hashToken token
  match ← sql (.spend document hash readerOrigin) with
  | none =>
      -- a refusal is logged too, where the grant can be identified
      match ← attempt (sql (.selectGrant hash)) with
      | .ok (some (grantId, applicationId)) =>
          let _ ← attempt (logAccess applicationId (some grantId) none "denied" none)
          throw .forbidden
      | _ => throw .forbidden
  | some (grantId, jobApplicationId) =>
      let applicantId ← sql (.selectApplicant jobApplicationId)
      logAccess jobApplicationId (some grantId) none "disclosed" none
      return { grantId, jobApplicationId, applicantId }

/-! ### Revoking -/

/-- Revoke an applicant's own grants for one application. -/
def revokeForApplication (applicantId jobApplicationId : Uuid) (reason : String) : Op Nat :=
  sql (.revokeForApplication applicantId jobApplicationId reason)

/-- Revoke every outstanding grant held by a migrating actor. -/
def revokeGrantsForMigration (sourceActorId : Uuid) : Op Nat :=
  sql (.revokeForMigration sourceActorId)

/-! ### Calls -/

/-- What is called, in any order and any number of times. -/
inductive Call where
  | apply (applicantId jobId : Uuid) (domain : String) (params : NewApplication)
      (cvSnapshot : Option Bytes)
  | redeem (token readerOrigin : String) (document : Document)
  | revokeForApplication (applicantId jobApplicationId : Uuid) (reason : String)
  | revokeGrantsForMigration (sourceActorId : Uuid)

def respond (r : Response) : Program Granting Unit := do
  let _ ← request (I := Granting) (.respond r)
  return ()

def Call.program (hashToken : String → String) : Call → Program Granting Unit
  | apply applicantId jobId domain params cvSnapshot => do
      let r ← (Jobs.apply hashToken applicantId jobId domain params cvSnapshot).run
      respond (.applied r)
  | redeem token readerOrigin document => do
      let r ← (Jobs.redeem hashToken token readerOrigin document).run
      respond (.redeemed r)
  | revokeForApplication applicantId jobApplicationId reason => do
      let r ← (Jobs.revokeForApplication applicantId jobApplicationId reason).run
      respond (.revoked r)
  | revokeGrantsForMigration sourceActorId => do
      let r ← (Jobs.revokeGrantsForMigration sourceActorId).run
      respond (.revoked r)

end Jobs
