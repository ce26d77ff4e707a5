import Noombat.Postings.Verification
import Noombat.Program.Threads

/-!
# Publishing and withdrawing postings

A posting is published when it is created, by an organisation only if it controls the domain
that it claims, and publicised by a note that goes to its followers.  It is hidden when it is
deleted, when its organisation has lost its last verified link, and when its organisation is
erased; then the note is withdrawn by a `Delete` of it, or of the organisation.
-/

namespace Postings

open Federation (Uuid DateTime NoombatError)
open Fallible

variable (lib : Library) (domain : String)

/-! ### Rows -/

/-- The parameters for creating a posting. -/
structure NewJobPosting where
  title : String
  descriptionMd : String
  location : Option String
  remote : Option Bool
  salaryMin : Option Int
  salaryMax : Option Int
  currency : Option String
  requirements : Option (List String)
  expiresAt : Option DateTime
  publish : Bool

/-- The parameters for changing a posting; what is absent stays as it is. -/
structure UpdateJobPosting where
  title : Option String
  descriptionMd : Option String
  location : Option String
  remote : Option Bool
  salaryMin : Option Int
  salaryMax : Option Int
  currency : Option String
  requirements : Option (List String)
  expiresAt : Option DateTime

/-- The result of a rendering, or its error. -/
def render (md : String) : Op String :=
  match lib.render md with
  | .ok html => pure html
  | .error e => throw e

def createJobRow (actorId : Uuid) (createdBy : Option Uuid) (params : NewJobPosting) :
    Op PostingAnswer := do
  let id ← ask .newUuid
  let html ← render lib params.descriptionMd
  let now ← ask .now
  sql (.insertPosting
    { id
      actorId
      apId := s!"https://{domain}/jobs/{id}"
      title := params.title
      descriptionMd := params.descriptionMd
      descriptionHtml := html
      location := params.location
      remote := params.remote.getD false
      salaryMin := params.salaryMin
      salaryMax := params.salaryMax
      currency := params.currency
      requirements := params.requirements
      publishedAt := if params.publish then some now else none
      expiresAt := params.expiresAt
      createdAt := now
      createdBy := createdBy.filter (· ≠ actorId) })

def getJobRow (id : Uuid) : Op PostingAnswer := do
  okOr (.notFound "job_posting" id) (← sql (.selectPosting id))

def deleteJobRow (actorId id : Uuid) : Op Unit := do
  if (← sql (.deletePosting actorId id)) = 0 then throw (.notFound "job_posting" id)

/-- A posting with the text that it has after a change. -/
def changedText (existing : PostingText) (params : UpdateJobPosting) (html : String) :
    PostingText where
  title := params.title.getD existing.title
  descriptionMd := params.descriptionMd.getD existing.descriptionMd
  descriptionHtml := html
  location := params.location.or existing.location
  remote := params.remote.getD existing.remote
  salaryMin := params.salaryMin.or existing.salaryMin
  salaryMax := params.salaryMax.or existing.salaryMax
  currency := params.currency.or existing.currency
  requirements := params.requirements.or existing.requirements
  expiresAt := params.expiresAt.or existing.expiresAt

def updateJobRow (actorId id : Uuid) (params : UpdateJobPosting) : Op PostingAnswer := do
  let (existing, _) ← okOr (.notFound "job_posting" id) (← sql (.selectPostingOf actorId id))
  let html ← match params.descriptionMd with
    | some md => render lib md
    | none => pure existing.descriptionHtml
  sql (.updatePosting actorId id (changedText existing.toPostingText params html))

def findById (id : Uuid) : Op Actor := do
  okOr (.notFound "actor" id) (← sql (.findById id))

def findLocalByUsername (username : String) : Op Actor := do
  okOr (.actorNotFound username) (← sql (.findLocalByUsername username))

/-! ### Deliveries -/

/-- A text in which no character would close a tag. -/
def escape (input : String) : String :=
  String.ofList (input.toList.flatMap fun c =>
    (match c with
      | '&' => "&amp;"
      | '<' => "&lt;"
      | '>' => "&gt;"
      | '"' => "&quot;"
      | '\'' => "&#x27;"
      | c => String.singleton c).toList)

/-- The note by which a posting is publicised. -/
def noteId (jobApId : String) : String :=
  s!"{jobApId}#note"

/-- The `Create` of the note that publicises a posting. -/
def publicisingNote (organisation : Actor) (job : JobPosting) : Json :=
  let listingUrl := s!"https://{domain}/jobs/{job.id}"
  let location := match job.location, job.remote with
    | some place, true => s!"{place} (remote)"
    | some place, false => place
    | none, true => "Remote"
    | none, false => ""
  let heading :=
    if location = "" then s!"<p><b>{escape job.title}</b></p>"
    else s!"<p><b>{escape job.title}</b> ({escape location})</p>"
  let note := Json.obj
    [("id", .str (noteId job.apId)), ("type", .str "Note"),
      ("attributedTo", .str organisation.apId),
      ("content", .str s!"{heading}<p><a href=\"{listingUrl}\">{listingUrl}</a></p>"),
      ("url", .str listingUrl), ("canonicalUri", .str listingUrl),
      ("published", .str (lib.toRfc3339 job.createdAt)),
      ("to", .arr [.str Federation.asPublic]),
      ("cc", .arr [.str s!"{organisation.apId}/followers"])]
  .obj
    [("@context", Federation.defaultContext), ("id", .str s!"{job.apId}#create-note"),
      ("type", .str "Create"), ("actor", .str organisation.apId), ("object", note),
      ("to", .arr [.str Federation.asPublic]),
      ("cc", .arr [.str s!"{organisation.apId}/followers"])]

/-- The `Delete` that withdraws the note of a posting. -/
def withdrawingDelete (organisationApId jobApId : String) : Json :=
  .obj
    [("@context", Federation.defaultContext), ("id", .str s!"{jobApId}#delete-note"),
      ("type", .str "Delete"), ("actor", .str organisationApId),
      ("object", .str (noteId jobApId)), ("to", .arr [.str Federation.asPublic])]

/-- The `Delete` of an actor. -/
def actorDelete (actorApId : String) (now : DateTime) : Json :=
  .obj
    [("@context", Federation.defaultContext),
      ("id", .str s!"{actorApId}#delete-{now.timestampMillis}"),
      ("type", .str "Delete"), ("actor", .str actorApId), ("object", .str actorApId),
      ("to", .arr [.str Federation.asPublic])]

/-- Queue an activity to inboxes.  What cannot be queued is only logged. -/
def enqueueTo (actorId : Uuid) (activity : Json) : List String → Op Unit
  | [] => pure ()
  | inbox :: inboxes => do
      unwrapOr () (sql (.enqueue actorId activity inbox))
      enqueueTo actorId activity inboxes

/-- Queue an activity to every follower inbox of an organisation. -/
def deliver (organisation : Actor) (activity : Json) : Op Unit := do
  match ← attempt (sql (.followerInboxes organisation.id)) with
  | .error _ => pure ()
  | .ok inboxes => enqueueTo organisation.id activity inboxes

/-- The actor that the note of a posting is attributed to. -/
def resolveOrganisation (author : Actor) (job : JobPosting) : Op (Option Actor) := do
  if job.actorId = author.id then return some author
  match ← attempt (findById job.actorId) with
  | .ok actor => return some actor
  | .error _ => return none

/-- Deliver the publicising note to the organisation's followers, if it is published. -/
def announcePublished (author : Actor) (job : JobPosting) : Op Unit := do
  if job.publishedAt.isNone then return
  match ← resolveOrganisation author job with
  | none => return
  | some organisation => deliver organisation (publicisingNote lib domain organisation job)

/-- Deliver a `Delete` for each of the postings that were hidden. -/
def announceWithdrawn : List Uuid → Op Unit
  | [] => pure ()
  | jobId :: jobIds => do
      match ← attempt (getJobRow jobId) with
      | .error _ => announceWithdrawn jobIds
      | .ok (job, _) =>
          match ← attempt (findById job.actorId) with
          | .error _ => announceWithdrawn jobIds
          | .ok organisation => do
              deliver organisation (withdrawingDelete organisation.apId job.apId)
              announceWithdrawn jobIds

/-! ### Routes -/

/-- Require that the viewer is the subject, or a member of it. -/
def requireActsFor (subjectId : Uuid) : Option Uuid → Op Unit
  | none => throw .forbidden
  | some viewer => do
      if viewer = subjectId then return
      match ← attempt (sql (.isMember subjectId viewer)) with
      | .error e => throw (.internal e.display)
      | .ok isMember => if !isMember then throw .forbidden

def requireLocalActor (username : String) (viewer : Option Uuid) : Op Actor := do
  if viewer.isNone then throw .forbidden
  let actor ← findLocalByUsername username
  requireActsFor actor.id viewer
  return actor

/-- An organisation declares what kind it is before it posts. -/
def requireDeclared (actor : Actor) : Op Unit := do
  if actor.actorType = .organization ∧ actor.orgKind.isNone then
    throw (.badRequest
      "declare whether this organisation is an employer or an agency before posting")

/-- `POST /users/{username}/jobs` -/
def createJob (username : String) (viewer : Option Uuid) (params : NewJobPosting) :
    Op PostingAnswer := do
  let actor ← requireLocalActor username viewer
  if actor.actorType = .organization then
    if !(← controlsClaimedDomain lib actor.id) then throw .forbidden
  requireDeclared actor
  let (job, kind) ← createJobRow lib domain actor.id viewer params
  announcePublished lib domain actor job
  return (job, kind)

/-- `POST /settings/jobs` -/
def createJobFromForm (viewer : Option Uuid) (params : NewJobPosting) : Op PostingAnswer := do
  let actorId ← okOr .forbidden viewer
  let actor ← findById actorId
  if actor.actorType = .organization then
    if !(← unwrapOr false (controlsClaimedDomain lib actor.id)) then throw .forbidden
  requireDeclared actor
  let (job, kind) ← createJobRow lib domain actor.id (some actorId)
    { params with expiresAt := none, publish := true }
  announcePublished lib domain actor job
  return (job, kind)

/-- `PATCH /jobs/{id}` -/
def patchJob (id : Uuid) (viewer : Option Uuid) (params : UpdateJobPosting) :
    Op PostingAnswer := do
  let (job, _) ← getJobRow id
  requireActsFor job.actorId viewer
  updateJobRow lib job.actorId id params

/-- `DELETE /jobs/{id}` -/
def deleteJob (id : Uuid) (viewer : Option Uuid) : Op Unit := do
  let (job, _) ← getJobRow id
  requireActsFor job.actorId viewer
  deleteJobRow job.actorId id
  if job.publishedAt.isSome then
    let organisation ← findById job.actorId
    deliver organisation (withdrawingDelete organisation.apId job.apId)

/-- `POST` of a link, and its verification at once. -/
def addVerifiedLink (username : String) (viewer : Option Uuid) (url : String) : Op Unit := do
  let actor ← requireLocalActor username viewer
  let link ← addLink actor.id url
  let _ ← verifyLink lib link (profileUrls domain username)

def deleteVerifiedLink (username : String) (viewer : Option Uuid) (id : Uuid) : Op Unit := do
  let actor ← requireLocalActor username viewer
  deleteLink actor.id id

/-- The domain that an organisation claims, as it is stored. -/
def claimable : Option String → Except NoombatError (Option String)
  | none => .ok none
  | some raw =>
      match registrableDomain lib raw with
      | some claimed => .ok (some claimed)
      | none => .error (.badRequest s!"{raw} is not a registrable domain")

/-- Enrol an organisation, owned by the actor enrolling it. -/
def enrolOrganization (ownerId : Uuid) (username : String) (claimedDomain : Option String)
    (orgKind : Option OrgKind) : Op Actor := do
  let id ← ask .newUuid
  match claimable lib claimedDomain with
  | .error e => throw e
  | .ok claimed =>
      let organisation : Actor :=
        { id
          apId := s!"https://{domain}/users/{username}"
          username
          isLocal := true
          actorType := .organization
          orgKind
          claimedDomain := claimed
          inboxUrl := none
          sharedInboxUrl := none
          deletionRequestedAt := none
          erasedAt := none }
      sql (.enrolOrganization organisation ownerId)
      return organisation

/-! ### What anyone may read -/

inductive Reader where
  | listJobs (orgKind : Option OrgKind) (limit offset : Int)
  | listUserJobs (username : String) (limit offset : Int)
  | getJob (id : Uuid)

/-- The postings that are answered to a reader. -/
def Reader.read : Reader → Op (List PostingAnswer)
  | listJobs orgKind limit offset => sql (.selectPublished orgKind limit offset)
  | listUserJobs username limit offset => do
      let actor ← findLocalByUsername username
      sql (.selectPostingsBy actor.id limit offset)
  | getJob id => do
      let job ← getJobRow id
      return [job]

/-! ### Background work -/

/-- One round of the worker that verifies links again. -/
def reverificationRound (maxAgeDays : Int) : Op Unit := do
  match ← attempt (reverifyStaleLinks lib domain maxAgeDays) with
  | .error _ => pure ()
  | .ok [] => pure ()
  | .ok (_ :: _) =>
      match ← attempt (sql .demoteLapsed) with
      | .error _ => pure ()
      | .ok demoted => announceWithdrawn demoted

/-- Erase an actor, and notify those who follow it. -/
def eraseActor (actorId : Uuid) : Op Actor := do
  let inboxes ← unwrapOr [] (sql (.followerInboxes actorId))
  let actor ← findById actorId
  if !actor.isLocal then throw (.badRequest "cannot delete a remote actor")
  sql (.tombstone actorId)
  sql (.retireDeletionRequest actorId)
  if inboxes ≠ [] then
    let now ← ask .now
    enqueueTo actor.id (actorDelete actor.apId now) inboxes
  return actor

/-! ### Calls -/

/-- What other parts of the program change: who follows an actor, where it takes deliveries,
and what an organisation declares itself to be. -/
inductive Change where
  | follow (followerId followingId : Uuid) (accepted : Bool)
  | accept (followerId followingId : Uuid)
  | unfollow (followerId followingId : Uuid)
  | moveInbox (actorId : Uuid) (inboxUrl sharedInboxUrl : Option String)
  | declare (actorId : Uuid) (kind : OrgKind)

def Change.make : Change → Op Unit
  | follow followerId followingId accepted =>
      sql (.insertFollow followerId followingId accepted)
  | accept followerId followingId => do
      let _ ← sql (.acceptFollow followerId followingId)
  | unfollow followerId followingId => do
      let _ ← sql (.deleteFollow followerId followingId)
  | moveInbox actorId inboxUrl sharedInboxUrl =>
      sql (.moveInbox actorId inboxUrl sharedInboxUrl)
  | declare actorId kind => do
      let _ ← sql (.setOrgKind actorId kind)

inductive Call where
  | createJob (username : String) (viewer : Option Uuid) (params : NewJobPosting)
  | createJobFromForm (viewer : Option Uuid) (params : NewJobPosting)
  | patchJob (id : Uuid) (viewer : Option Uuid) (params : UpdateJobPosting)
  | deleteJob (id : Uuid) (viewer : Option Uuid)
  | addVerifiedLink (username : String) (viewer : Option Uuid) (url : String)
  | deleteVerifiedLink (username : String) (viewer : Option Uuid) (id : Uuid)
  | enrolOrganization (ownerId : Uuid) (username : String) (claimedDomain : Option String)
      (orgKind : Option OrgKind)
  | reverificationRound (maxAgeDays : Int)
  | eraseActor (actorId : Uuid)
  | read (reader : Reader)
  | change (change : Change)

/-- The program that is run for a call, without its result. -/
def Call.program (call : Call) : Program Publicity Unit :=
  let ended := fun {α : Type} (p : Op α) => (p.run >>= fun _ => pure () : Program Publicity Unit)
  match call with
  | createJob username viewer params => ended (Postings.createJob lib domain username viewer params)
  | createJobFromForm viewer params => ended (Postings.createJobFromForm lib domain viewer params)
  | patchJob id viewer params => ended (Postings.patchJob lib id viewer params)
  | deleteJob id viewer => ended (Postings.deleteJob id viewer)
  | addVerifiedLink username viewer url =>
      ended (Postings.addVerifiedLink lib domain username viewer url)
  | deleteVerifiedLink username viewer id =>
      ended (Postings.deleteVerifiedLink username viewer id)
  | enrolOrganization ownerId username claimedDomain orgKind =>
      ended (Postings.enrolOrganization lib domain ownerId username claimedDomain orgKind)
  | reverificationRound maxAgeDays => ended (Postings.reverificationRound lib domain maxAgeDays)
  | eraseActor actorId => ended (Postings.eraseActor actorId)
  | read reader => ended reader.read
  | change c => ended c.make

end Postings
