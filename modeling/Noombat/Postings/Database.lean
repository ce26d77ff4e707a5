import Noombat.Federation.Client
import Noombat.Program.Fallible
import Noombat.Table

/-!
# The database of job postings

The actors, the links by which they prove control of domains, their postings, those who follow
them, and the deliveries that are queued.

Each statement takes effect at once, at the time of the database, or fails and changes nothing.
A transaction is one statement.
-/

namespace Postings

open Federation (Uuid DateTime NoombatError)
open Federation.Client (UrlLibrary Answer Page)

/-! ### The tables -/

inductive ActorType where
  | individual
  | organization
  | group
  | application
  deriving DecidableEq

inductive OrgKind where
  | employer
  | agency
  deriving DecidableEq

/-- The columns of `actors` that are read. -/
structure Actor where
  id : Uuid
  apId : String
  username : String
  isLocal : Bool
  actorType : ActorType
  orgKind : Option OrgKind
  claimedDomain : Option String
  inboxUrl : Option String
  sharedInboxUrl : Option String
  deletionRequestedAt : Option DateTime
  erasedAt : Option DateTime
  deriving DecidableEq

/-- Where an actor takes deliveries: at the inbox its instance shares, or at its own. -/
def Actor.deliveryInbox (a : Actor) : String :=
  (a.sharedInboxUrl.or a.inboxUrl).getD s!"{a.apId}/inbox"

def Actor.Apart (a a' : Actor) : Prop :=
  a.id ≠ a'.id ∧ a.apId ≠ a'.apId

instance : DecidableRel Actor.Apart :=
  fun _ _ => inferInstanceAs (Decidable (_ ∧ _))

instance : Std.Symm Actor.Apart where
  symm _ _ h := ⟨h.1.symm, h.2.symm⟩

/-- A row of `verified_links`. -/
structure VerifiedLink where
  id : Uuid
  actorId : Uuid
  url : String
  verifiedAt : Option DateTime
  lastChecked : DateTime
  deriving DecidableEq

def VerifiedLink.Apart (v v' : VerifiedLink) : Prop :=
  v.id ≠ v'.id ∧ (v.actorId, v.url) ≠ (v'.actorId, v'.url)

instance : DecidableRel VerifiedLink.Apart :=
  fun _ _ => inferInstanceAs (Decidable (_ ∧ _))

instance : Std.Symm VerifiedLink.Apart where
  symm _ _ h := ⟨h.1.symm, h.2.symm⟩

/-- What a posting says, and until when. -/
structure PostingText where
  title : String
  descriptionMd : String
  descriptionHtml : String
  location : Option String
  remote : Bool
  salaryMin : Option Int
  salaryMax : Option Int
  currency : Option String
  requirements : Option (List String)
  expiresAt : Option DateTime
  deriving DecidableEq

/-- A row of `job_postings`. -/
structure JobPosting extends PostingText where
  id : Uuid
  actorId : Uuid
  apId : String
  publishedAt : Option DateTime
  createdAt : DateTime
  createdBy : Option Uuid
  deriving DecidableEq

def JobPosting.Apart (j j' : JobPosting) : Prop :=
  j.id ≠ j'.id ∧ j.apId ≠ j'.apId

instance : DecidableRel JobPosting.Apart :=
  fun _ _ => inferInstanceAs (Decidable (_ ∧ _))

instance : Std.Symm JobPosting.Apart where
  symm _ _ h := ⟨h.1.symm, h.2.symm⟩

/-- A row of `follows`. -/
structure Follow where
  followerId : Uuid
  followingId : Uuid
  accepted : Bool
  deriving DecidableEq

def Follow.Apart (f f' : Follow) : Prop :=
  (f.followerId, f.followingId) ≠ (f'.followerId, f'.followingId)

instance : DecidableRel Follow.Apart :=
  fun _ _ => inferInstanceAs (Decidable (_ ≠ _))

instance : Std.Symm Follow.Apart where
  symm _ _ h := h.symm

/-- A row of `delivery_queue`. -/
structure Delivery where
  actorId : Uuid
  payload : Json
  targetInbox : String

/-- The database. -/
structure Db where
  /-- The next identifier drawn. -/
  nextId : Uuid
  actors : Table Actor.Apart
  /-- The members of organisations who have accepted: the organisation, and the member. -/
  members : List (Uuid × Uuid)
  links : Table VerifiedLink.Apart
  postings : Table JobPosting.Apart
  follows : Table Follow.Apart
  deliveries : List Delivery

namespace Db

variable (db : Db)

def actor (id : Uuid) : Option Actor :=
  db.actors.find (·.id == id)

/-- The inboxes of the actors whose follow of the given one is accepted, each once. -/
def followerInboxes (actorId : Uuid) : List String :=
  (db.follows.rows.filterMap fun f =>
    if f.followingId == actorId && f.accepted then
      (db.actor f.followerId).map Actor.deliveryInbox
    else none).dedup

/-- An actor is an organisation that has no verified link. -/
def isLapsed (actorId : Uuid) : Bool :=
  (db.actors.rows.any fun a => a.id == actorId && a.actorType == .organization) &&
    !db.links.rows.any fun v => v.actorId == actorId && v.verifiedAt.isSome

end Db

/-! ### Statements -/

inductive Sql where
  | insertLink (id actorId : Uuid) (url : String)
  | selectLinks (actorId : Uuid)
  | deleteLink (actorId id : Uuid)
  | markChecked (linkId : Uuid) (verified : Bool)
  | selectUsername (actorId : Uuid)
  | selectClaimedDomain (actorId : Uuid)
  | selectVerifiedUrls (actorId : Uuid)
  | demoteLapsed
  | insertPosting (posting : JobPosting)
  | selectPosting (id : Uuid)
  | selectPostingOf (actorId id : Uuid)
  | selectPostingsBy (actorId : Uuid) (limit offset : Int)
  | selectPublished (orgKind : Option OrgKind) (limit offset : Int)
  | updatePosting (actorId id : Uuid) (text : PostingText)
  | deletePosting (actorId id : Uuid)
  | findById (id : Uuid)
  | findLocalByUsername (username : String)
  | isMember (organizationId memberId : Uuid)
  | enrolOrganization (organization : Actor) (ownerId : Uuid)
  | setOrgKind (actorId : Uuid) (kind : OrgKind)
  | followerInboxes (actorId : Uuid)
  | enqueue (actorId : Uuid) (payload : Json) (targetInbox : String)
  | insertFollow (followerId followingId : Uuid) (accepted : Bool)
  | acceptFollow (followerId followingId : Uuid)
  | deleteFollow (followerId followingId : Uuid)
  | moveInbox (actorId : Uuid) (inboxUrl sharedInboxUrl : Option String)
  | tombstone (actorId : Uuid)
  | retireDeletionRequest (actorId : Uuid)

/-- A posting as it is answered: with the declaration of who has posted it. -/
abbrev PostingAnswer : Type :=
  JobPosting × Option OrgKind

@[reducible]
def Sql.Result : Sql → Type
  | insertLink _ _ _ => VerifiedLink
  | selectLinks _ => List VerifiedLink
  | deleteLink _ _ => Nat
  | markChecked _ _ => Unit
  | selectUsername _ => Option String
  | selectClaimedDomain _ => Option (Option String)
  | selectVerifiedUrls _ => List String
  | demoteLapsed => List Uuid
  | insertPosting _ => PostingAnswer
  | selectPosting _ => Option PostingAnswer
  | selectPostingOf _ _ => Option PostingAnswer
  | selectPostingsBy _ _ _ => List PostingAnswer
  | selectPublished _ _ _ => List PostingAnswer
  | updatePosting _ _ _ => PostingAnswer
  | deletePosting _ _ => Nat
  | findById _ => Option Actor
  | findLocalByUsername _ => Option Actor
  | isMember _ _ => Bool
  | enrolOrganization _ _ => Unit
  | setOrgKind _ _ => Nat
  | followerInboxes _ => List String
  | enqueue _ _ _ => Unit
  | insertFollow _ _ _ => Unit
  | acceptFollow _ _ => Nat
  | deleteFollow _ _ => Nat
  | moveInbox _ _ _ => Unit
  | tombstone _ => Unit
  | retireDeletionRequest _ => Unit

namespace Db

variable (db : Db)

def missingReference : NoombatError :=
  .database "violates foreign key constraint"

def duplicateKey : NoombatError :=
  .database "duplicate key value violates unique constraint"

/-- A posting, with the declaration of who has posted it. -/
def answer (j : JobPosting) : PostingAnswer :=
  (j, (db.actor j.actorId).bind Actor.orgKind)

/-- A part of the postings given, those published last first. -/
def page (postings : List JobPosting) (limit offset : Int) :
    Except NoombatError (List PostingAnswer) :=
  if limit < 0 then .error (.database "LIMIT must not be negative")
  else if offset < 0 then .error (.database "OFFSET must not be negative")
  else
    let sorted := postings.mergeSort fun j j' => j'.publishedAt.getD 0 ≤ j.publishedAt.getD 0
    .ok (((sorted.drop offset.toNat).take limit.toNat).map db.answer)

/-- A link is added, or is checked if it is there. -/
def insertLink (now : DateTime) (id actorId : Uuid) (url : String) :
    Except NoombatError VerifiedLink × Db :=
  if (db.actor actorId).isNone then (.error missingReference, db)
  else
    match db.links.find fun v => v.actorId == actorId && v.url == url with
    | some v =>
        (.ok { v with lastChecked := now },
          { db with
            links := db.links.update (·.id == v.id) ({ · with lastChecked := now })
              fun _ _ h => ⟨h, h, h⟩ })
    | none =>
        match db.links.insert ⟨id, actorId, url, none, now⟩ with
        | none => (.error duplicateKey, db)
        | some links => (.ok ⟨id, actorId, url, none, now⟩, { db with links })

/-- A link has been checked now, and stands as verified just if it was found to be. -/
def markChecked (now : DateTime) (linkId : Uuid) (verified : Bool) : Db :=
  { db with
    links := db.links.update (·.id == linkId)
      (fun v =>
        { v with verifiedAt := if verified then some now else none, lastChecked := now })
      fun _ _ h => ⟨h, h, h⟩ }

/-- The postings of organisations without a verified link are no longer published. -/
def demoteLapsed : Db :=
  { db with
    postings := db.postings.update (fun j => j.publishedAt.isSome && db.isLapsed j.actorId)
      ({ · with publishedAt := none }) fun _ _ h => ⟨h, h, h⟩ }

/-- The identifiers of the postings that would be demoted. -/
def lapsedPostings : List Uuid :=
  (db.postings.rows.filter fun j => j.publishedAt.isSome && db.isLapsed j.actorId).map (·.id)

def insertPosting (j : JobPosting) : Except NoombatError PostingAnswer × Db :=
  if (db.actor j.actorId).isNone then (.error missingReference, db)
  else
    match db.postings.insert j with
    | none => (.error duplicateKey, db)
    | some postings => (.ok (db.answer j), { db with postings })

def updatePosting (actorId id : Uuid) (text : PostingText) :
    Except NoombatError PostingAnswer × Db :=
  match db.postings.find fun j => j.id == id && j.actorId == actorId with
  | none =>
      (.error (.database "no rows returned by a query that expected to return at least one row"), db)
  | some j =>
      (.ok (db.answer { j with toPostingText := text }),
        { db with
          postings := db.postings.update (fun j => j.id == id && j.actorId == actorId)
            ({ · with toPostingText := text }) fun _ _ h => ⟨h, h, h⟩ })

def insertFollow (followerId followingId : Uuid) (accepted : Bool) :
    Except NoombatError Unit × Db :=
  if (db.actor followerId).isNone || (db.actor followingId).isNone then
    (.error missingReference, db)
  else
    match db.follows.insert ⟨followerId, followingId, accepted⟩ with
    | none => (.error duplicateKey, db)
    | some follows => (.ok (), { db with follows })

/-- An organisation is enrolled, with its owner. -/
def enrolOrganization (organization : Actor) (ownerId : Uuid) : Except NoombatError Unit × Db :=
  match db.actors.insert organization with
  | none => (.error duplicateKey, db)
  | some actors => (.ok (), { db with actors, members := (organization.id, ownerId) :: db.members })

/-- An actor is erased: its row is kept, and nothing of what refers to it. -/
def tombstone (now : DateTime) (actorId : Uuid) : Db :=
  { db with
    actors := db.actors.update (·.id == actorId)
      (fun a => { a with erasedAt := a.erasedAt.or (some now) }) fun _ _ h => ⟨h, h, h⟩
    links := db.links.delete (·.actorId == actorId)
    follows := db.follows.delete fun f => f.followerId == actorId || f.followingId == actorId
    postings := db.postings.delete (·.actorId == actorId)
    deliveries := db.deliveries.filter (·.actorId != actorId) }

/-! ### What a statement leaves alone -/

theorem insertLink_frame (now : DateTime) (id actorId : Uuid) (url : String) :
  (db.insertLink now id actorId url).2.actors = db.actors ∧
    (db.insertLink now id actorId url).2.postings = db.postings ∧
    (db.insertLink now id actorId url).2.follows = db.follows
  := by
  unfold insertLink
  split
  · exact ⟨rfl, rfl, rfl⟩
  · split
    · exact ⟨rfl, rfl, rfl⟩
    · split <;> exact ⟨rfl, rfl, rfl⟩

theorem insertPosting_frame (j : JobPosting) :
  (db.insertPosting j).2.actors = db.actors ∧ (db.insertPosting j).2.links = db.links ∧
    (db.insertPosting j).2.follows = db.follows
  := by
  unfold insertPosting
  split
  · exact ⟨rfl, rfl, rfl⟩
  · split <;> exact ⟨rfl, rfl, rfl⟩

theorem updatePosting_frame (actorId id : Uuid) (text : PostingText) :
  (db.updatePosting actorId id text).2.actors = db.actors ∧
    (db.updatePosting actorId id text).2.links = db.links ∧
    (db.updatePosting actorId id text).2.follows = db.follows
  := by
  unfold updatePosting
  split <;> exact ⟨rfl, rfl, rfl⟩

theorem insertFollow_frame (followerId followingId : Uuid) (accepted : Bool) :
  (db.insertFollow followerId followingId accepted).2.actors = db.actors ∧
    (db.insertFollow followerId followingId accepted).2.links = db.links ∧
    (db.insertFollow followerId followingId accepted).2.postings = db.postings
  := by
  unfold insertFollow
  split
  · exact ⟨rfl, rfl, rfl⟩
  · split <;> exact ⟨rfl, rfl, rfl⟩

theorem enrolOrganization_frame (organization : Actor) (ownerId : Uuid) :
  (db.enrolOrganization organization ownerId).2.links = db.links ∧
    (db.enrolOrganization organization ownerId).2.postings = db.postings ∧
    (db.enrolOrganization organization ownerId).2.follows = db.follows
  := by
  unfold enrolOrganization
  split <;> exact ⟨rfl, rfl, rfl⟩

end Db

def Sql.exec (now : DateTime) : (s : Sql) → Db → Except NoombatError s.Result × Db
  | insertLink id actorId url, db => db.insertLink now id actorId url
  | selectLinks actorId, db => (.ok (db.links.rows.filter (·.actorId == actorId)), db)
  | deleteLink actorId id, db =>
      (.ok (db.links.rows.countP fun v => v.id == id && v.actorId == actorId),
        { db with links := db.links.delete fun v => v.id == id && v.actorId == actorId })
  | markChecked linkId verified, db => (.ok (), db.markChecked now linkId verified)
  | selectUsername actorId, db => (.ok ((db.actor actorId).map Actor.username), db)
  | selectClaimedDomain actorId, db => (.ok ((db.actor actorId).map Actor.claimedDomain), db)
  | selectVerifiedUrls actorId, db =>
      (.ok ((db.links.rows.filter fun v => v.actorId == actorId && v.verifiedAt.isSome).map
        (·.url)), db)
  | demoteLapsed, db => (.ok db.lapsedPostings, db.demoteLapsed)
  | insertPosting posting, db => db.insertPosting posting
  | selectPosting id, db => (.ok ((db.postings.find (·.id == id)).map db.answer), db)
  | selectPostingOf actorId id, db =>
      (.ok ((db.postings.find fun j => j.id == id && j.actorId == actorId).map db.answer), db)
  | selectPostingsBy actorId limit offset, db =>
      (db.page (db.postings.rows.filter fun j => j.actorId == actorId && j.publishedAt.isSome)
        limit offset, db)
  | selectPublished orgKind limit offset, db =>
      (db.page (db.postings.rows.filter fun j =>
        j.publishedAt.isSome && j.expiresAt.all (now < ·) &&
          orgKind.all fun kind => (db.actor j.actorId).bind Actor.orgKind == some kind)
        limit offset, db)
  | updatePosting actorId id text, db => db.updatePosting actorId id text
  | deletePosting actorId id, db =>
      (.ok (db.postings.rows.countP fun j => j.id == id && j.actorId == actorId),
        { db with postings := db.postings.delete fun j => j.id == id && j.actorId == actorId })
  | findById id, db => (.ok (db.actor id), db)
  | findLocalByUsername username, db =>
      (.ok (db.actors.find fun a => a.username == username && a.isLocal), db)
  | isMember organizationId memberId, db =>
      (.ok (db.members.contains (organizationId, memberId)), db)
  | enrolOrganization organization ownerId, db => db.enrolOrganization organization ownerId
  | setOrgKind actorId kind, db =>
      let changes := fun a : Actor =>
        a.id == actorId && a.isLocal && a.actorType == .organization
      (.ok (db.actors.rows.countP changes),
        { db with
          actors := db.actors.update changes ({ · with orgKind := some kind })
            fun _ _ h => ⟨h, h, h⟩ })
  | followerInboxes actorId, db => (.ok (db.followerInboxes actorId), db)
  | enqueue actorId payload targetInbox, db =>
      (.ok (), { db with deliveries := ⟨actorId, payload, targetInbox⟩ :: db.deliveries })
  | insertFollow followerId followingId accepted, db =>
      db.insertFollow followerId followingId accepted
  | acceptFollow followerId followingId, db =>
      let changes := fun f : Follow => f.followerId == followerId && f.followingId == followingId
      (.ok (db.follows.rows.countP changes),
        { db with
          follows := db.follows.update changes ({ · with accepted := true })
            fun _ _ h => ⟨h, h, h⟩ })
  | deleteFollow followerId followingId, db =>
      let goes := fun f : Follow => f.followerId == followerId && f.followingId == followingId
      (.ok (db.follows.rows.countP goes), { db with follows := db.follows.delete goes })
  | moveInbox actorId inboxUrl sharedInboxUrl, db =>
      (.ok (), { db with
        actors := db.actors.update (·.id == actorId) ({ · with inboxUrl, sharedInboxUrl })
          fun _ _ h => ⟨h, h, h⟩ })
  | tombstone actorId, db => (.ok (), db.tombstone now actorId)
  | retireDeletionRequest actorId, db =>
      (.ok (), { db with
        actors := db.actors.update (·.id == actorId) ({ · with deletionRequestedAt := none })
          fun _ _ h => ⟨h, h, h⟩ })

/-! ### The world -/

/-- What is not part of this program: the public suffixes of domains, the hyperlinks of a page
that are marked as `rel="me"`, the rendering of markup, and how a time is written. -/
structure Library extends UrlLibrary where
  /-- The registrable domain of a host, if it has a public suffix. -/
  registrable : String → Option String
  relMeHrefs : String → List String
  render : String → Except NoombatError String
  toRfc3339 : DateTime → String

inductive PostingRequest where
  | sql (s : Sql)
  /-- Up to fifty of the links that were not checked since. -/
  | staleLinks (maxAgeDays : Int)
  | newUuid
  /-- The time of the process. -/
  | now
  /-- A page is fetched. -/
  | get (url : String)

@[reducible]
def PostingRequest.Result : PostingRequest → Type
  | sql s => s.Result
  | staleLinks _ => List VerifiedLink
  | newUuid => Uuid
  | now => DateTime
  | get _ => Except String Page

abbrev Publicity : Interface :=
  Interface.fallible NoombatError PostingRequest PostingRequest.Result

abbrev Op (α : Type) : Type :=
  Fallible Publicity NoombatError α

/-- The links that were last checked longer ago, those named first, and each once. -/
def Db.staleLinks (db : Db) (now : DateTime) (maxAgeDays : Int) (first : List Uuid) :
    List VerifiedLink :=
  let stale := db.links.rows.filter fun v =>
    v.lastChecked < now - maxAgeDays * (24 * 60 * 60 * 1000000000)
  ((stale.filter (first.contains ·.id)) ++ stale.filter (!first.contains ·.id)).take 50

/-- A statement is made at a time or fails, and servers answer as they like. -/
def postingWorld (lib : Library) (allowLocalTargets : Bool) : World Publicity Db where
  Choice
    | .sql _ => Except NoombatError DateTime
    | .staleLinks _ => Except NoombatError (DateTime × List Uuid)
    | .newUuid => Unit
    | .now => DateTime
    | .get _ => List Answer
  exec
    | .sql _, .error e, db => (.error e, db)
    | .sql s, .ok now, db => s.exec now db
    | .staleLinks _, .error e, db => (.error e, db)
    | .staleLinks maxAgeDays, .ok (now, first), db =>
        (.ok (db.staleLinks now maxAgeDays first), db)
    | .newUuid, _, db => (.ok db.nextId, { db with nextId := db.nextId + 1 })
    | .now, now, db => (.ok now, db)
    | .get url, answers, db =>
        (.ok (Federation.Client.get lib.toUrlLibrary allowLocalTargets url answers), db)

def sql (s : Sql) : Op s.Result :=
  Fallible.ask (PostingRequest.sql s)

/-- The value of an optional result, or an error. -/
def okOr {α : Type} (e : NoombatError) : Option α → Op α
  | some a => pure a
  | none => throw e

end Postings
