import Noombat.Program.Embedding
import Noombat.Federation.Inbox
import Noombat.Identity.Connections

/-!
# The database of the routes

What the routes read and write: the tables of federation, the connections, and what only the
routes use.  A route makes the requests of a federation handler and the statements on
connections among its own, and runs their programs as they are.
-/

/-- Where an actor takes deliveries: at the inbox its instance shares, or at its own. -/
def Federation.Actor.deliveryInbox (a : Federation.Actor) : String :=
  (a.sharedInboxUrl.or a.inboxUrl).getD s!"{a.apId}/inbox"

namespace Api

open Federation (Uuid DateTime NoombatError Actor Follow Fed FedRequest Handler fedWorld)
open Connections (Connection ConnectionSql Connecting connectionWorld)

/-! ### Tables -/

/-- A row of `organization_members`. -/
structure Membership where
  organizationId : Uuid
  memberId : Uuid
  accepted : Bool

/-- A row of `media_attachments`. -/
structure MediaAttachment where
  id : Uuid
  actorId : Uuid
  postId : Option Uuid
  url : String
  mediaType : String
  altText : Option String
  blurhash : Option String
  purpose : String
  ordinal : Nat

/-- The database. -/
structure Db extends Federation.Db where
  connections : Table Connection.Apart
  organizationMembers : List Membership
  /-- The column `default_post_visibility` of the actors. -/
  defaultPostVisibility : List (Uuid × String)
  mediaAttachments : List MediaAttachment

namespace Db

variable (db : Db)

/-- The part that the statements on connections use. -/
def graph : Connections.Db where
  actors := db.actors.rows.map Actor.id
  follows := db.follows
  connections := db.connections

/-- The database after its federation tables have changed: rows that refer to actors and posts
which are gone go too. -/
def withFederation (federation : Federation.Db) : Db where
  toDb := federation
  connections := db.connections.delete fun r =>
    !(federation.hasActor r.requesterId && federation.hasActor r.addresseeId)
  organizationMembers := db.organizationMembers.filter fun m =>
    federation.hasActor m.organizationId && federation.hasActor m.memberId
  defaultPostVisibility := db.defaultPostVisibility.filter fun d => federation.hasActor d.1
  mediaAttachments := db.mediaAttachments.filter fun m =>
    federation.hasActor m.actorId && m.postId.all federation.hasPost

@[simp]
theorem withFederation_toDb (federation : Federation.Db) :
  (db.withFederation federation).toDb = federation
  := rfl

/-- A database with the given federation tables, and nothing else. -/
def ofFederation (federation : Federation.Db) : Db where
  toDb := federation
  connections := .empty
  organizationMembers := []
  defaultPostVisibility := []
  mediaAttachments := []

end Db

/-! ### Statements -/

/-- The statements that only the routes make.  A follow is named by its two actors, which
identify it among the follows, where the route names it by the identifier of its row. -/
inductive ApiSql where
  | acceptedMember (organizationId memberId : Uuid)
  | followApId (followerId followingId : Uuid)
  | followTo (followerId followingId : Uuid)
  | pendingFollowTo (followerId followingId : Uuid)
  | isBlocked (actorId targetId : Uuid)
  | followerInboxes (actorId : Uuid)
  | parentAuthor (apId : String)
  | defaultPostVisibility (actorId : Uuid)
  | unclaimedAttachments (actorId : Uuid) (ids : List Uuid)
  | claimAttachments (actorId postId : Uuid) (ids : List Uuid)
  | acceptedRelays
  | postPage (postId : Uuid) (username : String)

@[reducible]
def ApiSql.Result : ApiSql → Type
  | acceptedMember _ _ => Bool
  | followApId _ _ => Option (Option String)
  | followTo _ _ => Option (Bool × Option String)
  | pendingFollowTo _ _ => Option (Option String)
  | isBlocked _ _ => Bool
  | followerInboxes _ => List String
  | parentAuthor _ => Option (String × Option String)
  | defaultPostVisibility _ => Option String
  | unclaimedAttachments _ _ => List MediaAttachment
  | claimAttachments _ _ _ => Nat
  | acceptedRelays => List String
  | postPage _ _ => Option (Federation.Post × String)

namespace Db

variable (db : Db)

/-- The row by which one actor follows another. -/
def followBetween (followerId followingId : Uuid) : Option Follow :=
  db.follows.find? fun f => f.followerId == followerId && f.followingId == followingId

/-- The inboxes of the actors whose follow of the given one is accepted, each once. -/
def followerInboxes (actorId : Uuid) : List String :=
  (db.follows.filterMap fun f =>
    if f.followingId == actorId && f.accepted then
      (db.actors.find (·.id == f.followerId)).map Actor.deliveryInbox
    else none).dedup

/-- The author of the post with the given identifier. -/
def authorOf (apId : String) : Option Actor := do
  let p ← db.posts.find (·.apId == apId)
  db.actors.find (·.id == p.actorId)

/-- The post with an identifier, and the username of its author, which is the given one. -/
def postPage (postId : Uuid) (username : String) : Option (Federation.Post × String) := do
  let p ← db.posts.find (·.id == postId)
  let a ← db.actors.find fun a => a.id == p.actorId && a.username == username
  some (p, a.username)

/-- The upload is the author's own, of those named, and no post has it yet. -/
def isUnclaimed (actorId : Uuid) (ids : List Uuid) (m : MediaAttachment) : Bool :=
  ids.contains m.id && m.actorId == actorId && m.purpose == "post" && m.postId.isNone

/-- The uploads become those of a post, in the order in which they are named. -/
def claimAttachments (actorId postId : Uuid) (ids : List Uuid) : Db :=
  { db with
    mediaAttachments := db.mediaAttachments.map fun m =>
      if isUnclaimed actorId ids m then
        { m with postId := some postId, ordinal := ids.idxOf m.id }
      else m }

end Db

def ApiSql.exec : (s : ApiSql) → Db → Except NoombatError s.Result × Db
  | acceptedMember organizationId memberId, db =>
      (.ok (db.organizationMembers.any fun m =>
        m.organizationId == organizationId && m.memberId == memberId && m.accepted), db)
  | followApId followerId followingId, db =>
      (.ok ((db.followBetween followerId followingId).map (·.apId)), db)
  | followTo followerId followingId, db =>
      (.ok ((db.followBetween followerId followingId).map fun f => (f.accepted, f.apId)), db)
  | pendingFollowTo followerId followingId, db =>
      (.ok (((db.followBetween followerId followingId).filter (!·.accepted)).map (·.apId)), db)
  | isBlocked actorId targetId, db => (.ok (decide (⟨actorId, targetId⟩ ∈ db.blocks)), db)
  | followerInboxes actorId, db => (.ok (db.followerInboxes actorId), db)
  | parentAuthor apId, db => (.ok ((db.authorOf apId).map fun a => (a.apId, a.inboxUrl)), db)
  | defaultPostVisibility actorId, db =>
      (.ok ((db.defaultPostVisibility.find? (·.1 == actorId)).map Prod.snd), db)
  | unclaimedAttachments actorId ids, db =>
      (.ok (db.mediaAttachments.filter (Db.isUnclaimed actorId ids)), db)
  | claimAttachments actorId postId ids, db =>
      (.ok (db.mediaAttachments.countP (Db.isUnclaimed actorId ids)),
        db.claimAttachments actorId postId ids)
  | acceptedRelays, db =>
      (.ok ((db.relaySubscriptions.rows.filter (·.status == .accepted)).map (·.inboxUrl)), db)
  | postPage postId username, db => (.ok (db.postPage postId username), db)

/-! ### The world of the routes -/

/-- The requests of a route. -/
inductive ApiRequest where
  | fed (q : FedRequest)
  | connection (s : ConnectionSql)
  | sql (s : ApiSql)
  /-- A fresh UUID, as a text. -/
  | newUuid

@[reducible]
def ApiRequest.Result : ApiRequest → Type
  | fed q => q.Result
  | connection s => s.Result
  | sql s => s.Result
  | newUuid => String

abbrev Routes : Interface :=
  Interface.fallible NoombatError ApiRequest ApiRequest.Result

abbrev Route (α : Type) : Type :=
  Fallible Routes NoombatError α

/-- A statement of a route may fail, and then changes nothing. -/
def apiWorld : World Routes Db where
  Choice
    | .fed q => fedWorld.Choice q
    | .connection s => connectionWorld.Choice s
    | .sql _ => Option NoombatError
    | .newUuid => String
  exec
    | .fed q, c, db =>
        ((fedWorld.exec q c db.toDb).1, db.withFederation (fedWorld.exec q c db.toDb).2)
    | .connection s, c, db =>
        ((connectionWorld.exec s c db.graph).1,
          { db with connections := (connectionWorld.exec s c db.graph).2.connections })
    | .sql s, c, db =>
        match c with
        | some e => (.error e, db)
        | none => s.exec db
    | .newUuid, uuid, db => (.ok uuid, db)

/-- The requests of a handler are requests of a route. -/
def asHandler : Interface.Embedding Fed Routes where
  request := .fed
  answer _ r := r

/-- The statements on connections are requests of a route. -/
def asConnecting : Interface.Embedding Connecting Routes where
  request := .connection
  answer _ r := r

/-- A handler, run by a route. -/
def fed {α : Type} (p : Handler α) : Route α :=
  Fallible.embed asHandler p

/-- An operation on connections, run by a route. -/
def connecting {α : Type} (p : Connections.Op α) : Route α :=
  Fallible.embed asConnecting p

def sql (s : ApiSql) : Route s.Result :=
  Fallible.ask (ApiRequest.sql s)

def newUuid : Route String :=
  Fallible.ask ApiRequest.newUuid

/-- The value of an optional result, or an error. -/
def okOr {α : Type} (e : NoombatError) : Option α → Route α
  | some a => pure a
  | none => throw e

/-- The result of a check, as a step of a route. -/
def ofExcept {α : Type} : Except NoombatError α → Route α
  | .ok a => pure a
  | .error e => throw e

/-- The result of a step whose failure is only logged. -/
def ignoringErrors {α : Type} (p : Route α) : Route Unit := do
  let _ ← Fallible.attempt p
  return ()

/-- What a handler does, a route that runs it does to the federation tables. -/
def federationPart : fedWorld.Part asHandler apiWorld where
  part db := db.toDb
  choice _ c := c
  answer_exec _ _ _ := rfl
  part_exec _ _ _ := rfl

/-- What an operation on connections does, a route that runs it does to the graph. -/
def connectionPart : connectionWorld.Part asConnecting apiWorld where
  part db := db.graph
  choice _ c := c
  answer_exec _ _ _ := rfl
  part_exec s c db := (Connections.exec_graph s c db.graph).symm

/-- The environment in which no statement fails and each URL is answered as given. -/
def steady (serve : String → Except NoombatError Federation.Response) : Program.Script apiWorld
  | n, .fed q => Federation.steady serve n q
  | n, .connection _ => .ok ⟨0, n⟩
  | _, .sql _ => none
  | n, .newUuid => toString n

/-- No statement fails, and nothing is served. -/
def undisturbed : Program.Script apiWorld :=
  steady fun _ => .error .forbidden

/-! ### Rules -/

section Rules

open Fallible Program

variable {db : Db}

/-- What a handler establishes of the federation tables, a route that runs it does. -/
theorem wp_fed {α : Type} {C : Condition apiWorld} {p : Handler α}
    {Post : Except NoombatError α → Federation.Db → Prop}
    (h : wp fedWorld (Always fedWorld) Post p.run db.toDb) :
  wp apiWorld C (fun a db' => Post a db'.toDb) (fed p).run db
  := wp_embed federationPart (fun _ _ _ _ => trivial) h

theorem wp_request {C : Condition apiWorld} (q : ApiRequest)
    (Post : Except NoombatError q.Result → Db → Prop) :
  wp apiWorld C Post (ask q : Route q.Result).run db ↔
    ∀ c, C q c db → Post (apiWorld.exec q c db).1 (apiWorld.exec q c db).2
  := wp_run_ask q Post db

/-- A statement of a route fails and changes nothing, or it takes effect. -/
theorem wp_sql (s : ApiSql) {C : Condition apiWorld}
    {Post : Except NoombatError s.Result → Db → Prop} (herr : ∀ e, Post (.error e) db)
    (hok : Post (s.exec db).1 (s.exec db).2) :
  wp apiWorld C Post (sql s).run db
  := by
  apply (wp_request (ApiRequest.sql s) Post).mpr
  rintro (_ | e) _
  · exact hok
  · exact herr e

@[simp]
theorem wp_okOr {C : Condition apiWorld} {α : Type} (Post : Except NoombatError α → Db → Prop)
    (e : NoombatError) (o : Option α) :
  wp apiWorld C Post (okOr e o).run db ↔ Post (o.elim (.error e) .ok) db
  := by
  cases o
  · rw [okOr, wp_run_throw]
    rfl
  · rw [okOr, wp_run_pure]
    rfl

variable {P : ApiRequest → Prop}

theorem every_fed {α : Type} {p : Handler α}
    (h : Every (fun q : FedRequest => P (.fed q)) p.run) :
  Every P (fed p).run
  := every_embed asHandler h

theorem every_okOr {α : Type} (e : NoombatError) (o : Option α) :
  Every P (okOr e o).run
  := by
  cases o with
  | none => apply every_run_throw
  | some a => apply every_run_pure

end Rules

end Api
