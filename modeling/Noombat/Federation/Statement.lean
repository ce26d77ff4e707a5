import Noombat.Federation.Database

/-!
# The statements

The SQL statements of the federation code, one constructor each, with what the database
answers and how it changes.  A statement that fails changes nothing.  Where a statement
asks for one row and several match, the row is chosen by the environment.
-/

namespace Federation

/-- The parameters of a remote actor that is stored. -/
structure RemoteActor where
  apId : String
  username : String
  domain : String
  displayName : Option String
  summaryHtml : Option String
  sanitiserVersion : Nat
  publicKeyPem : String
  publicKeyId : Option String
  actorType : ActorType
  inboxUrl : String
  sharedInboxUrl : Option String
  ed25519PublicKey : Option String
  discoverable : Bool
  indexable : Bool

/-- The parameters of a remote post that is stored. -/
structure RemotePost extends PostContent where
  actorId : Uuid
  apId : String
  postType : PostType
  sensitive : Bool

/-- The parameters of a local post that is stored. -/
structure NewPost where
  actorId : Uuid
  apId : String
  postType : PostType
  title : Option String
  featuredImageUrl : Option String
  featuredImageAlt : Option String
  sensitive : Bool
  contentMd : String
  contentHtml : String
  inReplyTo : Option String
  visibility : Visibility
  apObject : Json

/-- What indexing a post depends on. -/
structure IndexFacts where
  apId : String
  contentHtml : String
  postType : PostType
  title : Option String
  isPublic : Bool
  relayedUnverified : Bool
  indexable : Bool

/-- Boosts and likes are kept alike, in a table each. -/
inductive ReactionKind where
  | boost
  | like
  deriving DecidableEq

inductive Sql where
  -- actors
  | findByApId (apId : String)
  | findByPublicKeyId (publicKeyId : String)
  | findLocalByUsername (username : String)
  | findById (id : Uuid)
  | ed25519PublicKeyOf (apId : String)
  | actorIdByApId (apId : String)
  | signingActor (application : Bool)
  | upsertRemoteActor (remote : RemoteActor)
  | setMovedTo (target : String) (id : Uuid)
  | deleteRemoteActor (id : Uuid)
  | isTombstoned (apId : String)
  | insertTombstone (apId : String)
  -- follows and blocks
  | insertFollow (follow : Follow)
  | acceptFollow (followerId followingId : Uuid)
  | deleteFollow (followerId followingId : Uuid)
  | deleteFollowByApId (followerId followingId : Uuid) (apId : String)
  | localFollowers (followingId : Uuid)
  | insertBlock (block : Block)
  | deleteBlock (block : Block)
  -- posts
  | postIdByApId (apId : String)
  | actorIdOfPost (id : Uuid)
  | postIdsOf (actorId : Uuid)
  | countAuthored (apId author : String)
  | insertRemotePost (post : RemotePost)
  | insertLocalPost (post : NewPost)
  | updateRemotePost (apId : String) (content : PostContent) (author : String)
  | deletePost (apId : String)
  | deletePostById (id : Uuid)
  /-- `object` and `author` are not sent: they name the document that was verified and the
  actor it is attributed to. -/
  | recordVerifiedProof (apId : String) (object : Json) (author : String)
  | markRelayedUnverified (apId : String)
  | findByCanonicalUri (uri : String)
  | findByUrl (url : String)
  | setCanonicalUri (id : Uuid) (uri : String)
  | resanitisePost (id : Uuid) (contentHtml : String) (contentMd : Option (Option String))
      (version : Nat)
  -- reactions and hashtags
  | insertReaction (kind : ReactionKind) (reaction : Reaction)
  | deleteReaction (kind : ReactionKind) (apId : String) (actorId : Uuid)
  | upsertHashtags (names : List String)
  | linkHashtags (postId : Uuid) (ids : List Uuid)
  | unlinkHashtags (postId : Uuid)
  -- work queues
  | enqueueDelivery (delivery : Delivery)
  | enqueueRemoval (indexName documentId : String)
  | enqueueUpsert (indexName documentId : String) (document : Json)
  | enqueueMediaFetch (operation : MediaFetchOperation)
  | remoteIndexingSetting
  | indexFacts (postId : Uuid)
  -- relays and moderation
  | relayExists (derivedInbox actorUri : String)
  | relayPolicy (derivedInbox actorUri : String)
  | pendingRelay (derivedInbox actorUri : String)
  | markAccepted (inboxUrl : String)
  | insertReport (report : Report)
  | restrictionOf (domain : String)

/-- What a statement is answered with when it succeeds; a statement that changes rows and
reports how many is answered with their number. -/
@[reducible]
def Sql.Result : Sql → Type
  | findByApId _ | findByPublicKeyId _ | findLocalByUsername _ | findById _ => Option Actor
  | ed25519PublicKeyOf _ => Option (Option String)
  | actorIdByApId _ | signingActor _ => Option Uuid
  | isTombstoned _ => Bool
  | localFollowers _ | postIdsOf _ => List Uuid
  | postIdByApId _ | actorIdOfPost _ | findByCanonicalUri _ | findByUrl _ => Option Uuid
  | countAuthored _ _ => Nat
  | insertRemotePost _ => Option Uuid
  | insertLocalPost _ => Uuid
  | updateRemotePost _ _ _ | recordVerifiedProof _ _ _ => Nat
  | upsertHashtags _ => List Uuid
  | remoteIndexingSetting => Option Bool
  | indexFacts _ => Option IndexFacts
  | relayExists _ _ => Bool
  | relayPolicy _ _ => Option (Option String)
  | pendingRelay _ _ => Option String
  | restrictionOf _ => Option Restriction
  | _ => Unit

/-! ### Changes of rows -/

def uniqueViolation : NoombatError :=
  .database "duplicate key value violates unique constraint"

def foreignKeyViolation : NoombatError :=
  .database "insert or update violates foreign key constraint"

/-- The privacy settings of a remote actor: the two it decides, and defaults. -/
def RemoteActor.privacy (remote : RemoteActor) : ActorPrivacy where
  discoverable := remote.discoverable
  indexable := remote.indexable
  requireFollowApproval := false

/-- The row of a remote actor that was not known; its identifier is set on insertion. -/
def RemoteActor.toActor (remote : RemoteActor) : Actor where
  id := 0
  actorType := remote.actorType
  apId := remote.apId
  username := remote.username
  displayName := remote.displayName
  summaryHtml := remote.summaryHtml
  sanitiserVersion := remote.sanitiserVersion
  publicKeyPem := remote.publicKeyPem
  publicKeyId := remote.publicKeyId
  privateKeyPem := none
  ed25519PublicKey := remote.ed25519PublicKey
  ed25519PrivateKey := none
  domain := remote.domain
  isLocal := false
  inboxUrl := some remote.inboxUrl
  sharedInboxUrl := remote.sharedInboxUrl
  movedTo := none
  actorPrivacy := remote.privacy

/-- The columns that a remote instance owns are refreshed. -/
def ActorChange.refresh (remote : RemoteActor) : ActorChange where
  apply a :=
    { a with
      publicKeyPem := remote.publicKeyPem
      publicKeyId := remote.publicKeyId
      displayName := remote.displayName
      summaryHtml := remote.summaryHtml
      sanitiserVersion := remote.sanitiserVersion
      inboxUrl := some remote.inboxUrl
      sharedInboxUrl := remote.sharedInboxUrl
      ed25519PublicKey := remote.ed25519PublicKey
      actorPrivacy := remote.privacy }
  id_apply _ := rfl
  apId_apply _ := rfl

def ActorChange.moveTo (target : String) : ActorChange where
  apply a := { a with movedTo := some target }
  id_apply _ := rfl
  apId_apply _ := rfl

/-- The row of a remote post; its identifier is set on insertion. -/
def RemotePost.toPost (post : RemotePost) : Post where
  toPostContent := post.toPostContent
  id := 0
  actorId := post.actorId
  apId := post.apId
  postType := post.postType
  sensitive := post.sensitive
  canonicalUri := none
  relayedUnverified := false

/-- The row of a local post; its identifier is set on insertion. -/
def NewPost.toPost (post : NewPost) : Post where
  title := post.title
  featuredImageUrl := post.featuredImageUrl
  featuredImageAlt := post.featuredImageAlt
  contentMd := some post.contentMd
  contentHtml := post.contentHtml
  sanitiserVersion := 0
  inReplyTo := post.inReplyTo
  visibility := post.visibility
  apObject := post.apObject
  integrityProofVerified := none
  id := 0
  actorId := post.actorId
  apId := post.apId
  postType := post.postType
  sensitive := post.sensitive
  canonicalUri := none
  relayedUnverified := false

namespace PostChange

/-- The content of an edited post is replaced. -/
def edit (content : PostContent) : PostChange where
  apply p := { p with toPostContent := content }
  id_apply _ := rfl
  apId_apply _ := rfl
  actorId_apply _ := rfl

def verified : PostChange where
  apply p := { p with integrityProofVerified := some true }
  id_apply _ := rfl
  apId_apply _ := rfl
  actorId_apply _ := rfl

def unverified : PostChange where
  apply p := { p with relayedUnverified := true }
  id_apply _ := rfl
  apId_apply _ := rfl
  actorId_apply _ := rfl

def canonical (uri : String) : PostChange where
  apply p := { p with canonicalUri := some uri }
  id_apply _ := rfl
  apId_apply _ := rfl
  actorId_apply _ := rfl

/-- The rendered content is replaced, and the Markdown source where one is given. -/
def resanitise (contentHtml : String) (contentMd : Option (Option String)) (version : Nat) :
    PostChange where
  apply p :=
    { p with
      contentHtml
      contentMd := contentMd.getD p.contentMd
      sanitiserVersion := version }
  id_apply _ := rfl
  apId_apply _ := rfl
  actorId_apply _ := rfl

end PostChange

/-! ### Statements that change the core -/

namespace Db

variable (db : Db)

/-- The number of posts that satisfy a condition. -/
def countPosts (q : Post → Bool) : Nat :=
  db.posts.rows.countP q

/-- A new actor is inserted; one known under its identifier is refreshed, unless it is
local. -/
def upsertRemoteActor (remote : RemoteActor) : Except NoombatError Unit × Db :=
  let core := match db.actors.find (·.apId == remote.apId) with
    | none => db.insertActor remote.toActor
    | some _ => db.updateActors (fun a => a.apId == remote.apId && !a.isLocal) (.refresh remote)
  match core with
  | some core => (.ok (), { db with toCore := core })
  | none => (.error uniqueViolation, db)

def setMovedTo (target : String) (id : Uuid) : Except NoombatError Unit × Db :=
  match db.updateActors (·.id == id) (.moveTo target) with
  | some core => (.ok (), { db with toCore := core })
  | none => (.error uniqueViolation, db)

def deleteRemoteActor (id : Uuid) : Db :=
  db.cascade (db.deleteActors fun a => a.id == id && !a.isLocal)

/-- The post is inserted, unless one is there under its identifier. -/
def insertRemotePost (post : RemotePost) : Except NoombatError (Option Uuid) × Db :=
  if db.posts.rows.any (·.apId == post.apId) then (.ok none, db)
  else
    match db.insertPost post.toPost with
    | some core => (.ok (some db.nextId), { db with toCore := core })
    | none => (.error foreignKeyViolation, db)

def insertLocalPost (post : NewPost) : Except NoombatError Uuid × Db :=
  match db.insertPost post.toPost with
  | some core => (.ok db.nextId, { db with toCore := core })
  | none => (.error uniqueViolation, db)

/-- Whether a post has the given identifier and its author the given one. -/
def isAuthored (apId author : String) (p : Post) : Bool :=
  p.apId == apId && db.authorIs author p

def changePosts (q : Post → Bool) (f : PostChange) : Db :=
  { db with toCore := db.updatePosts q f }

def removePosts (q : Post → Bool) : Db :=
  db.cascade (db.deletePosts q)

/-! ### Statements on the other tables -/

def insertTombstone (apId : String) : Db :=
  if db.tombstonedActors.contains apId then db
  else { db with tombstonedActors := apId :: db.tombstonedActors }

def insertFollow (follow : Follow) : Except NoombatError Unit × Db :=
  if db.follows.any fun f =>
      f.followerId == follow.followerId && f.followingId == follow.followingId then (.ok (), db)
  else if db.hasActor follow.followerId && db.hasActor follow.followingId then
    (.ok (), { db with follows := follow :: db.follows })
  else (.error foreignKeyViolation, db)

def acceptFollow (followerId followingId : Uuid) : Db :=
  { db with
    follows := db.follows.map fun f =>
      if f.followerId == followerId && f.followingId == followingId then
        { f with accepted := true }
      else f }

def deleteFollows (q : Follow → Bool) : Db :=
  { db with follows := db.follows.filter (!q ·) }

/-- The local actors whose follow of the given actor is accepted. -/
def localFollowers (followingId : Uuid) : List Uuid :=
  (db.follows.filter fun f =>
    f.followingId == followingId && f.accepted &&
      db.actors.rows.any fun a => a.id == f.followerId && a.isLocal).map Follow.followerId

def insertBlock (block : Block) : Except NoombatError Unit × Db :=
  if block ∈ db.blocks then (.ok (), db)
  else if db.hasActor block.actorId && db.hasActor block.targetId then
    (.ok (), { db with blocks := block :: db.blocks })
  else (.error foreignKeyViolation, db)

def reactions : ReactionKind → List Reaction
  | .boost => db.boosts
  | .like => db.likes

def withReactions (rows : List Reaction) : ReactionKind → Db
  | .boost => { db with boosts := rows }
  | .like => { db with likes := rows }

def insertReaction (kind : ReactionKind) (r : Reaction) : Except NoombatError Unit × Db :=
  if (db.reactions kind).any fun r' => r'.actorId == r.actorId && r'.postId == r.postId then
    (.ok (), db)
  else if (db.reactions kind).any (·.apId == r.apId) then (.error uniqueViolation, db)
  else if db.hasActor r.actorId && db.hasPost r.postId then
    (.ok (), db.withReactions (r :: db.reactions kind) kind)
  else (.error foreignKeyViolation, db)

def deleteReaction (kind : ReactionKind) (apId : String) (actorId : Uuid) : Db :=
  db.withReactions
    ((db.reactions kind).filter fun r => !(r.apId == apId && r.actorId == actorId)) kind

/-- The hashtags with the given names are created where they are not there, and their
identifiers returned.  A name may not be given twice in one statement.  Hashtags are never
deleted, so that their number is a new identifier. -/
def upsertHashtags (names : List String) : Except NoombatError (List Uuid) × Db :=
  if names.Nodup then
    let tags := names.foldl
      (fun tags name =>
        if tags.any (·.name == name) then tags else tags ++ [⟨tags.length, name⟩])
      db.hashtags
    (.ok (names.filterMap fun name => (tags.find? (·.name == name)).map Hashtag.id),
      { db with hashtags := tags })
  else (.error (.database "ON CONFLICT DO UPDATE command cannot affect row a second time"), db)

def linkHashtags (postId : Uuid) (ids : List Uuid) : Except NoombatError Unit × Db :=
  if ids.isEmpty || db.hasPost postId then
    (.ok (), { db with postHashtags := (ids.map (⟨postId, ·⟩)).union db.postHashtags })
  else (.error foreignKeyViolation, db)

def unlinkHashtags (postId : Uuid) : Db :=
  { db with postHashtags := db.postHashtags.filter (·.postId != postId) }

def enqueueDelivery (delivery : Delivery) : Except NoombatError Unit × Db :=
  if db.hasActor delivery.actorId then
    (.ok (), { db with deliveryQueue := db.deliveryQueue ++ [delivery] })
  else (.error foreignKeyViolation, db)

def isSearchOperation (indexName documentId : String) (o : SearchIndexOperation) : Bool :=
  o.indexName == indexName && o.documentId == documentId

/-- A removal takes the place of what was queued for the document. -/
def enqueueRemoval (indexName documentId : String) : Db :=
  { db with
    searchIndexOperations :=
      ⟨indexName, documentId, .remove, none, .pending, 0, none⟩ ::
        db.searchIndexOperations.filter (!isSearchOperation indexName documentId ·) }

/-- An upsert takes the place of another, and never that of a removal. -/
def enqueueUpsert (indexName documentId : String) (document : Json) : Db :=
  match db.searchIndexOperations.find? (isSearchOperation indexName documentId) with
  | some ⟨_, _, .remove, _, _, _, _⟩ => db
  | _ =>
      { db with
        searchIndexOperations :=
          ⟨indexName, documentId, .upsert, some document, .pending, 0, none⟩ ::
            db.searchIndexOperations.filter (!isSearchOperation indexName documentId ·) }

def enqueueMediaFetch (m : MediaFetchOperation) : Except NoombatError Unit × Db :=
  if db.mediaFetchOperations.any fun m' => m'.postId == m.postId && m'.remoteUrl == m.remoteUrl then
    (.ok (), db)
  else if db.hasActor m.actorId && db.hasPost m.postId then
    (.ok (), { db with mediaFetchOperations := m :: db.mediaFetchOperations })
  else (.error foreignKeyViolation, db)

def indexFacts (postId : Uuid) : Option IndexFacts := do
  let p ← db.posts.find (·.id == postId)
  let a ← db.actors.find fun a => a.id == p.actorId && !a.isLocal
  some
    { apId := p.apId
      contentHtml := p.contentHtml
      postType := p.postType
      title := p.title
      isPublic := p.visibility == .public
      relayedUnverified := p.relayedUnverified
      indexable := a.actorPrivacy.indexable }

/-- The subscriptions with the given status whose inbox is the one derived from the URI of
an actor, or starts with that URI. -/
def relays (status : RelayStatus) (derivedInbox actorUri : String) : List RelaySubscription :=
  db.relaySubscriptions.rows.filter fun r =>
    r.status == status && (r.inboxUrl == derivedInbox || Text.startsWith r.inboxUrl actorUri)

def markAccepted (inboxUrl : String) : Db :=
  { db with
    relaySubscriptions := db.relaySubscriptions.update (·.inboxUrl == inboxUrl)
      (fun r => { r with status := .accepted }) (fun _ _ h => ⟨h, h, h⟩) }

def insertReport (report : Report) : Except NoombatError Unit × Db :=
  if db.hasActor report.reporterId && report.targetActorId.all db.hasActor &&
      report.targetPostId.all db.hasPost then
    (.ok (), { db with reports := report :: db.reports })
  else (.error foreignKeyViolation, db)

end Db

/-! ### The meaning of the statements -/

/-- The one of several rows that the environment picks. -/
def pickFrom {α : Type} (pick : Nat) (rows : List α) : Option α :=
  rows[pick % rows.length]?

/-- What a statement is answered with, and the database after it. -/
def Sql.exec (pick : Nat) : (s : Sql) → (db : Db) → Except NoombatError s.Result × Db
  | findByApId apId, db => (.ok (db.actors.find (·.apId == apId)), db)
  | findByPublicKeyId kid, db => (.ok (db.actors.find (·.publicKeyId == some kid)), db)
  | findLocalByUsername username, db =>
      (.ok (db.actors.find fun a => a.username == username && a.isLocal), db)
  | findById id, db => (.ok (db.actors.find (·.id == id)), db)
  | ed25519PublicKeyOf apId, db =>
      (.ok ((db.actors.find (·.apId == apId)).map Actor.ed25519PublicKey), db)
  | actorIdByApId apId, db => (.ok ((db.actors.find (·.apId == apId)).map Actor.id), db)
  | signingActor application, db =>
      (.ok ((pickFrom pick (db.actors.rows.filter fun a =>
        a.isLocal && a.privateKeyPem.isSome &&
          (!application || a.actorType == .application))).map Actor.id), db)
  | upsertRemoteActor remote, db => db.upsertRemoteActor remote
  | setMovedTo target id, db => db.setMovedTo target id
  | deleteRemoteActor id, db => (.ok (), db.deleteRemoteActor id)
  | isTombstoned apId, db => (.ok (db.tombstonedActors.contains apId), db)
  | insertTombstone apId, db => (.ok (), db.insertTombstone apId)
  | insertFollow follow, db => db.insertFollow follow
  | acceptFollow followerId followingId, db => (.ok (), db.acceptFollow followerId followingId)
  | deleteFollow followerId followingId, db =>
      (.ok (), db.deleteFollows fun f =>
        f.followerId == followerId && f.followingId == followingId)
  | deleteFollowByApId followerId followingId apId, db =>
      (.ok (), db.deleteFollows fun f =>
        f.followerId == followerId && f.followingId == followingId && f.apId == some apId)
  | localFollowers followingId, db => (.ok (db.localFollowers followingId), db)
  | insertBlock block, db => db.insertBlock block
  | deleteBlock block, db => (.ok (), { db with blocks := db.blocks.filter (· != block) })
  | postIdByApId apId, db => (.ok ((db.posts.find (·.apId == apId)).map Post.id), db)
  | actorIdOfPost id, db => (.ok ((db.posts.find (·.id == id)).map Post.actorId), db)
  | postIdsOf actorId, db =>
      (.ok ((db.posts.rows.filter (·.actorId == actorId)).map Post.id), db)
  | countAuthored apId author, db => (.ok (db.countPosts (db.isAuthored apId author)), db)
  | insertRemotePost post, db => db.insertRemotePost post
  | insertLocalPost post, db => db.insertLocalPost post
  | updateRemotePost apId content author, db =>
      (.ok (db.countPosts (db.isAuthored apId author)),
        db.changePosts (db.isAuthored apId author) (.edit content))
  | deletePost apId, db => (.ok (), db.removePosts (·.apId == apId))
  | deletePostById id, db => (.ok (), db.removePosts (·.id == id))
  | recordVerifiedProof apId _ _, db =>
      let q (p : Post) := p.apId == apId && p.integrityProofVerified != some true
      (.ok (db.countPosts q), db.changePosts q .verified)
  | markRelayedUnverified apId, db => (.ok (), db.changePosts (·.apId == apId) .unverified)
  | findByCanonicalUri uri, db =>
      (.ok ((pickFrom pick (db.posts.rows.filter (·.canonicalUri == some uri))).map Post.id), db)
  | findByUrl url, db =>
      (.ok ((pickFrom pick (db.posts.rows.filter fun p =>
        p.canonicalUri == some url || p.apId == url)).map Post.id), db)
  | setCanonicalUri id uri, db => (.ok (), db.changePosts (·.id == id) (.canonical uri))
  | resanitisePost id contentHtml contentMd version, db =>
      (.ok (), db.changePosts (·.id == id) (.resanitise contentHtml contentMd version))
  | insertReaction kind reaction, db => db.insertReaction kind reaction
  | deleteReaction kind apId actorId, db => (.ok (), db.deleteReaction kind apId actorId)
  | upsertHashtags names, db => db.upsertHashtags names
  | linkHashtags postId ids, db => db.linkHashtags postId ids
  | unlinkHashtags postId, db => (.ok (), db.unlinkHashtags postId)
  | enqueueDelivery delivery, db => db.enqueueDelivery delivery
  | enqueueRemoval indexName documentId, db => (.ok (), db.enqueueRemoval indexName documentId)
  | enqueueUpsert indexName documentId document, db =>
      (.ok (), db.enqueueUpsert indexName documentId document)
  | enqueueMediaFetch operation, db => db.enqueueMediaFetch operation
  | remoteIndexingSetting, db => (.ok db.indexRemotePosts, db)
  | indexFacts postId, db => (.ok (db.indexFacts postId), db)
  | relayExists derivedInbox actorUri, db =>
      (.ok (!(db.relays .accepted derivedInbox actorUri).isEmpty), db)
  | relayPolicy derivedInbox actorUri, db =>
      (.ok ((pickFrom pick (db.relays .accepted derivedInbox actorUri)).map
        RelaySubscription.verificationPolicy), db)
  | pendingRelay derivedInbox actorUri, db =>
      (.ok ((pickFrom pick (db.relays .pending derivedInbox actorUri)).map
        RelaySubscription.inboxUrl), db)
  | markAccepted inboxUrl, db => (.ok (), db.markAccepted inboxUrl)
  | insertReport report, db => db.insertReport report
  | restrictionOf domain, db =>
      (.ok ((db.domainRestrictions.find (·.domain == domain)).map
        DomainRestriction.restriction), db)

end Federation
