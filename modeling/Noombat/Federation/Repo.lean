import Noombat.Federation.Handler

/-!
# The repository

The functions through which handlers use the database, each a statement or a few.
-/

namespace Federation.Repo

/-! ### Actors -/

def findByApId (apId : String) : Handler (Option Actor) :=
  sql (.findByApId apId)

def findByPublicKeyId (publicKeyId : String) : Handler (Option Actor) :=
  sql (.findByPublicKeyId publicKeyId)

def findLocalByUsername (username : String) : Handler Actor := do
  let row ← (sql (.findLocalByUsername username) : Handler (Option Actor))
  okOr (.actorNotFound username) row

def findById (id : Uuid) : Handler Actor := do
  let row ← (sql (.findById id) : Handler (Option Actor))
  okOr (.notFound "actor" id) row

def ed25519PublicKeyOf (apId : String) : Handler (Option (Option String)) :=
  sql (.ed25519PublicKeyOf apId)

def actorIdByApId (apId : String) : Handler (Option Uuid) :=
  sql (.actorIdByApId apId)

def signingActor (application : Bool) : Handler (Option Uuid) :=
  sql (.signingActor application)

def setMovedTo (target : String) (id : Uuid) : Handler Unit :=
  sql (.setMovedTo target id)

def deleteRemoteActor (id : Uuid) : Handler Unit :=
  sql (.deleteRemoteActor id)

def isTombstoned (apId : String) : Handler Bool :=
  sql (.isTombstoned apId)

def insertTombstone (apId : String) : Handler Unit :=
  sql (.insertTombstone apId)

/-- Insert or refresh a remote actor.  The statement passes over a local row, so that the
actor read back has to be checked. -/
def upsertRemoteActor (remote : RemoteActor) : Handler Actor := do
  let _ ← (sql (.upsertRemoteActor remote) : Handler Unit)
  let row ← findByApId remote.apId
  let actor ← okOr (.internal "upsert_remote_actor: row not found after insert") row
  if actor.isLocal then throw .forbidden else return actor

/-! ### Follows and blocks -/

def createFollowWithApId (followerId followingId : Uuid) (autoAccept : Bool)
    (followApId : Option String) : Handler Unit :=
  sql (.insertFollow ⟨followerId, followingId, autoAccept, followApId⟩)

def acceptFollow (followerId followingId : Uuid) : Handler Unit :=
  sql (.acceptFollow followerId followingId)

def deleteFollow (followerId followingId : Uuid) : Handler Unit :=
  sql (.deleteFollow followerId followingId)

def deleteFollowByApId (followerId followingId : Uuid) (apId : String) : Handler Unit :=
  sql (.deleteFollowByApId followerId followingId apId)

def localFollowers (followingId : Uuid) : Handler (List Uuid) :=
  sql (.localFollowers followingId)

def insertBlock (block : Block) : Handler Unit :=
  sql (.insertBlock block)

def deleteBlock (block : Block) : Handler Unit :=
  sql (.deleteBlock block)

/-! ### Posts -/

def postIdByApId (apId : String) : Handler (Option Uuid) :=
  sql (.postIdByApId apId)

def actorIdOfPost (id : Uuid) : Handler (Option Uuid) :=
  sql (.actorIdOfPost id)

def postIdsOf (actorId : Uuid) : Handler (List Uuid) :=
  sql (.postIdsOf actorId)

def countAuthored (apId author : String) : Handler Nat :=
  sql (.countAuthored apId author)

/-- The identifier of the new post, or nothing if one is there under its `ap_id`. -/
def createRemotePost (post : RemotePost) : Handler (Option Uuid) :=
  sql (.insertRemotePost post)

def createLocalPost (post : NewPost) : Handler Uuid :=
  sql (.insertLocalPost post)

def updateRemotePost (apId : String) (content : PostContent) (author : String) : Handler Nat :=
  sql (.updateRemotePost apId content author)

def deletePost (apId : String) : Handler Unit :=
  sql (.deletePost apId)

def deletePostById (id : Uuid) : Handler Unit :=
  sql (.deletePostById id)

/-- Record a verified integrity proof on the post that is stored under `apId`. -/
def recordVerifiedProof (apId : String) (object : Json) (author : String) : Handler Nat :=
  sql (.recordVerifiedProof apId object author)

def markRelayedUnverified (apId : String) : Handler Unit :=
  sql (.markRelayedUnverified apId)

def findByCanonicalUri (uri : String) : Handler (Option Uuid) :=
  sql (.findByCanonicalUri uri)

def findByUrlHeuristic (url : String) : Handler (Option Uuid) :=
  sql (.findByUrl url)

def setCanonicalUri (id : Uuid) (uri : String) : Handler Unit :=
  sql (.setCanonicalUri id uri)

def resanitisePost (id : Uuid) (contentHtml : String) (contentMd : Option (Option String))
    (version : Nat) : Handler Unit :=
  sql (.resanitisePost id contentHtml contentMd version)

/-! ### Reactions and hashtags -/

def insertReaction (kind : ReactionKind) (reaction : Reaction) : Handler Unit :=
  sql (.insertReaction kind reaction)

def deleteReaction (kind : ReactionKind) (apId : String) (actorId : Uuid) : Handler Unit :=
  sql (.deleteReaction kind apId actorId)

def upsertHashtags (names : List String) : Handler (List Uuid) :=
  sql (.upsertHashtags names)

def insertPostHashtags (postId : Uuid) (ids : List Uuid) : Handler Unit :=
  sql (.linkHashtags postId ids)

def unlinkHashtags (postId : Uuid) : Handler Unit :=
  sql (.unlinkHashtags postId)

/-! ### Queues -/

/-- Queue an activity for delivery. -/
def enqueueDelivery (actorId : Uuid) (payload : Json) (targetInbox : String) : Handler Unit :=
  sql (.enqueueDelivery ⟨actorId, payload, targetInbox⟩)

/-- Record that a document must leave the search index. -/
def enqueueRemoval (indexName documentId : String) : Handler Unit :=
  sql (.enqueueRemoval indexName documentId)

/-- Record that a document should enter the search index. -/
def enqueueUpsert (indexName documentId : String) (document : Json) : Handler Unit :=
  sql (.enqueueUpsert indexName documentId document)

def enqueueMediaFetch (operation : MediaFetchOperation) : Handler Unit :=
  sql (.enqueueMediaFetch operation)

def remoteIndexingSetting : Handler (Option Bool) :=
  sql .remoteIndexingSetting

def indexFacts (postId : Uuid) : Handler (Option IndexFacts) :=
  sql (.indexFacts postId)

/-! ### Relays and moderation -/

def relayExists (derivedInbox actorUri : String) : Handler Bool :=
  sql (.relayExists derivedInbox actorUri)

def relayPolicy (derivedInbox actorUri : String) : Handler (Option (Option String)) :=
  sql (.relayPolicy derivedInbox actorUri)

def pendingRelay (derivedInbox actorUri : String) : Handler (Option String) :=
  sql (.pendingRelay derivedInbox actorUri)

/-- Mark a relay subscription as accepted. -/
def markAccepted (inboxUrl : String) : Handler Unit :=
  sql (.markAccepted inboxUrl)

def insertReport (report : Report) : Handler Unit :=
  sql (.insertReport report)

def restrictionOf (domain : String) : Handler (Option Restriction) :=
  sql (.restrictionOf domain)

end Federation.Repo
