import Noombat.Federation.RelayVerify

/-!
# The inbox

What each inbound activity does.  `processActivity` is the dispatcher; the handlers attribute
their effects to the actor of the activity, which the dispatcher has bound to the signer.
-/

namespace Federation

open Text

/-- What the process is configured with. -/
structure Config where
  /-- The policy for relays without one of their own. -/
  defaultPolicy : RelayVerificationPolicy
  domain : String

variable (ext : External)

/-! ### Objects -/

/-- The URI of an object that is a string or has an `id`. -/
def objectUri (object : Json) : Option String :=
  object.asStr.or (object.getStr "id")

/-- Verify the proof of an object, and reduce the verdict to the value that is stored. -/
def verifyObjectProof (object : Json) (expectedAuthor : String) : Handler (Option Bool) := do
  let verdict ← verifyInboundProof ext object expectedAuthor
  match verdict with
  | .valid => return some true
  | .absent => return none
  | .invalid => throw .forbidden

/-- The post that an inbound object duplicates, if one is known by its canonical
identifier or by its URL. -/
def tryDedup (object : Json) : Handler (Option Uuid) := do
  let byCanonical ← match object.getStr canonicalUriProperty with
    | some canonical => Repo.findByCanonicalUri canonical
    | none => pure none
  match byCanonical, object.getStr "url" with
  | some id, _ => return some id
  | none, some url => Repo.findByUrlHeuristic url
  | none, none => return none

/-- Link a post to the hashtags with the given names. -/
def linkPostHashtags (postId : Uuid) (names : List String) : Handler Unit :=
  match names with
  | [] => pure ()
  | names => do
      let ids ← Repo.upsertHashtags (names.map ext.toLowercase)
      Repo.insertPostHashtags postId ids

/-- The document under which a post is indexed. -/
def searchDocument (postId actorId : Uuid) (facts : IndexFacts) : Json :=
  .obj [("id", .str (toString postId)), ("ap_id", .str facts.apId),
    ("content", .str facts.contentHtml), ("actor_id", .str (toString actorId)),
    ("visibility", .str "public"), ("post_type", .str facts.postType.asStr),
    ("title", .ofOption facts.title), ("is_local", .bool false)]

/-- Queue a post for indexing, if the operator has turned it on, its author consents and
the post is public and not taken on a relay's word. -/
def enqueueIfIndexable (postId : Uuid) : Handler Unit := do
  let setting ← unwrapOr none Repo.remoteIndexingSetting
  if setting.getD false then
    let row ← Repo.indexFacts postId
    match row with
    | none => return ()
    | some facts =>
        if facts.indexable && facts.isPublic && !facts.relayedUnverified then
          let actorId ← Repo.actorIdOfPost postId
          let actorId ← okOr (.database "no rows returned") actorId
          Repo.enqueueUpsert "posts" (toString postId) (searchDocument postId actorId facts)
        else return ()
  else return ()

/-- Queue the removal of every indexed post of an actor, and of its profile. -/
def enqueueRemovalsForActor (actorId : Uuid) : Handler Unit := do
  let postIds ← Repo.postIdsOf actorId
  forM postIds fun postId => Repo.enqueueRemoval "posts" (toString postId)
  Repo.enqueueRemoval "profiles" (toString actorId)

/-- Record the fetches that the images of a new post need. -/
def enqueueRemoteImages (postId actorId : Uuid) (images : List RemoteImage) : Handler Unit :=
  forM images fun image =>
    ignoringErrors (Repo.enqueueMediaFetch ⟨postId, actorId, image.url, image.altText,
      image.ordinal⟩)

/-- Record the canonical identifier of a new post, and link its hashtags. -/
def annotatePost (postId : Uuid) (object : Json) : Handler Unit := do
  match extractCanonicalUri object with
  | some canonical => ignoringErrors (Repo.setCanonicalUri postId canonical)
  | none => pure ()
  ignoringErrors (linkPostHashtags ext postId (extractHashtagsFromTags ext object))

/-! ### Follow -/

/-- The inbox of an actor, its declared one or the one at its URI. -/
def Actor.inboxOr (actor : Actor) (uri : String) : String :=
  actor.inboxUrl.getD s!"{uri}/inbox"

/-- The answer to a follow that is accepted at once. -/
def acceptActivity (acceptId localApId followId remoteApId : String) : Json :=
  .obj [("@context", defaultContext), ("id", .str acceptId), ("type", .str "Accept"),
    ("actor", .str localApId),
    ("object", .obj [("id", .str followId), ("type", .str "Follow"), ("actor", .str remoteApId),
      ("object", .str localApId)])]

def handleFollow (activity : Activity) : Handler Unit := do
  let targetUri ← okOr (.badRequest "Follow object must be a string URI") activity.object.asStr
  let targetUsername ← okOr (.badRequest "cannot parse target actor URI")
    (extractLocalUsername targetUri)
  -- the two run concurrently; an error of either ends both
  let remoteActor ← resolveActor ext activity.actor
  let localActor ← Repo.findLocalByUsername targetUsername
  let autoAccept := !localActor.requiresFollowApproval
  Repo.createFollowWithApId remoteActor.id localActor.id autoAccept (some activity.id)
  if autoAccept then
    let now ← utcNow
    let acceptId := s!"{localActor.apId}#accept-follow-{now.timestamp}"
    Repo.enqueueDelivery localActor.id
      (acceptActivity acceptId localActor.apId activity.id remoteActor.apId)
      (remoteActor.inboxOr remoteActor.apId)
  else return ()

/-! ### Undo -/

/-- Undo a follow: the one with the given `id`, where the activity gives one. -/
def undoFollow (activity : Activity) : Handler Unit := do
  let targetUri ← okOr (.badRequest "Undo Follow: missing inner object")
    (activity.object.getStr "object")
  let targetUsername ← okOr (.badRequest "cannot parse target actor URI")
    (extractLocalUsername targetUri)
  let remoteActor ← resolveActor ext activity.actor
  let localActor ← Repo.findLocalByUsername targetUsername
  match activity.object.getStr "id" with
  | some followApId => Repo.deleteFollowByApId remoteActor.id localActor.id followApId
  | none => Repo.deleteFollow remoteActor.id localActor.id

def undoReaction (kind : ReactionKind) (missing : String) (activity : Activity) :
    Handler Unit := do
  let innerApId ← okOr (.badRequest missing) (activity.object.getStr "id")
  let remoteActor ← resolveActor ext activity.actor
  Repo.deleteReaction kind innerApId remoteActor.id

def undoBlock (activity : Activity) : Handler Unit := do
  let targetUri ← okOr (.badRequest "Undo Block: missing inner object")
    (activity.object.getStr "object")
  let targetUsername ← okOr (.badRequest "cannot parse target actor URI")
    (extractLocalUsername targetUri)
  let remoteActor ← resolveActor ext activity.actor
  let localActor ← Repo.findLocalByUsername targetUsername
  Repo.deleteBlock ⟨remoteActor.id, localActor.id⟩

def handleUndo (activity : Activity) : Handler Unit :=
  match (activity.object.getStr "type").getD "" with
  | "Follow" => undoFollow ext activity
  | "Like" => undoReaction ext .like "Undo Like: missing id" activity
  | "Announce" => undoReaction ext .boost "Undo Announce: missing id" activity
  | "Block" => undoBlock ext activity
  | _ => pure ()

/-! ### Create -/

/-- The row under which an object is stored. -/
def remotePost (object : Json) (actorId : Uuid) (apId : String) (postType : PostType)
    (content : PostContent) : RemotePost where
  toPostContent := content
  actorId := actorId
  apId := apId
  postType := postType
  sensitive := extractSensitive object

/-- Record on the post that is there that the proof of a document was verified. -/
def recordIfVerified (apId : String) (object : Json) (author : String) (content : PostContent) :
    Handler Unit :=
  if content.integrityProofVerified = some true then
    ignoringErrors do
      let _ ← Repo.recordVerifiedProof apId object author
  else pure ()

/-- Store the object of a `Create`, and what follows from it being new. -/
def persistCreated (activity : Activity) (apId : String) (postType : PostType)
    (content : PostContent) (remoteActor : Actor) : Handler Unit := do
  let object := activity.object
  let postId ← Repo.createRemotePost (remotePost object remoteActor.id apId postType content)
  match postId with
  | none =>
      -- the row is there already, and the proof is recorded on it
      recordIfVerified apId object activity.actor content
  | some postId =>
      annotatePost ext postId object
      ignoringErrors (enqueueIfIndexable postId)
      enqueueRemoteImages postId remoteActor.id (extractRemoteImages object)

def handleCreate (activity : Activity) : Handler Unit := do
  let object := activity.object
  let apId ← okOr (.badRequest "Create object missing id") (object.getStr "id")
  let proofVerified ← verifyObjectProof ext object activity.actor
  match postTypeOf ((object.getStr "type").getD "") with
  | none => return ()
  | some postType =>
      let remoteActor ← resolveActor ext activity.actor
      -- the addressing of the envelope, or that of the object where it has none
      let content := postContent ext object
        (activity.to.or (extractStringArray object "to"))
        (activity.cc.or (extractStringArray object "cc")) proofVerified
      let existing ← unwrapOr none (tryDedup object)
      match existing with
      | some _ => return ()
      | none => persistCreated ext activity apId postType content remoteActor

/-! ### Delete -/

/-- Delete an actor at its own request. -/
def deleteActor (objectId : String) (remoteActor : Actor) : Handler Unit := do
  ignoringErrors (enqueueRemovalsForActor remoteActor.id)
  Repo.insertTombstone objectId
  Repo.deleteRemoteActor remoteActor.id

/-- Delete a post at the request of its author. -/
def deleteAuthored (objectId author : String) : Handler Unit := do
  let isAuthorised ← Repo.countAuthored objectId author
  if isAuthorised = 0 then return ()
  else
    let indexedId ← Repo.postIdByApId objectId
    match indexedId with
    | some postId => ignoringErrors (Repo.enqueueRemoval "posts" (toString postId))
    | none => pure ()
    Repo.deletePost objectId

/-- The remote actor that asks for its own deletion. -/
def selfDeleted (objectId actor : String) : Handler (Option Actor) :=
  if objectId = actor then do
    let row ← Repo.findByApId objectId
    return row.filter (!·.isLocal)
  else pure none

def handleDelete (activity : Activity) : Handler Unit := do
  let objectId ← okOr (.badRequest "Delete: missing object id")
    ((activity.object.getStr "id").or activity.object.asStr)
  let remoteActor ← selfDeleted objectId activity.actor
  match remoteActor with
  | some remoteActor => deleteActor objectId remoteActor
  | none => deleteAuthored objectId activity.actor

/-! ### Update -/

/-- Refresh the profile of an actor, from its origin. -/
def handleUpdateActor (activity : Activity) : Handler Unit :=
  if activity.actor = (activity.object.getStr "id").getD "" then do
    let signer ← findLocalSigningActor
    let response ← signedGet activity.actor signer
    if response.isSuccess then
      let apActor ← ofExcept response.actor
      match apActorToRemote ext apActor response.url activity.actor with
      | .ok remote =>
          let _ ← Repo.upsertRemoteActor remote
          return ()
      | .error _ => return ()
    else return ()
  else pure ()

/-- Replace the links of an edited post to its hashtags. -/
def relinkHashtags (apId : String) (object : Json) : Handler Unit := do
  let postId ← Repo.postIdByApId apId
  match postId with
  | some postId =>
      Repo.unlinkHashtags postId
      ignoringErrors (linkPostHashtags ext postId (extractHashtagsFromTags ext object))
  | none => return ()

def handleUpdatePost (activity : Activity) : Handler Unit := do
  let object := activity.object
  let apId ← okOr (.badRequest "Update object missing id") (object.getStr "id")
  if activity.actor = ((object.get "attributedTo").bind firstString).getD "" then
    let _ ← resolveActor ext activity.actor
    let proofVerified ← verifyObjectProof ext object activity.actor
    let content := postContent ext object (extractStringArray object "to")
      (extractStringArray object "cc") proofVerified
    let rowsAffected ← Repo.updateRemotePost apId content activity.actor
    if rowsAffected > 0 then relinkHashtags ext apId object else return ()
  else return ()

/-- The type of an updated object: a string, or the first of a list. -/
def updatedType (object : Json) : String :=
  ((object.get "type").bind fun v =>
    v.asStr.or ((v.asArray.bind List.head?).bind Json.asStr)).getD ""

def handleUpdate (activity : Activity) : Handler Unit :=
  match updatedType activity.object with
  | "Person" | "Organization" | "Group" | "Application" | "Service" =>
      handleUpdateActor ext activity
  | "Note" | "Article" => handleUpdatePost ext activity
  | _ => pure ()

/-! ### Accept and Reject -/

/-- The local actor that sent the follow which an activity answers, and the remote actor
that answers it. -/
def answeredFollow (missing : String) (activity : Activity) : Handler (Actor × Actor) := do
  let followerUri ← okOr (.badRequest missing) (activity.object.getStr "actor")
  let followerUsername ← okOr (.badRequest "cannot parse follower URI")
    (extractLocalUsername followerUri)
  let localActor ← Repo.findLocalByUsername followerUsername
  let remoteActor ← resolveActor ext activity.actor
  return (localActor, remoteActor)

def handleAccept (activity : Activity) : Handler Unit :=
  if (activity.object.getStr "type").getD "" = "Follow" then do
    let handled ← unwrapOr false (tryHandleRelayAccept activity.actor)
    if handled then return ()
    else
      let (localActor, remoteActor) ← answeredFollow ext "Accept: missing Follow actor" activity
      Repo.acceptFollow localActor.id remoteActor.id
  else pure ()

def handleReject (activity : Activity) : Handler Unit :=
  if (activity.object.getStr "type").getD "" = "Follow" then do
    let (localActor, remoteActor) ← answeredFollow ext "Reject: missing Follow actor" activity
    Repo.deleteFollow localActor.id remoteActor.id
  else pure ()

/-! ### Announce -/

/-- Store a fetched object under its author, and return its identifier. -/
def persistFetched (object : Json) (apId authorUri : String) (postType : PostType)
    (content : PostContent) : Handler Uuid := do
  let author ← resolveActor ext authorUri
  recordIfVerified apId object authorUri content
  let postId ← Repo.createRemotePost (remotePost object author.id apId postType content)
  match postId with
  | some id =>
      annotatePost ext id object
      return id
  | none =>
      let existing ← Repo.postIdByApId apId
      okOr (.internal s!"post {apId} not found after concurrent insert") existing

/-- What a fetched object has to declare: its kind, its `id` and its author. -/
def describeFetched (object : Json) : Except NoombatError (PostType × String × String) :=
  let objectType := (object.getStr "type").getD ""
  match postTypeOf objectType, object.getStr "id",
      (object.get "attributedTo").bind firstString with
  | none, _, _ => .error (.federation s!"Announce references unsupported object type: {objectType}")
  | some _, none, _ => .error (.federation "fetched object missing id")
  | some _, some _, none => .error (.federation "fetched object missing attributedTo")
  | some postType, some apId, some authorUri => .ok (postType, apId, authorUri)

/-- Store the post that an answer holds, and its author. -/
def persistResponse (response : Response) : Handler Uuid :=
  if response.isSuccess then do
    let object ← ofExcept response.json
    let (postType, apId, authorUri) ← ofExcept (describeFetched object)
    let proofVerified ← verifyObjectProof ext object authorUri
    let content := postContent ext object (extractStringArray object "to")
      (extractStringArray object "cc") proofVerified
    let existing ← unwrapOr none (tryDedup object)
    match existing with
    | some existing => return existing
    | none => persistFetched ext object apId authorUri postType content
  else
    throw (.federation s!"remote object returned HTTP {ext.displayStatus response.status}")

/-- Fetch a post by its URI, store it and its author, and return its identifier. -/
def fetchAndPersistRemotePost (uri : String) : Handler Uuid := do
  let response ← guardedGet uri
  persistResponse ext response

/-- Process the activity that a relay delivered, once it is accepted. -/
def ingestRelayed (activity : Activity) (outcome : RelayVerificationOutcome) : Handler Unit :=
  match Activity.ofJson activity.object with
  | none => pure ()
  | some inner =>
      if inner.activityType = "Create" then do
        handleCreate ext inner
        match outcome, inner.object.getStr "id" with
        | .unverified, some apId => Repo.markRelayedUnverified apId
        | _, _ => return ()
      else pure ()

/-- Ingest an activity that reached this instance through a relay. -/
def handleRelayedAnnounce (config : Config) (activity : Activity) : Handler Unit :=
  if activity.object.isObject then do
    let policy ← policyForRelay config.defaultPolicy activity.actor
    let outcome ← verifyRelayedActivity ext activity.object policy
    match outcome with
    | .discard => return ()
    | .verified => ingestRelayed ext activity .verified
    | .unverified => ingestRelayed ext activity .unverified
  else pure ()

/-- The post that a boost names, fetched if it is not known. -/
def boostedPost (uri : String) : Handler (Option Uuid) := do
  let known ← Repo.postIdByApId uri
  match known with
  | some id => return some id
  | none =>
      let fetched ← Fallible.attempt (fetchAndPersistRemotePost ext uri)
      return fetched.toOption

/-- Record a boost. -/
def handleBoost (activity : Activity) : Handler Unit := do
  let uri ← okOr (.badRequest "Announce: missing object id") (objectUri activity.object)
  let remoteActor ← resolveActor ext activity.actor
  let postId ← boostedPost ext uri
  match postId with
  | some postId => Repo.insertReaction .boost ⟨remoteActor.id, postId, activity.id⟩
  | none => return ()

def handleAnnounce (config : Config) (activity : Activity) : Handler Unit := do
  let isRelay ← isRelayAnnounce activity.actor
  if isRelay then handleRelayedAnnounce ext config activity
  else handleBoost ext activity

/-! ### Like and Block -/

def handleLike (activity : Activity) : Handler Unit := do
  let uri ← okOr (.badRequest "Like: missing object id") (objectUri activity.object)
  let remoteActor ← resolveActor ext activity.actor
  let postId ← Repo.postIdByApId uri
  match postId with
  | some postId => Repo.insertReaction .like ⟨remoteActor.id, postId, activity.id⟩
  | none => return ()

def handleBlock (activity : Activity) : Handler Unit := do
  let targetUri ← okOr (.badRequest "Block: missing target actor id") (objectUri activity.object)
  let targetUsername ← okOr (.badRequest "cannot parse target actor URI")
    (extractLocalUsername targetUri)
  let remoteActor ← resolveActor ext activity.actor
  let localActor ← Repo.findLocalByUsername targetUsername
  Repo.insertBlock ⟨remoteActor.id, localActor.id⟩
  Repo.deleteFollow remoteActor.id localActor.id
  Repo.deleteFollow localActor.id remoteActor.id

/-! ### Move -/

def followActivity (followId follower target : String) : Json :=
  .obj [("@context", defaultContext), ("id", .str followId), ("type", .str "Follow"),
    ("actor", .str follower), ("object", .str target)]

/-- Take one local follower from the source of a move to its target. -/
def migrateFollower (sourceId : Uuid) (targetUri targetInbox : String) (followerId : Uuid) :
    Handler Unit := do
  Repo.deleteFollow followerId sourceId
  let follower ← Fallible.attempt (Repo.findById followerId)
  match follower with
  | .ok follower =>
      let now ← utcNow
      let followId := s!"{follower.apId}#move-follow-{now.timestampMillis}"
      ignoringErrors (Repo.enqueueDelivery followerId
        (followActivity followId follower.apId targetUri) targetInbox)
  | .error _ => return ()

/-- The aliases that an actor document lists. -/
def aliasesOf (profile : Json) : List String :=
  (((profile.get "alsoKnownAs").bind Json.asArray).getD []).filterMap Json.asStr

/-- Follow a move whose target claims its source. -/
def migrate (sourceUri targetUri : String) : Handler Unit := do
  let sourceActor ← resolveActor ext sourceUri
  Repo.setMovedTo targetUri sourceActor.id
  let localFollowerIds ← Repo.localFollowers sourceActor.id
  let targetActor ← resolveActor ext targetUri
  forM localFollowerIds
    (migrateFollower sourceActor.id targetUri (targetActor.inboxOr targetUri))

def handleInboundMove (activity : Activity) : Handler Unit := do
  let sourceUri := activity.actor
  let uri ← okOr (.badRequest "Move: object must be a string URI") activity.object.asStr
  if sourceUri = uri then
    let targetUri ← okOr (.badRequest "Move: missing target field") activity.target
    let signer ← findLocalSigningActor
    let targetResponse ← signedGet targetUri signer
    if targetResponse.isSuccess then
      let targetProfile ← ofExcept targetResponse.json
      if sourceUri ∈ aliasesOf targetProfile then migrate ext sourceUri targetUri
      else throw (.moveRejected
        s!"the target actor does not list {sourceUri} in its alsoKnownAs")
    else throw (.federation
      s!"target actor returned HTTP {ext.displayStatus targetResponse.status}")
  else throw (.moveRejected "the Move's actor and object must be the same account")

/-! ### Flag -/

/-- The reason and the comment that the text of a report is read as. -/
def parseFlagContent (content : String) : String × Option String :=
  let lower := toAsciiLowercase content
  match ["spam", "harassment", "illegal", "impersonation"].find? (startsWith lower) with
  | some reason =>
      let rest := trim (trimStartMatches ':'
        (slice reason.toList.length content.toList.length content))
      (reason, if rest = "" then none else some rest)
  | none => ("other", some content)

/-- The actor and the post that a report has named so far. -/
structure FlagTargets where
  actorId : Option Uuid
  postId : Option Uuid

/-- The result of a lookup, which is not made if one was found before. -/
def unlessFound (found : Option Uuid) (lookup : Handler (Option Uuid)) : Handler (Option Uuid) :=
  if found.isNone then lookup else pure none

/-- Match one URI of a report against the known actors, and against the known posts. -/
def matchTarget (targets : FlagTargets) (uri : String) : Handler FlagTargets := do
  let actorId ← unlessFound targets.actorId (Repo.actorIdByApId uri)
  match actorId with
  | some id => return { targets with actorId := some id }
  | none =>
      let postId ← unlessFound targets.postId (Repo.postIdByApId uri)
      return { targets with postId := targets.postId.or postId }

/-- Match the URIs of a report in their order. -/
def matchTargets : FlagTargets → List Json → Handler FlagTargets
  | targets, [] => pure targets
  | targets, .str uri :: objects => do
      let targets ← matchTarget targets uri
      matchTargets targets objects
  | targets, _ :: objects => matchTargets targets objects

/-- The objects of a report, a list or a single URI. -/
def flagObjects (object : Json) : List Json :=
  match object with
  | .arr objects => objects
  | .str uri => [.str uri]
  | _ => []

def handleInboundFlag (activity : Activity) : Handler Unit := do
  let targets ← matchTargets ⟨none, none⟩ (flagObjects activity.object)
  if targets.actorId.isNone && targets.postId.isNone then return ()
  else
    let reporter ← resolveActor ext activity.actor
    let (reason, comment) := parseFlagContent (activity.content.getD "other")
    Repo.insertReport ⟨reporter.id, targets.actorId, targets.postId, reason, comment, true⟩

/-! ### The dispatcher -/

/-- Process an activity whose envelope is accepted. -/
def dispatch (config : Config) (activity : Activity) : Handler Unit :=
  match activity.activityType with
  | "Follow" => handleFollow ext activity
  | "Undo" => handleUndo ext activity
  | "Create" => handleCreate ext activity
  | "Delete" => handleDelete activity
  | "Accept" => handleAccept ext activity
  | "Reject" => handleReject ext activity
  | "Announce" => handleAnnounce ext config activity
  | "Like" => handleLike ext activity
  | "Update" => handleUpdate ext activity
  | "Block" => handleBlock ext activity
  | "Move" => handleInboundMove ext activity
  | "Flag" => handleInboundFlag ext activity
  | _ => pure ()

/-- Process an inbound activity signed by `verifiedActor`: it has to be the actor of the
activity, and a proof on the envelope must not fail. -/
def processActivity (config : Config) (verifiedActor : String) (document : Json)
    (activity : Activity) : Handler Unit :=
  if verifiedActor = activity.actor then do
    let verdict ← verifyInboundProof ext document activity.actor
    match verdict with
    | .invalid => throw .forbidden
    | .valid | .absent => dispatch ext config activity
  else throw .forbidden

end Federation
