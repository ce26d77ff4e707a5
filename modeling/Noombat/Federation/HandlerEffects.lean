import Noombat.Federation.Storing

/-!
# What the handlers change

Most handlers write neither actors nor posts, except that the actors they meet are refreshed
and may move.  Their requests are those that `Permits P` grants.  The handlers of posts make
the further requests that `PermitsPosts P` grants, and two kinds of requests are made by one
handler each: a follow is inserted for a `Follow`, and a post is marked for an `Announce`.
-/

namespace Federation

open Fallible Program

/-- The requests that every handler may make satisfy `P`. -/
structure Permits (P : FedRequest → Prop) : Prop where
  read : ∀ q : FedRequest, q.isMinor = true → P q
  upsert : ∀ remote, P (.sql (.upsertRemoteActor remote))
  moved : ∀ target id, P (.sql (.setMovedTo target id))

theorem Permits.consult {P : FedRequest → Prop} (h : Permits P) (q : FedRequest)
    (hq : q.consults = true) :
  P q
  := h.read q (FedRequest.isMinor_of_consults hq)

theorem permits_growing :
  Permits FedRequest.Growing
  := ⟨fun _ hq => .inl (FedRequest.writesCore_of_isMinor hq), fun remote => .inr (.inl ⟨remote, rfl⟩),
    fun target id => .inr (.inr ⟨target, id, rfl⟩)⟩

section Permitted

variable {P : FedRequest → Prop} (ext : External) (h : Permits P)

include h

/-! ### Handlers of follows, blocks and moves -/

theorem every_handleFollow (activity : Activity)
    (hfollow : ∀ follow, P (.sql (.insertFollow follow))) :
  Every P (handleFollow ext activity).run
  := by
  apply every_run_bind (every_okOr _ _)
  intro targetUri
  apply every_run_bind (every_okOr _ _)
  intro targetUsername
  apply every_run_bind (every_resolveActor ext h.consult h.upsert _)
  intro remoteActor
  apply every_run_bind (every_findLocalByUsername h.consult _)
  intro localActor
  apply every_run_bind (every_sql (hfollow _))
  intro _
  split
  · apply every_run_bind ((every_run_ask _).mpr (h.read _ rfl))
    intro now
    apply every_sql (h.read _ rfl)
  · apply every_run_pure

theorem every_undoFollow (activity : Activity) :
  Every P (undoFollow ext activity).run
  := by
  apply every_run_bind (every_okOr _ _)
  intro targetUri
  apply every_run_bind (every_okOr _ _)
  intro targetUsername
  apply every_run_bind (every_resolveActor ext h.consult h.upsert _)
  intro remoteActor
  apply every_run_bind (every_findLocalByUsername h.consult _)
  intro localActor
  split
  · apply every_sql (h.read _ rfl)
  · apply every_sql (h.read _ rfl)

theorem every_undoReaction (kind : ReactionKind) (missing : String) (activity : Activity) :
  Every P (undoReaction ext kind missing activity).run
  := by
  apply every_run_bind (every_okOr _ _)
  intro innerApId
  apply every_run_bind (every_resolveActor ext h.consult h.upsert _)
  intro remoteActor
  apply every_sql (h.read _ rfl)

theorem every_undoBlock (activity : Activity) :
  Every P (undoBlock ext activity).run
  := by
  apply every_run_bind (every_okOr _ _)
  intro targetUri
  apply every_run_bind (every_okOr _ _)
  intro targetUsername
  apply every_run_bind (every_resolveActor ext h.consult h.upsert _)
  intro remoteActor
  apply every_run_bind (every_findLocalByUsername h.consult _)
  intro localActor
  apply every_sql (h.read _ rfl)

theorem every_handleUndo (activity : Activity) :
  Every P (handleUndo ext activity).run
  := by
  unfold handleUndo
  split
  · apply every_undoFollow ext h
  · apply every_undoReaction ext h
  · apply every_undoReaction ext h
  · apply every_undoBlock ext h
  · apply every_run_pure

theorem every_answeredFollow (missing : String) (activity : Activity) :
  Every P (answeredFollow ext missing activity).run
  := by
  apply every_run_bind (every_okOr _ _)
  intro followerUri
  apply every_run_bind (every_okOr _ _)
  intro followerUsername
  apply every_run_bind (every_findLocalByUsername h.consult _)
  intro localActor
  apply every_run_bind (every_resolveActor ext h.consult h.upsert _)
  intro remoteActor
  apply every_run_pure

theorem every_tryHandleRelayAccept (actorUri : String) :
  Every P (tryHandleRelayAccept actorUri).run
  := by
  apply every_run_bind (every_sql (h.read _ rfl))
  rintro (_ | inbox)
  · apply every_run_pure
  · apply every_run_bind (every_sql (h.read _ rfl))
    intro _
    apply every_run_pure

theorem every_handleAccept (activity : Activity) :
  Every P (handleAccept ext activity).run
  := by
  unfold handleAccept
  split
  · apply every_run_bind (every_unwrapOr _ (every_tryHandleRelayAccept h _))
    intro handled
    split
    · apply every_run_pure
    · apply every_run_bind (every_answeredFollow ext h _ activity)
      intro actors
      apply every_sql (h.read _ rfl)
  · apply every_run_pure

theorem every_handleReject (activity : Activity) :
  Every P (handleReject ext activity).run
  := by
  unfold handleReject
  split
  · apply every_run_bind (every_answeredFollow ext h _ activity)
    intro actors
    apply every_sql (h.read _ rfl)
  · apply every_run_pure

theorem every_handleLike (activity : Activity) :
  Every P (handleLike ext activity).run
  := by
  apply every_run_bind (every_okOr _ _)
  intro uri
  apply every_run_bind (every_resolveActor ext h.consult h.upsert _)
  intro remoteActor
  apply every_run_bind (every_sql (h.read _ rfl))
  rintro (_ | postId)
  · apply every_run_pure
  · apply every_sql (h.read _ rfl)

theorem every_handleBlock (activity : Activity) :
  Every P (handleBlock ext activity).run
  := by
  apply every_run_bind (every_okOr _ _)
  intro targetUri
  apply every_run_bind (every_okOr _ _)
  intro targetUsername
  apply every_run_bind (every_resolveActor ext h.consult h.upsert _)
  intro remoteActor
  apply every_run_bind (every_findLocalByUsername h.consult _)
  intro localActor
  apply every_run_bind (every_sql (h.read _ rfl))
  intro _
  apply every_run_bind (every_sql (h.read _ rfl))
  intro _
  apply every_sql (h.read _ rfl)

theorem every_migrateFollower (sourceId : Uuid) (targetUri targetInbox : String)
    (followerId : Uuid) :
  Every P (migrateFollower sourceId targetUri targetInbox followerId).run
  := by
  apply every_run_bind (every_sql (h.read _ rfl))
  intro _
  apply every_run_bind (every_run_attempt (every_findById h.consult _))
  intro follower
  split
  · apply every_run_bind ((every_run_ask _).mpr (h.read _ rfl))
    intro now
    apply every_ignoringErrors (every_sql (h.read _ rfl))
  · apply every_run_pure

theorem every_migrate (sourceUri targetUri : String) :
  Every P (migrate ext sourceUri targetUri).run
  := by
  apply every_run_bind (every_resolveActor ext h.consult h.upsert _)
  intro sourceActor
  apply every_run_bind (every_sql (h.moved _ _))
  intro _
  apply every_run_bind (every_sql (h.read _ rfl))
  intro localFollowerIds
  apply every_run_bind (every_resolveActor ext h.consult h.upsert _)
  intro targetActor
  apply every_run_forM
  intro followerId _
  apply every_migrateFollower h

theorem every_handleInboundMove (activity : Activity) :
  Every P (handleInboundMove ext activity).run
  := by
  apply every_run_bind (every_okOr _ _)
  intro uri
  split
  · apply every_run_bind (every_okOr _ _)
    intro targetUri
    apply every_run_bind (every_findLocalSigningActor h.consult)
    intro signer
    apply every_run_bind ((every_run_ask _).mpr (h.read _ rfl))
    intro targetResponse
    split
    · apply every_run_bind (every_ofExcept _)
      intro targetProfile
      split
      · apply every_migrate ext h
      · apply every_run_throw
    · apply every_run_throw
  · apply every_run_throw

/-! ### Reports -/

omit h in
theorem every_unlessFound {found : Option Uuid} {lookup : Handler (Option Uuid)}
    (hlookup : Every P lookup.run) :
  Every P (unlessFound found lookup).run
  := by
  unfold unlessFound
  split
  · apply hlookup
  · apply every_run_pure

theorem every_matchTarget (targets : FlagTargets) (uri : String) :
  Every P (matchTarget targets uri).run
  := by
  apply every_run_bind (every_unlessFound (every_sql (h.read _ rfl)))
  rintro (_ | id)
  · apply every_run_bind (every_unlessFound (every_sql (h.read _ rfl)))
    intro postId
    apply every_run_pure
  · apply every_run_pure

theorem every_matchTargets (targets : FlagTargets) (objects : List Json) :
  Every P (matchTargets targets objects).run
  := by
  induction objects generalizing targets with
  | nil => apply every_run_pure
  | cons object objects ih =>
      cases object with
      | str uri =>
          apply every_run_bind (every_matchTarget h targets uri)
          intro targets'
          apply ih
      | _ => apply ih

theorem every_handleInboundFlag (activity : Activity) :
  Every P (handleInboundFlag ext activity).run
  := by
  apply every_run_bind (every_matchTargets h _ _)
  intro targets
  split
  · apply every_run_pure
  · apply every_run_bind (every_resolveActor ext h.consult h.upsert _)
    intro reporter
    apply every_sql (h.read _ rfl)

/-! ### Handlers of actors and posts -/

theorem every_handleUpdateActor (activity : Activity) :
  Every P (handleUpdateActor ext activity).run
  := by
  unfold handleUpdateActor
  split
  · apply every_run_bind (every_findLocalSigningActor h.consult)
    intro signer
    apply every_run_bind ((every_run_ask _).mpr (h.read _ rfl))
    intro response
    split
    · apply every_run_bind (every_ofExcept _)
      intro apActor
      split
      · apply every_run_bind (every_upsertRemoteActor h.consult h.upsert _)
        intro _
        apply every_run_pure
      · apply every_run_pure
    · apply every_run_pure
  · apply every_run_pure

theorem every_relinkHashtags (apId : String) (object : Json) :
  Every P (relinkHashtags ext apId object).run
  := by
  apply every_run_bind (every_sql (h.read _ rfl))
  rintro (_ | postId)
  · apply every_run_pure
  · apply every_run_bind (every_sql (h.read _ rfl))
    intro _
    apply every_ignoringErrors (every_linkPostHashtags h.read _ _)

omit h in
theorem every_enqueueRemovalsForActor (hread : ∀ q : FedRequest, q.isMinor = true → P q)
    (actorId : Uuid) :
  Every P (enqueueRemovalsForActor actorId).run
  := by
  apply every_run_bind (every_sql (hread _ rfl))
  intro postIds
  apply every_run_bind
  · apply every_run_forM
    intro postId _
    apply every_sql (hread _ rfl)
  · intro _
    apply every_sql (hread _ rfl)

/-- An edited post is changed where it is the actor's. -/
theorem every_handleUpdatePost (activity : Activity)
    (hupdate : ∀ apId content, P (.sql (.updateRemotePost apId content activity.actor))) :
  Every P (handleUpdatePost ext activity).run
  := by
  apply every_run_bind (every_okOr _ _)
  intro apId
  split
  · apply every_run_bind (every_resolveActor ext h.consult h.upsert _)
    intro _
    apply every_run_bind (every_verifyObjectProof ext h.consult h.upsert _ _)
    intro proofVerified
    apply every_run_bind (every_sql (hupdate _ _))
    intro rowsAffected
    split
    · apply every_relinkHashtags ext h
    · apply every_run_pure
  · apply every_run_pure

theorem every_handleUpdate (activity : Activity)
    (hupdate : ∀ apId content, P (.sql (.updateRemotePost apId content activity.actor))) :
  Every P (handleUpdate ext activity).run
  := by
  unfold handleUpdate
  split
  all_goals first
    | apply every_handleUpdateActor ext h
    | apply every_handleUpdatePost ext h activity hupdate
    | apply every_run_pure

end Permitted

/-! ### Handlers that store and remove posts -/

/-- The requests by which posts are stored and removed satisfy `P`, too. -/
structure PermitsPosts (P : FedRequest → Prop) : Prop extends Permits P where
  insert : ∀ post, P (.sql (.insertRemotePost post))
  record : ∀ apId object author, P (.sql (.recordVerifiedProof apId object author))
  canonical : ∀ id uri, P (.sql (.setCanonicalUri id uri))
  update : ∀ apId content author, P (.sql (.updateRemotePost apId content author))
  delete : ∀ apId, P (.sql (.deletePost apId))
  deleteActor : ∀ id, P (.sql (.deleteRemoteActor id))

section PermittedPosts

variable {P : FedRequest → Prop} (ext : External) (h : PermitsPosts P)

include h

theorem every_persistCreated (activity : Activity) (apId : String) (postType : PostType)
    (content : PostContent) (remoteActor : Actor) :
  Every P (persistCreated ext activity apId postType content remoteActor).run
  := by
  apply every_run_bind (every_sql (h.insert _))
  rintro (_ | id)
  · apply every_recordIfVerified (h.record _ _ _)
  · apply every_run_bind (every_annotatePost h.read id _ (h.canonical id))
    intro _
    apply every_run_bind (every_ignoringErrors (every_enqueueIfIndexable h.read id))
    intro _
    apply every_enqueueRemoteImages h.read

theorem every_handleCreate (activity : Activity) :
  Every P (handleCreate ext activity).run
  := by
  apply every_run_bind (every_okOr _ _)
  intro apId
  apply every_run_bind (every_verifyObjectProof ext h.consult h.upsert _ _)
  intro proofVerified
  split
  · apply every_run_pure
  · apply every_run_bind (every_resolveActor ext h.consult h.upsert _)
    intro remoteActor
    apply every_run_bind (every_unwrapOr _ (every_tryDedup h.read _))
    intro existing
    split
    · apply every_run_pure
    · apply every_persistCreated ext h

theorem every_persistFetched (object : Json) (apId authorUri : String) (postType : PostType)
    (content : PostContent) :
  Every P (persistFetched ext object apId authorUri postType content).run
  := by
  apply every_run_bind (every_resolveActor ext h.consult h.upsert _)
  intro author
  apply every_run_bind (every_recordIfVerified (h.record _ _ _))
  intro _
  apply every_run_bind (every_sql (h.insert _))
  rintro (_ | id)
  · apply every_run_bind (every_sql (h.read _ rfl))
    intro existing
    apply every_okOr
  · apply every_run_bind (every_annotatePost h.read id object (h.canonical id))
    intro _
    apply every_run_pure

theorem every_persistResponse (response : Response) :
  Every P (persistResponse ext response).run
  := by
  unfold persistResponse
  split
  · apply every_run_bind (every_ofExcept _)
    intro object
    apply every_run_bind (every_ofExcept _)
    rintro ⟨postType, apId, authorUri⟩
    apply every_run_bind (every_verifyObjectProof ext h.consult h.upsert _ _)
    intro proofVerified
    apply every_run_bind (every_unwrapOr _ (every_tryDedup h.read _))
    intro existing
    split
    · apply every_run_pure
    · apply every_persistFetched ext h
  · apply every_run_throw

theorem every_handleBoost (activity : Activity) :
  Every P (handleBoost ext activity).run
  := by
  have hboosted : ∀ uri, Every P (boostedPost ext uri).run := by
    intro uri
    apply every_run_bind (every_sql (h.read _ rfl))
    rintro (_ | id)
    · apply every_run_bind
      · apply every_run_attempt
        apply every_run_bind ((every_run_ask _).mpr (h.read _ rfl))
        intro response
        apply every_persistResponse ext h
      · intro fetched
        apply every_run_pure
    · apply every_run_pure
  apply every_run_bind (every_okOr _ _)
  intro uri
  apply every_run_bind (every_resolveActor ext h.consult h.upsert _)
  intro remoteActor
  apply every_run_bind (hboosted uri)
  rintro (_ | postId)
  · apply every_run_pure
  · apply every_sql (h.read _ rfl)

theorem every_handleDelete (activity : Activity) :
  Every P (handleDelete activity).run
  := by
  have hself : ∀ objectId, Every P (selfDeleted objectId activity.actor).run := by
    intro objectId
    unfold selfDeleted
    split
    · apply every_run_bind (every_sql (h.read _ rfl))
      intro row
      apply every_run_pure
    · apply every_run_pure
  apply every_run_bind (every_okOr _ _)
  intro objectId
  apply every_run_bind (hself objectId)
  rintro (_ | remoteActor)
  · apply every_run_bind (every_sql (h.read _ rfl))
    intro isAuthorised
    split
    · apply every_run_pure
    · apply every_run_bind (every_sql (h.read _ rfl))
      rintro (_ | postId)
      · apply every_sql (h.delete _)
      · apply every_run_bind (every_ignoringErrors (every_sql (h.read _ rfl)))
        intro _
        apply every_sql (h.delete _)
  · apply every_run_bind (every_ignoringErrors (every_enqueueRemovalsForActor h.read _))
    intro _
    apply every_run_bind (every_sql (h.read _ rfl))
    intro _
    apply every_sql (h.deleteActor _)

/-- An activity that came through a relay marks its post only where it was not verified. -/
theorem every_ingestRelayed (activity : Activity) {outcome : RelayVerificationOutcome}
    (hmark : outcome = .unverified → ∀ apId, P (.sql (.markRelayedUnverified apId))) :
  Every P (ingestRelayed ext activity outcome).run
  := by
  unfold ingestRelayed
  split
  · apply every_run_pure
  · split
    · apply every_run_bind (every_handleCreate ext h _)
      intro _
      split
      · apply every_sql (hmark rfl _)
      · apply every_run_pure
    · apply every_run_pure

theorem every_handleAnnounce (config : Config) (activity : Activity)
    (hmark : ∀ apId, P (.sql (.markRelayedUnverified apId))) :
  Every P (handleAnnounce ext config activity).run
  := by
  apply every_run_bind (every_unwrapOr _ (every_sql (h.read _ rfl)))
  intro isRelay
  split
  · unfold handleRelayedAnnounce
    split
    · apply every_run_bind
      · apply every_run_bind (every_unwrapOr _ (every_sql (h.read _ rfl)))
        intro stored
        apply every_run_pure
      · intro policy
        apply every_run_bind (every_verifyRelayedActivity ext h.consult _ _)
        rintro (_ | _ | _)
        · apply every_ingestRelayed ext h _ fun _ => hmark
        · apply every_ingestRelayed ext h _ fun _ => hmark
        · apply every_run_pure
    · apply every_run_pure
  · apply every_handleBoost ext h

/-- What an activity makes the dispatcher ask for. -/
theorem every_dispatch (config : Config) (activity : Activity)
    (hfollow : activity.activityType = "Follow" → ∀ follow, P (.sql (.insertFollow follow)))
    (hannounce : activity.activityType = "Announce" →
      Every P (handleAnnounce ext config activity).run) :
  Every P (dispatch ext config activity).run
  := by
  unfold dispatch
  split
  · rename_i htype
    apply every_handleFollow ext h.toPermits _ (hfollow htype)
  · apply every_handleUndo ext h.toPermits
  · apply every_handleCreate ext h
  · apply every_handleDelete h
  · apply every_handleAccept ext h.toPermits
  · apply every_handleReject ext h.toPermits
  · rename_i htype
    exact hannounce htype
  · apply every_handleLike ext h.toPermits
  · apply every_handleUpdate ext h.toPermits _ fun _ _ => h.update _ _ _
  · apply every_handleBlock ext h.toPermits
  · apply every_handleInboundMove ext h.toPermits
  · apply every_handleInboundFlag ext h.toPermits
  · apply every_run_pure

end PermittedPosts

end Federation
