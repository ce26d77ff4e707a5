import Noombat.Api.Database
import Noombat.Federation.Effects

/-!
# Follows and blocks

The routes by which a local actor follows, answers those who ask to follow it, blocks and
unblocks.
-/

namespace Api

open Federation (Uuid DateTime NoombatError Actor Activity External Config defaultContext
  FedRequest fedWorld resolveActor followActivity utcNow)

abbrev StatusCode : Type :=
  Nat

def StatusCode.OK : StatusCode :=
  200

def StatusCode.CREATED : StatusCode :=
  201

def StatusCode.ACCEPTED : StatusCode :=
  202

def StatusCode.NO_CONTENT : StatusCode :=
  204

/-! ### Who asks -/

/-- The account of the session that makes a request. -/
structure Viewer where
  actorId : Uuid

/-- The viewer is the account itself, or an accepted member of it. -/
def requireActsFor (subjectId : Uuid) : Option Viewer → Route Unit
  | none => throw .forbidden
  | some viewer =>
      if viewer.actorId = subjectId then return ()
      else do
        let accepted ← sql (.acceptedMember subjectId viewer.actorId)
        if accepted then return () else throw .forbidden

/-- The local actor that a route is about, for which the viewer may act. -/
def requireLocalActor (viewer : Option Viewer) (username : String) : Route Actor :=
  if viewer.isNone then throw .forbidden
  else do
    let actor ← fed (Federation.Repo.findLocalByUsername username)
    requireActsFor actor.id viewer
    return actor

section LocalActor

open Fallible Program

variable {P : ApiRequest → Prop} {C : Condition apiWorld} {db : Db}

theorem every_requireLocalActor
    (hfind : ∀ username, P (.fed (.sql (.findLocalByUsername username))))
    (hmember : ∀ organizationId memberId, P (.sql (.acceptedMember organizationId memberId)))
    (viewer : Option Viewer) (username : String) :
  Every P (requireLocalActor viewer username).run
  := by
  have hacts : ∀ subjectId, Every P (requireActsFor subjectId viewer).run := by
    intro subjectId
    cases viewer with
    | none => apply every_run_throw
    | some viewer =>
        rw [requireActsFor]
        split
        · apply every_run_pure
        · apply every_run_bind ((every_run_ask _).mpr (hmember _ _))
          intro accepted
          split
          · apply every_run_pure
          · apply every_run_throw
  rw [requireLocalActor]
  split
  · apply every_run_throw
  · apply every_run_bind
    · apply every_fed
      rw [Federation.Repo.findLocalByUsername]
      apply every_run_bind (Federation.every_sql (hfind username))
      intro row
      apply Federation.every_okOr
    intro actor
    apply every_run_bind (hacts actor.id)
    intro _
    apply every_run_pure

/-- The actor is the one with the username, if it is found. -/
theorem wp_requireLocalActor (viewer : Option Viewer) (username : String) :
  wp apiWorld C
    (onExcept
      (fun a db' => db'.toDb = db.toDb ∧
        db.actors.find (fun a => a.username == username && a.isLocal) = some a)
      (fun _ db' => db'.toDb = db.toDb))
    (requireLocalActor viewer username).run db
  := by
  have hacts : ∀ subjectId (db' : Db), db'.toDb = db.toDb →
      wp apiWorld C (fun _ db'' => db''.toDb = db.toDb)
        (requireActsFor subjectId viewer).run db' := by
    intro subjectId db' hdb'
    cases viewer with
    | none =>
        rw [requireActsFor, wp_run_throw]
        exact hdb'
    | some viewer =>
        rw [requireActsFor]
        split
        · rw [wp_run_pure]
          exact hdb'
        · rw [wp_run_bind]
          apply wp_sql (.acceptedMember subjectId viewer.actorId)
          · intro e
            exact hdb'
          · rw [ApiSql.exec, onExcept_ok]
            split
            · rw [wp_run_pure]
              exact hdb'
            · rw [wp_run_throw]
              exact hdb'
  rw [requireLocalActor]
  split
  · rw [wp_run_throw]
    rfl
  · rw [wp_run_bind]
    have hfind : wp fedWorld (Always fedWorld)
        (onExcept
          (fun a fdb => fdb = db.toDb ∧
            db.actors.find (fun a => a.username == username && a.isLocal) = some a)
          (fun _ fdb => fdb = db.toDb))
        (Federation.Repo.findLocalByUsername username).run db.toDb := by
      rw [Federation.Repo.findLocalByUsername, wp_run_bind]
      apply Federation.wp_sql (.findLocalByUsername username)
      · intro e
        rfl
      · intro c _
        rw [Federation.Sql.exec, onExcept_ok, Federation.wp_okOr]
        cases hfind : db.actors.find fun a => a.username == username && a.isLocal with
        | none => rfl
        | some a => exact ⟨rfl, rfl⟩
    apply wp_mono _ (wp_fed hfind)
    rintro (e | actor) db₁ hfound
    · exact hfound
    · rw [onExcept_ok, wp_run_bind]
      apply wp_mono _ (hacts actor.id db₁ hfound.1)
      rintro (e | _) db₂ hdb₂
      · exact hdb₂
      · rw [onExcept_ok, wp_run_pure]
        exact ⟨hdb₂, hfound.2⟩

end LocalActor

/-! ### Follows -/

variable (ext : External)

/-- Follow a remote actor. -/
def initiateFollow (viewer : Option Viewer) (username targetApId : String) :
    Route StatusCode := do
  let localActor ← requireLocalActor viewer username
  let remoteActor ← fed (resolveActor ext targetApId)
  -- no identifier is stored with the follow
  fed (Federation.Repo.createFollowWithApId localActor.id remoteActor.id false none)
  let now ← fed utcNow
  let followId := s!"{localActor.apId}#follow-{now.timestamp}"
  fed (Federation.Repo.enqueueDelivery localActor.id
    (followActivity followId localActor.apId remoteActor.apId)
    (remoteActor.inboxOr remoteActor.apId))
  return .ACCEPTED

/-- The answer to a follow, with the identifier of the follow where it is known. -/
def followAnswer (kind answerId : String) (follower localActor : Actor)
    (followApId : Option String) : Json :=
  .obj [("@context", defaultContext), ("id", .str answerId), ("type", .str kind),
    ("actor", .str localActor.apId),
    ("object", .obj ([("type", .str "Follow"), ("actor", .str follower.apId),
      ("object", .str localActor.apId)] ++
      followApId.toList.map fun id => ("id", .str id)))]

def acceptPendingFollow (viewer : Option Viewer) (username : String) (followerId : Uuid) :
    Route StatusCode := do
  let localActor ← requireLocalActor viewer username
  let row ← sql (.followTo followerId localActor.id)
  let (accepted, followApId) ← okOr (.notFound "follow" followerId) row
  if accepted then return .OK
  else
    let follower ← fed (Federation.Repo.findById followerId)
    fed (Federation.Repo.acceptFollow follower.id localActor.id)
    let now ← fed utcNow
    let acceptId := s!"{localActor.apId}#accept-follow-{now.timestamp}"
    fed (Federation.Repo.enqueueDelivery localActor.id
      (followAnswer "Accept" acceptId follower localActor followApId)
      (follower.inboxOr follower.apId))
    return .OK

def rejectPendingFollow (viewer : Option Viewer) (username : String) (followerId : Uuid) :
    Route StatusCode := do
  let localActor ← requireLocalActor viewer username
  let row ← sql (.pendingFollowTo followerId localActor.id)
  let followApId ← okOr (.notFound "follow" followerId) row
  let follower ← fed (Federation.Repo.findById followerId)
  fed (Federation.Repo.deleteFollow follower.id localActor.id)
  let now ← fed utcNow
  let rejectId := s!"{localActor.apId}#reject-follow-{now.timestamp}"
  fed (Federation.Repo.enqueueDelivery localActor.id
    (followAnswer "Reject" rejectId follower localActor followApId)
    (follower.inboxOr follower.apId))
  return .OK

/-! ### Blocks -/

def blockActivity (blockId localApId targetApId : String) : Json :=
  .obj [("@context", defaultContext), ("id", .str blockId), ("type", .str "Block"),
    ("actor", .str localApId), ("object", .str targetApId)]

/-- The activity that undoes another one, of the given kind and with the given identifier. -/
def undoActivity (undoId kind innerId localApId targetApId : String) : Json :=
  .obj [("@context", defaultContext), ("id", .str undoId), ("type", .str "Undo"),
    ("actor", .str localApId),
    ("object", .obj [("id", .str innerId), ("type", .str kind), ("actor", .str localApId),
      ("object", .str targetApId)])]

/-- Tell the instance of a blocked actor that it is followed no longer, if the identifier of
the follow is known. -/
def undoOutboundFollow (localActor target : Actor) : Option String → Route Unit
  | none => return ()
  | some followApId => do
      let now ← fed utcNow
      let undoId := s!"{localActor.apId}#undo-follow-{now.timestampMillis}"
      fed (Federation.Repo.enqueueDelivery localActor.id
        (undoActivity undoId "Follow" followApId localActor.apId target.apId)
        (target.inboxOr target.apId))

def createBlock (viewer : Option Viewer) (username targetApId : String) :
    Route StatusCode := do
  let localActor ← requireLocalActor viewer username
  let target ← fed (resolveActor ext targetApId)
  fed (Federation.Repo.insertBlock ⟨localActor.id, target.id⟩)
  -- read before the row is deleted, which is the only place the identifier is kept
  let outboundFollowApId ← sql (.followApId localActor.id target.id)
  fed (Federation.Repo.deleteFollow localActor.id target.id)
  fed (Federation.Repo.deleteFollow target.id localActor.id)
  let now ← fed utcNow
  let blockId := s!"{localActor.apId}#block-{now.timestampMillis}"
  fed (Federation.Repo.enqueueDelivery localActor.id
    (blockActivity blockId localActor.apId target.apId) (target.inboxOr target.apId))
  undoOutboundFollow localActor target outboundFollowApId.join
  return .CREATED

def deleteBlock (viewer : Option Viewer) (username targetApId : String) :
    Route StatusCode := do
  let localActor ← requireLocalActor viewer username
  let row ← fed (Federation.Repo.findByApId targetApId)
  let target ← okOr (.actorNotFound targetApId) row
  fed (Federation.Repo.deleteBlock ⟨localActor.id, target.id⟩)
  let now ← fed utcNow
  let blockRefId := s!"{localActor.apId}#block-ref-{now.timestampMillis}"
  let undoId := s!"{localActor.apId}#undo-block-{now.timestampMillis}"
  fed (Federation.Repo.enqueueDelivery localActor.id
    (undoActivity undoId "Block" blockRefId localActor.apId target.apId)
    (target.inboxOr target.apId))
  return .NO_CONTENT

end Api
