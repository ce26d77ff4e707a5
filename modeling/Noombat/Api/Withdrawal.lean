import Noombat.Api.Follows
import Noombat.Federation.FollowRows
import Noombat.Federation.Migration
import Noombat.Program.Calls

/-!
# Follows that are taken back

A local actor who blocks a remote one stops following it, and the instance of the other is to
be told so, by an activity that names the follow it undoes.  The identifier of the follow is
read from its row; but the route by which a local actor follows stores none there, so that a
follow which is dropped is never undone.
-/

namespace Api

open Federation (Uuid DateTime NoombatError Actor Activity External Config Delivery FedRequest
  fedWorld NoombatError)
open Fallible Program

/-! ### The requests of the routes -/

/-- The request inserts no follow with an identifier. -/
def ApiRequest.NamesNoFollow : ApiRequest → Prop
  | .fed q => q.NamesNoFollow
  | _ => True

theorem ApiRequest.NamesNoFollow.exec {q : ApiRequest} {c : apiWorld.Choice q} {db : Db}
    (hq : q.NamesNoFollow) (hdb : db.NamedFollowsLocal) :
  (apiWorld.exec q c db).2.NamedFollowsLocal
  := by
  cases q with
  | fed q =>
      apply Federation.Db.NamedFollowsLocal.exec hdb
      intro follow hfollow
      exact .inl (hq follow hfollow)
  | connection s => exact hdb
  | sql s =>
      cases c with
      | some e => exact hdb
      | none => cases s <;> exact hdb
  | newUuid => exact hdb

/-! ### The calls -/

/-- What bears on follows: activities that are delivered, and the requests of local actors. -/
inductive FollowCall where
  | delivered (verifiedActor : String) (document : Json) (activity : Activity)
  | initiateFollow (viewer : Option Viewer) (username targetApId : String)
  | acceptPendingFollow (viewer : Option Viewer) (username : String) (followerId : Uuid)
  | rejectPendingFollow (viewer : Option Viewer) (username : String) (followerId : Uuid)
  | createBlock (viewer : Option Viewer) (username targetApId : String)
  | deleteBlock (viewer : Option Viewer) (username targetApId : String)

variable (ext : External) (config : Config)

def FollowCall.route : FollowCall → Route StatusCode
  | delivered verifiedActor document activity => do
      fed (Federation.processActivity ext config verifiedActor document activity)
      return .ACCEPTED
  | initiateFollow viewer username targetApId => Api.initiateFollow ext viewer username targetApId
  | acceptPendingFollow viewer username followerId =>
      Api.acceptPendingFollow viewer username followerId
  | rejectPendingFollow viewer username followerId =>
      Api.rejectPendingFollow viewer username followerId
  | createBlock viewer username targetApId => Api.createBlock ext viewer username targetApId
  | deleteBlock viewer username targetApId => Api.deleteBlock viewer username targetApId

/-- The database after a history of such calls. -/
def afterFollowCalls (history : List (Made apiWorld FollowCall)) (db : Db) : Db :=
  afterCalls apiWorld (fun call : FollowCall => (call.route ext config).run) history db

section Quiet

/-- The requests that the routes may make. -/
abbrev Quiet : ApiRequest → Prop :=
  ApiRequest.NamesNoFollow

theorem quiet_consult (q : FedRequest) (hq : q.consults = true) :
  Quiet (.fed q)
  := Federation.permits_namesNoFollow.consult q hq

theorem quiet_minor {q : FedRequest} (hq : q.isMinor = true) :
  Quiet (.fed q)
  := Federation.permits_namesNoFollow.read q hq

theorem quiet_fed {s : Federation.Sql} (hs : FedRequest.isMinor (.sql s) = true) :
  Every Quiet (fed (Federation.sql s)).run
  := every_fed (Federation.every_sql (quiet_minor hs))

theorem quiet_requireLocalActor (viewer : Option Viewer) (username : String) :
  Every Quiet (requireLocalActor viewer username).run
  := every_requireLocalActor (fun _ => quiet_consult _ rfl) (fun _ _ => trivial) viewer username

theorem quiet_resolveActor (uri : String) :
  Every Quiet (fed (Federation.resolveActor ext uri)).run
  := every_fed (Federation.every_resolveActor ext quiet_consult
    Federation.permits_namesNoFollow.upsert uri)

theorem quiet_findById (id : Uuid) :
  Every Quiet (fed (Federation.Repo.findById id)).run
  := every_fed (Federation.every_findById quiet_consult id)

theorem quiet_utcNow :
  Every Quiet (fed Federation.utcNow).run
  := every_fed ((every_run_ask _).mpr (quiet_minor rfl))

theorem quiet_initiateFollow (viewer : Option Viewer) (username targetApId : String) :
  Every Quiet (initiateFollow ext viewer username targetApId).run
  := by
  apply every_run_bind (quiet_requireLocalActor _ _)
  intro localActor
  apply every_run_bind (quiet_resolveActor ext _)
  intro remoteActor
  apply every_run_bind
  · apply every_fed
    apply Federation.every_sql
    rintro follow hfollow
    cases hfollow
    rfl
  · intro _
    apply every_run_bind quiet_utcNow
    intro now
    apply every_run_bind (quiet_fed rfl)
    intro _
    apply every_run_pure

theorem quiet_acceptPendingFollow (viewer : Option Viewer) (username : String)
    (followerId : Uuid) :
  Every Quiet (acceptPendingFollow viewer username followerId).run
  := by
  apply every_run_bind (quiet_requireLocalActor _ _)
  intro localActor
  apply every_run_bind ((every_run_ask _).mpr trivial)
  intro row
  apply every_run_bind (every_okOr _ _)
  rintro ⟨accepted, followApId⟩
  dsimp only
  split
  · apply every_run_pure
  · apply every_run_bind (quiet_findById _)
    intro follower
    apply every_run_bind (quiet_fed rfl)
    intro _
    apply every_run_bind quiet_utcNow
    intro now
    apply every_run_bind (quiet_fed rfl)
    intro _
    apply every_run_pure

theorem quiet_rejectPendingFollow (viewer : Option Viewer) (username : String)
    (followerId : Uuid) :
  Every Quiet (rejectPendingFollow viewer username followerId).run
  := by
  apply every_run_bind (quiet_requireLocalActor _ _)
  intro localActor
  apply every_run_bind ((every_run_ask _).mpr trivial)
  intro row
  apply every_run_bind (every_okOr _ _)
  intro followApId
  apply every_run_bind (quiet_findById _)
  intro follower
  apply every_run_bind (quiet_fed rfl)
  intro _
  apply every_run_bind quiet_utcNow
  intro now
  apply every_run_bind (quiet_fed rfl)
  intro _
  apply every_run_pure

theorem quiet_createBlock (viewer : Option Viewer) (username targetApId : String) :
  Every Quiet (createBlock ext viewer username targetApId).run
  := by
  have hundo : ∀ localActor target apId,
      Every Quiet (undoOutboundFollow localActor target apId).run := by
    intro localActor target apId
    cases apId with
    | none => apply every_run_pure
    | some followApId =>
        apply every_run_bind quiet_utcNow
        intro now
        apply quiet_fed rfl
  apply every_run_bind (quiet_requireLocalActor _ _)
  intro localActor
  apply every_run_bind (quiet_resolveActor ext _)
  intro target
  apply every_run_bind (quiet_fed rfl)
  intro _
  apply every_run_bind ((every_run_ask _).mpr trivial)
  intro outboundFollowApId
  apply every_run_bind (quiet_fed rfl)
  intro _
  apply every_run_bind (quiet_fed rfl)
  intro _
  apply every_run_bind quiet_utcNow
  intro now
  apply every_run_bind (quiet_fed rfl)
  intro _
  apply every_run_bind (hundo _ _ _)
  intro _
  apply every_run_pure

theorem quiet_deleteBlock (viewer : Option Viewer) (username targetApId : String) :
  Every Quiet (deleteBlock viewer username targetApId).run
  := by
  apply every_run_bind (quiet_requireLocalActor _ _)
  intro localActor
  apply every_run_bind (quiet_fed rfl)
  intro row
  apply every_run_bind (every_okOr _ _)
  intro target
  apply every_run_bind (quiet_fed rfl)
  intro _
  apply every_run_bind quiet_utcNow
  intro now
  apply every_run_bind (quiet_fed rfl)
  intro _
  apply every_run_pure

end Quiet

theorem wp_quiet {α : Type} {p : Program Routes α} (h : Every Quiet p) {db : Db}
    (hdb : db.NamedFollowsLocal) :
  wp apiWorld (Always apiWorld) (fun _ db' => db'.NamedFollowsLocal) p db
  := by
  apply Every.wp_inv (fun db : Db => db.NamedFollowsLocal) _ h hdb
  intro q hq c db' _ hdb'
  apply hq.exec hdb'

/-- Whatever is called, only the follows of local actors have identifiers. -/
theorem wp_followCall (call : FollowCall) {db : Db} (hdb : db.NamedFollowsLocal) :
  wp apiWorld (Always apiWorld) (fun _ db' => db'.NamedFollowsLocal) (call.route ext config).run db
  := by
  cases call with
  | delivered verifiedActor document activity =>
      apply wp_run_bind_inv
      · apply wp_embed federationPart (C := Always fedWorld) fun _ _ _ _ => trivial
        apply Federation.wp_processActivity_named ext config _ _ _ hdb
      · intro _ db' hdb'
        rw [wp_run_pure]
        exact hdb'
  | initiateFollow => apply wp_quiet (quiet_initiateFollow ext _ _ _) hdb
  | acceptPendingFollow => apply wp_quiet (quiet_acceptPendingFollow _ _ _) hdb
  | rejectPendingFollow => apply wp_quiet (quiet_rejectPendingFollow _ _ _) hdb
  | createBlock => apply wp_quiet (quiet_createBlock ext _ _ _) hdb
  | deleteBlock => apply wp_quiet (quiet_deleteBlock _ _ _) hdb

/-! ### Blocking a remote actor -/

/-- The one actor follows the other, accepted or not. -/
def Follows (db : Federation.Db) (followerId followingId : Uuid) : Prop :=
  ∃ f ∈ db.follows, f.followerId = followerId ∧ f.followingId = followingId

instance (db : Federation.Db) (followerId followingId : Uuid) :
    Decidable (Follows db followerId followingId) :=
  inferInstanceAs (Decidable (∃ f ∈ db.follows, _))

/-- The activity is the follow of one actor by another, under the given identifier. -/
def IsFollow (payload : Json) (followId follower following : String) : Prop :=
  payload.getStr "type" = some "Follow" ∧ payload.getStr "id" = some followId ∧
    payload.getStr "actor" = some follower ∧ payload.getStr "object" = some following

instance (payload : Json) (followId follower following : String) :
    Decidable (IsFollow payload followId follower following) :=
  inferInstanceAs (Decidable (_ ∧ _ ∧ _ ∧ _))

/-- The activity undoes the follow with the given identifier. -/
def IsUndo (payload : Json) (followId : String) : Prop :=
  payload.getStr "type" = some "Undo" ∧ ∃ object, payload.get "object" = some object ∧
    object.getStr "type" = some "Follow" ∧ object.getStr "id" = some followId

/-- If the follow of `r` by `l` is dropped, then an activity is queued for the inbox of `r` that
undoes the follow which was queued for it before. -/
def TakenBack (l r : Actor) (db db' : Federation.Db) : Prop :=
  Follows db l.id r.id → ¬ Follows db' l.id r.id →
    ∃ new, db'.deliveryQueue = db.deliveryQueue ++ new ∧
      ∃ followId, ∃ d ∈ new, IsUndo d.payload followId ∧ d.targetInbox = r.inboxOr r.apId ∧
        ∃ sent ∈ db.deliveryQueue, IsFollow sent.payload followId l.apId r.apId ∧
          sent.targetInbox = r.inboxOr r.apId

/-- The actors are as before, and what has been queued since undoes nothing. -/
structure Undoing (db db' : Federation.Db) : Prop where
  core : db'.toCore = db.toCore
  queue : ∃ new, db'.deliveryQueue = db.deliveryQueue ++ new ∧
    ∀ d ∈ new, d.payload.getStr "type" ≠ some "Undo"

section Undoing

variable {db db' db'' : Federation.Db} {l r : Actor}

theorem Undoing.refl (db : Federation.Db) :
  Undoing db db
  := by
  constructor
  · rfl
  · use []
    simp

/-- What does not touch the actors or the queue goes on as before. -/
theorem Undoing.trans_eq (h : Undoing db db') (hcore : db''.toCore = db'.toCore)
    (hqueue : db''.deliveryQueue = db'.deliveryQueue) :
  Undoing db db''
  := by
  constructor
  · rw [hcore, h.core]
  · rw [hqueue]
    exact h.queue

theorem Undoing.not_takenBack (h : Undoing db db') (hfollows : Follows db l.id r.id)
    (hdropped : ¬ Follows db' l.id r.id) :
  ¬ TakenBack l r db db'
  := by
  intro htaken
  obtain ⟨new, hnew, followId, d, hd, hundo, _⟩ := htaken hfollows hdropped
  obtain ⟨new', hnew', hnone⟩ := h.queue
  have heq : new = new' := List.append_cancel_left (hnew.symm.trans hnew')
  rw [heq] at hd
  exact hnone d hd hundo.1

/-- An activity of another kind is queued, or refused. -/
theorem Undoing.enqueue (h : Undoing db db') {d : Delivery}
    (hd : d.payload.getStr "type" ≠ some "Undo") :
  Undoing db (db'.enqueueDelivery d).2
  := by
  rw [Federation.Db.enqueueDelivery]
  split
  · obtain ⟨new, hnew, hnone⟩ := h.queue
    refine ⟨h.core, new ++ [d], ?_, ?_⟩
    · rw [hnew, List.append_assoc]
    · intro d' hd'
      obtain hd' | hd' := List.mem_append.mp hd'
      · exact hnone d' hd'
      · rw [List.mem_singleton.mp hd']
        exact hd
  · exact h

theorem enqueueDelivery_follows (db : Federation.Db) (d : Delivery) :
  (db.enqueueDelivery d).2.follows = db.follows
  := by
  rw [Federation.Db.enqueueDelivery]
  split
  · rfl
  · rfl

theorem blockActivity_type (blockId localApId targetApId : String) :
  (blockActivity blockId localApId targetApId).getStr "type" = some "Block"
  := rfl

/-- The follow of a remote actor has no identifier. -/
theorem followApId_remote (hdb : db.NamedFollowsLocal) (hr : r ∈ db.actors)
    (hremote : r.isLocal = false) {f : Federation.Follow} (hf : f ∈ db.follows)
    (hfollowing : f.followingId = r.id) :
  f.apId = none
  := by
  obtain hnone | ⟨a, ha, hid, hlocal⟩ := hdb f hf
  · exact hnone
  · have hsame : a = r := Federation.Core.actor_eq_of_id ha hr (hid.trans hfollowing)
    rw [hsame, hremote] at hlocal
    cases hlocal

end Undoing

section Blocking

variable {ext : External} {db : Db} {l r : Actor}

/-- A block of a remote actor undoes nothing at its instance; and if it is done, the actor is
followed no longer. -/
theorem wp_createBlock (viewer : Option Viewer) {username : String}
    (hdb : db.NamedFollowsLocal)
    (hl : db.actors.find (fun a => a.username == username && a.isLocal) = some l)
    (hr : r ∈ db.actors) (hremote : r.isLocal = false) :
  wp apiWorld (Always apiWorld)
    (fun result db' => Undoing db.toDb db'.toDb ∧
      (result = .ok .CREATED → ¬ Follows db'.toDb l.id r.id))
    (createBlock ext viewer username r.apId).run db
  := by
  have hfailed : ∀ (e : NoombatError) (db' : Federation.Db), Undoing db.toDb db' →
      Undoing db.toDb db' ∧
        ((.error e : Except NoombatError StatusCode) = .ok .CREATED → ¬ Follows db' l.id r.id) := by
    intro e db' hdb'
    constructor
    · exact hdb'
    · intro hok
      cases hok
  rw [createBlock, wp_run_bind]
  apply wp_mono _ (wp_requireLocalActor viewer username)
  rintro (e | localActor) db₁ hfound
  · rw [onExcept_error] at hfound ⊢
    rw [hfound]
    exact hfailed e _ (.refl _)
  obtain ⟨hdb₁, hfind⟩ := hfound
  obtain rfl : l = localActor := Option.some.inj (hl.symm.trans hfind)
  rw [onExcept_ok, wp_run_bind]
  have hknown : db₁.toDb.Knows r.id r.apId := by
    rw [hdb₁]
    exact ⟨r, hr, rfl, rfl⟩
  apply wp_mono _ (wp_fed (Federation.wp_resolveActor_known hknown))
  rintro (e | target) db₂ hresolved
  · rw [onExcept_error] at hresolved ⊢
    rw [hresolved, hdb₁]
    exact hfailed e _ (.refl _)
  obtain ⟨hdb₂, htarget⟩ := hresolved
  have hstart : db₂.toDb = db.toDb := hdb₂.trans hdb₁
  -- the block is inserted, which leaves the follows and the queue as they are
  have hinsert : wp fedWorld (Always fedWorld)
      (fun _ fdb => Undoing db.toDb fdb ∧ fdb.follows = db.follows)
      (Federation.Repo.insertBlock ⟨l.id, target.id⟩).run db₂.toDb := by
    rw [hstart]
    apply Federation.wp_sql (.insertBlock ⟨l.id, target.id⟩)
    · intro e
      exact ⟨.refl _, rfl⟩
    · intro c _
      rw [Federation.Sql.exec, Federation.Db.insertBlock]
      split_ifs
      · exact ⟨.refl _, rfl⟩
      · exact ⟨(Undoing.refl _).trans_eq rfl rfl, rfl⟩
      · exact ⟨.refl _, rfl⟩
  rw [onExcept_ok, wp_run_bind]
  apply wp_mono _ (wp_fed hinsert)
  rintro (e | _) db₃ ⟨hundoing₃, hfollows₃⟩
  · exact hfailed e _ hundoing₃
  rw [onExcept_ok, wp_run_bind]
  apply wp_sql (.followApId l.id target.id)
  · intro e
    exact hfailed e _ hundoing₃
  -- the follow has no identifier, as the one who is followed is remote
  have hnone : ((db₃.followBetween l.id target.id).map (·.apId)).join = none := by
    cases hbetween : db₃.followBetween l.id target.id with
    | none => rfl
    | some f =>
        have hmem : f ∈ db.follows := by
          rw [← hfollows₃]
          exact List.mem_of_find?_eq_some hbetween
        have hids := List.find?_some hbetween
        simp only [Bool.and_eq_true, beq_iff_eq] at hids
        exact followApId_remote hdb hr hremote hmem (hids.2.trans htarget)
  dsimp only [ApiSql.exec]
  rw [onExcept_ok, hnone, wp_run_bind]
  -- the follows of either by the other are deleted
  have hdelete : ∀ (a b : Uuid) (fdb : Federation.Db), Undoing db.toDb fdb →
      wp fedWorld (Always fedWorld)
        (fun result fdb' => Undoing db.toDb fdb' ∧
          (result = .ok () → ¬ Follows fdb' a b ∧
            (¬ Follows fdb l.id r.id → ¬ Follows fdb' l.id r.id)))
        (Federation.Repo.deleteFollow a b).run fdb := by
    intro a b fdb hfdb
    apply Federation.wp_sql (.deleteFollow a b)
    · intro e
      exact ⟨hfdb, fun hok => by cases hok⟩
    · intro c _
      refine ⟨hfdb.trans_eq rfl rfl, fun _ => ⟨?_, ?_⟩⟩
      · rintro ⟨f, hf, rfl, rfl⟩
        have hkept := List.of_mem_filter hf
        simp at hkept
      · rintro hnot ⟨f, hf, hids⟩
        exact hnot ⟨f, List.mem_of_mem_filter hf, hids⟩
  apply wp_mono _ (wp_fed (hdelete l.id target.id db₃.toDb hundoing₃))
  rintro (e | _) db₄ ⟨hundoing₄, hdeleted₄⟩
  · exact hfailed e _ hundoing₄
  have hdropped₄ : ¬ Follows db₄.toDb l.id r.id := by
    rw [← htarget]
    exact (hdeleted₄ rfl).1
  rw [onExcept_ok, wp_run_bind]
  apply wp_mono _ (wp_fed (hdelete target.id l.id db₄.toDb hundoing₄))
  rintro (e | _) db₅ ⟨hundoing₅, hdeleted₅⟩
  · exact hfailed e _ hundoing₅
  have hdropped₅ : ¬ Follows db₅.toDb l.id r.id := (hdeleted₅ rfl).2 hdropped₄
  rw [onExcept_ok, wp_run_bind]
  have hclock : wp fedWorld (Always fedWorld) (fun _ fdb => fdb = db₅.toDb)
      Federation.utcNow.run db₅.toDb := by
    apply (Federation.wp_request FedRequest.utcNow _ _).mpr
    intro now _
    rfl
  apply wp_mono _ (wp_fed hclock)
  rintro (e | now) db₆ hdb₆
  · rw [onExcept_error, hdb₆]
    exact hfailed e _ hundoing₅
  -- what is queued is the block, and nothing else
  have hqueue : wp fedWorld (Always fedWorld)
      (fun _ fdb => Undoing db.toDb fdb ∧ ¬ Follows fdb l.id r.id)
      (Federation.Repo.enqueueDelivery l.id
        (blockActivity s!"{l.apId}#block-{now.timestampMillis}" l.apId target.apId)
        (target.inboxOr target.apId)).run db₆.toDb := by
    rw [hdb₆]
    apply Federation.wp_sql (.enqueueDelivery _)
    · intro e
      exact ⟨hundoing₅, hdropped₅⟩
    · intro c _
      have htype : (blockActivity s!"{l.apId}#block-{now.timestampMillis}" l.apId
          target.apId).getStr "type" ≠ some "Undo" := by
        rw [blockActivity_type]
        decide
      constructor
      · exact hundoing₅.enqueue htype
      · rw [Follows, Federation.Sql.exec, enqueueDelivery_follows]
        exact hdropped₅
  rw [onExcept_ok, wp_run_bind]
  apply wp_mono _ (wp_fed hqueue)
  rintro (e | _) db₇ ⟨hundoing₇, hdropped₇⟩
  · exact hfailed e _ hundoing₇
  rw [onExcept_ok, undoOutboundFollow, wp_run_bind, wp_run_pure, onExcept_ok, wp_run_pure]
  exact ⟨hundoing₇, fun _ => hdropped₇⟩

end Blocking

/-- Whatever has been called before on a database without follows, a block of a remote actor
that is done takes the follow back exactly when there is none; and where it drops the follow,
done or not, it does not take it back. -/
theorem outboundFollow_takenBack_iff {db₀ : Db} (h₀ : db₀.follows = [])
    (history : List (Made apiWorld FollowCall)) (viewer : Option Viewer) (username : String)
    (script : Script apiWorld) {l r : Actor}
    (hl : (afterFollowCalls ext config history db₀).actors.find
      (fun a => a.username == username && a.isLocal) = some l)
    (hr : r ∈ (afterFollowCalls ext config history db₀).actors) (hremote : r.isLocal = false) :
    let db := afterFollowCalls ext config history db₀
    let ended := run apiWorld script (createBlock ext viewer username r.apId).run db
  (ended.1 = .ok .CREATED →
    (TakenBack l r db.toDb ended.2.toDb ↔ ¬ Follows db.toDb l.id r.id)) ∧
  (Follows db.toDb l.id r.id → ¬ Follows ended.2.toDb l.id r.id →
    ¬ TakenBack l r db.toDb ended.2.toDb)
  := by
  intro db ended
  have hstart : db₀.NamedFollowsLocal := by
    intro f hf
    rw [h₀] at hf
    cases hf
  have hdb : db.NamedFollowsLocal :=
    afterCalls_inv (fun db : Db => db.NamedFollowsLocal)
      (fun call db hdb => wp_followCall ext config call hdb) history hstart
  obtain ⟨hundoing, hdone⟩ : Undoing db.toDb ended.2.toDb ∧
      (ended.1 = .ok .CREATED → ¬ Follows ended.2.toDb l.id r.id) :=
    wp_run_always (wp_createBlock viewer hdb hl hr hremote)
  have hdropped : Follows db.toDb l.id r.id → ¬ Follows ended.2.toDb l.id r.id →
      ¬ TakenBack l r db.toDb ended.2.toDb := hundoing.not_takenBack
  constructor
  · intro hok
    constructor
    · intro htaken hfollows
      exact hdropped hfollows (hdone hok) htaken
    · intro hnot hfollows
      exact absurd hfollows hnot
  · exact hdropped

/-! ### A follow that is not undone -/

def robAccepts : Activity where
  context := none
  id := "https://r.ex/accepts/1"
  activityType := "Accept"
  actor := "https://r.ex/u"
  object := .obj [("type", .str "Follow"), ("actor", .str "https://h.ex/users/al"),
    ("object", .str "https://r.ex/u")]
  «to» := none
  cc := none
  published := none
  target := none
  content := none

/-- Al follows Rob, who accepts. -/
def alFollowsRob : List (Made apiWorld FollowCall) :=
  [⟨.initiateFollow (some ⟨2⟩) "al" "https://r.ex/u", undisturbed⟩,
    ⟨.delivered "https://r.ex/u" (.obj []) robAccepts, undisturbed⟩]

/-- The database when Al follows Rob. -/
def alFollowing : Db :=
  afterFollowCalls .plain Federation.homeConfig alFollowsRob
    (.ofFederation Federation.acquaintances)

/-- Al blocks Rob. -/
def alBlocksRob : Except NoombatError StatusCode × Db :=
  run apiWorld undisturbed (createBlock .plain (some ⟨2⟩) "al" "https://r.ex/u").run alFollowing

/-- Al is here, and Rob is known. -/
theorem alFollowing_actors :
  ∃ l r : Actor,
    alFollowing.actors.find (fun a => a.username == "al" && a.isLocal) = some l ∧
      r ∈ alFollowing.actors ∧ r.isLocal = false ∧ l.id = 2 ∧ l.apId = "https://h.ex/users/al" ∧
      r.id = 1 ∧ r.apId = "https://r.ex/u" ∧ r.inboxOr r.apId = "https://r.ex/u/inbox"
  := by
  have hl : ∃ l ∈ alFollowing.actors.find (fun a => a.username == "al" && a.isLocal),
      l.id = 2 ∧ l.apId = "https://h.ex/users/al" := by
    decide +kernel
  have hr : ∃ r ∈ alFollowing.actors.rows, r.isLocal = false ∧ r.id = 1 ∧
      r.apId = "https://r.ex/u" ∧ r.inboxOr r.apId = "https://r.ex/u/inbox" := by
    decide +kernel
  obtain ⟨l, hl, hlid, hlapId⟩ := hl
  obtain ⟨r, hr, hremote, hrest⟩ := hr
  exact ⟨l, r, hl, hr, hremote, hlid, hlapId, hrest⟩

/-- Al's block is done, and drops the follow. -/
theorem alBlocksRob_done :
  alBlocksRob.1 = .ok .CREATED ∧ Follows alFollowing.toDb 2 1 ∧ ¬ Follows alBlocksRob.2.toDb 2 1
  := by
  constructor
  · decide +kernel
  · decide +kernel

/-- Al has asked to follow Rob, who has accepted.  Al then blocks Rob, and the follow is gone
here, but nothing undoes it there. -/
theorem outboundFollow_kept :
  ∃ l r : Actor,
    alFollowing.actors.find (fun a => a.username == "al" && a.isLocal) = some l ∧
      r ∈ alFollowing.actors ∧ r.isLocal = false ∧ r.apId = "https://r.ex/u" ∧
      (∃ sent ∈ alFollowing.deliveryQueue, ∃ followId,
        IsFollow sent.payload followId l.apId r.apId ∧ sent.targetInbox = r.inboxOr r.apId) ∧
      alBlocksRob.1 = .ok .CREATED ∧ ¬ TakenBack l r alFollowing.toDb alBlocksRob.2.toDb
  := by
  have hsent : ∃ sent ∈ alFollowing.deliveryQueue,
      IsFollow sent.payload "https://h.ex/users/al#follow-0" "https://h.ex/users/al"
        "https://r.ex/u" ∧ sent.targetInbox = "https://r.ex/u/inbox" := by
    decide +kernel
  have hnone : ∀ d ∈ alBlocksRob.2.deliveryQueue, d.payload.getStr "type" ≠ some "Undo" := by
    decide +kernel
  obtain ⟨hdone, hfollows, hdropped⟩ := alBlocksRob_done
  obtain ⟨l, r, hl, hr, hremote, hlid, hlapId, hrid, hrapId, hinbox⟩ := alFollowing_actors
  refine ⟨l, r, hl, hr, hremote, hrapId, ?_, hdone, ?_⟩
  · obtain ⟨sent, hsent, hfollow, htarget⟩ := hsent
    refine ⟨sent, hsent, "https://h.ex/users/al#follow-0", ?_, ?_⟩
    · rw [hlapId, hrapId]
      exact hfollow
    · rw [htarget, hinbox]
  · intro htaken
    rw [TakenBack, hlid, hrid] at htaken
    obtain ⟨new, hqueue, followId, d, hd, hundo, _⟩ := htaken hfollows hdropped
    apply hnone d _ hundo.1
    rw [hqueue]
    exact List.mem_append_right _ hd

/-- Al's follow of Rob is not taken back, as it is there. -/
theorem outboundFollow_al :
  ∃ l r : Actor, Follows alFollowing.toDb l.id r.id ∧
    (TakenBack l r alFollowing.toDb alBlocksRob.2.toDb ↔ ¬ Follows alFollowing.toDb l.id r.id)
  := by
  obtain ⟨hdone, hfollows, _⟩ := alBlocksRob_done
  obtain ⟨l, r, hl, hr, hremote, hlid, _, hrid, hrapId, _⟩ := alFollowing_actors
  refine ⟨l, r, ?_, ?_⟩
  · rw [hlid, hrid]
    exact hfollows
  · have hiff := (outboundFollow_takenBack_iff .plain Federation.homeConfig rfl alFollowsRob
      (some ⟨2⟩) "al" undisturbed hl hr hremote).1
    rw [hrapId] at hiff
    exact hiff hdone

end Api
