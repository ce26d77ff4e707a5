import Noombat.Federation.History
import Noombat.Federation.Refresh

/-!
# Following

A remote actor follows a local one, undoes that, and follows again.  A follow is kept with the
identifier of the activity that made it, and one that is there already is not replaced, so
that an `Undo` which names a later activity deletes nothing.  The local actor is found by the
path of its URI alone.
-/

namespace Federation

open Fallible Program

/-! ### The rows between two actors -/

/-- Whether the actor with an identifier is known under a URI. -/
def Core.isKnownAs (core : Core) (id : Uuid) (apId : String) : Bool :=
  core.actors.rows.any fun a => a.id == id && a.apId == apId

theorem Core.isKnownAs_iff {core : Core} {id : Uuid} {apId : String} :
  core.isKnownAs id apId = true ↔ core.Knows id apId
  := by
  simp [Core.isKnownAs, Core.Knows, Table.mem_rows]

/-- The rows by which the actor at one URI follows the one at another. -/
def Db.followsOf (db : Db) (follower following : String) : List Follow :=
  db.follows.filter fun f =>
    db.isKnownAs f.followerId follower && db.isKnownAs f.followingId following

/-- The actor at one URI follows the one at another, accepted or not. -/
def Db.Following (db : Db) (follower following : String) : Prop :=
  ∃ f, f ∈ db.followsOf follower following

/-- Both ends of every follow are known, as the foreign keys of the table demand. -/
def Db.FollowsKnown (db : Db) : Prop :=
  ∀ f ∈ db.follows, (∃ uri, db.Knows f.followerId uri) ∧ ∃ uri, db.Knows f.followingId uri

section Rows

variable {db db' : Db} {follower following : String}

theorem Db.mem_followsOf {f : Follow} :
  f ∈ db.followsOf follower following ↔
    f ∈ db.follows ∧ db.Knows f.followerId follower ∧ db.Knows f.followingId following
  := by
  simp [Db.followsOf, Core.isKnownAs_iff]

theorem Db.FollowsKnown.of_sublist (h : db.FollowsKnown) (hsame : db.SameAccounts db'.toCore)
    (hfollows : ∀ f ∈ db'.follows, ∃ f₀ ∈ db.follows,
      f.followerId = f₀.followerId ∧ f.followingId = f₀.followingId) :
  db'.FollowsKnown
  := by
  intro f hf
  obtain ⟨f₀, hf₀, hfollower, hfollowing⟩ := hfollows f hf
  obtain ⟨⟨uri, hknows⟩, uri', hknows'⟩ := h f₀ hf₀
  rw [hfollower, hfollowing]
  exact ⟨⟨uri, hsame.knows hknows⟩, uri', hsame.knows hknows'⟩

theorem Db.Refreshes.followsKnown (hdb : db.Refreshes db') (h : db.FollowsKnown) :
  db'.FollowsKnown
  := by
  apply h.of_sublist hdb.sameAccounts
  intro f hf
  rw [hdb.follows_eq] at hf
  exact ⟨f, hf, rfl, rfl⟩

/-- An actor that is known is known under no further URI later. -/
theorem Core.SameAccounts.knows_iff {core core' : Core} (hsame : core.SameAccounts core') {id : Uuid}
    {uri apId : String} (h : core.Knows id uri) :
  core'.Knows id apId ↔ core.Knows id apId
  := by
  constructor
  · intro hknows
    rw [hknows.unique (hsame.knows h)]
    exact h
  · exact hsame.knows

/-- As long as the follows are the same, so are those between two actors. -/
theorem Db.FollowsKnown.followsOf_eq (h : db.FollowsKnown) (hsame : db.SameAccounts db'.toCore)
    (hfollows : db'.follows = db.follows) :
  db'.followsOf follower following = db.followsOf follower following
  := by
  rw [Db.followsOf, Db.followsOf, hfollows]
  apply List.filter_congr
  intro f hf
  obtain ⟨⟨uri, hknows⟩, uri', hknows'⟩ := h f hf
  rw [Bool.eq_iff_iff, Bool.and_eq_true, Bool.and_eq_true]
  simp only [Core.isKnownAs_iff, hsame.knows_iff hknows, hsame.knows_iff hknows']

/-- Refreshing the database changes no follow. -/
theorem Db.Refreshes.followsOf_eq (hdb : db.Refreshes db') (h : db.FollowsKnown) :
  db'.followsOf follower following = db.followsOf follower following
  := h.followsOf_eq hdb.sameAccounts hdb.follows_eq

theorem Db.Refreshes.following_iff (hdb : db.Refreshes db') (h : db.FollowsKnown) :
  db'.Following follower following ↔ db.Following follower following
  := by
  rw [Db.Following, Db.Following, hdb.followsOf_eq h]

end Rows

/-! ### The statements on follows -/

section Statements

variable {db db' : Db} {r l : Uuid} {follower following : String}

theorem Core.Knows.hasActor {id : Uuid} {apId : String} (h : db.Knows id apId) :
  db.hasActor id = true
  := by
  obtain ⟨a, ha, hid, _⟩ := h
  exact List.any_eq_true.mpr ⟨a, ha, by simp [hid]⟩

/-- A follow between known actors is inserted, or is there already. -/
theorem Db.insertFollow_spec (db : Db) (follow : Follow) (hfollower : db.Knows follow.followerId follower)
    (hfollowing : db.Knows follow.followingId following) :
  (db.insertFollow follow).1 = .ok () ∧
    (db.insertFollow follow).2.toCore = db.toCore ∧
    (∃ f ∈ (db.insertFollow follow).2.follows,
      f.followerId = follow.followerId ∧ f.followingId = follow.followingId) ∧
    (∀ f ∈ (db.insertFollow follow).2.follows, f = follow ∨ f ∈ db.follows)
  := by
  rw [Db.insertFollow]
  split
  · rename_i hthere
    obtain ⟨f, hf, hsame⟩ := List.any_eq_true.mp hthere
    simp only [Bool.and_eq_true, beq_iff_eq] at hsame
    exact ⟨rfl, rfl, ⟨f, hf, hsame⟩, fun f hf => .inr hf⟩
  · rw [if_pos (by simp [hfollower.hasActor, hfollowing.hasActor])]
    exact ⟨rfl, rfl, ⟨follow, List.mem_cons_self, rfl, rfl⟩, fun f hf => List.mem_cons.mp hf⟩

/-- After a follow is inserted, it is there. -/
theorem Db.insertFollow_following (follow : Follow)
    (hfollower : db.Knows follow.followerId follower)
    (hfollowing : db.Knows follow.followingId following) (h : db.FollowsKnown) :
  (db.insertFollow follow).2.Following follower following ∧
    (db.insertFollow follow).2.FollowsKnown
  := by
  obtain ⟨_, hcore, ⟨f, hf, hids⟩, hrows⟩ := db.insertFollow_spec follow hfollower hfollowing
  constructor
  · use f
    rw [Db.mem_followsOf, hcore, hids.1, hids.2]
    exact ⟨hf, hfollower, hfollowing⟩
  · intro f hf
    rw [hcore]
    obtain rfl | hf := hrows f hf
    · exact ⟨⟨follower, hfollower⟩, following, hfollowing⟩
    · exact h f hf

/-- Recording a follow between known actors. -/
theorem wp_createFollow {C : Condition fedWorld} (accepted : Bool) (apId : Option String)
    (hfollower : db.Knows r follower) (hfollowing : db.Knows l following) (h : db.FollowsKnown) :
  wp fedWorld C
    (onExcept
      (fun _ db' => db'.Following follower following ∧ db'.FollowsKnown ∧ db'.toCore = db.toCore)
      (fun _ db' => db' = db))
    (Repo.createFollowWithApId r l accepted apId).run db
  := by
  apply wp_sql (.insertFollow ⟨r, l, accepted, apId⟩)
  · intro e
    rfl
  intro c _
  obtain ⟨hok, hcore, _⟩ := db.insertFollow_spec ⟨r, l, accepted, apId⟩ hfollower hfollowing
  obtain ⟨hthere, hknown⟩ := Db.insertFollow_following ⟨r, l, accepted, apId⟩
    hfollower hfollowing h
  rw [Sql.exec, hok, onExcept_ok]
  exact ⟨hthere, hknown, hcore⟩

/-- After the follows between two actors are deleted that satisfy `q`, all of them if every
one does, there are none. -/
theorem Db.deleteFollows_following {q : Follow → Bool}
    (hall : ∀ f ∈ db.followsOf follower following, q f = true) :
  ¬ (db.deleteFollows q).Following follower following
  := by
  rintro ⟨f, hf⟩
  obtain ⟨hf, hknows⟩ := Db.mem_followsOf.mp hf
  obtain ⟨hmem, hkept⟩ := List.mem_filter.mp hf
  rw [hall f (Db.mem_followsOf.mpr ⟨hmem, hknows⟩)] at hkept
  cases hkept

theorem Db.FollowsKnown.deleteFollows {q : Follow → Bool} (h : db.FollowsKnown) :
  (db.deleteFollows q).FollowsKnown
  := by
  intro f hf
  exact h f (List.mem_of_mem_filter hf)

end Statements

/-! ### The envelope -/

/-- An activity that is processed is dispatched at a refreshed database, or ends in an error at
one. -/
theorem wp_processActivity {ext : External} {config : Config} {C : Condition fedWorld}
    {Post : Except NoombatError Unit → Db → Prop} {db : Db} (verifiedActor : String)
    (document : Json) (activity : Activity)
    (herror : ∀ e db₁, db.Refreshes db₁ → Post (.error e) db₁)
    (hdispatch : ∀ db₁, db.Refreshes db₁ →
      wp fedWorld C Post (dispatch ext config activity).run db₁) :
  wp fedWorld C Post (processActivity ext config verifiedActor document activity).run db
  := by
  rw [processActivity]
  split
  · rw [wp_run_bind]
    apply wp_mono _ (wp_consulting (consulting_verifyInboundProof document activity.actor) db)
    rintro (e | verdict) db₁ hdb₁
    · exact herror e db₁ hdb₁
    rw [onExcept_ok]
    split
    · rw [wp_run_throw]
      exact herror _ db₁ hdb₁
    · exact hdispatch db₁ hdb₁
    · exact hdispatch db₁ hdb₁
  · rw [wp_run_throw]
    exact herror _ db (Db.Refreshes.refl db)

/-! ### Follow and Undo of a local actor -/

/-- An activity of one actor that follows another, or that undoes such an activity: one that
it embeds, or one that it names by its identifier. -/
inductive Concerns (follower following : String) (activity : Activity) : Prop where
  | follow : activity.actor = follower → activity.activityType = "Follow" →
      activity.object = .str following → Concerns follower following activity
  | undo : activity.actor = follower → activity.activityType = "Undo" →
      activity.object.getStr "type" = some "Follow" →
      activity.object.getStr "object" = some following → Concerns follower following activity
  | undoNamed (followId : String) : activity.actor = follower → activity.activityType = "Undo" →
      activity.object = .str followId → Concerns follower following activity

/-- An `Undo` embeds a follow, without an identifier or with the one that is stored. -/
def Undoes (activity : Activity) (f : Follow) : Prop :=
  activity.object.getStr "type" = some "Follow" ∧
    (activity.object.getStr "id" = none ∨ activity.object.getStr "id" = f.apId)

instance (activity : Activity) (f : Follow) : Decidable (Undoes activity f) :=
  inferInstanceAs (Decidable (_ ∧ _))

/-- Where an activity undoes a follow, it undoes the rows that are there. -/
def Reversible (follower following : String) (activity : Activity) (db : Db) : Prop :=
  activity.activityType = "Undo" → ∀ f ∈ db.followsOf follower following, Undoes activity f

instance (follower following : String) (activity : Activity) (db : Db) :
    Decidable (Reversible follower following activity db) :=
  inferInstanceAs (Decidable (_ → _))

/-- The actor documents that are served for the URI of the follower claim it, and the answer
to a follow can be queued. -/
def Answerable (ext : External) (follower : String) : Condition fedWorld :=
  fun q c db => ClaimsItself ext follower q c db ∧
    match q, c with
    | .sql (.enqueueDelivery _), c => c.error = none
    | _, _ => True

section Handlers

variable {ext : External} {config : Config} {C : Condition fedWorld} {db : Db} {l : Uuid}
  {follower following username : String}
  (hC : ∀ q c db, C q c db → Answerable ext follower q c db)
  (hl : db.Account l following username)

include hC hl

/-- The follower and the local actor of an activity that names the latter. -/
theorem wp_followEnds {β : Type} {Post : Except NoombatError β → Db → Prop}
    {k : Actor → Actor → Handler β}
    (herror : ∀ e db₁, db.Refreshes db₁ → Post (.error e) db₁)
    (hk : ∀ (remoteActor localActor : Actor) (db₁ : Db), db.Refreshes db₁ →
      db₁.Knows remoteActor.id follower → db₁.Account l following username →
      localActor.id = l → wp fedWorld C Post (k remoteActor localActor).run db₁) :
  wp fedWorld C Post
    (do
      let remoteActor ← resolveActor ext follower
      let localActor ← Repo.findLocalByUsername username
      k remoteActor localActor).run db
  := by
  rw [wp_run_bind]
  apply wp_mono _ (wp_resolveActor_self (fun q c db hc => (hC q c db hc).1) db)
  rintro (e | remoteActor) db₁ hresolved
  · exact herror e db₁ hresolved
  obtain ⟨hdb₁, hknows, _⟩ := hresolved
  rw [onExcept_ok, wp_run_bind]
  apply wp_mono _ (wp_findLocalByUsername username db₁)
  rintro (e | localActor) db₂ hfound
  · rw [hfound]
    exact herror e db₁ hdb₁
  · obtain ⟨hsame, hhouses⟩ := hfound
    rw [hsame]
    have hl₁ := hl.same hdb₁.sameAccounts
    exact hk remoteActor localActor db₁ hdb₁ hknows hl₁ (hl₁.only _ _ hhouses)

/-- A follow that is processed without an error is there afterwards. -/
theorem wp_handleFollow {activity : Activity} (hdb : db.FollowsKnown)
    (hactor : activity.actor = follower) (hobject : activity.object = .str following) :
  wp fedWorld C
    (onExcept
      (fun _ db' => db'.Following follower following ∧ db'.FollowsKnown ∧
        db.SameAccounts db'.toCore)
      (fun _ db' => db.Refreshes db'))
    (handleFollow ext activity).run db
  := by
  have htarget : activity.object.asStr = some following := by
    rw [hobject]
    rfl
  rw [handleFollow, htarget, wp_run_bind, wp_okOr, Option.elim, onExcept_ok, hl.named,
    wp_run_bind, wp_okOr, Option.elim, onExcept_ok, hactor]
  apply wp_followEnds hC hl
  · intro e db₁ hdb₁
    exact hdb₁
  intro remoteActor localActor db₁ hdb₁ hknows hl₁ hid
  have hlocal : db₁.Knows localActor.id following := by
    rw [hid]
    exact hl₁.known.knows
  rw [wp_run_bind]
  apply wp_mono _ (wp_createFollow _ _ hknows hlocal (hdb₁.followsKnown hdb))
  rintro (e | _) db₂ hcreated
  · rw [onExcept_error] at hcreated ⊢
    rw [hcreated]
    exact hdb₁
  obtain ⟨hfollowing, hknown, hcore⟩ := hcreated
  have hdone : db₂.Following follower following ∧ db₂.FollowsKnown ∧
      db.SameAccounts db₂.toCore := by
    rw [hcore]
    exact ⟨hfollowing, hknown, hdb₁.sameAccounts⟩
  rw [onExcept_ok]
  split
  · rw [wp_run_bind]
    apply wp_utcNow
    intro now
    apply (wp_request (.sql (.enqueueDelivery _)) _ _).mpr
    intro c hc
    have hqueued : c.error = none := (hC _ _ _ hc).2
    have hknows : db₂.Knows localActor.id following := by
      rw [hcore]
      exact hlocal
    have hhas := hknows.hasActor
    simp only [fedWorld, hqueued, Sql.exec, Db.enqueueDelivery]
    rw [if_pos hhas]
    exact hdone
  · rw [wp_run_pure]
    exact hdone

/-- An `Undo` of a follow that is processed without an error leaves no follow, if it undoes
the rows that are there. -/
theorem wp_handleUndo {activity : Activity} (hdb : db.FollowsKnown)
    (hactor : activity.actor = follower) (htype : activity.object.getStr "type" = some "Follow")
    (htarget : activity.object.getStr "object" = some following)
    (hundoes : ∀ f ∈ db.followsOf follower following, Undoes activity f) :
  wp fedWorld C
    (onExcept
      (fun _ db' => ¬ db'.Following follower following ∧ db'.FollowsKnown ∧
        db.SameAccounts db'.toCore)
      (fun _ db' => db.Refreshes db'))
    (handleUndo ext activity).run db
  := by
  rw [handleUndo, htype]
  simp only [Option.getD_some]
  rw [undoFollow, htarget, wp_run_bind, wp_okOr, Option.elim, onExcept_ok, hl.named,
    wp_run_bind, wp_okOr, Option.elim, onExcept_ok, hactor]
  apply wp_followEnds hC hl
  · intro e db₁ hdb₁
    exact hdb₁
  intro remoteActor localActor db₁ hdb₁ hknows hl₁ hid
  have hlocal : db₁.Knows localActor.id following := by
    rw [hid]
    exact hl₁.known.knows
  have hrow : ∀ f ∈ db₁.followsOf follower following,
      f.followerId = remoteActor.id ∧ f.followingId = localActor.id ∧ Undoes activity f := by
    intro f hf
    obtain ⟨_, hfollower, hfollowing⟩ := Db.mem_followsOf.mp hf
    rw [hdb₁.followsOf_eq hdb] at hf
    exact ⟨hfollower.id_eq hknows, hfollowing.id_eq hlocal, hundoes f hf⟩
  split
  · rename_i followId hnamed
    apply wp_sql (.deleteFollowByApId remoteActor.id localActor.id followId)
    · intro e
      exact hdb₁
    intro c _
    rw [Sql.exec, onExcept_ok]
    refine ⟨?_, (hdb₁.followsKnown hdb).deleteFollows, hdb₁.sameAccounts⟩
    apply Db.deleteFollows_following
    intro f hf
    obtain ⟨hfollower, hfollowing, _, hid⟩ := hrow f hf
    rw [hnamed] at hid
    have hstored : f.apId = some followId := (hid.resolve_left (by simp)).symm
    simp [hfollower, hfollowing, hstored]
  · apply wp_sql (.deleteFollow remoteActor.id localActor.id)
    · intro e
      exact hdb₁
    intro c _
    rw [Sql.exec, onExcept_ok]
    refine ⟨?_, (hdb₁.followsKnown hdb).deleteFollows, hdb₁.sameAccounts⟩
    apply Db.deleteFollows_following
    intro f hf
    obtain ⟨hfollower, hfollowing, _⟩ := hrow f hf
    simp [hfollower, hfollowing]

/-- What an activity that concerns a follow comes to: a follow is there after a `Follow`, and
none after an `Undo`. -/
theorem wp_processActivity_concerns (config : Config) (verifiedActor : String) (document : Json)
    {activity : Activity} (hdb : db.FollowsKnown) (h : Concerns follower following activity)
    (hreversible : Reversible follower following activity db) :
  wp fedWorld C
    (onExcept
      (fun _ db' => (db'.Following follower following ↔ activity.activityType = "Follow") ∧
        db'.FollowsKnown ∧ db.SameAccounts db'.toCore)
      (fun _ db' => db.Refreshes db'))
    (processActivity ext config verifiedActor document activity).run db
  := by
  apply wp_processActivity
  · intro e db₁ hdb₁
    exact hdb₁
  intro db₁ hdb₁
  have hl₁ := hl.same hdb₁.sameAccounts
  have hknown₁ := hdb₁.followsKnown hdb
  cases h with
  | follow hactor htype hobject =>
      rw [dispatch, htype]
      apply wp_mono _ (wp_handleFollow hC hl₁ hknown₁ hactor hobject)
      rintro (e | _) db₂ hfollow
      · exact hdb₁.trans hfollow
      · obtain ⟨hfollowing, hknown, hsame⟩ := hfollow
        exact ⟨by simp [hfollowing], hknown, hdb₁.sameAccounts.trans hsame⟩
  | undo hactor htype hinner htarget =>
      rw [dispatch, htype]
      have hundoes : ∀ f ∈ db₁.followsOf follower following, Undoes activity f := by
        rw [hdb₁.followsOf_eq hdb]
        exact hreversible htype
      apply wp_mono _ (wp_handleUndo hC hl₁ hknown₁ hactor hinner htarget hundoes)
      rintro (e | _) db₂ hundo
      · exact hdb₁.trans hundo
      · obtain ⟨hfollowing, hknown, hsame⟩ := hundo
        exact ⟨by simp [hfollowing], hknown, hdb₁.sameAccounts.trans hsame⟩
  | undoNamed followId hactor htype hobject =>
      have hbare : activity.object.getStr "type" = none := by
        rw [hobject]
        rfl
      have hnone : ¬ db₁.Following follower following := by
        rintro ⟨f, hf⟩
        rw [hdb₁.followsOf_eq hdb] at hf
        obtain ⟨hfollow, _⟩ := hreversible htype f hf
        rw [hbare] at hfollow
        cases hfollow
      have hignored : handleUndo ext activity = pure () := by
        rw [handleUndo, hbare]
        rfl
      rw [dispatch, htype]
      simp only
      rw [hignored, wp_run_pure]
      exact ⟨by simp [hnone], hknown₁, hdb₁.sameAccounts⟩

end Handlers

/-! ### Activities about nobody here -/

/-- The URI of the local actor that an activity is about. -/
def Activity.subject (activity : Activity) : Option String :=
  match activity.activityType with
  | "Follow" => activity.object.asStr
  | "Undo" => activity.object.getStr "object"
  | "Block" => objectUri activity.object
  | "Accept" => activity.object.getStr "actor"
  | _ => none

/-- A `Follow`, a `Block`, an `Accept`, or an `Undo` of something else than a reaction. -/
inductive AboutActor (activity : Activity) : Prop where
  | follow : activity.activityType = "Follow" → AboutActor activity
  | undo : activity.activityType = "Undo" → activity.object.getStr "type" ≠ some "Like" →
      activity.object.getStr "type" ≠ some "Announce" → AboutActor activity
  | block : activity.activityType = "Block" → AboutActor activity
  | accept : activity.activityType = "Accept" → AboutActor activity

/-- No local actor has the username that the URI of an activity's subject ends in. -/
def AboutNobody (activity : Activity) (db : Db) : Prop :=
  ∀ uri username, activity.subject = some uri → extractLocalUsername uri = some username →
    ∀ id apId, ¬ db.Houses id apId username

/-- A local actor is found by the URI of an activity's subject only if this is its own. -/
def NamesItsSubject (activity : Activity) (db : Db) : Prop :=
  ∀ uri username, activity.subject = some uri → extractLocalUsername uri = some username →
    ∀ id apId, db.Houses id apId username → apId = uri

section Nobody

variable {ext : External} {C : Condition fedWorld} {db : Db} {activity : Activity}

theorem AboutNobody.refreshes {db' : Db} (h : AboutNobody activity db) (hdb : db.Refreshes db') :
  AboutNobody activity db'
  := by
  intro uri username hsubject hnamed id apId hhouses
  rw [hdb.sameAccounts.houses] at hhouses
  exact h uri username hsubject hnamed id apId hhouses

theorem wp_findLocalByUsername_nobody {username : String}
    (hnobody : ∀ id apId, ¬ db.Houses id apId username) :
  wp fedWorld C (onExcept (fun _ _ => False) (fun _ db' => db' = db))
    (Repo.findLocalByUsername username).run db
  := by
  apply wp_mono _ (wp_findLocalByUsername username db)
  rintro (e | a) db' hfound
  · exact hfound
  · exact hnobody _ _ hfound.2

/-- A handler that resolves the actor of an activity and then looks up a local one who is not
there stops. -/
theorem wp_resolve_nobody {β : Type} {username : String} {k : Actor → Actor → Handler β}
    (uri : String) (hnobody : ∀ id apId, ¬ db.Houses id apId username) :
  wp fedWorld C (fun _ db' => db.Refreshes db')
    (do
      let remoteActor ← resolveActor ext uri
      let localActor ← Repo.findLocalByUsername username
      k remoteActor localActor).run db
  := by
  rw [wp_run_bind]
  apply wp_mono _ (wp_consulting (consulting_resolveActor uri) db)
  rintro (e | remoteActor) db₁ hdb₁
  · exact hdb₁
  rw [onExcept_ok, wp_run_bind]
  have hnobody₁ : ∀ id apId, ¬ db₁.Houses id apId username := by
    intro id apId hhouses
    rw [hdb₁.sameAccounts.houses] at hhouses
    exact hnobody id apId hhouses
  apply wp_mono _ (wp_findLocalByUsername_nobody hnobody₁)
  rintro (e | a) db₂ hfound
  · rw [onExcept_error] at hfound ⊢
    rw [hfound]
    exact hdb₁
  · cases hfound

/-- A handler that reads the URI of a local actor, who is not there, stops. -/
theorem wp_subject_nobody {β : Type} {missing cannotParse : NoombatError} {target : Option String}
    {k : Actor → Actor → Handler β} (uri : String)
    (hnobody : ∀ targetUri username, target = some targetUri →
      extractLocalUsername targetUri = some username → ∀ id apId, ¬ db.Houses id apId username) :
  wp fedWorld C (fun _ db' => db.Refreshes db')
    (do
      let targetUri ← okOr missing target
      let targetUsername ← okOr cannotParse (extractLocalUsername targetUri)
      let remoteActor ← resolveActor ext uri
      let localActor ← Repo.findLocalByUsername targetUsername
      k remoteActor localActor).run db
  := by
  rw [wp_run_bind, wp_okOr]
  cases htarget : target with
  | none => exact Db.Refreshes.refl db
  | some targetUri =>
      rw [Option.elim, onExcept_ok, wp_run_bind, wp_okOr]
      cases hnamed : extractLocalUsername targetUri with
      | none => exact Db.Refreshes.refl db
      | some username =>
          rw [Option.elim, onExcept_ok]
          apply wp_resolve_nobody uri (hnobody targetUri username htarget hnamed)

/-- An actor that no subscription waits for is not taken for a relay. -/
theorem wp_tryHandleRelayAccept_none {actorUri : String}
    (hrelay : db.relays .pending s!"{actorUri}/inbox" actorUri = []) :
  wp fedWorld C (fun r db' => orDefault false r = false ∧ db' = db)
    (tryHandleRelayAccept actorUri).run db
  := by
  rw [tryHandleRelayAccept, wp_run_bind]
  apply wp_sql (.pendingRelay s!"{actorUri}/inbox" actorUri)
  · intro e
    exact ⟨rfl, rfl⟩
  intro c _
  rw [Sql.exec, hrelay, onExcept_ok]
  exact (wp_run_pure _ _ _).mpr ⟨rfl, rfl⟩

/-- The answer to a follow of nobody here, by no relay that a subscription waits for. -/
theorem wp_handleAccept_nobody (htype : activity.activityType = "Accept")
    (hnobody : AboutNobody activity db)
    (hrelay : db.relays .pending s!"{activity.actor}/inbox" activity.actor = []) :
  wp fedWorld C (fun _ db' => db.Refreshes db') (handleAccept ext activity).run db
  := by
  have hsubject : activity.subject = activity.object.getStr "actor" := by
    simp only [Activity.subject, htype]
  rw [handleAccept]
  split
  · rw [wp_run_bind, wp_unwrapOr]
    apply wp_mono _ (wp_tryHandleRelayAccept_none hrelay)
    rintro r db₁ ⟨hr, rfl⟩
    rw [onExcept_ok, hr, if_neg Bool.false_ne_true, answeredFollow, wp_run_bind, wp_run_bind,
      wp_okOr, ← hsubject]
    cases htarget : activity.subject with
    | none => exact Db.Refreshes.refl db₁
    | some followerUri =>
        rw [Option.elim, onExcept_ok, wp_run_bind, wp_okOr]
        cases hnamed : extractLocalUsername followerUri with
        | none => exact Db.Refreshes.refl db₁
        | some username =>
            rw [Option.elim, onExcept_ok, wp_run_bind]
            apply wp_mono _ (wp_findLocalByUsername_nobody
              (hnobody followerUri username htarget hnamed))
            rintro (e | a) db₂ hfound
            · rw [onExcept_error] at hfound
              rw [hfound]
              exact Db.Refreshes.refl db₁
            · cases hfound
  · rw [wp_run_pure]
    exact Db.Refreshes.refl db

/-- An activity about an actor who is not here changes no more than the cached remote
actors. -/
theorem wp_processActivity_nobody (config : Config) (verifiedActor : String) (document : Json)
    (h : AboutActor activity) (hnobody : AboutNobody activity db)
    (hrelay : activity.activityType = "Accept" →
      db.relays .pending s!"{activity.actor}/inbox" activity.actor = []) :
  wp fedWorld C (fun _ db' => db.Refreshes db')
    (processActivity ext config verifiedActor document activity).run db
  := by
  apply wp_processActivity
  · intro e db₁ hdb₁
    exact hdb₁
  intro db₁ hdb₁
  have hrefreshes : wp fedWorld C (fun _ db' => db₁.Refreshes db')
      (dispatch ext config activity).run db₁ := by
    have hnobody₁ := hnobody.refreshes hdb₁
    have hsubject := hnobody₁
    rw [AboutNobody] at hsubject
    cases h with
    | follow htype =>
        rw [Activity.subject, htype] at hsubject
        rw [dispatch, htype]
        apply wp_subject_nobody _ hsubject
    | undo htype hlike hannounce =>
        rw [Activity.subject, htype] at hsubject
        rw [dispatch, htype]
        simp only
        rw [handleUndo]
        split
        · apply wp_subject_nobody _ hsubject
        · rename_i hinner
          exact absurd ((Option.getD_eq_iff.mp hinner).resolve_right (by simp)) hlike
        · rename_i hinner
          exact absurd ((Option.getD_eq_iff.mp hinner).resolve_right (by simp)) hannounce
        · apply wp_subject_nobody _ hsubject
        · rw [wp_run_pure]
          apply Db.Refreshes.refl
    | block htype =>
        rw [Activity.subject, htype] at hsubject
        rw [dispatch, htype]
        apply wp_subject_nobody _ hsubject
    | accept htype =>
        have hrelay₁ : db₁.relays .pending s!"{activity.actor}/inbox" activity.actor = [] := by
          rw [Db.relays, hdb₁.relaySubscriptions_eq]
          exact hrelay htype
        rw [dispatch, htype]
        apply wp_handleAccept_nobody htype hnobody₁ hrelay₁
  apply wp_mono _ hrefreshes
  intro _ db₂ hdb₂
  exact hdb₁.trans hdb₂

end Nobody

/-! ### Histories of follows -/

/-- The activity that an event delivers. -/
def Event.activity : Event → Option Activity
  | .delivered _ _ activity => some activity
  | .posted _ => none

/-- An `Undo` undoes the rows that are there, the documents served for the follower claim its
URI, and the answer to a follow can be queued. -/
structure Occurrence.Regular (ext : External) (config : Config) (follower following : String)
    (o : Occurrence) (db : Db) : Prop where
  reversible : ∀ activity ∈ o.event.activity, Reversible follower following activity db
  answerable : Along fedWorld (Answerable ext follower) o.script (o.event.handle ext config).run db

section Histories

variable {ext : External} {config : Config} {db : Db} {l : Uuid}
  {follower following username : String}

/-- A processed event that concerns a follow decides whether it is there; one that is not
processed leaves it as it was. -/
theorem Occurrence.after_concerns {o : Occurrence} {activity : Activity} (hdb : db.FollowsKnown)
    (hl : db.Account l following username) (hactivity : o.event.activity = some activity)
    (h : Concerns follower following activity)
    (hregular : o.Regular ext config follower following db) :
  (o.after ext config db).FollowsKnown ∧ (o.after ext config db).Account l following username ∧
    (o.Processed ext config db →
      ((o.after ext config db).Following follower following ↔ activity.activityType = "Follow")) ∧
    (¬ o.Processed ext config db →
      ((o.after ext config db).Following follower following ↔ db.Following follower following))
  := by
  obtain ⟨event, script⟩ := o
  cases event with
  | posted post => cases hactivity
  | delivered verifiedActor document activity' =>
      cases hactivity
      have hresult := wp_run (wp_processActivity_concerns (fun _ _ _ hc => hc) hl config
        verifiedActor document hdb h (hregular.reversible activity rfl)) hregular.answerable
      rw [Occurrence.Processed, Occurrence.after]
      simp only [Event.handle]
      generalize run fedWorld script (processActivity ext config verifiedActor document activity).run
        db = result at hresult ⊢
      obtain ⟨e | _, db'⟩ := result
      · refine ⟨Db.Refreshes.followsKnown hresult hdb, hl.same hresult.sameAccounts, ?_, ?_⟩
        · intro hprocessed
          cases hprocessed
        · intro _
          exact Db.Refreshes.following_iff hresult hdb
      · obtain ⟨hfollowing, hknown, hsame⟩ := hresult
        refine ⟨hknown, hl.same hsame, fun _ => hfollowing, ?_⟩
        intro hprocessed
        exact absurd rfl hprocessed

/-- A history in which nothing is processed leaves the follow as it was. -/
theorem following_unprocessed {history : List Occurrence} (hdb : db.FollowsKnown)
    (hl : db.Account l following username)
    (hconcerns : ∀ o ∈ history, ∃ activity ∈ o.event.activity, Concerns follower following activity)
    (hregular : Throughout ext config (Occurrence.Regular ext config follower following) history db)
    (hunprocessed : Throughout ext config (fun o db' => ¬ o.Processed ext config db') history db) :
  (afterAll ext config history db).Following follower following ↔ db.Following follower following
  := by
  induction history generalizing db with
  | nil => rfl
  | cons o history ih =>
      obtain ⟨activity, hactivity, h⟩ := hconcerns o List.mem_cons_self
      obtain ⟨hknown, hl₁, _, hkept⟩ := Occurrence.after_concerns hdb hl hactivity h hregular.1
      have hlater : ∀ o' ∈ history, ∃ activity ∈ o'.event.activity,
          Concerns follower following activity := by
        intro o' ho'
        apply hconcerns o' (List.mem_cons_of_mem o ho')
      rw [afterAll_cons, ih hknown hl₁ hlater hregular.2 hunprocessed.2, hkept hunprocessed.1]

/-- After a history of the follows of one actor by another, the row is there just when the last
activity that was processed is a `Follow`. -/
theorem following_afterAll {before rest : List Occurrence} {o : Occurrence}
    (hdb : db.FollowsKnown) (hl : db.Account l following username)
    (hconcerns : ∀ o' ∈ before ++ o :: rest, ∃ activity ∈ o'.event.activity,
      Concerns follower following activity)
    (hregular : Throughout ext config (Occurrence.Regular ext config follower following)
      (before ++ o :: rest) db)
    (hprocessed : o.Processed ext config (afterAll ext config before db))
    (hrest : Throughout ext config (fun o' db' => ¬ o'.Processed ext config db') rest
      (afterAll ext config (before ++ [o]) db)) :
  (afterAll ext config (before ++ o :: rest) db).Following follower following ↔
    ∃ activity ∈ o.event.activity, activity.activityType = "Follow"
  := by
  induction before generalizing db with
  | nil =>
      obtain ⟨activity, hactivity, h⟩ := hconcerns o List.mem_cons_self
      obtain ⟨hknown, hl₁, hfollow, _⟩ := Occurrence.after_concerns hdb hl hactivity h hregular.1
      have hlater : ∀ o' ∈ rest, ∃ activity ∈ o'.event.activity,
          Concerns follower following activity := by
        intro o' ho'
        apply hconcerns o' (List.mem_cons_of_mem o ho')
      rw [List.nil_append, afterAll_cons,
        following_unprocessed hknown hl₁ hlater hregular.2 hrest, hfollow hprocessed, hactivity]
      simp
  | cons o' before ih =>
      obtain ⟨activity, hactivity, h⟩ := hconcerns o' List.mem_cons_self
      obtain ⟨hknown, hl₁, _⟩ := Occurrence.after_concerns hdb hl hactivity h hregular.1
      rw [List.cons_append, afterAll_cons]
      apply ih hknown hl₁ _ hregular.2 hprocessed hrest
      intro o'' ho''
      apply hconcerns o'' (List.mem_cons_of_mem o' ho'')

end Histories

/-- In a history of the follows of a local actor by a remote one, the row is there just when
the last activity that was processed is a `Follow`, provided that no `Undo` names another
activity than the one that is stored; and an activity about an actor who is not here changes
no more than the cached remote actors, provided that its URI is not taken for that of a local
actor. -/
theorem follow_histories (ext : External) (config : Config) :
  (∀ (follower following username : String) (l : Uuid) (db : Db), db.FollowsKnown →
    db.Account l following username → ∀ before o rest,
    (∀ o' ∈ before ++ o :: rest, ∃ activity ∈ o'.event.activity,
      Concerns follower following activity) →
    Throughout ext config (Occurrence.Regular ext config follower following)
      (before ++ o :: rest) db →
    o.Processed ext config (afterAll ext config before db) →
    Throughout ext config (fun o' db' => ¬ o'.Processed ext config db') rest
      (afterAll ext config (before ++ [o]) db) →
    ((afterAll ext config (before ++ o :: rest) db).Following follower following ↔
      ∃ activity ∈ o.event.activity, activity.activityType = "Follow")) ∧
  ∀ (db : Db) (o : Occurrence), ∀ activity ∈ o.event.activity, AboutActor activity →
    (∀ id apId username, db.Houses id apId username → activity.subject ≠ some apId) →
    NamesItsSubject activity db →
    (activity.activityType = "Accept" →
      db.relays .pending s!"{activity.actor}/inbox" activity.actor = []) →
    db.Refreshes (o.after ext config db)
  := by
  constructor
  · intro follower following username l db hdb hl before o rest hconcerns hregular hprocessed hrest
    apply following_afterAll hdb hl hconcerns hregular hprocessed hrest
  · rintro db ⟨event, script⟩ activity hactivity h hforeign hnames hrelay
    cases event with
    | posted post => cases hactivity
    | delivered verifiedActor document activity' =>
        cases hactivity
        have hnobody : AboutNobody activity db := by
          intro uri username hsubject hnamed id apId hhouses
          apply hforeign id apId username hhouses
          rw [hnames uri username hsubject hnamed id apId hhouses, hsubject]
        apply wp_run_always (wp_processActivity_nobody config verifiedActor document h hnobody hrelay)

/-! ### A follow that is not undone -/

/-- A local actor with the given URI and username, and nothing else set. -/
def Actor.localUser (apId username : String) : Actor :=
  { Actor.remote apId username "PEM" none with
    publicKeyId := none
    isLocal := true
    inboxUrl := none }

def homeConfig : Config :=
  ⟨.verify, "h.ex"⟩

/-- Rob, who is known, and Al, who is here. -/
def acquaintances : Db :=
  dbOf [.remote "https://r.ex/u" "rob" "PEM" none, .localUser "https://h.ex/users/al" "al"]

def deliveredBy (actor id activityType : String) (object : Json) : Occurrence where
  event :=
    .delivered actor (.obj [])
      { context := none
        id, activityType, actor, object
        «to» := none
        cc := none
        published := none
        target := none
        content := none }
  script := steady fun _ => .error .forbidden

/-- Rob follows an actor. -/
def robFollows (id target : String) : Occurrence :=
  deliveredBy "https://r.ex/u" id "Follow" (.str target)

/-- Rob undoes his follow of Al with the given identifier. -/
def robUndoes (id : String) : Occurrence :=
  deliveredBy "https://r.ex/u" "https://r.ex/undo" "Undo"
    (.obj [("id", .str id), ("object", .str "https://h.ex/users/al"), ("type", .str "Follow")])

theorem acquaintances_followsKnown :
  acquaintances.FollowsKnown
  := by
  intro f hf
  cases hf

theorem acquaintances_account :
  acquaintances.Account 2 "https://h.ex/users/al" "al"
  := by
  have hlocals : ∀ a ∈ acquaintances.actors.rows, a.isLocal = true → a.username = "al" → a.id = 2 := by
    decide +kernel
  constructor
  · decide +kernel
  · have hhere : (acquaintances.actors.rows.any fun a => a.isLocal && a.id == 2 &&
        a.apId == "https://h.ex/users/al" && a.username == "al") = true := by
      decide +kernel
    obtain ⟨a, ha, hnames⟩ := List.any_eq_true.mp hhere
    simp only [Bool.and_eq_true, beq_iff_eq] at hnames
    exact ⟨a, ha, hnames.1.1.1, hnames.1.1.2, hnames.1.2, hnames.2⟩
  · rintro id apId ⟨a, ha, hlocal, rfl, _, husername⟩
    apply hlocals a ha hlocal husername

theorem robFollows_concerns (id : String) :
  ∃ activity ∈ (robFollows id "https://h.ex/users/al").event.activity,
    Concerns "https://r.ex/u" "https://h.ex/users/al" activity
  := ⟨_, rfl, .follow rfl rfl rfl⟩

theorem robUndoes_concerns (id : String) :
  ∃ activity ∈ (robUndoes id).event.activity,
    Concerns "https://r.ex/u" "https://h.ex/users/al" activity
  := ⟨_, rfl, .undo rfl rfl rfl rfl⟩

/-- Rob follows Al twice and undoes the second follow, which leaves the first; and the follow
of an actor elsewhere whose path is that of Al makes Rob follow Al. -/
theorem refollow_not_undone :
  (∀ o ∈ [robFollows "https://r.ex/1" "https://h.ex/users/al",
      robFollows "https://r.ex/2" "https://h.ex/users/al", robUndoes "https://r.ex/2"],
    ∃ activity ∈ o.event.activity, Concerns "https://r.ex/u" "https://h.ex/users/al" activity) ∧
  (robUndoes "https://r.ex/2").Processed .plain homeConfig
    (afterAll .plain homeConfig [robFollows "https://r.ex/1" "https://h.ex/users/al",
      robFollows "https://r.ex/2" "https://h.ex/users/al"] acquaintances) ∧
  (afterAll .plain homeConfig [robFollows "https://r.ex/1" "https://h.ex/users/al",
    robFollows "https://r.ex/2" "https://h.ex/users/al", robUndoes "https://r.ex/2"]
      acquaintances).Following "https://r.ex/u" "https://h.ex/users/al" ∧
  ¬ acquaintances.Refreshes ((robFollows "https://r.ex/1" "https://e.ex/users/al").after .plain
    homeConfig acquaintances)
  := by
  refine ⟨?_, ?_, ?_, ?_⟩
  · simp only [List.forall_mem_cons, robFollows_concerns, robUndoes_concerns, true_and]
    simp
  · change _ = _
    decide +kernel
  · apply List.isEmpty_eq_false_iff_exists_mem.mp
    decide +kernel
  · intro h
    have hfollows := h.follows_eq
    have hlength : ((robFollows "https://r.ex/1" "https://e.ex/users/al").after .plain
        homeConfig acquaintances).follows.length = 1 := by
      decide +kernel
    rw [hfollows] at hlength
    cases hlength

/-- Where no answer is an actor document, none claims another URI. -/
theorem claimsItself_steady {ext : External} {serve : String → Except NoombatError Response}
    (h : ∀ url response, serve url = .ok response → ∃ e, response.actor = .error e) (uri : String)
    (n : Nat) (q : FedRequest) (db : Db) :
  ClaimsItself ext uri q (steady serve n q) db
  := by
  have hnone : ∀ (url : String) response apActor, serve url = .ok response →
      response.actor = .ok apActor → False := by
    intro url response apActor hserve hactor
    obtain ⟨e, herror⟩ := h url response hserve
    rw [herror] at hactor
    cases hactor
  intro response apActor hfetched hactor
  exfalso
  cases q with
  | signedGet url signer =>
      cases hserve : serve url with
      | error e => simp [FedRequest.fetched, steady, hserve] at hfetched
      | ok served =>
          simp only [FedRequest.fetched, steady, hserve, Option.some.injEq, Prod.mk.injEq] at hfetched
          rw [← hfetched.2] at hactor
          exact hnone url served apActor hserve hactor
  | guardedGet url =>
      cases hserve : serve url with
      | error e => simp [FedRequest.fetched, steady, hserve] at hfetched
      | ok served =>
          simp only [FedRequest.fetched, steady, hserve, Option.some.injEq, Prod.mk.injEq] at hfetched
          rw [← hfetched.2] at hactor
          exact hnone url served apActor hserve hactor
  | _ => cases hfetched

/-- Where no server answers and no statement fails, no document is served for the follower and
the answer to a follow is queued. -/
theorem answerable_steady (follower : String) (n : Nat) (q : FedRequest) (db : Db) :
  Answerable .plain follower q (steady (fun _ => .error .forbidden) n q) db
  := by
  constructor
  · apply claimsItself_steady
    intro url response hserve
    cases hserve
  · cases q with
    | sql s => cases s <;> trivial
    | _ => trivial

/-- Rob follows Al and undoes that, and his follow of an actor elsewhere leaves no trace. -/
theorem follow_undone :
  ¬ (afterAll .plain homeConfig [robFollows "https://r.ex/1" "https://h.ex/users/al",
    robUndoes "https://r.ex/1"] acquaintances).Following "https://r.ex/u" "https://h.ex/users/al" ∧
  acquaintances.Refreshes ((robFollows "https://r.ex/1" "https://e.ex/users/bo").after .plain
    homeConfig acquaintances)
  := by
  obtain ⟨hhistory, hnobody⟩ := follow_histories .plain homeConfig
  constructor
  · have hconcerns : ∀ o ∈ [robFollows "https://r.ex/1" "https://h.ex/users/al"] ++
        [robUndoes "https://r.ex/1"], ∃ activity ∈ o.event.activity,
          Concerns "https://r.ex/u" "https://h.ex/users/al" activity := by
      simp only [List.cons_append, List.nil_append, List.forall_mem_cons, robFollows_concerns,
        robUndoes_concerns, true_and]
      simp
    have hregular : Throughout .plain homeConfig
        (Occurrence.Regular .plain homeConfig "https://r.ex/u" "https://h.ex/users/al")
        ([robFollows "https://r.ex/1" "https://h.ex/users/al"] ++ [robUndoes "https://r.ex/1"])
        acquaintances := by
      refine ⟨⟨?_, ?_⟩, ⟨?_, ?_⟩, trivial⟩
      · rintro activity hactivity htype
        cases hactivity
        revert htype
        decide
      · apply alongFrom_of_script (answerable_steady _)
      · rintro activity hactivity
        cases hactivity
        decide +kernel
      · apply alongFrom_of_script (answerable_steady _)
    have hprocessed : (robUndoes "https://r.ex/1").Processed .plain homeConfig
        (afterAll .plain homeConfig [robFollows "https://r.ex/1" "https://h.ex/users/al"]
          acquaintances) := by
      change _ = _
      decide +kernel
    intro hfollowing
    obtain ⟨activity, hactivity, htype⟩ := (hhistory "https://r.ex/u" "https://h.ex/users/al" "al"
      2 acquaintances acquaintances_followsKnown acquaintances_account _ _ [] hconcerns hregular
      hprocessed trivial).mp hfollowing
    cases hactivity
    revert htype
    decide
  · have hlocals : ∀ a ∈ acquaintances.actors.rows, a.isLocal = true →
        some a.apId ≠ some "https://e.ex/users/bo" ∧ a.username ≠ "bo" := by
      decide +kernel
    apply hnobody acquaintances _ _ rfl (.follow rfl)
    · rintro id apId username ⟨a, ha, hlocal, _, rfl, _⟩
      exact (hlocals a ha hlocal).1.symm
    · rintro uri username hsubject hnamed id apId ⟨a, ha, hlocal, _, _, husername⟩
      cases hsubject
      have hbo : extractLocalUsername "https://e.ex/users/bo" = some "bo" := by decide +kernel
      rw [hbo] at hnamed
      cases hnamed
      exact absurd husername (hlocals a ha hlocal).2
    · intro htype
      revert htype
      decide

end Federation
