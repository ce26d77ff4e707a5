import Noombat.Federation.Following

/-!
# Moving accounts

An actor that moves takes its local followers along: their follows of the source are deleted,
and follows of the target are sent.  Nothing is recorded of what is sent, so that the target's
answer accepts a follow only where there was one of the target before the move.
-/

namespace Federation

open Fallible Program

/-! ### Followers -/

/-- The local actors whose follow of the actor at a URI is accepted. -/
def Db.followersOf (db : Db) (following : String) : List Uuid :=
  (db.follows.filter fun f =>
    db.isKnownAs f.followingId following && f.accepted &&
      db.actors.rows.any fun a => a.id == f.followerId && a.isLocal).map Follow.followerId

/-- The actor at one URI follows the one at another, and is accepted. -/
def Db.AcceptedFollower (db : Db) (follower following : String) : Prop :=
  ∃ f ∈ db.followsOf follower following, f.accepted = true

section Followers

variable {db db' : Db} {source following : String} {id : Uuid}

theorem Db.isLocal_iff :
  (db.actors.rows.any fun a => a.id == id && a.isLocal) = true ↔
    ∃ apId username, db.Houses id apId username
  := by
  constructor
  · intro h
    obtain ⟨a, ha, hlocal⟩ := List.any_eq_true.mp h
    simp only [Bool.and_eq_true, beq_iff_eq] at hlocal
    exact ⟨a.apId, a.username, a, ha, hlocal.2, hlocal.1, rfl, rfl⟩
  · rintro ⟨_, _, a, ha, hlocal, hid, _⟩
    exact List.any_eq_true.mpr ⟨a, ha, by simp [hlocal, hid]⟩

theorem Db.mem_followersOf :
  id ∈ db.followersOf following ↔
    ∃ f ∈ db.follows, db.Knows f.followingId following ∧ f.accepted = true ∧
      (∃ apId username, db.Houses f.followerId apId username) ∧ f.followerId = id
  := by
  simp only [Db.followersOf, List.mem_map, List.mem_filter, Bool.and_eq_true, Core.isKnownAs_iff,
    Db.isLocal_iff, and_assoc]

/-- As long as the follows are the same, so are the followers. -/
theorem Db.FollowsKnown.followersOf_eq (h : db.FollowsKnown) (hsame : db.SameAccounts db'.toCore)
    (hfollows : db'.follows = db.follows) :
  db'.followersOf following = db.followersOf following
  := by
  rw [Db.followersOf, Db.followersOf, hfollows]
  congr 1
  apply List.filter_congr
  intro f hf
  obtain ⟨_, uri, hknows⟩ := h f hf
  rw [Bool.eq_iff_iff]
  simp only [Bool.and_eq_true, Core.isKnownAs_iff, Db.isLocal_iff, hsame.knows_iff hknows,
    hsame.houses]

/-- The followers of a known actor are found by its identifier. -/
theorem Db.localFollowers_eq (h : db.Knows id following) :
  db.localFollowers id = db.followersOf following
  := by
  rw [Db.localFollowers, Db.followersOf]
  congr 1
  apply List.filter_congr
  intro f _
  have hsame : (f.followingId == id) = db.isKnownAs f.followingId following := by
    rw [Bool.eq_iff_iff, Core.isKnownAs_iff, beq_iff_eq]
    constructor
    · rintro rfl
      exact h
    · intro hknows
      exact hknows.id_eq h
  rw [hsame]

end Followers

/-! ### What a move leaves -/

/-- The source is recorded as moved to the target. -/
def Core.HasMoved (source target : String) (core : Core) : Prop :=
  ∃ a ∈ core.actors, a.apId = source ∧ a.movedTo = some target

/-- The accepted local follows of the source are gone, and the followers have been queued
messages at most; the source is recorded as moved. -/
structure Db.Migrated (source target : String) (db db' : Db) : Prop where
  same : db.SameAccounts db'.toCore
  follows : ∀ f, f ∈ db'.follows ↔
    f ∈ db.follows ∧ ¬ (db.Knows f.followingId source ∧ f.followerId ∈ db.followersOf source)
  queue : ∃ new, db'.deliveryQueue = db.deliveryQueue ++ new ∧
    ∀ d ∈ new, d.actorId ∈ db.followersOf source
  moved : db'.HasMoved source target
  relays : db'.relaySubscriptions = db.relaySubscriptions

theorem Core.HasMoved.knows {source target : String} {core : Core} (h : core.HasMoved source target) :
  ∃ id, core.Knows id source
  := by
  obtain ⟨a, ha, hapId, _⟩ := h
  exact ⟨a.id, a, ha, rfl, hapId⟩

theorem Db.Refreshes.hasMoved {source target : String} {db db' : Db} (hdb : db.Refreshes db') (h : db.HasMoved source target) :
  db'.HasMoved source target
  := by
  obtain ⟨a, ha, hapId, hmovedTo⟩ := h
  obtain ⟨a', ha', hlasting⟩ := hdb.actors a ha
  have hapId' : a'.apId = a.apId := by
    simpa [Actor.lasting] using congrArg Actor.apId hlasting
  have hmovedTo' : a'.movedTo = a.movedTo := by
    simpa [Actor.lasting] using congrArg Actor.movedTo hlasting
  exact ⟨a', ha', hapId'.trans hapId, hmovedTo'.trans hmovedTo⟩

/-- Recording a move keeps all names. -/
theorem Db.setMovedTo_spec {db : Db} {id : Uuid} {source : String} (target : String)
    (h : db.Knows id source) (hok : (db.setMovedTo target id).1 = .ok ()) :
  db.SameAccounts (db.setMovedTo target id).2.toCore ∧
    (db.setMovedTo target id).2.follows = db.follows ∧
    (db.setMovedTo target id).2.deliveryQueue = db.deliveryQueue ∧
    (db.setMovedTo target id).2.relaySubscriptions = db.relaySubscriptions ∧
    (db.setMovedTo target id).2.HasMoved source target
  := by
  rw [Db.setMovedTo] at hok ⊢
  split at hok
  · rename_i core hcore
    obtain ⟨_, _, hactors⟩ := Core.of_updateActors hcore
    refine ⟨⟨fun hknows => hknows.updateActors hcore, ?_⟩, rfl, rfl, rfl, ?_⟩
    · intro id' apId username
      constructor
      · rintro ⟨b, hb, hlocal, hid, hapId, husername⟩
        obtain ⟨a, ha, rfl⟩ := (hactors b).mp hb
        use a, ha
        split at hlocal
        · rename_i hmoved
          simp only [hmoved, if_true] at hid hapId husername
          exact ⟨hlocal, hid, hapId, husername⟩
        · rename_i hkept
          simp only [if_neg hkept] at hid hapId husername
          exact ⟨hlocal, hid, hapId, husername⟩
      · rintro ⟨a, ha, hlocal, hid, hapId, husername⟩
        refine ⟨_, (hactors _).mpr ⟨a, ha, rfl⟩, ?_⟩
        split
        · exact ⟨hlocal, hid, hapId, husername⟩
        · exact ⟨hlocal, hid, hapId, husername⟩
    · obtain ⟨a, ha, hid, hapId⟩ := h
      refine ⟨_, (hactors _).mpr ⟨a, ha, rfl⟩, ?_⟩
      rw [if_pos (by simp [hid])]
      exact ⟨hapId, rfl⟩
  · cases hok

/-- The followers before `xs` have been taken from the source. -/
structure Db.Migrating (base : Db) (source : Uuid) (ids xs : List Uuid) (db : Db) : Prop where
  toCore_eq : db.toCore = base.toCore
  relays : db.relaySubscriptions = base.relaySubscriptions
  follows : ∃ taken, ids = taken ++ xs ∧ ∀ f, f ∈ db.follows ↔
    f ∈ base.follows ∧ ¬ (f.followingId = source ∧ f.followerId ∈ taken)
  queue : ∃ new, db.deliveryQueue = base.deliveryQueue ++ new ∧ ∀ d ∈ new, d.actorId ∈ ids

section Loop

variable {C : Condition fedWorld} {base db : Db} {source : Uuid} {ids xs : List Uuid}

theorem wp_findById (id : Uuid) (db : Db) :
  wp fedWorld C (fun _ db' => db' = db) (Repo.findById id).run db
  := by
  rw [Repo.findById, wp_run_bind]
  apply wp_sql (.findById id)
  · intro e
    rfl
  · intro c _
    rw [Sql.exec, onExcept_ok, wp_okOr]

/-- A message of a follower that is being taken is queued, or is not. -/
theorem wp_enqueueDelivery_migrating {id : Uuid} (hid : id ∈ ids) (payload : Json) (inbox : String)
    (h : base.Migrating source ids xs db) :
  wp fedWorld C (fun _ db' => base.Migrating source ids xs db')
    (Repo.enqueueDelivery id payload inbox).run db
  := by
  apply wp_sql (.enqueueDelivery ⟨id, payload, inbox⟩)
  · intro e
    exact h
  intro c _
  rw [Sql.exec, Db.enqueueDelivery]
  split
  · obtain ⟨new, hqueue, hnew⟩ := h.queue
    refine ⟨h.toCore_eq, h.relays, h.follows, new ++ [⟨id, payload, inbox⟩], ?_, ?_⟩
    · simp [hqueue]
    · intro d hd
      obtain hd | hd := List.mem_append.mp hd
      · exact hnew d hd
      · rw [List.mem_singleton.mp hd]
        exact hid
  · exact h

/-- One turn of the loop takes the next follower. -/
theorem wp_migrateFollower (targetUri inbox : String) (id : Uuid)
    (h : base.Migrating source ids (id :: xs) db) :
  wp fedWorld C (onExcept (fun _ => base.Migrating source ids xs) (fun _ _ => True))
    (migrateFollower source targetUri inbox id).run db
  := by
  rw [migrateFollower, wp_run_bind]
  apply wp_sql (.deleteFollow id source)
  · intro e
    trivial
  intro c _
  rw [Sql.exec, onExcept_ok, wp_run_bind, wp_run_attempt]
  obtain ⟨taken, hids, hfollows⟩ := h.follows
  have htaken : base.Migrating source ids xs
      (db.deleteFollows fun f => f.followerId == id && f.followingId == source) := by
    refine ⟨h.toCore_eq, h.relays, ⟨taken ++ [id], by simp [hids], ?_⟩, h.queue⟩
    intro f
    rw [Db.deleteFollows, List.mem_filter, hfollows]
    by_cases hfollowing : f.followingId = source
    · by_cases hfollower : f.followerId = id
      · simp [hfollowing, hfollower]
      · simp [hfollowing, hfollower]
    · simp [hfollowing]
  have hid : id ∈ ids := by
    rw [hids]
    simp
  apply wp_mono _ (wp_findById id _)
  rintro r db₁ rfl
  rw [onExcept_ok]
  split
  · rw [wp_run_bind]
    apply wp_utcNow
    intro now
    rw [onExcept_ok, wp_ignoringErrors]
    apply wp_enqueueDelivery_migrating hid _ _ htaken
  · rw [wp_run_pure]
    exact htaken

/-- The loop takes all followers. -/
theorem wp_migrateFollowers (targetUri inbox : String) (ids : List Uuid) (db : Db) :
  wp fedWorld C (onExcept (fun _ => db.Migrating source ids []) (fun _ _ => True))
    (forM ids (migrateFollower source targetUri inbox) : Handler PUnit).run db
  := by
  apply wp_run_forM (db.Migrating source ids)
  · intro id xs db' h
    apply wp_migrateFollower targetUri inbox id h
  · exact ⟨rfl, rfl, ⟨[], rfl, by simp⟩, [], by simp, by simp⟩

end Loop

section Move

variable {ext : External} {config : Config} {C : Condition fedWorld} {db : Db} {source target : String}

/-- The actor documents that are served for the source and the target of a move claim their
URIs. -/
def ClaimsEnds (ext : External) (source target : String) : Condition fedWorld :=
  fun q c db => ClaimsItself ext source q c db ∧ ClaimsItself ext target q c db

/-- A move that is followed takes the accepted local followers from the source. -/
theorem wp_migrate (hC : ∀ q c db, C q c db → ClaimsEnds ext source target q c db)
    (hdb : db.FollowsKnown) :
  wp fedWorld C (onExcept (fun _ db' => db.Migrated source target db') (fun _ _ => True))
    (migrate ext source target).run db
  := by
  rw [migrate, wp_run_bind]
  apply wp_mono _ (wp_resolveActor_self (fun q c db hc => (hC q c db hc).1) db)
  rintro (e | sourceActor) db₁ hresolved
  · trivial
  obtain ⟨hdb₁, hknows, _⟩ := hresolved
  rw [onExcept_ok, wp_run_bind]
  apply wp_sql (.setMovedTo target sourceActor.id)
  · intro e
    trivial
  intro c _
  rw [Sql.exec]
  have hspec := db₁.setMovedTo_spec target hknows
  generalize db₁.setMovedTo target sourceActor.id = recorded at hspec ⊢
  obtain ⟨e | _, db₂⟩ := recorded
  · trivial
  obtain ⟨hsame, hfollows, hqueue, hrelays, hmoved⟩ := hspec rfl
  rw [onExcept_ok, wp_run_bind]
  apply wp_sql (.localFollowers sourceActor.id)
  · intro e
    trivial
  intro c _
  rw [Sql.exec, onExcept_ok, wp_run_bind, db₂.localFollowers_eq (hsame.knows hknows)]
  have hsame₂ : db.SameAccounts db₂.toCore := hdb₁.sameAccounts.trans hsame
  have hfollows₂ : db₂.follows = db.follows := hfollows.trans hdb₁.follows_eq
  rw [hdb.followersOf_eq hsame₂ hfollows₂]
  apply wp_mono _ (wp_resolveActor_self (fun q c db hc => (hC q c db hc).2) db₂)
  rintro (e | targetActor) db₃ hresolved
  · trivial
  obtain ⟨hdb₃, _, _⟩ := hresolved
  rw [onExcept_ok]
  apply wp_mono _ (wp_migrateFollowers target (targetActor.inboxOr target) _ db₃)
  rintro (e | _) db₄ hdone
  · trivial
  have hsame₃ := hsame₂.trans hdb₃.sameAccounts
  rw [onExcept_ok] at hdone ⊢
  constructor
  · rw [hdone.toCore_eq]
    exact hsame₃
  · intro f
    obtain ⟨taken, hids, htaken⟩ := hdone.follows
    rw [List.append_nil] at hids
    rw [htaken, hdb₃.follows_eq, hfollows₂, ← hids]
    apply and_congr_right
    intro hf
    obtain ⟨_, uri, hknown⟩ := hdb f hf
    have hsource : f.followingId = sourceActor.id ↔ db.Knows f.followingId source := by
      rw [← hdb₁.sameAccounts.knows_iff hknown]
      constructor
      · intro heq
        rw [heq]
        exact hknows
      · intro h
        exact h.id_eq hknows
    rw [hsource]
  · obtain ⟨new, hnew, hown⟩ := hdone.queue
    exact ⟨new, by rw [hnew, hdb₃.deliveryQueue_eq, hqueue, hdb₁.deliveryQueue_eq], hown⟩
  · rw [hdone.toCore_eq]
    exact hdb₃.hasMoved hmoved
  · rw [hdone.relays, hdb₃.relaySubscriptions_eq, hrelays, hdb₁.relaySubscriptions_eq]

/-- The names in a database that is refreshed before a move are those after it. -/
theorem Db.Refreshes.migrated {db₁ db' : Db} (hdb₁ : db.Refreshes db₁) (hdb : db.FollowsKnown)
    (h : db₁.Migrated source target db') :
  db.Migrated source target db'
  := by
  have hfollowers : db₁.followersOf source = db.followersOf source :=
    hdb.followersOf_eq hdb₁.sameAccounts hdb₁.follows_eq
  constructor
  · exact hdb₁.sameAccounts.trans h.same
  · intro f
    rw [h.follows, hdb₁.follows_eq, hfollowers]
    apply and_congr_right
    intro hf
    obtain ⟨_, uri, hknown⟩ := hdb f hf
    rw [hdb₁.sameAccounts.knows_iff hknown]
  · obtain ⟨new, hqueue, hnew⟩ := h.queue
    rw [hdb₁.deliveryQueue_eq] at hqueue
    rw [hfollowers] at hnew
    exact ⟨new, hqueue, hnew⟩
  · exact h.moved
  · rw [h.relays, hdb₁.relaySubscriptions_eq]

/-- An activity by which its actor, the source, moves to the target. -/
structure Moves (source target : String) (activity : Activity) : Prop where
  activityType : activity.activityType = "Move"
  actor : activity.actor = source
  object : activity.object = .str source
  target : activity.target = some target

/-- A move reaches the followers once the target has been found to claim the source; until
then nothing has changed. -/
theorem wp_handleInboundMove_of {Post : Except NoombatError Unit → Db → Prop} {activity : Activity}
    (h : Moves source target activity) (herror : ∀ e, Post (.error e) db)
    (hmigrate : wp fedWorld C Post (migrate ext source target).run db) :
  wp fedWorld C Post (handleInboundMove ext activity).run db
  := by
  have hobject : activity.object.asStr = some source := by
    rw [h.object]
    rfl
  rw [handleInboundMove, hobject, h.target, h.actor, wp_run_bind, wp_okOr, Option.elim, onExcept_ok,
    if_pos rfl, wp_run_bind, wp_okOr, Option.elim, onExcept_ok, wp_run_bind]
  apply wp_mono _ (wp_findLocalSigningActor db)
  rintro (e | signer) db₁ rfl
  · exact herror e
  rw [onExcept_ok, wp_run_bind]
  apply wp_signedGet
  rintro (e | response) _
  · exact herror e
  rw [onExcept_ok]
  split
  · rw [wp_run_bind, wp_ofExcept]
    cases response.json with
    | error e => exact herror e
    | ok profile =>
        rw [onExcept_ok]
        split
        · exact hmigrate
        · rw [wp_run_throw]
          exact herror _
  · rw [wp_run_throw]
    exact herror _

/-- The processing of a move. -/
theorem wp_processActivity_move {Post : Except NoombatError Unit → Db → Prop} {activity : Activity}
    (verifiedActor : String) (document : Json) (h : Moves source target activity)
    (herror : ∀ e db₁, db.Refreshes db₁ → Post (.error e) db₁)
    (hmigrate : ∀ db₁, db.Refreshes db₁ → wp fedWorld C Post (migrate ext source target).run db₁) :
  wp fedWorld C Post (processActivity ext config verifiedActor document activity).run db
  := by
  apply wp_processActivity
  · exact herror
  intro db₁ hdb₁
  rw [dispatch, h.activityType]
  apply wp_handleInboundMove_of h
  · intro e
    exact herror e db₁ hdb₁
  · exact hmigrate db₁ hdb₁

/-! ### A move that is delivered again -/

/-- An actor that is known is resolved to its row. -/
theorem wp_resolveActor_known {uri : String} {id : Uuid} (h : db.Knows id uri) :
  wp fedWorld C (onExcept (fun a db' => db' = db ∧ a.id = id) (fun _ db' => db' = db))
    (resolveActor ext uri).run db
  := by
  rw [resolveActor, wp_run_bind]
  apply wp_sql (.findByApId uri)
  · intro e
    rfl
  intro c _
  rw [Sql.exec, onExcept_ok]
  split
  · rename_i a hfind
    have hapId : a.apId = uri := by simpa using Table.satisfies_of_find hfind
    have hknows : db.Knows a.id uri := ⟨a, Table.mem_of_find hfind, rfl, hapId⟩
    rw [wp_run_pure]
    exact ⟨rfl, hknows.id_eq h⟩
  · rename_i hfind
    obtain ⟨a, ha, _, hapId⟩ := h
    have hfound : (db.actors.find (·.apId == uri)).isSome = true := by
      apply Table.find_isSome_iff.mpr
      exact ⟨a, ha, by simp [hapId]⟩
    rw [hfind] at hfound
    cases hfound

/-- Recording a move again changes nothing. -/
theorem Db.setMovedTo_again {id : Uuid} (h : db.HasMoved source target) (hid : db.Knows id source) :
  db.Refreshes (db.setMovedTo target id).2
  := by
  rw [Db.setMovedTo]
  split
  · rename_i core hcore
    obtain ⟨hposts, _, hactors⟩ := Core.of_updateActors hcore
    have hkept : ∀ a ∈ db.actors,
        (if a.id == id then (ActorChange.moveTo target).apply a else a) = a := by
      intro a ha
      split
      · rename_i hmatch
        obtain ⟨b, hb, hapId, hmovedTo⟩ := h
        obtain ⟨c, hc, hcid, hcapId⟩ := hid
        have hab : a = b := by
          rw [Core.actor_eq_of_id ha hc ((beq_iff_eq.mp hmatch).trans hcid.symm)]
          exact Core.actor_eq_of_apId hc hb (hcapId.trans hapId.symm)
        rw [hab, ActorChange.moveTo]
        simp only [← hmovedTo]
      · rfl
    have hsame : ∀ a, a ∈ core.actors ↔ a ∈ db.actors := by
      intro a
      rw [hactors]
      constructor
      · rintro ⟨b, hb, rfl⟩
        rw [hkept b hb]
        exact hb
      · intro ha
        exact ⟨a, ha, hkept a ha⟩
    apply Refreshes.of_core hposts
    · intro a ha
      exact ⟨a, (hsame a).mpr ha, rfl⟩
    · intro a _
      exact hsame a
  · exact Refreshes.refl db

/-- A move whose source is recorded as moved and has no followers left changes nothing. -/
theorem wp_migrate_again (hdb : db.FollowsKnown) (hmoved : db.HasMoved source target)
    (hnone : db.followersOf source = []) :
  wp fedWorld C (fun _ db' => db.Refreshes db') (migrate ext source target).run db
  := by
  obtain ⟨id, hknows⟩ := hmoved.knows
  rw [migrate, wp_run_bind]
  apply wp_mono _ (wp_resolveActor_known hknows)
  rintro (e | sourceActor) db₁ hresolved
  · rw [onExcept_error] at hresolved ⊢
    rw [hresolved]
    exact Db.Refreshes.refl db
  obtain ⟨rfl, hid⟩ := hresolved
  rw [onExcept_ok, wp_run_bind, hid]
  have hagain := Db.setMovedTo_again hmoved hknows
  apply wp_sql (.setMovedTo target id)
  · intro e
    exact Db.Refreshes.refl _
  intro c _
  rw [Sql.exec]
  generalize Db.setMovedTo _ target id = recorded at hagain ⊢
  obtain ⟨e | _, db₂⟩ := recorded
  · exact hagain
  rw [onExcept_ok, wp_run_bind]
  apply wp_sql (.localFollowers id)
  · intro e
    exact hagain
  intro c _
  rw [Sql.exec, onExcept_ok, wp_run_bind, db₂.localFollowers_eq (hagain.knows hknows),
    hdb.followersOf_eq hagain.sameAccounts hagain.follows_eq, hnone]
  apply wp_mono _ (wp_consulting (consulting_resolveActor target) db₂)
  rintro (e | targetActor) db₃ hdb₃
  · exact hagain.trans hdb₃
  · rw [onExcept_ok, List.forM_nil, wp_run_pure]
    exact hagain.trans hdb₃

end Move

end Federation
