import Noombat.Federation.Migration

/-!
# Followers after a move

The target of a move answers the follows that were sent to it.  An answer accepts the follow
that is recorded; since a move records none, only those followers arrive that followed the
target before.
-/

namespace Federation

open Fallible Program

/-! ### What answers change -/

/-- Follows of the target by the given actors are accepted; nothing else changes but the cached
remote actors. -/
structure Db.Accepts (target : String) (ids : List Uuid) (db db' : Db) : Prop where
  same : db.SameAccounts db'.toCore
  moved : ∀ {source movedTo}, db.HasMoved source movedTo → db'.HasMoved source movedTo
  relays : db'.relaySubscriptions = db.relaySubscriptions
  rows : ∃ g : Follow → Follow, db'.follows = db.follows.map g ∧ ∀ f ∈ db.follows,
    (g f).followerId = f.followerId ∧ (g f).followingId = f.followingId ∧
      (g f = f ∨ (g f).accepted = true ∧ f.followerId ∈ ids ∧ db.Knows f.followingId target)

namespace Db.Accepts

variable {db db' db'' : Db} {target source follower following : String} {ids : List Uuid}

theorem of_refreshes (h : db.Refreshes db') :
  db.Accepts target ids db'
  := by
  refine ⟨h.sameAccounts, h.hasMoved, h.relaySubscriptions_eq, id, ?_, ?_⟩
  · rw [h.follows_eq, List.map_id]
  · intro f _
    exact ⟨rfl, rfl, .inl rfl⟩

theorem followsKnown (h : db.Accepts target ids db') (hdb : db.FollowsKnown) :
  db'.FollowsKnown
  := by
  apply hdb.of_sublist h.same
  intro f' hf'
  obtain ⟨g, hfollows, hg⟩ := h.rows
  rw [hfollows] at hf'
  obtain ⟨f, hf, rfl⟩ := List.mem_map.mp hf'
  obtain ⟨hfollower, hfollowing, _⟩ := hg f hf
  exact ⟨f, hf, hfollower, hfollowing⟩

theorem trans (hdb : db.FollowsKnown) (h : db.Accepts target ids db')
    (h' : db'.Accepts target ids db'') :
  db.Accepts target ids db''
  := by
  obtain ⟨g, hfollows, hg⟩ := h.rows
  obtain ⟨g', hfollows', hg'⟩ := h'.rows
  refine ⟨h.same.trans h'.same, fun hmoved => h'.moved (h.moved hmoved),
    h'.relays.trans h.relays, g' ∘ g, ?_, ?_⟩
  · rw [hfollows', hfollows, List.map_map]
  · intro f hf
    have hgf : g f ∈ db'.follows := by
      rw [hfollows]
      apply List.mem_map_of_mem hf
    obtain ⟨hfollower, hfollowing, hkept⟩ := hg f hf
    obtain ⟨hfollower', hfollowing', hkept'⟩ := hg' (g f) hgf
    refine ⟨hfollower'.trans hfollower, hfollowing'.trans hfollowing, ?_⟩
    obtain ⟨_, uri, hknown⟩ := hdb f hf
    rw [hfollower, hfollowing, h.same.knows_iff hknown] at hkept'
    obtain hkept' | haccepted := hkept'
    · rw [Function.comp_apply, hkept']
      exact hkept
    · exact .inr haccepted

/-- No follow is added or removed. -/
theorem following_iff (h : db.Accepts target ids db') (hdb : db.FollowsKnown) :
  db'.Following follower following ↔ db.Following follower following
  := by
  obtain ⟨g, hfollows, hg⟩ := h.rows
  constructor
  · rintro ⟨f', hf'⟩
    obtain ⟨hmem, hfollower, hfollowing⟩ := Db.mem_followsOf.mp hf'
    rw [hfollows] at hmem
    obtain ⟨f, hf, rfl⟩ := List.mem_map.mp hmem
    obtain ⟨⟨uri, hknown⟩, uri', hknown'⟩ := hdb f hf
    obtain ⟨hids, hids', _⟩ := hg f hf
    rw [hids, h.same.knows_iff hknown] at hfollower
    rw [hids', h.same.knows_iff hknown'] at hfollowing
    exact ⟨f, Db.mem_followsOf.mpr ⟨hf, hfollower, hfollowing⟩⟩
  · rintro ⟨f, hf⟩
    obtain ⟨hmem, hfollower, hfollowing⟩ := Db.mem_followsOf.mp hf
    obtain ⟨hids, hids', _⟩ := hg f hmem
    use g f
    rw [Db.mem_followsOf, hfollows, hids, hids']
    exact ⟨List.mem_map_of_mem hmem, h.same.knows hfollower, h.same.knows hfollowing⟩

/-- What is accepted stays accepted. -/
theorem acceptedFollower (h : db.Accepts target ids db')
    (haccepted : db.AcceptedFollower follower following) :
  db'.AcceptedFollower follower following
  := by
  obtain ⟨f, hf, haccepted⟩ := haccepted
  obtain ⟨hmem, hfollower, hfollowing⟩ := Db.mem_followsOf.mp hf
  obtain ⟨g, hfollows, hg⟩ := h.rows
  obtain ⟨hids, hids', hkept⟩ := hg f hmem
  refine ⟨g f, ?_, ?_⟩
  · rw [Db.mem_followsOf, hfollows, hids, hids']
    exact ⟨List.mem_map_of_mem hmem, h.same.knows hfollower, h.same.knows hfollowing⟩
  · obtain hkept | ⟨haccepted', _⟩ := hkept
    · rw [hkept]
      exact haccepted
    · exact haccepted'

/-- The follows of other actors stay as they are. -/
theorem mem_follows_iff (h : db.Accepts target ids db') {f : Follow} (hf : f.followerId ∉ ids) :
  f ∈ db'.follows ↔ f ∈ db.follows
  := by
  obtain ⟨g, hfollows, hg⟩ := h.rows
  rw [hfollows, List.mem_map]
  constructor
  · rintro ⟨f₀, hf₀, rfl⟩
    obtain ⟨hid, _, hkept | ⟨_, hanswered, _⟩⟩ := hg f₀ hf₀
    · rw [hkept]
      exact hf₀
    · rw [hid] at hf
      exact absurd hanswered hf
  · intro hmem
    use f, hmem
    obtain ⟨_, _, hkept | ⟨_, hanswered, _⟩⟩ := hg f hmem
    · exact hkept
    · exact absurd hanswered hf

/-- No one becomes a follower of an actor whom none of those answered follows. -/
theorem followersOf_nil (h : db.Accepts target ids db') (hdb : db.FollowsKnown)
    (hgone : ∀ f ∈ db.follows, db.Knows f.followingId source → f.followerId ∉ ids)
    (hnone : db.followersOf source = []) :
  db'.followersOf source = []
  := by
  apply List.eq_nil_iff_forall_not_mem.mpr
  intro id hid
  obtain ⟨f', hf', hsource, haccepted, ⟨apId, username, hhouses⟩, _⟩ := Db.mem_followersOf.mp hid
  obtain ⟨g, hfollows, hg⟩ := h.rows
  rw [hfollows] at hf'
  obtain ⟨f, hf, rfl⟩ := List.mem_map.mp hf'
  obtain ⟨_, uri, hknown⟩ := hdb f hf
  obtain ⟨hids, hids', hkept⟩ := hg f hf
  rw [hids', h.same.knows_iff hknown] at hsource
  obtain hkept | ⟨_, hanswered, _⟩ := hkept
  · rw [hids, h.same.houses] at hhouses
    rw [hkept] at haccepted
    have hmem : f.followerId ∈ db.followersOf source :=
      Db.mem_followersOf.mpr ⟨f, hf, hsource, haccepted, ⟨apId, username, hhouses⟩, rfl⟩
    rw [hnone] at hmem
    cases hmem
  · exact hgone f hf hsource hanswered

/-- An answer accepts what is recorded. -/
theorem of_acceptFollow {id t : Uuid} (hid : id ∈ ids) (ht : db.Knows t target) :
  db.Accepts target ids (db.acceptFollow id t)
  := by
  refine ⟨Core.SameAccounts.refl _, fun hmoved => hmoved, rfl, _, rfl, ?_⟩
  intro f _
  split
  · rename_i hmatch
    simp only [Bool.and_eq_true, beq_iff_eq] at hmatch
    rw [hmatch.1, hmatch.2]
    exact ⟨rfl, rfl, .inr ⟨rfl, hid, ht⟩⟩
  · exact ⟨rfl, rfl, .inl rfl⟩

end Db.Accepts

/-- A follow that is recorded is accepted by an answer. -/
theorem Db.acceptFollow_accepted {db : Db} {id t : Uuid} {follower following : String}
    (hid : db.Knows id follower) (ht : db.Knows t following)
    (h : db.Following follower following) :
  (db.acceptFollow id t).AcceptedFollower follower following
  := by
  obtain ⟨f, hf⟩ := h
  obtain ⟨hmem, hfollower, hfollowing⟩ := Db.mem_followsOf.mp hf
  have hids : f.followerId = id := hfollower.id_eq hid
  have hids' : f.followingId = t := hfollowing.id_eq ht
  refine ⟨{ f with accepted := true }, ?_, rfl⟩
  rw [Db.mem_followsOf]
  refine ⟨?_, hfollower, hfollowing⟩
  rw [Db.acceptFollow, List.mem_map]
  exact ⟨f, hmem, by simp [hids, hids']⟩

/-! ### The answers of the target -/

/-- The target accepts a follow by a local actor. -/
structure AcceptsFollow (target follower : String) (activity : Activity) : Prop where
  activityType : activity.activityType = "Accept"
  actor : activity.actor = target
  kind : activity.object.getStr "type" = some "Follow"
  follower : activity.object.getStr "actor" = some follower

section Accept

variable {ext : External} {config : Config} {C : Condition fedWorld} {db : Db}
  {target follower username : String} {id : Uuid}

/-- The target's answer accepts the follow that is recorded, if there is one. -/
theorem wp_handleAccept {activity : Activity}
    (hC : ∀ q c db, C q c db → ClaimsItself ext target q c db)
    (hrelay : db.relays .pending s!"{target}/inbox" target = [])
    (hid : db.Account id follower username) {ids : List Uuid} (hmem : id ∈ ids)
    (h : AcceptsFollow target follower activity) (hdb : db.FollowsKnown) :
  wp fedWorld C
    (onExcept
      (fun _ db' => db.Accepts target ids db' ∧
        (db.Following follower target → db'.AcceptedFollower follower target))
      (fun _ db' => db.Refreshes db'))
    (handleAccept ext activity).run db
  := by
  rw [handleAccept, h.kind, Option.getD_some, if_pos rfl, wp_run_bind, wp_unwrapOr, h.actor]
  apply wp_mono _ (wp_tryHandleRelayAccept_none hrelay)
  rintro r db₁ ⟨hr, rfl⟩
  rw [onExcept_ok, hr, if_neg Bool.false_ne_true, answeredFollow, wp_run_bind, wp_run_bind,
    h.follower, wp_okOr, Option.elim, onExcept_ok, wp_run_bind, hid.named, wp_okOr, Option.elim,
    onExcept_ok, wp_run_bind]
  apply wp_mono _ (wp_findLocalByUsername username _)
  rintro (e | localActor) db₂ hfound
  · rw [onExcept_error] at hfound
    rw [hfound]
    exact Db.Refreshes.refl _
  obtain ⟨rfl, hhouses⟩ := hfound
  rw [onExcept_ok, h.actor, wp_run_bind]
  apply wp_mono _ (wp_resolveActor_self hC _)
  rintro (e | remoteActor) db₃ hresolved
  · exact hresolved
  obtain ⟨hdb₃, hknows, _⟩ := hresolved
  rw [onExcept_ok, wp_run_pure, onExcept_ok]
  apply wp_sql (.acceptFollow localActor.id remoteActor.id)
  · intro e
    exact hdb₃
  intro c _
  rw [Sql.exec, onExcept_ok, hid.only _ _ hhouses]
  constructor
  · apply (Db.Accepts.of_refreshes hdb₃).trans hdb
    apply Db.Accepts.of_acceptFollow hmem hknows
  · intro hfollowing
    apply Db.acceptFollow_accepted (hdb₃.knows hid.known.knows) hknows
    rw [hdb₃.following_iff hdb]
    exact hfollowing

end Accept

/-! ### Histories of answers -/

section Answers

variable {ext : External} {config : Config} {db : Db} {source target : String} {ids : List Uuid}

namespace Db.Migrated

variable {db' : Db} {follower : String}

theorem followsKnown (h : db.Migrated source target db') (hdb : db.FollowsKnown) :
  db'.FollowsKnown
  := by
  apply hdb.of_sublist h.same
  intro f hf
  exact ⟨f, ((h.follows f).mp hf).1, rfl, rfl⟩

/-- None of the followers of the source follows it any more. -/
theorem not_mem_followersOf (h : db.Migrated source target db') (hdb : db.FollowsKnown) :
  ∀ f ∈ db'.follows, db'.Knows f.followingId source → f.followerId ∉ db.followersOf source
  := by
  intro f hf hsource hfollower
  obtain ⟨hmem, htaken⟩ := (h.follows f).mp hf
  obtain ⟨_, uri, hknown⟩ := hdb f hmem
  rw [h.same.knows_iff hknown] at hsource
  exact htaken ⟨hsource, hfollower⟩

/-- A follower of the source follows the target after the move if it did before, and the target
is another. -/
theorem following_iff (h : db.Migrated source target db') (hdb : db.FollowsKnown) {id : Uuid}
    (hid : db.Knows id follower) (hmem : id ∈ db.followersOf source) :
  db'.Following follower target ↔ db.Following follower target ∧ source ≠ target
  := by
  constructor
  · rintro ⟨f, hf⟩
    obtain ⟨hf, hfollower, hfollowing⟩ := Db.mem_followsOf.mp hf
    obtain ⟨hmem', _⟩ := (h.follows f).mp hf
    obtain ⟨⟨uri, hknown⟩, uri', hknown'⟩ := hdb f hmem'
    have hgone := h.not_mem_followersOf hdb f hf
    rw [h.same.knows_iff hknown] at hfollower
    rw [hfollower.id_eq hid] at hgone
    constructor
    · rw [h.same.knows_iff hknown'] at hfollowing
      exact ⟨f, Db.mem_followsOf.mpr ⟨hmem', hfollower, hfollowing⟩⟩
    · rintro rfl
      exact hgone hfollowing hmem
  · rintro ⟨⟨f, hf⟩, hne⟩
    obtain ⟨hf, hfollower, hfollowing⟩ := Db.mem_followsOf.mp hf
    use f
    rw [Db.mem_followsOf, h.follows]
    refine ⟨⟨hf, ?_⟩, h.same.knows hfollower, h.same.knows hfollowing⟩
    intro htaken
    exact hne (htaken.1.unique hfollowing)

/-- No follower of the source is left. -/
theorem followersOf_nil (h : db.Migrated source target db') (hdb : db.FollowsKnown) :
  db'.followersOf source = []
  := by
  apply List.eq_nil_iff_forall_not_mem.mpr
  intro id hid
  obtain ⟨f, hf, hsource, haccepted, ⟨apId, username, hhouses⟩, _⟩ := Db.mem_followersOf.mp hid
  obtain ⟨hmem, htaken⟩ := (h.follows f).mp hf
  obtain ⟨_, uri, hknown⟩ := hdb f hmem
  rw [h.same.knows_iff hknown] at hsource
  rw [h.same.houses] at hhouses
  apply htaken
  refine ⟨hsource, Db.mem_followersOf.mpr ⟨f, hmem, hsource, haccepted, ⟨apId, username, hhouses⟩, rfl⟩⟩

theorem mem_follows_iff (h : db.Migrated source target db') {f : Follow}
    (hf : f.followerId ∉ db.followersOf source) :
  f ∈ db'.follows ↔ f ∈ db.follows
  := by
  rw [h.follows]
  constructor
  · exact And.left
  · intro hmem
    exact ⟨hmem, fun htaken => hf htaken.2⟩

end Db.Migrated

/-- An event is an answer of the target that accepts the follow of one of the given actors. -/
def Occurrence.Answers (target : String) (ids : List Uuid) (base : Core) (o : Occurrence) : Prop :=
  ∃ activity ∈ o.event.activity, ∃ follower username id, base.Account id follower username ∧
    id ∈ ids ∧ AcceptsFollow target follower activity

/-- An answer accepts the follow that is recorded, if it is processed and there is one. -/
theorem Occurrence.after_accept {o : Occurrence} {activity : Activity} {follower username : String}
    {id : Uuid} (hactivity : o.event.activity = some activity)
    (hanswer : AcceptsFollow target follower activity) (hid : db.Account id follower username)
    (hmem : id ∈ ids) (hdb : db.FollowsKnown)
    (hrelay : db.relays .pending s!"{target}/inbox" target = [])
    (hclaims : Along fedWorld (ClaimsItself ext target) o.script (o.event.handle ext config).run db) :
  db.Accepts target ids (o.after ext config db) ∧
    (o.Processed ext config db → db.Following follower target →
      (o.after ext config db).AcceptedFollower follower target)
  := by
  obtain ⟨event, script⟩ := o
  cases event with
  | posted post => cases hactivity
  | delivered verifiedActor document activity' =>
      cases hactivity
      have hprocess : wp fedWorld (ClaimsItself ext target)
          (onExcept
            (fun _ db' => db.Accepts target ids db' ∧
              (db.Following follower target → db'.AcceptedFollower follower target))
            (fun _ db' => db.Refreshes db'))
          (processActivity ext config verifiedActor document activity).run db := by
        apply wp_processActivity
        · intro e db₁ hdb₁
          exact hdb₁
        intro db₁ hdb₁
        have hrelay₁ : db₁.relays .pending s!"{target}/inbox" target = [] := by
          rw [Db.relays, hdb₁.relaySubscriptions_eq]
          exact hrelay
        rw [dispatch, hanswer.activityType]
        apply wp_mono _ (wp_handleAccept (fun _ _ _ hc => hc) hrelay₁
          (hid.same hdb₁.sameAccounts) hmem hanswer (hdb₁.followsKnown hdb))
        rintro (e | _) db₂ haccepted
        · exact hdb₁.trans haccepted
        · rw [onExcept_ok, hdb₁.following_iff hdb] at haccepted
          exact ⟨(Db.Accepts.of_refreshes hdb₁).trans hdb haccepted.1, haccepted.2⟩
      have hresult := wp_run hprocess hclaims
      rw [Occurrence.Processed, Occurrence.after]
      simp only [Event.handle]
      generalize run fedWorld script (processActivity ext config verifiedActor document activity).run
        db = result at hresult ⊢
      obtain ⟨e | _, db'⟩ := result
      · constructor
        · exact Db.Accepts.of_refreshes hresult
        · intro hprocessed
          cases hprocessed
      · exact ⟨hresult.1, fun _ => hresult.2⟩

/-- A history of answers accepts follows of the target, and does nothing else. -/
theorem afterAll_accepts {base : Core} {answers : List Occurrence} (hbase : base.SameAccounts db.toCore)
    (hanswers : ∀ o ∈ answers, o.Answers target ids base) (hdb : db.FollowsKnown)
    (hrelay : db.relays .pending s!"{target}/inbox" target = [])
    (hclaims : Throughout ext config (fun o db' =>
      Along fedWorld (ClaimsItself ext target) o.script (o.event.handle ext config).run db')
      answers db) :
  db.Accepts target ids (afterAll ext config answers db)
  := by
  induction answers generalizing db with
  | nil => exact Db.Accepts.of_refreshes (Db.Refreshes.refl db)
  | cons o answers ih =>
      obtain ⟨activity, hactivity, follower, username, id, hid, hmem, hanswer⟩ :=
        hanswers o List.mem_cons_self
      obtain ⟨hstep, _⟩ := Occurrence.after_accept hactivity hanswer (hid.same hbase) hmem hdb hrelay
        hclaims.1
      rw [afterAll_cons]
      apply hstep.trans hdb
      apply ih (hbase.trans hstep.same) _ (hstep.followsKnown hdb) _ hclaims.2
      · intro o' ho'
        apply hanswers o' (List.mem_cons_of_mem o ho')
      · rw [Db.relays, hstep.relays]
        exact hrelay

/-- A processed move of an actor that is known has been followed. -/
theorem Occurrence.after_migrated {move : Occurrence} {activity : Activity}
    (hactivity : move.event.activity = some activity) (hmove : Moves source target activity)
    (hprocessed : move.Processed ext config db) (hdb : db.FollowsKnown)
    (hclaims : Along fedWorld (ClaimsEnds ext source target) move.script
      (move.event.handle ext config).run db) :
  db.Migrated source target (move.after ext config db)
  := by
  obtain ⟨event, script⟩ := move
  cases event with
  | posted post => cases hactivity
  | delivered verifiedActor document activity' =>
      cases hactivity
      have hprocess : wp fedWorld (ClaimsEnds ext source target)
          (onExcept (fun _ db' => db.Migrated source target db') (fun _ _ => True))
          (processActivity ext config verifiedActor document activity).run db := by
        apply wp_processActivity_move verifiedActor document hmove
        · intro e db₁ _
          trivial
        intro db₁ hdb₁
        apply wp_mono _ (wp_migrate (fun _ _ _ hc => hc) (hdb₁.followsKnown hdb))
        rintro (e | _) db₂ hmigrated
        · trivial
        · exact hdb₁.migrated hdb hmigrated
      have hresult := wp_run hprocess hclaims
      rw [Occurrence.Processed] at hprocessed
      simp only [Event.handle] at hprocessed
      rw [hprocessed] at hresult
      exact hresult

/-- A move whose source has moved already, and has no followers left, changes nothing. -/
theorem Occurrence.after_moved {again : Occurrence} {activity : Activity}
    (hactivity : again.event.activity = some activity) (hmove : Moves source target activity)
    (hdb : db.FollowsKnown) (hmoved : db.HasMoved source target)
    (hnone : db.followersOf source = []) :
  db.Refreshes (again.after ext config db)
  := by
  obtain ⟨event, script⟩ := again
  cases event with
  | posted post => cases hactivity
  | delivered verifiedActor document activity' =>
      cases hactivity
      have hagain : wp fedWorld (Always fedWorld) (fun _ db' => db.Refreshes db')
          (processActivity ext config verifiedActor document activity).run db := by
        apply wp_processActivity_move verifiedActor document hmove
        · intro e db₁ hdb₁
          exact hdb₁
        intro db₁ hdb₁
        have hnone₁ : db₁.followersOf source = [] := by
          rw [hdb.followersOf_eq hdb₁.sameAccounts hdb₁.follows_eq]
          exact hnone
        apply wp_mono _ (wp_migrate_again (hdb₁.followsKnown hdb) (hdb₁.hasMoved hmoved) hnone₁)
        intro _ db₂ hdb₂
        exact hdb₁.trans hdb₂
      exact wp_run_always hagain

end Answers

/-- After a move that is processed, a follower of the source whose follow the target accepts is
an accepted follower of the target just when it followed the target before, and the target is
another actor; the follows of all others are as they were, and nothing is sent for them; and
the move changes nothing when it is delivered again. -/
theorem move_followers (ext : External) (config : Config) (source target : String) (db : Db)
    (hdb : db.FollowsKnown) (hrelay : db.relays .pending s!"{target}/inbox" target = [])
    (move : Occurrence)
    (hmove : ∃ activity ∈ move.event.activity, Moves source target activity)
    (hprocessed : move.Processed ext config db)
    (hclaims : Along fedWorld (ClaimsEnds ext source target) move.script
      (move.event.handle ext config).run db)
    (answers : List Occurrence)
    (hanswers : ∀ o ∈ answers, o.Answers target (db.followersOf source) db.toCore)
    (hanswerClaims : Throughout ext config (fun o db' =>
      Along fedWorld (ClaimsItself ext target) o.script (o.event.handle ext config).run db')
      answers (move.after ext config db)) :
  (∀ follower username id, db.Account id follower username → id ∈ db.followersOf source →
    (∃ before o rest, answers = before ++ o :: rest ∧
      (∃ activity ∈ o.event.activity, AcceptsFollow target follower activity) ∧
      o.Processed ext config (afterAll ext config before (move.after ext config db))) →
    ((afterAll ext config answers (move.after ext config db)).AcceptedFollower follower target ↔
      db.Following follower target ∧ source ≠ target)) ∧
  (∀ f : Follow, f.followerId ∉ db.followersOf source →
    (f ∈ (afterAll ext config answers (move.after ext config db)).follows ↔ f ∈ db.follows)) ∧
  (∃ new, (move.after ext config db).deliveryQueue = db.deliveryQueue ++ new ∧
    ∀ d ∈ new, d.actorId ∈ db.followersOf source) ∧
  ∀ again : Occurrence, (∃ activity ∈ again.event.activity, Moves source target activity) →
    (afterAll ext config answers (move.after ext config db)).Refreshes
      (again.after ext config (afterAll ext config answers (move.after ext config db)))
  := by
  obtain ⟨activity, hactivity, hmove⟩ := hmove
  have hmigrated := Occurrence.after_migrated hactivity hmove hprocessed hdb hclaims
  have hdb₁ := hmigrated.followsKnown hdb
  have hrelay₁ : (move.after ext config db).relays .pending s!"{target}/inbox" target = [] := by
    rw [Db.relays, hmigrated.relays]
    exact hrelay
  have haccepts := afterAll_accepts hmigrated.same hanswers hdb₁ hrelay₁ hanswerClaims
  refine ⟨?_, ?_, hmigrated.queue, ?_⟩
  · rintro follower username id hid hmem ⟨before, o, rest, rfl, ⟨answer, hanswer, haccept⟩, hprocessed'⟩
    rw [← hmigrated.following_iff hdb hid.known.knows hmem]
    constructor
    · rintro ⟨f, hf, _⟩
      rw [← haccepts.following_iff hdb₁]
      exact ⟨f, hf⟩
    · intro hfollowing
      obtain ⟨hclaimsBefore, hclaim, hclaimsRest⟩ := throughout_append.mp hanswerClaims
      have hbefore := afterAll_accepts hmigrated.same
        (fun o' ho' => hanswers o' (List.mem_append_left _ ho')) hdb₁ hrelay₁ hclaimsBefore
      have hdb₂ := hbefore.followsKnown hdb₁
      have hsame₂ := hmigrated.same.trans hbefore.same
      have hrelay₂ : (afterAll ext config before (move.after ext config db)).relays .pending
          s!"{target}/inbox" target = [] := by
        rw [Db.relays, hbefore.relays]
        exact hrelay₁
      obtain ⟨hstep, haccepted⟩ := Occurrence.after_accept hanswer haccept (hid.same hsame₂) hmem
        hdb₂ hrelay₂ hclaim
      have hrelay₃ : (o.after ext config (afterAll ext config before
          (move.after ext config db))).relays .pending s!"{target}/inbox" target = [] := by
        rw [Db.relays, hstep.relays]
        exact hrelay₂
      have hrest := afterAll_accepts (hsame₂.trans hstep.same)
        (fun o' ho' => hanswers o' (List.mem_append_right _ (List.mem_cons_of_mem o ho')))
        (hstep.followsKnown hdb₂) hrelay₃ hclaimsRest
      rw [afterAll_append, afterAll_cons]
      apply hrest.acceptedFollower
      apply haccepted hprocessed'
      rw [hbefore.following_iff hdb₁]
      exact hfollowing
  · intro f hf
    rw [haccepts.mem_follows_iff hf, hmigrated.mem_follows_iff hf]
  · rintro again ⟨activity', hactivity', hmove'⟩
    apply Occurrence.after_moved hactivity' hmove' (haccepts.followsKnown hdb₁)
      (haccepts.moved hmigrated.moved)
    apply haccepts.followersOf_nil hdb₁ (hmigrated.not_mem_followersOf hdb)
      (hmigrated.followersOf_nil hdb)

/-! ### A follower that does not arrive -/

/-- Al is an accepted follower of Sam, and perhaps waits for Tia to accept him. -/
def beforeMove (waiting : Bool) : Db :=
  { dbOf [.remote "https://s.ex/u" "sam" "PEM" none, .remote "https://t.ex/u" "tia" "PEM" none,
      .localUser "https://h.ex/users/al" "al"] with
    follows := ⟨3, 1, true, none⟩ :: if waiting then [⟨3, 2, false, none⟩] else [] }

/-- Tia's profile, which lists Sam as an alias. -/
def claimingSam (_ : String) : Except NoombatError Response :=
  .ok ⟨200, ⟨"https", "", none, some "t.ex", none, "/u", none, none⟩,
    .ok (.obj [("alsoKnownAs", .arr [.str "https://s.ex/u"])]), .error .forbidden⟩

theorem claimingSam_noActor (url : String) (response : Response)
    (h : claimingSam url = .ok response) :
  ∃ e, response.actor = .error e
  := by
  cases h
  exact ⟨_, rfl⟩

/-- Sam moves to Tia. -/
def samMoves : Occurrence where
  event :=
    .delivered "https://s.ex/u" (.obj [])
      { context := none
        id := "https://s.ex/1"
        activityType := "Move"
        actor := "https://s.ex/u"
        object := .str "https://s.ex/u"
        «to» := none
        cc := none
        published := none
        target := some "https://t.ex/u"
        content := none }
  script := steady claimingSam

/-- Tia accepts the follow of Al. -/
def tiaAccepts : Occurrence :=
  deliveredBy "https://t.ex/u" "https://t.ex/1" "Accept"
    (.obj [("actor", .str "https://h.ex/users/al"), ("type", .str "Follow")])

theorem beforeMove_followsKnown (waiting : Bool) :
  (beforeMove waiting).FollowsKnown
  := by
  have hknown : ∀ f ∈ (beforeMove waiting).follows,
      ((beforeMove waiting).actors.rows.any (·.id == f.followerId)) = true ∧
        ((beforeMove waiting).actors.rows.any (·.id == f.followingId)) = true := by
    cases waiting <;> decide +kernel
  intro f hf
  obtain ⟨hfollower, hfollowing⟩ := hknown f hf
  obtain ⟨a, ha, hid⟩ := List.any_eq_true.mp hfollower
  obtain ⟨b, hb, hid'⟩ := List.any_eq_true.mp hfollowing
  exact ⟨⟨a.apId, a, ha, beq_iff_eq.mp hid, rfl⟩, b.apId, b, hb, beq_iff_eq.mp hid', rfl⟩

theorem beforeMove_account (waiting : Bool) :
  (beforeMove waiting).Account 3 "https://h.ex/users/al" "al"
  := by
  have hlocals : ∀ a ∈ (beforeMove waiting).actors.rows,
      a.isLocal = true → a.username = "al" → a.id = 3 := by
    cases waiting <;> decide +kernel
  constructor
  · decide +kernel
  · have hhere : ((beforeMove waiting).actors.rows.any fun a => a.isLocal && a.id == 3 &&
        a.apId == "https://h.ex/users/al" && a.username == "al") = true := by
      cases waiting <;> decide +kernel
    obtain ⟨a, ha, hnames⟩ := List.any_eq_true.mp hhere
    simp only [Bool.and_eq_true, beq_iff_eq] at hnames
    exact ⟨a, ha, hnames.1.1.1, hnames.1.1.2, hnames.1.2, hnames.2⟩
  · rintro id apId ⟨a, ha, hlocal, rfl, _, husername⟩
    apply hlocals a ha hlocal husername

theorem samMoves_moves :
  ∃ activity ∈ samMoves.event.activity, Moves "https://s.ex/u" "https://t.ex/u" activity
  := ⟨_, rfl, rfl, rfl, rfl, rfl⟩

theorem tiaAccepts_accepts :
  ∃ activity ∈ tiaAccepts.event.activity,
    AcceptsFollow "https://t.ex/u" "https://h.ex/users/al" activity
  := ⟨_, rfl, rfl, rfl, rfl, rfl⟩

theorem samMoves_processed (waiting : Bool) :
  samMoves.Processed .plain homeConfig (beforeMove waiting)
  := by
  change _ = _
  cases waiting <;> decide +kernel

theorem tiaAccepts_processed (waiting : Bool) :
  tiaAccepts.Processed .plain homeConfig (samMoves.after .plain homeConfig (beforeMove waiting))
  := by
  change _ = _
  cases waiting <;> decide +kernel

/-- Al, who follows Sam only, does not follow Tia after Sam has moved and Tia has accepted. -/
theorem follower_lost :
  samMoves.Processed .plain homeConfig (beforeMove false) ∧
  (beforeMove false).AcceptedFollower "https://h.ex/users/al" "https://s.ex/u" ∧
  tiaAccepts.Processed .plain homeConfig (samMoves.after .plain homeConfig (beforeMove false)) ∧
  ¬ (afterAll .plain homeConfig [tiaAccepts] (samMoves.after .plain homeConfig
    (beforeMove false))).AcceptedFollower "https://h.ex/users/al" "https://t.ex/u"
  := by
  refine ⟨samMoves_processed false, ?_, tiaAccepts_processed false, ?_⟩
  · have haccepted : (((beforeMove false).followsOf "https://h.ex/users/al" "https://s.ex/u").any
        Follow.accepted) = true := by
      decide +kernel
    obtain ⟨f, hf, haccepted⟩ := List.any_eq_true.mp haccepted
    exact ⟨f, hf, haccepted⟩
  · have hnone : (afterAll .plain homeConfig [tiaAccepts] (samMoves.after .plain homeConfig
        (beforeMove false))).follows.length = 0 := by
      decide +kernel
    rintro ⟨f, hf, _⟩
    have hmem := (Db.mem_followsOf.mp hf).1
    rw [List.eq_nil_of_length_eq_zero hnone] at hmem
    cases hmem

/-- Al, who waits for Tia before Sam moves, arrives. -/
theorem follower_arrives :
  (afterAll .plain homeConfig [tiaAccepts] (samMoves.after .plain homeConfig
    (beforeMove true))).AcceptedFollower "https://h.ex/users/al" "https://t.ex/u"
  := by
  have hfollower : 3 ∈ (beforeMove true).followersOf "https://s.ex/u" := by
    decide +kernel
  have hrelay (target : String) (htarget : target = "https://t.ex/u") :
      (beforeMove true).relays .pending s!"{target}/inbox" target = [] := by
    rw [htarget]
    decide +kernel
  have hclaims : Along fedWorld (ClaimsEnds .plain "https://s.ex/u" "https://t.ex/u") samMoves.script
      (samMoves.event.handle .plain homeConfig).run (beforeMove true) := by
    apply alongFrom_of_script
    intro n q db
    exact ⟨claimsItself_steady claimingSam_noActor _ n q db,
      claimsItself_steady claimingSam_noActor _ n q db⟩
  have hanswers : ∀ o ∈ [tiaAccepts], o.Answers "https://t.ex/u"
      ((beforeMove true).followersOf "https://s.ex/u") (beforeMove true).toCore := by
    intro o ho
    obtain ⟨activity, hactivity, haccepts⟩ := tiaAccepts_accepts
    rw [List.mem_singleton.mp ho]
    exact ⟨activity, hactivity, _, _, 3, beforeMove_account true, hfollower, haccepts⟩
  have hfollowing : (beforeMove true).Following "https://h.ex/users/al" "https://t.ex/u" := by
    apply List.isEmpty_eq_false_iff_exists_mem.mp
    decide +kernel
  have hanswerClaims : Throughout .plain homeConfig (fun o db' =>
      Along fedWorld (ClaimsItself .plain "https://t.ex/u") o.script
        (o.event.handle .plain homeConfig).run db')
      [tiaAccepts] (samMoves.after .plain homeConfig (beforeMove true)) := by
    constructor
    · apply alongFrom_of_script
      apply claimsItself_steady
      intro url response hserve
      cases hserve
    · trivial
  obtain ⟨harrives, _⟩ := move_followers .plain homeConfig "https://s.ex/u" "https://t.ex/u"
    (beforeMove true) (beforeMove_followsKnown true) (hrelay _ rfl) samMoves samMoves_moves
    (samMoves_processed true) hclaims [tiaAccepts] hanswers hanswerClaims
  have haccepted := harrives "https://h.ex/users/al" "al" 3 (beforeMove_account true) hfollower
    ⟨[], tiaAccepts, [], rfl, tiaAccepts_accepts, tiaAccepts_processed true⟩
  apply haccepted.mpr
  exact ⟨hfollowing, by decide⟩

end Federation
