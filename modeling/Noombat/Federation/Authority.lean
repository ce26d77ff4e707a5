import Noombat.Federation.RelayedPost
import Noombat.Federation.HandlerEffects

/-!
# Authority over stored posts

The activities that an actor delivers change no post of another actor, with one exception:
a verified proof is recorded on the post that is stored under the identifier which the
document claims, whoever wrote that post.
-/

namespace Federation

open Fallible Program

/-! ### Posts of others -/

/-- A post is there, and its author is not the given actor. -/
def Core.Foreign (core : Core) (actor : String) (p : Post) : Prop :=
  p ∈ core.posts ∧ ∃ author, author ≠ actor ∧ core.Knows p.actorId author

/-- No post of another actor is changed. -/
structure Core.Spares (actor : String) (core core' : Core) : Prop where
  nextId_le : core.nextId ≤ core'.nextId
  foreign : ∀ p, core.Foreign actor p → core'.Foreign actor p

theorem Core.foreign_iff {core : Core} {actor : String} {p : Post} :
  core.Foreign actor p ↔ p ∈ core.posts ∧ ¬ core.Knows p.actorId actor
  := by
  constructor
  · rintro ⟨hp, author, hne, hknows⟩
    refine ⟨hp, ?_⟩
    intro hactor
    exact hne (hknows.unique hactor)
  · rintro ⟨hp, hactor⟩
    obtain ⟨author, hknows⟩ := exists_author hp
    refine ⟨hp, author, ?_, hknows⟩
    rintro rfl
    exact hactor hknows

variable {actor : String} {core core' core'' : Core}

theorem Core.Spares.refl (core : Core) :
  core.Spares actor core
  := ⟨Nat.le_refl _, fun _ h => h⟩

theorem Core.Spares.trans (h : core.Spares actor core') (h' : core'.Spares actor core'') :
  core.Spares actor core''
  := ⟨Nat.le_trans h.nextId_le h'.nextId_le, fun p hp => h'.foreign p (h.foreign p hp)⟩

theorem Core.Grows.spares (h : core.Grows core') :
  core.Spares actor core'
  := by
  refine ⟨h.nextId_le, ?_⟩
  rintro p ⟨hp, author, hne, hknows⟩
  exact ⟨h.posts_eq ▸ hp, author, hne, h.knows hknows⟩

theorem Core.spares_insertPost {p : Post} (h : core.insertPost p = some core') :
  core.Spares actor core'
  := by
  obtain ⟨hactors, hnext, hposts⟩ := of_insertPost h
  refine ⟨by simp [hnext], ?_⟩
  rintro p' ⟨hp', author, hne, a, ha, hid⟩
  exact ⟨(hposts p').mpr (.inr hp'), author, hne, a, hactors ▸ ha, hid⟩

/-- A change of posts none of which is another's, or changes. -/
theorem Core.spares_updatePosts {q : Post → Bool} {f : PostChange}
    (h : ∀ p, core.Foreign actor p → q p = true → f.apply p = p) :
  core.Spares actor (core.updatePosts q f)
  := by
  refine ⟨Nat.le_refl _, ?_⟩
  intro p hforeign
  refine ⟨mem_updatePosts.mpr ⟨p, hforeign.1, ?_⟩, hforeign.2⟩
  split
  · rename_i hq
    apply h p hforeign hq
  · rfl

/-- The deletion of posts none of which is another's. -/
theorem Core.spares_deletePosts {q : Post → Bool}
    (h : ∀ p, core.Foreign actor p → q p = false) :
  core.Spares actor (core.deletePosts q)
  := by
  refine ⟨Nat.le_refl _, ?_⟩
  intro p hforeign
  exact ⟨mem_deletePosts.mpr ⟨hforeign.1, h p hforeign⟩, hforeign.2⟩

/-- The deletion of an actor spares the posts of others. -/
theorem Core.spares_deleteActors {a : Actor} (ha : a ∈ core.actors) (hactor : a.apId = actor) :
  core.Spares actor (core.deleteActors fun b => b.id == a.id && !b.isLocal)
  := by
  refine ⟨Nat.le_refl _, ?_⟩
  rintro p ⟨hp, author, hne, b, hb, hid, hauthor⟩
  have hother : b.id ≠ a.id := by
    intro heq
    apply hne
    rw [← hauthor, actor_eq_of_id hb ha heq, hactor]
  refine ⟨mem_deleteActors_posts.mpr ⟨hp, ?_⟩, author, hne, b, ?_, hid, hauthor⟩
  · intro c hc hdeleted hauthored
    apply hother
    rw [hid, ← hauthored]
    simpa using (Bool.and_eq_true_iff.mp hdeleted).1
  · apply mem_deleteActors.mpr
    simp [hb, hother]

/-! ### Steps that spare the posts of others -/

/-- The identifier under which a request records a verified proof. -/
def FedRequest.recordsUnder : (q : FedRequest) → fedWorld.Choice q → Option String
  | .sql (.recordVerifiedProof apId _ _), c => if c.error = none then some apId else none
  | _, _ => none

/-- A proof is recorded on a post of the given actor, or on one that has a verified proof
already. -/
def RecordsOwn (actor : String) : Condition fedWorld :=
  fun q c db => ∀ apId ∈ q.recordsUnder c, ∀ p ∈ db.posts.rows, p.apId = apId →
    db.authorIs actor p = true ∨ p.integrityProofVerified = some true

instance (actor : String) (q : FedRequest) (c : fedWorld.Choice q) (db : Db) :
    Decidable (RecordsOwn actor q c db) :=
  inferInstanceAs (Decidable (∀ apId ∈ q.recordsUnder c, ∀ p ∈ db.posts.rows, p.apId = apId →
    db.authorIs actor p = true ∨ p.integrityProofVerified = some true))

/-- Whether a request finds that an announcement is a relay's. -/
def FedRequest.findsRelay : (q : FedRequest) → fedWorld.Choice q → Db → Bool
  | .sql (.relayExists derivedInbox actorUri), c, db =>
      orDefault false (fedWorld.exec (.sql (.relayExists derivedInbox actorUri)) c db).1
  | _, _, _ => false

/-- No announcement is taken for a relay's. -/
def NotRelay : Condition fedWorld :=
  fun q c db => q.findsRelay c db = false

instance (q : FedRequest) (c : fedWorld.Choice q) (db : Db) : Decidable (NotRelay q c db) :=
  inferInstanceAs (Decidable (_ = false))

/-- The requests that spare the posts of others which have an identifier below `base`. -/
inductive FedRequest.Sparing (actor : String) (base : Uuid) : FedRequest → Prop where
  | growing {q} : q.Growing → Sparing actor base q
  | insert post : Sparing actor base (.sql (.insertRemotePost post))
  | record apId object author : Sparing actor base (.sql (.recordVerifiedProof apId object author))
  | update apId content : Sparing actor base (.sql (.updateRemotePost apId content actor))
  | canonical id uri : base ≤ id → Sparing actor base (.sql (.setCanonicalUri id uri))

theorem permits_sparing (actor : String) (base : Uuid) :
  Permits (FedRequest.Sparing actor base)
  := ⟨fun q hq => .growing (permits_growing.read q hq), fun remote => .growing (permits_growing.upsert remote),
    fun target id => .growing (permits_growing.moved target id)⟩

theorem FedRequest.Sparing.exec {base db : Db} {q : FedRequest}
    (h : q.Sparing actor base.nextId) (c : fedWorld.Choice q) (hrecord : RecordsOwn actor q c db)
    (hbase : base.toCore.Spares actor db.toCore) :
  base.toCore.Spares actor (fedWorld.exec q c db).2.toCore
  := by
  cases h with
  | growing h => apply hbase.trans (h.exec c db).spares
  | insert post =>
      apply hbase.trans
      simp only [fedWorld]
      split
      · apply Core.Spares.refl
      · simp only [Sql.exec, Db.insertRemotePost]
        split
        · apply Core.Spares.refl
        · split
          · rename_i core hcore
            apply Core.spares_insertPost hcore
          · apply Core.Spares.refl
  | record apId object author =>
      apply hbase.trans
      simp only [fedWorld]
      split
      · apply Core.Spares.refl
      · rename_i hok
        apply Core.spares_updatePosts
        intro p hforeign hq
        obtain ⟨hp, hauthor⟩ := Core.foreign_iff.mp hforeign
        simp only [Bool.and_eq_true, beq_iff_eq, bne_iff_ne] at hq
        have hunder : FedRequest.recordsUnder (.sql (.recordVerifiedProof apId object author)) c =
            some apId := if_pos hok
        rcases hrecord apId hunder p hp hq.1 with hown | hverified
        · exact absurd (Core.authorIs_iff.mp hown) hauthor
        · exact absurd hverified hq.2
  | update apId content =>
      apply hbase.trans
      simp only [fedWorld]
      split
      · apply Core.Spares.refl
      · apply Core.spares_updatePosts
        intro p hforeign hq
        simp only [Db.isAuthored, Bool.and_eq_true, Core.authorIs_iff] at hq
        exact absurd hq.2 (Core.foreign_iff.mp hforeign).2
  | canonical id uri hid =>
      refine ⟨?_, ?_⟩
      · simp only [fedWorld]
        split
        · apply hbase.nextId_le
        · apply hbase.nextId_le
      · intro p hp
        have hold := base.posts_old p hp.1
        simp only [fedWorld]
        split
        · apply hbase.foreign p hp
        · obtain ⟨hmem, hauthor⟩ := hbase.foreign p hp
          refine ⟨Core.mem_updatePosts.mpr ⟨p, hmem, ?_⟩, hauthor⟩
          have hne : p.id ≠ id := Nat.ne_of_lt (Nat.lt_of_lt_of_le hold hid)
          simp [hne]

variable {C : Condition fedWorld} (hC : ∀ q c db, C q c db → RecordsOwn actor q c db)
  {base db : Db} (hbase : base.toCore.Spares actor db.toCore)

section Handlers

include hC hbase

theorem wp_sparing {α : Type} {p : Program Fed α}
    (h : Every (FedRequest.Sparing actor base.nextId) p) :
  wp fedWorld C (fun _ db' => base.toCore.Spares actor db'.toCore) p db
  := by
  apply Every.wp_inv (fun db : Db => base.toCore.Spares actor db.toCore) _ h hbase
  intro q hq c db hc hdb
  apply hq.exec c (hC q c db hc) hdb

/-- The identifier of a post that is inserted is new. -/
theorem wp_createRemotePost_new (post : RemotePost) :
  wp fedWorld C
    (fun r db' => base.toCore.Spares actor db'.toCore ∧ ∀ id, r = .ok (some id) → base.nextId ≤ id)
    (Repo.createRemotePost post).run db
  := by
  apply wp_and (wp_sparing hC hbase (every_sql (.insert post)))
  apply wp_sql (.insertRemotePost post)
  · intro e id h
    cases h
  intro c _ id h
  simp only [Sql.exec, Db.insertRemotePost] at h
  split at h
  · cases h
  · split at h
    · cases h
      apply hbase.nextId_le
    · cases h

theorem wp_annotatePost_sparing (ext : External) (object : Json) {id : Uuid}
    (hid : base.nextId ≤ id) :
  wp fedWorld C (fun _ db' => base.toCore.Spares actor db'.toCore) (annotatePost ext id object).run
    db
  := by
  apply wp_sparing hC hbase
  apply every_annotatePost (permits_sparing _ _).read
  intro uri
  exact .canonical id uri hid

/-! ### Create and Announce -/

theorem wp_persistCreated_sparing (ext : External) (activity : Activity) (apId : String)
    (postType : PostType) (content : PostContent) (remoteActor : Actor) :
  wp fedWorld C (fun _ db' => base.toCore.Spares actor db'.toCore)
    (persistCreated ext activity apId postType content remoteActor).run db
  := by
  unfold persistCreated
  rw [wp_run_bind]
  apply wp_mono _ (wp_createRemotePost_new hC hbase _)
  rintro (e | _ | id) db₁ ⟨hdb₁, hnew⟩
  · exact hdb₁
  · apply wp_sparing hC hdb₁
    apply every_recordIfVerified (.record _ _ _)
  · rw [onExcept_ok]
    apply wp_run_bind_inv (wp_annotatePost_sparing hC hdb₁ ext _ (hnew id rfl))
    intro _ db₂ hdb₂
    apply wp_sparing hC hdb₂
    apply every_run_bind (every_ignoringErrors
      (every_enqueueIfIndexable (permits_sparing _ _).read id))
    intro _
    apply every_enqueueRemoteImages (permits_sparing _ _).read

theorem wp_handleCreate_sparing (ext : External) (activity : Activity) :
  wp fedWorld C (fun _ db' => base.toCore.Spares actor db'.toCore) (handleCreate ext activity).run
    db
  := by
  have hpermits := permits_sparing actor base.nextId
  apply wp_run_bind_inv (wp_sparing hC hbase (every_okOr _ _))
  intro apId db₁ hdb₁
  apply wp_run_bind_inv (wp_sparing hC hdb₁ (every_verifyObjectProof ext hpermits.consult hpermits.upsert _ _))
  intro proofVerified db₂ hdb₂
  split
  · apply wp_sparing hC hdb₂ (every_run_pure _)
  · apply wp_run_bind_inv (wp_sparing hC hdb₂ (every_resolveActor ext hpermits.consult hpermits.upsert _))
    intro remoteActor db₃ hdb₃
    apply wp_run_bind_inv (wp_sparing hC hdb₃ (every_unwrapOr _ (every_tryDedup hpermits.read _)))
    intro existing db₄ hdb₄
    split
    · apply wp_sparing hC hdb₄ (every_run_pure _)
    · apply wp_persistCreated_sparing hC hdb₄

theorem wp_persistFetched_sparing (ext : External) (object : Json) (apId authorUri : String)
    (postType : PostType) (content : PostContent) :
  wp fedWorld C (fun _ db' => base.toCore.Spares actor db'.toCore)
    (persistFetched ext object apId authorUri postType content).run db
  := by
  have hgrowing := every_resolveActor (P := FedRequest.Sparing actor base.nextId) ext
    (permits_sparing _ _).consult (permits_sparing _ _).upsert authorUri
  apply wp_run_bind_inv (wp_sparing hC hbase hgrowing)
  intro author db₁ hdb₁
  apply wp_run_bind_inv (wp_sparing hC hdb₁ (every_recordIfVerified (.record _ _ _)))
  intro _ db₂ hdb₂
  rw [wp_run_bind]
  apply wp_mono _ (wp_createRemotePost_new hC hdb₂ _)
  rintro (e | _ | id) db₃ ⟨hdb₃, hnew⟩
  · exact hdb₃
  · rw [onExcept_ok]
    apply wp_sparing hC hdb₃
    apply every_run_bind (every_sql (.growing (.inl rfl)))
    intro existing
    apply every_okOr
  · rw [onExcept_ok]
    apply wp_run_bind_inv (wp_annotatePost_sparing hC hdb₃ ext _ (hnew id rfl))
    intro _ db₄ hdb₄
    apply wp_sparing hC hdb₄ (every_run_pure _)

theorem wp_fetchAndPersistRemotePost_sparing (ext : External) (uri : String) :
  wp fedWorld C (fun _ db' => base.toCore.Spares actor db'.toCore)
    (fetchAndPersistRemotePost ext uri).run db
  := by
  have hpermits := permits_sparing actor base.nextId
  apply wp_run_bind_inv (wp_sparing hC hbase ((every_run_ask _).mpr (hpermits.read _ rfl)))
  intro response db₁ hdb₁
  unfold persistResponse
  split
  · apply wp_run_bind_inv (wp_sparing hC hdb₁ (every_ofExcept _))
    intro object db₂ hdb₂
    apply wp_run_bind_inv (wp_sparing hC hdb₂ (every_ofExcept _))
    rintro ⟨postType, apId, authorUri⟩ db₃ hdb₃
    apply wp_run_bind_inv (wp_sparing hC hdb₃ (every_verifyObjectProof ext hpermits.consult hpermits.upsert _ _))
    intro proofVerified db₄ hdb₄
    apply wp_run_bind_inv (wp_sparing hC hdb₄ (every_unwrapOr _ (every_tryDedup hpermits.read _)))
    intro existing db₅ hdb₅
    split
    · apply wp_sparing hC hdb₅ (every_run_pure _)
    · apply wp_persistFetched_sparing hC hdb₅
  · apply wp_sparing hC hdb₁ (every_run_throw _)

theorem wp_handleBoost_sparing (ext : External) (activity : Activity) :
  wp fedWorld C (fun _ db' => base.toCore.Spares actor db'.toCore) (handleBoost ext activity).run
    db
  := by
  have hgrowing := every_resolveActor (P := FedRequest.Sparing actor base.nextId) ext
    (permits_sparing _ _).consult (permits_sparing _ _).upsert
    activity.actor
  apply wp_run_bind_inv (wp_sparing hC hbase (every_okOr _ _))
  intro uri db₁ hdb₁
  apply wp_run_bind_inv (wp_sparing hC hdb₁ hgrowing)
  intro remoteActor db₂ hdb₂
  have hboosted : wp fedWorld C (fun _ db' => base.toCore.Spares actor db'.toCore)
      (boostedPost ext uri).run db₂ := by
    apply wp_run_bind_inv (wp_sparing hC hdb₂ (every_sql (.growing (.inl rfl))))
    intro known db₃ hdb₃
    split
    · apply wp_sparing hC hdb₃ (every_run_pure _)
    · apply wp_run_bind_inv
      · rw [wp_run_attempt]
        apply wp_fetchAndPersistRemotePost_sparing hC hdb₃
      · intro fetched db₄ hdb₄
        apply wp_sparing hC hdb₄ (every_run_pure _)
  apply wp_run_bind_inv hboosted
  rintro (_ | postId) db₃ hdb₃
  · apply wp_sparing hC hdb₃ (every_run_pure _)
  · apply wp_sparing hC hdb₃
    apply every_sql
    exact .growing (.inl rfl)

/-- An announcement that is not taken for a relay's is a boost. -/
theorem wp_handleAnnounce_sparing (hrelay : ∀ q c db, C q c db → NotRelay q c db)
    (ext : External) (config : Config) (activity : Activity) :
  wp fedWorld C (fun _ db' => base.toCore.Spares actor db'.toCore)
    (handleAnnounce ext config activity).run db
  := by
  have hnone : wp fedWorld C (onExcept (fun isRelay _ => isRelay = false) (fun _ _ => True))
      (isRelayAnnounce activity.actor).run db := by
    unfold isRelayAnnounce
    rw [wp_unwrapOr]
    apply (wp_request (.sql (.relayExists s!"{activity.actor}/inbox" activity.actor)) _ _).mpr
    intro c hc
    exact hrelay _ c db hc
  have hsparing : wp fedWorld C (fun _ db' => base.toCore.Spares actor db'.toCore)
      (isRelayAnnounce activity.actor).run db := by
    apply wp_sparing hC hbase
    apply every_unwrapOr
    apply every_sql
    exact .growing (.inl rfl)
  unfold handleAnnounce
  rw [wp_run_bind]
  apply wp_mono _ (wp_and hnone hsparing)
  rintro (e | isRelay) db₁ ⟨hisRelay, hdb₁⟩
  · exact hdb₁
  · cases hisRelay
    apply wp_handleBoost_sparing hC hdb₁

/-! ### Delete -/

omit hC hbase in
theorem wp_selfDeleted (objectId : String) :
  wp fedWorld C
    (onExcept
      (fun remoteActor db' => db' = db ∧ ∀ a, remoteActor = some a → a ∈ db.actors ∧ a.apId = actor)
      (fun _ db' => db' = db))
    (selfDeleted objectId actor).run db
  := by
  unfold selfDeleted
  split
  · rename_i hself
    rw [wp_run_bind]
    apply wp_sql (.findByApId objectId)
    · intro e
      rfl
    intro c _
    rw [Sql.exec, onExcept_ok, wp_run_pure]
    refine ⟨rfl, ?_⟩
    intro a ha
    obtain ⟨hfind, _⟩ := Option.filter_eq_some_iff.mp ha
    have hapId : a.apId = objectId := by simpa using Table.satisfies_of_find hfind
    exact ⟨Table.mem_of_find hfind, hapId.trans hself⟩
  · rw [wp_run_pure]
    refine ⟨rfl, ?_⟩
    intro a ha
    cases ha

omit hC in
/-- An actor that is deleted at its own request takes only its own posts along. -/
theorem wp_deleteActor_sparing (objectId : String) {remoteActor : Actor}
    (hactor : remoteActor ∈ db.actors) (hself : remoteActor.apId = actor) :
  wp fedWorld C (fun _ db' => base.toCore.Spares actor db'.toCore)
    (deleteActor objectId remoteActor).run db
  := by
  have hsame : ∀ db' : Db, db'.toCore = db.toCore → base.toCore.Spares actor db'.toCore := by
    intro db' hcore
    rw [hcore]
    exact hbase
  have hremovals : Every (fun q : FedRequest => q.writesCore = false)
      (ignoringErrors (enqueueRemovalsForActor remoteActor.id)).run :=
    every_ignoringErrors (every_enqueueRemovalsForActor (fun _ => FedRequest.writesCore_of_isMinor) _)
  have htombstone : Every (fun q : FedRequest => q.writesCore = false)
      (Repo.insertTombstone objectId).run := every_sql rfl
  unfold deleteActor
  rw [wp_run_bind]
  apply wp_mono _ (wp_reading hremovals db)
  rintro (e | _) db₁ hdb₁
  · exact hsame db₁ hdb₁
  rw [onExcept_ok, wp_run_bind]
  apply wp_mono _ (wp_reading htombstone db₁)
  rintro (e | _) db₂ hdb₂
  · exact hsame db₂ (hdb₂.trans hdb₁)
  rw [onExcept_ok]
  apply wp_sql (.deleteRemoteActor remoteActor.id)
  · intro e
    exact hsame db₂ (hdb₂.trans hdb₁)
  · intro c _
    change base.toCore.Spares actor (db₂.deleteActors _)
    rw [hdb₂.trans hdb₁]
    apply hbase.trans (Core.spares_deleteActors hactor hself)

omit hC in
/-- A post is deleted only if the actor wrote the one that is stored under its identifier. -/
theorem wp_deleteAuthored_sparing (objectId : String) :
  wp fedWorld C (fun _ db' => base.toCore.Spares actor db'.toCore)
    (deleteAuthored objectId actor).run db
  := by
  unfold deleteAuthored
  rw [wp_run_bind]
  apply wp_sql (.countAuthored objectId actor)
  · intro e
    exact hbase
  intro c _
  rw [Sql.exec, onExcept_ok]
  split
  · rw [wp_run_pure]
    exact hbase
  · rename_i hcount
    obtain ⟨p, hp, hauthored⟩ := List.countP_pos_iff.mp (Nat.pos_of_ne_zero hcount)
    simp only [Db.isAuthored, Bool.and_eq_true, beq_iff_eq, Core.authorIs_iff] at hauthored
    have hsame : ∀ db' : Db, db'.toCore = db.toCore → base.toCore.Spares actor db'.toCore := by
      intro db' hcore
      rw [hcore]
      exact hbase
    have hdelete : ∀ db' : Db, db'.toCore = db.toCore →
        wp fedWorld C (fun _ db'' => base.toCore.Spares actor db''.toCore)
          (Repo.deletePost objectId).run db' := by
      intro db' hcore
      apply wp_sql (.deletePost objectId)
      · intro e
        rw [hcore]
        exact hbase
      · intro c _
        change base.toCore.Spares actor (db'.deletePosts _)
        rw [hcore]
        apply hbase.trans
        apply Core.spares_deletePosts
        intro p' hforeign
        obtain ⟨hp', hauthor⟩ := Core.foreign_iff.mp hforeign
        rw [beq_eq_false_iff_ne]
        intro hsame
        apply hauthor
        rw [Core.post_eq_of_apId hp' hp (hsame.trans hauthored.1.symm)]
        exact hauthored.2
    rw [wp_run_bind]
    apply wp_sql (.postIdByApId objectId)
    · intro e
      exact hbase
    intro c _
    rw [Sql.exec, onExcept_ok]
    split
    · rename_i postId _
      rw [wp_run_bind]
      have hremoval : Every (fun q : FedRequest => q.writesCore = false)
          (ignoringErrors (Repo.enqueueRemoval "posts" (toString postId))).run :=
        every_ignoringErrors (every_sql rfl)
      apply wp_mono _ (wp_reading hremoval db)
      rintro (e | _) db₁ hdb₁
      · exact hsame db₁ hdb₁
      · apply hdelete db₁ hdb₁
    · apply hdelete db rfl

theorem wp_handleDelete_sparing (activity : Activity) (hactor : activity.actor = actor) :
  wp fedWorld C (fun _ db' => base.toCore.Spares actor db'.toCore) (handleDelete activity).run db
  := by
  subst hactor
  apply wp_run_bind_inv (wp_sparing hC hbase (every_okOr _ _))
  intro objectId db₁ hdb₁
  rw [wp_run_bind]
  apply wp_mono _ (wp_selfDeleted objectId)
  rintro (e | remoteActor) db₂ hself
  · cases hself
    exact hdb₁
  obtain ⟨rfl, hself⟩ := hself
  rw [onExcept_ok]
  cases remoteActor with
  | none => apply wp_deleteAuthored_sparing hdb₁
  | some remoteActor =>
      obtain ⟨hmem, hapId⟩ := hself remoteActor rfl
      apply wp_deleteActor_sparing hdb₁ objectId hmem hapId

/-! ### The dispatcher -/

theorem wp_dispatch_sparing (hrelay : ∀ q c db, C q c db → NotRelay q c db) (ext : External)
    (config : Config) (activity : Activity) (hactor : activity.actor = actor) :
  wp fedWorld C (fun _ db' => base.toCore.Spares actor db'.toCore)
    (dispatch ext config activity).run db
  := by
  have hpermits := permits_sparing actor base.nextId
  unfold dispatch
  split
  · apply wp_sparing hC hbase (every_handleFollow ext hpermits _ fun _ => .growing (.inl rfl))
  · apply wp_sparing hC hbase (every_handleUndo ext hpermits _)
  · apply wp_handleCreate_sparing hC hbase
  · apply wp_handleDelete_sparing hC hbase activity hactor
  · apply wp_sparing hC hbase (every_handleAccept ext hpermits _)
  · apply wp_sparing hC hbase (every_handleReject ext hpermits _)
  · apply wp_handleAnnounce_sparing hC hbase hrelay
  · apply wp_sparing hC hbase (every_handleLike ext hpermits _)
  · apply wp_sparing hC hbase
    apply every_handleUpdate ext hpermits
    intro apId content
    rw [hactor]
    exact .update apId content
  · apply wp_sparing hC hbase (every_handleBlock ext hpermits _)
  · apply wp_sparing hC hbase (every_handleInboundMove ext hpermits _)
  · apply wp_sparing hC hbase (every_handleInboundFlag ext hpermits _)
  · apply wp_sparing hC hbase (every_run_pure _)

theorem wp_processActivity_sparing (hrelay : ∀ q c db, C q c db → NotRelay q c db)
    (ext : External) (config : Config) (document : Json) (activity : Activity) :
  wp fedWorld C (fun _ db' => base.toCore.Spares actor db'.toCore)
    (processActivity ext config actor document activity).run db
  := by
  unfold processActivity
  split
  · rename_i hactor
    have hverify := every_verifyInboundProof (P := FedRequest.Sparing actor base.nextId) ext
      (permits_sparing _ _).consult (permits_sparing _ _).upsert
      document activity.actor
    apply wp_run_bind_inv (wp_sparing hC hbase hverify)
    rintro (_ | _ | _) db₁ hdb₁
    · apply wp_dispatch_sparing hC hdb₁ hrelay ext config activity hactor.symm
    · apply wp_sparing hC hdb₁ (every_run_throw _)
    · apply wp_dispatch_sparing hC hdb₁ hrelay ext config activity hactor.symm
  · apply wp_sparing hC hbase (every_run_throw _)

end Handlers

/-! ### Deliveries of one actor -/

/-- A document that is delivered, and the activity it is read as. -/
structure Inbound where
  document : Json
  activity : Activity

/-- The activities that an actor delivers, one after the other; a failure ends only the one
that fails. -/
def deliveries (ext : External) (config : Config) (actor : String) (inbound : List Inbound) :
    Handler PUnit :=
  forM inbound fun i => ignoringErrors (processActivity ext config actor i.document i.activity)

/-- The activities that an actor delivers leave every post of another actor as it is, if a
proof is only ever recorded on a post of the actor, or on one that has a verified proof
already, and the actor is not taken for a relay. -/
theorem deliveries_spare (ext : External) (config : Config) (actor : String)
    (inbound : List Inbound) (script : Script fedWorld) (db : Db)
    (hrelay : Along fedWorld NotRelay script (deliveries ext config actor inbound).run db)
    (hrecord : Along fedWorld (RecordsOwn actor) script (deliveries ext config actor inbound).run
      db)
    (p : Post) (hp : p ∈ db.posts) (hauthor : ¬ db.Knows p.actorId actor) :
  p ∈ (run fedWorld script (deliveries ext config actor inbound).run db).2.posts ∧
    ¬ (run fedWorld script (deliveries ext config actor inbound).run db).2.Knows p.actorId actor
  := by
  have hspares : wp fedWorld (fun q c db => NotRelay q c db ∧ RecordsOwn actor q c db)
      (onExcept (fun _ (db' : Db) => db.toCore.Spares actor db'.toCore)
        (fun _ (db' : Db) => db.toCore.Spares actor db'.toCore))
      (deliveries ext config actor inbound).run db := by
    apply wp_run_forM (fun _ (db' : Db) => db.toCore.Spares actor db'.toCore)
    · intro i rest db' hdb'
      rw [wp_ignoringErrors]
      apply wp_processActivity_sparing (fun _ _ _ hc => hc.2) hdb' (fun _ _ _ hc => hc.1)
    · apply Core.Spares.refl
  have hrun := wp_run hspares (hrelay.and hrecord)
  apply Core.foreign_iff.mp
  cases hresult : (run fedWorld script (deliveries ext config actor inbound).run db).1 with
  | ok _ =>
      rw [hresult] at hrun
      apply hrun.foreign p (Core.foreign_iff.mpr ⟨hp, hauthor⟩)
  | error e =>
      rw [hresult] at hrun
      apply hrun.foreign p (Core.foreign_iff.mpr ⟨hp, hauthor⟩)

/-! ### A proof recorded on another's post -/

/-- The libraries on plain inputs and small documents, with keys that are written as one
character and signatures that are written as two. -/
def External.brief : External :=
  { External.plain with
    serialisedLen := fun _ => 0
    base58Decode := fun s =>
      match s.toList with
      | [c] => some (List.replicate 32 (UInt8.ofNat c.toNat))
      | [c, _] => some (List.replicate 64 (UInt8.ofNat c.toNat))
      | _ => none }

/-- Ann and Mal have accounts on one server. -/
def ann : String := "https://s.ex/a"

def mal : String := "https://s.ex/m"

/-- Mal delivers a signed note under an identifier, as his own. -/
def signedDelivery (id : String) : Inbound where
  document := .obj []
  activity :=
    { context := none
      id := "https://s.ex/c"
      activityType := "Create"
      actor := mal
      object := signedNote id mal (mal ++ "#k") "zmm"
      «to» := none
      cc := none
      published := none
      target := none
      content := none }

/-- Ann and Mal are known, and a post of Ann. -/
def postedDb : Db :=
  let core := (dbOf [.remote ann "ann" "PEM" none, .remote mal "mal" "PEM" (some "zm")]).toCore
  { Db.empty with
    toCore := core.withPosts [.plain 1 "https://s.ex/1" (note "https://s.ex/1" ann)] }

/-- What remains when Mal delivers a note under a given identifier. -/
def signedDeliveryRun (id : String) : Except NoombatError PUnit × Db :=
  run fedWorld (steady fun _ => .error .forbidden)
    (deliveries .brief relayConfig mal [signedDelivery id]).run postedDb

theorem signedDelivery_notRelay :
  Along fedWorld NotRelay (steady fun _ => .error .forbidden)
    (deliveries .brief relayConfig mal [signedDelivery "https://s.ex/1"]).run postedDb
  := by
  decide +kernel

/-- Mal has a proof recorded on the post of Ann. -/
theorem signedDelivery_changes :
  Along fedWorld NotRelay (steady fun _ => .error .forbidden)
      (deliveries .brief relayConfig mal [signedDelivery "https://s.ex/1"]).run postedDb ∧
    ∃ p ∈ postedDb.posts, ¬ postedDb.Knows p.actorId mal ∧
      p ∉ (signedDeliveryRun "https://s.ex/1").2.posts
  := by
  have hbefore : (postedDb.posts.rows.any fun p =>
      !postedDb.authorIs mal p && p.integrityProofVerified == none) = true := by
    decide +kernel
  have hafter : ((signedDeliveryRun "https://s.ex/1").2.posts.rows.all fun p =>
      p.integrityProofVerified == some true) = true := by
    decide +kernel
  obtain ⟨p, hp, htest⟩ := List.any_eq_true.mp hbefore
  simp only [Bool.and_eq_true, Bool.not_eq_true', beq_iff_eq] at htest
  refine ⟨signedDelivery_notRelay, p, hp, ?_, ?_⟩
  · intro hknows
    exact Bool.false_ne_true (htest.1.symm.trans (Core.authorIs_iff.mpr hknows))
  · intro hstays
    have hverified := List.all_eq_true.mp hafter p hstays
    rw [htest.2] at hverified
    exact Bool.false_ne_true hverified

/-- A note of Mal under a new identifier leaves a post of Ann as it is. -/
theorem signedDelivery_spares :
  ∃ p ∈ postedDb.posts, p ∈ (signedDeliveryRun "https://s.ex/2").2.posts ∧
    ¬ (signedDeliveryRun "https://s.ex/2").2.Knows p.actorId mal
  := by
  have hany : (postedDb.posts.rows.any fun p => !postedDb.authorIs mal p) = true := by
    decide +kernel
  obtain ⟨p, hp, htest⟩ := List.any_eq_true.mp hany
  have hauthor : ¬ postedDb.Knows p.actorId mal := by
    intro hknows
    rw [Core.authorIs_iff.mpr hknows] at htest
    cases htest
  have hrelay : Along fedWorld NotRelay (steady fun _ => .error .forbidden)
      (deliveries .brief relayConfig mal [signedDelivery "https://s.ex/2"]).run postedDb := by
    decide +kernel
  have hrecord : Along fedWorld (RecordsOwn mal) (steady fun _ => .error .forbidden)
      (deliveries .brief relayConfig mal [signedDelivery "https://s.ex/2"]).run postedDb := by
    decide +kernel
  have hspared := deliveries_spare .brief relayConfig mal _ _ postedDb hrelay hrecord p hp hauthor
  exact ⟨p, hp, hspared⟩

end Federation
