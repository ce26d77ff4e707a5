import Noombat.Federation.Effects

/-!
# What is stored

The posts that the storing functions leave behind, and the actors they are attributed to.
A post is inserted from its document under the identifier of its author, and what follows
only changes its marks: the verdict on its proof, its canonical identifier, and whether a
relay vouched for it.
-/

namespace Federation

open Fallible Program

/-! ### Fetches -/

/-- The URL of a fetch and the answer to it. -/
def FedRequest.fetched : (q : FedRequest) → fedWorld.Choice q → Option (String × Response)
  | .signedGet url _, .ok response => some (url, response)
  | .guardedGet url, .ok response => some (url, response)
  | _, _ => none

variable {C : Condition fedWorld}

theorem wp_signedGet {url : String} {signer : Uuid}
    {Post : Except NoombatError Response → Db → Prop} {db : Db}
    (h : ∀ r : Except NoombatError Response, C (.signedGet url signer) r db → Post r db) :
  wp fedWorld C Post (signedGet url signer).run db
  := (wp_request (FedRequest.signedGet url signer) Post db).mpr h

theorem wp_guardedGet {url : String} {Post : Except NoombatError Response → Db → Prop} {db : Db}
    (h : ∀ r : Except NoombatError Response, C (.guardedGet url) r db → Post r db) :
  wp fedWorld C Post (guardedGet url).run db
  := (wp_request (FedRequest.guardedGet url) Post db).mpr h

/-- A statement that reads leaves the database as it is. -/
theorem wp_reads (st : Sql) (h : ∀ pick db, (st.exec pick db).2 = db) (db : Db) :
  wp fedWorld C (fun _ db' => db' = db) (sql st).run db
  := by
  apply wp_sql st
  · intro e
    rfl
  · intro c _
    apply h

theorem wp_findLocalSigningActor (db : Db) :
  wp fedWorld C (fun _ db' => db' = db) findLocalSigningActor.run db
  := by
  rw [findLocalSigningActor, wp_run_bind]
  apply wp_mono _ (wp_reads (.signingActor true) (fun _ _ => rfl) db)
  rintro (e | row) _ rfl
  · rfl
  · rw [onExcept_ok]
    cases row with
    | some id => exact (wp_run_pure _ id _).mpr rfl
    | none =>
        rw [wp_run_bind]
        apply wp_mono _ (wp_reads (.signingActor false) (fun _ _ => rfl) _)
        rintro (e | any) _ rfl
        · rfl
        · rw [onExcept_ok, wp_okOr]

/-- The answers to fetches of a URL that meet the condition. -/
def Fetches (C : Condition fedWorld) (url : String) (response : Response) : Prop :=
  ∃ q c db, C q c db ∧ q.fetched c = some (url, response)

theorem wp_fetchSigned (url : String) (db : Db) :
  wp fedWorld C
    (onExcept (fun response db' => Fetches C url response ∧ db.toCore.Grows db'.toCore)
      (fun _ _ => True))
    (fetchSigned url).run db
  := by
  unfold fetchSigned
  rw [wp_run_bind, wp_run_attempt]
  have hgrows := every_findLocalSigningActor (P := FedRequest.Growing) (FedRequest.consulting fun q hq => .inl hq)
  apply wp_mono _ (wp_growing hgrows db)
  intro signer db₁ hdb
  rw [onExcept_ok]
  split
  · apply wp_signedGet
    rintro (e | response) hc
    · trivial
    · exact ⟨⟨_, _, _, hc, rfl⟩, hdb⟩
  · rw [wp_run_throw]
    trivial
  · apply wp_guardedGet
    rintro (e | response) hc
    · trivial
    · exact ⟨⟨_, _, _, hc, rfl⟩, hdb⟩

/-! ### The actors that are resolved -/

variable {ext : External}

/-- An actor that is stored is read back under the URI that was given. -/
theorem wp_upsertRemoteActor (remote : RemoteActor) (db : Db) :
  wp fedWorld C
    (onExcept (fun a db' => db'.Knows a.id a.apId ∧ a.apId = remote.apId) (fun _ _ => True))
    (Repo.upsertRemoteActor remote).run db
  := by
  unfold Repo.upsertRemoteActor
  rw [wp_run_bind]
  apply wp_sql (.upsertRemoteActor remote)
  · intro e
    trivial
  intro c _
  generalize Sql.exec c.pick (.upsertRemoteActor remote) db = stored
  obtain ⟨e | _, db₁⟩ := stored
  · trivial
  rw [onExcept_ok, wp_run_bind]
  apply wp_sql (.findByApId remote.apId)
  · intro e
    trivial
  intro c _
  rw [Sql.exec, onExcept_ok, wp_run_bind, wp_okOr]
  cases hfind : db₁.actors.find (·.apId == remote.apId) with
  | none => trivial
  | some a =>
      have ha := Table.mem_of_find hfind
      have hapId : a.apId = remote.apId := by simpa using Table.satisfies_of_find hfind
      simp only [Option.elim, onExcept_ok]
      split
      · rw [wp_run_throw]
        trivial
      · rw [wp_run_pure]
        exact ⟨⟨a, ha, rfl, rfl⟩, hapId⟩

/-- What a URI may be resolved to: the actor with this URI, or the one that a document served
for the URI is entitled to describe. -/
def ResolvesTo (ext : External) (C : Condition fedWorld) (uri author : String) : Prop :=
  author = uri ∨ ∃ response apActor, Fetches C uri response ∧ response.actor = .ok apActor ∧
    verifyFetchedActorId ext apActor.id response.url uri = .ok () ∧ author = apActor.id

theorem wp_fetchActor (uri : String) (db : Db) :
  wp fedWorld C
    (onExcept (fun a db' => db'.Knows a.id a.apId ∧ ResolvesTo ext C uri a.apId)
      (fun _ _ => True))
    (fetchActor ext uri).run db
  := by
  unfold fetchActor
  rw [wp_run_bind]
  apply wp_mono _ (wp_fetchSigned uri db)
  rintro (e | response) db₁ hresponse
  · trivial
  obtain ⟨hfetch, _⟩ := hresponse
  rw [onExcept_ok]
  split
  · rw [wp_run_bind, wp_ignoringErrors]
    have hgrows : Every FedRequest.Growing (Repo.insertTombstone uri).run := every_sql (.inl rfl)
    apply wp_mono _ (wp_growing hgrows db₁)
    intro _ db₂ _
    rw [onExcept_ok, wp_run_throw]
    trivial
  · split
    · rw [wp_run_bind, wp_ofExcept]
      cases hactor : response.actor with
      | error e => trivial
      | ok apActor =>
          rw [onExcept_ok, wp_run_bind, wp_ofExcept]
          cases hremote : apActorToRemote ext apActor response.url uri with
          | error e => trivial
          | ok remote =>
              rw [onExcept_ok]
              obtain ⟨hid, hapId, _⟩ := of_apActorToRemote hremote
              apply wp_mono _ (wp_upsertRemoteActor remote db₁)
              rintro (e | a) db₂ ha
              · trivial
              · obtain ⟨hknows, ha⟩ := ha
                exact ⟨hknows, .inr ⟨response, apActor, hfetch, hactor, hid, ha.trans hapId⟩⟩
    · rw [wp_run_throw]
      trivial

/-- An actor that is resolved is known, under the URI it was asked for or the one that the
document served for this URI claims. -/
theorem wp_resolveActor (uri : String) (db : Db) :
  wp fedWorld C
    (onExcept (fun a db' => db'.Knows a.id a.apId ∧ ResolvesTo ext C uri a.apId)
      (fun _ _ => True))
    (resolveActor ext uri).run db
  := by
  unfold resolveActor
  rw [wp_run_bind]
  apply wp_sql (.findByApId uri)
  · intro e
    trivial
  intro c _
  rw [Sql.exec, onExcept_ok]
  split
  · rename_i a hfind
    rw [wp_run_pure]
    have hapId : a.apId = uri := by simpa using Table.satisfies_of_find hfind
    exact ⟨⟨a, Table.mem_of_find hfind, rfl, rfl⟩, .inl hapId⟩
  · rw [wp_run_bind, wp_unwrapOr]
    have hgrows : Every FedRequest.Growing (Repo.isTombstoned uri).run := every_sql (.inl rfl)
    apply wp_mono _ (wp_growing hgrows db)
    intro isTombstoned db₁ _
    rw [onExcept_ok]
    split
    · rw [wp_run_throw]
      trivial
    · apply wp_fetchActor

/-- An actor that is resolved is of the origin of the URI it was asked for. -/
theorem ResolvesTo.originOf_eq {uri author : String} (h : ResolvesTo ext C uri author) :
  originOf ext author = originOf ext uri
  := by
  rcases h with rfl | ⟨response, apActor, _, _, hid, rfl⟩
  · rfl
  · exact originOf_eq_of_entitled hid

/-! ### Posts up to their marks -/

/-- A post without its marks. -/
def Post.unmarked (p : Post) : Post :=
  { p with integrityProofVerified := none, canonicalUri := none, relayedUnverified := false }

/-- Posts are marked at most, and no actor is forgotten. -/
structure Core.Keeps (core core' : Core) : Prop where
  nextId_le : core.nextId ≤ core'.nextId
  knows : ∀ {id apId}, core.Knows id apId → core'.Knows id apId
  posts : ∀ p' ∈ core'.posts, ∃ p ∈ core.posts, p'.unmarked = p.unmarked

theorem Core.Keeps.refl (core : Core) :
  core.Keeps core
  := ⟨Nat.le_refl _, id, fun p hp => ⟨p, hp, rfl⟩⟩

theorem Core.Keeps.trans {core core' core'' : Core} (h : core.Keeps core')
    (h' : core'.Keeps core'') :
  core.Keeps core''
  := by
  refine ⟨Nat.le_trans h.nextId_le h'.nextId_le, h'.knows ∘ h.knows, ?_⟩
  intro p'' hp''
  obtain ⟨p', hp', hmarks'⟩ := h'.posts p'' hp''
  obtain ⟨p, hp, hmarks⟩ := h.posts p' hp'
  exact ⟨p, hp, hmarks'.trans hmarks⟩

theorem Core.Grows.keeps {core core' : Core} (h : core.Grows core') :
  core.Keeps core'
  := ⟨h.nextId_le, h.knows, fun p hp => ⟨p, h.posts_eq ▸ hp, rfl⟩⟩

/-- A change of marks. -/
theorem Core.keeps_updatePosts (core : Core) (q : Post → Bool) (f : PostChange)
    (hf : ∀ p, (f.apply p).unmarked = p.unmarked) :
  core.Keeps (core.updatePosts q f)
  := by
  refine ⟨Nat.le_refl _, id, ?_⟩
  intro p' hp'
  obtain ⟨p, hp, rfl⟩ := mem_updatePosts.mp hp'
  refine ⟨p, hp, ?_⟩
  split
  · apply hf
  · rfl

/-- The requests that mark posts at most, and forget no actor. -/
def FedRequest.Keeping (q : FedRequest) : Prop :=
  q.Growing ∨ (∃ apId object author, q = .sql (.recordVerifiedProof apId object author)) ∨
    (∃ apId, q = .sql (.markRelayedUnverified apId)) ∨
    ∃ id uri, q = .sql (.setCanonicalUri id uri)

theorem FedRequest.Keeping.exec {q : FedRequest} (h : q.Keeping) (c : fedWorld.Choice q)
    (db : Db) :
  db.toCore.Keeps (fedWorld.exec q c db).2.toCore
  := by
  rcases h with h | ⟨apId, object, author, rfl⟩ | ⟨apId, rfl⟩ | ⟨id, uri, rfl⟩
  · apply (h.exec c db).keeps
  all_goals
    simp only [fedWorld]
    split
    · apply Core.Keeps.refl
    · apply Core.keeps_updatePosts
      intro p
      rfl

/-- Running a program that marks posts at most keeps them up to their marks. -/
theorem wp_keeping {α : Type} {p : Program Fed α} (h : Every FedRequest.Keeping p) (db : Db) :
  wp fedWorld C (fun _ db' => db.toCore.Keeps db'.toCore) p db
  := by
  apply Every.wp_rel (G := fun s s' : Db => s.toCore.Keeps s'.toCore) _ _ _ h db
  · intro s
    apply Core.Keeps.refl
  · intro s s' s'' h h'
    apply h.trans h'
  · intro q hq c s _
    apply hq.exec

/-! ### The requests of the storing functions -/

section Requests

theorem every_tryDedup {P : FedRequest → Prop}
    (hread : ∀ q : FedRequest, q.isMinor = true → P q) (object : Json) :
  Every P (tryDedup object).run
  := by
  unfold tryDedup
  split
  · apply every_run_bind (every_sql (hread _ rfl))
    intro byCanonical
    dsimp only
    split
    · apply every_run_pure
    · apply every_sql (hread _ rfl)
    · apply every_run_pure
  · apply every_run_bind (every_run_pure _)
    intro byCanonical
    dsimp only
    split
    · apply every_run_pure
    · apply every_sql (hread _ rfl)
    · apply every_run_pure

theorem every_recordIfVerified {P : FedRequest → Prop} {apId : String} {object : Json}
    {author : String} {content : PostContent}
    (hrecord : P (.sql (.recordVerifiedProof apId object author))) :
  Every P (recordIfVerified apId object author content).run
  := by
  unfold recordIfVerified
  split
  · apply every_ignoringErrors
    apply every_run_bind (every_sql hrecord)
    intro _
    apply every_run_pure
  · apply every_run_pure

variable {P : FedRequest → Prop} (hread : ∀ q : FedRequest, q.isMinor = true → P q)

include hread

theorem every_linkPostHashtags (postId : Uuid) (names : List String) :
  Every P (linkPostHashtags ext postId names).run
  := by
  unfold linkPostHashtags
  split
  · apply every_run_pure
  · apply every_run_bind (every_sql (hread _ rfl))
    intro ids
    apply every_sql (hread _ rfl)

theorem every_enqueueIfIndexable (postId : Uuid) :
  Every P (enqueueIfIndexable postId).run
  := by
  apply every_run_bind (every_unwrapOr _ (every_sql (hread _ rfl)))
  intro setting
  split
  · apply every_run_bind (every_sql (hread _ rfl))
    intro row
    split
    · apply every_run_pure
    · split
      · apply every_run_bind (every_sql (hread _ rfl))
        intro actorId
        apply every_run_bind (every_okOr _ _)
        intro actorId
        apply every_sql (hread _ rfl)
      · apply every_run_pure
  · apply every_run_pure

theorem every_enqueueRemoteImages (postId actorId : Uuid) (images : List RemoteImage) :
  Every P (enqueueRemoteImages postId actorId images).run
  := by
  apply every_run_forM
  intro image _
  apply every_ignoringErrors (every_sql (hread _ rfl))

theorem every_annotatePost (postId : Uuid) (object : Json)
    (hcanonical : ∀ uri, P (.sql (.setCanonicalUri postId uri))) :
  Every P (annotatePost ext postId object).run
  := by
  have hlink : Every P (ignoringErrors
      (linkPostHashtags ext postId (extractHashtagsFromTags ext object))).run :=
    every_ignoringErrors (every_linkPostHashtags hread postId _)
  unfold annotatePost
  split
  · apply every_run_bind (every_ignoringErrors (every_sql (hcanonical _)))
    intro _
    apply hlink
  · apply hlink

end Requests

/-! ### Posts that are stored -/

/-- Every post was there, up to its marks, or satisfies `New`. -/
structure Core.Stores (core core' : Core) (New : Core → Post → Prop) : Prop where
  nextId_le : core.nextId ≤ core'.nextId
  knows : ∀ {id apId}, core.Knows id apId → core'.Knows id apId
  posts : ∀ p' ∈ core'.posts, (∃ p ∈ core.posts, p'.unmarked = p.unmarked) ∨ New core' p'

/-- A property of posts that depends on their marks only in so far as these may be changed,
and on the actors only in so far as these are known. -/
def Lasting (New : Core → Post → Prop) : Prop :=
  ∀ core core' p p', core.Keeps core' → p'.unmarked = p.unmarked → New core p → New core' p'

section Stores

variable {core core' core'' : Core} {New New' : Core → Post → Prop}

theorem Core.Keeps.stores (h : core.Keeps core') :
  core.Stores core' New
  := ⟨h.nextId_le, h.knows, fun p hp => .inl (h.posts p hp)⟩

theorem Core.Stores.mono (hnew : ∀ p, New core' p → New' core' p) (h : core.Stores core' New) :
  core.Stores core' New'
  := ⟨h.nextId_le, h.knows, fun p hp => (h.posts p hp).imp_right (hnew p)⟩

theorem Core.Keeps.trans_stores (h : core.Keeps core') (h' : core'.Stores core'' New) :
  core.Stores core'' New
  := by
  refine ⟨Nat.le_trans h.nextId_le h'.nextId_le, h'.knows ∘ h.knows, ?_⟩
  intro p'' hp''
  rcases h'.posts p'' hp'' with ⟨p', hp', hmarks'⟩ | hnew
  · obtain ⟨p, hp, hmarks⟩ := h.posts p' hp'
    exact .inl ⟨p, hp, hmarks'.trans hmarks⟩
  · exact .inr hnew

theorem Core.Stores.trans_keeps (hlasting : Lasting New) (h : core.Stores core' New)
    (h' : core'.Keeps core'') :
  core.Stores core'' New
  := by
  refine ⟨Nat.le_trans h.nextId_le h'.nextId_le, h'.knows ∘ h.knows, ?_⟩
  intro p'' hp''
  obtain ⟨p', hp', hmarks'⟩ := h'.posts p'' hp''
  rcases h.posts p' hp' with ⟨p, hp, hmarks⟩ | hnew
  · exact .inl ⟨p, hp, hmarks'.trans hmarks⟩
  · exact .inr (hlasting _ _ _ _ h' hmarks' hnew)

/-- A post with an identifier that had not been used is new. -/
theorem Core.Stores.new (h : core.Stores core' New) {p : Post} (hp : p ∈ core'.posts)
    (hid : core.nextId ≤ p.id) :
  New core' p
  := by
  rcases h.posts p hp with ⟨p₀, hp₀, hmarks⟩ | hnew
  · have hold := core.posts_old p₀ hp₀
    have hids : p.id = p₀.id := by simpa [Post.unmarked] using congrArg Post.id hmarks
    rw [← hids] at hold
    exact absurd hold (Nat.not_lt_of_ge hid)
  · exact hnew

end Stores

/-- A post is the one that a document describes: it has the given identifier, the content of
the document, and an author known under a URI that satisfies `Author`. -/
structure PostOf (ext : External) (apId : String) (object : Json) (Author : String → Prop)
    (core : Core) (p : Post) : Prop where
  apId_eq : p.apId = apId
  content_eq : ∃ «to» cc, p.unmarked.toPostContent = postContent ext object «to» cc none
  author : ∃ author, core.Knows p.actorId author ∧ Author author

variable {apId : String} {object : Json} {Author : String → Prop}

theorem PostOf.lasting :
  Lasting (PostOf ext apId object Author)
  := by
  rintro core core' p p' hkeeps hmarks ⟨hapId, ⟨«to», cc, hcontent⟩, author, hknows, hauthor⟩
  have hapIds : p'.apId = p.apId := by simpa [Post.unmarked] using congrArg Post.apId hmarks
  have hactors : p'.actorId = p.actorId := by
    simpa [Post.unmarked] using congrArg Post.actorId hmarks
  exact ⟨hapIds.trans hapId, ⟨«to», cc, hmarks ▸ hcontent⟩, author, hactors ▸ hkeeps.knows hknows,
    hauthor⟩

/-- A post is inserted with its author's identifier, or was there. -/
theorem wp_createRemotePost (post : RemotePost) (db : Db) :
  wp fedWorld C
    (fun _ db' => db.toCore.Stores db'.toCore fun core p =>
      p = { post.toPost with id := db.nextId } ∧ ∀ {id apId}, db.Knows id apId → core.Knows id apId)
    (Repo.createRemotePost post).run db
  := by
  apply wp_sql (.insertRemotePost post)
  · intro e
    apply (Core.Keeps.refl _).stores
  intro c _
  simp only [Sql.exec, Db.insertRemotePost]
  split
  · apply (Core.Keeps.refl _).stores
  · split
    · rename_i core hcore
      obtain ⟨hactors, hnext, hposts⟩ := Core.of_insertPost hcore
      have hknows : ∀ {id apId}, db.Knows id apId → core.Knows id apId := by
        rintro id apId ⟨a, ha, hid⟩
        exact ⟨a, hactors ▸ ha, hid⟩
      refine ⟨by simp [hnext], hknows, ?_⟩
      intro p hp
      rcases (hposts p).mp hp with rfl | hp
      · exact .inr ⟨rfl, hknows⟩
      · exact .inl ⟨p, hp, rfl⟩
    · apply (Core.Keeps.refl _).stores

/-- The row that is inserted is the post that its document describes. -/
theorem postOf_remotePost {core : Core} {content : PostContent} {postType : PostType}
    {actorId id : Uuid} {author : String} («to» cc : Option (List String))
    (proofVerified : Option Bool) (hcontent : content = postContent ext object «to» cc proofVerified)
    (hknows : core.Knows actorId author) (hauthor : Author author) :
  PostOf ext apId object Author core
    { (remotePost object actorId apId postType content).toPost with id }
  := by
  refine ⟨rfl, ⟨«to», cc, ?_⟩, author, hknows, hauthor⟩
  rw [hcontent]
  rfl

theorem keeping_of_isMinor {q : FedRequest} (h : q.isMinor = true) :
  q.Keeping
  := .inl (.inl (FedRequest.writesCore_of_isMinor h))

/-- What a `Create` leaves behind are the posts that were there and the one it describes. -/
theorem wp_persistCreated (activity : Activity) (apId : String) (postType : PostType)
    {content : PostContent} {remoteActor : Actor} {author : String} {db : Db}
    («to» cc : Option (List String)) (proofVerified : Option Bool)
    (hcontent : content = postContent ext activity.object «to» cc proofVerified)
    (hknows : db.Knows remoteActor.id author) (hauthor : Author author) :
  wp fedWorld C
    (fun _ db' => db.toCore.Stores db'.toCore (PostOf ext apId activity.object Author))
    (persistCreated ext activity apId postType content remoteActor).run db
  := by
  unfold persistCreated
  rw [wp_run_bind]
  apply wp_mono _ (wp_createRemotePost _ db)
  intro r db₁ hstores
  have hpost : db.toCore.Stores db₁.toCore (PostOf ext apId activity.object Author) := by
    apply hstores.mono
    rintro p ⟨rfl, hknown⟩
    apply postOf_remotePost «to» cc proofVerified hcontent (hknown hknows) hauthor
  rcases r with e | postId
  · exact hpost
  rw [onExcept_ok]
  have hrest : ∀ p : Handler Unit, Every FedRequest.Keeping p.run →
      wp fedWorld C
        (fun _ db' => db.toCore.Stores db'.toCore (PostOf ext apId activity.object Author))
        p.run db₁ := by
    intro p hp
    apply wp_mono _ (wp_keeping hp db₁)
    intro _ db₂ hkeeps
    apply hpost.trans_keeps PostOf.lasting hkeeps
  apply hrest
  split
  · apply every_recordIfVerified (.inr (.inl ⟨_, _, _, rfl⟩))
  · rename_i id
    apply every_run_bind (every_annotatePost (fun _ => keeping_of_isMinor) id _
      (fun uri => .inr (.inr (.inr ⟨id, uri, rfl⟩))))
    intro _
    apply every_run_bind (every_ignoringErrors (every_enqueueIfIndexable (fun _ => keeping_of_isMinor) id))
    intro _
    apply every_enqueueRemoteImages (fun _ => keeping_of_isMinor)

/-- What a `Create` leaves behind are the posts that were there, and one under the identifier
and with the content of its object, of the author that its actor is resolved to. -/
theorem wp_handleCreate (activity : Activity) (db : Db) :
  wp fedWorld C
    (fun _ db' => db.toCore.Stores db'.toCore fun core p =>
      ∃ apId, activity.object.getStr "id" = some apId ∧
        PostOf ext apId activity.object (ResolvesTo ext C activity.actor) core p)
    (handleCreate ext activity).run db
  := by
  unfold handleCreate
  rw [wp_run_bind, wp_okOr]
  cases hapId : activity.object.getStr "id" with
  | none => apply (Core.Keeps.refl _).stores
  | some apId =>
      simp only [Option.elim, onExcept_ok, wp_run_bind]
      have hgrows := every_verifyObjectProof (P := FedRequest.Growing) ext (FedRequest.consulting fun q hq => .inl hq)
        (fun remote => .inr (.inl ⟨remote, rfl⟩)) activity.object activity.actor
      apply wp_mono _ (wp_growing hgrows db)
      rintro (e | proofVerified) db₁ hdb₁
      · apply hdb₁.keeps.stores
      rw [onExcept_ok]
      split
      · rw [wp_run_pure]
        apply hdb₁.keeps.stores
      · rename_i postType _
        have hgrows := every_resolveActor (P := FedRequest.Growing) ext (FedRequest.consulting fun q hq => .inl hq)
          (fun remote => .inr (.inl ⟨remote, rfl⟩)) activity.actor
        rw [wp_run_bind]
        apply wp_mono _ (wp_and (wp_growing hgrows db₁) (wp_resolveActor activity.actor db₁))
        rintro (e | remoteActor) db₂ ⟨hdb₂, hresolved⟩
        · apply (hdb₁.trans hdb₂).keeps.stores
        obtain ⟨hknows, hauthor⟩ := hresolved
        simp only [onExcept_ok, wp_run_bind, wp_unwrapOr]
        apply wp_mono _ (wp_growing (every_tryDedup (fun q hq => .inl (FedRequest.writesCore_of_isMinor hq)) activity.object) db₂)
        intro existing db₃ hdb₃
        have hkeeps := ((hdb₁.trans hdb₂).trans hdb₃).keeps
        split
        · rw [wp_run_pure]
          apply hkeeps.stores
        · apply wp_mono _ (wp_persistCreated activity apId postType _ _ _ rfl
            (hdb₃.knows hknows) hauthor)
          intro _ db₄ hstores
          apply hkeeps.trans_stores (hstores.mono fun p hp => ⟨apId, rfl, hp⟩)

end Federation
