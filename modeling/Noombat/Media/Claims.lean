import Noombat.Media.Attachments
import Noombat.Program.Phases

/-!
# Claimed attachments

A post that is stored names the uploads that its request has found, and then claims them.  If at
that moment the uploads that can be claimed are those that were found, each was named once and
its object exists, the claim succeeds, and the sweep removes no object whose upload has been
claimed since it was found stale, then every post that has claimed its images names as many as
it has claimed, each of them an upload that is claimed by this post alone and whose object
exists.
-/

namespace Media.Attachments

open Federation (Uuid DateTime NoombatError)
open Fallible Program

abbrev Event : Type :=
  Interface.Event Attaching Call

abbrev Requests : Type :=
  Pool Attaching Call Db

variable {config : Avatar.Config}

/-! ### Phases -/

/-- How far a request has come. -/
inductive Phase where
  | start
  /-- A key was drawn for the object of an upload. -/
  | drawn (key : ObjectKey)
  /-- The object was stored. -/
  | stored (key : ObjectKey)
  /-- The upload could not be recorded. -/
  | failed (key : ObjectKey)
  /-- The uploads that a post is to name were found. -/
  | found (actorId : Uuid) (ids : List Uuid) (rows : List Attachment)
  /-- The post that names them was stored. -/
  | posted (postId actorId : Uuid) (ids : List Uuid) (rows : List Attachment)
  /-- The keys of the objects of a post were read. -/
  | collected (postId : Uuid) (keys : List ObjectKey)
  /-- The post was deleted; its objects are to be removed. -/
  | deleted (keys : List ObjectKey)
  /-- Stale uploads were found. -/
  | sweeping
  | done

namespace Phase

/-- The phase after an exchange. -/
def next : Phase → Attaching.Exchange → Phase
  | start, ⟨.newObjectKey, .ok key⟩ => drawn key
  | drawn _, ⟨.put key _, .ok _⟩ => stored key
  | drawn _, ⟨.put _ _, .error _⟩ => done
  | stored _, ⟨.sql (.insert _), .ok _⟩ => done
  | stored key, ⟨.sql (.insert _), .error _⟩ => failed key
  | failed _, ⟨.delete _, _⟩ => done
  | start, ⟨.sql (.unclaimed a ids), .ok rows⟩ => found a ids rows
  | found a ids rows, ⟨.sql (.insertPost _ _), .ok postId⟩ => posted postId a ids rows
  | start, ⟨.sql (.insertPost _ _), _⟩ => done
  | _, ⟨.sql (.claim _ _ _), _⟩ => done
  | start, ⟨.sql (.keysOfPost postId), r⟩ => collected postId (r.toOption.getD [])
  | collected _ keys, ⟨.sql (.deletePost _), .ok _⟩ => deleted keys
  | collected _ _, ⟨.sql (.deletePost _), .error _⟩ => done
  | start, ⟨.sql .stale, _⟩ => sweeping
  | φ, _ => φ

/-- The phase after the exchanges given, the latest first. -/
def of (l : List Attaching.Exchange) : Phase :=
  phaseOf start next l

@[simp]
theorem of_cons (x : Attaching.Exchange) (l : List Attaching.Exchange) :
  of (x :: l) = (of l).next x
  := rfl

/-- The key of an object that is not recorded. -/
def own : Phase → Option ObjectKey
  | drawn key => some key
  | stored key => some key
  | failed key => some key
  | _ => none

/-- The keys of the objects of a post that is to be deleted. -/
def keys : Phase → List ObjectKey
  | collected _ keys => keys
  | deleted keys => keys
  | _ => []

/-- The post that has not claimed its attachments. -/
def pending : Phase → Option Uuid
  | posted postId _ _ _ => some postId
  | _ => none

end Phase

/-- What the exchanges of a request are, when it asks something. -/
def Asked (config : Avatar.Config) (t : Call) (l : List Attaching.Exchange) :
    AttachmentRequest → Prop
  | .newObjectKey => Phase.of l = .start
  | .put key _ => Phase.of l = .drawn key
  | .delete key => Phase.of l = .failed key ∨ (∃ keys, Phase.of l = .deleted keys ∧ key ∈ keys) ∨
      t = .sweep
  | .compose => True
  | .sql (.insert upload) => Phase.of l = .stored upload.objectKey ∧
      upload.url = config.mediaUrl upload.objectKey
  | .sql (.describe _ _ _) => True
  | .sql (.unclaimed _ _) => Phase.of l = .start
  | .sql (.insertPost a images) => Phase.of l = .start ∧ images = [] ∨
      ∃ ids rows, Phase.of l = .found a ids rows ∧ images = imagesOf ids rows
  | .sql (.claim a postId ids) => ∃ rows, Phase.of l = .posted postId a ids rows
  | .sql .stale => Phase.of l = .start
  | .sql (.deleteUnclaimed _) => True
  | .sql (.keysOfPost _) => Phase.of l = .start
  | .sql (.deletePost postId) => ∃ keys, Phase.of l = .collected postId keys

/-! ### What the requests ask -/

theorem asks_uploadAttachment (t : Call) (actorId : Uuid) (processed : Processed)
    (alt : Option String) :
  Asks (Asked config t) (fun _ _ => True) (uploadAttachment config actorId processed alt).run []
  := by
  rw [uploadAttachment, asks_run_bind]
  apply (asks_run_ask AttachmentRequest.newObjectKey _ []).mpr
  constructor
  · rfl
  rintro (e | key)
  · trivial
  rw [onExcept_ok, asks_run_bind]
  apply (asks_run_ask (AttachmentRequest.put key _) _ _).mpr
  constructor
  · rfl
  rintro (e | _)
  · trivial
  rw [onExcept_ok, recordUpload, asks_run_bind, asks_run_attempt]
  apply (asks_run_ask (AttachmentRequest.sql (.insert _)) _ _).mpr
  constructor
  · exact ⟨rfl, rfl⟩
  rintro (e | id)
  · rw [onExcept_ok, asks_run_bind, asks_run_attempt]
    apply (asks_run_ask (AttachmentRequest.delete key) _ _).mpr
    constructor
    · exact .inl rfl
    · intro r
      trivial
  · rw [onExcept_ok, asks_run_pure]
    trivial

theorem asks_describeAttachment (t : Call) (actorId id : Uuid) (alt : String) :
  Asks (Asked config t) (fun _ _ => True) (describeAttachment actorId id alt).run []
  := by
  rw [describeAttachment, asks_run_bind]
  apply (asks_run_ask (AttachmentRequest.sql (.describe id actorId _)) _ []).mpr
  constructor
  · trivial
  rintro (e | rows)
  · trivial
  rw [onExcept_ok]
  split
  · rw [asks_run_pure]
    trivial
  · rw [asks_run_throw]
    trivial

theorem asks_postOutbox (t : Call) (actorId : Uuid) (ids : List Uuid) :
  Asks (Asked config t) (fun _ _ => True) (postOutbox actorId ids).run []
  := by
  rw [postOutbox, asks_run_bind, attachmentObjects]
  cases hids : ids.isEmpty with
  | true =>
      rw [if_pos rfl, asks_run_pure, onExcept_ok, asks_run_bind]
      apply (asks_run_ask AttachmentRequest.compose _ []).mpr
      constructor
      · trivial
      rintro (e | _)
      · trivial
      rw [onExcept_ok, asks_run_bind]
      apply (asks_run_ask (AttachmentRequest.sql (.insertPost actorId [])) _ _).mpr
      constructor
      · exact .inl ⟨rfl, rfl⟩
      rintro (e | created)
      · trivial
      rw [onExcept_ok, claimAttachments, hids, if_pos rfl, asks_run_pure]
      trivial
  | false =>
      rw [if_neg (by simp), asks_run_bind]
      apply (asks_run_ask (AttachmentRequest.sql (.unclaimed actorId ids)) _ []).mpr
      constructor
      · rfl
      rintro (e | rows)
      · trivial
      rw [onExcept_ok, asks_run_pure, onExcept_ok, asks_run_bind]
      apply (asks_run_ask AttachmentRequest.compose _ _).mpr
      constructor
      · trivial
      rintro (e | _)
      · trivial
      rw [onExcept_ok, asks_run_bind]
      apply (asks_run_ask (AttachmentRequest.sql (.insertPost actorId _)) _ _).mpr
      constructor
      · exact .inr ⟨ids, rows, rfl, rfl⟩
      rintro (e | created)
      · trivial
      rw [onExcept_ok, claimAttachments, hids, if_neg (by simp), asks_run_bind, asks_run_attempt]
      apply (asks_run_ask (AttachmentRequest.sql (.claim actorId created ids)) _ _).mpr
      constructor
      · exact ⟨rows, rfl⟩
      · intro r
        trivial

theorem asks_purgeObjects (t : Call) {keys all : List ObjectKey} (hkeys : ∀ key ∈ keys, key ∈ all)
    {l : List Attaching.Exchange} (hl : Phase.of l = .deleted all) :
  Asks (Asked config t) (fun _ _ => True) (purgeObjects keys).run l
  := by
  induction keys generalizing l with
  | nil =>
      rw [purgeObjects, asks_run_pure]
      trivial
  | cons key keys ih =>
      rw [purgeObjects, asks_run_bind, asks_run_attempt]
      apply (asks_run_ask (AttachmentRequest.delete key) _ l).mpr
      constructor
      · exact .inr (.inl ⟨all, hl, hkeys key List.mem_cons_self⟩)
      · intro r
        apply ih fun key' hkey' => hkeys key' (List.mem_cons_of_mem key hkey')
        rw [Phase.of_cons, hl]
        rfl

theorem asks_removeContent (t : Call) (postId : Uuid) :
  Asks (Asked config t) (fun _ _ => True) (removeContent postId).run []
  := by
  rw [removeContent, asks_run_bind, asks_run_unwrapOr]
  apply (asks_run_ask (AttachmentRequest.sql (.keysOfPost postId)) _ []).mpr
  constructor
  · rfl
  intro r
  rw [onExcept_ok, asks_run_bind]
  apply (asks_run_ask (AttachmentRequest.sql (.deletePost postId)) _ _).mpr
  constructor
  · exact ⟨_, rfl⟩
  rintro (e | _)
  · trivial
  · rw [onExcept_ok]
    apply asks_purgeObjects t (fun _ hkey => hkey)
    rfl

theorem asks_purgeUploads (stale : List (Uuid × ObjectKey)) (l : List Attaching.Exchange) :
  Asks (Asked config .sweep) (fun _ _ => True) (purgeUploads stale).run l
  := by
  induction stale generalizing l with
  | nil =>
      rw [purgeUploads, asks_run_pure]
      trivial
  | cons upload stale ih =>
      obtain ⟨id, key⟩ := upload
      rw [purgeUploads, asks_run_bind, purgeUpload, asks_run_bind, asks_run_attempt]
      apply (asks_run_ask (AttachmentRequest.delete key) _ l).mpr
      constructor
      · exact .inr (.inr rfl)
      rintro (e | _)
      · rw [onExcept_ok, asks_run_pure, onExcept_ok]
        apply ih
      · rw [onExcept_ok, asks_run_bind, asks_run_attempt]
        apply (asks_run_ask (AttachmentRequest.sql (.deleteUnclaimed id)) _ _).mpr
        constructor
        · trivial
        · intro r
          rw [onExcept_ok, asks_run_pure, onExcept_ok]
          apply ih

theorem asks_program (t : Call) :
  Asks (Asked config t) (fun _ _ => True) (t.program config) []
  := by
  cases t with
  | upload actorId processed alt =>
      rw [Call.program, asks_bind]
      apply asks_uploadAttachment
  | describe actorId id alt =>
      rw [Call.program, asks_bind]
      apply asks_describeAttachment
  | publish actorId ids =>
      rw [Call.program, asks_bind]
      apply asks_postOutbox
  | remove postId =>
      rw [Call.program, asks_bind]
      apply asks_removeContent
  | sweep =>
      rw [Call.program, asks_bind, purgeUnattachedUploads, asks_run_bind]
      apply (asks_run_ask (AttachmentRequest.sql .stale) _ []).mpr
      constructor
      · rfl
      rintro (e | stale)
      · trivial
      · rw [onExcept_ok]
        apply asks_purgeUploads

/-! ### What a phase knows -/

/-- The attachments that a post has claimed. -/
def Db.claimed (postId : Uuid) (db : Db) : List Attachment :=
  db.media.rows.filter (·.postId == some postId)

/-- The images that a post names are attachments that it has claimed and whose objects exist,
and there are as many of them. -/
def Db.Owns (db : Db) (post : Post) : Prop :=
  (∀ image ∈ post.images, ∃ r ∈ db.claimed post.id, r.url = image.url ∧ r.objectKey ∈ db.objects) ∧
    post.images.length = (db.claimed post.id).length

instance (db : Db) (post : Post) : Decidable (db.Owns post) :=
  inferInstanceAs (Decidable (_ ∧ _))

/-- A key that was drawn is not that of an attachment. -/
def Db.Drawn (db : Db) (key : ObjectKey) : Prop :=
  key < db.next ∧ ∀ r ∈ db.media, r.objectKey ≠ key

/-- Attachments that were found have kept their URLs. -/
def Db.Found (db : Db) (rows : List Attachment) : Prop :=
  ∀ r ∈ rows, r.id < db.next ∧ ∀ r' ∈ db.media, r'.id = r.id → r'.url = r.url

/-- What is so when a request is in a phase. -/
def Phase.Fits (db : Db) : Phase → Prop
  | drawn key => db.Drawn key
  | stored key => db.Drawn key
  | failed key => db.Drawn key
  | found _ _ rows => db.Found rows
  | posted postId _ ids rows => db.Found rows ∧ postId < db.next ∧
      (∀ r ∈ db.media, r.postId ≠ some postId) ∧
      ∀ post ∈ db.posts, post.id = postId → post.images = imagesOf ids rows
  | collected postId keys => ∀ key ∈ keys, key < db.next ∧
      ∀ r ∈ db.media, r.objectKey = key → r.postId = some postId
  | deleted keys => ∀ key ∈ keys, db.Drawn key
  | _ => True

/-- The object and the post of one request are none that another one has. -/
structure Phase.Apart (φ ψ : Phase) : Prop where
  own : ∀ key, φ.own = some key → ψ.own ≠ some key ∧ key ∉ ψ.keys
  pending : ∀ postId, φ.pending = some postId → ψ.pending ≠ some postId

/-- What holds of every pool whose steps are uncrossed, with the phases of its requests. -/
structure Tracked (config : Avatar.Config) (db : Db) (φ : Nat → Phase) : Prop where
  compatible : Compatible Phase.Fits Phase.Apart db φ
  media : ∀ r ∈ db.media, r.id < db.next ∧ r.objectKey < db.next ∧
    r.url = config.mediaUrl r.objectKey ∧
    ∀ postId, r.postId = some postId → ∃ post ∈ db.posts, post.id = postId
  posts : ∀ post ∈ db.posts, post.id < db.next
  owned : ∀ post ∈ db.posts, (∃ i, (φ i).pending = some post.id) ∨ db.Owns post

/-- How the attachments and the posts can change, while a request in the phase `φ` makes an
exchange: an upload is recorded under its key, or claimed by its post. -/
structure Evolves (φ : Phase) (db db' : Db) : Prop where
  next : db.next ≤ db'.next
  media : ∀ r' ∈ db'.media, (db.next ≤ r'.id ∧ r'.postId = none ∧ φ.own = some r'.objectKey) ∨
    ∃ r ∈ db.media, r.id = r'.id ∧ r.url = r'.url ∧ r.objectKey = r'.objectKey ∧
      (r'.postId = r.postId ∨
        r.postId = none ∧ ∃ postId, r'.postId = some postId ∧ φ.pending = some postId)
  posts : ∀ post ∈ db'.posts, post ∈ db.posts ∨ db.next ≤ post.id

namespace Phase

variable {db db' : Db} {φ ψ : Phase}

theorem Fits.own (h : φ.Fits db) {key : ObjectKey} (hown : φ.own = some key) :
  db.Drawn key
  := by
  cases φ with
  | drawn _ => cases hown; exact h
  | stored _ => cases hown; exact h
  | failed _ => cases hown; exact h
  | _ => cases hown

theorem Fits.keys_lt (h : φ.Fits db) {key : ObjectKey} (hkey : key ∈ φ.keys) :
  key < db.next
  := by
  cases φ with
  | collected _ _ => exact (h key hkey).1
  | deleted _ => exact (h key hkey).1
  | _ => cases hkey

theorem Fits.pending_lt (h : φ.Fits db) {postId : Uuid} (hpending : φ.pending = some postId) :
  postId < db.next
  := by
  cases φ with
  | posted _ _ _ _ => cases hpending; exact h.2.1
  | _ => cases hpending

/-- What a phase knows is not changed by a request in a phase apart from it. -/
theorem Fits.frame (h : φ.Fits db) (hevolves : Evolves ψ db db') (hapart : ψ.Apart φ) :
  φ.Fits db'
  := by
  have hdrawn : ∀ key, φ.own = some key ∨ key ∈ φ.keys → db.Drawn key → db'.Drawn key := by
    intro key hkey hdrawn
    refine ⟨Nat.lt_of_lt_of_le hdrawn.1 hevolves.next, ?_⟩
    rintro r' hr' rfl
    rcases hevolves.media r' hr' with ⟨_, _, hown⟩ | ⟨r, hr, _, _, hrow, _⟩
    · exact hkey.elim (hapart.own _ hown).1 (hapart.own _ hown).2
    · exact hdrawn.2 r hr hrow
  have hfound : ∀ rows, db.Found rows → db'.Found rows := by
    intro rows hfound r hr
    obtain ⟨hlt, hurl⟩ := hfound r hr
    refine ⟨Nat.lt_of_lt_of_le hlt hevolves.next, ?_⟩
    intro r' hr' hid
    rcases hevolves.media r' hr' with ⟨hle, _, _⟩ | ⟨r₀, hr₀, hid₀, hurl₀, _⟩
    · rw [hid] at hle
      exact absurd hlt (Nat.not_lt_of_le hle)
    · rw [← hurl₀]
      exact hurl r₀ hr₀ (hid₀.trans hid)
  cases φ with
  | drawn key => exact hdrawn key (.inl rfl) h
  | stored key => exact hdrawn key (.inl rfl) h
  | failed key => exact hdrawn key (.inl rfl) h
  | found a ids rows => exact hfound rows h
  | posted postId a ids rows =>
      obtain ⟨hrows, hlt, hunclaimed, hpost⟩ := h
      refine ⟨hfound rows hrows, Nat.lt_of_lt_of_le hlt hevolves.next, ?_, ?_⟩
      · intro r' hr' hclaimed
        rcases hevolves.media r' hr' with ⟨_, hnone, _⟩ | ⟨r, hr, _, _, _, hsame | hclaims⟩
        · rw [hnone] at hclaimed
          cases hclaimed
        · exact hunclaimed r hr (hsame.symm.trans hclaimed)
        · obtain ⟨_, postId', hpostId', hpending⟩ := hclaims
          obtain rfl := Option.some.inj (hpostId'.symm.trans hclaimed)
          exact hapart.pending _ hpending rfl
      · intro post hpost' hid
        rcases hevolves.posts post hpost' with hpost' | hle
        · exact hpost post hpost' hid
        · rw [hid] at hle
          exact absurd hlt (Nat.not_lt_of_le hle)
  | collected postId keys =>
      intro key hkey
      obtain ⟨hlt, hrows⟩ := h key hkey
      refine ⟨Nat.lt_of_lt_of_le hlt hevolves.next, ?_⟩
      rintro r' hr' rfl
      rcases hevolves.media r' hr' with ⟨_, _, hown⟩ | ⟨r, hr, _, _, hrow, hsame | hclaims⟩
      · exact absurd hkey (hapart.own _ hown).2
      · rw [hsame]
        exact hrows r hr hrow
      · have hclaimed := hrows r hr hrow
        rw [hclaims.1] at hclaimed
        cases hclaimed
  | deleted keys => exact fun key hkey => hdrawn key (.inr hkey) (h key hkey)
  | _ => trivial

end Phase

/-- A request goes on to the phase `ψ`, while the database evolves. -/
theorem Tracked.enter {db db' : Db} {φ : Nat → Phase} (h : Tracked config db φ) (i : Nat)
    (ψ : Phase) (hevolves : Evolves (φ i) db db') (hfits : ψ.Fits db')
    (hown : ∀ key, ψ.own = some key → (φ i).own = some key ∨ db.next ≤ key)
    (hkeys : ∀ key ∈ ψ.keys, key ∈ (φ i).keys ∨ ∃ r ∈ db.media, r.objectKey = key)
    (hpending : ∀ postId, ψ.pending = some postId → (φ i).pending = some postId ∨
      db.next ≤ postId)
    (hmedia : ∀ r ∈ db'.media, r.id < db'.next ∧ r.objectKey < db'.next ∧
      r.url = config.mediaUrl r.objectKey ∧
      ∀ postId, r.postId = some postId → ∃ post ∈ db'.posts, post.id = postId)
    (hposts : ∀ post ∈ db'.posts, post.id < db'.next)
    (howned : ∀ post ∈ db'.posts, ψ.pending = some post.id ∨ db'.Owns post ∨
      post ∈ db.posts ∧ (φ i).pending ≠ some post.id ∧ (db.Owns post → db'.Owns post)) :
  Tracked config db' (Function.update φ i ψ)
  := by
  constructor
  · apply h.compatible.enter i hfits
    intro φ' hfits' hmine htheirs
    refine ⟨hfits'.frame hevolves hmine, ⟨?_, ?_⟩, ⟨?_, ?_⟩⟩
    · intro key hkey
      rcases hown key hkey with hkey | hle
      · apply hmine.own key hkey
      · constructor
        · intro hsame
          exact Nat.not_lt_of_le hle (hfits'.own hsame).1
        · intro hsame
          exact Nat.not_lt_of_le hle (hfits'.keys_lt hsame)
    · intro postId hpostId
      rcases hpending postId hpostId with hpostId | hle
      · apply hmine.pending postId hpostId
      · intro hsame
        exact Nat.not_lt_of_le hle (hfits'.pending_lt hsame)
    · intro key hkey
      obtain ⟨hnotOwn, hnotKeys⟩ := htheirs.own key hkey
      constructor
      · intro hsame
        rcases hown key hsame with hsame | hle
        · exact hnotOwn hsame
        · exact Nat.not_lt_of_le hle (hfits'.own hkey).1
      · intro hsame
        rcases hkeys key hsame with hsame | ⟨r, hr, hrow⟩
        · exact hnotKeys hsame
        · exact (hfits'.own hkey).2 r hr hrow
    · intro postId hpostId hsame
      rcases hpending postId hsame with hsame | hle
      · exact htheirs.pending postId hpostId hsame
      · exact Nat.not_lt_of_le hle (hfits'.pending_lt hpostId)
  · exact hmedia
  · exact hposts
  · intro post hpost
    rcases howned post hpost with hmine | howns | ⟨hpost, hnot, hkeeps⟩
    · exact .inl ⟨i, by rw [Function.update_self, hmine]⟩
    · exact .inr howns
    · rcases h.owned post hpost with ⟨j, hj⟩ | howns
      · left
        use j
        rw [Function.update_of_ne]
        · exact hj
        · rintro rfl
          exact hnot hj
      · exact .inr (hkeeps howns)

/-! ### Uncrossed requests -/

/-- The uploads that can be claimed now are those that were found, each of which was named
once, and their objects exist. -/
def Claimable (a : Uuid) (ids : List Uuid) (rows : List Attachment) (db : Db) : Prop :=
  (∀ id ∈ ids, rows.any (·.id == id) =
      db.media.rows.any fun r => r.id == id && r.actorId == a && r.postId.isNone) ∧
    (ids.filter fun id => rows.any (·.id == id)).Nodup ∧
    ∀ r ∈ db.media.rows, isUnclaimed a ids r = true → r.objectKey ∈ db.objects

instance (a : Uuid) (ids : List Uuid) (rows : List Attachment) (db : Db) :
    Decidable (Claimable a ids rows db) :=
  inferInstanceAs (Decidable (_ ∧ _ ∧ _))

/-- The uploads that a post that is stored was found to name. -/
def Phase.rows : Phase → List Attachment
  | posted _ _ _ rows => rows
  | _ => []

/-- A post succeeds in claiming its attachments, which can be claimed; and the sweep removes no
object whose upload is claimed. -/
def Uncrossed : StepCondition attachmentWorld Call
  | i, _, .sql (.claim a _ ids), c, s =>
      Except.isOk c = true ∧ Claimable a ids (Phase.of (s.history.trace i)).rows s.state
  | _, .sweep, .delete key, c, s =>
      Option.isNone c = true → ∀ r ∈ s.state.media.rows, r.objectKey = key → r.postId = none
  | _, _, _, _, _ => True

instance Uncrossed.decidable : ∀ (i : Nat) (t : Call) (q : AttachmentRequest)
    (c : attachmentWorld.Choice q) (s : Requests), Decidable (Uncrossed i t q c s)
  | i, _, .sql (.claim a _ ids), c, s =>
      inferInstanceAs (Decidable (Except.isOk c = true ∧
        Claimable a ids (Phase.of (s.history.trace i)).rows s.state))
  | _, .sweep, .delete key, c, s =>
      inferInstanceAs (Decidable (Option.isNone c = true →
        ∀ r ∈ s.state.media.rows, r.objectKey = key → r.postId = none))
  | _, .upload _ _ _, .delete _, _, _ => isTrue trivial
  | _, .describe _ _ _, .delete _, _, _ => isTrue trivial
  | _, .publish _ _, .delete _, _, _ => isTrue trivial
  | _, .remove _, .delete _, _, _ => isTrue trivial
  | _, _, .sql (.insert _), _, _ => isTrue trivial
  | _, _, .sql (.describe _ _ _), _, _ => isTrue trivial
  | _, _, .sql (.unclaimed _ _), _, _ => isTrue trivial
  | _, _, .sql (.insertPost _ _), _, _ => isTrue trivial
  | _, _, .sql .stale, _, _ => isTrue trivial
  | _, _, .sql (.deleteUnclaimed _), _, _ => isTrue trivial
  | _, _, .sql (.keysOfPost _), _, _ => isTrue trivial
  | _, _, .sql (.deletePost _), _, _ => isTrue trivial
  | _, _, .newObjectKey, _, _ => isTrue trivial
  | _, _, .put _ _, _, _ => isTrue trivial
  | _, _, .compose, _, _ => isTrue trivial

/-! ### Attachments that have changed -/

theorem Db.mem_claimed {db : Db} {postId : Uuid} {r : Attachment} :
  r ∈ db.claimed postId ↔ r ∈ db.media ∧ r.postId = some postId
  := by
  rw [Db.claimed, List.mem_filter, beq_iff_eq]
  exact Iff.rfl

theorem Db.eq_of_id {db : Db} {r r' : Attachment} (hr : r ∈ db.media) (hr' : r' ∈ db.media)
    (h : r.id = r'.id) :
  r = r'
  := Table.eq_of_not_apart hr hr' fun hapart => hapart.1 h

/-- A change of rows that a post has not claimed before or after leaves those it has. -/
theorem filter_map_of_not {α : Type} {p q : α → Bool} {f : α → α} {l : List α}
    (h : ∀ a ∈ l, q a = true → p a = false ∧ p (f a) = false) :
  (l.map fun a => if q a then f a else a).filter p = l.filter p
  := by
  induction l with
  | nil => rfl
  | cons a l ih =>
      have hl := ih fun b hb => h b (List.mem_cons_of_mem a hb)
      cases hq : q a with
      | true =>
          obtain ⟨hp, hpf⟩ := h a List.mem_cons_self hq
          simp only [List.map_cons, hq, if_true, List.filter_cons, hp, hpf, Bool.false_eq_true,
            if_false, hl]
      | false =>
          simp only [List.map_cons, hq, Bool.false_eq_true, if_false, List.filter_cons, hl]

/-- A change by which a post claims its first rows makes them just the rows it has claimed. -/
theorem filter_map_of_none {α : Type} {p q : α → Bool} {f : α → α} {l : List α}
    (hnone : ∀ a ∈ l, p a = false) (hall : ∀ a, p (f a) = true) :
  (l.map fun a => if q a then f a else a).filter p = (l.filter q).map f
  := by
  induction l with
  | nil => rfl
  | cons a l ih =>
      have hl := ih fun b hb => hnone b (List.mem_cons_of_mem a hb)
      cases hq : q a with
      | true =>
          simp only [List.map_cons, hq, if_true, List.filter_cons, hall, hl]
      | false =>
          simp only [List.map_cons, hq, Bool.false_eq_true, if_false, List.filter_cons,
            hnone a List.mem_cons_self, hl]

/-- A deletion of rows that a post has not claimed leaves those it has. -/
theorem filter_filter_of_not {α : Type} {p q : α → Bool} {l : List α}
    (h : ∀ a ∈ l, p a = true → q a = false) :
  (l.filter (!q ·)).filter p = l.filter p
  := by
  rw [List.filter_filter]
  apply List.filter_congr
  intro a ha
  cases hp : p a with
  | false => rfl
  | true => simp [h a ha hp]

/-- A post keeps what it owns while the attachments it has claimed and their objects stay. -/
theorem Db.Owns.frame {db db' : Db} {post : Post} (h : db.Owns post)
    (hclaimed : db'.claimed post.id = db.claimed post.id)
    (hobjects : ∀ r ∈ db.claimed post.id, r.objectKey ∈ db.objects → r.objectKey ∈ db'.objects) :
  db'.Owns post
  := by
  obtain ⟨himages, hlength⟩ := h
  rw [Db.Owns, hclaimed]
  refine ⟨?_, hlength⟩
  intro image himage
  obtain ⟨r, hr, hurl, hobject⟩ := himages image himage
  exact ⟨r, hr, hurl, hobjects r hr hobject⟩

theorem Evolves.refl (φ : Phase) (db : Db) :
  Evolves φ db db
  := by
  constructor
  · apply Nat.le_refl
  · intro r hr
    exact .inr ⟨r, hr, rfl, rfl, rfl, .inl rfl⟩
  · intro post hpost
    exact .inl hpost

/-- A request goes on to the phase `ψ`, while attachments and posts stay as they are. -/
theorem Tracked.pass {db : Db} {φ : Nat → Phase} (h : Tracked config db φ) (i : Nat) (ψ : Phase)
    {next : Nat} (hnext : db.next ≤ next) {objects : List ObjectKey}
    (hfits : ψ.Fits { db with objects, next })
    (hown : ∀ key, ψ.own = some key → (φ i).own = some key ∨ db.next ≤ key)
    (hkeys : ∀ key ∈ ψ.keys, key ∈ (φ i).keys ∨ ∃ r ∈ db.media, r.objectKey = key)
    (hpending : ψ.pending = (φ i).pending ∨
      ψ.pending = none ∧ ∀ post ∈ db.posts, (φ i).pending ≠ some post.id)
    (hobjects : ∀ r ∈ db.media, r.postId.isSome = true → r.objectKey ∈ db.objects →
      r.objectKey ∈ objects) :
  Tracked config { db with objects, next } (Function.update φ i ψ)
  := by
  apply h.enter i ψ
  · constructor
    · exact hnext
    · exact (Evolves.refl (φ i) db).media
    · intro post hpost
      exact .inl hpost
  · exact hfits
  · exact hown
  · exact hkeys
  · intro postId hpostId
    rcases hpending with hsame | ⟨hnone, _⟩
    · exact .inl (hsame.symm.trans hpostId)
    · rw [hnone] at hpostId
      cases hpostId
  · intro r hr
    obtain ⟨hid, hkey, hrest⟩ := h.media r hr
    exact ⟨Nat.lt_of_lt_of_le hid hnext, Nat.lt_of_lt_of_le hkey hnext, hrest⟩
  · intro post hpost
    exact Nat.lt_of_lt_of_le (h.posts post hpost) hnext
  · intro post hpost
    by_cases hmine : ψ.pending = some post.id
    · exact .inl hmine
    · right; right
      have hnot : (φ i).pending ≠ some post.id := by
        rcases hpending with hsame | ⟨_, hnone⟩
        · exact hsame ▸ hmine
        · apply hnone post hpost
      refine ⟨hpost, hnot, ?_⟩
      intro howns
      apply howns.frame (by rfl)
      intro r hr hobject
      obtain ⟨hr, hclaimed⟩ := Db.mem_claimed.mp hr
      exact hobjects r hr (by rw [hclaimed]; rfl) hobject

/-- An upload is recorded under the key of its object. -/
theorem Tracked.record {db : Db} {φ : Nat → Phase} (h : Tracked config db φ) {i : Nat}
    {upload : Upload} {now : DateTime} {media : Table Attachment.Apart}
    (hφ : φ i = .stored upload.objectKey) (hurl : upload.url = config.mediaUrl upload.objectKey)
    (hinsert : db.media.insert (upload.row db.next now) = some media) :
  Tracked config { db with media, next := db.next + 1 } (Function.update φ i .done)
  := by
  have hfits := h.compatible.fits i
  rw [hφ] at hfits
  have hmem : ∀ r, r ∈ media ↔ r = upload.row db.next now ∨ r ∈ db.media := by
    intro r
    exact Table.mem_of_insert hinsert
  apply h.enter i .done
  · constructor
    · exact Nat.le_succ _
    · intro r hr
      rcases (hmem r).mp hr with rfl | hr
      · left
        exact ⟨Nat.le_refl _, rfl, by rw [hφ]; rfl⟩
      · exact .inr ⟨r, hr, rfl, rfl, rfl, .inl rfl⟩
    · intro post hpost
      exact .inl hpost
  · trivial
  · intro key hkey
    cases hkey
  · intro key hkey
    cases hkey
  · intro postId hpostId
    cases hpostId
  · intro r hr
    rcases (hmem r).mp hr with rfl | hr
    · refine ⟨Nat.lt_succ_self _, Nat.lt_succ_of_lt hfits.1, hurl, ?_⟩
      intro postId hpostId
      cases hpostId
    · obtain ⟨hid, hkey, hrest⟩ := h.media r hr
      exact ⟨Nat.lt_succ_of_lt hid, Nat.lt_succ_of_lt hkey, hrest⟩
  · intro post hpost
    exact Nat.lt_succ_of_lt (h.posts post hpost)
  · intro post hpost
    right; right
    refine ⟨hpost, by simp [hφ, Phase.pending], ?_⟩
    intro howns
    apply howns.frame
    · have hrows : media.rows = upload.row db.next now :: db.media.rows := by
        unfold Table.insert at hinsert
        split at hinsert
        · cases hinsert
          rfl
        · cases hinsert
      rw [Db.claimed, hrows, List.filter_cons_of_neg (by simp [Upload.row]), Db.claimed]
    · intro r hr hobject
      exact hobject

/-- Unclaimed uploads are described or deleted. -/
theorem Tracked.unclaimed {db : Db} {φ : Nat → Phase} (h : Tracked config db φ) (i : Nat)
    {media : Table Attachment.Apart}
    (hmedia : ∀ r' ∈ media, ∃ r ∈ db.media, r.id = r'.id ∧ r.url = r'.url ∧
      r.objectKey = r'.objectKey ∧ r'.postId = r.postId)
    (hclaimed : ∀ postId, media.rows.filter (·.postId == some postId) = db.claimed postId) :
  Tracked config { db with media } (Function.update φ i (φ i))
  := by
  have hevolves : ∀ ψ, Evolves ψ db { db with media } := by
    intro ψ
    constructor
    · apply Nat.le_refl
    · intro r' hr'
      obtain ⟨r, hr, hid, hurl, hkey, hpost⟩ := hmedia r' hr'
      exact .inr ⟨r, hr, hid, hurl, hkey, .inl hpost⟩
    · intro post hpost
      exact .inl hpost
  apply h.enter i (φ i) (hevolves (φ i))
  · -- nothing is recorded or claimed, so the phase itself is not disturbed
    apply (h.compatible.fits i).frame (hevolves .done)
    · constructor
      · intro key hkey
        cases hkey
      · intro postId hpostId
        cases hpostId
  · intro key hkey
    exact .inl hkey
  · intro key hkey
    exact .inl hkey
  · intro postId hpostId
    exact .inl hpostId
  · intro r' hr'
    obtain ⟨r, hr, hid, hurl, hkey, hpost⟩ := hmedia r' hr'
    rw [← hid, ← hurl, ← hkey, hpost]
    exact h.media r hr
  · exact h.posts
  · intro post hpost
    by_cases hmine : (φ i).pending = some post.id
    · exact .inl hmine
    · right; right
      refine ⟨hpost, hmine, ?_⟩
      intro howns
      apply howns.frame
      · exact hclaimed post.id
      · intro r _ hobject
        exact hobject

/-- A post is stored with the images found, or without any. -/
theorem Tracked.post {db : Db} {φ : Nat → Phase} (h : Tracked config db φ) {i : Nat} {a : Uuid}
    {images : List Image} {posts : Table Post.Apart} {ψ : Phase}
    (hinsert : db.posts.insert ⟨db.next, a, images⟩ = some posts)
    (hφ : (φ i = .start ∧ images = []) ∧ ψ = .done ∨
      ∃ ids rows, φ i = .found a ids rows ∧ images = imagesOf ids rows ∧
        ψ = .posted db.next a ids rows) :
  Tracked config { db with posts, next := db.next + 1 } (Function.update φ i ψ)
  := by
  have hmem : ∀ post, post ∈ posts ↔ post = ⟨db.next, a, images⟩ ∨ post ∈ db.posts := by
    intro post
    exact Table.mem_of_insert hinsert
  have hfresh : ∀ r ∈ db.media, r.postId ≠ some db.next := by
    intro r hr hpostId
    obtain ⟨post, hpost, hid⟩ := (h.media r hr).2.2.2 db.next hpostId
    exact Nat.lt_irrefl _ (hid ▸ h.posts post hpost)
  have hpending : (φ i).pending = none := by
    rcases hφ with ⟨⟨hφ, _⟩, _⟩ | ⟨ids, rows, hφ, _⟩
    · rw [hφ]; rfl
    · rw [hφ]; rfl
  apply h.enter i ψ
  · constructor
    · exact Nat.le_succ _
    · intro r hr
      exact .inr ⟨r, hr, rfl, rfl, rfl, .inl rfl⟩
    · intro post hpost
      rcases (hmem post).mp hpost with rfl | hpost
      · exact .inr (Nat.le_refl _)
      · exact .inl hpost
  · rcases hφ with ⟨_, rfl⟩ | ⟨ids, rows, hφ, rfl, rfl⟩
    · trivial
    · have hfits := h.compatible.fits i
      rw [hφ] at hfits
      refine ⟨?_, Nat.lt_succ_self _, hfresh, ?_⟩
      · intro r hr
        exact ⟨Nat.lt_succ_of_lt (hfits r hr).1, (hfits r hr).2⟩
      · intro post hpost hid
        rcases (hmem post).mp hpost with rfl | hpost
        · rfl
        · exact absurd hid (Nat.ne_of_lt (h.posts post hpost))
  · intro key hkey
    rcases hφ with ⟨_, rfl⟩ | ⟨ids, rows, _, _, rfl⟩
    · cases hkey
    · cases hkey
  · intro key hkey
    rcases hφ with ⟨_, rfl⟩ | ⟨ids, rows, _, _, rfl⟩
    · cases hkey
    · cases hkey
  · intro postId hpostId
    rcases hφ with ⟨_, rfl⟩ | ⟨ids, rows, _, _, rfl⟩
    · cases hpostId
    · cases hpostId
      exact .inr (Nat.le_refl _)
  · intro r hr
    obtain ⟨hid, hkey, hurl, hclaims⟩ := h.media r hr
    refine ⟨Nat.lt_succ_of_lt hid, Nat.lt_succ_of_lt hkey, hurl, ?_⟩
    intro postId hpostId
    obtain ⟨post, hpost, hid⟩ := hclaims postId hpostId
    exact ⟨post, (hmem post).mpr (.inr hpost), hid⟩
  · intro post hpost
    rcases (hmem post).mp hpost with rfl | hpost
    · exact Nat.lt_succ_self _
    · exact Nat.lt_succ_of_lt (h.posts post hpost)
  · intro post hpost
    rcases (hmem post).mp hpost with rfl | hpost
    · rcases hφ with ⟨⟨_, rfl⟩, rfl⟩ | ⟨ids, rows, _, _, rfl⟩
      · right; left
        constructor
        · intro image himage
          cases himage
        · have hnone : Db.claimed db.next { db with posts, next := db.next + 1 } = [] := by
            apply List.filter_eq_nil_iff.mpr
            intro r hr
            rw [beq_iff_eq]
            exact hfresh r hr
          change 0 = (Db.claimed db.next { db with posts, next := db.next + 1 }).length
          rw [hnone]
          rfl
      · exact .inl rfl
    · right; right
      refine ⟨hpost, by simp [hpending], ?_⟩
      intro howns
      apply howns.frame (by rfl)
      intro r _ hobject
      exact hobject

/-- A post is deleted, with the attachments that it has claimed. -/
theorem Tracked.deletePost {db : Db} {φ : Nat → Phase} (h : Tracked config db φ) {i : Nat}
    {postId : Uuid} {keys : List ObjectKey} (hφ : φ i = .collected postId keys) :
  Tracked config { db with
      posts := db.posts.delete (·.id == postId)
      media := db.media.delete (·.postId == some postId) }
    (Function.update φ i (.deleted keys))
  := by
  have hfits := h.compatible.fits i
  rw [hφ] at hfits
  have hmedia : ∀ r, r ∈ db.media.delete (·.postId == some postId) ↔
      r ∈ db.media ∧ r.postId ≠ some postId := by
    intro r
    rw [Table.mem_delete, beq_eq_false_iff_ne]
  have hposts : ∀ post, post ∈ db.posts.delete (·.id == postId) ↔
      post ∈ db.posts ∧ post.id ≠ postId := by
    intro post
    rw [Table.mem_delete, beq_eq_false_iff_ne]
  apply h.enter i (.deleted keys)
  · constructor
    · apply Nat.le_refl
    · intro r hr
      exact .inr ⟨r, ((hmedia r).mp hr).1, rfl, rfl, rfl, .inl rfl⟩
    · intro post hpost
      exact .inl ((hposts post).mp hpost).1
  · intro key hkey
    obtain ⟨hlt, hrows⟩ := hfits key hkey
    refine ⟨hlt, ?_⟩
    intro r hr hrow
    obtain ⟨hr, hother⟩ := (hmedia r).mp hr
    exact hother (hrows r hr hrow)
  · intro key hkey
    cases hkey
  · intro key hkey
    left
    rw [hφ]
    exact hkey
  · intro postId' hpostId'
    cases hpostId'
  · intro r hr
    obtain ⟨hr, hother⟩ := (hmedia r).mp hr
    obtain ⟨hid, hkey, hurl, hclaims⟩ := h.media r hr
    refine ⟨hid, hkey, hurl, ?_⟩
    intro postId' hpostId'
    obtain ⟨post, hpost, rfl⟩ := hclaims postId' hpostId'
    refine ⟨post, (hposts post).mpr ⟨hpost, ?_⟩, rfl⟩
    rintro rfl
    exact hother hpostId'
  · intro post hpost
    exact h.posts post ((hposts post).mp hpost).1
  · intro post hpost
    obtain ⟨hpost, hother⟩ := (hposts post).mp hpost
    right; right
    refine ⟨hpost, by simp [hφ, Phase.pending], ?_⟩
    intro howns
    apply howns.frame
    · apply filter_filter_of_not
      intro r _ hclaimed
      rw [beq_iff_eq] at hclaimed
      rw [hclaimed, beq_eq_false_iff_ne]
      exact fun hsame => hother (Option.some.inj hsame)
    · intro r _ hobject
      exact hobject

/-! ### The claim -/

theorem length_imagesOf (ids : List Uuid) (rows : List Attachment) :
  (imagesOf ids rows).length = (ids.filter fun id => rows.any (·.id == id)).length
  := by
  rw [imagesOf, List.length_map, List.length_filterMap_eq_countP, List.countP_eq_length_filter]
  congr 2
  funext id
  rw [Bool.eq_iff_iff, List.find?_isSome, List.any_eq_true]

/-- The uploads that can be claimed are as many as the images that the post names. -/
theorem Claimable.length_eq {a : Uuid} {ids : List Uuid} {rows : List Attachment} {db : Db}
    (h : Claimable a ids rows db) :
  (imagesOf ids rows).length = (db.media.rows.filter (isUnclaimed a ids)).length
  := by
  obtain ⟨hfound, hnodup, _⟩ := h
  rw [length_imagesOf, ← List.length_map (f := Attachment.id)]
  apply List.Perm.length_eq
  apply (List.perm_ext_iff_of_nodup hnodup _).mpr
  · intro id
    simp only [List.mem_filter, List.mem_map]
    constructor
    · rintro ⟨hid, hany⟩
      rw [hfound id hid, List.any_eq_true] at hany
      obtain ⟨r, hr, hunclaimed⟩ := hany
      simp only [Bool.and_eq_true, beq_iff_eq] at hunclaimed
      obtain ⟨⟨rfl, hactor⟩, hnone⟩ := hunclaimed
      exact ⟨r, ⟨hr, by simp [isUnclaimed, hid, hactor, hnone]⟩, rfl⟩
    · rintro ⟨r, ⟨hr, hunclaimed⟩, rfl⟩
      simp only [isUnclaimed, Bool.and_eq_true, List.contains_iff_mem, beq_iff_eq] at hunclaimed
      obtain ⟨⟨hid, hactor⟩, hnone⟩ := hunclaimed
      refine ⟨hid, ?_⟩
      rw [hfound r.id hid, List.any_eq_true]
      exact ⟨r, hr, by simp [hactor, hnone]⟩
  · apply List.Nodup.sublist (List.filter_sublist.map _)
    apply List.pairwise_map.mpr
    apply db.media.apart.imp
    intro r r' hapart
    exact hapart.1

/-- A post claims the uploads that it names. -/
theorem Tracked.claim {db : Db} {φ : Nat → Phase} (h : Tracked config db φ) {i : Nat}
    {postId a : Uuid} {ids : List Uuid} {rows : List Attachment} {keeps}
    (hφ : φ i = .posted postId a ids rows) (hclaimable : Claimable a ids rows db)
    (hexists : ∃ post ∈ db.posts, post.id = postId) :
  Tracked config { db with
      media := db.media.update (isUnclaimed a ids) (·.claimedBy postId ids) keeps }
    (Function.update φ i .done)
  := by
  obtain ⟨hrows, hlt, hunclaimed, hposts⟩ : (Phase.posted postId a ids rows).Fits db := by
    rw [← hφ]
    exact h.compatible.fits i
  have hclaimed : (db.media.update (isUnclaimed a ids) (·.claimedBy postId ids) keeps).rows.filter
      (·.postId == some postId) =
      (db.media.rows.filter (isUnclaimed a ids)).map (·.claimedBy postId ids) := by
    apply filter_map_of_none
    · intro r hr
      rw [beq_eq_false_iff_ne]
      exact hunclaimed r hr
    · intro r
      rw [beq_iff_eq]
      rfl
  apply h.enter i .done
  · constructor
    · apply Nat.le_refl
    · intro r' hr'
      obtain ⟨r, hr, rfl⟩ := List.mem_map.mp hr'
      right
      refine ⟨r, hr, ?_⟩
      split
      · rename_i hmine
        refine ⟨rfl, rfl, rfl, .inr ⟨?_, postId, rfl, ?_⟩⟩
        · simp only [isUnclaimed, Bool.and_eq_true, Option.isNone_iff_eq_none] at hmine
          exact hmine.2
        · rw [hφ]
          rfl
      · exact ⟨rfl, rfl, rfl, .inl rfl⟩
    · intro post hpost
      exact .inl hpost
  · trivial
  · intro key hkey
    cases hkey
  · intro key hkey
    cases hkey
  · intro postId' hpostId'
    cases hpostId'
  · intro r' hr'
    obtain ⟨r, hr, rfl⟩ := List.mem_map.mp hr'
    obtain ⟨hid, hkey, hurl, hclaims⟩ := h.media r hr
    split
    · refine ⟨hid, hkey, hurl, ?_⟩
      intro postId' hpostId'
      cases hpostId'
      exact hexists
    · exact ⟨hid, hkey, hurl, hclaims⟩
  · exact h.posts
  · intro post hpost
    by_cases hmine : post.id = postId
    · right; left
      have himages := hposts post hpost hmine
      rw [Db.Owns, Db.claimed, hmine, hclaimed, himages]
      constructor
      · intro image himage
        obtain ⟨r₀, hr₀, rfl⟩ := List.mem_map.mp himage
        obtain ⟨id, hid, hfind⟩ := List.mem_filterMap.mp hr₀
        have hmem := List.mem_of_find?_eq_some hfind
        have hid₀ := List.find?_some hfind
        have hany : (rows.any fun r => r.id == id) = true := List.any_eq_true.mpr ⟨r₀, hmem, hid₀⟩
        rw [hclaimable.1 id hid, List.any_eq_true] at hany
        obtain ⟨r, hr, hmatch⟩ := hany
        simp only [Bool.and_eq_true, beq_iff_eq] at hmatch hid₀
        obtain ⟨⟨rfl, hactor⟩, hnone⟩ := hmatch
        have hmine : isUnclaimed a ids r = true := by
          simp [isUnclaimed, hid, hactor, hnone]
        refine ⟨r.claimedBy postId ids, List.mem_map.mpr ⟨r, List.mem_filter.mpr ⟨hr, hmine⟩, rfl⟩,
          ?_, hclaimable.2.2 r hr hmine⟩
        exact (hrows r₀ hmem).2 r hr hid₀.symm
      · rw [List.length_map, hclaimable.length_eq]
    · right; right
      refine ⟨hpost, ?_, ?_⟩
      · rw [hφ]
        exact fun hsame => hmine (Option.some.inj hsame).symm
      · intro howns
        apply howns.frame
        · apply filter_map_of_not
          intro r _ hchanged
          simp only [isUnclaimed, Bool.and_eq_true, Option.isNone_iff_eq_none] at hchanged
          constructor
          · rw [hchanged.2]
            rfl
          · rw [beq_eq_false_iff_ne]
            exact fun hsame => hmine (Option.some.inj hsame).symm
        · intro r _ hobject
          exact hobject

/-! ### One exchange -/

/-- An exchange that changes nothing, and leaves the request in its phase or ends it. -/
theorem Tracked.stay {db : Db} {φ : Nat → Phase} (h : Tracked config db φ) (i : Nat) {ψ : Phase}
    (hψ : ψ = φ i ∨ (ψ = .done ∨ ψ = .sweeping) ∧
      ∀ post ∈ db.posts, (φ i).pending ≠ some post.id) :
  Tracked config db (Function.update φ i ψ)
  := by
  have hdb : db = { db with objects := db.objects, next := db.next } := rfl
  rw [hdb]
  rcases hψ with rfl | ⟨hψ, hpending⟩
  · apply h.pass i (φ i) (Nat.le_refl _) (h.compatible.fits i)
    · intro key hkey
      exact .inl hkey
    · intro key hkey
      exact .inl hkey
    · exact .inl rfl
    · intro r _ _ hobject
      exact hobject
  · apply h.pass i ψ (Nat.le_refl _)
    · rcases hψ with rfl | rfl
      · trivial
      · trivial
    · intro key hkey
      rcases hψ with rfl | rfl
      · cases hkey
      · cases hkey
    · intro key hkey
      rcases hψ with rfl | rfl
      · cases hkey
      · cases hkey
    · right
      refine ⟨?_, hpending⟩
      rcases hψ with rfl | rfl
      · rfl
      · rfl
    · intro r _ _ hobject
      exact hobject

theorem Phase.next_delete (φ : Phase) (key : ObjectKey) (r : Except NoombatError Unit) :
  φ.next ⟨.delete key, r⟩ = φ ∨ φ.next ⟨.delete key, r⟩ = .done ∧ φ.pending = none
  := by
  cases φ with
  | failed key' => exact .inr ⟨rfl, rfl⟩
  | _ => exact .inl rfl

/-- An object is removed that is not that of a claimed attachment. -/
theorem Tracked.delete {db : Db} {φ : Nat → Phase} (h : Tracked config db φ) {i : Nat}
    {key : ObjectKey} (r : Except NoombatError Unit)
    (hkey : ∀ r ∈ db.media, r.objectKey = key → r.postId = none) :
  Tracked config { db with objects := db.objects.filter (· != key) }
    (Function.update φ i ((φ i).next ⟨.delete key, r⟩))
  := by
  have hobjects : ∀ r ∈ db.media, r.postId.isSome = true → r.objectKey ∈ db.objects →
      r.objectKey ∈ db.objects.filter (· != key) := by
    intro r hr hclaimed hobject
    refine List.mem_filter.mpr ⟨hobject, bne_iff_ne.mpr ?_⟩
    intro hsame
    rw [hkey r hr hsame] at hclaimed
    cases hclaimed
  rcases (φ i).next_delete key r with hnext | ⟨hnext, hpending⟩
  · rw [hnext]
    apply h.pass i (φ i) (Nat.le_refl _)
    · exact h.compatible.fits i
    · intro key' hkey'
      exact .inl hkey'
    · intro key' hkey'
      exact .inl hkey'
    · exact .inl rfl
    · exact hobjects
  · rw [hnext]
    apply h.pass i .done (Nat.le_refl _) trivial
    · intro key' hkey'
      cases hkey'
    · intro key' hkey'
      cases hkey'
    · left
      rw [hpending]
      rfl
    · exact hobjects

section Exchanges

variable {db : Db} {φ : Nat → Phase} (h : Tracked config db φ) {i : Nat}

include h

theorem tracked_newObjectKey (hφ : φ i = .start) :
  Tracked config { db with next := db.next + 1 } (Function.update φ i (.drawn db.next))
  := by
  apply h.pass i (.drawn db.next) (Nat.le_succ _)
  · refine ⟨Nat.lt_succ_self _, ?_⟩
    intro r hr hsame
    exact Nat.lt_irrefl _ (hsame ▸ (h.media r hr).2.1)
  · intro key hkey
    cases hkey
    exact .inr (Nat.le_refl _)
  · intro key hkey
    cases hkey
  · left
    rw [hφ]
    rfl
  · intro r _ _ hobject
    exact hobject

theorem tracked_put {key : ObjectKey} (hφ : φ i = .drawn key) :
  Tracked config { db with objects := key :: db.objects } (Function.update φ i (.stored key))
  := by
  have hfits := h.compatible.fits i
  rw [hφ] at hfits
  apply h.pass i (.stored key) (Nat.le_refl _)
  · exact hfits
  · intro key' hkey'
    left
    rw [hφ]
    exact hkey'
  · intro key' hkey'
    cases hkey'
  · left
    rw [hφ]
    rfl
  · intro r _ _ hobject
    exact List.mem_cons_of_mem key hobject

/-- An upload that could not be recorded is still that of nobody. -/
theorem tracked_failed {key : ObjectKey} (hφ : φ i = .stored key) :
  Tracked config db (Function.update φ i (.failed key))
  := by
  have hfits := h.compatible.fits i
  rw [hφ] at hfits
  have hdb : db = { db with objects := db.objects, next := db.next } := rfl
  rw [hdb]
  apply h.pass i (.failed key) (Nat.le_refl _) hfits
  · intro key' hkey'
    left
    rw [hφ]
    exact hkey'
  · intro key' hkey'
    cases hkey'
  · left
    rw [hφ]
    rfl
  · intro r _ _ hobject
    exact hobject

/-- The uploads that are found have the URLs that they have. -/
theorem tracked_found {a : Uuid} (ids : List Uuid) (hφ : φ i = .start) :
  Tracked config db
    (Function.update φ i (.found a ids (db.media.rows.filter (isUnclaimed a ids))))
  := by
  have hdb : db = { db with objects := db.objects, next := db.next } := rfl
  rw [hdb]
  apply h.pass i (.found a ids _) (Nat.le_refl _)
  · intro r hr
    have hr := (List.mem_filter.mp hr).1
    refine ⟨(h.media r hr).1, ?_⟩
    intro r' hr' hid
    rw [Db.eq_of_id hr' hr hid]
  · intro key hkey
    cases hkey
  · intro key hkey
    cases hkey
  · left
    rw [hφ]
    rfl
  · intro r _ _ hobject
    exact hobject

/-- The keys that are read are those of what the post has claimed. -/
theorem tracked_collected {postId : Uuid} {keys : List ObjectKey} (hφ : φ i = .start)
    (hkeys : ∀ key ∈ keys, ∃ r ∈ db.claimed postId, r.objectKey = key) :
  Tracked config db (Function.update φ i (.collected postId keys))
  := by
  have hdb : db = { db with objects := db.objects, next := db.next } := rfl
  rw [hdb]
  apply h.pass i (.collected postId keys) (Nat.le_refl _)
  · intro key hkey
    obtain ⟨r, hr, rfl⟩ := hkeys key hkey
    obtain ⟨hr, hclaimed⟩ := Db.mem_claimed.mp hr
    refine ⟨(h.media r hr).2.1, ?_⟩
    intro r' hr' hsame
    rw [Table.eq_of_not_apart hr' hr fun hapart => hapart.2 hsame]
    exact hclaimed
  · intro key hkey
    cases hkey
  · intro key hkey
    obtain ⟨r, hr, hrow⟩ := hkeys key hkey
    exact .inr ⟨r, (Db.mem_claimed.mp hr).1, hrow⟩
  · left
    rw [hφ]
    rfl
  · intro r _ _ hobject
    exact hobject

/-- Uploads are described. -/
theorem tracked_describe {p : Attachment → Bool} {altText : Option String} {keeps}
    (hp : ∀ r, p r = true → r.postId = none) :
  Tracked config { db with
      media := db.media.update p (fun r => { r with altText }) keeps }
    (Function.update φ i (φ i))
  := by
  apply h.unclaimed i
  · intro r' hr'
    obtain ⟨r, hr, rfl⟩ := List.mem_map.mp hr'
    refine ⟨r, hr, ?_⟩
    split
    · exact ⟨rfl, rfl, rfl, rfl⟩
    · exact ⟨rfl, rfl, rfl, rfl⟩
  · intro postId
    apply filter_map_of_not
    intro r _ hchanged
    have hnone := hp r hchanged
    constructor
    · rw [hnone]
      rfl
    · change (r.postId == some postId) = false
      rw [hnone]
      rfl

/-- Uploads are deleted. -/
theorem tracked_deleteUnclaimed {p : Attachment → Bool} (hp : ∀ r, p r = true → r.postId = none) :
  Tracked config { db with media := db.media.delete p } (Function.update φ i (φ i))
  := by
  apply h.unclaimed i
  · intro r hr
    exact ⟨r, (Table.mem_delete.mp hr).1, rfl, rfl, rfl, rfl⟩
  · intro postId
    apply filter_filter_of_not
    intro r _ hclaimed
    rw [beq_iff_eq] at hclaimed
    apply Bool.eq_false_iff.mpr
    intro hdeleted
    rw [hp r hdeleted] at hclaimed
    cases hclaimed

end Exchanges

/-- An uncrossed exchange keeps what is tracked. -/
theorem tracked_exchange {s : Requests} {i : Nat} {t : Call} {q : AttachmentRequest}
    {c : attachmentWorld.Choice q} {k : Attaching.Answer q → Program Attaching Unit}
    (h : Tracked config s.state (s.phases .start Phase.next))
    (hasked : Asked config t (s.history.trace i) q) (hC : Uncrossed i t q c s) :
  Tracked config (s.exchange attachmentWorld i t q k c).state
    ((s.exchange attachmentWorld i t q k c).phases .start Phase.next)
  := by
  rw [Pool.phases_exchange]
  change Tracked config (attachmentWorld.exec q c s.state).2 _
  generalize hφ : s.phases .start Phase.next = φ at h ⊢
  have hφi : Phase.of (s.history.trace i) = φ i := congrFun hφ i
  have hfits := h.compatible.fits i
  cases q with
  | newObjectKey =>
      rw [Asked, hφi] at hasked
      rw [hasked]
      apply tracked_newObjectKey h hasked
  | put key bytes =>
      rw [Asked, hφi] at hasked
      rw [hasked]
      cases c with
      | none => apply tracked_put h hasked
      | some e =>
          apply h.stay i
          right
          exact ⟨.inl rfl, by simp [hasked, Phase.pending]⟩
  | delete key =>
      cases c with
      | some e =>
          apply h.stay i
          rcases (φ i).next_delete key (.error e) with hnext | ⟨hnext, hpending⟩
          · exact .inl hnext
          · exact .inr ⟨.inl hnext, by simp [hpending]⟩
      | none =>
          apply h.delete
          rw [Asked, hφi] at hasked
          rcases hasked with hfailed | ⟨keys, hdeleted, hkey⟩ | rfl
          · rw [hfailed] at hfits
            intro r hr hsame
            exact absurd hsame (hfits.2 r hr)
          · rw [hdeleted] at hfits
            intro r hr hsame
            exact absurd hsame ((hfits key hkey).2 r hr)
          · exact hC rfl
  | compose =>
      have hnext : ∀ r, (φ i).next ⟨.compose, r⟩ = φ i := by
        intro r
        cases φ i <;> rfl
      rw [hnext]
      cases c with
      | none => exact h.stay i (.inl rfl)
      | some e => exact h.stay i (.inl rfl)
  | sql st =>
      cases st with
      | insert upload =>
          obtain ⟨hstored, hurl⟩ := hasked
          rw [hφi] at hstored
          rw [hstored]
          cases c with
          | error e => apply tracked_failed h hstored
          | ok now =>
              simp only [attachmentWorld, AttachmentSql.exec]
              split
              · rename_i media hinsert
                apply h.record hstored hurl hinsert
              · apply tracked_failed h hstored
      | describe id a altText =>
          have hnext : ∀ r, (φ i).next ⟨.sql (.describe id a altText), r⟩ = φ i := by
            intro r
            cases φ i <;> rfl
          rw [hnext]
          cases c with
          | error e => exact h.stay i (.inl rfl)
          | ok now =>
              apply tracked_describe h
              intro r hr
              simp only [isDescribed, Bool.and_eq_true, Option.isNone_iff_eq_none] at hr
              exact hr.2
      | unclaimed a ids =>
          rw [Asked, hφi] at hasked
          cases c with
          | error e =>
              apply h.stay i
              left
              rw [hasked]
              rfl
          | ok now =>
              rw [hasked]
              apply tracked_found h ids hasked
      | insertPost a images =>
          rw [Asked, hφi] at hasked
          have hfails : ∀ e, Tracked config s.state
              (Function.update φ i ((φ i).next ⟨.sql (.insertPost a images), .error e⟩)) := by
            intro e
            apply h.stay i
            rcases hasked with ⟨hstart, _⟩ | ⟨ids, rows, hfound, _⟩
            · right
              rw [hstart]
              exact ⟨.inl rfl, by simp [Phase.pending]⟩
            · left
              rw [hfound]
              rfl
          cases c with
          | error e => exact hfails e
          | ok now =>
              simp only [attachmentWorld, AttachmentSql.exec]
              split
              · rename_i posts hinsert
                apply h.post hinsert
                rcases hasked with ⟨hstart, himages⟩ | ⟨ids, rows, hfound, himages⟩
                · left
                  rw [hstart]
                  exact ⟨⟨rfl, himages⟩, rfl⟩
                · right
                  rw [hfound]
                  exact ⟨ids, rows, rfl, himages, rfl⟩
              · apply hfails
      | claim a postId ids =>
          obtain ⟨rows, hposted⟩ := hasked
          obtain ⟨hok, hclaimable⟩ := hC
          rw [hposted] at hclaimable
          rw [hφi] at hposted
          have hnext : ∀ r, (φ i).next ⟨.sql (.claim a postId ids), r⟩ = .done := by
            intro r
            rw [hposted]
            rfl
          rw [hnext]
          cases c with
          | error e => cases hok
          | ok now =>
              simp only [attachmentWorld, AttachmentSql.exec]
              split
              · rename_i hexists
                obtain ⟨post, hpost, hid⟩ := List.any_eq_true.mp hexists
                apply h.claim hposted hclaimable ⟨post, hpost, beq_iff_eq.mp hid⟩
              · rename_i hnone
                -- the post was deleted before it could claim anything
                apply h.stay i
                right
                refine ⟨.inl rfl, ?_⟩
                rintro post hpost hpending
                rw [hposted] at hpending
                apply hnone
                have hid : post.id = postId := (Option.some.inj hpending).symm
                exact List.any_eq_true.mpr ⟨post, hpost, beq_iff_eq.mpr hid⟩
      | stale =>
          rw [Asked, hφi] at hasked
          have hsweeping : Tracked config s.state (Function.update φ i .sweeping) := by
            apply h.stay i
            right
            exact ⟨.inr rfl, by simp [hasked, Phase.pending]⟩
          rw [hasked]
          cases c with
          | error e => exact hsweeping
          | ok now => exact hsweeping
      | deleteUnclaimed id =>
          have hnext : ∀ r, (φ i).next ⟨.sql (.deleteUnclaimed id), r⟩ = φ i := by
            intro r
            cases φ i <;> rfl
          rw [hnext]
          cases c with
          | error e => exact h.stay i (.inl rfl)
          | ok now =>
              apply tracked_deleteUnclaimed h
              intro r hr
              simp only [Bool.and_eq_true, Option.isNone_iff_eq_none] at hr
              exact hr.2
      | keysOfPost postId =>
          rw [Asked, hφi] at hasked
          rw [hasked]
          cases c with
          | error e =>
              apply tracked_collected h hasked
              intro key hkey
              cases hkey
          | ok now =>
              apply tracked_collected h hasked
              intro key hkey
              obtain ⟨r, hr, rfl⟩ := List.mem_map.mp hkey
              exact ⟨r, hr, rfl⟩
      | deletePost postId =>
          obtain ⟨keys, hcollected⟩ := hasked
          rw [hφi] at hcollected
          rw [hcollected]
          cases c with
          | error e =>
              apply h.stay i
              right
              exact ⟨.inl rfl, by simp [hcollected, Phase.pending]⟩
          | ok now => apply h.deletePost hcollected

/-! ### Whole runs -/

/-- The exchange stored a post. -/
def stores (postId : Uuid) : Attaching.Exchange → Bool
  | ⟨.sql (.insertPost _ _), .ok id⟩ => id == postId
  | _ => false

/-- The exchange claimed attachments for a post, or failed to. -/
def claims : Attaching.Exchange → Bool
  | ⟨.sql (.claim _ _ _), _⟩ => true
  | _ => false

/-- A post names images that the request that stored it has not claimed yet. -/
def Pending (h : Attaching.History Call) (post : Post) : Prop :=
  post.images ≠ [] ∧ ∃ e ∈ h, stores post.id e.exchange = true ∧
    ∀ e' ∈ h, e'.thread = e.thread → claims e'.exchange = false

instance (h : Attaching.History Call) (post : Post) : Decidable (Pending h post) :=
  inferInstanceAs (Decidable (_ ∧ ∃ e ∈ h, _ ∧ ∀ e' ∈ h, _))

namespace Phase

theorem stores_of_pending {l : List Attaching.Exchange} {postId : Uuid}
    (h : (of l).pending = some postId) :
  ∃ x ∈ l, stores postId x = true
  := by
  induction l with
  | nil => cases h
  | cons x l ih =>
      rw [of_cons] at h
      by_cases hl : (of l).pending = some postId
      · obtain ⟨y, hy, hstores⟩ := ih hl
        exact ⟨y, List.mem_cons_of_mem x hy, hstores⟩
      · refine ⟨x, List.mem_cons_self, ?_⟩
        revert h hl
        generalize of l = φ
        unfold next
        split
        all_goals intro h hl
        all_goals first | exact absurd h hl | cases h
        apply beq_self_eq_true

theorem of_eq_done {l : List Attaching.Exchange} (h : ∃ x ∈ l, claims x = true) :
  of l = .done
  := by
  induction l with
  | nil =>
      obtain ⟨x, hx, _⟩ := h
      cases hx
  | cons x l ih =>
      obtain ⟨y, hy, hclaims⟩ := h
      rw [of_cons]
      rcases List.mem_cons.mp hy with rfl | hy
      · obtain ⟨q, r⟩ := y
        cases q with
        | sql st =>
            cases st with
            | claim a postId ids => cases of l <;> rfl
            | _ => cases hclaims
        | _ => cases hclaims
      · rw [ih ⟨y, hy, hclaims⟩]
        obtain ⟨q, r⟩ := x
        cases q with
        | sql st => cases st <;> rfl
        | _ => rfl

end Phase

def Db.none : Db :=
  ⟨.empty, .empty, [], 0⟩

theorem tracked_initial :
  Tracked config Db.none ((Pool.initial Db.none : Requests).phases .start Phase.next)
  := by
  constructor
  · constructor
    · intro i
      trivial
    · intro i j _
      constructor
      · intro key hkey
        cases hkey
      · intro postId hpostId
        cases hpostId
  · intro r hr
    cases hr
  · intro post hpost
    cases hpost
  · intro post hpost
    cases hpost

theorem tracked_of_reaches {s : Requests}
    (h : Reaches attachmentWorld (Call.program config) Uncrossed (.initial .none) s) :
  Tracked config s.state (s.phases .start Phase.next)
  := by
  apply (Step.inv (fun s : Requests => Tracked config s.state (s.phases .start Phase.next))
    asks_program _ _ (Pool.initial_disciplined (Asked config) _) tracked_initial h).2
  · intro s t hs
    exact hs
  · intro s i t q k c _ hs _ hasked hC
    apply tracked_exchange hs hasked hC

/-- A post whose request has stored it, and has not come to claim its images, names none if it
is not pending. -/
theorem owns_of_pending {s : Requests}
    (htracked : Tracked config s.state (s.phases .start Phase.next)) {post : Post}
    {i : Nat} (hpending : (s.phases .start Phase.next i).pending = some post.id)
    (hclaimed : ¬ Pending s.history post) :
  s.state.Owns post
  := by
  have himages : post.images = [] := by
    by_contra hnamed
    apply hclaimed
    refine ⟨hnamed, ?_⟩
    obtain ⟨x, hx, hstores⟩ := Phase.stores_of_pending hpending
    obtain ⟨e, he, rfl, rfl⟩ := Interface.History.mem_trace.mp hx
    refine ⟨e, he, hstores, ?_⟩
    intro e' he' hthread
    apply Bool.eq_false_iff.mpr
    intro hclaims
    have hdone : s.phases .start Phase.next e.thread = .done :=
      Phase.of_eq_done ⟨e'.exchange, Interface.History.mem_trace.mpr ⟨e', he', hthread, rfl⟩,
        hclaims⟩
    rw [hdone] at hpending
    cases hpending
  have hfits := htracked.compatible.fits i
  generalize s.phases .start Phase.next i = φ at hpending hfits
  cases φ with
  | posted postId a ids rows =>
      obtain rfl := Option.some.inj hpending
      have hnone : s.state.claimed post.id = [] := by
        apply List.filter_eq_nil_iff.mpr
        intro r hr
        rw [beq_iff_eq]
        exact hfits.2.2.1 r hr
      rw [Db.Owns, himages, hnone]
      simp
  | _ => cases hpending

theorem mediaUrl_injective (hsimple : Function.Injective config.simple) :
  Function.Injective config.mediaUrl
  := by
  intro key key' hurl
  apply hsimple
  exact (String.append_right_inj _).mp hurl

/-- If requests are uncrossed, then a post that has claimed its images names as many images as
it has claimed; each of them is the only attachment with its URL, is claimed by this post, and
its object exists. -/
theorem attachments_owned (config : Avatar.Config) (hsimple : Function.Injective config.simple)
    (s : Requests)
    (h : Reaches attachmentWorld (Call.program config) Uncrossed (.initial .none) s) (post : Post)
    (hpost : post ∈ s.state.posts) (hclaimed : ¬ Pending s.history post) :
  (∀ image ∈ post.images, ∃ r ∈ s.state.media, r.url = image.url ∧ r.postId = some post.id ∧
      r.objectKey ∈ s.state.objects ∧ ∀ r' ∈ s.state.media, r'.url = image.url → r' = r) ∧
    post.images.length = (s.state.claimed post.id).length
  := by
  have htracked := tracked_of_reaches h
  have howns : s.state.Owns post := by
    rcases htracked.owned post hpost with ⟨i, hpending⟩ | howns
    · apply owns_of_pending htracked hpending hclaimed
    · exact howns
  refine ⟨?_, howns.2⟩
  intro image himage
  obtain ⟨r, hr, hurl, hobject⟩ := howns.1 image himage
  obtain ⟨hr, hmine⟩ := Db.mem_claimed.mp hr
  refine ⟨r, hr, hurl, hmine, hobject, ?_⟩
  intro r' hr' hurl'
  apply Table.eq_of_not_apart hr' hr
  intro hapart
  apply hapart.2
  apply mediaUrl_injective hsimple
  rw [← (htracked.media r hr).2.2.1, ← (htracked.media r' hr').2.2.1, hurl, hurl']

/-! ### An image named twice -/

/-- What the environment answers: nothing fails. -/
def plainly : (q : AttachmentRequest) → attachmentWorld.Choice q
  | .sql _ => .ok (1704067200000000000 : Int)
  | .newObjectKey => ()
  | .put _ _ => none
  | .delete _ => none
  | .compose => none

/-- An actor uploads an image and publishes a post with the attachments given. -/
def publishes (ids : List Uuid) : List (Turn attachmentWorld Call) :=
  .start (.upload 1 ⟨⟨[1], "image/png"⟩, none⟩ none) ::
    List.replicate 3 (.exchange 0 plainly) ++
  .start (.publish 1 ids) :: List.replicate 4 (.exchange 1 plainly)

/-- A post whose request names one upload twice names two images and has claimed one. -/
theorem image_named_twice :
  ∃ s, Reaches attachmentWorld (Call.program .plain) (fun _ _ _ _ _ => True) (.initial .none) s ∧
    ∃ post ∈ s.state.posts.rows, ¬ Pending s.history post ∧
      post.images.length ≠ (s.state.claimed post.id).length
  := by
  have hplayed : (((Pool.initial .none).play attachmentWorld (Call.program .plain)
      (fun _ _ _ _ _ => True) (publishes [1, 1])).map fun s =>
        decide (∃ post ∈ s.state.posts.rows, ¬ Pending s.history post ∧
          post.images.length ≠ (s.state.claimed post.id).length)) = some true := by
    decide +kernel
  obtain ⟨s, hs, htwice⟩ := Option.map_eq_some_iff.mp hplayed
  exact ⟨s, Pool.reaches_of_play _ _ _ hs, of_decide_eq_true htwice⟩

theorem simple_plain_injective :
  Function.Injective Avatar.Config.plain.simple
  := by
  intro key key' heq
  have hrepr : key.repr = key'.repr := (String.append_right_inj _).mp heq
  have hdigits : Nat.toDigits 10 key = Nat.toDigits 10 key' := by
    rw [← Nat.toList_repr, ← Nat.toList_repr, hrepr]
  rw [← Nat.ofDigitChars_ten_toDigits (n := key), hdigits, Nat.ofDigitChars_ten_toDigits]

/-- A post whose request names its upload once. -/
theorem attachments_owned_al :
  ∃ s, Reaches attachmentWorld (Call.program .plain) Uncrossed (.initial .none) s ∧
    ∃ post ∈ s.state.posts, post.images ≠ [] ∧
      (∀ image ∈ post.images, ∃ r ∈ s.state.media, r.url = image.url ∧ r.postId = some post.id ∧
        r.objectKey ∈ s.state.objects ∧ ∀ r' ∈ s.state.media, r'.url = image.url → r' = r) ∧
      post.images.length = (s.state.claimed post.id).length
  := by
  have hplayed : (((Pool.initial .none).play attachmentWorld (Call.program .plain)
      Uncrossed (publishes [1])).map fun s =>
        decide (∃ post ∈ s.state.posts.rows, post.images ≠ [] ∧ ¬ Pending s.history post)) =
      some true := by
    decide +kernel
  obtain ⟨s, hs, hpublished⟩ := Option.map_eq_some_iff.mp hplayed
  obtain ⟨post, hpost, hnamed, hclaimed⟩ := of_decide_eq_true hpublished
  have hreaches := Pool.reaches_of_play _ _ _ hs
  exact ⟨s, hreaches, post, hpost, hnamed,
    attachments_owned .plain simple_plain_injective s hreaches post hpost hclaimed⟩

end Media.Attachments
