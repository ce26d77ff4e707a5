import Noombat.Federation.Types
import Noombat.Table

/-!
# The database

The tables that federation reads and writes.  The actors and the posts form the core: their
unique columns are unique, every post has an author, and no identifier is used twice; the
changes of the core below are the only ones there are, and keep it so.  The rows of the
other tables refer to actors and posts, and go with them.
-/

namespace Federation

/-! ### Actors and posts -/

inductive ActorType where
  | individual
  | organization
  | group
  | application
  deriving DecidableEq, Repr

/-- The kind of actor an ActivityStreams `type` names. -/
def ActorType.fromApType : String → ActorType
  | "Organization" => organization
  | "Group" => group
  | "Application" => application
  | _ => individual

structure ActorPrivacy where
  discoverable : Bool
  indexable : Bool
  requireFollowApproval : Bool
  deriving DecidableEq, Repr

/-- A row of `actors`. -/
structure Actor where
  id : Uuid
  actorType : ActorType
  apId : String
  username : String
  displayName : Option String
  summaryHtml : Option String
  sanitiserVersion : Nat
  publicKeyPem : String
  publicKeyId : Option String
  privateKeyPem : Option String
  ed25519PublicKey : Option String
  ed25519PrivateKey : Option String
  domain : String
  isLocal : Bool
  inboxUrl : Option String
  sharedInboxUrl : Option String
  movedTo : Option String
  actorPrivacy : ActorPrivacy
  deriving DecidableEq, Repr

def Actor.requiresFollowApproval (a : Actor) : Bool :=
  a.actorPrivacy.requireFollowApproval

/-- A remote actor with the given URI, username and keys, and nothing else set. -/
def Actor.remote (apId username publicKeyPem : String) (ed25519PublicKey : Option String) :
    Actor where
  id := 0
  actorType := .individual
  apId := apId
  username := username
  displayName := none
  summaryHtml := none
  sanitiserVersion := 1
  publicKeyPem := publicKeyPem
  publicKeyId := some (apId ++ "#main-key")
  privateKeyPem := none
  ed25519PublicKey := ed25519PublicKey
  ed25519PrivateKey := none
  domain := ""
  isLocal := false
  inboxUrl := some (apId ++ "/inbox")
  sharedInboxUrl := none
  movedTo := none
  actorPrivacy := ⟨false, false, false⟩

/-- The actor that signs the fetches of an instance. -/
def Actor.instance (apId : String) : Actor :=
  { Actor.remote apId "instance" "PEM" none with
    actorType := .application
    publicKeyId := none
    privateKeyPem := some "PEM"
    isLocal := true
    inboxUrl := none }

/-- Two actors differ in their identifiers and in the key identifiers they publish. -/
def Actor.Apart (a b : Actor) : Prop :=
  a.id ≠ b.id ∧ a.apId ≠ b.apId ∧ (a.publicKeyId = none ∨ a.publicKeyId ≠ b.publicKeyId)

instance : DecidableRel Actor.Apart :=
  fun a b => inferInstanceAs (Decidable (a.id ≠ b.id ∧ a.apId ≠ b.apId ∧
    (a.publicKeyId = none ∨ a.publicKeyId ≠ b.publicKeyId)))

instance : Std.Symm Actor.Apart where
  symm a b h := by
    obtain ⟨h₁, h₂, h₃⟩ := h
    refine ⟨h₁.symm, h₂.symm, ?_⟩
    rcases h₃ with h₃ | h₃
    · by_cases hb : b.publicKeyId = none
      · left
        apply hb
      · right
        rw [h₃]
        apply hb
    · right
      apply h₃.symm

inductive PostType where
  | note
  | article
  deriving DecidableEq, Repr

def PostType.asStr : PostType → String
  | note => "note"
  | article => "article"

inductive Visibility where
  | «public»
  | unlisted
  | followers
  | connections
  deriving DecidableEq, Repr

/-- What a post says and how it is shown: the columns of `posts` that are derived from its
document, and the document itself. -/
structure PostContent where
  title : Option String
  featuredImageUrl : Option String
  featuredImageAlt : Option String
  contentMd : Option String
  contentHtml : String
  sanitiserVersion : Nat
  inReplyTo : Option String
  visibility : Visibility
  apObject : Json
  integrityProofVerified : Option Bool

/-- A row of `posts`. -/
structure Post extends PostContent where
  id : Uuid
  actorId : Uuid
  apId : String
  postType : PostType
  sensitive : Bool
  canonicalUri : Option String
  relayedUnverified : Bool

/-- A note with the given author, identifier and document, and nothing else set. -/
def Post.plain (actorId : Uuid) (apId : String) (apObject : Json) : Post where
  title := none
  featuredImageUrl := none
  featuredImageAlt := none
  contentMd := none
  contentHtml := ""
  sanitiserVersion := 1
  inReplyTo := none
  visibility := .public
  apObject := apObject
  integrityProofVerified := none
  id := 0
  actorId := actorId
  apId := apId
  postType := .note
  sensitive := false
  canonicalUri := none
  relayedUnverified := false

/-- Two posts differ in their identifiers. -/
def Post.Apart (p q : Post) : Prop :=
  p.id ≠ q.id ∧ p.apId ≠ q.apId

instance : DecidableRel Post.Apart :=
  fun p q => inferInstanceAs (Decidable (p.id ≠ q.id ∧ p.apId ≠ q.apId))

instance : Std.Symm Post.Apart where
  symm _ _ h := ⟨h.1.symm, h.2.symm⟩

/-- A change of posts to other values of columns that neither identify them nor name
their author. -/
structure PostChange where
  apply : Post → Post
  id_apply : ∀ p, (apply p).id = p.id
  apId_apply : ∀ p, (apply p).apId = p.apId
  actorId_apply : ∀ p, (apply p).actorId = p.actorId

/-- A change of actors to other values of columns that do not identify them. -/
structure ActorChange where
  apply : Actor → Actor
  id_apply : ∀ a, (apply a).id = a.id
  apId_apply : ∀ a, (apply a).apId = a.apId

attribute [simp] PostChange.id_apply PostChange.apId_apply PostChange.actorId_apply
  ActorChange.id_apply ActorChange.apId_apply

theorem PostChange.keeps (f : PostChange) (p p' : Post) (h : p.Apart p') :
  (f.apply p).Apart p' ∧ p.Apart (f.apply p') ∧ (f.apply p).Apart (f.apply p')
  := by
  simpa [Post.Apart] using h

/-- The actors and the posts. -/
structure Core where
  actors : Table Actor.Apart
  posts : Table Post.Apart
  /-- The identifiers from this one on have not been used. -/
  nextId : Uuid
  actors_old : ∀ a ∈ actors, a.id < nextId
  posts_old : ∀ p ∈ posts, p.id < nextId
  authored : ∀ p ∈ posts, ∃ a ∈ actors, a.id = p.actorId

namespace Core

variable (core : Core)

def empty : Core where
  actors := .empty
  posts := .empty
  nextId := 0
  actors_old a h := absurd h (Table.mem_empty a)
  posts_old p h := absurd h (Table.mem_empty p)
  authored p h := absurd h (Table.mem_empty p)

/-- The core with another actor, under a new identifier, if its unique columns allow. -/
def insertActor (a : Actor) : Option Core :=
  match h : core.actors.insert { a with id := core.nextId } with
  | none => none
  | some actors => some
      { core with
        actors
        nextId := core.nextId + 1
        actors_old := by
          intro b hb
          rcases (Table.mem_of_insert h).mp hb with rfl | hb
          · apply Nat.lt_succ_self
          · apply Nat.lt_succ_of_lt (core.actors_old b hb)
        posts_old := fun p hp => Nat.lt_succ_of_lt (core.posts_old p hp)
        authored := by
          intro p hp
          obtain ⟨b, hb, hid⟩ := core.authored p hp
          exact ⟨b, (Table.mem_of_insert h).mpr (.inr hb), hid⟩ }

/-- The core with the actors that satisfy `q` changed, if their unique columns allow. -/
def updateActors (q : Actor → Bool) (f : ActorChange) : Option Core :=
  match h : Table.ofRows (core.actors.rows.map fun a => if q a then f.apply a else a) with
  | none => none
  | some actors => some
      { core with
        actors
        actors_old := by
          intro b hb
          obtain ⟨a, ha, rfl⟩ := List.mem_map.mp ((Table.mem_of_ofRows h).mp hb)
          have hold := core.actors_old a ha
          split
          · simpa using hold
          · apply hold
        authored := by
          intro p hp
          obtain ⟨a, ha, hid⟩ := core.authored p hp
          refine ⟨_, (Table.mem_of_ofRows h).mpr (List.mem_map_of_mem ha), ?_⟩
          split
          · simpa using hid
          · apply hid }

/-- The core without the actors that satisfy `q` and their posts. -/
def deleteActors (q : Actor → Bool) : Core where
  actors := core.actors.delete q
  posts := core.posts.delete fun p => core.actors.rows.any fun a => q a && a.id == p.actorId
  nextId := core.nextId
  actors_old a ha := core.actors_old a (Table.mem_delete.mp ha).1
  posts_old p hp := core.posts_old p (Table.mem_delete.mp hp).1
  authored p hp := by
    obtain ⟨hp, hany⟩ := Table.mem_delete.mp hp
    obtain ⟨a, ha, hid⟩ := core.authored p hp
    refine ⟨a, Table.mem_delete.mpr ⟨ha, ?_⟩, hid⟩
    have hq := List.any_eq_false.mp hany a ha
    simpa [hid] using hq

/-- The core with another post, under a new identifier, if it has an author and its unique
columns allow. -/
def insertPost (p : Post) : Option Core :=
  if hauthor : ∃ a ∈ core.actors.rows, a.id = p.actorId then
    match h : core.posts.insert { p with id := core.nextId } with
    | none => none
    | some posts => some
        { core with
          posts
          nextId := core.nextId + 1
          actors_old := fun a ha => Nat.lt_succ_of_lt (core.actors_old a ha)
          posts_old := by
            intro q hq
            rcases (Table.mem_of_insert h).mp hq with rfl | hq
            · apply Nat.lt_succ_self
            · apply Nat.lt_succ_of_lt (core.posts_old q hq)
          authored := by
            intro q hq
            rcases (Table.mem_of_insert h).mp hq with rfl | hq
            · apply hauthor
            · apply core.authored q hq }
  else none

/-- The core with the posts that satisfy `q` changed. -/
def updatePosts (q : Post → Bool) (f : PostChange) : Core :=
  { core with
    posts := core.posts.update q f.apply f.keeps
    posts_old := by
      intro p' hp'
      obtain ⟨p, hp, rfl⟩ := Table.mem_update.mp hp'
      have hold := core.posts_old p hp
      split
      · simpa using hold
      · apply hold
    authored := by
      intro p' hp'
      obtain ⟨p, hp, rfl⟩ := Table.mem_update.mp hp'
      obtain ⟨a, ha, hid⟩ := core.authored p hp
      refine ⟨a, ha, ?_⟩
      split
      · simpa using hid
      · apply hid }

/-- The core without the posts that satisfy `q`. -/
def deletePosts (q : Post → Bool) : Core :=
  { core with
    posts := core.posts.delete q
    posts_old := fun p hp => core.posts_old p (Table.mem_delete.mp hp).1
    authored := fun p hp => core.authored p (Table.mem_delete.mp hp).1 }

/-- The core with the given actors, and no posts. -/
def ofActors (actors : List Actor) : Core :=
  actors.foldl (fun core a => (core.insertActor a).getD core) .empty

/-- The core with the given posts too. -/
def withPosts (posts : List Post) : Core :=
  posts.foldl (fun core p => (core.insertPost p).getD core) core

/-- The posts whose author is the given actor. -/
def authorIs (apId : String) (p : Post) : Bool :=
  core.actors.rows.any fun a => a.id == p.actorId && a.apId == apId

/-! ### Rows of changed cores -/

variable {core} {core' : Core}

theorem of_insertActor {a : Actor} (h : core.insertActor a = some core') :
  core'.posts = core.posts ∧ core'.nextId = core.nextId + 1 ∧
    ∀ b, b ∈ core'.actors ↔ b = { a with id := core.nextId } ∨ b ∈ core.actors
  := by
  unfold insertActor at h
  split at h
  · cases h
  · rename_i actors hactors
    cases h
    exact ⟨rfl, rfl, fun b => Table.mem_of_insert hactors⟩

theorem of_updateActors {q : Actor → Bool} {f : ActorChange}
    (h : core.updateActors q f = some core') :
  core'.posts = core.posts ∧ core'.nextId = core.nextId ∧
    ∀ b, b ∈ core'.actors ↔ ∃ a ∈ core.actors, (if q a then f.apply a else a) = b
  := by
  unfold updateActors at h
  split at h
  · cases h
  · rename_i actors hactors
    cases h
    refine ⟨rfl, rfl, fun b => ?_⟩
    change b ∈ actors ↔ _
    rw [Table.mem_of_ofRows hactors, List.mem_map]
    rfl

theorem of_insertPost {p : Post} (h : core.insertPost p = some core') :
  core'.actors = core.actors ∧ core'.nextId = core.nextId + 1 ∧
    ∀ q, q ∈ core'.posts ↔ q = { p with id := core.nextId } ∨ q ∈ core.posts
  := by
  unfold insertPost at h
  split at h
  · split at h
    · cases h
    · rename_i posts hposts
      cases h
      exact ⟨rfl, rfl, fun q => Table.mem_of_insert hposts⟩
  · cases h

@[simp]
theorem mem_updatePosts {q : Post → Bool} {f : PostChange} {p : Post} :
  p ∈ (core.updatePosts q f).posts ↔ ∃ p' ∈ core.posts, (if q p' then f.apply p' else p') = p
  := by
  change p ∈ core.posts.update q f.apply f.keeps ↔ _
  apply Table.mem_update

@[simp]
theorem mem_deletePosts {q : Post → Bool} {p : Post} :
  p ∈ (core.deletePosts q).posts ↔ p ∈ core.posts ∧ q p = false
  := Table.mem_delete

@[simp]
theorem mem_deleteActors {q : Actor → Bool} {a : Actor} :
  a ∈ (core.deleteActors q).actors ↔ a ∈ core.actors ∧ q a = false
  := Table.mem_delete

theorem mem_deleteActors_posts {q : Actor → Bool} {p : Post} :
  p ∈ (core.deleteActors q).posts ↔
    p ∈ core.posts ∧ ∀ a ∈ core.actors, q a = true → a.id ≠ p.actorId
  := by
  change p ∈ core.posts.delete _ ↔ _
  simp [Table.mem_rows]

/-- Two actors with one identifier are the same. -/
theorem actor_eq_of_id {a b : Actor} (ha : a ∈ core.actors) (hb : b ∈ core.actors)
    (h : a.id = b.id) :
  a = b
  := Table.eq_of_not_apart ha hb fun hapart => hapart.1 h

/-- Two actors with one URI are the same. -/
theorem actor_eq_of_apId {a b : Actor} (ha : a ∈ core.actors) (hb : b ∈ core.actors)
    (h : a.apId = b.apId) :
  a = b
  := Table.eq_of_not_apart ha hb fun hapart => hapart.2.1 h

/-- Two posts with one URI are the same. -/
theorem post_eq_of_apId {p q : Post} (hp : p ∈ core.posts) (hq : q ∈ core.posts)
    (h : p.apId = q.apId) :
  p = q
  := Table.eq_of_not_apart hp hq fun hapart => hapart.2 h

theorem post_eq_of_id {p q : Post} (hp : p ∈ core.posts) (hq : q ∈ core.posts)
    (h : p.id = q.id) :
  p = q
  := Table.eq_of_not_apart hp hq fun hapart => hapart.1 h

/-! ### Authors -/

/-- The actor with an identifier is known under a URI. -/
def Knows (core : Core) (id : Uuid) (apId : String) : Prop :=
  ∃ a ∈ core.actors, a.id = id ∧ a.apId = apId

theorem authorIs_iff {apId : String} {p : Post} :
  core.authorIs apId p = true ↔ core.Knows p.actorId apId
  := by
  simp [authorIs, Knows, Table.mem_rows]

/-- An identifier is known under one URI at most. -/
theorem Knows.unique {id : Uuid} {apId apId' : String} (h : core.Knows id apId)
    (h' : core.Knows id apId') :
  apId = apId'
  := by
  obtain ⟨a, ha, hid, rfl⟩ := h
  obtain ⟨b, hb, hid', rfl⟩ := h'
  rw [actor_eq_of_id ha hb (hid.trans hid'.symm)]

/-- Every post has an author, known under some URI. -/
theorem exists_author {p : Post} (hp : p ∈ core.posts) :
  ∃ apId, core.Knows p.actorId apId
  := by
  obtain ⟨a, ha, hid⟩ := core.authored p hp
  exact ⟨a.apId, a, ha, hid, rfl⟩

theorem Knows.insertActor {id : Uuid} {apId : String} {a : Actor}
    (h : core.insertActor a = some core') (hk : core.Knows id apId) :
  core'.Knows id apId
  := by
  obtain ⟨b, hb, hid⟩ := hk
  exact ⟨b, ((of_insertActor h).2.2 b).mpr (.inr hb), hid⟩

theorem Knows.updateActors {id : Uuid} {apId : String} {q : Actor → Bool} {f : ActorChange}
    (h : core.updateActors q f = some core') (hk : core.Knows id apId) :
  core'.Knows id apId
  := by
  obtain ⟨b, hb, rfl, rfl⟩ := hk
  refine ⟨_, ((of_updateActors h).2.2 _).mpr ⟨b, hb, rfl⟩, ?_⟩
  split
  · simp
  · simp

end Core

/-! ### The other tables -/

structure Follow where
  followerId : Uuid
  followingId : Uuid
  accepted : Bool
  apId : Option String

structure Block where
  actorId : Uuid
  targetId : Uuid
  deriving DecidableEq

/-- A row of `boosts` or of `likes`. -/
structure Reaction where
  actorId : Uuid
  postId : Uuid
  apId : String

/-- A row of `delivery_queue`. -/
structure Delivery where
  actorId : Uuid
  payload : Json
  targetInbox : String

structure Hashtag where
  id : Uuid
  name : String

structure PostHashtag where
  postId : Uuid
  hashtagId : Uuid
  deriving DecidableEq

inductive SearchOperation where
  | upsert
  | remove
  deriving DecidableEq

inductive WorkState where
  | pending
  | succeeded
  | failed
  deriving DecidableEq

/-- A row of `search_index_operations`. -/
structure SearchIndexOperation where
  indexName : String
  documentId : String
  operation : SearchOperation
  document : Option Json
  state : WorkState
  attempts : Nat
  lastError : Option String

/-- A row of `media_fetch_operations`. -/
structure MediaFetchOperation where
  postId : Uuid
  actorId : Uuid
  remoteUrl : String
  altText : Option String
  ordinal : Nat

inductive RelayStatus where
  | pending
  | accepted
  | rejected
  deriving DecidableEq

/-- A row of `relay_subscriptions`. -/
structure RelaySubscription where
  inboxUrl : String
  status : RelayStatus
  verificationPolicy : Option String
  deriving DecidableEq

def RelaySubscription.Apart (r r' : RelaySubscription) : Prop :=
  r.inboxUrl ≠ r'.inboxUrl

instance : DecidableRel RelaySubscription.Apart :=
  fun r r' => inferInstanceAs (Decidable (r.inboxUrl ≠ r'.inboxUrl))

instance : Std.Symm RelaySubscription.Apart where
  symm _ _ h := Ne.symm h

structure Report where
  reporterId : Uuid
  targetActorId : Option Uuid
  targetPostId : Option Uuid
  reason : String
  comment : Option String
  forwarded : Bool

inductive Restriction where
  | block
  | silence
  deriving DecidableEq

structure DomainRestriction where
  domain : String
  restriction : Restriction
  deriving DecidableEq

def DomainRestriction.Apart (r r' : DomainRestriction) : Prop :=
  r.domain ≠ r'.domain

instance : DecidableRel DomainRestriction.Apart :=
  fun r r' => inferInstanceAs (Decidable (r.domain ≠ r'.domain))

instance : Std.Symm DomainRestriction.Apart where
  symm _ _ h := Ne.symm h

/-- The database. -/
structure Db extends Core where
  tombstonedActors : List String
  follows : List Follow
  blocks : List Block
  boosts : List Reaction
  likes : List Reaction
  deliveryQueue : List Delivery
  hashtags : List Hashtag
  postHashtags : List PostHashtag
  searchIndexOperations : List SearchIndexOperation
  mediaFetchOperations : List MediaFetchOperation
  relaySubscriptions : Table RelaySubscription.Apart
  reports : List Report
  domainRestrictions : Table DomainRestriction.Apart
  /-- The setting `index_remote_posts`, if the settings row is there. -/
  indexRemotePosts : Option Bool

namespace Db

def empty : Db where
  toCore := .empty
  tombstonedActors := []
  follows := []
  blocks := []
  boosts := []
  likes := []
  deliveryQueue := []
  hashtags := []
  postHashtags := []
  searchIndexOperations := []
  mediaFetchOperations := []
  relaySubscriptions := .empty
  reports := []
  domainRestrictions := .empty
  indexRemotePosts := none

variable (db : Db)

def hasActor (id : Uuid) : Bool :=
  db.actors.rows.any (·.id == id)

def hasPost (id : Uuid) : Bool :=
  db.posts.rows.any (·.id == id)

/-- The database after its core has lost rows: the rows that refer to them go too. -/
def cascade (core : Core) : Db :=
  let db' : Db := { db with toCore := core }
  { db' with
    follows := db.follows.filter fun f => db'.hasActor f.followerId && db'.hasActor f.followingId
    blocks := db.blocks.filter fun b => db'.hasActor b.actorId && db'.hasActor b.targetId
    boosts := db.boosts.filter fun r => db'.hasActor r.actorId && db'.hasPost r.postId
    likes := db.likes.filter fun r => db'.hasActor r.actorId && db'.hasPost r.postId
    deliveryQueue := db.deliveryQueue.filter fun d => db'.hasActor d.actorId
    postHashtags := db.postHashtags.filter fun h => db'.hasPost h.postId
    mediaFetchOperations := db.mediaFetchOperations.filter fun m =>
      db'.hasActor m.actorId && db'.hasPost m.postId
    reports := db.reports.filter fun r =>
      db'.hasActor r.reporterId && r.targetActorId.all db'.hasActor &&
        r.targetPostId.all db'.hasPost }

@[simp]
theorem cascade_toCore (core : Core) :
  (db.cascade core).toCore = core
  := rfl

end Db

/-- A database that knows the given actors, and the one that signs fetches. -/
def dbOf (actors : List Actor) : Db :=
  { Db.empty with toCore := .ofActors (.instance "https://home.example/actor" :: actors) }

end Federation
