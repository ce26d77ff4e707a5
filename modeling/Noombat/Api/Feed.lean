import Mathlib.Data.List.Sort
import Noombat.Erasure.Schema
import Noombat.Federation.Database
import Noombat.Pages
import Noombat.Table

/-!
# The feed

A page of the feed of a user is made of a page of the posts with the hashtags that the user
follows and a page of the posts of the actors whom the user follows; if nobody is named, it is a
page of the public timeline.  What the user has muted, and posts of silenced actors, are withheld
from the page when it has been cut, and there is a next page if as many posts are left as fit on
one.  Whoever asks is shown the same.
-/

namespace Feed

open Erasure (ActorStatus)
open Federation (Uuid DateTime NoombatError Visibility)

/-! ### Tables -/

/-- A row of `actors`. -/
structure Actor where
  id : Uuid
  username : String
  displayName : Option String
  isLocal : Bool
  actorStatus : ActorStatus
  blurSensitiveMedia : Bool
  deriving DecidableEq

/-- Two actors have different identifiers, and different names if they are local. -/
def Actor.Apart (r r' : Actor) : Prop :=
  r.id ≠ r'.id ∧ (r.isLocal = true → r'.isLocal = true → r.username ≠ r'.username)

instance : DecidableRel Actor.Apart :=
  fun _ _ => inferInstanceAs (Decidable (_ ∧ _))

/-- A row of `posts`. -/
structure Post where
  id : Uuid
  actorId : Uuid
  visibility : Visibility
  createdAt : DateTime
  apId : String
  contentHtml : String
  sensitive : Bool
  deriving DecidableEq

def Post.Apart (r r' : Post) : Prop :=
  r.id ≠ r'.id

instance : DecidableRel Post.Apart :=
  fun _ _ => inferInstanceAs (Decidable (_ ≠ _))

instance : Std.Symm Post.Apart :=
  ⟨fun _ _ h => h.symm⟩

/-- A row of `follows`. -/
structure Follow where
  followerId : Uuid
  followingId : Uuid
  accepted : Bool
  deriving DecidableEq

def Follow.Apart (r r' : Follow) : Prop :=
  r.followerId ≠ r'.followerId ∨ r.followingId ≠ r'.followingId

instance : DecidableRel Follow.Apart :=
  fun _ _ => inferInstanceAs (Decidable (_ ∨ _))

/-- A row of `post_hashtags`. -/
structure PostHashtag where
  postId : Uuid
  hashtagId : Uuid

/-- A row of `hashtag_follows`. -/
structure HashtagFollow where
  actorId : Uuid
  hashtagId : Uuid

/-- A row of `mutes`. -/
structure Mute where
  actorId : Uuid
  targetId : Uuid
  expiresAt : Option DateTime

/-- The database, with its time. -/
structure Db where
  actors : Table Actor.Apart
  posts : Table Post.Apart
  follows : Table Follow.Apart
  postHashtags : List PostHashtag
  hashtagFollows : List HashtagFollow
  mutes : List Mute
  now : DateTime

/-! ### Statements -/

/-- A post with the columns of its author. -/
structure PostRow where
  post : Post
  username : String
  displayName : Option String
  actorStatus : ActorStatus

/-- How the statements of the feed are answered. -/
structure Statements where
  findLocalByUsername : String → Except NoombatError Actor
  listFollowedHashtags : (actorId : Uuid) → Except NoombatError (List Uuid)
  postsByHashtags : (hashtagIds : List Uuid) → (limit offset : Nat) →
    Except NoombatError (List Uuid)
  postsOfFollowed : (actorId : Uuid) → (limit offset : Nat) → Except NoombatError (List Uuid)
  publicPosts : (limit offset : Nat) → Except NoombatError (List Uuid)
  authors : (postIds : List Uuid) → Except NoombatError (List Uuid)
  muted : (viewer : Uuid) → (authors : List Uuid) → Except NoombatError (List Uuid)
  followed : (actorId : Uuid) → Except NoombatError (List Uuid)
  blurSensitiveMedia : (viewer : Uuid) → Except NoombatError (Option Bool)
  postRow : Uuid → Except NoombatError (Option PostRow)

/-- The posts that a statement selects, before it orders them. -/
inductive Selection where
  | hashtags (hashtagIds : List Uuid)
  | followed (actorId : Uuid)
  | «public»

/-- In what order a statement returns rows of one time, by its offset. -/
abbrev Ties : Type :=
  Selection → Nat → Uuid → Nat

/-- One post comes before another. -/
def Before (ties : Uuid → Nat) (p q : Post) : Prop :=
  q.createdAt < p.createdAt ∨ q.createdAt = p.createdAt ∧ ties p.id ≤ ties q.id

instance (ties : Uuid → Nat) : DecidableRel (Before ties) :=
  fun _ _ => inferInstanceAs (Decidable (_ ∨ _))

/-- The posts with the newest first. -/
def newestFirst (ties : Uuid → Nat) (posts : List Post) : List Post :=
  posts.insertionSort (Before ties)

namespace Db

variable (db : Db)

def selected : Selection → List Post
  | .hashtags hashtagIds => db.posts.rows.filter fun p =>
      db.postHashtags.any fun h => h.postId == p.id && hashtagIds.contains h.hashtagId
  | .followed actorId => db.posts.rows.filter fun p =>
      (db.follows.rows.any fun f =>
        f.followingId == p.actorId && f.followerId == actorId && f.accepted) &&
      (p.visibility == .public || p.visibility == .unlisted)
  | .public => db.posts.rows.filter (·.visibility == .public)

/-- The posts of a selection in their order, from an offset on and up to a limit. -/
def ordered (ties : Ties) (selection : Selection) (limit offset : Nat) : List Uuid :=
  ((((newestFirst (ties selection offset) (db.selected selection)).drop offset).take limit).map
    Post.id)

def followedHashtags (actorId : Uuid) : List Uuid :=
  (db.hashtagFollows.filter (·.actorId == actorId)).map (·.hashtagId)

def isMuted (viewer author : Uuid) : Bool :=
  db.mutes.any fun m => m.actorId == viewer && m.targetId == author &&
    match m.expiresAt with
    | none => true
    | some expiry => decide (db.now < expiry)

def followedActors (actorId : Uuid) : List Uuid :=
  (db.follows.rows.filter fun f => f.followerId == actorId && f.accepted).map (·.followingId)

/-- The row of a post that is public or unlisted. -/
def postRow (id : Uuid) : Option PostRow := do
  let post ← db.posts.find (·.id == id)
  let author ← db.actors.find (·.id == post.actorId)
  if post.visibility = .public ∨ post.visibility = .unlisted then
    some ⟨post, author.username, author.displayName, author.actorStatus⟩
  else none

def findLocal (username : String) : Option Actor :=
  db.actors.find fun a => a.username == username && a.isLocal

/-- How the database answers. -/
def statements (ties : Ties) : Statements where
  findLocalByUsername username :=
    match db.findLocal username with
    | some actor => .ok actor
    | none => .error (.actorNotFound username)
  listFollowedHashtags actorId := .ok (db.followedHashtags actorId)
  postsByHashtags hashtagIds limit offset :=
    .ok (db.ordered ties (.hashtags hashtagIds) limit offset)
  postsOfFollowed actorId limit offset := .ok (db.ordered ties (.followed actorId) limit offset)
  publicPosts limit offset := .ok (db.ordered ties .public limit offset)
  authors postIds :=
    .ok (((db.posts.rows.filter fun p => postIds.contains p.id).map (·.actorId)).dedup)
  muted viewer authors := .ok (authors.filter (db.isMuted viewer))
  followed actorId := .ok (db.followedActors actorId)
  blurSensitiveMedia viewer := .ok ((db.actors.find (·.id == viewer)).map (·.blurSensitiveMedia))
  postRow id := .ok (db.postRow id)

end Db

/-! ### The route -/

structure FeedQuery where
  page : Nat
  user : Option String

/-- A post as it is shown. -/
structure FeedPost where
  author : String
  authorDisplay : String
  contentHtml : String
  createdAt : DateTime
  apId : String
  postId : Uuid
  blurAttachments : Bool
  deriving DecidableEq

structure FeedPartial where
  posts : List FeedPost
  hasNext : Bool
  next : FeedQuery

def PAGE_SIZE : Nat := 20

section Route

variable (sql : Statements) (pageSize : Nat)

/-- The identifiers without those that have come before. -/
def distinct : List Uuid → List Uuid
  | [] => []
  | id :: ids => id :: (distinct ids).filter (· != id)

def hashtagPosts (actorId : Uuid) (offset : Nat) : List Uuid :=
  match sql.listFollowedHashtags actorId with
  | .error _ => []
  | .ok tagIds =>
      if tagIds.isEmpty then []
      else (sql.postsByHashtags tagIds pageSize offset).toOption.getD []

/-- The posts of a page of the feed of an actor. -/
def personalPosts (actorId : Uuid) (offset : Nat) : List Uuid :=
  distinct (hashtagPosts sql pageSize actorId offset ++
    (sql.postsOfFollowed actorId pageSize offset).toOption.getD [])

/-- The actor whose feed is asked for. -/
def viewerOf (user : Option String) : Option Actor :=
  user.bind fun username => (sql.findLocalByUsername username).toOption

/-- The posts of a page before any is withheld. -/
def postIds (query : FeedQuery) : List Uuid :=
  let offset := (query.page - 1) * pageSize
  let personal :=
    match viewerOf sql query.user with
    | none => []
    | some actor => personalPosts sql pageSize actor.id offset
  if (viewerOf sql query.user).isNone || (personal.isEmpty && decide (query.page ≤ 1)) then
    personal ++ (sql.publicPosts pageSize offset).toOption.getD []
  else personal

def mutedAmong (viewer : Uuid) (authors : List Uuid) : List Uuid :=
  if authors.isEmpty then []
  else
    match sql.muted viewer authors with
    | .ok muted => muted
    -- a page whose mutes cannot be read is treated as muted
    | .error _ => authors

def mutedAuthors (viewer : Option Actor) (ids : List Uuid) : List Uuid :=
  match viewer with
  | none => []
  | some actor => mutedAmong sql actor.id ((sql.authors ids).toOption.getD [])

def followedActorIds (viewer : Option Actor) : List Uuid :=
  match viewer with
  | none => []
  | some actor => (sql.followed actor.id).toOption.getD []

def blurPreference (viewer : Option Actor) : Bool :=
  match viewer with
  | none => true
  | some actor => (((sql.blurSensitiveMedia actor.id).toOption.getD none).getD true)

/-- A post as it is shown, unless it is withheld. -/
def feedPost (muted followed : List Uuid) (blur : Bool) (id : Uuid) : Option FeedPost := do
  let row ← (sql.postRow id).toOption.getD none
  if muted.contains row.post.actorId then none
  else if row.actorStatus = .silenced ∧ ¬ followed.contains row.post.actorId then none
  else
    some ⟨row.username, row.displayName.getD row.username, row.post.contentHtml,
      row.post.createdAt, row.post.apId, row.post.id, row.post.sensitive && blur⟩

def feedPartial (query : FeedQuery) : FeedPartial :=
  let viewer := viewerOf sql query.user
  let ids := postIds sql pageSize query
  let muted := mutedAuthors sql viewer ids
  let posts := ids.filterMap
    (feedPost sql muted (followedActorIds sql viewer) (blurPreference sql viewer))
  -- the number of the next page is an integer of 32 bits
  ⟨posts, decide (pageSize ≤ posts.length), ⟨(query.page + 1) % 2 ^ 32, query.user⟩⟩

/-- The pages from one on, each asked for because the one before had a next page; there is none
if there are more than `n` pages. -/
def pages : (n : Nat) → FeedQuery → Option (List FeedPartial)
  | 0, _ => none
  | n + 1, query =>
      let answer := feedPartial sql pageSize query
      if answer.hasNext then (pages n answer.next).map (answer :: ·) else some [answer]

end Route

end Feed
