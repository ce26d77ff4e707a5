import Noombat.Media.Avatar
import Noombat.Text

/-!
# Attachments

The images of posts: the rows of `media_attachments` that are uploaded and then claimed by the
post that names them, the posts with the images in their documents, and the media store; and
the requests that upload, describe and publish images and remove posts, with the sweep that
removes the uploads that no post has claimed in time.  Each statement and each call of the store
takes effect at once or fails without any effect.
-/

namespace Media.Attachments

open Federation (Uuid DateTime NoombatError)
open Fallible

/-- A row of `media_attachments` whose purpose is to be attached to a post. -/
structure Attachment where
  id : Uuid
  actorId : Uuid
  postId : Option Uuid
  mediaType : String
  objectKey : ObjectKey
  backend : String
  url : String
  byteSize : Nat
  altText : Option String
  blurhash : Option String
  ordinal : Nat
  createdAt : DateTime
  deriving DecidableEq

/-- Two attachments have different identifiers and rest in different objects. -/
def Attachment.Apart (r r' : Attachment) : Prop :=
  r.id ≠ r'.id ∧ r.objectKey ≠ r'.objectKey

instance : DecidableRel Attachment.Apart :=
  fun _ _ => inferInstanceAs (Decidable (_ ∧ _))

instance : Std.Symm Attachment.Apart :=
  ⟨fun _ _ h => ⟨h.1.symm, h.2.symm⟩⟩

/-- An image as the document of a post names it. -/
structure Image where
  url : String
  mediaType : String
  name : Option String
  blurhash : Option String
  deriving DecidableEq

def Attachment.toImage (r : Attachment) : Image where
  url := r.url
  mediaType := r.mediaType
  name := r.altText
  blurhash := r.blurhash

/-- A post, with the images that its document names. -/
structure Post where
  id : Uuid
  actorId : Uuid
  images : List Image
  deriving DecidableEq

/-- Two posts have different identifiers. -/
def Post.Apart (p p' : Post) : Prop :=
  p.id ≠ p'.id

instance : DecidableRel Post.Apart :=
  fun _ _ => inferInstanceAs (Decidable (_ ≠ _))

instance : Std.Symm Post.Apart :=
  ⟨fun _ _ h => h.symm⟩

structure Db where
  media : Table Attachment.Apart
  posts : Table Post.Apart
  /-- The keys of the objects in the store. -/
  objects : List ObjectKey
  /-- What is drawn at random is not drawn again. -/
  next : Nat

/-! ### Statements -/

/-- The columns of an upload. -/
structure Upload where
  actorId : Uuid
  mediaType : String
  objectKey : ObjectKey
  backend : String
  url : String
  byteSize : Nat
  altText : Option String
  blurhash : Option String

/-- The row of an upload. -/
def Upload.row (upload : Upload) (id : Uuid) (createdAt : DateTime) : Attachment where
  id := id
  actorId := upload.actorId
  postId := none
  mediaType := upload.mediaType
  objectKey := upload.objectKey
  backend := upload.backend
  url := upload.url
  byteSize := upload.byteSize
  altText := upload.altText
  blurhash := upload.blurhash
  ordinal := 0
  createdAt := createdAt

inductive AttachmentSql where
  /-- Returns the identifier of the row. -/
  | insert (upload : Upload)
  /-- The description of an unclaimed upload of an actor; returns the number of rows. -/
  | describe (id actorId : Uuid) (altText : Option String)
  /-- The unclaimed uploads of an actor among those given. -/
  | unclaimed (actorId : Uuid) (ids : List Uuid)
  /-- Returns the identifier of the post. -/
  | insertPost (actorId : Uuid) (images : List Image)
  /-- The unclaimed uploads of an actor among those given are claimed by a post; returns their
  number. -/
  | claim (actorId postId : Uuid) (ids : List Uuid)
  /-- The uploads that have not been claimed in time. -/
  | stale
  /-- An upload is deleted, unless it is claimed; returns the number of rows. -/
  | deleteUnclaimed (id : Uuid)
  /-- The keys of the objects of a post. -/
  | keysOfPost (postId : Uuid)
  /-- A post is deleted, with the attachments that it has claimed. -/
  | deletePost (postId : Uuid)

@[reducible]
def AttachmentSql.Result : AttachmentSql → Type
  | insert _ => Uuid
  | describe _ _ _ => Nat
  | unclaimed _ _ => List Attachment
  | insertPost _ _ => Uuid
  | claim _ _ _ => Nat
  | stale => List (Uuid × ObjectKey)
  | deleteUnclaimed _ => Nat
  | keysOfPost _ => List ObjectKey
  | deletePost _ => Unit

/-- How long an upload may wait for a post, in nanoseconds. -/
def unattachedUploadTime : Int :=
  48 * 3600 * 1000000000

/-- An unclaimed upload of an actor, among those given. -/
def isUnclaimed (actorId : Uuid) (ids : List Uuid) (r : Attachment) : Bool :=
  ids.contains r.id && r.actorId == actorId && r.postId.isNone

/-- The attachment as a post claims it, in the place where the author has put it. -/
def Attachment.claimedBy (postId : Uuid) (ids : List Uuid) (r : Attachment) : Attachment :=
  { r with postId := some postId, ordinal := ids.idxOf r.id }

/-- An unclaimed upload of an actor. -/
def isDescribed (id actorId : Uuid) (r : Attachment) : Bool :=
  r.id == id && r.actorId == actorId && r.postId.isNone

/-- The effect of a statement at the time given. -/
def AttachmentSql.exec (now : DateTime) : (s : AttachmentSql) → Db → Except NoombatError s.Result × Db
  | insert upload, db =>
      match db.media.insert (upload.row db.next now) with
      | some media => (.ok db.next, { db with media, next := db.next + 1 })
      | none => (.error (.database "duplicate key value violates unique constraint"), db)
  | describe id actorId altText, db =>
      (.ok (db.media.rows.countP (isDescribed id actorId)), { db with
        media := db.media.update (isDescribed id actorId) (fun r => { r with altText })
          fun _ _ h => ⟨h, h, h⟩ })
  | unclaimed actorId ids, db => (.ok (db.media.rows.filter (isUnclaimed actorId ids)), db)
  | insertPost actorId images, db =>
      match db.posts.insert ⟨db.next, actorId, images⟩ with
      | some posts => (.ok db.next, { db with posts, next := db.next + 1 })
      | none => (.error (.database "duplicate key value violates unique constraint"), db)
  | claim actorId postId ids, db =>
      if db.posts.rows.any (·.id == postId) then
        (.ok (db.media.rows.countP (isUnclaimed actorId ids)), { db with
          media := db.media.update (isUnclaimed actorId ids) (·.claimedBy postId ids)
            fun _ _ h => ⟨h, h, h⟩ })
      else (.error (.database "update violates foreign key constraint"), db)
  | stale, db =>
      let rows := db.media.rows.filter fun r =>
        r.postId.isNone && decide (r.createdAt < now - unattachedUploadTime)
      (.ok (rows.map fun r => (r.id, r.objectKey)), db)
  | deleteUnclaimed id, db =>
      let row := fun r : Attachment => r.id == id && r.postId.isNone
      (.ok (db.media.rows.countP row), { db with media := db.media.delete row })
  | keysOfPost postId, db =>
      (.ok ((db.media.rows.filter (·.postId == some postId)).map (·.objectKey)), db)
  | deletePost postId, db =>
      (.ok (), { db with
        posts := db.posts.delete (·.id == postId)
        media := db.media.delete (·.postId == some postId) })

/-! ### The world of the requests -/

inductive AttachmentRequest where
  | sql (s : AttachmentSql)
  /-- A key drawn at random. -/
  | newObjectKey
  /-- The store writes an object. -/
  | put (key : ObjectKey) (bytes : List UInt8)
  /-- The store removes an object; one that is already gone is no error. -/
  | delete (key : ObjectKey)
  /-- Whatever else is done for a post, before it is stored. -/
  | compose

@[reducible]
def AttachmentRequest.Result : AttachmentRequest → Type
  | sql s => s.Result
  | newObjectKey => ObjectKey
  | _ => Unit

abbrev Attaching : Interface :=
  Interface.fallible NoombatError AttachmentRequest AttachmentRequest.Result

abbrev AttachmentHandler (α : Type) : Type :=
  Fallible Attaching NoombatError α

/-- The world of the requests.  A statement fails with the error chosen, or is executed at the
time chosen; a call of the store fails with the error chosen, if there is one. -/
def attachmentWorld : World Attaching Db where
  Choice
    | .sql _ => Except NoombatError DateTime
    | .newObjectKey => Unit
    | .put _ _ => Option NoombatError
    | .delete _ => Option NoombatError
    | .compose => Option NoombatError
  exec
    | .sql s, c, db =>
        match c with
        | .error e => (.error e, db)
        | .ok now => s.exec now db
    | .newObjectKey, _, db => (.ok db.next, { db with next := db.next + 1 })
    | .put key _, c, db =>
        match c with
        | some e => (.error e, db)
        | none => (.ok (), { db with objects := key :: db.objects })
    | .delete key, c, db =>
        match c with
        | some e => (.error e, db)
        | none => (.ok (), { db with objects := db.objects.filter (· != key) })
    | .compose, c, db =>
        match c with
        | some e => (.error e, db)
        | none => (.ok (), db)

def sql (s : AttachmentSql) : AttachmentHandler s.Result :=
  ask (AttachmentRequest.sql s)

def newObjectKey : AttachmentHandler ObjectKey :=
  ask AttachmentRequest.newObjectKey

def put (key : ObjectKey) (bytes : List UInt8) : AttachmentHandler Unit :=
  ask (AttachmentRequest.put key bytes)

def delete (key : ObjectKey) : AttachmentHandler Unit :=
  ask (AttachmentRequest.delete key)

def compose : AttachmentHandler Unit :=
  ask AttachmentRequest.compose

/-! ### Requests -/

variable (config : Avatar.Config)

/-- An image that was accepted, as it is to be stored. -/
structure Processed extends Avatar.Processed where
  blurhash : Option String

def maxAltBytes : Nat :=
  2000

/-- A description as it is stored. -/
def altTextOf (text : String) : Option String :=
  let alt := Text.trim text
  if alt.isEmpty then none
  else some (String.ofList (Text.takeBytes maxAltBytes alt.toList))

/-- The row of an upload that is stored under a key. -/
def uploadOf (actorId : Uuid) (processed : Processed) (alt : Option String)
    (objectKey : ObjectKey) : Upload where
  actorId := actorId
  mediaType := processed.mediaType
  objectKey := objectKey
  backend := config.backend
  url := config.mediaUrl objectKey
  byteSize := processed.bytes.length
  altText := alt.bind altTextOf
  blurhash := processed.blurhash

/-- The upload is recorded; its object is deleted if that fails. -/
def recordUpload (actorId : Uuid) (processed : Processed) (alt : Option String)
    (objectKey : ObjectKey) : AttachmentHandler Uuid := do
  let written ← attempt (sql (.insert (uploadOf config actorId processed alt objectKey)))
  match written with
  | .ok id => return id
  | .error _ =>
      let _ ← attempt (delete objectKey)
      throw (.internal "could not save the image")

def uploadAttachment (actorId : Uuid) (processed : Processed) (alt : Option String) :
    AttachmentHandler Uuid := do
  let objectKey ← newObjectKey
  put objectKey processed.bytes
  recordUpload config actorId processed alt objectKey

def describeAttachment (actorId id : Uuid) (alt : String) : AttachmentHandler Unit := do
  let rows ← sql (.describe id actorId (altTextOf alt))
  if rows = 1 then pure () else throw (.notFound "attachment" id)

/-- The images that the identifiers given name among the rows, in the order given. -/
def imagesOf (ids : List Uuid) (rows : List Attachment) : List Image :=
  (ids.filterMap fun id => rows.find? (·.id == id)).map Attachment.toImage

def attachmentObjects (actorId : Uuid) (ids : List Uuid) : AttachmentHandler (List Image) :=
  if ids.isEmpty then return []
  else do
    let rows ← sql (.unclaimed actorId ids)
    return imagesOf ids rows

/-- The uploads are claimed by the post that names them; a failure is ignored. -/
def claimAttachments (actorId postId : Uuid) (ids : List Uuid) : AttachmentHandler Unit :=
  if ids.isEmpty then pure ()
  else do
    let _ ← attempt (sql (.claim actorId postId ids))
    return ()

/-- A post is published, with the images given. -/
def postOutbox (actorId : Uuid) (ids : List Uuid) : AttachmentHandler Unit := do
  let images ← attachmentObjects actorId ids
  compose
  let created ← sql (.insertPost actorId images)
  claimAttachments actorId created ids

/-- Objects are removed; a failure is ignored. -/
def purgeObjects : List ObjectKey → AttachmentHandler Unit
  | [] => pure ()
  | key :: keys => do
      let _ ← attempt (delete key)
      purgeObjects keys

/-- A moderator removes a post. -/
def removeContent (postId : Uuid) : AttachmentHandler Unit := do
  let keys ← unwrapOr [] (sql (.keysOfPost postId))
  sql (.deletePost postId)
  purgeObjects keys

/-- A stale upload is removed: its object and, if that succeeds, its row. -/
def purgeUpload (id : Uuid) (objectKey : ObjectKey) : AttachmentHandler Unit := do
  let removed ← attempt (delete objectKey)
  match removed with
  | .error _ => pure ()
  | .ok _ =>
      let _ ← attempt (sql (.deleteUnclaimed id))
      return ()

def purgeUploads : List (Uuid × ObjectKey) → AttachmentHandler Unit
  | [] => pure ()
  | (id, objectKey) :: stale => do
      purgeUpload id objectKey
      purgeUploads stale

def purgeUnattachedUploads : AttachmentHandler Unit := do
  let stale ← sql .stale
  purgeUploads stale

inductive Call where
  | upload (actorId : Uuid) (processed : Processed) (alt : Option String)
  | describe (actorId id : Uuid) (alt : String)
  | publish (actorId : Uuid) (ids : List Uuid)
  | remove (postId : Uuid)
  | sweep

/-- The program of a request, whose response is not looked at. -/
def Call.program : Call → Program Attaching Unit
  | upload actorId processed alt => do
      let _ ← (uploadAttachment config actorId processed alt).run
      return ()
  | describe actorId id alt => do
      let _ ← (describeAttachment actorId id alt).run
      return ()
  | publish actorId ids => do
      let _ ← (postOutbox actorId ids).run
      return ()
  | remove postId => do
      let _ ← (removeContent postId).run
      return ()
  | sweep => do
      let _ ← purgeUnattachedUploads.run
      return ()

end Media.Attachments
