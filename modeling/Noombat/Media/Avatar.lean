import Noombat.Program.Threads
import Noombat.Table
import Noombat.Federation.Types

/-!
# Avatars

The avatar of an actor: the column of the actor that names it, its row of `media_attachments`,
of which an actor has at most one, and its object in the media store; and the two requests that
replace and remove it.  Each statement and each call of the store takes effect at once or fails
without any effect.
-/

namespace Media

/-- The key of an object.  Those drawn at random are never drawn again, see `nextKey`. -/
abbrev ObjectKey : Type :=
  Nat

end Media

namespace Media.Avatar

open Federation (Uuid NoombatError)
open Fallible

structure ActorRow where
  id : Uuid
  avatarUrl : Option String
  deriving DecidableEq

/-- Two actors have different identifiers. -/
def ActorRow.Apart (r r' : ActorRow) : Prop :=
  r.id ≠ r'.id

instance : DecidableRel ActorRow.Apart :=
  fun _ _ => inferInstanceAs (Decidable (_ ≠ _))

instance : Std.Symm ActorRow.Apart :=
  ⟨fun _ _ h => h.symm⟩

/-- A row of `media_attachments` whose purpose is to be an avatar. -/
structure AvatarRow where
  actorId : Uuid
  mediaType : String
  objectKey : ObjectKey
  backend : String
  url : String
  byteSize : Nat
  altText : Option String
  deriving DecidableEq

/-- Two avatars are of different actors, and rest in different objects. -/
def AvatarRow.Apart (r r' : AvatarRow) : Prop :=
  r.actorId ≠ r'.actorId ∧ r.objectKey ≠ r'.objectKey

instance : DecidableRel AvatarRow.Apart :=
  fun _ _ => inferInstanceAs (Decidable (_ ∧ _))

instance : Std.Symm AvatarRow.Apart :=
  ⟨fun _ _ h => ⟨h.1.symm, h.2.symm⟩⟩

structure Db where
  actors : Table ActorRow.Apart
  avatars : Table AvatarRow.Apart
  /-- The objects in the store, with their bytes. -/
  objects : List (ObjectKey × List UInt8)
  nextKey : ObjectKey

/-- The avatar that an actor names. -/
def Db.avatarUrl (actorId : Uuid) (db : Db) : Option String :=
  (db.actors.find (·.id == actorId)).bind (·.avatarUrl)

/-- There is an object under a key. -/
def Db.hasObject (key : ObjectKey) (db : Db) : Prop :=
  key ∈ db.objects.map (·.1)

instance (key : ObjectKey) (db : Db) : Decidable (db.hasObject key) :=
  inferInstanceAs (Decidable (_ ∈ _))

/-! ### Statements -/

inductive AvatarSql where
  /-- The key of the object of an actor's avatar. -/
  | selectKey (actorId : Uuid)
  /-- The avatar of an actor is replaced, if there is one, and stored otherwise. -/
  | upsert (row : AvatarRow)
  | setAvatarUrl (actorId : Uuid) (url : Option String)
  | deleteRow (actorId : Uuid)

@[reducible]
def AvatarSql.Result : AvatarSql → Type
  | selectKey _ => Option ObjectKey
  | _ => Unit

def AvatarSql.exec : (s : AvatarSql) → Db → Except NoombatError s.Result × Db
  | selectKey actorId, db =>
      (.ok ((db.avatars.find (·.actorId == actorId)).map (·.objectKey)), db)
  | upsert row, db =>
      if db.actors.rows.any (·.id == row.actorId) then
        match (db.avatars.delete (·.actorId == row.actorId)).insert row with
        | some avatars => (.ok (), { db with avatars })
        | none => (.error (.database "duplicate key value violates unique constraint"), db)
      else (.error (.database "insert or update violates foreign key constraint"), db)
  | setAvatarUrl actorId avatarUrl, db =>
      (.ok (), { db with
        actors := db.actors.update (·.id == actorId) (fun r => { r with avatarUrl })
          fun _ _ h => ⟨h, h, h⟩ })
  | deleteRow actorId, db =>
      (.ok (), { db with avatars := db.avatars.delete (·.actorId == actorId) })

/-! ### The world of the requests -/

/-- What a request is answered with. -/
inductive Response where
  /-- To the settings of the profile. -/
  | redirect
  | internalServerError (message : String)

inductive AvatarRequest where
  | sql (s : AvatarSql)
  /-- A key drawn at random. -/
  | newObjectKey
  /-- The store writes an object. -/
  | put (key : ObjectKey) (bytes : List UInt8)
  /-- The store removes an object; one that is already gone is no error. -/
  | delete (key : ObjectKey)
  | respond (r : Response)

@[reducible]
def AvatarRequest.Result : AvatarRequest → Type
  | sql s => s.Result
  | newObjectKey => ObjectKey
  | _ => Unit

abbrev Avatars : Interface :=
  Interface.fallible NoombatError AvatarRequest AvatarRequest.Result

abbrev AvatarHandler (α : Type) : Type :=
  Fallible Avatars NoombatError α

/-- The world of the requests.  A statement, or a call of the store, fails with the error
chosen, if there is one. -/
def avatarWorld : World Avatars Db where
  Choice
    | .sql _ => Option NoombatError
    | .newObjectKey => Unit
    | .put _ _ => Option NoombatError
    | .delete _ => Option NoombatError
    | .respond _ => Unit
  exec
    | .sql s, c, db =>
        match c with
        | some e => (.error e, db)
        | none => s.exec db
    | .newObjectKey, _, db => (.ok db.nextKey, { db with nextKey := db.nextKey + 1 })
    | .put key bytes, c, db =>
        match c with
        | some e => (.error e, db)
        | none => (.ok (), { db with
            objects := (key, bytes) :: db.objects.filter (·.1 != key) })
    | .delete key, c, db =>
        match c with
        | some e => (.error e, db)
        | none => (.ok (), { db with objects := db.objects.filter (·.1 != key) })
    | .respond _, _, db => (.ok (), db)

def sql (s : AvatarSql) : AvatarHandler s.Result :=
  ask (AvatarRequest.sql s)

def newObjectKey : AvatarHandler ObjectKey :=
  ask AvatarRequest.newObjectKey

def put (key : ObjectKey) (bytes : List UInt8) : AvatarHandler Unit :=
  ask (AvatarRequest.put key bytes)

def delete (key : ObjectKey) : AvatarHandler Unit :=
  ask (AvatarRequest.delete key)

/-! ### Requests -/

/-- The settings of the instance: its domain, where it keeps objects, and how their keys are
written. -/
structure Config where
  domain : String
  backend : String
  simple : ObjectKey → String

/-- The URL under which an object is served. -/
def Config.mediaUrl (config : Config) (key : ObjectKey) : String :=
  s!"https://{config.domain}/media/{config.simple key}"

/-- The settings of an instance on which few keys have been drawn. -/
def Config.plain : Config where
  domain := "h.ex"
  backend := "local"
  simple key := "0000000000000000000000000000000" ++ toString key

/-- An image that was accepted, as it is to be stored. -/
structure Processed where
  bytes : List UInt8
  mediaType : String

variable (config : Config)

/-- The row of an avatar that is stored under a key. -/
def avatarRow (actorId : Uuid) (processed : Processed) (altText : Option String)
    (objectKey : ObjectKey) : AvatarRow where
  actorId := actorId
  mediaType := processed.mediaType
  objectKey := objectKey
  backend := config.backend
  url := config.mediaUrl objectKey
  byteSize := processed.bytes.length
  altText := altText

/-- The object of the avatar before, if there was one, is deleted; a failure is ignored. -/
def deletePrevious : Option ObjectKey → AvatarHandler Unit
  | some previous => do
      let _ ← attempt (delete previous)
      return ()
  | none => pure ()

/-- The actor is pointed at its new avatar, and the one before is deleted. -/
def pointAt (actorId : Uuid) (objectKey : ObjectKey) (previous : Option ObjectKey) :
    AvatarHandler Response := do
  let pointed ← attempt (sql (.setAvatarUrl actorId (some (config.mediaUrl objectKey))))
  match pointed with
  | .error _ => return .internalServerError "could not save the image"
  | .ok _ =>
      deletePrevious (previous.filter (· != objectKey))
      return .redirect

/-- The new avatar is recorded; its object is deleted if that fails. -/
def recordAvatar (actorId : Uuid) (processed : Processed) (altText : Option String)
    (objectKey : ObjectKey) (previous : Option ObjectKey) : AvatarHandler Response := do
  let written ← attempt (sql (.upsert (avatarRow config actorId processed altText objectKey)))
  match written with
  | .error _ =>
      let _ ← attempt (delete objectKey)
      return .internalServerError "could not save the image"
  | .ok _ => pointAt config actorId objectKey previous

def uploadAvatar (actorId : Uuid) (processed : Processed) (altText : Option String) :
    AvatarHandler Response := do
  let objectKey ← newObjectKey
  let stored ← attempt (put objectKey processed.bytes)
  match stored with
  | .error _ => return .internalServerError "could not store the image"
  | .ok _ =>
      let previous ← unwrapOr none (sql (.selectKey actorId))
      recordAvatar config actorId processed altText objectKey previous

/-- The row of the avatar is deleted, and then its object. -/
def dropAvatar (actorId : Uuid) (objectKey : Option ObjectKey) : AvatarHandler Response := do
  let deleted ← attempt (sql (.deleteRow actorId))
  match deleted with
  | .error _ => return .internalServerError "could not remove the image"
  | .ok _ =>
      deletePrevious objectKey
      return .redirect

def removeAvatar (actorId : Uuid) : AvatarHandler Response := do
  let objectKey ← unwrapOr none (sql (.selectKey actorId))
  let cleared ← attempt (sql (.setAvatarUrl actorId none))
  match cleared with
  | .error _ => return .internalServerError "could not remove the image"
  | .ok _ => dropAvatar actorId objectKey

inductive Call where
  | upload (actorId : Uuid) (processed : Processed) (altText : Option String)
  | remove (actorId : Uuid)

/-- The program that answers a request. -/
def respond : Except NoombatError Response → Program Avatars Unit
  | .ok r => .call (.respond r) fun _ => .done ()
  | .error _ => .call (.respond (.internalServerError "")) fun _ => .done ()

/-- The program of a request, which ends with its response. -/
def Call.program : Call → Program Avatars Unit
  | upload actorId processed altText => do
      let r ← (uploadAvatar config actorId processed altText).run
      respond r
  | remove actorId => do
      let r ← (removeAvatar actorId).run
      respond r

end Media.Avatar
