import Noombat.Json
import Noombat.Url

/-!
# The data of federation

The values that pass between this instance, its database and its peers: errors, activities,
actor documents, and the answers of remote servers.
-/

namespace Federation

/-- A UUID.  Those drawn at random are never drawn again, see `Core.nextId`. -/
abbrev Uuid : Type :=
  Nat

/-- A moment, in nanoseconds of Unix time. -/
abbrev DateTime : Type :=
  Int

def DateTime.timestamp (t : DateTime) : Int :=
  t / 1000000000

def DateTime.timestampMillis (t : DateTime) : Int :=
  t / 1000000

inductive NoombatError where
  | actorNotFound (actor : String)
  | actorAlreadyExists (actor : String)
  | database (message : String)
  | serialisation (message : String)
  | federation (message : String)
  | signatureVerification
  | notFound (entity : String) (id : Uuid)
  | forbidden
  | moveRejected (message : String)
  | badRequest (message : String)
  | internal (message : String)
  | serviceUnavailable (message : String)
  | quotaExceeded (message : String)
  deriving DecidableEq, Repr

/-! ### Contexts -/

def asContext : String := "https://www.w3.org/ns/activitystreams"

def asPublic : String := "https://www.w3.org/ns/activitystreams#Public"

def noombatNs : String := "https://noombat.org/ns#"

def defaultContext : Json :=
  .arr [.str asContext, .obj [("noombat", .str noombatNs)]]

/-! ### Activities -/

structure Activity where
  context : Option Json
  id : String
  activityType : String
  actor : String
  object : Json
  «to» : Option (List String)
  cc : Option (List String)
  published : Option String
  target : Option String
  content : Option String

namespace Activity

/-- The URI an addressing entry denotes: the string itself, or the `id` of an object. -/
def uriOf (entry : Json) : Option String :=
  match entry with
  | .str uri => some uri
  | .obj _ => entry.getStr "id"
  | _ => none

/-- The recipients that `to` or `cc` names. -/
def oneOrMany : Option Json → Option (List String)
  | none | some .null => none
  | some (.arr entries) => some (entries.filterMap uriOf)
  | some single => some (uriOf single).toList

/-- The value of an optional string property; a value of another kind is an error. -/
def optionalStr (key : String) (j : Json) : Option (Option String) :=
  match j.get key with
  | none | some .null => some none
  | some (.str s) => some (some s)
  | some _ => none

/-- The activity a JSON value is read as. -/
def ofJson (j : Json) : Option Activity := do
  let id ← j.getStr "id"
  let activityType ← j.getStr "type"
  let actor ← j.getStr "actor"
  let object ← j.get "object"
  let published ← optionalStr "published" j
  let target ← optionalStr "target" j
  let content ← optionalStr "content" j
  some
    { context := (j.get "@context").filter fun c => match c with | .null => false | _ => true
      id, activityType, actor, object
      «to» := oneOrMany (j.get "to")
      cc := oneOrMany (j.get "cc")
      published, target, content }

theorem object_of_ofJson {j : Json} {activity : Activity} (h : ofJson j = some activity) :
  j.get "object" = some activity.object
  := by
  unfold ofJson at h
  simp only [Option.bind_eq_bind, Option.bind_eq_some_iff] at h
  obtain ⟨_, _, _, _, _, _, object, hobject, _, _, _, _, _, _, h⟩ := h
  cases h
  exact hobject

end Activity

/-! ### Actor documents -/

structure ApPublicKey where
  id : String
  owner : String
  publicKeyPem : String

structure ApMultikey where
  id : String
  keyType : String
  controller : String
  publicKeyMultibase : String

/-- An actor document, as far as it is read. -/
structure ApActor where
  id : String
  actorType : String
  preferredUsername : String
  name : Option String
  summary : Option String
  inbox : String
  publicKey : ApPublicKey
  endpoints : Option Json
  assertionMethod : Option (List ApMultikey)
  discoverable : Option Bool
  indexable : Option Bool

/-- An absent property is not consent. -/
def ApActor.consentsToDiscovery (a : ApActor) : Bool :=
  a.discoverable.getD false

def ApActor.consentsToIndexing (a : ApActor) : Bool :=
  a.indexable.getD false

/-! ### Answers of remote servers -/

/-- The answer to a fetch: its status, the URL it was served from after redirects, and what
reading its body gives, as a JSON value and as an actor document. -/
structure Response where
  status : Nat
  url : Url
  json : Except NoombatError Json
  actor : Except NoombatError ApActor

def Response.isSuccess (r : Response) : Bool :=
  200 ≤ r.status && r.status < 300

/-! ### What is not part of the program -/

/-- The functions of libraries that the federation code relies on. -/
structure External where
  /-- The parser of URLs, with the text of its error. -/
  urlParse : String → Except String Url
  /-- The strict HTML sanitiser. -/
  cleanStrict : String → String
  /-- The number of bytes of a serialised JSON value. -/
  serialisedLen : Json → Nat
  jcsCanonicalise : Json → Except String String
  sha256 : Bytes → Bytes
  base58Decode : String → Option Bytes
  /-- Whether 32 bytes are an Ed25519 public key. -/
  verifyingKey : Bytes → Bool
  /-- Whether a signature of 64 bytes over a message verifies under a public key. -/
  ed25519Verify : (key message signature : Bytes) → Bool
  parseFromRfc3339 : String → Option DateTime
  toLowercase : String → String
  /-- How a status code is displayed. -/
  displayStatus : Nat → String

/-- The libraries on plain inputs: URLs without ports and queries, text without markup and
without characters to escape.  Keys and signatures are texts of 32 and 64 bytes, and the
signature that a key makes is the key twice. -/
def External.plain : External where
  urlParse := Url.parsePlain
  cleanStrict := id
  serialisedLen j := j.render.utf8ByteSize
  jcsCanonicalise j := .ok j.render
  sha256 := id
  base58Decode s := some (Text.asBytes s)
  verifyingKey _ := true
  ed25519Verify key _ signature := signature == key ++ key
  parseFromRfc3339 _ := none
  toLowercase := Text.toAsciiLowercase
  displayStatus := toString

end Federation
