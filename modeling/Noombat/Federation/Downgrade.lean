import Noombat.Identity.Authorisation

/-!
# The document of a local actor

The only serialiser of a local actor.  It withholds the profile of an actor who does not
federate it, and the sections that are not public.  Two actors who agree on what they
publish have the same document exactly when it declares the same terms; and a section
overwrites nothing, unless its type is that of a property of the document.
-/

namespace Federation.Downgrade

open Authorisation (Relationship)

/-! ### The context of a document -/

def SECURITY_CONTEXT : String :=
  "https://w3id.org/security/v1"

def MULTIKEY_CONTEXT : String :=
  "https://w3id.org/security/multikey/v1"

def SCHEMA_NS : String :=
  "http://schema.org#"

def GTS_NS : String :=
  "https://gotosocial.org/ns#"

/-- A context entry that is added only when the document uses what it defines. -/
inductive Extension where
  | security
  | multikey
  | schema
  | movedTo
  | hashtag
  | interactionPolicy
  deriving DecidableEq

/-- The entries of a context that are on their own. -/
def Extension.entries : Extension → List Json
  | security => [.str SECURITY_CONTEXT]
  | multikey => [.str MULTIKEY_CONTEXT]
  | _ => []

/-- The terms that an extension declares. -/
def Extension.terms : Extension → List (String × Json)
  | security | multikey => []
  | schema =>
      [("schema", .str SCHEMA_NS), ("PropertyValue", .str "schema:PropertyValue"),
        ("value", .str "schema:value")]
  | movedTo => [("movedTo", .obj [("@id", .str "as:movedTo"), ("@type", .str "@id")])]
  | hashtag => [("Hashtag", .str "as:Hashtag")]
  | interactionPolicy =>
      [("gts", .str GTS_NS),
        ("interactionPolicy", .obj [("@id", .str "gts:interactionPolicy"), ("@type", .str "@id")])]

/-- The extensions asked for, in their order and each once. -/
def wantedOf (extensions : List Extension) : List Extension :=
  [.security, .multikey, .schema, .movedTo, .hashtag, .interactionPolicy].filter
    fun e => decide (e ∈ extensions)

/-- The context that carries the extensions asked for, and no other. -/
def contextWith (extensions : List Extension) : Json :=
  let wanted := wantedOf extensions
  .arr (.str asContext :: wanted.flatMap Extension.entries ++
    [.obj (wanted.flatMap Extension.terms ++ [("noombat", .str noombatNs)])])

/-! ### What the document is made of -/

/-- How long a profile may be cached, in seconds, unless something else is said. -/
def DEFAULT_TTL_SECS : Nat :=
  604800

def TTL : String :=
  "noombat:ttl"

def escapeHtml (input : String) : String :=
  -- the last two are the quotation mark and the apostrophe
  [('&', "&amp;"), ('<', "&lt;"), ('>', "&gt;"), (Char.ofNat 0x22, "&quot;"),
    (Char.ofNat 0x27, "&#x27;")].foldl (fun s r => Text.replaceChar r.1 r.2 s) input

def apType : ActorType → String
  | .individual => "Person"
  | .organization => "Organization"
  | .group => "Group"
  | .application => "Application"

structure ProfilePrivacy where
  federateProfile : Bool
  chatmailVisible : Bool

/-- The columns of a local actor that its document is made of. -/
structure LocalActor where
  id : Uuid
  actorType : ActorType
  apId : String
  username : String
  displayName : Option String
  avatarUrl : Option String
  headerUrl : Option String
  summaryHtml : Option String
  publicKeyPem : String
  ed25519PublicKey : Option String
  chatmailAddr : Option String
  orcid : Option String
  movedTo : Option String
  actorPrivacy : ProfilePrivacy

def LocalActor.shouldFederateProfile (actor : LocalActor) : Bool :=
  actor.actorPrivacy.federateProfile

def LocalActor.chatmailVisibleTo (actor : LocalActor) (viewer : Option Uuid)
    (relationship : Relationship) : Bool :=
  actor.actorPrivacy.chatmailVisible || viewer == some actor.id || relationship.isFollower

inductive SectionVisibility where
  | «public»
  | followers
  | connections
  | «private»
  deriving DecidableEq

/-- A profile section with its visibility. -/
structure FederatedSection where
  sectionType : String
  visibility : SectionVisibility
  data : Json

/-- What the document of an actor is built from. -/
structure Profile where
  actor : LocalActor
  domain : String
  sections : List FederatedSection
  aliases : List String
  verifiedLinks : List String
  ttlSecs : Option Nat
  connections : Option String
  avatarAlt : Option String

namespace Profile

variable (p : Profile)

/-- Whether there is an attachment, were the profile federated. -/
def hasAttachments : Bool :=
  p.actor.orcid.isSome ||
    (p.actor.chatmailVisibleTo none Relationship.NONE && p.actor.chatmailAddr.isSome) ||
    !p.verifiedLinks.isEmpty

/-- Whether the document declares the terms of schema.org. -/
def declaresSchema : Bool :=
  p.hasAttachments || !p.sections.isEmpty || p.connections.isSome

def extensions : List Extension :=
  [.security] ++ (if p.actor.ed25519PublicKey.isSome then [.multikey] else []) ++
    (if p.declaresSchema then [.schema] else []) ++
    (if p.actor.movedTo.isSome then [.movedTo] else [])

/-- The value of a property that is there. -/
def setSome (key : String) (value : Option Json) (obj : Json) : Json :=
  match value with
  | some v => obj.insert key v
  | none => obj

/-- The properties that every document has. -/
def requiredProperties : Json :=
  let actor := p.actor
  .obj
    [("@context", contextWith p.extensions),
      ("id", .str actor.apId),
      ("type", .str (apType actor.actorType)),
      ("preferredUsername", .str actor.username),
      ("url", .str ("https://" ++ p.domain ++ "/@" ++ actor.username)),
      ("inbox", .str (actor.apId ++ "/inbox")),
      ("outbox", .str (actor.apId ++ "/outbox")),
      ("followers", .str (actor.apId ++ "/followers")),
      ("following", .str (actor.apId ++ "/following")),
      ("endpoints", .obj [("sharedInbox", .str ("https://" ++ p.domain ++ "/inbox"))]),
      ("publicKey", .obj
        [("id", .str (actor.apId ++ "#main-key")),
          ("owner", .str actor.apId),
          ("publicKeyPem", .str actor.publicKeyPem)])]

/-- The properties that are omitted when there is nothing to say. -/
def optionalProperties : List (String × Option Json) :=
  let actor := p.actor
  [("schema:knows", p.connections.map .str),
    ("name", actor.displayName.map .str),
    ("summary", actor.summaryHtml.map .str),
    ("assertionMethod", actor.ed25519PublicKey.map fun multibase =>
      .arr [.obj
        [("id", .str (actor.apId ++ "#ed25519-key")),
          ("type", .str "Multikey"),
          ("controller", .str actor.apId),
          ("publicKeyMultibase", .str multibase)]]),
    (TTL, some (.num (toString (p.ttlSecs.getD DEFAULT_TTL_SECS)))),
    ("movedTo", actor.movedTo.map .str),
    ("alsoKnownAs", if p.aliases.isEmpty then none else some (.arr (p.aliases.map .str))),
    ("icon", actor.avatarUrl.map fun url =>
      setSome "name" (p.avatarAlt.map .str) (.obj [("type", .str "Image"), ("url", .str url)])),
    ("image", actor.headerUrl.map fun url => .obj [("type", .str "Image"), ("url", .str url)])]

/-- The identity and the key material of an actor, which its document always carries. -/
def identityDocument : Json :=
  p.optionalProperties.foldl (fun obj e => setSome e.1 e.2 obj) p.requiredProperties

/-- The ORCID iD, the chat address and the verified links. -/
def attachments : List Json :=
  (p.actor.orcid.toList.map fun orcid =>
    .obj [("type", .str "PropertyValue"), ("name", .str "ORCID"),
      ("value", .str ("<a href=\"https://orcid.org/" ++ orcid ++ "\" rel=\"me\">" ++ orcid ++
        "</a>"))]) ++
  (if p.actor.chatmailVisibleTo none Relationship.NONE then
    p.actor.chatmailAddr.toList.map fun addr =>
      .obj [("type", .str "PropertyValue"), ("name", .str "Chat"), ("value", .str addr)]
  else []) ++
  (p.verifiedLinks.map fun url =>
    .obj [("type", .str "PropertyValue"), ("name", .str url),
      ("value", .str ("<a href=\"" ++ escapeHtml url ++ "\" rel=\"me\">" ++ escapeHtml url ++
        "</a>"))]) ++
  (p.actor.orcid.toList.map fun orcid =>
    .obj [("type", .str "Link"), ("name", .str "ORCID"),
      ("href", .str ("https://orcid.org/" ++ orcid)), ("rel", .str "me")]) ++
  p.verifiedLinks.map fun url =>
    .obj [("type", .str "Link"), ("name", .str url), ("href", .str url), ("rel", .str "me")]

/-- The document with the attachments, if there are any. -/
def attachedDocument : Json :=
  if p.attachments.isEmpty then p.identityDocument
  else p.identityDocument.insert "attachment" (.arr p.attachments)

def publicSections : List FederatedSection :=
  p.sections.filter fun s => s.visibility == .public

end Profile

def FederatedSection.key (s : FederatedSection) : String :=
  "noombat:" ++ s.sectionType

/-- The data of a section is added to what is collected under its key. -/
def addSection (m : List (String × List Json)) (s : FederatedSection) :
    List (String × List Json) :=
  if m.any (·.1 == s.key) then
    m.map fun entry => if entry.1 = s.key then (entry.1, entry.2 ++ [s.data]) else entry
  else m ++ [(s.key, [s.data])]

/-- The data of the sections under their keys; sections of one type are collected. -/
def sectionMap (sections : List FederatedSection) : List (String × List Json) :=
  sections.foldl addSection []

/-- The document of a local actor. -/
def buildFederatedActor (p : Profile) : Json :=
  if p.actor.shouldFederateProfile then
    (sectionMap p.publicSections).foldl
      (fun obj entry => obj.insert entry.1 (.arr entry.2)) p.attachedDocument
  else p.identityDocument

end Federation.Downgrade
