import Noombat.Api.Follows
import Noombat.Federation.Downgrade
import Noombat.Federation.Signing

/-!
# The outbox

How a local actor publishes a post: the document and its proof, the row, and the deliveries
of the document to the followers, to the author of the post it answers, and to the relays.
-/

namespace Api

open Federation (Uuid DateTime NoombatError Actor Visibility PostType NewPost asPublic
  defaultContext SigningExternal signAsActor utcNow)
open Federation.Downgrade (Extension contextWith)

/-- The libraries with what publishing relies on. -/
structure PublishingExternal extends SigningExternal where
  /-- The HTML that Markdown is rendered to, strictly sanitised or not, and its hashtags. -/
  render : (markdown : String) → (strict : Bool) → Except NoombatError (String × List String)
  toRfc3339 : DateTime → String

/-! ### The document -/

/-- What the document of a local post is built from. -/
structure LocalPost where
  postId : String
  apType : String
  contentHtml : String
  sourceMarkdown : String
  title : Option String
  featuredImageUrl : Option String
  featuredImageAlt : Option String
  inReplyTo : Option String
  attachments : List Json
  sensitive : Bool
  «to» : List String
  cc : List String
  tags : List Json
  published : String

namespace LocalPost

variable (post : LocalPost)

/-- A list of strings, as a JSON value. -/
def strings (l : List String) : Json :=
  .arr (l.map .str)

/-- The terms that the document uses beyond the standard ones. -/
def extensions : List Extension :=
  if post.tags.isEmpty then [] else [.hashtag]

/-- The featured image, with its description where there is one. -/
def image (url : String) : Json :=
  .obj ([("type", .str "Image"), ("url", .str url)] ++
    post.featuredImageAlt.toList.map fun alt => ("name", .str alt))

/-- The document before it is signed. -/
def document (actorApId : String) : Json :=
  .obj ([("@context", contextWith post.extensions), ("id", .str post.postId),
      ("type", .str post.apType), ("attributedTo", .str actorApId),
      ("content", .str post.contentHtml),
      ("source", .obj [("content", .str post.sourceMarkdown),
        ("mediaType", .str "text/markdown")]),
      ("to", strings post.to), ("cc", strings post.cc), ("tag", .arr post.tags),
      ("published", .str post.published)] ++
    (post.title.toList.map fun title => ("name", .str title)) ++
    (post.featuredImageUrl.toList.map fun url => ("image", post.image url)) ++
    (post.inReplyTo.toList.map fun uri => ("inReplyTo", .str uri)) ++
    (if post.attachments.isEmpty then [] else [("attachment", .arr post.attachments)]) ++
    (if post.sensitive then [("sensitive", .bool true)] else []))

/-- The document, with a proof where the actor has a key that can be used. -/
def signedDocument (ext : SigningExternal) (now : DateTime) (actorApId : String) :
    Option String → Json
  | none => post.document actorApId
  | some key =>
      -- signing an object does not panic
      (signAsActor ext now (post.document actorApId) key actorApId).elim
        (post.document actorApId) Prod.snd

/-- The activity that publishes the post. -/
def buildCreateActivity (ext : SigningExternal) (now : DateTime) (actorApId : String)
    (ed25519PrivateBase64 : Option String) : Json :=
  .obj [("@context", contextWith post.extensions), ("id", .str s!"{post.postId}/activity"),
    ("type", .str "Create"), ("actor", .str actorApId),
    ("object", post.signedDocument ext now actorApId ed25519PrivateBase64),
    ("to", strings post.to), ("cc", strings post.cc), ("published", .str post.published)]

end LocalPost

/-! ### Addressing -/

/-- The tier that a request names. -/
def visibilityOf : String → Option Visibility
  | "public" => some .public
  | "unlisted" => some .unlisted
  | "followers" => some .followers
  | "connections" => some .connections
  | _ => none

/-- The collections and the public that a post of a tier is addressed to, in `to` and in
`cc`. -/
def addressing (actorApId : String) : Visibility → List String × List String
  | .public => ([asPublic], [s!"{actorApId}/followers"])
  | .unlisted => ([s!"{actorApId}/followers"], [asPublic])
  | .followers => ([s!"{actorApId}/followers"], [])
  | .connections => ([s!"{actorApId}/connections"], [])

/-- The `cc` of a reply names the author of the post that it answers. -/
def withParentAuthor (actorApId : String) (parentAuthor : Option (String × Option String))
    (cc : List String) : List String :=
  match parentAuthor with
  | none => cc
  | some (authorApId, _) =>
      if authorApId ≠ actorApId && !cc.contains authorApId then cc ++ [authorApId] else cc

/-! ### Publishing -/

/-- The body of a request to publish. -/
structure OutboxPostBody where
  content : String
  visibility : Option String
  postType : String
  title : Option String
  featuredImageUrl : Option String
  featuredImageAlt : Option String
  inReplyTo : Option String
  attachmentIds : List Uuid
  sensitive : Bool

/-- The description of the featured image, if there is an image and it says something. -/
def OutboxPostBody.imageAlt (body : OutboxPostBody) : Option String :=
  body.featuredImageUrl.bind fun _ =>
    (body.featuredImageAlt.map Text.trim).filter (!·.isEmpty)

def MediaAttachment.toImage (m : MediaAttachment) : Json :=
  .obj ([("type", .str "Image"), ("url", .str m.url), ("mediaType", .str m.mediaType)] ++
    (m.altText.toList.map fun alt => ("name", .str alt)) ++
    (m.blurhash.toList.map fun hash => ("blurhash", .str hash)))

/-- The images of a post, in the order in which the request names them. -/
def attachmentObjects (actorId : Uuid) (ids : List Uuid) : Route (List Json) :=
  if ids.isEmpty then return []
  else do
    let rows ← sql (.unclaimedAttachments actorId ids)
    return (ids.filterMap fun id => rows.find? (·.id == id)).map MediaAttachment.toImage

def hashtagObject (domain tag : String) : Json :=
  .obj [("type", .str "Hashtag"), ("name", .str s!"#{tag}"),
    ("href", .str s!"https://{domain}/tags/{tag}")]

/-- The announcement of an activity to a relay. -/
def relayAnnounce (announceId instanceApId activityId : String) : Json :=
  .obj [("@context", defaultContext), ("id", .str announceId), ("type", .str "Announce"),
    ("actor", .str instanceApId), ("object", .str activityId),
    ("to", LocalPost.strings [asPublic])]

/-- Announce an activity to every accepted relay. -/
def broadcastToRelays (instanceActorId : Uuid) (instanceApId : String) (activity : Json) :
    Route Unit := do
  let relays ← Fallible.unwrapOr [] (sql .acceptedRelays)
  if relays.isEmpty then return ()
  else
    let now ← fed utcNow
    let announce := relayAnnounce s!"{instanceApId}#relay-announce-{now.timestampMillis}"
      instanceApId ((activity.getStr "id").getD "unknown")
    forM relays fun inbox =>
      ignoringErrors (fed (Federation.Repo.enqueueDelivery instanceActorId announce inbox))

/-- Announce a post to the relays as the actor of the instance, if there is one. -/
def announceToRelays (activity : Json) : Route Unit := do
  let signer ← Fallible.attempt (fed Federation.findLocalSigningActor)
  match signer with
  | .error _ => return ()
  | .ok instanceActorId =>
      let instanceActor ← Fallible.attempt (fed (Federation.Repo.findById instanceActorId))
      match instanceActor with
      | .error _ => return ()
      | .ok instanceActor => broadcastToRelays instanceActorId instanceActor.apId activity

/-- Queue a reply for the author of the post that it answers, unless that inbox is served. -/
def deliverReply (actorId : Uuid) (activity : Json) (served : List String) :
    Option String → Route Unit
  | none => pure ()
  | some target =>
      if served.contains target then pure ()
      else ignoringErrors (fed (Federation.Repo.enqueueDelivery actorId activity target))

/-- Queue a post for the followers, for the author of the post that it answers, and, if it is
public, for the relays. -/
def deliverPost (actorId : Uuid) (visibility : Visibility) (replyTarget : Option String)
    (activity : Json) : Route Unit := do
  let inboxes ← sql (.followerInboxes actorId)
  forM inboxes fun inbox =>
    fed (Federation.Repo.enqueueDelivery actorId activity inbox)
  deliverReply actorId activity inboxes replyTarget
  if visibility = .public then announceToRelays activity else return ()

variable (ext : PublishingExternal) (domain : String)

/-- The name of the tier of a post: the stated one, or the default of the account. -/
def tierName (actorId : Uuid) : Option String → Route String
  | some stated => pure stated
  | none => do
      let default ← sql (.defaultPostVisibility actorId)
      okOr (.database "no rows returned") default

def postVisibility (actorId : Uuid) (stated : Option String) : Route Visibility := do
  let tier ← tierName actorId stated
  okOr (.badRequest "visibility must be public, unlisted, followers, or connections")
    (visibilityOf tier)

/-- The type of a post; an article has a title. -/
def postTypeOf (body : OutboxPostBody) : Except NoombatError PostType :=
  match body.postType with
  | "note" => .ok .note
  | "article" =>
      if body.title.all String.isEmpty then
        .error (.badRequest "article post_type requires a non-empty title")
      else .ok .article
  | _ => .error (.badRequest "post_type must be note or article")

/-- The author of the post that is answered, if that post is known. -/
def parentAuthorOf (inReplyTo : Option String) : Route (Option (String × Option String)) :=
  match inReplyTo with
  | none => return none
  | some uri => Fallible.unwrapOr none (sql (.parentAuthor uri))

/-- The post that a request describes, with what was rendered, looked up and drawn for it. -/
def localPost (actor : Actor) (body : OutboxPostBody) (visibility : Visibility)
    (postType : PostType) (postId : String) (rendered : String × List String)
    (parentAuthor : Option (String × Option String)) (attachments : List Json)
    (published : DateTime) : LocalPost where
  postId := postId
  apType := if postType = .article then "Article" else "Note"
  contentHtml := rendered.1
  sourceMarkdown := body.content
  title := body.title
  featuredImageUrl := body.featuredImageUrl
  featuredImageAlt := body.imageAlt
  inReplyTo := body.inReplyTo
  attachments := attachments
  sensitive := body.sensitive
  «to» := (addressing actor.apId visibility).1
  cc := withParentAuthor actor.apId parentAuthor (addressing actor.apId visibility).2
  tags := rendered.2.map (hashtagObject domain)
  published := ext.toRfc3339 published

/-- The row of the post. -/
def LocalPost.toNewPost (post : LocalPost) (actorId : Uuid) (visibility : Visibility)
    (postType : PostType) (apObject : Json) : NewPost where
  actorId := actorId
  apId := post.postId
  postType := postType
  title := post.title
  featuredImageUrl := post.featuredImageUrl
  featuredImageAlt := post.featuredImageAlt
  sensitive := post.sensitive
  contentMd := post.sourceMarkdown
  contentHtml := post.contentHtml
  inReplyTo := post.inReplyTo
  visibility := visibility
  apObject := apObject

def claimAttachments (actorId postId : Uuid) (ids : List Uuid) : Route Unit :=
  if ids.isEmpty then pure ()
  else ignoringErrors (sql (.claimAttachments actorId postId ids))

def linkHashtags (postId : Uuid) (hashtags : List String) : Route Unit :=
  if hashtags.isEmpty then pure ()
  else ignoringErrors (fed (Federation.linkPostHashtags ext.toExternal postId hashtags))

/-- Store a post, with its images and its hashtags. -/
def storePost (post : NewPost) (attachmentIds : List Uuid) (hashtags : List String) :
    Route Uuid := do
  let created ← fed (Federation.Repo.createLocalPost post)
  claimAttachments post.actorId created attachmentIds
  linkHashtags ext created hashtags
  return created

/-- Publish a post, and answer with the activity that publishes it. -/
def postOutbox (viewer : Option Viewer) (username : String) (body : OutboxPostBody) :
    Route (StatusCode × Json) := do
  let actor ← requireLocalActor viewer username
  let visibility ← postVisibility actor.id body.visibility
  let postType ← ofExcept (postTypeOf body)
  let uuid ← newUuid
  let rendered ← ofExcept (ext.render body.content (postType == .article))
  let parentAuthor ← parentAuthorOf body.inReplyTo
  let attachments ← attachmentObjects actor.id body.attachmentIds
  let published ← fed utcNow
  let signedAt ← fed utcNow
  let post := localPost ext domain actor body visibility postType
    s!"https://{domain}/users/{username}/posts/{uuid}" rendered parentAuthor attachments published
  let activity := post.buildCreateActivity ext.toSigningExternal signedAt actor.apId
    actor.ed25519PrivateKey
  let _ ← storePost ext (post.toNewPost actor.id visibility postType activity)
    body.attachmentIds rendered.2
  deliverPost actor.id visibility (parentAuthor.bind Prod.snd) activity
  return (.CREATED, activity)

end Api
