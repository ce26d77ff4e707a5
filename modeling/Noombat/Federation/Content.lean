import Noombat.Federation.Statement

/-!
# What is read from a document

The functions that extract from the JSON of a peer what is stored about a post.
-/

namespace Federation

open Text

variable (ext : External)

/-! ### Rendered content -/

/-- The sanitiser policy in force. -/
def strictVersion : Nat := 1

/-- The most of a string of a peer that is sanitised, in bytes. -/
def maxRemoteHtmlBytes : Nat := 512 * 1024

/-- The longest start of a string with at most `max` bytes. -/
def truncateOnCharBoundary (s : String) (max : Nat) : String :=
  String.ofList (takeBytes max s.toList)

def sanitiseRemoteHtml (html : String) : String :=
  ext.cleanStrict (truncateOnCharBoundary html maxRemoteHtmlBytes)

structure RemoteContent where
  contentHtml : String
  contentMd : Option String
  sanitiserVersion : Nat

/-- The renderable content of a remote object, sanitised, and its Markdown source where it
declares one. -/
def extractRemoteContent (object : Json) : RemoteContent where
  contentHtml := sanitiseRemoteHtml ext ((object.getStr "content").getD "")
  contentMd :=
    ((object.get "source").bind fun src =>
      if (src.getStr "mediaType").getD "" = "text/markdown" then src.getStr "content"
      else none).map (truncateOnCharBoundary · maxRemoteHtmlBytes)
  sanitiserVersion := strictVersion

/-! ### Addressing -/

def listContainsPublic (list : Option (List String)) : Bool :=
  (list.getD []).any fun uri => uri == asPublic || eqIgnoreAsciiCase uri "Public"

def deriveVisibility («to» cc : Option (List String)) : Visibility :=
  if listContainsPublic «to» then .public
  else if listContainsPublic cc then .unlisted
  else .followers

/-- The strings of an addressing field, which is a list of strings or a single one. -/
def extractStringArray (value : Json) (key : String) : Option (List String) :=
  (value.get key).bind fun field =>
    match field with
    | .arr items =>
        match items.filterMap Json.asStr with
        | [] => none
        | strings => some strings
    | _ => field.asStr.map fun s => [s]

/-- The URI that `inReplyTo` names, by a string, an object with an `id`, or the first
usable entry of a list of these. -/
def extractInReplyTo (object : Json) : Option String :=
  (object.get "inReplyTo").bind fun field =>
    (field.asStr.or (field.getStr "id")).or
      ((field.asArray.getD []).findSome? fun item => item.asStr.or (item.getStr "id"))

/-- The first string of a property that is a string or a list. -/
def firstString (value : Json) : Option String :=
  value.asStr.or (value.asArray.bind fun items => items.findSome? Json.asStr)

/-! ### Images -/

def maxImageAltBytes : Nat := 2000

def maxPostImages : Nat := 20

/-- The description of an image by its author. -/
def imageDescription (image : Json) : Option String :=
  (image.getStr "name").bind fun name =>
    let name := trim name
    if name = "" then none else some (truncateOnCharBoundary name maxImageAltBytes)

/-- The featured image of an object and its description: its `image`, or else its first
attachment of type `Image`. -/
def extractImageUrl (object : Json) : Option (String × Option String) :=
  let fromImage := (object.get "image").bind fun image =>
    match image.asStr with
    | some url => some (url, none)
    | none => (image.getStr "url").map fun url => (url, imageDescription image)
  let attachments := ((object.get "attachment").bind Json.asArray).getD []
  fromImage.or (attachments.findSome? fun att =>
    if (att.getStr "type").getD "" = "Image" then
      (att.getStr "url").map fun url => (url, imageDescription att)
    else none)

structure RemoteImage where
  url : String
  altText : Option String
  ordinal : Nat

/-- Whether an attachment says it is an image. -/
def declaresAnImage (attachment : Json) : Bool :=
  (attachment.getStr "type").getD "" == "Image" ||
    (attachment.getStr "mediaType").any (startsWith · "image/")

mutual

/-- The target of an attachment's `url`: a string, a link, or the first that a list of
these names. -/
def urlOfAttachment : Json → Option String
  | .str href => some href
  | .arr items => firstUrlOfAttachment items
  | .obj fields => (fields.lookup "href").bind Json.asStr
  | _ => none

def firstUrlOfAttachment : List Json → Option String
  | [] => none
  | item :: items => (urlOfAttachment item).or (firstUrlOfAttachment items)

end

/-- The images that the attachments of an object declare, numbered in their order. -/
def extractRemoteImages (object : Json) : List RemoteImage :=
  let attachments := ((object.get "attachment").bind Json.asArray).getD []
  let found := (attachments.filter declaresAnImage).filterMap fun att =>
    ((att.get "url").bind urlOfAttachment).map fun url => (url, imageDescription att)
  (found.take maxPostImages).mapIdx fun index image => ⟨image.1, image.2, index⟩

/-! ### Hashtags -/

/-- The names of the hashtags in the `tag` list of an object, in lower case. -/
def extractHashtagsFromTags (object : Json) : List String :=
  (((object.get "tag").bind Json.asArray).getD []).filterMap fun tag =>
    if tag.getStr "type" = some "Hashtag" then
      (tag.getStr "name").bind fun name =>
        let stripped := (stripPrefix "#" name).getD name
        if stripped = "" then none else some (ext.toLowercase stripped)
    else none

/-! ### Canonical identifiers -/

def canonicalUriProperty : String := "noombat:canonicalUri"

/-- The canonical identifier of an object: the explicit one, or its `url`. -/
def extractCanonicalUri (object : Json) : Option String :=
  (object.getStr canonicalUriProperty).or (object.getStr "url")

/-! ### Posts -/

/-- The kind of post a type of object is stored as. -/
def postTypeOf : String → Option PostType
  | "Note" => some .note
  | "Article" => some .article
  | _ => none

/-- The columns of a post that are derived from its document, for the given addressing and
the given verdict on its proof. -/
def postContent (object : Json) («to» cc : Option (List String)) (proofVerified : Option Bool) :
    PostContent :=
  let content := extractRemoteContent ext object
  let image := extractImageUrl object
  { title := object.getStr "name"
    featuredImageUrl := image.map Prod.fst
    featuredImageAlt := image.bind Prod.snd
    contentMd := content.contentMd
    contentHtml := content.contentHtml
    sanitiserVersion := content.sanitiserVersion
    inReplyTo := extractInReplyTo object
    visibility := deriveVisibility «to» cc
    apObject := object
    integrityProofVerified := proofVerified }

/-- The `sensitive` flag of an object; absent means false. -/
def extractSensitive (object : Json) : Bool :=
  ((object.get "sensitive").bind Json.asBool).getD false

@[simp]
theorem postContent_apObject (object : Json) («to» cc : Option (List String))
    (proofVerified : Option Bool) :
  (postContent ext object «to» cc proofVerified).apObject = object
  := rfl

@[simp]
theorem postContent_integrityProofVerified (object : Json) («to» cc : Option (List String))
    (proofVerified : Option Bool) :
  (postContent ext object «to» cc proofVerified).integrityProofVerified = proofVerified
  := rfl

end Federation
