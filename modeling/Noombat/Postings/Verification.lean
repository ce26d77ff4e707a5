import Noombat.Postings.Database

/-!
# The verification of links

An actor proves that it controls a domain by a page there that links back to its profile.  The
page is fetched when the link is added, and again from time to time, and the link stands as
verified just if the back link was found the last time.  Which domain the link is about is read
from the string that was stored.
-/

namespace Postings

open Federation (Uuid DateTime NoombatError)
open Fallible

variable (lib : Library)

/-! ### Back links -/

/-- A back link reduced to what identifies it, for comparison. -/
def normaliseBackLink (url : String) : String :=
  let url := Text.trim url
  let rest := ((Text.splitOnceStr "://" url).map Prod.snd).getD url
  let (authority, path) := match Text.find '/' rest with
    | some i => (String.ofList (rest.toList.take i), String.ofList (rest.toList.drop i))
    | none => (rest, "")
  let authority := [":443", ":80"].foldl
    (fun authority default => (Text.stripSuffix default authority).getD authority)
    (Text.toAsciiLowercase authority)
  let path := (Text.split '#' path).headD ""
  authority ++ (Text.stripSuffix "/" path).getD path

/-- Whether a page links back to one of the given URLs. -/
def checkRelMe (html : String) (profileUrls : List String) : Bool :=
  let wanted := profileUrls.map normaliseBackLink
  (lib.relMeHrefs html).any fun href => wanted.contains (normaliseBackLink href)

/-- A hyperlink to one of the URLs is a link back. -/
theorem checkRelMe_of_mem {html : String} {profileUrls : List String} {href : String}
    (hhref : href ∈ lib.relMeHrefs html) (hprofile : href ∈ profileUrls) :
  checkRelMe lib html profileUrls = true
  := by
  apply List.any_eq_true.mpr
  use href, hhref
  exact List.contains_iff_mem.mpr (List.mem_map_of_mem hprofile)

/-! ### Domains -/

/-- The registrable domain of a host, if it has a public suffix. -/
def registrableDomain (host : String) : Option String :=
  lib.registrable (Text.toAsciiLowercase (Text.trimEndMatches '.' (Text.trim host)))

/-- The host that is read from a URL. -/
def hostOfUrl (url : String) : Option String := do
  let rest := ((Text.splitOnceStr "://" url).map Prod.snd).getD url
  let parts := Text.splitBy (['/', '?', '#'].contains ·) rest
  let authority ← parts.head?
  let host := ((Text.rsplitOnce '@' authority).map Prod.snd).getD (parts.headD "")
  (Text.split ':' host).head?

/-- The registrable domain of a URL's host. -/
def registrableDomainOfUrl (url : String) : Option String :=
  (hostOfUrl url).bind (registrableDomain lib)

/-- The registrable domain that an actor claims is that of one of the links it has verified. -/
def controlsDomain (claimedDomain : Option String) (urls : List String) : Bool :=
  match claimedDomain.bind (registrableDomain lib) with
  | none => false
  | some claimed => (urls.filterMap (registrableDomainOfUrl lib)).any (· == claimed)

/-- Whether an actor holds a verified link proving control of the domain it claims. -/
def controlsClaimedDomain (actorId : Uuid) : Op Bool := do
  let claimed := (← sql (.selectClaimedDomain actorId)).join
  if (claimed.bind (registrableDomain lib)).isNone then return false
  let urls ← sql (.selectVerifiedUrls actorId)
  return controlsDomain lib claimed urls

/-! ### Links -/

/-- Add a URL to the links of an actor, not verified at first. -/
def addLink (actorId : Uuid) (url : String) : Op VerifiedLink := do
  let id ← ask .newUuid
  sql (.insertLink id actorId url)

/-- Remove a link. -/
def deleteLink (actorId id : Uuid) : Op Unit := do
  if (← sql (.deleteLink actorId id)) = 0 then throw (.notFound "verified_link" id)

/-- Whether a page that was asked for is there, and links back. -/
def linksBack (profileUrls : List String) : Except String Federation.Client.Page → Bool
  | .ok page =>
      (200 ≤ page.status && page.status < 300) &&
        checkRelMe lib (page.body.getD "") profileUrls
  | .error _ => false

/-- Verify a link by fetching its page and checking it for a link back to the profile. -/
def verifyLink (link : VerifiedLink) (profileUrls : List String) : Op Bool := do
  let page ← ask (.get link.url)
  let verified := linksBack lib profileUrls page
  sql (.markChecked link.id verified)
  return verified

/-- The URLs of the profile of an actor. -/
def profileUrls (domain username : String) : List String :=
  [s!"https://{domain}/users/{username}", s!"https://{domain}/@{username}"]

/-- Verify links again, and name the actors of those that have changed. -/
def reverify (domain : String) : List VerifiedLink → Op (List Uuid)
  | [] => return []
  | link :: links => do
      match ← sql (.selectUsername link.actorId) with
      | none => reverify domain links
      | some username =>
          let isVerified ← unwrapOr false (verifyLink lib link (profileUrls domain username))
          let changed ← reverify domain links
          return if link.verifiedAt.isSome != isVerified then link.actorId :: changed else changed

/-- Verify all links again that have not been checked for some days.  The result names the
actors whose links have changed, each once. -/
def reverifyStaleLinks (domain : String) (maxAgeDays : Int) : Op (List Uuid) := do
  let links ← ask (.staleLinks maxAgeDays)
  let changed ← reverify lib domain links
  return (changed.mergeSort (· ≤ ·)).dedup

end Postings
