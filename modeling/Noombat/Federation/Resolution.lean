import Noombat.Federation.Content
import Noombat.Federation.IntegrityProof
import Noombat.Federation.Repo

/-!
# Resolving actors

How the URI of an actor, or of its key, is resolved to a row of `actors`: from the database,
or by fetching the document, which has to be entitled to the `id` it claims.
-/

namespace Federation

open Text

/-! ### URIs -/

/-- The domain of a URI. -/
def extractDomain (uri : String) : Option String :=
  ((stripPrefix "https://" uri).or (stripPrefix "http://" uri)).bind fun rest =>
    (split '/' rest).head?

/-- The username in the URI of a local actor. -/
def extractLocalUsername (actorUri : String) : Option String := do
  let rest ← (stripPrefix "https://" actorUri).or (stripPrefix "http://" actorUri)
  let pos ← find '/' rest
  let afterUsers ← stripPrefix "/users/" (slice pos rest.toList.length rest)
  let username := (stripSuffix "/" afterUsers).getD afterUsers
  if username = "" ∨ '/' ∈ username.toList then none else some username

/-- A string up to its first `#`. -/
def stripFragment (uri : String) : String :=
  (split '#' uri).headD uri

variable (ext : External)

/-- Whether two actor URIs denote the same actor. -/
def sameActorUri (a b : String) : Bool :=
  match ext.urlParse a, ext.urlParse b with
  | .ok u, .ok v => u.normaliseActorUri == v.normaliseActorUri
  | _, _ => a == b

/-- The origin of a URI, if it parses. -/
def originOf (uri : String) : Option Url.Origin :=
  (ext.urlParse uri).toOption.map Url.origin

/-- Two URIs have one origin. -/
def SameOrigin (a b : String) : Prop :=
  ∃ origin, originOf ext a = some origin ∧ originOf ext b = some origin

section SameActor

variable {ext : External} {a b c : String}

/-- What is compared of an actor URI: the URL it parses to, normalised, or else its text. -/
def actorKey (ext : External) (uri : String) : Url ⊕ String :=
  match ext.urlParse uri with
  | .ok u => .inl u.normaliseActorUri
  | .error _ => .inr uri

theorem sameActorUri_iff :
  sameActorUri ext a b = true ↔ actorKey ext a = actorKey ext b
  := by
  unfold sameActorUri actorKey
  cases ha : ext.urlParse a with
  | ok u =>
      cases hb : ext.urlParse b with
      | ok v => simp
      | error e =>
          have hne : a ≠ b := by
            rintro rfl
            rw [ha] at hb
            cases hb
          simpa using hne
  | error e =>
      cases hb : ext.urlParse b with
      | ok v =>
          have hne : a ≠ b := by
            rintro rfl
            rw [ha] at hb
            cases hb
          simpa using hne
      | error e => simp

theorem sameActorUri_refl (a : String) :
  sameActorUri ext a a = true
  := sameActorUri_iff.mpr rfl

theorem sameActorUri_symm (h : sameActorUri ext a b = true) :
  sameActorUri ext b a = true
  := sameActorUri_iff.mpr (sameActorUri_iff.mp h).symm

theorem sameActorUri_trans (h : sameActorUri ext a b = true) (h' : sameActorUri ext b c = true) :
  sameActorUri ext a c = true
  := sameActorUri_iff.mpr ((sameActorUri_iff.mp h).trans (sameActorUri_iff.mp h'))

/-- The URIs of one actor are of one origin. -/
theorem originOf_eq_of_sameActorUri (h : sameActorUri ext a b = true) :
  originOf ext a = originOf ext b
  := by
  have hkey := sameActorUri_iff.mp h
  unfold actorKey at hkey
  unfold originOf
  cases ha : ext.urlParse a with
  | ok u =>
      cases hb : ext.urlParse b with
      | ok v =>
          rw [ha, hb] at hkey
          have horigin := congrArg Url.origin (Sum.inl.inj hkey)
          simpa [Except.toOption] using horigin
      | error e =>
          rw [ha, hb] at hkey
          cases hkey
  | error e =>
      cases hb : ext.urlParse b with
      | ok v =>
          rw [ha, hb] at hkey
          cases hkey
      | error e => rfl

end SameActor

/-! ### Actor documents -/

/-- Check that a fetched actor document is entitled to the `id` it claims: it was served
from the origin that was asked, at the URL it claims. -/
def verifyFetchedActorId (docId : String) (finalUrl : Url) (requestedUri : String) :
    Except NoombatError Unit :=
  match ext.urlParse requestedUri with
  | .error e =>
      .error (.federation s!"actor URI {requestedUri} is not a valid URL: {e}")
  | .ok requested =>
      if finalUrl.sameOrigin requested then
        match ext.urlParse docId with
        | .error e => .error (.federation s!"actor document id {docId} is not a valid URL: {e}")
        | .ok claimed =>
            if claimed.normaliseActorUri = finalUrl.normaliseActorUri then .ok ()
            else .error (.federation
              s!"actor document claims id {docId} but was served from {finalUrl.asStr}; refusing")
      else .error (.federation
        s!"actor fetch for {requestedUri} redirected across origins to {finalUrl.asStr}; refusing")

/-- The first Multikey of an actor document that decodes as Ed25519 and satisfies `p`. -/
def findMultikey (p : ApMultikey → Bool) (apActor : ApActor) : Option String :=
  ((apActor.assertionMethod.getD []).find? fun m =>
    m.keyType == "Multikey" && p m && isEd25519Multikey ext m.publicKeyMultibase).map
      ApMultikey.publicKeyMultibase

/-- The remote actor that a fetched document describes. -/
def apActorToRemote (apActor : ApActor) (finalUrl : Url) (requestedUri : String) :
    Except NoombatError RemoteActor :=
  (verifyFetchedActorId ext apActor.id finalUrl requestedUri).map fun _ =>
    { apId := apActor.id
      username := apActor.preferredUsername
      domain := (extractDomain finalUrl.asStr).getD ""
      displayName := apActor.name
      summaryHtml := apActor.summary.map (sanitiseRemoteHtml ext)
      sanitiserVersion := strictVersion
      publicKeyPem := apActor.publicKey.publicKeyPem
      publicKeyId := some apActor.publicKey.id
      actorType := .fromApType apActor.actorType
      inboxUrl := apActor.inbox
      sharedInboxUrl := apActor.endpoints.bind (·.getStr "sharedInbox")
      ed25519PublicKey := findMultikey ext (fun _ => true) apActor
      discoverable := apActor.consentsToDiscovery
      indexable := apActor.consentsToIndexing }

/-- A document is entitled to its `id` when it was served from the origin that was asked,
under the URL that it claims. -/
theorem verifyFetchedActorId_ok_iff {ext : External} {docId requestedUri : String} {finalUrl : Url} :
  verifyFetchedActorId ext docId finalUrl requestedUri = .ok () ↔
    ∃ requested claimed, ext.urlParse requestedUri = .ok requested ∧
      ext.urlParse docId = .ok claimed ∧ finalUrl.sameOrigin requested = true ∧
      claimed.normaliseActorUri = finalUrl.normaliseActorUri
  := by
  unfold verifyFetchedActorId
  cases ext.urlParse requestedUri with
  | error e => simp
  | ok requested =>
      by_cases horigin : finalUrl.sameOrigin requested = true
      · cases ext.urlParse docId with
        | error e => simp [horigin]
        | ok claimed =>
            by_cases hid : claimed.normaliseActorUri = finalUrl.normaliseActorUri
            · simp [horigin, hid]
            · simp [horigin, hid]
      · simp [horigin]

theorem of_apActorToRemote {ext : External} {apActor : ApActor} {finalUrl : Url} {uri : String}
    {remote : RemoteActor} (h : apActorToRemote ext apActor finalUrl uri = .ok remote) :
  verifyFetchedActorId ext apActor.id finalUrl uri = .ok () ∧ remote.apId = apActor.id ∧
    remote.ed25519PublicKey = findMultikey ext (fun _ => true) apActor
  := by
  unfold apActorToRemote at h
  cases hid : verifyFetchedActorId ext apActor.id finalUrl uri with
  | error e =>
      rw [hid] at h
      cases h
  | ok _ =>
      rw [hid] at h
      cases h
      exact ⟨rfl, rfl, rfl⟩

theorem key_of_apActorToRemote {ext : External} {apActor : ApActor} {finalUrl : Url} {uri : String}
    {remote : RemoteActor} (h : apActorToRemote ext apActor finalUrl uri = .ok remote) :
  remote.publicKeyId = some apActor.publicKey.id ∧
    remote.publicKeyPem = apActor.publicKey.publicKeyPem
  := by
  rw [apActorToRemote, (of_apActorToRemote h).1] at h
  obtain rfl := Except.ok.inj h
  exact ⟨rfl, rfl⟩

/-- A document that is entitled to its `id` is of the origin that was asked. -/
theorem originOf_eq_of_entitled {ext : External} {docId uri : String} {finalUrl : Url}
    (h : verifyFetchedActorId ext docId finalUrl uri = .ok ()) :
  originOf ext docId = originOf ext uri
  := by
  obtain ⟨requested, claimed, hrequested, hclaimed, hsame, hnorm⟩ :=
    verifyFetchedActorId_ok_iff.mp h
  have horigin : claimed.origin = requested.origin := by
    calc claimed.origin
      _ = claimed.normaliseActorUri.origin := by rw [Url.origin_normaliseActorUri]
      _ = finalUrl.origin := by rw [hnorm, Url.origin_normaliseActorUri]
      _ = requested.origin := (Url.sameOrigin_iff _ _).mp hsame
  unfold originOf
  rw [hrequested, hclaimed]
  simp [Except.toOption, horigin]

/-! ### Resolution -/

/-- The local actor whose key signs fetches. -/
def findLocalSigningActor : Handler Uuid := do
  let instance? ← Repo.signingActor true
  match instance? with
  | some id => return id
  | none =>
      let any ← Repo.signingActor false
      okOr (.internal "no local actor with a private key available for signed fetch") any

/-- Fetch a document signed as a local actor, or unsigned where there is none to sign as. -/
def fetchSigned (url : String) : Handler Response := do
  let signer ← Fallible.attempt findLocalSigningActor
  match signer with
  | .ok signer => signedGet url signer
  | .error (.database e) => throw (.database e)
  | .error _ => guardedGet url

/-- Fetch the profile of an actor that is not known, and store it. -/
def fetchActor (actorUri : String) : Handler Actor := do
  let response ← fetchSigned actorUri
  if response.status = 410 then
    ignoringErrors (Repo.insertTombstone actorUri)
    throw (.federation s!"remote actor {actorUri} returned 410 Gone; tombstoned")
  else if response.isSuccess then
    let apActor ← ofExcept response.actor
    let remote ← ofExcept (apActorToRemote ext apActor response.url actorUri)
    Repo.upsertRemoteActor remote
  else
    throw (.federation s!"remote actor returned HTTP {ext.displayStatus response.status}")

/-- The actor with a given URI, local or remote, fetched if it is not known. -/
def resolveActor (actorUri : String) : Handler Actor := do
  let cached ← Repo.findByApId actorUri
  match cached with
  | some cached => return cached
  | none =>
      let isTombstoned ← unwrapOr false (Repo.isTombstoned actorUri)
      if isTombstoned then
        throw (.federation s!"actor {actorUri} is tombstoned (previously returned 410 Gone)")
      else fetchActor ext actorUri

/-- The actor with a given URI, which must not be a local one. -/
def resolveInboundSigner (actorUri : String) : Handler Actor := do
  let actor ← resolveActor ext actorUri
  if actor.isLocal then throw .forbidden else return actor

/-- The actor that a document served at a key URL names as its owner. -/
def keyOwner (keyUrl : String) : Handler String := do
  let response ← fetchSigned keyUrl
  if response.isSuccess then
    let document ← ofExcept response.json
    let owner := ((document.get "publicKey").bind (·.get "owner")).or (document.get "owner")
    okOr (.federation s!"{keyUrl} names no key owner") (owner.bind Json.asStr)
  else
    throw (.federation
      s!"public key document returned HTTP {ext.displayStatus response.status}")

/-- The actor that owns a key: the one known by the key, the one at the key's URI without
its fragment, or the one that the document at that URI names. -/
def resolveSignerByKeyId (keyId : String) : Handler Actor := do
  let cached ← Repo.findByPublicKeyId keyId
  match cached.filter (!·.isLocal) with
  | some cached => return cached
  | none =>
      let stripped := stripFragment keyId
      let direct ← Fallible.attempt (resolveInboundSigner ext stripped)
      match direct with
      | .ok actor => return actor
      | .error .forbidden => throw .forbidden
      | .error (.database e) => throw (.database e)
      | .error direct =>
          let owner ← Fallible.attempt (keyOwner ext stripped)
          match owner with
          | .ok owner => resolveInboundSigner ext owner
          | .error (.database e) => throw (.database e)
          | .error _ => throw direct

/-! ### Assertion keys -/

/-- Fetch an actor past the cache, store it, and return the key that the verification
method `vmId` names, or else the one that is stored. -/
def refetchAssertionKey (actorUri vmId : String) : Handler (Option String) := do
  let permit ← originFetchPermit
  if permit then
    let signer ← findLocalSigningActor
    let response ← signedGet actorUri signer
    if response.isSuccess then
      let apActor ← ofExcept response.actor
      let remote ← ofExcept (apActorToRemote ext apActor response.url actorUri)
      let named := findMultikey ext (·.id == vmId) apActor
      let remote := { remote with ed25519PublicKey := named.or remote.ed25519PublicKey }
      let _ ← Fallible.attempt (Repo.upsertRemoteActor remote)
      return named.or remote.ed25519PublicKey
    else return none
  else return none

/-- The key of an actor that the verification method `vmId` names, fetched anew; nothing if
that fails. -/
def refreshAssertionKey (actorUri vmId : String) : Handler (Option String) :=
  unwrapOr none (refetchAssertionKey ext actorUri vmId)

end Federation
