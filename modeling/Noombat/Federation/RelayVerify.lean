import Noombat.Federation.Resolution

/-!
# Verification of what arrives

The verification of the proofs of inbound documents, the policies under which the activities
that a relay delivers are accepted, and the recognition of relays.
-/

namespace Federation

inductive RelayVerificationPolicy where
  | verify
  | verifyOrFetch
  | trustRelay
  deriving DecidableEq, Repr

def RelayVerificationPolicy.fromStrOpt : String → Option RelayVerificationPolicy
  | "verify" => some verify
  | "verify-or-fetch" => some verifyOrFetch
  | "trust-relay" => some trustRelay
  | _ => none

inductive RelayVerificationOutcome where
  | verified
  | unverified
  | discard
  deriving DecidableEq, Repr

variable (ext : External)

/-! ### Proofs of documents -/

/-- The Ed25519 key cached for an actor. -/
def cachedAssertionKey (actorApId : String) : Handler (Option String) := do
  let row ← unwrapOr none (Repo.ed25519PublicKeyOf actorApId)
  return row.join

/-- Two readings of the clock. -/
def readClock : Handler Clock := do
  let atExpires ← utcNow
  let atCreated ← utcNow
  return ⟨atExpires, atCreated⟩

/-- Verify a document under the key of its signer fetched anew, unless that is the cached
one. -/
def verifyRefreshed (document : Json) (signer vmId : String) (cached : Option String) :
    Handler VerificationResult := do
  let refreshed ← refreshAssertionKey ext signer vmId
  match refreshed with
  | some key =>
      if some key = cached then return .invalid
      else
        let clock ← readClock
        return verify ext clock document key
  | none => return if cached.isNone then .absent else .invalid

/-- Verify a document under the cached key of its signer, if there is one that does not
fail, and otherwise under the key of the signer fetched anew. -/
def verifySigned (document : Json) (signer vmId : String) : Handler VerificationResult := do
  let cached ← cachedAssertionKey signer
  let clock ← readClock
  match cached.map (verify ext clock document) with
  | some .valid => return .valid
  | some .absent => return .absent
  | some .invalid | none => verifyRefreshed ext document signer vmId cached

/-- Verify the proof of an inbound document, which has to be signed by its author. -/
def verifyInboundProof (document : Json) (expectedAuthor : String) :
    Handler VerificationResult :=
  match extractVerificationMethodId document with
  | none => pure .absent
  | some vmId =>
      let signer := stripFragment vmId
      if sameActorUri ext signer expectedAuthor then verifySigned ext document signer vmId
      else pure .invalid

/-! ### Policies -/

/-- Verify the proof of a relayed activity under the cached key of its signer; nothing if
there is no proof or no key. -/
def attemptProofVerification (activity : Json) : Handler (Option Bool) :=
  match extractVerificationMethodId activity with
  | none => pure none
  | some vmId => do
      let publicKey ← cachedAssertionKey (stripFragment vmId)
      let clock ← readClock
      match publicKey.map (verify ext clock activity) with
      | some .valid => return some true
      | some .invalid => return some false
      | some .absent | none => return none

/-- Fetch the object with the given identifier from its origin, and check that it claims
this identifier. -/
def refetchAndVerify (objectId : String) : Handler Bool := do
  let permit ← originFetchPermit
  if permit then
    let signer ← findLocalSigningActor
    let response ← signedGet objectId signer
    if response.isSuccess then
      let originObject ← ofExcept response.json
      return originObject.getStr "id" == some objectId
    else
      throw (.federation
        s!"origin returned HTTP {ext.displayStatus response.status} for {objectId}")
  else
    throw (.federation s!"re-fetch of {objectId} gave up waiting for a concurrency permit")

/-- Whether a relayed activity is accepted, and as what. -/
def verifyRelayedActivity (activity : Json) (policy : RelayVerificationPolicy) :
    Handler RelayVerificationOutcome := do
  let proofResult ← attemptProofVerification ext activity
  match policy, proofResult with
  | _, some true => return .verified
  | _, some false => return .discard
  | .verify, none => return .discard
  | .verifyOrFetch, none =>
      let objectId := (activity.getStr "id").getD "<unknown>"
      let consistent ← unwrapOr false (refetchAndVerify ext objectId)
      return if consistent then .verified else .discard
  | .trustRelay, none => return .unverified

/-! ### Relays -/

/-- Whether an announcing actor is a subscribed relay. -/
def isRelayAnnounce (actorUri : String) : Handler Bool :=
  unwrapOr false (Repo.relayExists s!"{actorUri}/inbox" actorUri)

/-- The policy that the stored one of a relay, if there is a relay, amounts to. -/
def policyOf (defaultPolicy : RelayVerificationPolicy) (stored : Option (Option String)) :
    RelayVerificationPolicy :=
  (stored.join.bind RelayVerificationPolicy.fromStrOpt).getD defaultPolicy

/-- The verification policy in force for a relay. -/
def policyForRelay (defaultPolicy : RelayVerificationPolicy) (actorUri : String) :
    Handler RelayVerificationPolicy := do
  let stored ← unwrapOr none (Repo.relayPolicy s!"{actorUri}/inbox" actorUri)
  return policyOf defaultPolicy stored

/-- Process an `Accept` of an actor that may be a relay, and say whether it is one. -/
def tryHandleRelayAccept (actorUri : String) : Handler Bool := do
  let matchedInbox ← Repo.pendingRelay s!"{actorUri}/inbox" actorUri
  match matchedInbox with
  | some inbox =>
      Repo.markAccepted inbox
      return true
  | none => return false

end Federation
