import Noombat.Federation.Types

/-!
# Integrity proofs

The verification of the proofs, of the suite `eddsa-jcs-2022`, that documents carry.
-/

namespace Federation

open Text

def cryptosuite : String := "eddsa-jcs-2022"

def proofType : String := "DataIntegrityProof"

def proofPurpose : String := "assertionMethod"

/-- The largest document that is canonicalised in order to check a proof. -/
def maxProofDocumentBytes : Nat := 1024 * 1024

/-- How far ahead of the clock the creation of a proof may be dated. -/
def createdSkewTolerance : DateTime := 5 * 60 * 1000000000

inductive VerificationResult where
  | valid
  | invalid
  | absent
  deriving DecidableEq, Repr

/-- The two readings of the clock that a verification may make. -/
structure Clock where
  atExpires : DateTime
  atCreated : DateTime

/-! ### The proof of a document -/

/-- Whether a proof is of the supported type and suite. -/
def ours (candidate : Json) : Bool :=
  candidate.isObject && candidate.getStr "type" == some proofType &&
    candidate.getStr "cryptosuite" == some cryptosuite

/-- The supported proof of a document, from a `proof` that is an object or a set. -/
def selectProof (document : Json) : Option Json :=
  match document.get "proof" with
  | none => none
  | some (.arr entries) => entries.find? ours
  | some single => if ours single then some single else none

/-- The `verificationMethod` of the supported proof of a document. -/
def extractVerificationMethodId (activity : Json) : Option String :=
  (selectProof activity).bind (·.getStr "verificationMethod")

variable (ext : External)

/-! ### Encodings -/

/-- The bytes of an Ed25519 public key, encoded with a multicodec prefix or without. -/
def decodeMultibasePublicKey (multibase : String) : Option Bytes := do
  let raw ← stripPrefix "z" multibase
  let decoded ← ext.base58Decode raw
  if decoded.length = 34 ∧ decoded.take 2 = [0xed, 0x01] then some (decoded.drop 2)
  else if decoded.length = 32 then some decoded
  else none

/-- Whether a string decodes as an Ed25519 public key. -/
def isEd25519Multikey (multibase : String) : Bool :=
  (decodeMultibasePublicKey ext multibase).isSome

/-- The bytes of an Ed25519 signature. -/
def decodeMultibaseSignature (multibase : String) : Option Bytes := do
  let raw ← stripPrefix "z" multibase
  let decoded ← ext.base58Decode raw
  if decoded.length = 64 then some decoded else none

/-! ### Verification -/

/-- Why a proof whose signature verifies is not usable evidence of authorship. -/
def unusableClaim (clock : Clock) (proof : Json) : Option String :=
  if proof.getStr "proofPurpose" ≠ some proofPurpose then
    some "proofPurpose is not assertionMethod"
  else
    let expired := (proof.getStr "expires").bind fun expires =>
      match ext.parseFromRfc3339 expires with
      | some deadline => if clock.atExpires > deadline then some "proof has expired" else none
      | none => some "proof has an unparseable expires"
    let future := (proof.getStr "created").bind fun created =>
      match ext.parseFromRfc3339 created with
      | some stamp =>
          if stamp > clock.atCreated + createdSkewTolerance then
            some "proof is dated in the future"
          else none
      | none => none
    expired.or future

/-- The configuration that a proof commits to: the proof without its value, in the context
of the document if it has none of its own. -/
def proofConfig (activity proof : Json) : Json :=
  let config := proof.remove "proofValue"
  match config.get "@context", activity.get "@context" with
  | none, some ctx => config.insert "@context" ctx
  | _, _ => config

/-- The message that the signature of a proof is over: the hash of the configuration and
that of the document without its proof. -/
def verifyInput (activity proof : Json) : Option Bytes := do
  let canonicalDoc ← (ext.jcsCanonicalise (activity.remove "proof")).toOption
  let canonicalProofConfig ← (ext.jcsCanonicalise (proofConfig activity proof)).toOption
  some (ext.sha256 (asBytes canonicalProofConfig) ++ ext.sha256 (asBytes canonicalDoc))

/-- Whether the signature of a proof verifies over a document under a public key. -/
def signatureVerifies (activity proof : Json) (publicKeyMultibase : String) : Bool :=
  let verdict : Option Bool := do
    let proofValue ← proof.getStr "proofValue"
    let signature ← decodeMultibaseSignature ext proofValue
    let publicKey ← decodeMultibasePublicKey ext publicKeyMultibase
    let input ← verifyInput ext activity proof
    some (ext.verifyingKey publicKey && ext.ed25519Verify publicKey input signature)
  verdict.getD false

/-- Verify the proof of a document under the public key of its claimed author. -/
def verify (clock : Clock) (activity : Json) (publicKeyMultibase : String) :
    VerificationResult :=
  match selectProof activity with
  | none => .absent
  | some proof =>
      if ext.serialisedLen activity > maxProofDocumentBytes then .invalid
      else if signatureVerifies ext activity proof publicKeyMultibase then
        match unusableClaim ext clock proof with
        | some _ => .absent
        | none => .valid
      else .invalid

/-- A signature that verifies is over the message that the document and its proof give. -/
theorem signatureVerifies_iff {activity proof : Json} {key : String} :
  signatureVerifies ext activity proof key = true ↔
    ∃ proofValue signature publicKey input, proof.getStr "proofValue" = some proofValue ∧
      decodeMultibaseSignature ext proofValue = some signature ∧
      decodeMultibasePublicKey ext key = some publicKey ∧
      verifyInput ext activity proof = some input ∧ ext.verifyingKey publicKey = true ∧
      ext.ed25519Verify publicKey input signature = true
  := by
  rw [signatureVerifies]
  cases hvalue : proof.getStr "proofValue" with
  | none => simp
  | some proofValue =>
      cases hsignature : decodeMultibaseSignature ext proofValue with
      | none => simp [hsignature]
      | some signature =>
          cases hkey : decodeMultibasePublicKey ext key with
          | none => simp
          | some publicKey =>
              cases hinput : verifyInput ext activity proof with
              | none => simp
              | some input => simp [hsignature]

/-- A document is valid just when it has a supported proof, is not too large, and the proof
is a usable claim whose signature verifies. -/
theorem verify_valid_iff {clock : Clock} {activity : Json} {key : String} :
  verify ext clock activity key = .valid ↔
    ∃ proof, selectProof activity = some proof ∧
      ext.serialisedLen activity ≤ maxProofDocumentBytes ∧
      signatureVerifies ext activity proof key = true ∧ unusableClaim ext clock proof = none
  := by
  unfold verify
  cases selectProof activity with
  | none => simp
  | some proof =>
      by_cases hlen : ext.serialisedLen activity > maxProofDocumentBytes
      · simp [hlen, Nat.not_le_of_gt hlen]
      · have hle := Nat.le_of_not_gt hlen
        cases hsig : signatureVerifies ext activity proof key <;>
          cases hclaim : unusableClaim ext clock proof <;> simp [hlen, hle, hsig, hclaim]

end Federation
