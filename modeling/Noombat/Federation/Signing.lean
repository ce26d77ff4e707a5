import Noombat.Federation.IntegrityProof

/-!
# Signing

The proofs that this instance attaches to its documents, and that they verify.
-/

namespace Federation

open Text

/-- The libraries with what signing relies on. -/
structure SigningExternal extends External where
  base58Encode : Bytes → String
  /-- The bytes that a standard Base64 text encodes, or the text of the error. -/
  base64Decode : String → Except String Bytes
  /-- The public key of a signing key. -/
  verifyingKeyOf : Bytes → Bytes
  ed25519Sign : (key message : Bytes) → Bytes
  /-- A moment as `%Y-%m-%dT%H:%M:%SZ`. -/
  formatCreated : DateTime → String

/-- Base58 decoding inverts encoding, and signatures verify under the public key. -/
structure SigningExternal.Lawful (ext : SigningExternal) : Prop where
  base58 : ∀ bytes, ext.base58Decode (ext.base58Encode bytes) = some bytes
  publicKey_length : ∀ key, key.length = 32 → (ext.verifyingKeyOf key).length = 32
  publicKey_valid : ∀ key, key.length = 32 → ext.verifyingKey (ext.verifyingKeyOf key) = true
  signature_length : ∀ key message, key.length = 32 → (ext.ed25519Sign key message).length = 64
  verifies : ∀ key message, key.length = 32 →
    ext.ed25519Verify (ext.verifyingKeyOf key) message (ext.ed25519Sign key message) = true

def dataIntegrityContext : String := "https://w3id.org/security/data-integrity/v1"

/-- Assign to an entry, which makes an object of `null` and panics at what is no object. -/
def assign (key : String) (j value : Json) : Option Json :=
  match j with
  | .null => some (.obj [(key, value)])
  | .obj _ => some (j.insert key value)
  | _ => none

/-- Add the Data Integrity context to the `@context` of a document. -/
def ensureDataIntegrityContext (activity : Json) : Option Json :=
  match activity.get "@context" with
  | none => assign "@context" activity (.arr [.str dataIntegrityContext])
  | some (.arr entries) =>
      if entries.any fun v => v.asStr == some dataIntegrityContext then some activity
      else some (activity.insert "@context" (.arr (entries ++ [.str dataIntegrityContext])))
  | some existing =>
      some (activity.insert "@context" (.arr [existing, .str dataIntegrityContext]))

section Sign

variable (ext : SigningExternal)

/-- The value that a signing key gives a proof with a configuration, for a document without
its proof. -/
def proofValueOf (signingKey : Bytes) (canonicalDoc canonicalProofConfig : String) :
    String :=
  "z" ++ ext.base58Encode (ext.ed25519Sign signingKey
    (ext.sha256 (asBytes canonicalProofConfig) ++ ext.sha256 (asBytes canonicalDoc)))

def jcsError (e : String) : NoombatError :=
  .internal s!"JCS canonicalisation failed: {e}"

/-- Attach a proof of the given configuration to a document: what is reported, and what the
document has become.  There is no result if the program panics. -/
def signWithConfig (activity : Json) (signingKey : Bytes) (proofConfig : Json) :
    Option (Except NoombatError Unit × Json) := do
  let activity ← ensureDataIntegrityContext activity
  if activity.isObject then
    let unsignedDoc := activity.remove "proof"
    let proofConfig ← match unsignedDoc.get "@context" with
      | some ctx => assign "@context" proofConfig ctx
      | none => some proofConfig
    match ext.jcsCanonicalise unsignedDoc, ext.jcsCanonicalise proofConfig with
    | .error e, _ => some (.error (jcsError e), activity)
    | .ok _, .error e => some (.error (jcsError e), activity)
    | .ok canonicalDoc, .ok canonicalProofConfig =>
        let proofConfig ← assign "proofValue" proofConfig
          (.str (proofValueOf ext signingKey canonicalDoc canonicalProofConfig))
        let activity ← assign "proof" activity (proofConfig.remove "@context")
        some (.ok (), activity)
  else some (.error (.internal "activity is not a JSON object"), activity)

/-- The configuration of the proofs that this instance makes. -/
def standardConfig (verificationMethodId created : String) : Json :=
  .obj [("type", .str proofType), ("cryptosuite", .str cryptosuite),
    ("verificationMethod", .str verificationMethodId), ("proofPurpose", .str proofPurpose),
    ("created", .str created)]

/-- Attach a proof that is made now. -/
def sign (now : DateTime) (activity : Json) (signingKey : Bytes)
    (verificationMethodId : String) : Option (Except NoombatError Unit × Json) :=
  signWithConfig ext activity signingKey
    (standardConfig verificationMethodId (ext.formatCreated now))

/-- The verification method of the Ed25519 key of a local actor. -/
def verificationMethodId (actorApId : String) : String :=
  s!"{actorApId}#ed25519-key"

def decodePrivateKeyBase64 (base64Str : String) : Except NoombatError Bytes :=
  match ext.base64Decode base64Str with
  | .error e => .error (.internal s!"Ed25519 private key Base64 decode: {e}")
  | .ok bytes =>
      if bytes.length = 32 then .ok bytes
      else .error (.internal
        s!"Ed25519 private key has unexpected length {bytes.length} (expected 32)")

/-- Attach a proof with the stored key of an actor: whether one was attached, and what the
document has become. -/
def signAsActor (now : DateTime) (document : Json) (ed25519PrivateBase64 actorApId : String) :
    Option (Bool × Json) :=
  match decodePrivateKeyBase64 ext ed25519PrivateBase64 with
  | .error _ => some (false, document)
  | .ok signingKey => do
      let (outcome, document) ← sign ext now document signingKey (verificationMethodId actorApId)
      some (outcome.toOption.isSome, document)

/-- The public key of a signing key, in the encoding in which it is published. -/
def publicMultibase (signingKey : Bytes) : String :=
  "z" ++ ext.base58Encode (ext.verifyingKeyOf signingKey)

/-- How a document gets a proof that was made under a signing key and dated: with a chosen
configuration, now, or with the stored key of an actor. -/
inductive Signs (activity : Json) : (signingKey : Bytes) → (created : String) → Json → Prop
  | withConfig {signingKey : Bytes} (method : String) {created : String} {signed : Json} :
      signWithConfig ext activity signingKey (standardConfig method created) =
        some (.ok (), signed) → Signs activity signingKey created signed
  | now {signingKey : Bytes} (now : DateTime) (method : String) {signed : Json} :
      sign ext now activity signingKey method = some (.ok (), signed) →
        Signs activity signingKey (ext.formatCreated now) signed
  | asActor {signingKey : Bytes} (now : DateTime) (base64Str actorApId : String) {signed : Json} :
      decodePrivateKeyBase64 ext base64Str = .ok signingKey →
        signAsActor ext now activity base64Str actorApId = some (true, signed) →
        Signs activity signingKey (ext.formatCreated now) signed

end Sign

/-! ### What signing does to a document -/

/-- The entries of a `@context`, of which one that is no array is the only entry. -/
def contextEntries : Option Json → List Json
  | none => []
  | some (.arr entries) => entries
  | some existing => [existing]

@[simp]
theorem assign_of_isObject {key : String} {j value : Json} (h : j.isObject = true) :
  assign key j value = some (j.insert key value)
  := by
  cases j with
  | obj fields => rfl
  | _ => cases h

section Documents

variable {activity extended proof config : Json}

/-- The context of an object is extended by the Data Integrity context, and nothing else is
changed. -/
theorem ensureDataIntegrityContext_spec (hobject : activity.isObject = true)
    (h : ensureDataIntegrityContext activity = some extended) :
  extended.isObject = true ∧ extended.remove "@context" = activity.remove "@context" ∧
    ∃ added, extended.get "@context" =
        some (.arr (contextEntries (activity.get "@context") ++ added)) ∧
      (added = [] ∨ added = [.str dataIntegrityContext]) ∧
      .str dataIntegrityContext ∈ contextEntries (activity.get "@context") ++ added
  := by
  -- What is inserted is the extended context.
  have hinserted (ctx : Json) : (activity.insert "@context" ctx).isObject = true ∧
      (activity.insert "@context" ctx).remove "@context" = activity.remove "@context" ∧
      (activity.insert "@context" ctx).get "@context" = some ctx :=
    ⟨(Json.isObject_insert _ _ _).trans hobject, Json.remove_insert_self _ _ _,
      Json.get_insert_self hobject⟩
  rw [ensureDataIntegrityContext] at h
  split at h
  next hnone =>
    rw [assign_of_isObject hobject] at h
    obtain rfl := Option.some.inj h
    obtain ⟨hobj, hrest, hctx⟩ := hinserted (.arr [.str dataIntegrityContext])
    refine ⟨hobj, hrest, [.str dataIntegrityContext], ?_, .inr rfl, ?_⟩
    · rw [hctx, hnone, contextEntries, List.nil_append]
    · simp
  next entries hentries =>
    split at h
    next hpresent =>
      obtain rfl := Option.some.inj h
      obtain ⟨entry, hentry, hstr⟩ := List.any_eq_true.mp hpresent
      have hthere : entry = .str dataIntegrityContext := by
        cases entry with
        | str s => simpa [Json.asStr] using hstr
        | _ => simp [Json.asStr] at hstr
      rw [hthere] at hentry
      refine ⟨hobject, rfl, [], ?_, .inl rfl, ?_⟩
      · rw [hentries, contextEntries, List.append_nil]
      · rw [hentries, contextEntries, List.append_nil]
        exact hentry
    next =>
      obtain rfl := Option.some.inj h
      obtain ⟨hobj, hrest, hctx⟩ := hinserted (.arr (entries ++ [.str dataIntegrityContext]))
      refine ⟨hobj, hrest, [.str dataIntegrityContext], ?_, .inr rfl, ?_⟩
      · rw [hctx, hentries, contextEntries]
      · simp
  next existing hnotArray hexisting =>
    obtain rfl := Option.some.inj h
    obtain ⟨hobj, hrest, hctx⟩ := hinserted (.arr [existing, .str dataIntegrityContext])
    have hentries : contextEntries (some existing) = [existing] := by
      cases existing with
      | arr entries => exact absurd rfl (hnotArray entries)
      | _ => rfl
    refine ⟨hobj, hrest, [.str dataIntegrityContext], ?_, .inr rfl, ?_⟩
    · rw [hctx, hexisting, hentries]
      rfl
    · simp

/-- The proof that is embedded in a document: the configuration with the value, in no
context. -/
def embedded (config ctx value : Json) : Json :=
  ((config.insert "@context" ctx).insert "proofValue" value).remove "@context"

/-- The verifier finds the configuration that was signed. -/
theorem proofConfig_embedded {ctx value : Json} (hctx : extended.get "@context" = some ctx)
    (hnone : config.get "proofValue" = none) :
  proofConfig (extended.insert "proof" (embedded config ctx value)) (embedded config ctx value) =
    config.insert "@context" ctx
  := by
  have hconfig : (embedded config ctx value).remove "proofValue" = config.remove "@context" := by
    rw [embedded, Json.remove_comm, Json.remove_insert_self,
      Json.remove_insert_of_ne (by decide), Json.remove_insert_self,
      Json.remove_of_get_none hnone]
  have hdocument : (extended.insert "proof" (embedded config ctx value)).get "@context" =
      some ctx := by
    rw [Json.get_insert_of_ne (by decide), hctx]
  rw [proofConfig, hconfig, Json.get_remove_self, hdocument]
  exact Json.insert_remove_self _ _ _

/-- An entry of the embedded proof is that of the configuration. -/
theorem getStr_embedded {ctx value : Json} {key : String} (hcontext : key ≠ "@context")
    (hvalue : key ≠ "proofValue") :
  (embedded config ctx value).getStr key = config.getStr key
  := by
  rw [embedded, Json.getStr_remove_of_ne hcontext, Json.getStr_insert_of_ne hvalue,
    Json.getStr_insert_of_ne hcontext]

theorem isObject_of_ours (h : ours config = true) :
  config.isObject = true
  := by
  simp only [ours, Bool.and_eq_true] at h
  exact h.1.1

theorem ours_embedded {ctx value : Json} (h : ours config = true) :
  ours (embedded config ctx value) = true
  := by
  have hobject : (embedded config ctx value).isObject = true := by
    rw [embedded, Json.isObject_remove, Json.isObject_insert, Json.isObject_insert]
    exact isObject_of_ours h
  rw [ours, isObject_of_ours h] at h
  rw [ours, hobject, getStr_embedded (by decide) (by decide),
    getStr_embedded (by decide) (by decide), h]

/-- A proof of the supported suite that is not in a set is selected. -/
theorem selectProof_of_get (hget : activity.get "proof" = some proof) (h : ours proof = true) :
  selectProof activity = some proof
  := by
  have hobject := isObject_of_ours h
  rw [selectProof, hget]
  cases proof with
  | obj fields => exact if_pos h
  | _ => cases hobject

end Documents

section Sign

variable {ext : SigningExternal} {activity config signed : Json} {signingKey : Bytes}

/-- A signed document is the document in the extended context with the embedded proof, whose
value is a signature of the canonical texts. -/
theorem signWithConfig_spec (hobject : activity.isObject = true)
    (hconfig : config.isObject = true)
    (h : signWithConfig ext activity signingKey config = some (.ok (), signed)) :
  ∃ extended ctx canonicalDoc canonicalProofConfig,
    ensureDataIntegrityContext activity = some extended ∧ extended.get "@context" = some ctx ∧
    ext.jcsCanonicalise (extended.remove "proof") = .ok canonicalDoc ∧
    ext.jcsCanonicalise (config.insert "@context" ctx) = .ok canonicalProofConfig ∧
    signed = extended.insert "proof" (embedded config ctx
      (.str (proofValueOf ext signingKey canonicalDoc canonicalProofConfig)))
  := by
  rw [signWithConfig] at h
  cases hextended : ensureDataIntegrityContext activity with
  | none => simp [hextended] at h
  | some extended =>
      obtain ⟨hobj, _, added, hctx, _⟩ := ensureDataIntegrityContext_spec hobject hextended
      generalize Json.arr (contextEntries (activity.get "@context") ++ added) = ctx at hctx
      have hunsigned : (extended.remove "proof").get "@context" = some ctx := by
        rw [Json.get_remove_of_ne (by decide), hctx]
      simp only [hextended, Option.bind_eq_bind, Option.bind_some, if_pos hobj, hunsigned,
        assign_of_isObject hconfig] at h
      cases hdoc : ext.jcsCanonicalise (extended.remove "proof") with
      | error e => simp [hdoc] at h
      | ok canonicalDoc =>
          cases hcfg : ext.jcsCanonicalise (config.insert "@context" ctx) with
          | error e => simp [hdoc, hcfg] at h
          | ok canonicalProofConfig =>
              have hconfig' : (config.insert "@context" ctx).isObject = true :=
                (Json.isObject_insert _ _ _).trans hconfig
              simp only [hdoc, hcfg, assign_of_isObject hconfig', assign_of_isObject hobj,
                Option.bind_some, Option.some.injEq, Prod.mk.injEq, true_and] at h
              exact ⟨extended, ctx, canonicalDoc, canonicalProofConfig, rfl, hctx, hdoc, hcfg,
                h.symm⟩

/-- Signing extends the context, and attaches a proof if it succeeds. -/
theorem signWithConfig_cases {outcome : Except NoombatError Unit}
    (hobject : activity.isObject = true)
    (h : signWithConfig ext activity signingKey config = some (outcome, signed)) :
  ∃ extended, ensureDataIntegrityContext activity = some extended ∧
    ((∃ e, outcome = .error e ∧ signed = extended) ∨
      ∃ proof, outcome = .ok () ∧ signed = extended.insert "proof" proof)
  := by
  rw [signWithConfig] at h
  obtain ⟨extended, hextended, h⟩ := Option.bind_eq_some_iff.mp h
  obtain ⟨hobj, _, added, hadded, _⟩ := ensureDataIntegrityContext_spec hobject hextended
  have hunsigned : (extended.remove "proof").get "@context" = _ :=
    (Json.get_remove_of_ne (by decide) extended).trans hadded
  use extended, hextended
  rw [if_pos hobj] at h
  dsimp only at h
  rw [hunsigned] at h
  obtain ⟨config', _, h⟩ := Option.bind_eq_some_iff.mp h
  split at h
  · cases h
    exact .inl ⟨_, rfl, rfl⟩
  · cases h
    exact .inl ⟨_, rfl, rfl⟩
  · obtain ⟨valued, _, h⟩ := Option.bind_eq_some_iff.mp h
    rw [assign_of_isObject hobj] at h
    cases h
    exact .inr ⟨_, rfl, rfl⟩

/-- Signing, even if it fails, changes no entry but the context, and the proof if it attaches
one. -/
theorem get_signAsActor {now : DateTime} {base64Str actorApId : String} {made : Bool}
    (hobject : activity.isObject = true)
    (h : signAsActor ext now activity base64Str actorApId = some (made, signed)) {key : String}
    (hcontext : key ≠ "@context") (hproof : key = "proof" → made = false) :
  signed.get key = activity.get key
  := by
  rw [signAsActor] at h
  split at h
  · cases h
    rfl
  · obtain ⟨⟨outcome, document⟩, hsign, h⟩ := Option.bind_eq_some_iff.mp h
    cases h
    obtain ⟨extended, hextended, hresult⟩ := signWithConfig_cases hobject hsign
    obtain ⟨_, hrest, _⟩ := ensureDataIntegrityContext_spec hobject hextended
    have hkept : extended.get key = activity.get key := by
      rw [← Json.get_remove_of_ne hcontext extended, hrest, Json.get_remove_of_ne hcontext]
    obtain ⟨e, _, rfl⟩ | ⟨proof, rfl, rfl⟩ := hresult
    · exact hkept
    · have hother : key ≠ "proof" := by
        intro hkey
        cases hproof hkey
      rw [Json.get_insert_of_ne hother]
      exact hkept

/-- The signature of a proof of the supported suite verifies. -/
theorem signed_signatureVerifies (hlawful : ext.Lawful) (hkey : signingKey.length = 32)
    (hobject : activity.isObject = true) (hours : ours config = true)
    (hnone : config.get "proofValue" = none)
    (h : signWithConfig ext activity signingKey config = some (.ok (), signed)) :
  ∃ proof, selectProof signed = some proof ∧
    signatureVerifies ext.toExternal signed proof (publicMultibase ext signingKey) = true ∧
    ∀ key, key ≠ "@context" → key ≠ "proofValue" → proof.getStr key = config.getStr key
  := by
  obtain ⟨extended, ctx, canonicalDoc, canonicalProofConfig, hextended, hctx, hdoc, hcfg, rfl⟩ :=
    signWithConfig_spec hobject (isObject_of_ours hours) h
  obtain ⟨hobj, _⟩ := ensureDataIntegrityContext_spec hobject hextended
  generalize hvalue : proofValueOf ext signingKey canonicalDoc canonicalProofConfig = value
  have hproof : (extended.insert "proof" (embedded config ctx (.str value))).get "proof" =
      some (embedded config ctx (.str value)) := Json.get_insert_self hobj
  use embedded config ctx (.str value), selectProof_of_get hproof (ours_embedded hours)
  constructor
  · apply (signatureVerifies_iff _).mpr
    have hconfig : (config.insert "@context" ctx).isObject = true :=
      (Json.isObject_insert _ _ _).trans (isObject_of_ours hours)
    have hstr : (embedded config ctx (.str value)).getStr "proofValue" = some value := by
      rw [embedded, Json.getStr_remove_of_ne (by decide), Json.getStr,
        Json.get_insert_self hconfig, Option.bind_some]
      rfl
    have hinput : verifyInput ext.toExternal
        (extended.insert "proof" (embedded config ctx (.str value))) (embedded config ctx (.str value)) =
        some (ext.sha256 (asBytes canonicalProofConfig) ++ ext.sha256 (asBytes canonicalDoc)) := by
      rw [verifyInput, Json.remove_insert_self, hdoc, proofConfig_embedded hctx hnone, hcfg]
      rfl
    refine ⟨value, _, _, _, hstr, ?_, ?_, hinput, hlawful.publicKey_valid signingKey hkey,
      hlawful.verifies signingKey _ hkey⟩
    · rw [← hvalue, decodeMultibaseSignature, proofValueOf, stripPrefix_append, Option.bind_eq_bind, Option.bind_some,
        hlawful.base58, Option.bind_eq_bind, Option.bind_some,
        if_pos (hlawful.signature_length signingKey _ hkey)]
    · have hlength := hlawful.publicKey_length signingKey hkey
      rw [decodeMultibasePublicKey, publicMultibase, stripPrefix_append, Option.bind_eq_bind,
        Option.bind_some, hlawful.base58, Option.bind_eq_bind, Option.bind_some,
        if_neg (by omega), if_pos hlength]
  · intro key hcontext hvalue
    exact getStr_embedded hcontext hvalue

/-- Every way to sign makes a proof of the standard configuration. -/
theorem Signs.standard {created : String} (h : Signs ext activity signingKey created signed) :
  ∃ method, signWithConfig ext activity signingKey (standardConfig method created) =
    some (.ok (), signed)
  := by
  cases h with
  | withConfig method h => exact ⟨method, h⟩
  | now now method h => exact ⟨method, h⟩
  | asActor now base64Str actorApId hkey h =>
      use verificationMethodId actorApId
      rw [signAsActor, hkey] at h
      cases hsign : sign ext now activity signingKey (verificationMethodId actorApId) with
      | none => simp [hsign] at h
      | some result =>
          obtain ⟨outcome, document⟩ := result
          simp only [hsign, Option.bind_eq_bind, Option.bind_some, Option.some.injEq,
            Prod.mk.injEq] at h
          obtain ⟨hok, rfl⟩ := h
          cases outcome with
          | error e => cases hok
          | ok u => exact hsign

end Sign

/-- Whether a verifier takes a proof to be dated in the future. -/
def datedAhead (ext : External) (clock : Clock) (created : String) : Bool :=
  (ext.parseFromRfc3339 created).any (· > clock.atCreated + createdSkewTolerance)

/-- A proof with the entries of the standard configuration is a usable claim unless it is
dated in the future. -/
theorem unusableClaim_standard {ext : External} {clock : Clock} {proof : Json}
    {method created : String}
    (h : ∀ key, key ≠ "@context" → key ≠ "proofValue" →
      proof.getStr key = (standardConfig method created).getStr key) :
  unusableClaim ext clock proof = none ↔ datedAhead ext clock created = false
  := by
  have hpurpose : proof.getStr "proofPurpose" = some proofPurpose :=
    h _ (by decide) (by decide)
  have hexpires : proof.getStr "expires" = none := h _ (by decide) (by decide)
  have hcreated : proof.getStr "created" = some created := h _ (by decide) (by decide)
  simp only [unusableClaim, hpurpose, hexpires, hcreated, datedAhead]
  cases hstamp : ext.parseFromRfc3339 created with
  | none => simp [hstamp]
  | some stamp => by_cases hahead : stamp > clock.atCreated + createdSkewTolerance <;>
      simp [hstamp, hahead]

/-- A document that is signed, whatever its context and the proofs that it has, is as it was
except for its proof and its context, to which at most the Data Integrity context is added;
and it verifies under the public key, unless the verifier takes the proof to be dated in the
future, when it counts as unproven. -/
theorem signed_verifies (ext : SigningExternal) (activity signed : Json) (signingKey : Bytes)
    (created : String) (hlawful : ext.Lawful) (hkey : signingKey.length = 32)
    (hobject : activity.isObject = true) (h : Signs ext activity signingKey created signed)
    (hsize : ext.serialisedLen signed ≤ maxProofDocumentBytes) :
  (∀ clock, datedAhead ext.toExternal clock created = false →
    verify ext.toExternal clock signed (publicMultibase ext signingKey) = .valid) ∧
  (∀ clock, datedAhead ext.toExternal clock created = true →
    verify ext.toExternal clock signed (publicMultibase ext signingKey) = .absent) ∧
  (signed.remove "proof").remove "@context" = (activity.remove "proof").remove "@context" ∧
  ∃ added, signed.get "@context" =
      some (.arr (contextEntries (activity.get "@context") ++ added)) ∧
    (added = [] ∨ added = [.str dataIntegrityContext]) ∧
    .str dataIntegrityContext ∈ contextEntries (activity.get "@context") ++ added
  := by
  obtain ⟨method, h⟩ := h.standard
  obtain ⟨proof, hproof, hsignature, hfields⟩ :=
    signed_signatureVerifies hlawful hkey hobject rfl rfl h
  have hclaim : ∀ clock, unusableClaim ext.toExternal clock proof = none ↔
      datedAhead ext.toExternal clock created = false :=
    fun clock => unusableClaim_standard hfields
  refine ⟨?_, ?_, ?_, ?_⟩
  · intro clock hdated
    exact (verify_valid_iff _).mpr ⟨proof, hproof, hsize, hsignature, (hclaim clock).mpr hdated⟩
  · intro clock hdated
    rw [verify, hproof]
    simp only [if_neg (Nat.not_lt.mpr hsize), if_pos hsignature]
    cases hreason : unusableClaim ext.toExternal clock proof with
    | none =>
        rw [(hclaim clock).mp hreason] at hdated
        cases hdated
    | some reason => rfl
  · obtain ⟨extended, _, _, _, hextended, _, _, _, rfl⟩ := signWithConfig_spec hobject rfl h
    obtain ⟨_, hrest, _⟩ := ensureDataIntegrityContext_spec hobject hextended
    rw [Json.remove_insert_self, Json.remove_comm, hrest, Json.remove_comm]
  · obtain ⟨extended, _, _, _, hextended, _, _, _, rfl⟩ := signWithConfig_spec hobject rfl h
    obtain ⟨_, _, hcontext⟩ := ensureDataIntegrityContext_spec hobject hextended
    rw [Json.get_insert_of_ne (by decide)]
    exact hcontext

/-- Libraries in which a signature is the signing key twice, and texts are bytes. -/
def SigningExternal.plain : SigningExternal :=
  { External.plain with
    serialisedLen _ := 0
    base58Decode s := some (s.toList.map fun c => UInt8.ofNat c.toNat)
    parseFromRfc3339 s := some (3600000000000 * s.length)
    base58Encode bytes := String.ofList (bytes.map fun b => Char.ofNat b.toNat)
    base64Decode s := .ok (asBytes s)
    verifyingKeyOf key := key
    ed25519Sign key _ := key ++ key
    formatCreated _ := "" }

theorem SigningExternal.plain_lawful :
  SigningExternal.plain.Lawful
  := by
  have hbyte (b : UInt8) : UInt8.ofNat (Char.ofNat b.toNat).toNat = b := by
    have hvalid : b.toNat.isValidChar := .inl (by have := b.toNat_lt; omega)
    rw [Char.toNat, Char.ofNat, dif_pos hvalid]
    exact UInt8.ofNat_toNat
  constructor
  · intro bytes
    simp [SigningExternal.plain, Function.comp_def, hbyte]
  · intro key hkey
    exact hkey
  · intro key hkey
    rfl
  · intro key message hkey
    simp [SigningExternal.plain, hkey]
  · intro key message hkey
    simp [SigningExternal.plain, External.plain]

/-- A document in a context that is an object, with a proof of another suite. -/
def contextualNote : Json :=
  .obj [("@context", .obj [("n", .str "u")]), ("content", .str "x"),
    ("proof", .arr [.obj [("type", .str "Other")]])]

def plainKey : Bytes :=
  List.replicate 32 7

def signedContextualNote (created : String) : Json :=
  (signWithConfig .plain contextualNote plainKey (standardConfig "m" created)).elim .null (·.2)

/-- A proof that is dated an hour ahead does not verify under the matching key. -/
theorem future_proof_absent :
  signWithConfig .plain contextualNote plainKey (standardConfig "m" "z") =
    some (.ok (), signedContextualNote "z") ∧
  SigningExternal.plain.serialisedLen (signedContextualNote "z") ≤ maxProofDocumentBytes ∧
  verify SigningExternal.plain.toExternal ⟨0, 0⟩ (signedContextualNote "z")
    (publicMultibase .plain plainKey) = .absent
  := by
  refine ⟨?_, Nat.zero_le _, ?_⟩
  · rfl
  · decide +kernel

/-- A document in a context that is an object verifies once it is signed. -/
theorem signed_verifies_note :
  verify SigningExternal.plain.toExternal ⟨0, 0⟩ (signedContextualNote "")
    (publicMultibase .plain plainKey) = .valid ∧
  ((signedContextualNote "").remove "proof").remove "@context" =
    (contextualNote.remove "proof").remove "@context"
  := by
  obtain ⟨hvalid, _, hrest, _⟩ := signed_verifies .plain contextualNote (signedContextualNote "") plainKey ""
    SigningExternal.plain_lawful rfl rfl (.withConfig "m" rfl) (Nat.zero_le _)
  constructor
  · exact hvalid _ rfl
  · exact hrest

end Federation
