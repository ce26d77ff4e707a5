import Noombat.Federation.IntegrityProof

/-!
# What a proof commits to

Two documents that verify under one public key with one proof value are the same, apart from
their proofs, and so are the configurations of these.  The signature scheme and the hash are
ideal: a signature verifies for one message only, and the texts concerned do not collide.
-/

namespace Federation

open Text

/-- The values that are canonicalised to verify the proof of a document. -/
def canonicalised (activity proof : Json) : List Json :=
  [proofConfig activity proof, activity.remove "proof"]

/-- The libraries are ideal on some values: a signature verifies for one message only, the
canonical texts of the values do not collide, and values with one canonical text are the
same. -/
structure External.IdealOn (ext : External) (values : List Json) : Prop where
  one_message : ∀ key message message' signature, ext.ed25519Verify key message signature = true →
    ext.ed25519Verify key message' signature = true → message = message'
  sha256_length : ∀ bytes, (ext.sha256 bytes).length = 32
  collision_free : ∀ j ∈ values, ∀ j' ∈ values, ∀ text text', ext.jcsCanonicalise j = .ok text →
    ext.jcsCanonicalise j' = .ok text' → ext.sha256 (asBytes text) = ext.sha256 (asBytes text') →
      asBytes text = asBytes text'
  jcs_injective : ∀ j ∈ values, ∀ j' ∈ values, ∀ text, ext.jcsCanonicalise j = .ok text →
    ext.jcsCanonicalise j' = .ok text → j.Same j'

/-- The canonical texts of some values do not collide, and values with one canonical text are
the same. -/
structure External.FaithfulOn (ext : External) (values : List Json) : Prop where
  sha256_length : ∀ bytes, (ext.sha256 bytes).length = 32
  collision_free : ∀ j ∈ values, ∀ j' ∈ values, ∀ text text', ext.jcsCanonicalise j = .ok text →
    ext.jcsCanonicalise j' = .ok text' → ext.sha256 (asBytes text) = ext.sha256 (asBytes text') →
      asBytes text = asBytes text'
  jcs_injective : ∀ j ∈ values, ∀ j' ∈ values, ∀ text, ext.jcsCanonicalise j = .ok text →
    ext.jcsCanonicalise j' = .ok text → j.Same j'

theorem External.IdealOn.faithful {ext : External} {values : List Json}
    (h : ext.IdealOn values) :
  ext.FaithfulOn values
  := ⟨h.sha256_length, h.collision_free, h.jcs_injective⟩

/-- The libraries are ideal on two documents with one proof: a signature verifies for the
message of one of them only, and the messages tell the documents apart. -/
structure External.Distinguishes (ext : External) (activity activity' proof : Json) : Prop where
  one_message : ∀ message message' key signature, verifyInput ext activity proof = some message →
    verifyInput ext activity' proof = some message' →
    ext.ed25519Verify key message signature = true →
    ext.ed25519Verify key message' signature = true → message = message'
  faithful : ext.FaithfulOn (canonicalised activity proof ++ canonicalised activity' proof)

section Commitment

variable {ext : External} {activity activity' proof proof' : Json} {key key' : String}

/-- The message is the hashes of two canonical texts. -/
theorem of_verifyInput {input : Bytes} (h : verifyInput ext activity proof = some input) :
  ∃ configText documentText, ext.jcsCanonicalise (proofConfig activity proof) = .ok configText ∧
    ext.jcsCanonicalise (activity.remove "proof") = .ok documentText ∧
    input = ext.sha256 (asBytes configText) ++ ext.sha256 (asBytes documentText)
  := by
  rw [verifyInput] at h
  cases hdocument : ext.jcsCanonicalise (activity.remove "proof") with
  | error e => simp [hdocument, Except.toOption] at h
  | ok documentText =>
      cases hconfig : ext.jcsCanonicalise (proofConfig activity proof) with
      | error e => simp [hdocument, hconfig, Except.toOption] at h
      | ok configText =>
          simp only [hdocument, hconfig, Except.toOption, Option.bind_eq_bind, Option.bind_some,
            Option.some.injEq] at h
          exact ⟨configText, documentText, rfl, rfl, h.symm⟩

/-- Documents with one message are the same, and so are their proof configurations. -/
theorem same_of_verifyInput {input : Bytes}
    (hideal : ext.FaithfulOn (canonicalised activity proof ++ canonicalised activity' proof'))
    (h : verifyInput ext activity proof = some input)
    (h' : verifyInput ext activity' proof' = some input) :
  (activity.remove "proof").Same (activity'.remove "proof") ∧
    (proofConfig activity proof).Same (proofConfig activity' proof')
  := by
  obtain ⟨configText, documentText, hconfig, hdocument, hinput⟩ := of_verifyInput h
  obtain ⟨configText', documentText', hconfig', hdocument', hinput'⟩ := of_verifyInput h'
  rw [hinput] at hinput'
  obtain ⟨hconfigs, hdocuments⟩ := List.append_inj hinput'
    ((hideal.sha256_length _).trans (hideal.sha256_length _).symm)
  have hconfigTexts := asBytes_injective (hideal.collision_free _ (by simp [canonicalised]) _
    (by simp [canonicalised]) _ _ hconfig hconfig' hconfigs)
  have hdocumentTexts := asBytes_injective (hideal.collision_free _ (by simp [canonicalised]) _
    (by simp [canonicalised]) _ _ hdocument hdocument' hdocuments)
  rw [← hconfigTexts] at hconfig'
  rw [← hdocumentTexts] at hdocument'
  constructor
  · apply hideal.jcs_injective _ _ _ _ _ hdocument hdocument'
    · simp [canonicalised]
    · simp [canonicalised]
  · apply hideal.jcs_injective _ _ _ _ _ hconfig hconfig'
    · simp [canonicalised]
    · simp [canonicalised]

/-- Two documents that one proof verifies for, under one key, are the same without it. -/
theorem same_of_signatureVerifies (hideal : ext.Distinguishes activity activity' proof)
    (h : signatureVerifies ext activity proof key = true)
    (h' : signatureVerifies ext activity' proof key = true) :
  (activity.remove "proof").Same (activity'.remove "proof")
  := by
  obtain ⟨proofValue, signature, publicKey, input, hvalue, hsignature, hkey, hinput, _,
    hsigned⟩ := (signatureVerifies_iff ext).mp h
  obtain ⟨proofValue', signature', publicKey', input', hvalue', hsignature', hkey', hinput', _,
    hsigned'⟩ := (signatureVerifies_iff ext).mp h'
  obtain rfl := Option.some.inj (hvalue.symm.trans hvalue')
  obtain rfl := Option.some.inj (hsignature.symm.trans hsignature')
  obtain rfl := Option.some.inj (hkey.symm.trans hkey')
  obtain rfl := hideal.one_message _ _ _ _ hinput hinput' hsigned hsigned'
  exact (same_of_verifyInput hideal.faithful hinput hinput').1

/-- The configuration of a proof is the proof without its value, up to the context. -/
theorem proofConfig_remove_context (activity proof : Json) :
  (proofConfig activity proof).remove "@context" =
    (proof.remove "proofValue").remove "@context"
  := by
  rw [proofConfig]
  split
  · rw [Json.remove_insert_self]
  · rfl

end Commitment

/-- Two documents that verify under one public key, and whose proofs have one value, are the
same without their proofs; and so are the proofs without their values, in the contexts that
they have or are given. -/
theorem proof_commits (ext : External) (clock clock' : Clock)
    (activity activity' proof proof' : Json) (key key' : String) (hproof : selectProof activity = some proof)
    (hproof' : selectProof activity' = some proof')
    (hvalid : verify ext clock activity key = .valid)
    (hvalid' : verify ext clock' activity' key' = .valid)
    (hkey : decodeMultibasePublicKey ext key = decodeMultibasePublicKey ext key')
    (hvalue : proof.getStr "proofValue" = proof'.getStr "proofValue")
    (hideal : ext.IdealOn (canonicalised activity proof ++ canonicalised activity' proof')) :
  (activity.remove "proof").Same (activity'.remove "proof") ∧
  (proofConfig activity proof).Same (proofConfig activity' proof') ∧
  ((proof.remove "proofValue").remove "@context").Same
    ((proof'.remove "proofValue").remove "@context")
  := by
  obtain ⟨selected, hselected, _, hverifies, _⟩ := (verify_valid_iff ext).mp hvalid
  obtain ⟨selected', hselected', _, hverifies', _⟩ := (verify_valid_iff ext).mp hvalid'
  rw [hproof] at hselected
  rw [hproof'] at hselected'
  cases hselected
  cases hselected'
  obtain ⟨proofValue, signature, publicKey, input, hval, hsignature, hpublicKey, hinput, _,
    hsigned⟩ := (signatureVerifies_iff ext).mp hverifies
  obtain ⟨proofValue', signature', publicKey', input', hval', hsignature', hpublicKey', hinput',
    _, hsigned'⟩ := (signatureVerifies_iff ext).mp hverifies'
  rw [hvalue, hval'] at hval
  cases hval
  rw [hsignature] at hsignature'
  cases hsignature'
  rw [hkey, hpublicKey'] at hpublicKey
  cases hpublicKey
  have hinputs := hideal.one_message _ _ _ _ hsigned hsigned'
  rw [← hinputs] at hinput'
  obtain ⟨hdocuments, hconfigs⟩ := same_of_verifyInput hideal.faithful hinput hinput'
  refine ⟨hdocuments, hconfigs, ?_⟩
  rw [← proofConfig_remove_context activity, ← proofConfig_remove_context activity']
  apply hconfigs.remove

/-- Libraries whose hashes are lengths, and whose signatures are the messages. -/
def External.byLength : External :=
  { External.plain with
    serialisedLen _ := 0
    sha256 bytes := List.replicate 31 0 ++ [UInt8.ofNat bytes.length]
    base58Decode s :=
      if s = "k" then some (List.replicate 32 1)
      else some (List.replicate 31 0 ++ [108] ++ (List.replicate 31 0 ++ [30]))
    ed25519Verify _ message signature := message == signature }

/-- A proof that leaves its context to the document. -/
def briefProof : Json :=
  .obj [("cryptosuite", .str "eddsa-jcs-2022"), ("proofPurpose", .str "assertionMethod"),
    ("proofValue", .str "zs"), ("type", .str "DataIntegrityProof")]

/-- The same proof with its context. -/
def statedProof : Json :=
  briefProof.insert "@context" (.str "c")

def provedNote (proof : Json) : Json :=
  .obj [("@context", .str "c"), ("content", .str "x"), ("proof", proof)]

/-- What is canonicalised of the two notes: one configuration and one document. -/
theorem canonicalised_notes {j : Json}
    (h : j ∈ canonicalised (provedNote briefProof) briefProof ++
      canonicalised (provedNote statedProof) statedProof) :
  j = statedProof.remove "proofValue" ∨ j = (provedNote briefProof).remove "proof"
  := by
  have hvalues : canonicalised (provedNote briefProof) briefProof ++
      canonicalised (provedNote statedProof) statedProof =
      [statedProof.remove "proofValue", (provedNote briefProof).remove "proof",
        statedProof.remove "proofValue", (provedNote briefProof).remove "proof"] := rfl
  rw [hvalues] at h
  simp only [List.mem_cons, List.not_mem_nil, or_false] at h
  tauto

/-- On the values of the two notes, the libraries are ideal. -/
theorem byLength_ideal :
  External.byLength.IdealOn (canonicalised (provedNote briefProof) briefProof ++
    canonicalised (provedNote statedProof) statedProof)
  := by
  have hconfig : External.byLength.sha256 (asBytes (statedProof.remove "proofValue").render) =
      List.replicate 31 0 ++ [108] := by decide +kernel
  have hdocument : External.byLength.sha256
      (asBytes ((provedNote briefProof).remove "proof").render) =
      List.replicate 31 0 ++ [30] := by decide +kernel
  have hsame : ∀ j ∈ canonicalised (provedNote briefProof) briefProof ++
      canonicalised (provedNote statedProof) statedProof,
      ∀ j' ∈ canonicalised (provedNote briefProof) briefProof ++
        canonicalised (provedNote statedProof) statedProof,
      External.byLength.sha256 (asBytes j.render) = External.byLength.sha256 (asBytes j'.render) →
        j = j' := by
    intro j hj j' hj' h
    obtain rfl | rfl := canonicalised_notes hj
    · obtain rfl | rfl := canonicalised_notes hj'
      · rfl
      · rw [hconfig, hdocument] at h
        simp at h
    · obtain rfl | rfl := canonicalised_notes hj'
      · rw [hconfig, hdocument] at h
        simp at h
      · rfl
  constructor
  · intro key message message' signature h h'
    exact (beq_iff_eq.mp h).trans (beq_iff_eq.mp h').symm
  · intro bytes
    simp [External.byLength]
  · intro j hj j' hj' text text' htext htext' h
    cases htext
    cases htext'
    rw [hsame j hj j' hj' h]
  · intro j hj j' hj' text htext htext'
    cases htext
    have hrender : j'.render = j.render := Except.ok.inj htext'
    rw [hsame j hj j' hj' (by rw [hrender])]
    exact Json.Same.refl j'

/-- The two notes, whose proofs differ by a stated context, verify with one signature. -/
theorem proof_commits_notes :
  verify .byLength ⟨0, 0⟩ (provedNote briefProof) "zk" = .valid ∧
  verify .byLength ⟨9, 9⟩ (provedNote statedProof) "zk" = .valid ∧
  ((provedNote briefProof).remove "proof").Same ((provedNote statedProof).remove "proof") ∧
  (proofConfig (provedNote briefProof) briefProof).Same
    (proofConfig (provedNote statedProof) statedProof) ∧
  ((briefProof.remove "proofValue").remove "@context").Same
    ((statedProof.remove "proofValue").remove "@context")
  := by
  have hvalid : verify .byLength ⟨0, 0⟩ (provedNote briefProof) "zk" = .valid := by
    decide +kernel
  have hvalid' : verify .byLength ⟨9, 9⟩ (provedNote statedProof) "zk" = .valid := by
    decide +kernel
  exact ⟨hvalid, hvalid', proof_commits .byLength _ _ _ _ _ _ "zk" "zk" rfl rfl hvalid hvalid' rfl
    rfl byLength_ideal⟩

end Federation
