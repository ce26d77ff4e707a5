import Noombat.Federation.ProofSoundness

/-!
# The proof that is selected from a set

A document offers one proof or a set of them.  The first that is of the supported type and suite
is selected, whatever its purpose, and both the verification and the choice of the key speak about
that one.  So entries of other types and suites, and entries that are no proofs at all, come and go
without a difference, and so does whatever follows the selected entry; an entry of the same suite
that stands before it does make one.
-/

namespace Federation

variable (ext : External)

/-- The proofs that a `proof` property offers. -/
def offered : Json → List Json
  | .arr entries => entries
  | single => [single]

/-- The proofs offered that are of the supported type and suite. -/
def supported (proofs : Json) : List Json :=
  (offered proofs).filter ours

/-- A document with some proofs. -/
def withProofs (fields : List (String × Json)) (proofs : Json) : Json :=
  (Json.obj fields).insert "proof" proofs

/-- A document that is canonicalised in order to check a proof. -/
def Fits (document : Json) : Prop :=
  ext.serialisedLen document ≤ maxProofDocumentBytes

/-- A proof shows that the holder of a key asserts a document. -/
structure ShowsAuthorship (clock : Clock) (document proof : Json) (key : String) : Prop where
  signed : signatureVerifies ext document proof key = true
  usable : unusableClaim ext clock proof = none

variable {ext} {fields : List (String × Json)} {proofs proofs' proof : Json} {key : String}

theorem selectProof_withProofs (fields : List (String × Json)) (proofs : Json) :
  selectProof (withProofs fields proofs) = (supported proofs).head?
  := by
  have hget : (withProofs fields proofs).get "proof" = some proofs := Json.get_insert_self rfl
  rw [selectProof, hget, supported]
  cases proofs with
  | arr entries =>
      simp only [offered]
      rw [List.head?_filter]
  | _ =>
      simp only [offered, List.filter_cons, List.filter_nil]
      split
      · rfl
      · rfl

theorem extractVerificationMethodId_withProofs (fields : List (String × Json)) (proofs : Json) :
  extractVerificationMethodId (withProofs fields proofs) =
    (supported proofs).head?.bind (·.getStr "verificationMethod")
  := by
  rw [extractVerificationMethodId, selectProof_withProofs]

/-- What a proof is checked against does not hold the proofs offered. -/
theorem verifyInput_withProofs (ext : External) (fields : List (String × Json))
    (proofs proofs' proof : Json) :
  verifyInput ext (withProofs fields proofs) proof =
    verifyInput ext (withProofs fields proofs') proof
  := by
  have hremove (p : Json) :
      (withProofs fields p).remove "proof" = (Json.obj fields).remove "proof" :=
    Json.remove_insert_self "proof" _ p
  have hcontext (p : Json) :
      (withProofs fields p).get "@context" = (Json.obj fields).get "@context" :=
    Json.get_insert_of_ne (by decide) _ p
  rw [verifyInput, verifyInput, hremove, hremove, proofConfig, proofConfig, hcontext, hcontext]

theorem signatureVerifies_withProofs (ext : External) (fields : List (String × Json))
    (proofs proofs' proof : Json) (key : String) :
  signatureVerifies ext (withProofs fields proofs) proof key =
    signatureVerifies ext (withProofs fields proofs') proof key
  := by
  rw [signatureVerifies, signatureVerifies, verifyInput_withProofs ext fields proofs proofs']

/-- The outcome for a document is that for the proof that is selected. -/
theorem verify_of_selected {clock : Clock} {document : Json}
    (hselected : selectProof document = some proof) (hfits : Fits ext document) :
  verify ext clock document key =
    if signatureVerifies ext document proof key then
      if unusableClaim ext clock proof = none then .valid else .absent
    else .invalid
  := by
  rw [verify, hselected]
  simp only [if_neg (Nat.not_lt_of_le hfits)]
  split
  · cases unusableClaim ext clock proof with
    | none => rfl
    | some reason => rfl
  · rfl

theorem verify_absent_of_unsupported {clock : Clock} (h : supported proofs = []) :
  verify ext clock (withProofs fields proofs) key = .absent
  := by
  rw [verify, selectProof_withProofs, h]
  rfl

/-- The outcome and the key that is asked for depend on the first supported proof alone. -/
theorem verify_of_same_first {clock : Clock}
    (hfirst : (supported proofs').head? = (supported proofs).head?)
    (hfits : Fits ext (withProofs fields proofs)) (hfits' : Fits ext (withProofs fields proofs')) :
  verify ext clock (withProofs fields proofs') key =
      verify ext clock (withProofs fields proofs) key ∧
    extractVerificationMethodId (withProofs fields proofs') =
      extractVerificationMethodId (withProofs fields proofs)
  := by
  constructor
  · cases hselected : (supported proofs).head? with
    | none =>
        rw [hselected] at hfirst
        rw [verify_absent_of_unsupported (List.head?_eq_none_iff.mp hfirst),
          verify_absent_of_unsupported (List.head?_eq_none_iff.mp hselected)]
    | some proof =>
        rw [hselected] at hfirst
        rw [← selectProof_withProofs fields] at hselected hfirst
        rw [verify_of_selected hfirst hfits', verify_of_selected hselected hfits,
          signatureVerifies_withProofs ext fields proofs' proofs]
  · rw [extractVerificationMethodId_withProofs, extractVerificationMethodId_withProofs, hfirst]

/-- Of sets with one supported proof, all orders have the same supported proofs. -/
theorem supported_of_perm {entries entries' : List Json} (hperm : entries.Perm entries')
    (hone : (supported (.arr entries)).length ≤ 1) :
  supported (.arr entries') = supported (.arr entries)
  := by
  have hfilter : (supported (.arr entries)).Perm (supported (.arr entries')) := hperm.filter ours
  match h : supported (.arr entries), hone with
  | [], _ =>
      rw [h] at hfilter
      exact List.nil_perm.mp hfilter
  | [proof], _ =>
      rw [h] at hfilter
      exact (List.singleton_perm.mp hfilter).symm

/-- Without a supported proof none was offered.  Otherwise the key is asked for and the outcome
reached for the first supported proof alone; they stay the same whatever else is added, removed or
moved, and in whatever order a set with one supported proof is, as long as the document is not too
large. -/
theorem proof_selection_stable (ext : External) (clock : Clock) (fields : List (String × Json))
    (proofs : Json) (key : String) :
  (supported proofs = [] →
      verify ext clock (withProofs fields proofs) key = .absent ∧
        extractVerificationMethodId (withProofs fields proofs) = none) ∧
    (∀ proof, (supported proofs).head? = some proof →
      extractVerificationMethodId (withProofs fields proofs) = proof.getStr "verificationMethod" ∧
        (Fits ext (withProofs fields proofs) →
          (verify ext clock (withProofs fields proofs) key = .valid ↔
            ShowsAuthorship ext clock (withProofs fields proofs) proof key))) ∧
    ∀ proofs', (supported proofs').head? = (supported proofs).head? ∨
        (∃ entries entries', proofs = .arr entries ∧ proofs' = .arr entries' ∧
          entries.Perm entries' ∧ (supported proofs).length ≤ 1) →
      Fits ext (withProofs fields proofs) → Fits ext (withProofs fields proofs') →
        verify ext clock (withProofs fields proofs') key =
            verify ext clock (withProofs fields proofs) key ∧
          extractVerificationMethodId (withProofs fields proofs') =
            extractVerificationMethodId (withProofs fields proofs)
  := by
  refine ⟨?_, ?_, ?_⟩
  · intro hnone
    constructor
    · apply verify_absent_of_unsupported hnone
    · rw [extractVerificationMethodId_withProofs, hnone]
      rfl
  · intro proof hfirst
    constructor
    · rw [extractVerificationMethodId_withProofs, hfirst]
      rfl
    · intro hfits
      rw [verify_valid_iff]
      rw [← selectProof_withProofs fields] at hfirst
      constructor
      · rintro ⟨proof', hselected, -, hsigned, husable⟩
        obtain rfl := Option.some.inj (hselected.symm.trans hfirst)
        exact ⟨hsigned, husable⟩
      · intro h
        exact ⟨proof, hfirst, hfits, h.signed, h.usable⟩
  · intro proofs' hsame hfits hfits'
    apply verify_of_same_first _ hfits hfits'
    obtain hfirst | ⟨entries, entries', rfl, rfl, hperm, hone⟩ := hsame
    · exact hfirst
    · rw [supported_of_perm hperm hone]

/-! ### A proof of the same suite before it -/

/-- The proof of Alice for her note. -/
def proofOfAlice : Json :=
  proofBy (alice ++ "#key") (signatureOf keyOfAlice)

/-- A proof of the suite that Alice made for another purpose. -/
def authenticationOfAlice : Json :=
  proofOfAlice.insert "proofPurpose" (.str "authentication")

/-- An entry of the suite without a signature. -/
def unsignedEntry : Json :=
  proofOfAlice.remove "proofValue"

/-- The note of Alice. -/
def noteFields : List (String × Json) :=
  [("attributedTo", .str alice), ("content", .str "hello"),
    ("id", .str "https://social.example/notes/1"), ("type", .str "Note")]

/-- The outcome for the note of Alice with some proofs. -/
def noteOutcome (entries : List Json) : VerificationResult :=
  verify .plain ⟨0, 0⟩ (withProofs noteFields (.arr entries)) keyOfAlice

/-- A valid proof counts for nothing behind one of the same suite that was made for another purpose
or has no signature. -/
theorem foreign_proof_hides_valid :
  noteOutcome [proofOfAlice] = .valid ∧
    noteOutcome [authenticationOfAlice, proofOfAlice] = .absent ∧
    noteOutcome [unsignedEntry, proofOfAlice] = .invalid
  := by
  decide +kernel

end Federation
