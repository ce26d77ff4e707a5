import Noombat.Federation.Effects
import Mathlib.Data.List.Infix

/-!
# Soundness of inbound proofs

When the proof of an inbound document is found valid, its signature was checked under a key
that belongs to the author: one stored for the author, or one that the actor document served
for the author's URI publishes.  What was fetched is read off the record of the run.
-/

namespace Federation

open Fallible Program

/-- The exchanges of a run, the latest first. -/
abbrev Log : Type :=
  List Fed.Exchange

/-- The world of the handlers, with a record of the exchanges. -/
abbrev logged : World Fed (Db × Log) :=
  fedWorld.traced

variable (ext : External)

/-! ### Documents that were served -/

/-- An actor document was served for a URI: it was fetched from there, signed, and it is
entitled to the `id` it claims. -/
def Served (log : Log) (uri : String) (apActor : ApActor) : Prop :=
  ∃ signer response,
    (⟨.signedGet uri signer, .ok response⟩ : Fed.Exchange) ∈ log ∧
      response.actor = .ok apActor ∧ verifyFetchedActorId ext apActor.id response.url uri = .ok ()

/-- An actor document publishes a Multikey. -/
def Publishes (apActor : ApActor) (key : String) : Prop :=
  ∃ m ∈ apActor.assertionMethod.getD [], m.keyType = "Multikey" ∧ m.publicKeyMultibase = key

variable {ext}

theorem Served.mono {log log' : Log} {uri : String} {apActor : ApActor}
    (h : Served ext log uri apActor) (hlog : log <:+ log') :
  Served ext log' uri apActor
  := by
  obtain ⟨signer, response, hmem, hactor, hid⟩ := h
  exact ⟨signer, response, hlog.subset hmem, hactor, hid⟩

theorem publishes_of_findMultikey {p : ApMultikey → Bool} {apActor : ApActor} {key : String}
    (h : findMultikey ext p apActor = some key) :
  Publishes apActor key
  := by
  obtain ⟨m, hm, rfl⟩ := Option.map_eq_some_iff.mp h
  have hp := List.find?_some hm
  simp only [Bool.and_eq_true, beq_iff_eq] at hp
  exact ⟨m, List.mem_of_find?_eq_some hm, hp.1.1, rfl⟩

/-! ### Steps of a recorded run -/

variable {C : Condition logged} {s : Db × Log}

theorem wp_logged_sql (st : Sql) {Post : Except NoombatError st.Result → Db × Log → Prop}
    (h : ∀ c : SqlChoice, C (.sql st) c s →
      Post (fedWorld.exec (.sql st) c s.1).1
        ((fedWorld.exec (.sql st) c s.1).2,
          ⟨.sql st, (fedWorld.exec (.sql st) c s.1).1⟩ :: s.2)) :
  wp logged C Post (sql st).run s
  := (wp_request (FedRequest.sql st) Post s).mpr h

theorem wp_logged_signedGet {url : String} {signer : Uuid}
    {Post : Except NoombatError Response → Db × Log → Prop}
    (h : ∀ r : Except NoombatError Response, C (.signedGet url signer) r s →
      Post r (s.1, ⟨.signedGet url signer, r⟩ :: s.2)) :
  wp logged C Post (signedGet url signer).run s
  := (wp_request (FedRequest.signedGet url signer) Post s).mpr h

theorem wp_logged_originFetchPermit {Post : Except NoombatError Bool → Db × Log → Prop}
    (h : ∀ b : Bool, Post (.ok b) (s.1, ⟨.originFetchPermit, .ok b⟩ :: s.2)) :
  wp logged C Post originFetchPermit.run s
  := (wp_request FedRequest.originFetchPermit Post s).mpr fun b _ => h b

/-- The record of a run only grows. -/
theorem wp_log_grows {α : Type} (p : Program Fed α) (s : Db × Log) :
  wp logged C (fun _ s' => s.2 <:+ s'.2) p s
  := by
  apply Every.wp_rel (G := fun s s' : Db × Log => s.2 <:+ s'.2) _ _ _ (every_true p) s
  · intro s
    apply List.suffix_refl
  · intro s s' s'' h h'
    apply h.trans h'
  · intro q _ c s _
    apply List.suffix_cons

/-! ### The keys under which a document is verified -/

/-- A key is stored for an actor. -/
def Stored (db : Db) (uri key : String) : Prop :=
  ∃ a ∈ db.actors, a.apId = uri ∧ a.ed25519PublicKey = some key

/-- The key that a refresh gives is published by the document served for the actor. -/
theorem wp_refreshAssertionKey (uri vmId : String) :
  wp logged C
    (onExcept
      (fun key s' => ∀ k, key = some k → ∃ apActor, Served ext s'.2 uri apActor ∧
        Publishes apActor k)
      (fun _ _ => True))
    (refreshAssertionKey ext uri vmId).run s
  := by
  unfold refreshAssertionKey
  rw [wp_unwrapOr]
  simp only [onExcept_ok]
  unfold refetchAssertionKey
  rw [wp_run_bind]
  apply wp_logged_originFetchPermit
  intro permit
  rw [onExcept_ok]
  split
  · rw [wp_run_bind]
    apply wp_mono _ (wp_log_grows _ _)
    rintro (e | signer) s₁ _
    · simp [orDefault]
    rw [onExcept_ok, wp_run_bind]
    apply wp_logged_signedGet
    rintro (e | response) _
    · simp [orDefault]
    rw [onExcept_ok]
    split
    · rw [wp_run_bind, wp_ofExcept]
      cases hactor : response.actor with
      | error e => simp [orDefault]
      | ok apActor =>
          rw [onExcept_ok, wp_run_bind, wp_ofExcept]
          cases hremote : apActorToRemote ext apActor response.url uri with
          | error e => simp [orDefault]
          | ok remote =>
              rw [onExcept_ok, wp_run_bind, wp_run_attempt]
              apply wp_mono _ (wp_log_grows _ _)
              intro r s₂ hlog
              rw [onExcept_ok, wp_run_pure]
              intro k hk
              obtain ⟨hid, _, hkey⟩ := of_apActorToRemote hremote
              refine ⟨apActor, ?_, ?_⟩
              · have hserved : Served ext
                    (⟨.signedGet uri signer, .ok response⟩ :: s₁.2) uri apActor :=
                  ⟨signer, response, List.mem_cons_self, hactor, hid⟩
                apply hserved.mono hlog
              · simp only [orDefault, hkey] at hk
                cases hnamed : findMultikey ext (·.id == vmId) apActor with
                | some key =>
                    simp only [hnamed, Option.some_or, Option.some.injEq] at hk
                    rw [← hk]
                    apply publishes_of_findMultikey hnamed
                | none =>
                    simp only [hnamed, Option.none_or] at hk
                    apply publishes_of_findMultikey hk
    · simp [orDefault]
  · simp [orDefault]

/-- The cached key of an actor is stored for it. -/
theorem wp_cachedAssertionKey (uri : String) :
  wp logged C
    (onExcept (fun cached _ => ∀ key, cached = some key → Stored s.1 uri key) (fun _ _ => True))
    (cachedAssertionKey uri).run s
  := by
  unfold cachedAssertionKey
  rw [wp_run_bind, wp_unwrapOr]
  apply wp_logged_sql (.ed25519PublicKeyOf uri)
  intro c _
  rw [onExcept_ok, wp_run_pure]
  intro key hkey
  simp only [fedWorld] at hkey
  split at hkey
  · simp [orDefault] at hkey
  · obtain ⟨a, hfind, hk⟩ := Option.map_eq_some_iff.mp (Option.join_eq_some_iff.mp hkey)
    exact ⟨a, Table.mem_of_find hfind, by simpa using Table.satisfies_of_find hfind, hk⟩

/-- A document that is found valid under a refreshed key was verified under one that the
document served for its signer publishes. -/
theorem wp_verifyRefreshed (document : Json) (signer vmId : String) (cached : Option String) :
  wp logged C
    (onExcept
      (fun verdict s' => verdict = .valid → ∃ key clock, verify ext clock document key = .valid ∧
        ∃ apActor, Served ext s'.2 signer apActor ∧ Publishes apActor key)
      (fun _ _ => True))
    (verifyRefreshed ext document signer vmId cached).run s
  := by
  unfold verifyRefreshed
  rw [wp_run_bind]
  apply wp_mono _ (wp_refreshAssertionKey signer vmId)
  rintro (e | refreshed) s₁ hrefreshed
  · trivial
  rw [onExcept_ok] at hrefreshed ⊢
  cases refreshed with
  | none =>
      rw [wp_run_pure]
      intro h
      split at h <;> cases h
  | some key =>
      obtain ⟨apActor, hserved, hkey⟩ := hrefreshed key rfl
      simp only
      split
      · rw [wp_run_pure]
        intro h
        cases h
      · rw [wp_run_bind]
        apply wp_mono _ (wp_log_grows _ _)
        rintro (e | clock) s₂ hlog
        · trivial
        rw [onExcept_ok, wp_run_pure]
        intro hvalid
        exact ⟨key, clock, hvalid, apActor, hserved.mono hlog, hkey⟩

/-- A document that is found valid was verified under a key stored for its signer or
published by the document served for its signer. -/
theorem wp_verifySigned (document : Json) (signer vmId : String) :
  wp logged C
    (onExcept
      (fun verdict s' => verdict = .valid → ∃ key clock, verify ext clock document key = .valid ∧
        (Stored s.1 signer key ∨
          ∃ apActor, Served ext s'.2 signer apActor ∧ Publishes apActor key))
      (fun _ _ => True))
    (verifySigned ext document signer vmId).run s
  := by
  have hfresh : ∀ cached s', wp logged C
      (onExcept
        (fun verdict s' => verdict = .valid →
          ∃ key clock, verify ext clock document key = .valid ∧
            (Stored s.1 signer key ∨
              ∃ apActor, Served ext s'.2 signer apActor ∧ Publishes apActor key))
        (fun _ _ => True))
      (verifyRefreshed ext document signer vmId cached).run s' := by
    intro cached s'
    apply wp_mono _ (wp_verifyRefreshed document signer vmId cached)
    rintro (e | verdict) s₁ hverdict
    · trivial
    · intro hvalid
      obtain ⟨key, clock, hverify, hkey⟩ := hverdict hvalid
      exact ⟨key, clock, hverify, .inr hkey⟩
  unfold verifySigned
  rw [wp_run_bind]
  apply wp_mono _ (wp_cachedAssertionKey signer)
  rintro (e | cached) s₁ hcached
  · trivial
  rw [onExcept_ok] at hcached ⊢
  rw [wp_run_bind]
  apply wp_mono _ (wp_log_grows _ _)
  rintro (e | clock) s₂ _
  · trivial
  rw [onExcept_ok]
  split
  · rename_i hverdict
    rw [wp_run_pure]
    obtain ⟨key, hkey, hvalid⟩ := Option.map_eq_some_iff.mp hverdict
    intro _
    exact ⟨key, clock, hvalid, .inl (hcached key hkey)⟩
  · rw [wp_run_pure]
    intro h
    cases h
  · apply hfresh
  · apply hfresh

/-- A document whose proof is found valid is signed by its author, under a key that is
stored for the author or was published for the author's URI. -/
theorem wp_verifyInboundProof (document : Json) (expectedAuthor : String) :
  wp logged C
    (onExcept
      (fun verdict s' => verdict = .valid →
        ∃ vmId key clock, extractVerificationMethodId document = some vmId ∧
          sameActorUri ext (stripFragment vmId) expectedAuthor = true ∧
          verify ext clock document key = .valid ∧
          (Stored s.1 (stripFragment vmId) key ∨
            ∃ apActor, Served ext s'.2 (stripFragment vmId) apActor ∧ Publishes apActor key))
      (fun _ _ => True))
    (verifyInboundProof ext document expectedAuthor).run s
  := by
  unfold verifyInboundProof
  split
  · rw [wp_run_pure]
    intro h
    cases h
  · rename_i vmId hvm
    simp only
    split
    · rename_i hsame
      apply wp_mono _ (wp_verifySigned document _ vmId)
      rintro (e | verdict) s' hverdict
      · trivial
      · intro hvalid
        obtain ⟨key, clock, hverify, hkey⟩ := hverdict hvalid
        exact ⟨vmId, key, clock, hvm, hsame, hverify, hkey⟩
    · rw [wp_run_pure]
      intro h
      cases h

/-- The record of the verification of a document. -/
def verificationRun (ext : External) (document : Json) (expectedAuthor : String)
    (script : Script logged) (db : Db) : Except NoombatError VerificationResult × Db × Log :=
  run logged script (verifyInboundProof ext document expectedAuthor).run (db, [])

/-- Alice and Mallory have accounts on one server. -/
def alice : String := "https://social.example/users/alice"

def mallory : String := "https://social.example/users/mallory"

/-- The document of an actor with one key. -/
def actorDocument (id key : String) : ApActor where
  id := id
  actorType := "Person"
  preferredUsername := "user"
  name := none
  summary := none
  inbox := id ++ "/inbox"
  publicKey := ⟨id ++ "#main-key", id, "PEM"⟩
  endpoints := none
  assertionMethod := some [⟨id ++ "#key", "Multikey", id, key⟩]
  discoverable := none
  indexable := none

/-- The server of an actor with one key, which answers every request with the document of
this actor, at its URL. -/
def serveActor (id key : String) (_ : String) : Except NoombatError Response :=
  (Url.parsePlain id).map (fun url =>
    { status := 200
      url
      json := .error (.federation "invalid JSON")
      actor := .ok (actorDocument id key) }) |>.mapError .federation

/-- A proof whose signature is the given one. -/
def proofBy (vmId proofValue : String) : Json :=
  .obj [("cryptosuite", .str cryptosuite), ("proofPurpose", .str proofPurpose),
    ("proofValue", .str proofValue), ("type", .str proofType), ("verificationMethod", .str vmId)]

/-- A note with a proof whose signature is the given one. -/
def signedNote (id author vmId proofValue : String) : Json :=
  .obj [("attributedTo", .str author), ("content", .str "hello"), ("id", .str id),
    ("proof", proofBy vmId proofValue), ("type", .str "Note")]

def keyOfAlice : String := "zalice-alice-alice-alice-alice-al"

def keyOfMallory : String := "zmallory-mallory-mallory-mallory-"

/-- The signature that a key makes. -/
def signatureOf (key : String) : String :=
  key ++ String.ofList (key.toList.drop 1)

/-- A key belongs to an actor: it is stored for the actor, or a document of the actor that
was served publishes it. -/
def Belongs (ext : External) (db : Db) (log : Log) (actor key : String) : Prop :=
  (∃ uri, sameActorUri ext uri actor = true ∧ Stored db uri key) ∨
    ∃ uri apActor, Served ext log uri apActor ∧ sameActorUri ext apActor.id actor = true ∧
      Publishes apActor key

/-- The verification of a note of Alice that Mallory signed, when their server redirects
Alice's URI to Mallory's. -/
def redirectedRun : Except NoombatError VerificationResult × Db × Log :=
  verificationRun .plain
    (signedNote "https://social.example/notes/1" alice (alice ++ "#key")
      (signatureOf keyOfMallory))
    alice (steady (serveActor mallory keyOfMallory)) (dbOf [])

/-- Whether an exchange served the document of an actor. -/
def servesActor (actor : String) (e : Fed.Exchange) : Bool :=
  match e with
  | ⟨.signedGet _ _, .ok response⟩ =>
      match response.actor with
      | .ok apActor => sameActorUri .plain apActor.id actor
      | .error _ => false
  | _ => false

end Federation
