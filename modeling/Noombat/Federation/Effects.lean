import Noombat.Federation.Inbox

/-!
# What the requests change

Which requests can change actors or posts, and how.  The functions that resolve actors and
verify proofs make few of them: `Every P` is shown of these functions for any `P` that
holds of the requests which look actors up, and of the refreshing of a remote actor.
-/

namespace Federation

open Fallible Program

/-! ### Statements on actors and posts -/

/-- Whether a statement may change actors or posts. -/
def Sql.writesCore : Sql → Bool
  | upsertRemoteActor _ | setMovedTo _ _ | deleteRemoteActor _ | insertRemotePost _
  | insertLocalPost _ | updateRemotePost _ _ _ | deletePost _ | deletePostById _
  | recordVerifiedProof _ _ _ | markRelayedUnverified _ | setCanonicalUri _ _
  | resanitisePost _ _ _ _ => true
  | _ => false

/-- Whether a request may change actors or posts. -/
def FedRequest.writesCore : FedRequest → Bool
  | sql s => s.writesCore
  | _ => false

/-- Whether a request is one of those by which actors are looked up and documents verified:
it reads, or records that an actor is gone. -/
def FedRequest.consults : FedRequest → Bool
  | sql s =>
      match s with
      | .findByApId _ | .findByPublicKeyId _ | .findLocalByUsername _ | .findById _
      | .ed25519PublicKeyOf _ | .signingActor _ | .isTombstoned _ | .insertTombstone _ => true
      | _ => false
  | _ => true

/-- Whether a request makes an actor follow another. -/
def FedRequest.insertsFollow : FedRequest → Bool
  | sql (.insertFollow _) => true
  | _ => false

/-- Whether a request neither writes actors or posts nor makes an actor follow another. -/
def FedRequest.isMinor (q : FedRequest) : Bool :=
  !q.writesCore && !q.insertsFollow

theorem FedRequest.writesCore_of_isMinor {q : FedRequest} (h : q.isMinor = true) :
  q.writesCore = false
  := by
  rw [isMinor, Bool.and_eq_true] at h
  simpa using h.1

theorem FedRequest.isMinor_of_consults {q : FedRequest} (h : q.consults = true) :
  q.isMinor = true
  := by
  cases q with
  | sql s => cases s <;> first | rfl | cases h
  | _ => rfl

theorem FedRequest.writesCore_of_consults {q : FedRequest} (h : q.consults = true) :
  q.writesCore = false
  := writesCore_of_isMinor (isMinor_of_consults h)

/-- What holds of every request that writes neither actors nor posts holds of those that
look actors up. -/
theorem FedRequest.consulting {P : FedRequest → Prop}
    (hread : ∀ q : FedRequest, q.writesCore = false → P q) (q : FedRequest)
    (hq : q.consults = true) :
  P q
  := hread q (writesCore_of_consults hq)

/-- A statement that does not write actors or posts leaves them as they are. -/
theorem Sql.exec_toCore {s : Sql} (h : s.writesCore = false) (pick : Nat) (db : Db) :
  (s.exec pick db).2.toCore = db.toCore
  := by
  cases s with
  | insertTombstone => simp only [exec, Db.insertTombstone]; split <;> rfl
  | insertFollow => simp only [exec, Db.insertFollow]; split_ifs <;> rfl
  | insertBlock => simp only [exec, Db.insertBlock]; split_ifs <;> rfl
  | insertReaction kind =>
      simp only [exec, Db.insertReaction]
      split_ifs <;> cases kind <;> rfl
  | deleteReaction kind => cases kind <;> rfl
  | upsertHashtags => simp only [exec, Db.upsertHashtags]; split <;> rfl
  | linkHashtags => simp only [exec, Db.linkHashtags]; split <;> rfl
  | enqueueDelivery => simp only [exec, Db.enqueueDelivery]; split <;> rfl
  | enqueueUpsert => simp only [exec, Db.enqueueUpsert]; split <;> rfl
  | enqueueMediaFetch => simp only [exec, Db.enqueueMediaFetch]; split_ifs <;> rfl
  | insertReport => simp only [exec, Db.insertReport]; split <;> rfl
  | _ => first | rfl | cases h

/-- A request that does not write actors or posts leaves them as they are. -/
theorem exec_toCore {q : FedRequest} (h : q.writesCore = false) (c : fedWorld.Choice q)
    (db : Db) :
  (fedWorld.exec q c db).2.toCore = db.toCore
  := by
  cases q with
  | sql s =>
      simp only [fedWorld]
      split
      · rfl
      · apply Sql.exec_toCore h
  | _ => rfl

/-- Actors are added or refreshed, and posts stay as they are. -/
structure Core.Grows (core core' : Core) : Prop where
  posts_eq : core'.posts = core.posts
  nextId_le : core.nextId ≤ core'.nextId
  knows : ∀ {id apId}, core.Knows id apId → core'.Knows id apId

theorem Core.Grows.refl (core : Core) :
  core.Grows core
  := ⟨rfl, Nat.le_refl _, id⟩

theorem Core.Grows.trans {core core' core'' : Core} (h : core.Grows core')
    (h' : core'.Grows core'') :
  core.Grows core''
  := ⟨h'.posts_eq.trans h.posts_eq, Nat.le_trans h.nextId_le h'.nextId_le, h'.knows ∘ h.knows⟩

theorem Core.Grows.of_eq {core core' : Core} (h : core' = core) :
  core.Grows core'
  := h ▸ refl core

theorem Db.upsertRemoteActor_grows (remote : RemoteActor) (db : Db) :
  db.toCore.Grows (db.upsertRemoteActor remote).2.toCore
  := by
  unfold upsertRemoteActor
  simp only
  split
  · rename_i core h
    split at h
    · exact ⟨(Core.of_insertActor h).1, by simp [(Core.of_insertActor h).2.1],
        Core.Knows.insertActor h⟩
    · exact ⟨(Core.of_updateActors h).1, by simp [(Core.of_updateActors h).2.1],
        Core.Knows.updateActors h⟩
  · apply Core.Grows.refl

theorem Db.setMovedTo_grows (target : String) (id : Uuid) (db : Db) :
  db.toCore.Grows (db.setMovedTo target id).2.toCore
  := by
  unfold setMovedTo
  split
  · rename_i core h
    exact ⟨(Core.of_updateActors h).1, by simp [(Core.of_updateActors h).2.1],
      Core.Knows.updateActors h⟩
  · apply Core.Grows.refl

/-- The requests that leave posts as they are and forget no actor. -/
def FedRequest.Growing (q : FedRequest) : Prop :=
  q.writesCore = false ∨ (∃ remote, q = .sql (.upsertRemoteActor remote)) ∨
    ∃ target id, q = .sql (.setMovedTo target id)

theorem FedRequest.Growing.exec {q : FedRequest} (h : q.Growing) (c : fedWorld.Choice q) (db : Db) :
  db.toCore.Grows (fedWorld.exec q c db).2.toCore
  := by
  rcases h with h | ⟨remote, rfl⟩ | ⟨target, id, rfl⟩
  · apply Core.Grows.of_eq (exec_toCore h c db)
  · simp only [fedWorld]
    split
    · apply Core.Grows.refl
    · apply Db.upsertRemoteActor_grows
  · simp only [fedWorld]
    split
    · apply Core.Grows.refl
    · apply Db.setMovedTo_grows

/-- Running a program that does not write actors or posts leaves them as they are. -/
theorem wp_reading {α : Type} {C : Condition fedWorld} {p : Program Fed α}
    (h : Every (fun q : FedRequest => q.writesCore = false) p) (db : Db) :
  wp fedWorld C (fun _ db' => db'.toCore = db.toCore) p db
  := by
  apply Every.wp_rel (G := fun s s' : Db => s'.toCore = s.toCore) _ _ _ h db
  · intro s
    rfl
  · intro s s' s'' h h'
    apply h'.trans h
  · intro q hq c s _
    apply exec_toCore hq

/-- Running a program whose requests are growing grows the core. -/
theorem wp_growing {α : Type} {C : Condition fedWorld} {p : Program Fed α}
    (h : Every FedRequest.Growing p) (db : Db) :
  wp fedWorld C (fun _ db' => db.toCore.Grows db'.toCore) p db
  := by
  apply Every.wp_rel (G := fun s s' : Db => s.toCore.Grows s'.toCore) _ _ _ h db
  · intro s
    apply Core.Grows.refl
  · intro s s' s'' h h'
    apply h.trans h'
  · intro q hq c s _
    apply hq.exec

/-! ### The requests of the resolving functions -/

section Requests

variable {P : FedRequest → Prop} (ext : External)

theorem every_sql {s : Sql} (h : P (.sql s)) :
  Every P (sql s).run
  := (every_run_ask _).mpr h

theorem every_okOr {α : Type} (e : NoombatError) (o : Option α) :
  Every P (okOr e o).run
  := by
  cases o
  · apply every_run_throw
  · apply every_run_pure

theorem every_ofExcept {α : Type} (r : Except NoombatError α) :
  Every P (ofExcept r).run
  := by
  cases r
  · apply every_run_throw
  · apply every_run_pure

theorem every_unwrapOr {α : Type} (default : α) {p : Handler α} (h : Every P p.run) :
  Every P (unwrapOr default p).run
  := by
  apply every_run_bind (every_run_attempt h)
  rintro (e | a)
  · apply every_run_pure
  · apply every_run_pure

theorem every_ignoringErrors {p : Handler Unit} (h : Every P p.run) :
  Every P (ignoringErrors p).run
  := by
  apply every_run_bind (every_run_attempt h)
  intro _
  apply every_run_pure

variable (hread : ∀ q : FedRequest, q.consults = true → P q)
  (hup : ∀ remote, P (.sql (.upsertRemoteActor remote)))

include hread

theorem every_findById (id : Uuid) :
  Every P (Repo.findById id).run
  := by
  apply every_run_bind (every_sql (hread _ rfl))
  intro row
  apply every_okOr

theorem every_findLocalByUsername (username : String) :
  Every P (Repo.findLocalByUsername username).run
  := by
  apply every_run_bind (every_sql (hread _ rfl))
  intro row
  apply every_okOr

theorem every_findLocalSigningActor :
  Every P findLocalSigningActor.run
  := by
  apply every_run_bind (every_sql (hread _ rfl))
  rintro (_ | id)
  · apply every_run_bind (every_sql (hread _ rfl))
    intro any
    apply every_okOr
  · apply every_run_pure

theorem every_fetchSigned (url : String) :
  Every P (fetchSigned url).run
  := by
  apply every_run_bind (every_run_attempt (every_findLocalSigningActor hread))
  intro signer
  split
  · apply (every_run_ask _).mpr (hread _ rfl)
  · apply every_run_throw
  · apply (every_run_ask _).mpr (hread _ rfl)

theorem every_readClock :
  Every P readClock.run
  := by
  apply every_run_bind ((every_run_ask _).mpr (hread _ rfl))
  intro _
  apply every_run_bind ((every_run_ask _).mpr (hread _ rfl))
  intro _
  apply every_run_pure

theorem every_cachedAssertionKey (actorApId : String) :
  Every P (cachedAssertionKey actorApId).run
  := by
  apply every_run_bind (every_unwrapOr _ (every_sql (hread _ rfl)))
  intro _
  apply every_run_pure

theorem every_attemptProofVerification (activity : Json) :
  Every P (attemptProofVerification ext activity).run
  := by
  unfold attemptProofVerification
  split
  · apply every_run_pure
  · apply every_run_bind (every_cachedAssertionKey hread _)
    intro publicKey
    apply every_run_bind (every_readClock hread)
    intro clock
    split
    all_goals apply every_run_pure

theorem every_refetchAndVerify (objectId : String) :
  Every P (refetchAndVerify ext objectId).run
  := by
  apply every_run_bind ((every_run_ask _).mpr (hread _ rfl))
  intro permit
  split
  · apply every_run_bind (every_findLocalSigningActor hread)
    intro signer
    apply every_run_bind ((every_run_ask _).mpr (hread _ rfl))
    intro response
    split
    · apply every_run_bind (every_ofExcept _)
      intro document
      apply every_run_pure
    · apply every_run_throw
  · apply every_run_throw

theorem every_verifyRelayedActivity (activity : Json) (policy : RelayVerificationPolicy) :
  Every P (verifyRelayedActivity ext activity policy).run
  := by
  apply every_run_bind (every_attemptProofVerification ext hread activity)
  intro proofResult
  split
  · apply every_run_pure
  · apply every_run_pure
  · apply every_run_pure
  · apply every_run_bind (every_unwrapOr _ (every_refetchAndVerify ext hread _))
    intro consistent
    apply every_run_pure
  · apply every_run_pure

include hup

theorem every_upsertRemoteActor (remote : RemoteActor) :
  Every P (Repo.upsertRemoteActor remote).run
  := by
  apply every_run_bind (every_sql (hup remote))
  intro _
  apply every_run_bind (every_sql (hread _ rfl))
  intro row
  apply every_run_bind (every_okOr _ row)
  intro actor
  split
  · apply every_run_throw
  · apply every_run_pure

theorem every_fetchActor (actorUri : String) :
  Every P (fetchActor ext actorUri).run
  := by
  apply every_run_bind (every_fetchSigned hread actorUri)
  intro response
  split
  · apply every_run_bind (every_ignoringErrors (every_sql (hread _ rfl)))
    intro _
    apply every_run_throw
  · split
    · apply every_run_bind (every_ofExcept _)
      intro apActor
      apply every_run_bind (every_ofExcept _)
      intro remote
      apply every_upsertRemoteActor hread hup
    · apply every_run_throw

theorem every_resolveActor (actorUri : String) :
  Every P (resolveActor ext actorUri).run
  := by
  apply every_run_bind (every_sql (hread _ rfl))
  rintro (_ | cached)
  · apply every_run_bind (every_unwrapOr _ (every_sql (hread _ rfl)))
    intro isTombstoned
    split
    · apply every_run_throw
    · apply every_fetchActor ext hread hup
  · apply every_run_pure

theorem every_refetchAssertionKey (actorUri vmId : String) :
  Every P (refetchAssertionKey ext actorUri vmId).run
  := by
  apply every_run_bind ((every_run_ask _).mpr (hread _ rfl))
  intro permit
  split
  · apply every_run_bind (every_findLocalSigningActor hread)
    intro signer
    apply every_run_bind ((every_run_ask _).mpr (hread _ rfl))
    intro response
    split
    · apply every_run_bind (every_ofExcept _)
      intro apActor
      apply every_run_bind (every_ofExcept _)
      intro remote
      apply every_run_bind (every_run_attempt (every_upsertRemoteActor hread hup _))
      intro _
      apply every_run_pure
    · apply every_run_pure
  · apply every_run_pure

theorem every_verifyRefreshed (document : Json) (signer vmId : String)
    (cached : Option String) :
  Every P (verifyRefreshed ext document signer vmId cached).run
  := by
  apply every_run_bind (every_unwrapOr _ (every_refetchAssertionKey ext hread hup signer vmId))
  intro refreshed
  split
  · split
    · apply every_run_pure
    · apply every_run_bind (every_readClock hread)
      intro clock
      apply every_run_pure
  · apply every_run_pure

theorem every_verifySigned (document : Json) (signer vmId : String) :
  Every P (verifySigned ext document signer vmId).run
  := by
  apply every_run_bind (every_cachedAssertionKey hread signer)
  intro cached
  apply every_run_bind (every_readClock hread)
  intro clock
  split
  · apply every_run_pure
  · apply every_run_pure
  · apply every_verifyRefreshed ext hread hup
  · apply every_verifyRefreshed ext hread hup

theorem every_verifyInboundProof (document : Json) (expectedAuthor : String) :
  Every P (verifyInboundProof ext document expectedAuthor).run
  := by
  unfold verifyInboundProof
  split
  · apply every_run_pure
  · simp only
    split
    · apply every_verifySigned ext hread hup
    · apply every_run_pure

theorem every_verifyObjectProof (object : Json) (expectedAuthor : String) :
  Every P (verifyObjectProof ext object expectedAuthor).run
  := by
  apply every_run_bind (every_verifyInboundProof ext hread hup object expectedAuthor)
  intro verdict
  split
  · apply every_run_pure
  · apply every_run_pure
  · apply every_run_throw

end Requests

end Federation
