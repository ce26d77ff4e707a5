import Noombat.Federation.ActorCalls

/-!
# The actor that a key belongs to

An actor publishes a key on its own origin.  Documents that other origins serve are stored with
whatever identifier they give their keys, and no two rows have one key identifier.  While no
document that is accepted names the key before its publisher is known, the publisher can be stored,
and a signature with the key is verified against the key that the publisher serves.
-/

namespace Federation

open Fallible Program

/-! ### Publishers -/

/-- What is served for a URL is not the document of an actor, but names the owner of a key. -/
structure NamesOwner (ext : External) (response : Response) (url owner : String) : Prop where
  success : response.isSuccess = true
  owner : ∃ document, response.json = .ok document ∧
    (((document.get "publicKey").bind (·.get "owner")).or (document.get "owner")).bind
      Json.asStr = some owner
  unread : ∀ e, response.actor = .error e → ∃ message, e = .federation message
  other : ∀ apActor, response.actor = .ok apActor →
    verifyFetchedActorId ext apActor.id response.url url ≠ .ok ()

/-- An actor with a document and a key, and what the server of its origin answers: the document for
the URI of the actor, and for the URL of the key the same or what names the actor as its owner. -/
structure Publisher (ext : External) where
  origin : Url.Origin
  apActor : ApActor
  serve : String → Response
  originOf_id : originOf ext apActor.id = some origin
  originOf_key : originOf ext (stripFragment apActor.publicKey.id) = some origin
  success : (serve apActor.id).isSuccess = true
  document : (serve apActor.id).actor = .ok apActor
  entitled : verifyFetchedActorId ext apActor.id (serve apActor.id).url apActor.id = .ok ()
  key : stripFragment apActor.publicKey.id = apActor.id ∨
    NamesOwner ext (serve (stripFragment apActor.publicKey.id))
      (stripFragment apActor.publicKey.id) apActor.id

variable {ext : External} (p : Publisher ext)

namespace Publisher

def keyId : String :=
  p.apActor.publicKey.id

theorem originOf_keyId :
  originOf ext (stripFragment p.keyId) = some p.origin
  := p.originOf_key

/-- An actor is the publisher, with the key that it publishes. -/
structure IsRow (a : Actor) : Prop where
  apId_eq : a.apId = p.apActor.id
  remote : a.isLocal = false
  publicKeyId_eq : a.publicKeyId = some p.keyId
  publicKeyPem_eq : a.publicKeyPem = p.apActor.publicKey.publicKeyPem

/-- A URI is that of the publisher or of its key. -/
def Owns (uri : String) : Prop :=
  uri = p.apActor.id ∨ uri = stripFragment p.keyId

/-- Only the publisher has its URIs and its key identifier, and these are not known as gone. -/
structure Unclaimed (db : Db) : Prop where
  row : ∀ a ∈ db.actors, p.Owns a.apId ∨ a.publicKeyId = some p.keyId → p.IsRow a
  present : ∀ uri ∈ db.tombstonedActors, ¬ p.Owns uri

/-- No statement fails, and the server of the origin answers every URL of it. -/
def Honest : Condition fedWorld
  | .sql _, c, _ => c.error = none
  | .signedGet url _, c, _ => originOf ext url = some p.origin → c = .ok (p.serve url)
  | .guardedGet url, c, _ => originOf ext url = some p.origin → c = .ok (p.serve url)
  | _, _, _ => True

/-- Answers come from other origins. -/
def Elsewhere : Condition fedWorld :=
  fun q c _ => ∀ url response, FedRequest.fetched q c = some (url, response) →
    originOf ext url ≠ some p.origin

/-- A document that is accepted names another key, or the publisher is known. -/
def NotNamed : Condition fedWorld :=
  fun q c db => ∀ url response apActor, FedRequest.fetched q c = some (url, response) →
    response.actor = .ok apActor → verifyFetchedActorId ext apActor.id response.url url = .ok () →
      apActor.publicKey.id ≠ p.keyId ∨ ∃ a ∈ db.actors, a.apId = p.apActor.id

end Publisher

/-! ### What other origins serve -/

/-- Two actors with one key identifier are the same. -/
theorem Core.actor_eq_of_publicKeyId {core : Core} {a b : Actor} {keyId : String}
    (ha : a ∈ core.actors) (hb : b ∈ core.actors) (hkey : a.publicKeyId = some keyId)
    (hkey' : b.publicKeyId = some keyId) :
  a = b
  := by
  apply Table.eq_of_not_apart ha hb
  rintro ⟨_, _, hnone | hne⟩
  · rw [hkey] at hnone
    cases hnone
  · exact hne (hkey.trans hkey'.symm)

theorem Db.upsertRemoteActor_tombstonedActors (remote : RemoteActor) (db : Db) :
  (db.upsertRemoteActor remote).2.tombstonedActors = db.tombstonedActors
  := by
  rw [upsertRemoteActor]
  split
  · rfl
  · rfl

namespace Publisher

variable {p} {db : Db}

theorem Owns.originOf_eq {uri : String} (h : p.Owns uri) :
  originOf ext uri = some p.origin
  := by
  rcases h with rfl | rfl
  · exact p.originOf_id
  · exact p.originOf_keyId

/-- A row that is known under the URI of the publisher is the publisher's. -/
theorem Unclaimed.of_apId (h : p.Unclaimed db) {a : Actor} (ha : a ∈ db.actors)
    (hapId : a.apId = p.apActor.id) :
  p.IsRow a
  := h.row a ha (.inl (.inl hapId))

/-- Storing an actor of another origin leaves the key to its publisher. -/
theorem Unclaimed.upsertRemoteActor (h : p.Unclaimed db) {remote : RemoteActor}
    (horigin : ¬ p.Owns remote.apId)
    (hkey : remote.publicKeyId ≠ some p.keyId ∨ ∃ a ∈ db.actors, a.apId = p.apActor.id) :
  p.Unclaimed (db.upsertRemoteActor remote).2
  := by
  constructor
  · intro b hb hclaim
    -- a row with the key beside that of the publisher would be the same
    have hclash : ∀ c ∈ (db.upsertRemoteActor remote).2.actors, b.apId = remote.apId →
        b.publicKeyId = some p.keyId → c.apId = p.apActor.id → c.publicKeyId = some p.keyId →
          False := by
      intro c hc hapId hb' hc' hkeyc
      obtain rfl := Core.actor_eq_of_publicKeyId hb hc hb' hkeyc
      exact horigin (.inl (hapId ▸ hc'))
    obtain hsame | ⟨hnew, hactors⟩ | hactors := db.upsertRemoteActor_cases remote
    · rw [hsame] at hb
      exact h.row b hb hclaim
    · rcases (hactors b).mp hb with rfl | hb'
      · rcases hclaim with hclaim | hclaim
        · exact absurd hclaim horigin
        · rcases hkey with hkey | ⟨a, ha, hapId⟩
          · exact absurd hclaim hkey
          · have hrow := h.of_apId ha hapId
            exact (hclash a ((hactors a).mpr (.inr ha)) rfl hclaim hapId
              hrow.publicKeyId_eq).elim
      · exact h.row b hb' hclaim
    · obtain ⟨a, ha, rfl⟩ := (hactors b).mp hb
      split at hclaim
      · rename_i hrefreshed
        rw [if_pos hrefreshed] at hclash ⊢
        obtain ⟨hapId, _⟩ := Bool.and_eq_true_iff.mp hrefreshed
        rw [beq_iff_eq] at hapId
        rcases hclaim with hclaim | hclaim
        · change p.Owns a.apId at hclaim
          rw [hapId] at hclaim
          exact absurd hclaim horigin
        · rcases hkey with hkey | ⟨c, hc, hid⟩
          · exact absurd hclaim hkey
          · have hrow := h.of_apId hc hid
            have hother : c.apId ≠ remote.apId := by
              intro hsame
              exact horigin (.inl (hsame ▸ hid))
            have hkept : c ∈ (db.upsertRemoteActor remote).2.actors := by
              apply (hactors c).mpr
              refine ⟨c, hc, ?_⟩
              rw [if_neg]
              simp [hother]
            exact (hclash c hkept hapId hclaim hid hrow.publicKeyId_eq).elim
      · rename_i hkept
        rw [if_neg hkept]
        exact h.row a ha hclaim
  · intro uri huri
    rw [Db.upsertRemoteActor_tombstonedActors] at huri
    exact h.present uri huri

/-- What other origins serve leaves the key to its publisher, if no document names the key before
the publisher is known. -/
theorem unclaimed_kept :
  StoredKeeps ext (fun q c db => p.Elsewhere q c db ∧ p.NotNamed q c db) p.Unclaimed
  := by
  constructor
  · intro db url response apActor remote hfetched hactor hremote key h
    obtain ⟨q, c, ⟨helsewhere, hnamed⟩, hanswer⟩ := hfetched
    obtain ⟨hverified, hapId, _⟩ := of_apActorToRemote hremote
    apply h.upsertRemoteActor
    · intro howns
      change p.Owns remote.apId at howns
      apply helsewhere url response hanswer
      rw [← originOf_eq_of_entitled hverified, ← hapId]
      exact howns.originOf_eq
    · change remote.publicKeyId ≠ some p.keyId ∨ _
      rw [(key_of_apActorToRemote hremote).1]
      apply (hnamed url response apActor hanswer hactor hverified).imp_left
      intro hne hsame
      exact hne (Option.some.inj hsame)
  · intro db url response hfetched h
    obtain ⟨q, c, ⟨helsewhere, _⟩, hanswer⟩ := hfetched
    constructor
    · rw [Db.insertTombstone_toCore]
      exact h.row
    · intro uri huri
      rw [Db.insertTombstone] at huri
      split at huri
      · exact h.present uri huri
      · rcases List.mem_cons.mp huri with rfl | huri
        · intro howns
          exact helsewhere _ response hanswer howns.originOf_eq
        · exact h.present uri huri

end Publisher

/-! ### What the origin serves -/

/-- An actor can be inserted whose URI and key identifier no row has. -/
theorem Core.exists_insertActor {core : Core} {a : Actor}
    (h : ∀ b ∈ core.actors, b.apId ≠ a.apId ∧
      (a.publicKeyId = none ∨ a.publicKeyId ≠ b.publicKeyId)) :
  ∃ core', core.insertActor a = some core'
  := by
  have happart : ∀ b ∈ core.actors, Actor.Apart { a with id := core.nextId } b := by
    intro b hb
    obtain ⟨hapId, hkey⟩ := h b hb
    exact ⟨Nat.ne_of_gt (core.actors_old b hb), hapId.symm, hkey⟩
  obtain ⟨actors, hactors⟩ := Table.exists_insert happart
  unfold insertActor
  split
  · rename_i hnone
    rw [hactors] at hnone
    cases hnone
  · exact ⟨_, rfl⟩

/-- Actors can be changed that keep their key identifiers. -/
theorem Core.exists_updateActors {core : Core} {q : Actor → Bool} {f : ActorChange}
    (h : ∀ a ∈ core.actors, q a = true → (f.apply a).publicKeyId = a.publicKeyId) :
  ∃ core', core.updateActors q f = some core'
  := by
  have hkept : ∀ a ∈ core.actors, ∀ a', (if q a then f.apply a else a) = a' →
      a'.id = a.id ∧ a'.apId = a.apId ∧ a'.publicKeyId = a.publicKeyId := by
    rintro a ha _ rfl
    split
    · rename_i hq
      exact ⟨f.id_apply a, f.apId_apply a, h a ha hq⟩
    · exact ⟨rfl, rfl, rfl⟩
  have happart : (core.actors.rows.map fun a => if q a then f.apply a else a).Pairwise
      Actor.Apart := by
    apply List.pairwise_map.mpr
    apply core.actors.apart.imp_of_mem
    intro a b ha hb hab
    obtain ⟨hid, hapId, hkey⟩ := hkept a ha _ rfl
    obtain ⟨hid', hapId', hkey'⟩ := hkept b hb _ rfl
    rw [Actor.Apart, hid, hapId, hkey, hid', hapId', hkey']
    exact hab
  unfold updateActors
  split
  · rename_i hnone
    rw [Table.ofRows, dif_pos happart] at hnone
    cases hnone
  · exact ⟨_, rfl⟩

namespace Publisher

variable {db : Db} {C : Condition fedWorld} {remote : RemoteActor}

/-- The publisher is resolved to its row, with its key. -/
def Resolved (r : Except NoombatError Actor) (db : Db) : Prop :=
  ∃ a ∈ db.actors, r = .ok a ∧ p.IsRow a

variable {p}

/-- The publisher can be stored. -/
theorem Unclaimed.exists_stored (h : p.Unclaimed db) (hapId : remote.apId = p.apActor.id)
    (hkey : remote.publicKeyId = some p.keyId)
    (hpem : remote.publicKeyPem = p.apActor.publicKey.publicKeyPem) :
  ∃ db', db.upsertRemoteActor remote = (.ok (), db') ∧
    ∃ a ∈ db'.actors, a.apId = remote.apId ∧ p.IsRow a
  := by
  rw [Db.upsertRemoteActor]
  cases hfind : db.actors.find (·.apId == remote.apId) with
  | none =>
      have hnew : ∀ b ∈ db.actors, b.apId ≠ remote.apId ∧
          (remote.publicKeyId = none ∨ remote.publicKeyId ≠ b.publicKeyId) := by
        intro b hb
        have hother := Core.apId_ne_of_find hfind hb
        refine ⟨hother, .inr ?_⟩
        intro hsame
        rw [hkey] at hsame
        apply hother
        rw [(h.row b hb (.inr hsame.symm)).apId_eq, hapId]
      obtain ⟨core, hcore⟩ := @Core.exists_insertActor db.toCore remote.toActor hnew
      rw [hcore]
      refine ⟨_, rfl, { remote.toActor with id := db.nextId }, ?_, rfl, ⟨hapId, rfl, hkey, hpem⟩⟩
      exact ((Core.of_insertActor hcore).2.2 _).mpr (.inl rfl)
  | some a =>
      obtain ⟨ha, hknown⟩ := Core.of_find_apId hfind
      have hrow := h.of_apId ha (hknown.trans hapId)
      obtain ⟨core, hcore⟩ := @Core.exists_updateActors db.toCore
        (fun a => a.apId == remote.apId && !a.isLocal) (.refresh remote) fun b hb hq => by
          rw [Bool.and_eq_true, beq_iff_eq] at hq
          rw [(h.of_apId hb (hq.1.trans hapId)).publicKeyId_eq]
          exact hkey
      rw [hcore]
      refine ⟨_, rfl, (ActorChange.refresh remote).apply a, ?_, hknown,
        ⟨hknown.trans hapId, hrow.remote, hkey, hpem⟩⟩
      apply ((Core.of_updateActors hcore).2.2 _).mpr
      refine ⟨a, ha, ?_⟩
      rw [if_pos]
      simp [hknown, hrow.remote]

variable (hC : ∀ q c db, C q c db → SqlAnswers q c db)

include hC in
theorem Unclaimed.wp_upsertRemoteActor (h : p.Unclaimed db) (hapId : remote.apId = p.apActor.id)
    (hkey : remote.publicKeyId = some p.keyId)
    (hpem : remote.publicKeyPem = p.apActor.publicKey.publicKeyPem) :
  wp fedWorld C p.Resolved (Repo.upsertRemoteActor remote).run db
  := by
  obtain ⟨db', hstored, a, ha, hknown, hrow⟩ := h.exists_stored hapId hkey hpem
  rw [Repo.upsertRemoteActor, wp_run_bind]
  apply wp_sql_answers hC (.upsertRemoteActor remote)
  intro pick
  rw [Sql.exec, hstored, onExcept_ok, wp_run_bind]
  apply wp_sql_answers hC (.findByApId remote.apId)
  intro pick
  rw [Sql.exec, Core.find_apId ha hknown, onExcept_ok, wp_run_bind, wp_okOr]
  simp only [Option.elim_some, onExcept_ok, hrow.remote]
  exact (wp_run_pure p.Resolved a db').mpr ⟨a, ha, rfl, hrow⟩

/-! ### Resolving the key -/

section Resolving

omit hC

theorem Honest.sqlAnswers (q : FedRequest) (c : fedWorld.Choice q) (db : Db)
    (h : p.Honest q c db) :
  SqlAnswers q c db
  := by
  cases q with
  | sql st => exact h
  | _ => trivial

/-- A URL of the origin is answered by its server. -/
theorem wp_fetchSigned {url : String} (hurl : originOf ext url = some p.origin) (db : Db) :
  wp fedWorld p.Honest (fun r db' => r = .ok (p.serve url) ∧ db' = db) (fetchSigned url).run db
  := by
  have hsigner : wp fedWorld p.Honest
      (fun r db' => (∀ message, r ≠ .error (.database message)) ∧ db' = db)
      findLocalSigningActor.run db := by
    rw [findLocalSigningActor, wp_run_bind]
    apply wp_sql_answers Honest.sqlAnswers (.signingActor true)
    intro pick
    rw [Sql.exec, onExcept_ok]
    split
    · exact (wp_run_pure _ _ db).mpr ⟨(by intro _ h; cases h), rfl⟩
    · rw [wp_run_bind]
      apply wp_sql_answers Honest.sqlAnswers (.signingActor false)
      intro pick'
      rw [Sql.exec, onExcept_ok, wp_okOr]
      constructor
      · intro message
        generalize (Option.map Actor.id _ : Option Uuid) = found
        cases found with
        | none =>
            intro h
            cases h
        | some id =>
            intro h
            cases h
      · rfl
  rw [fetchSigned, wp_run_bind, wp_run_attempt]
  apply wp_mono _ hsigner
  rintro signer _ ⟨hne, rfl⟩
  rw [onExcept_ok]
  split
  · apply (wp_request (FedRequest.signedGet url _) _ _).mpr
    intro c hc
    exact ⟨hc hurl, rfl⟩
  · rename_i message
    exact absurd rfl (hne message)
  · apply (wp_request (FedRequest.guardedGet url) _ _).mpr
    intro c hc
    exact ⟨hc hurl, rfl⟩

/-- A successful answer does not say that the actor is gone. -/
theorem status_of_isSuccess {response : Response} (h : response.isSuccess = true) :
  response.status ≠ 410
  := by
  intro hgone
  rw [Response.isSuccess, hgone] at h
  revert h
  decide

theorem wp_fetchActor (h : p.Unclaimed db) :
  wp fedWorld p.Honest p.Resolved (fetchActor ext p.apActor.id).run db
  := by
  rw [fetchActor, wp_run_bind]
  apply wp_mono _ (wp_fetchSigned p.originOf_id db)
  rintro _ _ ⟨rfl, rfl⟩
  rw [onExcept_ok, if_neg (status_of_isSuccess p.success), if_pos p.success, wp_run_bind,
    wp_ofExcept, p.document, onExcept_ok, wp_run_bind, wp_ofExcept]
  cases hremote : apActorToRemote ext p.apActor (p.serve p.apActor.id).url p.apActor.id with
  | error e =>
      rw [apActorToRemote, p.entitled] at hremote
      cases hremote
  | ok remote =>
      obtain ⟨_, hapId, _⟩ := of_apActorToRemote hremote
      obtain ⟨hkey, hpem⟩ := key_of_apActorToRemote hremote
      exact h.wp_upsertRemoteActor Honest.sqlAnswers hapId hkey hpem

/-- The URI of the publisher is resolved to its row. -/
theorem wp_resolveActor (h : p.Unclaimed db) :
  wp fedWorld p.Honest p.Resolved (resolveActor ext p.apActor.id).run db
  := by
  rw [resolveActor, wp_run_bind]
  apply wp_sql_answers Honest.sqlAnswers (.findByApId p.apActor.id)
  intro pick
  rw [Sql.exec, onExcept_ok]
  split
  · rename_i a hfind
    obtain ⟨ha, hapId⟩ := Core.of_find_apId hfind
    exact (wp_run_pure p.Resolved a db).mpr ⟨a, ha, rfl, h.of_apId ha hapId⟩
  · rw [wp_run_bind, wp_unwrapOr]
    apply wp_sql_answers Honest.sqlAnswers (.isTombstoned p.apActor.id)
    intro pick'
    have hpresent : db.tombstonedActors.contains p.apActor.id = false := by
      apply Bool.eq_false_iff.mpr
      intro hgone
      exact h.present _ (List.contains_iff_mem.mp hgone) (.inl rfl)
    rw [Sql.exec, hpresent]
    exact wp_fetchActor h

theorem wp_resolveInboundSigner (h : p.Unclaimed db) :
  wp fedWorld p.Honest p.Resolved (resolveInboundSigner ext p.apActor.id).run db
  := by
  rw [resolveInboundSigner, wp_run_bind]
  apply wp_mono _ (wp_resolveActor h)
  rintro _ db' ⟨a, ha, rfl, hrow⟩
  rw [onExcept_ok, hrow.remote]
  exact (wp_run_pure p.Resolved a db').mpr ⟨a, ha, rfl, hrow⟩

omit p in
/-- A document that is not accepted is an error of federation. -/
theorem error_of_apActorToRemote {apActor : ApActor} {finalUrl : Url} {uri : String}
    {e : NoombatError} (h : apActorToRemote ext apActor finalUrl uri = .error e) :
  ∃ message, e = .federation message
  := by
  rw [apActorToRemote] at h
  cases hverified : verifyFetchedActorId ext apActor.id finalUrl uri with
  | ok u =>
      rw [hverified] at h
      cases h
  | error e' =>
      rw [hverified] at h
      obtain rfl := Except.error.inj h
      rw [verifyFetchedActorId] at hverified
      split at hverified
      · exact ⟨_, (Except.error.inj hverified).symm⟩
      · split at hverified
        · split at hverified
          · exact ⟨_, (Except.error.inj hverified).symm⟩
          · split at hverified
            · cases hverified
            · exact ⟨_, (Except.error.inj hverified).symm⟩
        · exact ⟨_, (Except.error.inj hverified).symm⟩

/-- The URL of a key that is not the publisher's own is not resolved, and nothing is stored. -/
theorem wp_resolveInboundSigner_key (h : p.Unclaimed db)
    (hunknown : ∀ a ∈ db.actors, ¬ p.Owns a.apId)
    (hkey : NamesOwner ext (p.serve (stripFragment p.keyId)) (stripFragment p.keyId) p.apActor.id) :
  wp fedWorld p.Honest (fun r db' => (∃ message, r = .error (.federation message)) ∧ db' = db)
    (resolveInboundSigner ext (stripFragment p.keyId)).run db
  := by
  have hfetch : wp fedWorld p.Honest
      (fun r db' => (∃ message, r = .error (.federation message)) ∧ db' = db)
      (fetchActor ext (stripFragment p.keyId)).run db := by
    rw [fetchActor, wp_run_bind]
    apply wp_mono _ (wp_fetchSigned p.originOf_keyId db)
    rintro _ _ ⟨rfl, rfl⟩
    rw [onExcept_ok, if_neg (status_of_isSuccess hkey.success), if_pos hkey.success, wp_run_bind,
      wp_ofExcept]
    cases hactor : (p.serve (stripFragment p.keyId)).actor with
    | error e =>
        obtain ⟨message, rfl⟩ := hkey.unread e hactor
        exact ⟨⟨message, rfl⟩, rfl⟩
    | ok apActor =>
        rw [onExcept_ok, wp_run_bind, wp_ofExcept]
        cases hremote : apActorToRemote ext apActor (p.serve (stripFragment p.keyId)).url
            (stripFragment p.keyId) with
        | ok remote => exact absurd (of_apActorToRemote hremote).1 (hkey.other apActor hactor)
        | error e =>
            obtain ⟨message, rfl⟩ := error_of_apActorToRemote hremote
            exact ⟨⟨message, rfl⟩, rfl⟩
  have hresolve : wp fedWorld p.Honest
      (fun r db' => (∃ message, r = .error (.federation message)) ∧ db' = db)
      (resolveActor ext (stripFragment p.keyId)).run db := by
    rw [resolveActor, wp_run_bind]
    apply wp_sql_answers Honest.sqlAnswers (.findByApId (stripFragment p.keyId))
    intro pick
    rw [Sql.exec, onExcept_ok]
    split
    · rename_i a hfind
      obtain ⟨ha, hapId⟩ := Core.of_find_apId hfind
      exact absurd (.inr hapId) (hunknown a ha)
    · rw [wp_run_bind, wp_unwrapOr]
      apply wp_sql_answers Honest.sqlAnswers (.isTombstoned (stripFragment p.keyId))
      intro pick'
      have hpresent : db.tombstonedActors.contains (stripFragment p.keyId) = false := by
        apply Bool.eq_false_iff.mpr
        intro hgone
        exact h.present _ (List.contains_iff_mem.mp hgone) (.inr rfl)
      rw [Sql.exec, hpresent]
      exact hfetch
  rw [resolveInboundSigner, wp_run_bind]
  apply wp_mono _ hresolve
  rintro _ _ ⟨⟨message, rfl⟩, rfl⟩
  exact ⟨⟨message, rfl⟩, rfl⟩

/-- The owner of the key is the publisher. -/
theorem wp_keyOwner
    (hkey : NamesOwner ext (p.serve (stripFragment p.keyId)) (stripFragment p.keyId) p.apActor.id)
    (db : Db) :
  wp fedWorld p.Honest (fun r db' => r = .ok p.apActor.id ∧ db' = db)
    (keyOwner ext (stripFragment p.keyId)).run db
  := by
  rw [keyOwner, wp_run_bind]
  apply wp_mono _ (wp_fetchSigned p.originOf_keyId db)
  rintro _ _ ⟨rfl, rfl⟩
  obtain ⟨document, hjson, howner⟩ := hkey.owner
  rw [onExcept_ok, if_pos hkey.success, wp_run_bind, wp_ofExcept, hjson, onExcept_ok, wp_okOr,
    howner]
  exact ⟨rfl, rfl⟩

/-- The key is resolved to its publisher. -/
theorem wp_resolveSignerByKeyId (h : p.Unclaimed db) :
  wp fedWorld p.Honest p.Resolved (resolveSignerByKeyId ext p.keyId).run db
  := by
  rw [resolveSignerByKeyId, wp_run_bind]
  apply wp_sql_answers Honest.sqlAnswers (.findByPublicKeyId p.keyId)
  intro pick
  rw [Sql.exec, onExcept_ok]
  cases hfind : db.actors.find (·.publicKeyId == some p.keyId) with
  | some a =>
      have hkey := Table.satisfies_of_find hfind
      have hrow := h.row a (Table.mem_of_find hfind) (.inr (beq_iff_eq.mp hkey))
      have hcached : (some a).filter (!·.isLocal) = some a := by
        rw [Option.filter_some, hrow.remote]
        rfl
      rw [hcached]
      exact (wp_run_pure p.Resolved a db).mpr ⟨a, Table.mem_of_find hfind, rfl, hrow⟩
  | none =>
      -- the publisher is not known, since its row would have the key
      have hunknown : ∀ a ∈ db.actors, ¬ p.Owns a.apId := by
        intro a ha howns
        have hrow := h.row a ha (.inl howns)
        have hfound : (db.actors.find (·.publicKeyId == some p.keyId)).isSome = true :=
          Table.find_isSome_iff.mpr ⟨a, ha, beq_iff_eq.mpr hrow.publicKeyId_eq⟩
        rw [hfind] at hfound
        cases hfound
      rw [Option.filter_none, wp_run_bind, wp_run_attempt]
      rcases p.key with hkey | hkey
      · change stripFragment p.keyId = p.apActor.id at hkey
        rw [hkey]
        apply wp_mono _ (wp_resolveInboundSigner h)
        rintro _ db' ⟨a, ha, rfl, hrow⟩
        exact (wp_run_pure p.Resolved a db').mpr ⟨a, ha, rfl, hrow⟩
      · apply wp_mono _ (wp_resolveInboundSigner_key h hunknown hkey)
        rintro _ _ ⟨⟨message, rfl⟩, rfl⟩
        rw [onExcept_ok, wp_run_bind, wp_run_attempt]
        apply wp_mono _ (wp_keyOwner hkey _)
        rintro _ _ ⟨rfl, rfl⟩
        exact wp_resolveInboundSigner h

end Resolving

end Publisher

/-! ### Runs -/

/-- In every run, the key is resolved to its publisher and the publisher can be stored. -/
def Publisher.Verifiable (db : Db) : Prop :=
  (∀ script : Script fedWorld, (∀ n q db, p.Honest q (script n q) db) →
      p.Resolved (run fedWorld script (resolveSignerByKeyId ext p.keyId).run db).1
        (run fedWorld script (resolveSignerByKeyId ext p.keyId).run db).2) ∧
    ∀ finalUrl uri remote, apActorToRemote ext p.apActor finalUrl uri = .ok remote →
      ∀ script : Script fedWorld, (∀ n st, (script n (.sql st)).error = none) →
        p.Resolved (run fedWorld script (Repo.upsertRemoteActor remote).run db).1
          (run fedWorld script (Repo.upsertRemoteActor remote).run db).2

theorem Publisher.Unclaimed.verifiable {p : Publisher ext} {db : Db} (h : p.Unclaimed db) :
  p.Verifiable db
  := by
  constructor
  · intro script hscript
    apply wp_run (Publisher.wp_resolveSignerByKeyId h)
    exact alongFrom_of_script hscript 0 _ db
  · intro finalUrl uri remote hremote script hscript
    obtain ⟨_, hapId, _⟩ := of_apActorToRemote hremote
    obtain ⟨hkey, hpem⟩ := key_of_apActorToRemote hremote
    exact run_of_answers (h.wp_upsertRemoteActor (fun _ _ _ hc => hc) hapId hkey hpem) hscript

/-- Throughout a run of calls that other origins answer, a key is resolved to its publisher, and the
publisher can be stored, if no document that is accepted names the key before the publisher is
known. -/
theorem key_not_squatted (p : Publisher ext) {db₀ : Db} (h₀ : p.Unclaimed db₀)
    {events : List ActorEvent}
    (hevents : Runs.Meets (actorStep ext)
      (fun db e => e.Along ext (fun q c db => p.Elsewhere q c db ∧ p.NotNamed q c db) db)
      events db₀) :
  Runs.Throughout (actorStep ext) p.Verifiable events db₀
  := by
  have hrun : Runs.Throughout (actorStep ext) p.Unclaimed events db₀ := by
    apply Runs.throughout_of_meets _ h₀ hevents
    intro db _ e h halong hstep
    obtain rfl := Option.some.inj hstep
    exact e.after_inv Publisher.unclaimed_kept halong h
  exact hrun.mono fun _ h => h.verifiable

/-! ### A key that is squatted -/

/-- A document with an `id` and a key. -/
def keyDocument (id keyId publicKeyPem : String) : ApActor where
  id := id
  actorType := "Person"
  preferredUsername := "someone"
  name := none
  summary := none
  inbox := id ++ "/inbox"
  publicKey := ⟨keyId, id, publicKeyPem⟩
  endpoints := none
  assertionMethod := none
  discoverable := none
  indexable := none

/-- The answer with a document that is served for its `id`. -/
def serveKeyDocument (apActor : ApActor) (host path : String) : Response :=
  ⟨200, ⟨"https", "", none, some host, none, path, none, none⟩, .error (.federation "not read"),
    .ok apActor⟩

def bobDocument : ApActor :=
  keyDocument "https://b.example/bob" "https://b.example/bob#main-key" "BOB"

def bob : Publisher .plain where
  origin := ("https", some "b.example", some 443)
  apActor := bobDocument
  serve _ := serveKeyDocument bobDocument "b.example" "/bob"
  originOf_id := by decide +kernel
  originOf_key := by decide +kernel
  success := by decide
  document := rfl
  entitled := verifyFetchedActorId_ok_iff.mpr
    ⟨⟨"https", "", none, some "b.example", none, "/bob", none, none⟩,
      ⟨"https", "", none, some "b.example", none, "/bob", none, none⟩,
      by decide +kernel, by decide +kernel, by decide +kernel, by decide +kernel⟩
  key := .inl (by decide +kernel)

/-- An actor of another origin is resolved, whose document names the given key. -/
def resolvingMal (keyId : String) : ActorEvent :=
  ⟨.resolve "https://m.example/mal", steady fun _ =>
    .ok (serveKeyDocument (keyDocument "https://m.example/mal" keyId "MAL") "m.example" "/mal")⟩

theorem unclaimed_empty :
  bob.Unclaimed Db.empty
  := by
  constructor
  · intro a ha
    cases ha
  · intro uri huri
    cases huri

/-- What is fetched comes from elsewhere, and names another key. -/
def NamesAnother : Condition fedWorld :=
  fun q c _ => ((FedRequest.fetched q c).all fun (url, response) =>
    originOf .plain url != some bob.origin &&
      response.actor.toOption.all fun apActor => apActor.publicKey.id != bob.keyId) = true

instance : ∀ q c db, Decidable (NamesAnother q c db) :=
  fun _ _ _ => inferInstanceAs (Decidable (_ = true))

theorem NamesAnother.spec {q : FedRequest} {c : fedWorld.Choice q} {db : Db}
    (h : NamesAnother q c db) :
  bob.Elsewhere q c db ∧ bob.NotNamed q c db
  := by
  constructor
  · intro url response hanswer
    rw [NamesAnother, hanswer, Option.all_some, Bool.and_eq_true] at h
    exact bne_iff_ne.mp h.1
  · intro url response apActor hanswer hactor _
    rw [NamesAnother, hanswer, Option.all_some, Bool.and_eq_true, hactor] at h
    exact .inl (bne_iff_ne.mp h.2)

theorem key_not_squatted_bob :
  Runs.Throughout (actorStep .plain) bob.Verifiable
    [resolvingMal "https://m.example/mal#main-key"] Db.empty
  := by
  apply key_not_squatted bob unclaimed_empty
  rintro _ ⟨⟩
  constructor
  · have halong : (resolvingMal "https://m.example/mal#main-key").Along .plain NamesAnother
        Db.empty := by
      unfold ActorEvent.Along
      decide +kernel
    exact halong.mono fun _ _ _ => NamesAnother.spec
  · trivial

/-- After a document of another origin that names the key of an actor, the key is resolved to the
actor of that document. -/
theorem key_squatted :
  bob.Unclaimed Db.empty ∧
    ∃ db, Runs.run (actorStep .plain) [resolvingMal "https://b.example/bob#main-key"] Db.empty =
      some db ∧ ¬ bob.Verifiable db
  := by
  refine ⟨unclaimed_empty, ?_⟩
  have hresolved : (Runs.run (actorStep .plain) [resolvingMal "https://b.example/bob#main-key"]
      Db.empty).map (fun db => (run fedWorld (steady fun url => .ok (bob.serve url))
        (resolveSignerByKeyId .plain bob.keyId).run db).1.toOption.map Actor.apId) =
      some (some "https://m.example/mal") := by
    decide +kernel
  obtain ⟨db, hrun, hresult⟩ := Option.map_eq_some_iff.mp hresolved
  refine ⟨db, hrun, fun hverifiable => ?_⟩
  obtain ⟨a, _, hok, hrow⟩ := hverifiable.1 (steady fun url => .ok (bob.serve url)) (by
    intro n q db
    cases q with
    | sql st => rfl
    | signedGet url signer => exact fun _ => rfl
    | guardedGet url => exact fun _ => rfl
    | _ => trivial)
  rw [hok] at hresult
  have hapId : a.apId = "https://m.example/mal" := Option.some.inj hresult
  rw [hrow.apId_eq] at hapId
  revert hapId
  decide

end Federation
