import Noombat.Federation.Refresh
import Noombat.Program.Runs

/-!
# Calls that store actors

An actor is resolved by its URI or by the URI of its key, its assertion key is fetched anew, or its
profile is, because it is said to have changed.  The calls are made one after the other, and what
remote servers answer is the choice of the environment.  Such a call stores the actor that a
document describes, when it has been served for the URI that was asked for and is entitled to its
`id`, or records that there is no actor at the URI any more; no other change to the actors is made.
-/

namespace Federation

open Fallible Program

/-! ### Calls -/

inductive ActorCall where
  | resolve (actorUri : String)
  | signer (keyId : String)
  | refresh (actorUri vmId : String)
  | update (activity : Activity)

variable (ext : External)

def ActorCall.handle : ActorCall → Handler Unit
  | .resolve actorUri => do
      let _ ← resolveActor ext actorUri
  | .signer keyId => do
      let _ ← resolveSignerByKeyId ext keyId
  | .refresh actorUri vmId => do
      let _ ← refreshAssertionKey ext actorUri vmId
  | .update activity => handleUpdateActor ext activity

/-- A call, and the choices of the environment while it is made. -/
structure ActorEvent where
  call : ActorCall
  script : Script fedWorld

/-- The database after a call. -/
def ActorEvent.after (db : Db) (e : ActorEvent) : Db :=
  (run fedWorld e.script (e.call.handle ext).run db).2

/-- A call can always be made. -/
def actorStep (db : Db) (e : ActorEvent) : Option Db :=
  some (e.after ext db)

/-- Every fetch of a call is answered as a condition says. -/
def ActorEvent.Along (C : Condition fedWorld) (db : Db) (e : ActorEvent) : Prop :=
  Program.Along fedWorld C e.script (e.call.handle ext).run db

/-! ### What a call stores -/

/-- The answer to a fetch of a URL, which meets the condition in a database. -/
def FetchedAt (C : Condition fedWorld) (db : Db) (url : String) (response : Response) : Prop :=
  ∃ q c, C q c db ∧ q.fetched c = some (url, response)

/-- A property of databases is kept when what has been fetched is stored, with any assertion key,
and when what has been asked for in vain is recorded as gone. -/
structure StoredKeeps (C : Condition fedWorld) (Inv : Db → Prop) : Prop where
  stored : ∀ {db url response apActor remote}, FetchedAt C db url response →
    response.actor = .ok apActor → apActorToRemote ext apActor response.url url = .ok remote →
      ∀ key, Inv db → Inv (db.upsertRemoteActor { remote with ed25519PublicKey := key }).2
  gone : ∀ {db url response}, FetchedAt C db url response → Inv db → Inv (db.insertTombstone url)

variable {ext} {C : Condition fedWorld} {Inv : Db → Prop} {db : Db}

/-! ### What storing does -/

section Known

variable {core : Core} {a : Actor} {uri : String}

theorem Core.of_find_apId (h : core.actors.find (·.apId == uri) = some a) :
  a ∈ core.actors ∧ a.apId = uri
  := by
  have hapId := Table.satisfies_of_find h
  exact ⟨Table.mem_of_find h, beq_iff_eq.mp hapId⟩

theorem Core.find_apId (ha : a ∈ core.actors) (hapId : a.apId = uri) :
  core.actors.find (·.apId == uri) = some a
  := by
  have hsame : (a.apId == uri) = true := beq_iff_eq.mpr hapId
  apply Table.find_eq_some ha hsame
  intro b hb hb'
  have hapId' : b.apId = uri := beq_iff_eq.mp hb'
  exact actor_eq_of_apId hb ha (hapId'.trans hapId.symm)

theorem Core.apId_ne_of_find (h : core.actors.find (·.apId == uri) = none) (ha : a ∈ core.actors) :
  a.apId ≠ uri
  := by
  intro hapId
  rw [find_apId ha hapId] at h
  cases h

end Known

/-- Storing an actor changes nothing, or adds a row for an `ap_id` that is not known, or refreshes
the row of one that is known, unless it is local. -/
theorem Db.upsertRemoteActor_cases (remote : RemoteActor) (db : Db) :
  (db.upsertRemoteActor remote).2 = db ∨
    ((∀ a ∈ db.actors, a.apId ≠ remote.apId) ∧
      ∀ b, b ∈ (db.upsertRemoteActor remote).2.actors ↔
        b = { remote.toActor with id := db.nextId } ∨ b ∈ db.actors) ∨
    ∀ b, b ∈ (db.upsertRemoteActor remote).2.actors ↔
      ∃ a ∈ db.actors, (if a.apId == remote.apId && !a.isLocal then
        (ActorChange.refresh remote).apply a else a) = b
  := by
  rw [Db.upsertRemoteActor]
  split
  · rename_i core h
    split at h
    · rename_i hfind
      refine .inr (.inl ⟨?_, (Core.of_insertActor h).2.2⟩)
      intro a ha
      exact Core.apId_ne_of_find hfind ha
    · exact .inr (.inr (Core.of_updateActors h).2.2)
  · exact .inl rfl

/-! ### Fetches -/

/-- A fetch leaves the database as it is, and is answered as the condition says. -/
theorem wp_fetchSigned_at (url : String) (db : Db) :
  wp fedWorld C
    (onExcept (fun response db' => db' = db ∧ FetchedAt C db url response)
      (fun _ db' => db' = db))
    (fetchSigned url).run db
  := by
  rw [fetchSigned, wp_run_bind, wp_run_attempt]
  apply wp_mono _ (wp_findLocalSigningActor db)
  rintro signer _ rfl
  rw [onExcept_ok]
  split
  · apply wp_signedGet
    rintro (e | response) hc
    · rfl
    · exact ⟨rfl, _, _, hc, rfl⟩
  · rw [wp_run_throw]
    rfl
  · apply wp_guardedGet
    rintro (e | response) hc
    · rfl
    · exact ⟨rfl, _, _, hc, rfl⟩

/-- The same with a given actor to sign as. -/
theorem wp_signedGet_at (url : String) (signer : Uuid) (db : Db) :
  wp fedWorld C
    (onExcept (fun response db' => db' = db ∧ FetchedAt C db url response)
      (fun _ db' => db' = db))
    (signedGet url signer).run db
  := by
  apply wp_signedGet
  rintro (e | response) hc
  · rfl
  · exact ⟨rfl, _, _, hc, rfl⟩

/-! ### Calls keep what storing keeps -/

/-- An actor is stored by one statement. -/
theorem wp_upsertRemoteActor_inv {remote : RemoteActor} (hdb : Inv db)
    (h : Inv (db.upsertRemoteActor remote).2) :
  wp fedWorld C (fun _ db' => Inv db') (Repo.upsertRemoteActor remote).run db
  := by
  rw [Repo.upsertRemoteActor]
  apply wp_run_bind_inv
  · apply wp_sql (.upsertRemoteActor remote)
    · intro e
      exact hdb
    · intro c _
      exact h
  · intro _ db₁ hdb₁
    apply wp_run_bind_inv
    · apply wp_mono _ (wp_reads (.findByApId remote.apId) (fun _ _ => rfl) db₁)
      rintro _ _ rfl
      exact hdb₁
    · intro row db₂ hdb₂
      apply wp_run_bind_inv
      · rw [wp_okOr]
        exact hdb₂
      · intro actor db₃ hdb₃
        split
        · exact (wp_run_throw _ _ db₃).mpr hdb₃
        · exact (wp_run_pure _ actor db₃).mpr hdb₃

variable (hkeeps : StoredKeeps ext C Inv)

include hkeeps

/-- The document that has been fetched is stored. -/
theorem wp_stored {url : String} {response : Response} {apActor : ApActor} {remote : RemoteActor}
    (hfetched : FetchedAt C db url response) (hactor : response.actor = .ok apActor)
    (hremote : apActorToRemote ext apActor response.url url = .ok remote)
    (key : Option String) (hdb : Inv db) :
  wp fedWorld C (fun _ db' => Inv db')
    (Repo.upsertRemoteActor { remote with ed25519PublicKey := key }).run db
  := by
  apply wp_upsertRemoteActor_inv hdb
  apply hkeeps.stored hfetched hactor hremote key hdb

theorem wp_fetchActor_inv (uri : String) (hdb : Inv db) :
  wp fedWorld C (fun _ db' => Inv db') (fetchActor ext uri).run db
  := by
  rw [fetchActor, wp_run_bind]
  apply wp_mono _ (wp_fetchSigned_at uri db)
  rintro (e | response) db₁ h
  · obtain rfl := h
    exact hdb
  · obtain ⟨rfl, hfetched⟩ := h
    rw [onExcept_ok]
    split
    · apply wp_run_bind_inv
      · rw [wp_ignoringErrors]
        apply wp_sql (.insertTombstone uri)
        · intro e
          exact hdb
        · intro c _
          exact hkeeps.gone hfetched hdb
      · intro _ db₂ hdb₂
        exact (wp_run_throw _ _ db₂).mpr hdb₂
    · split
      · rw [wp_run_bind, wp_ofExcept]
        cases hactor : response.actor with
        | error e => exact hdb
        | ok apActor =>
            rw [onExcept_ok, wp_run_bind, wp_ofExcept]
            cases hremote : apActorToRemote ext apActor response.url uri with
            | error e => exact hdb
            | ok remote => exact wp_stored hkeeps hfetched hactor hremote _ hdb
      · exact (wp_run_throw _ _ _).mpr hdb

theorem wp_resolveActor_inv (uri : String) (hdb : Inv db) :
  wp fedWorld C (fun _ db' => Inv db') (resolveActor ext uri).run db
  := by
  rw [resolveActor]
  apply wp_run_bind_inv
  · apply wp_mono _ (wp_reads (.findByApId uri) (fun _ _ => rfl) db)
    rintro _ _ rfl
    exact hdb
  · intro cached db₁ hdb₁
    cases cached with
    | some cached => exact (wp_run_pure _ cached db₁).mpr hdb₁
    | none =>
        apply wp_run_bind_inv
        · rw [wp_unwrapOr]
          apply wp_mono _ (wp_reads (.isTombstoned uri) (fun _ _ => rfl) db₁)
          rintro _ _ rfl
          exact hdb₁
        · intro isTombstoned db₂ hdb₂
          split
          · exact (wp_run_throw _ _ db₂).mpr hdb₂
          · exact wp_fetchActor_inv hkeeps uri hdb₂

theorem wp_resolveInboundSigner_inv (uri : String) (hdb : Inv db) :
  wp fedWorld C (fun _ db' => Inv db') (resolveInboundSigner ext uri).run db
  := by
  rw [resolveInboundSigner]
  apply wp_run_bind_inv
  · exact wp_resolveActor_inv hkeeps uri hdb
  · intro actor db₁ hdb₁
    split
    · exact (wp_run_throw _ _ db₁).mpr hdb₁
    · exact (wp_run_pure _ actor db₁).mpr hdb₁

omit hkeeps in
theorem wp_keyOwner_inv (keyUrl : String) (hdb : Inv db) :
  wp fedWorld C (fun _ db' => Inv db') (keyOwner ext keyUrl).run db
  := by
  rw [keyOwner, wp_run_bind]
  apply wp_mono _ (wp_fetchSigned_at keyUrl db)
  rintro (e | response) db₁ h
  · obtain rfl := h
    exact hdb
  · obtain ⟨rfl, _⟩ := h
    rw [onExcept_ok]
    split
    · rw [wp_run_bind, wp_ofExcept]
      cases response.json with
      | error e => exact hdb
      | ok document =>
          rw [onExcept_ok, wp_okOr]
          exact hdb
    · exact (wp_run_throw _ _ _).mpr hdb

theorem wp_resolveSignerByKeyId_inv (keyId : String) (hdb : Inv db) :
  wp fedWorld C (fun _ db' => Inv db') (resolveSignerByKeyId ext keyId).run db
  := by
  rw [resolveSignerByKeyId]
  apply wp_run_bind_inv
  · apply wp_mono _ (wp_reads (.findByPublicKeyId keyId) (fun _ _ => rfl) db)
    rintro _ _ rfl
    exact hdb
  · intro cached db₁ hdb₁
    split
    · exact (wp_run_pure _ _ db₁).mpr hdb₁
    · apply wp_run_bind_inv
      · rw [wp_run_attempt]
        exact wp_resolveInboundSigner_inv hkeeps _ hdb₁
      · intro direct db₂ hdb₂
        split
        · exact (wp_run_pure _ _ db₂).mpr hdb₂
        · exact (wp_run_throw _ _ db₂).mpr hdb₂
        · exact (wp_run_throw _ _ db₂).mpr hdb₂
        · apply wp_run_bind_inv
          · rw [wp_run_attempt]
            exact wp_keyOwner_inv _ hdb₂
          · intro owner db₃ hdb₃
            split
            · exact wp_resolveInboundSigner_inv hkeeps _ hdb₃
            · exact (wp_run_throw _ _ db₃).mpr hdb₃
            · exact (wp_run_throw _ _ db₃).mpr hdb₃

theorem wp_refetchAssertionKey_inv (actorUri vmId : String) (hdb : Inv db) :
  wp fedWorld C (fun _ db' => Inv db') (refetchAssertionKey ext actorUri vmId).run db
  := by
  rw [refetchAssertionKey]
  apply wp_run_bind_inv
  · apply (wp_request FedRequest.originFetchPermit _ db).mpr
    intro c _
    exact hdb
  · intro permit db₁ hdb₁
    split
    · rw [wp_run_bind]
      apply wp_mono _ (wp_findLocalSigningActor db₁)
      rintro (e | signer) _ rfl
      · exact hdb₁
      · rw [onExcept_ok, wp_run_bind]
        apply wp_mono _ (wp_signedGet_at actorUri signer _)
        rintro (e | response) db₂ h
        · obtain rfl := h
          exact hdb₁
        · obtain ⟨rfl, hfetched⟩ := h
          rw [onExcept_ok]
          split
          · rw [wp_run_bind, wp_ofExcept]
            cases hactor : response.actor with
            | error e => exact hdb₁
            | ok apActor =>
                rw [onExcept_ok, wp_run_bind, wp_ofExcept]
                cases hremote : apActorToRemote ext apActor response.url actorUri with
                | error e => exact hdb₁
                | ok remote =>
                    apply wp_run_bind_inv
                    · rw [wp_run_attempt]
                      exact wp_stored hkeeps hfetched hactor hremote _ hdb₁
                    · intro _ db₃ hdb₃
                      exact (wp_run_pure _ _ db₃).mpr hdb₃
          · exact (wp_run_pure _ _ _).mpr hdb₁
    · exact (wp_run_pure _ _ db₁).mpr hdb₁

theorem wp_handleUpdateActor_inv (activity : Activity) (hdb : Inv db) :
  wp fedWorld C (fun _ db' => Inv db') (handleUpdateActor ext activity).run db
  := by
  rw [handleUpdateActor]
  split
  · rw [wp_run_bind]
    apply wp_mono _ (wp_findLocalSigningActor db)
    rintro (e | signer) _ rfl
    · exact hdb
    · rw [onExcept_ok, wp_run_bind]
      apply wp_mono _ (wp_signedGet_at activity.actor signer _)
      rintro (e | response) db₁ h
      · obtain rfl := h
        exact hdb
      · obtain ⟨rfl, hfetched⟩ := h
        rw [onExcept_ok]
        split
        · rw [wp_run_bind, wp_ofExcept]
          cases hactor : response.actor with
          | error e => exact hdb
          | ok apActor =>
              rw [onExcept_ok]
              cases hremote : apActorToRemote ext apActor response.url activity.actor with
              | error e => exact (wp_run_pure _ _ _).mpr hdb
              | ok remote =>
                  apply wp_run_bind_inv
                  · exact wp_stored hkeeps hfetched hactor hremote _ hdb
                  · intro _ db₂ hdb₂
                    exact (wp_run_pure _ _ db₂).mpr hdb₂
        · exact (wp_run_pure _ _ _).mpr hdb
  · exact (wp_run_pure _ _ db).mpr hdb

/-- A call keeps what storing keeps. -/
theorem wp_handle_inv (call : ActorCall) (hdb : Inv db) :
  wp fedWorld C (fun _ db' => Inv db') (call.handle ext).run db
  := by
  cases call with
  | resolve actorUri =>
      apply wp_run_bind_inv
      · exact wp_resolveActor_inv hkeeps actorUri hdb
      · intro _ db₁ hdb₁
        exact (wp_run_pure _ _ db₁).mpr hdb₁
  | signer keyId =>
      apply wp_run_bind_inv
      · exact wp_resolveSignerByKeyId_inv hkeeps keyId hdb
      · intro _ db₁ hdb₁
        exact (wp_run_pure _ _ db₁).mpr hdb₁
  | refresh actorUri vmId =>
      apply wp_run_bind_inv
      · rw [refreshAssertionKey, wp_unwrapOr]
        exact wp_refetchAssertionKey_inv hkeeps actorUri vmId hdb
      · intro _ db₁ hdb₁
        exact (wp_run_pure _ _ db₁).mpr hdb₁
  | update activity => exact wp_handleUpdateActor_inv hkeeps activity hdb

/-- A call whose fetches meet the condition keeps what storing keeps. -/
theorem ActorEvent.after_inv {e : ActorEvent} (halong : e.Along ext C db) (hdb : Inv db) :
  Inv (e.after ext db)
  := wp_run (wp_handle_inv hkeeps e.call hdb) halong

omit hkeeps in
@[simp]
theorem Db.insertTombstone_toCore (apId : String) (db : Db) :
  (db.insertTombstone apId).toCore = db.toCore
  := by
  rw [insertTombstone]
  split
  · rfl
  · rfl

omit hkeeps in
/-- A call creates and changes no row of a local actor. -/
theorem ActorEvent.locals_after (e : ActorEvent) (db : Db) (a : Actor) (hlocal : a.isLocal = true) :
  a ∈ (e.after ext db).actors ↔ a ∈ db.actors
  := by
  have hkept : StoredKeeps ext (Always fedWorld)
      (fun db' => a ∈ db'.actors ↔ a ∈ db.actors) := by
    constructor
    · intro db' url response apActor remote _ _ _ key h
      rw [(Db.upsertRemoteActor_refreshes _ db').locals a hlocal]
      exact h
    · intro db' url response _ h
      rw [Db.insertTombstone_toCore]
      exact h
  apply ActorEvent.after_inv hkept
  · apply alongFrom_always
  · exact Iff.rfl

/-! ### Statements that do not fail -/

/-- No statement fails. -/
def SqlAnswers : Condition fedWorld
  | .sql _, c, _ => c.error = none
  | _, _, _ => True

omit hkeeps in
/-- A statement takes effect, where none fails. -/
theorem wp_sql_answers (hC : ∀ q c db, C q c db → SqlAnswers q c db) (st : Sql)
    {Post : Except NoombatError st.Result → Db → Prop}
    (h : ∀ pick, Post (st.exec pick db).1 (st.exec pick db).2) :
  wp fedWorld C Post (sql st).run db
  := by
  apply (wp_request (FedRequest.sql st) Post db).mpr
  intro c hc
  have hnone : c.error = none := hC _ _ _ hc
  simp only [fedWorld, hnone]
  apply h

omit hkeeps in
/-- What a program does where no statement fails. -/
theorem run_of_answers {α : Type} {p : Handler α} {Post : Except NoombatError α → Db → Prop}
    (hp : wp fedWorld SqlAnswers Post p.run db) {script : Script fedWorld}
    (hscript : ∀ n st, (script n (.sql st)).error = none) :
  Post (run fedWorld script p.run db).1 (run fedWorld script p.run db).2
  := by
  apply wp_run hp
  apply alongFrom_of_script
  intro n q s
  cases q with
  | sql st => exact hscript n st
  | _ => trivial

end Federation
