import Noombat.Federation.Storing

/-!
# What consulting the actors changes

The functions that look actors up and verify documents refresh the rows of remote actors,
and record the actors that are gone.  They leave the local actors, the posts and all other
tables as they are.
-/

namespace Federation

open Fallible Program

/-! ### Refreshed databases -/

/-- An actor without the columns that its instance owns. -/
def Actor.lasting (a : Actor) : Actor :=
  { a with
    publicKeyPem := ""
    publicKeyId := none
    displayName := none
    summaryHtml := none
    sanitiserVersion := 0
    inboxUrl := none
    sharedInboxUrl := none
    ed25519PublicKey := none
    actorPrivacy := ⟨false, false, false⟩ }

/-- The tables other than those of the actors, the posts and the actors that are gone. -/
def Db.others (db : Db) : Db :=
  { db with toCore := .empty, tombstonedActors := [] }

/-- Remote actors are added or refreshed, and perhaps recorded as gone; nothing else
changes. -/
structure Db.Refreshes (db db' : Db) : Prop where
  others_eq : db'.others = db.others
  posts_eq : db'.posts = db.posts
  actors : ∀ a ∈ db.actors, ∃ a' ∈ db'.actors, a'.lasting = a.lasting
  locals : ∀ a : Actor, a.isLocal = true → (a ∈ db'.actors ↔ a ∈ db.actors)

namespace Db.Refreshes

variable {db db' db'' : Db}

theorem refl (db : Db) :
  db.Refreshes db
  := ⟨rfl, rfl, fun a ha => ⟨a, ha, rfl⟩, fun _ _ => Iff.rfl⟩

theorem trans (h : db.Refreshes db') (h' : db'.Refreshes db'') :
  db.Refreshes db''
  := by
  constructor
  · exact h'.others_eq.trans h.others_eq
  · exact h'.posts_eq.trans h.posts_eq
  · intro a ha
    obtain ⟨a', ha', hlasting⟩ := h.actors a ha
    obtain ⟨a'', ha'', hlasting'⟩ := h'.actors a' ha'
    exact ⟨a'', ha'', hlasting'.trans hlasting⟩
  · intro a hlocal
    rw [h'.locals a hlocal, h.locals a hlocal]

theorem follows_eq (h : db.Refreshes db') :
  db'.follows = db.follows
  := by
  have hothers := congrArg Db.follows h.others_eq
  exact hothers

theorem deliveryQueue_eq (h : db.Refreshes db') :
  db'.deliveryQueue = db.deliveryQueue
  := by
  have hothers := congrArg Db.deliveryQueue h.others_eq
  exact hothers

theorem relaySubscriptions_eq (h : db.Refreshes db') :
  db'.relaySubscriptions = db.relaySubscriptions
  := by
  have hothers := congrArg Db.relaySubscriptions h.others_eq
  exact hothers

/-- A change of the actors that refreshes remote ones and adds remote ones. -/
theorem of_core {core : Core} (hposts : core.posts = db.posts)
    (hactors : ∀ a ∈ db.actors, ∃ a' ∈ core.actors, a'.lasting = a.lasting)
    (hlocals : ∀ a : Actor, a.isLocal = true → (a ∈ core.actors ↔ a ∈ db.actors)) :
  db.Refreshes { db with toCore := core }
  := ⟨rfl, hposts, hactors, hlocals⟩

end Db.Refreshes

@[simp]
theorem ActorChange.refresh_lasting (remote : RemoteActor) (a : Actor) :
  ((ActorChange.refresh remote).apply a).lasting = a.lasting
  := rfl

@[simp]
theorem ActorChange.refresh_isLocal (remote : RemoteActor) (a : Actor) :
  ((ActorChange.refresh remote).apply a).isLocal = a.isLocal
  := rfl

/-- Storing a remote actor refreshes its row, or adds one. -/
theorem Db.upsertRemoteActor_refreshes (remote : RemoteActor) (db : Db) :
  db.Refreshes (db.upsertRemoteActor remote).2
  := by
  rw [Db.upsertRemoteActor]
  split
  · rename_i core h
    split at h
    · obtain ⟨hposts, _, hactors⟩ := Core.of_insertActor h
      apply Refreshes.of_core hposts
      · intro a ha
        exact ⟨a, (hactors a).mpr (.inr ha), rfl⟩
      · intro a hlocal
        rw [hactors a]
        constructor
        · intro ha
          apply ha.resolve_left
          intro hnew
          rw [hnew] at hlocal
          cases hlocal
        · exact .inr
    · obtain ⟨hposts, _, hactors⟩ := Core.of_updateActors h
      apply Refreshes.of_core hposts
      · intro a ha
        refine ⟨_, (hactors _).mpr ⟨a, ha, rfl⟩, ?_⟩
        split
        · apply ActorChange.refresh_lasting
        · rfl
      · intro a hlocal
        rw [hactors a]
        constructor
        · rintro ⟨b, hb, rfl⟩
          split at hlocal
          · rename_i hrefreshed
            rw [ActorChange.refresh_isLocal] at hlocal
            simp [hlocal] at hrefreshed
          · rename_i hkept
            rw [if_neg hkept]
            exact hb
        · intro ha
          exact ⟨a, ha, by simp [hlocal]⟩
  · apply Refreshes.refl

/-! ### Requests that refresh -/

/-- The requests by which actors are looked up, and remote ones stored. -/
def FedRequest.Consulting (q : FedRequest) : Prop :=
  q.consults = true ∨ ∃ remote, q = .sql (.upsertRemoteActor remote)

theorem Sql.exec_refreshes {s : Sql} (h : FedRequest.consults (.sql s) = true) (pick : Nat)
    (db : Db) :
  db.Refreshes (s.exec pick db).2
  := by
  cases s with
  | insertTombstone apId =>
      simp only [exec, Db.insertTombstone]
      split
      · apply Db.Refreshes.refl
      · exact ⟨rfl, rfl, fun a ha => ⟨a, ha, rfl⟩, fun _ _ => Iff.rfl⟩
  | _ => first | exact Db.Refreshes.refl db | cases h

theorem FedRequest.Consulting.exec {q : FedRequest} (h : q.Consulting) (c : fedWorld.Choice q)
    (db : Db) :
  db.Refreshes (fedWorld.exec q c db).2
  := by
  obtain h | ⟨remote, rfl⟩ := h
  · cases q with
    | sql s =>
        simp only [fedWorld]
        split
        · apply Db.Refreshes.refl
        · apply Sql.exec_refreshes h
    | _ => apply Db.Refreshes.refl
  · simp only [fedWorld]
    split
    · apply Db.Refreshes.refl
    · apply Db.upsertRemoteActor_refreshes

section Rules

variable {C : Condition fedWorld} {ext : External}

/-- Running a program that only consults the actors refreshes the database. -/
theorem wp_consulting {α : Type} {p : Program Fed α} (h : Every FedRequest.Consulting p)
    (db : Db) :
  wp fedWorld C (fun _ db' => db.Refreshes db') p db
  := by
  apply Every.wp_rel (G := Db.Refreshes) Db.Refreshes.refl Db.Refreshes.trans _ h db
  intro q hq c db' _
  apply hq.exec

theorem consulting_resolveActor (uri : String) :
  Every FedRequest.Consulting (resolveActor ext uri).run
  := every_resolveActor ext (fun _ => .inl) (fun remote => .inr ⟨remote, rfl⟩) uri

theorem consulting_verifyInboundProof (document : Json) (author : String) :
  Every FedRequest.Consulting (verifyInboundProof ext document author).run
  := every_verifyInboundProof ext (fun _ => .inl) (fun remote => .inr ⟨remote, rfl⟩) document author

/-- The actor documents that are served for a URI claim this URI. -/
def ClaimsItself (ext : External) (uri : String) : Condition fedWorld :=
  fun q c _ => ∀ response apActor, q.fetched c = some (uri, response) →
    response.actor = .ok apActor → verifyFetchedActorId ext apActor.id response.url uri = .ok () →
      apActor.id = uri

/-- Where the documents that are served for a URI claim it, it is resolved to the actor that
is known under it. -/
theorem wp_resolveActor_self {uri : String} (hC : ∀ q c db, C q c db → ClaimsItself ext uri q c db)
    (db : Db) :
  wp fedWorld C
    (onExcept (fun a db' => db.Refreshes db' ∧ db'.Knows a.id uri ∧ a.apId = uri)
      (fun _ db' => db.Refreshes db'))
    (resolveActor ext uri).run db
  := by
  apply wp_mono _ (wp_and (wp_consulting (consulting_resolveActor uri) db) (wp_resolveActor uri db))
  rintro (e | a) db' ⟨hdb', hresolved⟩
  · exact hdb'
  · obtain ⟨hknows, hresolves⟩ := hresolved
    have hself : a.apId = uri := by
      obtain h | ⟨response, apActor, ⟨q, c, db₀, hc, hfetched⟩, hactor, hid, h⟩ := hresolves
      · exact h
      · rw [h]
        exact hC q c db₀ hc response apActor hfetched hactor hid
    exact ⟨hdb', hself ▸ hknows, hself⟩

end Rules

/-! ### Local accounts -/

/-- A local actor has the given identifier, URI and username. -/
def Core.Houses (core : Core) (id : Uuid) (apId username : String) : Prop :=
  ∃ a ∈ core.actors, a.isLocal = true ∧ a.id = id ∧ a.apId = apId ∧ a.username = username

/-- No actor is forgotten, and the local ones keep their identifiers and names. -/
structure Core.SameAccounts (core core' : Core) : Prop where
  knows : ∀ {id apId}, core.Knows id apId → core'.Knows id apId
  houses : ∀ id apId username, core'.Houses id apId username ↔ core.Houses id apId username

/-- A local actor is known under the URI that its username gives, and no other local actor
has the username. -/
structure Core.Account (core : Core) (id : Uuid) (apId username : String) : Prop where
  named : extractLocalUsername apId = some username
  known : core.Houses id apId username
  only : ∀ id' apId', core.Houses id' apId' username → id' = id

section Accounts

variable {core core' core'' : Core} {id : Uuid} {apId username : String}

theorem Core.Houses.knows (h : core.Houses id apId username) :
  core.Knows id apId
  := by
  obtain ⟨a, ha, _, hid, hapId, _⟩ := h
  exact ⟨a, ha, hid, hapId⟩

/-- A URI is known for one identifier at most. -/
theorem Core.Knows.id_eq {id' : Uuid} (h : core.Knows id apId) (h' : core.Knows id' apId) :
  id = id'
  := by
  obtain ⟨a, ha, rfl, hapId⟩ := h
  obtain ⟨b, hb, rfl, hapId'⟩ := h'
  rw [actor_eq_of_apId ha hb (hapId.trans hapId'.symm)]

theorem Core.SameAccounts.refl (core : Core) :
  core.SameAccounts core
  := ⟨fun h => h, fun _ _ _ => Iff.rfl⟩

theorem Core.SameAccounts.trans (h : core.SameAccounts core') (h' : core'.SameAccounts core'') :
  core.SameAccounts core''
  := by
  constructor
  · intro id apId hknows
    apply h'.knows (h.knows hknows)
  · intro id apId username
    rw [h'.houses, h.houses]

theorem Core.Account.same (h : core.Account id apId username) (hsame : core.SameAccounts core') :
  core'.Account id apId username
  := by
  constructor
  · exact h.named
  · rw [hsame.houses]
    exact h.known
  · intro id' apId' hhouses
    rw [hsame.houses] at hhouses
    exact h.only id' apId' hhouses

theorem Db.Refreshes.knows {db db' : Db} (h : db.Refreshes db') (hknows : db.Knows id apId) :
  db'.Knows id apId
  := by
  obtain ⟨a, ha, rfl, rfl⟩ := hknows
  obtain ⟨a', ha', hlasting⟩ := h.actors a ha
  have hid : a'.id = a.id := by
    simpa [Actor.lasting] using congrArg Actor.id hlasting
  have hapId : a'.apId = a.apId := by
    simpa [Actor.lasting] using congrArg Actor.apId hlasting
  exact ⟨a', ha', hid, hapId⟩

theorem Db.Refreshes.sameAccounts {db db' : Db} (h : db.Refreshes db') :
  db.SameAccounts db'.toCore
  := by
  constructor
  · exact h.knows
  · intro id apId username
    constructor
    · rintro ⟨a, ha, hlocal, hnames⟩
      exact ⟨a, (h.locals a hlocal).mp ha, hlocal, hnames⟩
    · rintro ⟨a, ha, hlocal, hnames⟩
      exact ⟨a, (h.locals a hlocal).mpr ha, hlocal, hnames⟩

end Accounts

/-- The local actor that is found under a username. -/
theorem wp_findLocalByUsername {C : Condition fedWorld} (username : String) (db : Db) :
  wp fedWorld C
    (onExcept (fun a db' => db' = db ∧ db.Houses a.id a.apId username) (fun _ db' => db' = db))
    (Repo.findLocalByUsername username).run db
  := by
  rw [Repo.findLocalByUsername, wp_run_bind]
  apply wp_sql (.findLocalByUsername username)
  · intro e
    rfl
  intro c _
  rw [Sql.exec, onExcept_ok, wp_okOr]
  cases hfind : db.actors.find fun a => a.username == username && a.isLocal with
  | none => rfl
  | some a =>
      have hmatch := Table.satisfies_of_find hfind
      simp only [Bool.and_eq_true, beq_iff_eq] at hmatch
      exact ⟨rfl, a, Table.mem_of_find hfind, hmatch.2, rfl, rfl, hmatch.1⟩

end Federation
