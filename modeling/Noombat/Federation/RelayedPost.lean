import Noombat.Federation.FetchedPost
import Noombat.Federation.ProofSoundness

/-!
# The provenance of relayed posts

An activity that a relay delivers is accepted on some evidence: its proof verifies under a
stored key, or a document fetched from its origin claims its identifier.  What is stored is
the object of the payload, under the actor that the payload names.  So the evidence is about
the post that is stored just when it is about the payload.
-/

namespace Federation

open Fallible Program Text

variable (ext : External)

/-! ### Evidence -/

/-- What vouches for a post: the object that it has to be taken from, and the actors that it
may be attributed to, whichever of their URIs is used. -/
structure Evidence where
  object : Json
  Author : String → Prop
  same : ∀ {a b}, sameActorUri ext a b = true → Author a → Author b

/-- The author of a fetched object, or of the activity that contains it. -/
def authorOf (document : Json) : Option String :=
  (attributedTo ((document.get "object").getD document)).or (document.getStr "actor")

/-- A verified activity vouches for its object, by its signer. -/
def Evidence.proof (object : Json) (signer : String) : Evidence ext where
  object
  Author a := sameActorUri ext a signer = true
  same hab ha := sameActorUri_trans (sameActorUri_symm hab) ha

/-- A fetched document vouches for the object that it is or contains, by the author it names
if that is of the origin which served it. -/
def Evidence.fetched (document : Json) (finalUrl : Url) : Evidence ext where
  object := (document.get "object").getD document
  Author a := originOf ext a = some finalUrl.origin ∧
    ∃ author, authorOf document = some author ∧ sameActorUri ext author a = true
  same hab ha := by
    obtain ⟨horigin, author, hauthor, hsame⟩ := ha
    rw [originOf_eq_of_sameActorUri hab] at horigin
    exact ⟨horigin, author, hauthor, sameActorUri_trans hsame hab⟩

/-- The evidence on which a relayed activity is accepted: its proof verifies under a key that
is stored for its signer, or the document fetched under its identifier claims this. -/
inductive Evidenced (db : Db) (log : Log) (activity : Json) : Evidence ext → Prop where
  | proof {vmId key clock object} :
      extractVerificationMethodId activity = some vmId → Stored db (stripFragment vmId) key →
      verify ext clock activity key = .valid → activity.get "object" = some object →
      Evidenced db log activity (.proof ext object (stripFragment vmId))
  | fetched {id signer response document} :
      (activity.getStr "id").getD "<unknown>" = id →
      (⟨.signedGet id signer, .ok response⟩ : Fed.Exchange) ∈ log → response.isSuccess = true →
      response.json = .ok document → document.getStr "id" = some id →
      Evidenced db log activity (.fetched ext document response.url)

variable {ext}

/-- A post is what the evidence vouches for: it has the identifier and the content of its
object, and an author of its authors. -/
def Evidence.Vouches (e : Evidence ext) (core : Core) (p : Post) : Prop :=
  e.object.getStr "id" = some p.apId ∧ PostOf ext p.apId e.object e.Author core p

/-- The payload of a relay is what the evidence vouches for. -/
def Evidence.Covers (e : Evidence ext) (inner : Activity) : Prop :=
  inner.object = e.object ∧ e.Author inner.actor

theorem Evidenced.mono {db : Db} {log log' : Log} {activity : Json} {e : Evidence ext}
    (h : Evidenced ext db log activity e) (hlog : log <:+ log') :
  Evidenced ext db log' activity e
  := by
  cases h with
  | proof hvm hkey hverify hobject => exact .proof hvm hkey hverify hobject
  | fetched hid hmem hok hjson hdoc => exact .fetched hid (hlog.subset hmem) hok hjson hdoc

/-! ### The verification of a relayed activity -/

variable {C : Condition logged} {s : Db × Log}

/-- A proof that is found valid verified under a key that is stored. -/
theorem wp_attemptProofVerification (activity : Json) :
  wp logged C
    (onExcept
      (fun verdict _ => verdict = some true → ∃ vmId key clock,
        extractVerificationMethodId activity = some vmId ∧ Stored s.1 (stripFragment vmId) key ∧
          verify ext clock activity key = .valid)
      (fun _ _ => True))
    (attemptProofVerification ext activity).run s
  := by
  unfold attemptProofVerification
  split
  · rw [wp_run_pure]
    intro h
    cases h
  · rename_i vmId hvm
    rw [wp_run_bind]
    apply wp_mono _ (wp_cachedAssertionKey (stripFragment vmId))
    rintro (e | cached) s₁ hcached
    · trivial
    rw [onExcept_ok] at hcached ⊢
    rw [wp_run_bind]
    apply wp_mono _ (wp_log_grows _ _)
    rintro (e | clock) s₂ _
    · trivial
    rw [onExcept_ok]
    split
    · rename_i hverdict
      rw [wp_run_pure]
      obtain ⟨key, hkey, hvalid⟩ := Option.map_eq_some_iff.mp hverdict
      intro _
      exact ⟨vmId, key, clock, hvm, hcached key hkey, hvalid⟩
    all_goals
      rw [wp_run_pure]
      intro h
      cases h

/-- An object whose re-fetch is found consistent was served under its identifier. -/
theorem wp_refetchAndVerify (objectId : String) :
  wp logged C
    (onExcept
      (fun consistent s' => consistent = true → ∃ signer response document,
        (⟨.signedGet objectId signer, .ok response⟩ : Fed.Exchange) ∈ s'.2 ∧
          response.isSuccess = true ∧ response.json = .ok document ∧
          document.getStr "id" = some objectId)
      (fun _ _ => True))
    (refetchAndVerify ext objectId).run s
  := by
  unfold refetchAndVerify
  rw [wp_run_bind]
  apply wp_logged_originFetchPermit
  intro permit
  rw [onExcept_ok]
  split
  · rw [wp_run_bind]
    apply wp_mono _ (wp_log_grows _ _)
    rintro (e | signer) s₁ _
    · trivial
    rw [onExcept_ok, wp_run_bind]
    apply wp_logged_signedGet
    rintro (e | response) _
    · trivial
    rw [onExcept_ok]
    split
    · rename_i hok
      rw [wp_run_bind, wp_ofExcept]
      cases hjson : response.json with
      | error e => trivial
      | ok document =>
          rw [onExcept_ok, wp_run_pure]
          intro hid
          exact ⟨signer, response, document, List.mem_cons_self, hok, hjson, by simpa using hid⟩
    · rw [wp_run_throw]
      trivial
  · rw [wp_run_throw]
    trivial

/-- Unless relays are trusted, an activity that is accepted is accepted on evidence. -/
theorem wp_verifyRelayedActivity {activity object : Json} {policy : RelayVerificationPolicy}
    (hpolicy : policy ≠ .trustRelay) (hobject : activity.get "object" = some object) :
  wp logged C
    (onExcept
      (fun outcome s' => outcome ≠ .discard → ∃ e, Evidenced ext s.1 s'.2 activity e)
      (fun _ _ => True))
    (verifyRelayedActivity ext activity policy).run s
  := by
  unfold verifyRelayedActivity
  rw [wp_run_bind]
  apply wp_mono _ (wp_attemptProofVerification activity)
  rintro (e | verdict) s₁ hverdict
  · trivial
  rw [onExcept_ok] at hverdict ⊢
  split
  · rw [wp_run_pure]
    intro _
    obtain ⟨vmId, key, clock, hvm, hkey, hverify⟩ := hverdict rfl
    exact ⟨_, .proof hvm hkey hverify hobject⟩
  · rw [wp_run_pure]
    intro h
    exact absurd rfl h
  · rw [wp_run_pure]
    intro h
    exact absurd rfl h
  · simp only
    rw [wp_run_bind, wp_unwrapOr]
    apply wp_mono _ (wp_refetchAndVerify _)
    rintro (e | consistent) s₂ hconsistent
    · rw [onExcept_ok, orDefault, wp_run_pure]
      intro h
      exact absurd rfl h
    · rw [onExcept_ok, orDefault, wp_run_pure]
      intro h
      cases consistent with
      | false => exact absurd rfl h
      | true =>
          obtain ⟨signer, response, document, hmem, hok, hjson, hid⟩ := hconsistent rfl
          exact ⟨_, .fetched rfl hmem hok hjson hid⟩
  · exact absurd rfl hpolicy

/-! ### What a relay delivers -/

/-- The policy that a request finds in force. -/
def FedRequest.policyInForce (defaultPolicy : RelayVerificationPolicy) :
    (q : FedRequest) → fedWorld.Choice q → Db → Option RelayVerificationPolicy
  | .sql (.relayPolicy derivedInbox actorUri), c, db =>
      some (policyOf defaultPolicy
        (orDefault none (fedWorld.exec (.sql (.relayPolicy derivedInbox actorUri)) c db).1))
  | _, _, _ => none

/-- The policy in force is one that verifies. -/
def Verifying (defaultPolicy : RelayVerificationPolicy) : Condition fedWorld :=
  fun q c db => q.policyInForce defaultPolicy c db ≠ some .trustRelay

instance (defaultPolicy : RelayVerificationPolicy) (q : FedRequest) (c : fedWorld.Choice q)
    (db : Db) : Decidable (Verifying defaultPolicy q c db) :=
  inferInstanceAs (Decidable (_ ≠ _))

instance (defaultPolicy : RelayVerificationPolicy) (q : FedRequest) (c : logged.Choice q)
    (s : Db × Log) : Decidable (Verifying defaultPolicy q c s.1) :=
  inferInstanceAs (Decidable (_ ≠ _))

/-- The actor documents that are served for a URI are those of its actor. -/
def Claims (ext : External) (uri : String) : Condition fedWorld :=
  fun q c _ => ∀ response apActor, q.fetched c = some (uri, response) →
    response.actor = .ok apActor → verifyFetchedActorId ext apActor.id response.url uri = .ok () →
      sameActorUri ext apActor.id uri = true

/-- A post that is taken from the payload of a relay. -/
def RelayedFrom (ext : External) (C : Condition fedWorld) (payload : Json) (core : Core)
    (p : Post) : Prop :=
  ∃ inner apId, Activity.ofJson payload = some inner ∧ inner.object.getStr "id" = some apId ∧
    PostOf ext apId inner.object (ResolvesTo ext C inner.actor) core p

section Relayed

variable {C : Condition fedWorld} {payload : Json}

theorem RelayedFrom.lasting :
  Lasting (RelayedFrom ext C payload)
  := by
  rintro core core' p p' hkeeps hmarks ⟨inner, apId, hinner, hapId, hpost⟩
  exact ⟨inner, apId, hinner, hapId, PostOf.lasting _ _ _ _ hkeeps hmarks hpost⟩

theorem wp_ingestRelayed (activity : Activity) (outcome : RelayVerificationOutcome) (db : Db) :
  wp fedWorld C
    (fun _ db' => db.toCore.Stores db'.toCore (RelayedFrom ext C activity.object))
    (ingestRelayed ext activity outcome).run db
  := by
  unfold ingestRelayed
  split
  · rw [wp_run_pure]
    apply (Core.Keeps.refl _).stores
  · rename_i inner hinner
    split
    · rw [wp_run_bind]
      apply wp_mono _ (wp_handleCreate inner db)
      intro r db₁ hcreated
      have hstores : db.toCore.Stores db₁.toCore (RelayedFrom ext C activity.object) := by
        apply hcreated.mono
        rintro p ⟨apId, hapId, hpost⟩
        exact ⟨inner, apId, hinner, hapId, hpost⟩
      rcases r with e | _
      · exact hstores
      rw [onExcept_ok]
      split
      · rename_i apId _
        have hmark : Every FedRequest.Keeping (Repo.markRelayedUnverified apId).run :=
          every_sql (.inr (.inr (.inl ⟨apId, rfl⟩)))
        apply wp_mono _ (wp_keeping hmark db₁)
        intro _ db₂ hkeeps
        apply hstores.trans_keeps RelayedFrom.lasting hkeeps
      · rw [wp_run_pure]
        exact hstores
    · rw [wp_run_pure]
      apply (Core.Keeps.refl _).stores

theorem wp_policyForRelay {defaultPolicy : RelayVerificationPolicy} (actorUri : String) (db : Db)
    (hverifying : ∀ q c db, C q c db → Verifying defaultPolicy q c db) :
  wp fedWorld C
    (onExcept (fun policy db' => policy ≠ .trustRelay ∧ db' = db) (fun _ _ => False))
    (policyForRelay defaultPolicy actorUri).run db
  := by
  unfold policyForRelay
  rw [wp_run_bind, wp_unwrapOr]
  apply (wp_request (.sql (.relayPolicy s!"{actorUri}/inbox" actorUri)) _ _).mpr
  intro c hc
  rw [onExcept_ok, wp_run_pure]
  constructor
  · intro htrust
    apply hverifying _ _ _ hc
    exact congrArg some htrust
  · simp only [fedWorld]
    split <;> rfl

/-- What a relay delivers under a verifying policy leaves behind the posts that were there, and
one that is taken from the payload, on evidence. -/
theorem wp_handleRelayedAnnounce (config : Config) (activity : Activity) (db : Db) (log : Log)
    (hverifying : ∀ q c db, C q c db → Verifying config.defaultPolicy q c db) :
  wp logged (fun q c s => C q c s.1)
    (fun _ s' => db.toCore.Stores s'.1.toCore fun core p =>
      RelayedFrom ext C activity.object core p ∧
        ∃ e, Evidenced ext db s'.2 activity.object e)
    (handleRelayedAnnounce ext config activity).run (db, log)
  := by
  have hkept : ∀ {db' : Db} {log' : Log}, db'.toCore = db.toCore →
      db.toCore.Stores db'.toCore fun core p =>
        RelayedFrom ext C activity.object core p ∧
          ∃ e, Evidenced ext db log' activity.object e := by
    intro db' log' hcore
    rw [hcore]
    apply (Core.Keeps.refl _).stores
  unfold handleRelayedAnnounce
  split
  · rw [wp_run_bind]
    apply wp_mono _ (wp_traced (wp_policyForRelay activity.actor db hverifying) log)
    rintro (e | policy) ⟨db₁, log₁⟩ hpolicy
    · cases hpolicy
    obtain ⟨hpolicy, rfl⟩ := hpolicy
    rw [onExcept_ok, wp_run_bind]
    have hverify := wp_traced (wp_reading (C := C)
      (every_verifyRelayedActivity ext (FedRequest.consulting fun _ h => h) activity.object policy) db₁) log₁
    cases hinner : Activity.ofJson activity.object with
    | none =>
        apply wp_mono _ hverify
        rintro (e | outcome) ⟨db₂, log₂⟩ hcore
        · apply hkept hcore
        rw [onExcept_ok]
        cases outcome with
        | discard =>
            rw [wp_run_pure]
            apply hkept hcore
        | verified =>
            simp only [ingestRelayed, hinner, wp_run_pure]
            apply hkept hcore
        | unverified =>
            simp only [ingestRelayed, hinner, wp_run_pure]
            apply hkept hcore
    | some inner =>
        have hobject := Activity.object_of_ofJson hinner
        apply wp_mono _ (wp_and hverify (wp_verifyRelayedActivity hpolicy hobject))
        rintro (e | outcome) ⟨db₂, log₂⟩ ⟨hcore, hevidence⟩
        · apply hkept hcore
        have hingest : outcome ≠ .discard → wp logged (fun q c s => C q c s.1)
            (fun _ s' => db₁.toCore.Stores s'.1.toCore fun core p =>
              RelayedFrom ext C activity.object core p ∧
                ∃ e, Evidenced ext db₁ s'.2 activity.object e)
            (ingestRelayed ext activity outcome).run (db₂, log₂) := by
          intro hne
          obtain ⟨e, he⟩ := hevidence hne
          apply wp_mono _ (wp_and (wp_traced (wp_ingestRelayed activity outcome db₂) log₂)
            (wp_log_grows _ _))
          rintro _ ⟨db₃, log₃⟩ ⟨hstores, hlog⟩
          rw [hcore] at hstores
          apply hstores.mono
          intro p hp
          exact ⟨hp, e, he.mono hlog⟩
        rw [onExcept_ok]
        cases outcome with
        | discard =>
            rw [wp_run_pure]
            apply hkept hcore
        | verified => apply hingest (by decide)
        | unverified => apply hingest (by decide)
  · rw [wp_run_pure]
    apply hkept rfl

end Relayed

/-! ### What vouches for a relayed post -/

theorem ResolvesTo.sameActorUri {C : Condition fedWorld} {uri author : String}
    (h : ResolvesTo ext C uri author) (hclaims : ∀ q c db, C q c db → Claims ext uri q c db) :
  sameActorUri ext author uri = true
  := by
  rcases h with rfl | ⟨response, apActor, ⟨q, c, db, hc, hfetched⟩, hactor, hid, rfl⟩
  · apply sameActorUri_refl
  · apply hclaims q c db hc response apActor hfetched hactor hid

/-- Evidence vouches for a post that is taken from a payload just when it covers the
payload. -/
theorem Evidence.vouches_iff {e : Evidence ext} {core : Core} {p : Post} {inner : Activity}
    {apId : String} (hapId : inner.object.getStr "id" = some apId)
    (hpost : PostOf ext apId inner.object (sameActorUri ext · inner.actor = true) core p) :
  e.Vouches core p ↔ e.Covers inner
  := by
  obtain ⟨rfl, ⟨«to», cc, hcontent⟩, author, hknows, hsame⟩ := hpost
  constructor
  · rintro ⟨_, _, ⟨to', cc', hcontent'⟩, author', hknows', hauthor'⟩
    constructor
    · have hobjects := congrArg PostContent.apObject (hcontent.symm.trans hcontent')
      simpa using hobjects
    · apply e.same hsame
      rw [hknows.unique hknows']
      exact hauthor'
  · rintro ⟨hobject, hauthor⟩
    rw [hobject] at hapId hcontent
    exact ⟨hapId, rfl, ⟨«to», cc, hcontent⟩, author, hknows,
      e.same (sameActorUri_symm hsame) hauthor⟩

/-- The run of a relay's announcement, with its record. -/
def relayedRun (ext : External) (config : Config) (activity : Activity) (script : Script logged)
    (db : Db) : Except NoombatError Unit × Db × Log :=
  run logged script (handleRelayedAnnounce ext config activity).run (db, [])

/-- The actor documents that are served for the author of a payload are the author's. -/
def ClaimsAuthor (ext : External) (payload : Json) : Condition fedWorld :=
  fun q c db => ∀ inner, Activity.ofJson payload = some inner → Claims ext inner.actor q c db

/-- Under a verifying policy, a post that a relay's announcement stores is taken from a
payload that was accepted on evidence.  There is evidence that vouches for the post just when
there is some that covers the payload. -/
theorem relayedPost_vouched_iff (ext : External) (config : Config) (activity : Activity)
    (script : Script logged) (db : Db) (p : Post)
    (hpolicy : Along logged (fun q c s => Verifying config.defaultPolicy q c s.1) script
      (handleRelayedAnnounce ext config activity).run (db, []))
    (hclaims : Along logged (fun q c s => ClaimsAuthor ext activity.object q c s.1) script
      (handleRelayedAnnounce ext config activity).run (db, []))
    (hp : p ∈ (relayedRun ext config activity script db).2.1.posts) (hnew : db.nextId ≤ p.id) :
  ∃ inner, Activity.ofJson activity.object = some inner ∧
    (∃ e, Evidenced ext db (relayedRun ext config activity script db).2.2 activity.object e) ∧
    ((∃ e, Evidenced ext db (relayedRun ext config activity script db).2.2 activity.object e ∧
        e.Vouches (relayedRun ext config activity script db).2.1.toCore p) ↔
      ∃ e, Evidenced ext db (relayedRun ext config activity script db).2.2 activity.object e ∧
        e.Covers inner)
  := by
  have hstores := wp_run
    (wp_handleRelayedAnnounce (C := fun q c db => Verifying config.defaultPolicy q c db ∧
        ClaimsAuthor ext activity.object q c db)
      config activity db [] (fun _ _ _ hc => hc.1))
    (hpolicy.and hclaims)
  obtain ⟨⟨inner, apId, hinner, hapId, hpost⟩, hevidence⟩ := hstores.new hp hnew
  have hsame : PostOf ext apId inner.object (sameActorUri ext · inner.actor = true)
      (relayedRun ext config activity script db).2.1.toCore p := by
    obtain ⟨hid, hcontent, author, hknows, hresolves⟩ := hpost
    refine ⟨hid, hcontent, author, hknows, ?_⟩
    apply hresolves.sameActorUri
    intro q c db hc
    apply hc.2 inner hinner
  refine ⟨inner, hinner, hevidence, ?_⟩
  constructor
  · rintro ⟨e, he, hvouches⟩
    exact ⟨e, he, (Evidence.vouches_iff hapId hsame).mp hvouches⟩
  · rintro ⟨e, he, hcovers⟩
    exact ⟨e, he, (Evidence.vouches_iff hapId hsame).mpr hcovers⟩

/-! ### A forged payload -/

/-- Mallory signs a payload that names Alice. -/
def forgedCreate : Json :=
  .obj [("actor", .str alice), ("id", .str "https://social.example/c/1"),
    ("object", note "https://social.example/n/1" alice),
    ("proof", proofBy (mallory ++ "#key") (signatureOf keyOfMallory)), ("type", .str "Create")]

/-- The announcement of a relay. -/
def announcement (relay : String) (payload : Json) : Activity where
  context := none
  id := relay ++ "/a/1"
  activityType := "Announce"
  actor := relay
  object := payload
  «to» := none
  cc := none
  published := none
  target := none
  content := none

/-- A subscribed relay whose activities are verified, and two known actors. -/
def relayDb : Db :=
  { dbOf [.remote alice "alice" "PEM" none, .remote mallory "mallory" "PEM" (some keyOfMallory)] with
    relaySubscriptions := ⟨[⟨"https://relay.example/inbox", .accepted, some "verify"⟩], by simp⟩ }

def relayConfig : Config :=
  ⟨.verify, "home.example"⟩

/-- No server answers. -/
def silent : Script logged :=
  steady fun _ => .error .forbidden

theorem fetched_silent (n : Nat) (q : FedRequest) :
  q.fetched (silent n q) = none
  := by
  cases q <;> rfl

def forgedAnnounce : Activity :=
  announcement "https://relay.example" forgedCreate

def forgedRun : Except NoombatError Unit × Db × Log :=
  relayedRun .plain relayConfig forgedAnnounce silent relayDb

theorem forgedRun_verifying :
  Along logged (fun q c s => Verifying .verify q c s.1) silent
    (handleRelayedAnnounce .plain relayConfig forgedAnnounce).run (relayDb, [])
  := by
  decide +kernel

theorem forgedRun_stores :
  ∃ p ∈ forgedRun.2.1.posts, relayDb.nextId ≤ p.id ∧ forgedRun.2.1.Knows p.actorId alice
  := by
  have hany : (forgedRun.2.1.posts.rows.any fun p =>
      decide (relayDb.nextId ≤ p.id) && forgedRun.2.1.authorIs alice p) = true := by
    decide +kernel
  obtain ⟨p, hp, htest⟩ := List.any_eq_true.mp hany
  simp only [Bool.and_eq_true, decide_eq_true_eq, Core.authorIs_iff] at htest
  exact ⟨p, hp, htest⟩

/-- Whether an exchange is a signed fetch. -/
def isSignedGet : Fed.Exchange → Bool
  | ⟨.signedGet _ _, _⟩ => true
  | _ => false

/-- The forged post is stored as Alice's, and nothing vouches for it. -/
theorem forgedRun_unvouched :
  Along logged (fun q c s => Verifying .verify q c s.1) silent
      (handleRelayedAnnounce .plain relayConfig forgedAnnounce).run (relayDb, []) ∧
    ∃ p ∈ forgedRun.2.1.posts, relayDb.nextId ≤ p.id ∧
      ¬ ∃ e, Evidenced .plain relayDb forgedRun.2.2 forgedAnnounce.object e ∧
        e.Vouches forgedRun.2.1.toCore p
  := by
  refine ⟨forgedRun_verifying, ?_⟩
  obtain ⟨p, hp, hnew, hknows⟩ := forgedRun_stores
  refine ⟨p, hp, hnew, ?_⟩
  rintro ⟨e, he, _, hpost⟩
  cases he with
  | @proof vmId key clock object hvm _ _ _ =>
      have hsigner : (extractVerificationMethodId forgedAnnounce.object).map (fun vmId =>
          sameActorUri .plain alice (stripFragment vmId)) = some false := by
        decide +kernel
      obtain ⟨author, hauthor, hsame⟩ := hpost.author
      rw [hknows.unique hauthor, hvm] at hsigner
      have hdiffer : sameActorUri .plain author (stripFragment vmId) = false := by
        simpa using hsigner
      exact Bool.false_ne_true (hdiffer.symm.trans hsame)
  | fetched _ hmem _ _ _ =>
      have hnone : forgedRun.2.2.any isSignedGet = false := by decide +kernel
      have hfalse := List.any_eq_false.mp hnone _ hmem
      exact hfalse rfl

/-- The forged post is an instance of the general statement. -/
theorem forgedRun_vouched_iff :
  ∃ p ∈ forgedRun.2.1.posts, ∃ inner, Activity.ofJson forgedAnnounce.object = some inner ∧
    (∃ e, Evidenced .plain relayDb forgedRun.2.2 forgedAnnounce.object e) ∧
    ((∃ e, Evidenced .plain relayDb forgedRun.2.2 forgedAnnounce.object e ∧
        e.Vouches forgedRun.2.1.toCore p) ↔
      ∃ e, Evidenced .plain relayDb forgedRun.2.2 forgedAnnounce.object e ∧ e.Covers inner)
  := by
  have hclaims : ∀ n q (s : Db × Log), ClaimsAuthor .plain forgedAnnounce.object q (silent n q) s.1 := by
    intro n q s inner hinner response apActor hfetched
    rw [fetched_silent] at hfetched
    cases hfetched
  obtain ⟨p, hp, hnew, _⟩ := forgedRun_stores
  unfold forgedRun at hp ⊢
  refine ⟨p, hp, relayedPost_vouched_iff .plain relayConfig forgedAnnounce silent relayDb p
    forgedRun_verifying ?_ hp hnew⟩
  apply alongFrom_of_script hclaims

end Federation
