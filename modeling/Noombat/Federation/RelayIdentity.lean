import Noombat.Federation.Effects

/-!
# Which relay an actor is

Three functions recognise a relay by the URI of an actor: one accepts a subscription, one
takes an announcement for a relay's, and one finds the policy that is in force.  They match
the URI against the inbox of a subscription as strings.
-/

namespace Federation

open Fallible Program Text

/-! ### The subscription that a request is answered from -/

/-- A statement about relays is answered from a subscription; whether there is one is
answered from each that there is. -/
def AnsweredFrom (r : RelaySubscription) (q : FedRequest) (c : fedWorld.Choice q) (db : Db) :
    Prop :=
  match q, c with
  | .sql (.relayExists derivedInbox actorUri), c =>
      c.error = none ∧ r ∈ db.relays .accepted derivedInbox actorUri
  | .sql (.relayPolicy derivedInbox actorUri), c =>
      c.error = none ∧ pickFrom c.pick (db.relays .accepted derivedInbox actorUri) = some r
  | .sql (.pendingRelay derivedInbox actorUri), c =>
      c.error = none ∧ pickFrom c.pick (db.relays .pending derivedInbox actorUri) = some r
  | _, _ => False

/-- A handler may treat an actor as a given relay: in some run, a request is answered from
its subscription. -/
def Treats {α : Type} (p : Handler α) (db : Db) (r : RelaySubscription) : Prop :=
  ∃ script : Script fedWorld,
    ¬ Along fedWorld (fun q c db => ¬ AnsweredFrom r q c db) script p.run db

/-- Whether a request is a statement about relays. -/
def FedRequest.aboutRelays : FedRequest → Bool
  | .sql (.relayExists _ _) => true
  | .sql (.relayPolicy _ _) => true
  | .sql (.pendingRelay _ _) => true
  | _ => false

theorem AnsweredFrom.aboutRelays {r : RelaySubscription} {q : FedRequest}
    {c : fedWorld.Choice q} {db : Db} (h : AnsweredFrom r q c db) :
  q.aboutRelays = true
  := by
  unfold AnsweredFrom at h
  split at h
  · rfl
  · rfl
  · rfl
  · cases h

/-- If only the first request of a handler is about relays, the handler treats an actor as
the relays that this request may be answered from. -/
theorem treats_iff {α : Type} {p : Handler α} {q : FedRequest}
    {k : Fed.Answer q → Program Fed (Except NoombatError α)} (hp : p.run = call q k)
    (hk : ∀ a, Every (fun q : FedRequest => q.aboutRelays = false) (k a)) (db : Db) (r : RelaySubscription) :
  Treats p db r ↔ ∃ c, AnsweredFrom r q c db
  := by
  unfold Treats
  rw [hp]
  constructor
  · rintro ⟨script, hnot⟩
    refine ⟨script 0 q, ?_⟩
    by_contra hc
    apply hnot
    refine ⟨hc, Every.along ?_ 1 (hk _) _⟩
    intro q' c' s' hq' hfrom
    rw [hfrom.aboutRelays] at hq'
    cases hq'
  · rintro ⟨c, hc⟩
    classical
    refine ⟨fun n => Function.update (steady (fun _ => .error .forbidden) n) q c, ?_⟩
    rintro ⟨hnot, _⟩
    apply hnot
    simpa using hc

/-! ### The three recognitions -/

theorem pickFrom_eq_some_iff {α : Type} {rows : List α} {a : α} :
  (∃ pick, pickFrom pick rows = some a) ↔ a ∈ rows
  := by
  constructor
  · rintro ⟨pick, h⟩
    apply List.mem_of_getElem? h
  · intro h
    obtain ⟨i, hi, rfl⟩ := List.mem_iff_getElem.mp h
    refine ⟨i, ?_⟩
    simp [pickFrom, Nat.mod_eq_of_lt hi]

/-- The inbox that is derived from a URI starts with it, so that a subscription matches
just when its inbox starts with the URI. -/
theorem mem_relays {db : Db} {status : RelayStatus} {actorUri : String} {r : RelaySubscription} :
  r ∈ db.relays status s!"{actorUri}/inbox" actorUri ↔
    r ∈ db.relaySubscriptions ∧ r.status = status ∧ startsWith r.inboxUrl actorUri = true
  := by
  unfold Db.relays
  rw [List.mem_filter, Table.mem_rows]
  simp only [Bool.and_eq_true, beq_iff_eq, Bool.or_eq_true]
  constructor
  · rintro ⟨hr, hstatus, hinbox | hinbox⟩
    · refine ⟨hr, hstatus, ?_⟩
      rw [hinbox]
      apply startsWith_append
    · exact ⟨hr, hstatus, hinbox⟩
  · rintro ⟨hr, hstatus, hinbox⟩
    exact ⟨hr, hstatus, .inr hinbox⟩

variable {db : Db} {actorUri : String} {r : RelaySubscription}

theorem treats_isRelayAnnounce :
  Treats (isRelayAnnounce actorUri) db r ↔
    r ∈ db.relays .accepted s!"{actorUri}/inbox" actorUri
  := by
  have hrun : (isRelayAnnounce actorUri).run =
      call (I := Fed) (.sql (.relayExists s!"{actorUri}/inbox" actorUri)) fun a =>
        .done (.ok (orDefault false a)) := by
    unfold isRelayAnnounce unwrapOr
    rw [run_bind, run_attempt]
    change call _ _ = call _ _
    congr 1
    funext a
    rcases a with e | a <;> rfl
  rw [treats_iff hrun (fun _ => every_done _)]
  constructor
  · rintro ⟨c, hc⟩
    apply hc.2
  · intro hr
    exact ⟨⟨none, 0⟩, rfl, hr⟩

theorem treats_policyForRelay {defaultPolicy : RelayVerificationPolicy} :
  Treats (policyForRelay defaultPolicy actorUri) db r ↔
    r ∈ db.relays .accepted s!"{actorUri}/inbox" actorUri
  := by
  have hrun : (policyForRelay defaultPolicy actorUri).run =
      call (I := Fed) (.sql (.relayPolicy s!"{actorUri}/inbox" actorUri)) fun a =>
        .done (.ok (policyOf defaultPolicy (orDefault none a))) := by
    unfold policyForRelay unwrapOr
    rw [run_bind, run_bind, run_attempt]
    change call _ _ = call _ _
    congr 1
    funext a
    rcases a with e | a <;> rfl
  rw [treats_iff hrun (fun _ => every_done _), ← pickFrom_eq_some_iff]
  constructor
  · rintro ⟨c, _, hc⟩
    exact ⟨c.pick, hc⟩
  · rintro ⟨pick, hpick⟩
    exact ⟨⟨none, pick⟩, rfl, hpick⟩

/-- The rest of `tryHandleRelayAccept`, once the subscription is looked up. -/
def afterPendingRelay :
    Except NoombatError (Option String) → Program Fed (Except NoombatError Bool)
  | .error e => .done (.error e)
  | .ok none => .done (.ok false)
  | .ok (some inbox) => (Repo.markAccepted inbox >>= fun _ => pure true : Handler Bool).run

theorem run_tryHandleRelayAccept :
  (tryHandleRelayAccept actorUri).run =
    call (I := Fed) (.sql (.pendingRelay s!"{actorUri}/inbox" actorUri)) afterPendingRelay
  := by
  unfold tryHandleRelayAccept
  rw [run_bind]
  change call _ _ = call _ _
  congr 1
  funext a
  rcases a with e | _ | inbox <;> rfl

theorem treats_tryHandleRelayAccept :
  Treats (tryHandleRelayAccept actorUri) db r ↔
    r ∈ db.relays .pending s!"{actorUri}/inbox" actorUri
  := by
  have hlater : ∀ a, Every (fun q : FedRequest => q.aboutRelays = false)
      (afterPendingRelay a) := by
    rintro (e | _ | inbox)
    · apply every_done
    · apply every_done
    · have hmark : Every (fun q : FedRequest => q.aboutRelays = false)
          (Repo.markAccepted inbox).run := every_sql rfl
      apply every_run_bind hmark
      intro _
      apply every_run_pure
  rw [treats_iff run_tryHandleRelayAccept hlater, ← pickFrom_eq_some_iff]
  constructor
  · rintro ⟨c, _, hc⟩
    exact ⟨c.pick, hc⟩
  · rintro ⟨pick, hpick⟩
    exact ⟨⟨none, pick⟩, rfl, hpick⟩

/-! ### Whether it is the right one -/

/-- An actor is treated as a given relay by one of the three functions. -/
def TreatedAs (defaultPolicy : RelayVerificationPolicy) (db : Db) (actorUri : String)
    (r : RelaySubscription) : Prop :=
  Treats (isRelayAnnounce actorUri) db r ∨ Treats (policyForRelay defaultPolicy actorUri) db r ∨
    Treats (tryHandleRelayAccept actorUri) db r

/-- An actor is identified with one relay at most, and one of its own origin; no
subscription of another origin is accepted at its word, and it announces for none. -/
structure RelayIdentified (ext : External) (defaultPolicy : RelayVerificationPolicy) (db : Db)
    (actorUri : String) : Prop where
  origin : ∀ r, TreatedAs defaultPolicy db actorUri r → SameOrigin ext actorUri r.inboxUrl
  agree : ∀ r r', TreatedAs defaultPolicy db actorUri r → TreatedAs defaultPolicy db actorUri r' →
    r = r'
  accepts : ∀ script, ∀ r ∈
    (run fedWorld script (tryHandleRelayAccept actorUri).run db).2.relaySubscriptions,
    r ∈ db.relaySubscriptions ∨ SameOrigin ext actorUri r.inboxUrl
  announces : ∀ script, (run fedWorld script (isRelayAnnounce actorUri).run db).1 = .ok true →
    ∃ r ∈ db.relaySubscriptions, r.status = .accepted ∧ SameOrigin ext actorUri r.inboxUrl

/-- The subscriptions, not rejected, whose inbox starts with the URI of an actor. -/
def Db.prefixed (db : Db) (actorUri : String) (r : RelaySubscription) : Prop :=
  r ∈ db.relaySubscriptions ∧ r.status ≠ .rejected ∧ startsWith r.inboxUrl actorUri = true

variable {ext : External} {defaultPolicy : RelayVerificationPolicy}

theorem treatedAs_iff :
  TreatedAs defaultPolicy db actorUri r ↔ db.prefixed actorUri r
  := by
  unfold TreatedAs Db.prefixed
  rw [treats_isRelayAnnounce, treats_policyForRelay, treats_tryHandleRelayAccept, mem_relays,
    mem_relays]
  constructor
  · rintro (⟨hr, hstatus, hinbox⟩ | ⟨hr, hstatus, hinbox⟩ | ⟨hr, hstatus, hinbox⟩)
    all_goals
      refine ⟨hr, ?_, hinbox⟩
      rw [hstatus]
      decide
  · rintro ⟨hr, hstatus, hinbox⟩
    cases h : r.status with
    | accepted => exact .inl ⟨hr, rfl, hinbox⟩
    | pending => exact .inr (.inr ⟨hr, rfl, hinbox⟩)
    | rejected => exact absurd h hstatus

/-- Accepting a subscription changes those with its inbox. -/
theorem mem_markAccepted {inbox : String} :
  r ∈ (db.markAccepted inbox).relaySubscriptions → r ∈ db.relaySubscriptions ∨ r.inboxUrl = inbox
  := by
  intro hr
  obtain ⟨r', hr', rfl⟩ := List.mem_map.mp hr
  by_cases hinbox : r'.inboxUrl = inbox
  · right
    simp [hinbox]
  · left
    rw [if_neg (by simpa using hinbox)]
    apply hr'

/-- A subscription that is accepted at the word of an actor has an inbox that starts with
its URI. -/
theorem wp_tryHandleRelayAccept :
  wp fedWorld (Always fedWorld)
    (fun _ db' => ∀ r ∈ db'.relaySubscriptions, r ∈ db.relaySubscriptions ∨
      ∃ r' ∈ db.relays .pending s!"{actorUri}/inbox" actorUri, r'.inboxUrl = r.inboxUrl)
    (tryHandleRelayAccept actorUri).run db
  := by
  unfold tryHandleRelayAccept
  rw [wp_run_bind]
  apply wp_sql (.pendingRelay s!"{actorUri}/inbox" actorUri)
  · intro e r hr
    exact .inl hr
  intro c _
  simp only [Sql.exec]
  cases hpick : pickFrom c.pick (db.relays .pending s!"{actorUri}/inbox" actorUri) with
  | none =>
      change wp fedWorld _ _ (pure false : Handler Bool).run db
      rw [wp_run_pure]
      intro r hr
      exact .inl hr
  | some r' =>
      change wp fedWorld _ _ (Repo.markAccepted r'.inboxUrl >>= fun _ => pure true :
        Handler Bool).run db
      rw [wp_run_bind]
      apply wp_sql (.markAccepted r'.inboxUrl)
      · intro e r hr
        exact .inl hr
      intro c _
      change wp fedWorld _ _ (pure true : Handler Bool).run (db.markAccepted r'.inboxUrl)
      rw [wp_run_pure]
      intro r hr
      rcases mem_markAccepted hr with hr | hr
      · exact .inl hr
      · exact .inr ⟨r', pickFrom_eq_some_iff.mp ⟨_, hpick⟩, hr.symm⟩

/-- An announcement is taken for a relay's when there is an accepted subscription whose
inbox starts with the URI of the actor. -/
theorem wp_isRelayAnnounce :
  wp fedWorld (Always fedWorld)
    (fun isRelay _ => isRelay = .ok true →
      ∃ r, r ∈ db.relays .accepted s!"{actorUri}/inbox" actorUri)
    (isRelayAnnounce actorUri).run db
  := by
  unfold isRelayAnnounce
  rw [wp_unwrapOr]
  apply wp_sql (.relayExists s!"{actorUri}/inbox" actorUri)
  · intro e hisRelay
    simp [orDefault] at hisRelay
  · intro c _ hisRelay
    apply List.exists_mem_of_ne_nil
    intro hnil
    simp [Sql.exec, orDefault, hnil] at hisRelay

/-- An actor is identified rightly just when at most one subscription that is not rejected
has an inbox that starts with the URI of the actor, and this has its origin. -/
theorem relayIdentified_iff (ext : External) (defaultPolicy : RelayVerificationPolicy) (db : Db)
    (actorUri : String) :
  RelayIdentified ext defaultPolicy db actorUri ↔
    (∀ r, db.prefixed actorUri r → SameOrigin ext actorUri r.inboxUrl) ∧
      ∀ r r', db.prefixed actorUri r → db.prefixed actorUri r' → r = r'
  := by
  constructor
  · rintro ⟨horigin, hagree, _, _⟩
    constructor
    · intro r hr
      apply horigin r (treatedAs_iff.mpr hr)
    · intro r r' hr hr'
      apply hagree r r' (treatedAs_iff.mpr hr) (treatedAs_iff.mpr hr')
  · rintro ⟨horigin, hagree⟩
    constructor
    · intro r hr
      apply horigin r (treatedAs_iff.mp hr)
    · intro r r' hr hr'
      apply hagree r r' (treatedAs_iff.mp hr) (treatedAs_iff.mp hr')
    · intro script r hr
      rcases wp_run_always wp_tryHandleRelayAccept r hr with hr | ⟨r', hr', hurl⟩
      · exact .inl hr
      · right
        have htreated : TreatedAs defaultPolicy db actorUri r' :=
          .inr (.inr (treats_tryHandleRelayAccept.mpr hr'))
        rw [← hurl]
        apply horigin r' (treatedAs_iff.mp htreated)
    · intro script hisRelay
      obtain ⟨r, hr⟩ := wp_run_always wp_isRelayAnnounce hisRelay
      have htreated : TreatedAs defaultPolicy db actorUri r :=
        .inl (treats_isRelayAnnounce.mpr hr)
      obtain ⟨hmem, hstatus, _⟩ := mem_relays.mp hr
      exact ⟨r, hmem, hstatus, horigin r (treatedAs_iff.mp htreated)⟩

/-- A host whose name is the start of a relay's can have the relay's subscription accepted,
and announces for it. -/
theorem prefixHost_not_relayIdentified :
  ¬ RelayIdentified .plain .verify
    { Db.empty with
      relaySubscriptions := ⟨[⟨"https://relay.example.com/inbox", .accepted, none⟩], by simp⟩ }
    "https://relay.example.co"
  := by
  rw [relayIdentified_iff]
  rintro ⟨horigin, _⟩
  obtain ⟨origin, hactor, hinbox⟩ := horigin ⟨"https://relay.example.com/inbox", .accepted, none⟩
    ⟨List.mem_singleton_self _, by decide, by decide +kernel⟩
  have hne : originOf .plain "https://relay.example.co" ≠
      originOf .plain "https://relay.example.com/inbox" := by
    decide +kernel
  exact hne (hactor.trans hinbox.symm)

end Federation
