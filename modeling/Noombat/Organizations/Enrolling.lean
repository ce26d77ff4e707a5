import Noombat.Organizations.Calls

/-!
# What an enrolment asks

An enrolment reads the settings, locks its owner, counts what the ceilings are about, writes the
organisation with its owner and its enrolment, and commits: in this order, and only if every
ceiling was above what it counted.  The other calls make no request of its transaction.
-/

namespace Organizations

open Federation (Uuid DateTime NoombatError)
open Fallible Program

abbrev Calls : Type :=
  Pool Orgs Call Registry

variable {lib : OrgLibrary}

/-! ### Phases -/

/-- What an enrolment counts of its owner. -/
inductive Count where
  | held
  | within (interval : Interval)

/-- What a transaction of an enrolment has read, locked, counted and written. -/
structure Enrolling where
  tx : Nat
  time : DateTime
  settings : Option (Option Settings)
  locked : Option Uuid
  counts : List (Count × Nat)
  writes : List Write

def Enrolling.count (c : Count) (n : Nat) (e : Enrolling) : Enrolling :=
  { e with counts := (c, n) :: e.counts }

def Enrolling.write (w : Write) (e : Enrolling) : Enrolling :=
  { e with writes := w :: e.writes }

/-- How far an enrolment has come. -/
inductive Phase where
  | start
  | underWay (e : Enrolling)
  | committed
  /-- The call has returned an error. -/
  | refused

namespace Phase

/-- The phase after an exchange. -/
def next : Phase → Orgs.Exchange → Phase
  | start, ⟨.sql .begin, .ok (tx, time)⟩ => underWay ⟨tx, time, none, none, [], []⟩
  | underWay e, ⟨.sql (.settings _), .ok row⟩ => underWay { e with settings := some row }
  | underWay e, ⟨.sql (.lock _ ownerId), .ok _⟩ => underWay { e with locked := some ownerId }
  | underWay e, ⟨.sql (.held _ _), .ok n⟩ => underWay (e.count .held n)
  | underWay e, ⟨.sql (.enrolmentsWithin _ _ interval), .ok n⟩ =>
      underWay (e.count (.within interval) n)
  | underWay e, ⟨.sql (.createActor _ row), .ok _⟩ => underWay (e.write (.actor row))
  | underWay e, ⟨.sql (.setClaimedDomain _ id domain), .ok _⟩ =>
      underWay (e.write (.claimedDomain id domain))
  | underWay e, ⟨.sql (.setOrgKind _ id kind), .ok _⟩ => underWay (e.write (.orgKind id kind))
  | underWay e, ⟨.sql (.insertOwner _ organizationId ownerId), .ok _⟩ =>
      underWay (e.write (.member ⟨organizationId, ownerId, .owner, some e.time⟩))
  | underWay e, ⟨.sql (.insertEnrolment _ ownerId organizationId), .ok _⟩ =>
      underWay (e.write (.enrolment ⟨ownerId, some organizationId, e.time⟩))
  | underWay _, ⟨.sql (.commit _), .ok _⟩ => committed
  | _, ⟨.respond (.enrolled (.error _)), _⟩ => refused
  | φ, _ => φ

/-- The phase after the exchanges given, the latest first. -/
def of (l : List Orgs.Exchange) : Phase :=
  phaseOf start next l

@[simp]
theorem of_cons (x : Orgs.Exchange) (l : List Orgs.Exchange) :
  of (x :: l) = (of l).next x
  := rfl

/-- A statement that fails changes no phase. -/
theorem next_error (φ : Phase) (q : OrgSql) (e : NoombatError) :
  φ.next ⟨.sql q, .error e⟩ = φ
  := by
  cases φ <;> cases q <;> rfl

/-- The transaction that is under way. -/
def tx : Phase → Option Nat
  | underWay e => some e.tx
  | _ => none

/-- The transaction that is under way, with its time. -/
def began : Phase → Option (Nat × DateTime)
  | underWay e => some (e.tx, e.time)
  | _ => none

/-- A call has a transaction only if it had it before, or has begun it. -/
theorem next_began {φ : Phase} {x : Orgs.Exchange} {b : Nat × DateTime}
    (h : (φ.next x).began = some b) :
  φ.began = some b ∨ x = ⟨.sql .begin, .ok b⟩
  := by
  unfold next at h
  split at h
  · cases h
    exact .inr rfl
  all_goals first | exact .inl h | cases h

theorem next_tx {φ : Phase} {x : Orgs.Exchange} {tx : Nat} (h : (φ.next x).tx = some tx) :
  φ.tx = some tx ∨ ∃ time, x = ⟨.sql .begin, .ok (tx, time)⟩
  := by
  have hbegan : ∀ {ψ : Phase}, ψ.tx = some tx → ∃ time, ψ.began = some (tx, time) := by
    intro ψ hψ
    cases ψ with
    | underWay e =>
        cases hψ
        exact ⟨_, rfl⟩
    | _ => cases hψ
  obtain ⟨time, htime⟩ := hbegan h
  rcases next_began htime with hbefore | hx
  · left
    cases φ with
    | underWay e => exact congrArg some (Prod.mk.inj (Option.some.inj hbefore)).1
    | _ => cases hbefore
  · exact .inr ⟨time, hx⟩

/-- A transaction makes an owner only if it did before, or has just written one. -/
theorem next_member {φ : Phase} {x : Orgs.Exchange} {e : Enrolling} {r : MemberRow}
    (h : φ.next x = underWay e) (hr : .member r ∈ e.writes) :
  (∃ e', φ = underWay e' ∧ .member r ∈ e'.writes) ∨
    ∃ tx, x = ⟨.sql (.insertOwner tx r.organizationId r.memberId), .ok ()⟩
  := by
  unfold next at h
  split at h <;> cases h
  all_goals try exact .inl ⟨_, rfl, hr⟩
  all_goals
    simp only [Enrolling.write, List.mem_cons, List.not_mem_nil, reduceCtorEq, false_or,
      Write.member.injEq] at hr
  all_goals try exact .inl ⟨_, rfl, hr⟩
  rcases hr with rfl | hr
  · exact .inr ⟨_, rfl⟩
  · exact .inl ⟨_, rfl, hr⟩

/-- A statement that is not of an enrolment's transaction, or ends it. -/
def idle : OrgSql → Bool
  | .viewer _ => true
  | .usernameTaken _ _ => true
  | .rollback _ => true
  | .findLocalByUsername _ => true
  | .memberRole _ _ => true
  | .invite _ _ => true
  | .accept _ _ => true
  | .removeMember _ _ => true
  | .findById _ => true
  | .tombstone _ => true
  | .purge _ => true
  | _ => false

theorem next_idle (φ : Phase) {q : OrgSql} (hq : idle q = true) (a : Orgs.Answer (.sql q)) :
  φ.next ⟨.sql q, a⟩ = φ
  := by
  cases φ <;> cases q <;> first | rfl | cases hq

end Phase

/-- A write that is about the row of a new actor only. -/
def Write.onActor (id : Uuid) : Write → Bool
  | .actor row => row.id == id && row.erasedAt.isNone
  | .claimedDomain id' _ => id' == id
  | .orgKind id' _ => id' == id
  | _ => false

/-- A ceiling, if there is one, is above what was counted. -/
def Enrolling.Below (c : Count) (ceiling : Int) (e : Enrolling) : Prop :=
  0 < ceiling → ∃ n : Nat, (c, n) ∈ e.counts ∧ (n : Int) < ceiling

/-- The ceilings are all above what was counted. -/
structure Enrolling.Admitted (policy : OrganizationPolicy) (e : Enrolling) : Prop where
  held : e.Below .held policy.concurrentCap
  period : e.Below (.within policy.capPeriod.intervalArgs) policy.periodCapCount
  rate : e.Below (.within policy.rateLimitPeriod.intervalArgs) policy.rateLimitCount

/-- A transaction has locked its owner, and has read the settings. -/
structure Enrolling.Locked (tx : Nat) (ownerId : Uuid) (policy : OrganizationPolicy)
    (e : Enrolling) : Prop where
  tx : e.tx = tx
  locked : e.locked = some ownerId
  settings : ∃ row, e.settings = some row ∧ policyOf row = policy

/-- A transaction is complete: it was admitted, and makes its owner the accepted owner of an
organisation. -/
structure Enrolling.Ready (tx : Nat) (ownerId : Uuid) (policy : OrganizationPolicy)
    (e : Enrolling) : Prop where
  locked : e.Locked tx ownerId policy
  admitted : e.Admitted policy
  writes : ∃ id ws, e.writes = .enrolment ⟨ownerId, some id, e.time⟩ ::
    .member ⟨id, ownerId, .owner, some e.time⟩ :: ws ∧ ∀ w ∈ ws, w.onActor id = true

/-- The owner for whom a call enrols. -/
def Call.owner : Call → Option Uuid
  | enrol _ token _ => token
  | _ => none

/-- A call that enrols an organisation. -/
def Call.isEnrol : Call → Bool
  | enrol _ _ _ => true
  | _ => false

/-- An actor is an owner of an organisation, or the organisation itself. -/
def MayInvite (organizationId actorId : Uuid) (l : List Orgs.Exchange) : Prop :=
  actorId = organizationId ∨ ⟨.sql (.memberRole organizationId actorId), .ok (some .owner)⟩ ∈ l

/-- What the exchanges of a call are, when it asks something. -/
def Asked (t : Call) (l : List Orgs.Exchange) : OrgRequest → Prop
  | .sql .begin => Phase.of l = .start
  | .sql (.settings tx) => ∃ e, Phase.of l = .underWay e ∧ e.tx = tx ∧ e.writes = []
  | .sql (.lock tx _) => ∃ e, Phase.of l = .underWay e ∧ e.tx = tx ∧ e.counts = []
  | .sql (.held tx o) => t.owner = some o ∧
      ∃ e, Phase.of l = .underWay e ∧ e.tx = tx ∧ e.locked = some o ∧ e.writes = []
  | .sql (.enrolmentsWithin tx o _) => t.owner = some o ∧
      ∃ e, Phase.of l = .underWay e ∧ e.tx = tx ∧ e.locked = some o ∧ e.writes = []
  | .sql (.createActor tx _) => ∃ e, Phase.of l = .underWay e ∧ e.tx = tx
  | .sql (.setClaimedDomain tx _ _) => ∃ e, Phase.of l = .underWay e ∧ e.tx = tx
  | .sql (.setOrgKind tx _ _) => ∃ e, Phase.of l = .underWay e ∧ e.tx = tx
  | .sql (.insertOwner tx _ _) => ∃ e, Phase.of l = .underWay e ∧ e.tx = tx
  | .sql (.insertEnrolment tx _ _) => ∃ e, Phase.of l = .underWay e ∧ e.tx = tx
  | .sql (.commit tx) => ∃ o e policy, t.owner = some o ∧ Phase.of l = .underWay e ∧
      e.Ready tx o policy
  | .sql (.invite organizationId _) => ∃ inviter username,
      t = .invite organizationId (some inviter) username ∧ MayInvite organizationId inviter l
  | .sql (.accept organizationId memberId) => t = .accept organizationId (some memberId)
  | .sql (.removeMember _ _) => t.isEnrol = false
  | .sql (.tombstone _) => t.isEnrol = false
  | .sql (.purge _) => t.isEnrol = false
  | .respond (.enrolled (.ok _)) => Phase.of l = .committed
  | .respond (.enrolled (.error _)) => Phase.of l ≠ .committed
  | _ => True

/-! ### What the calls ask -/

theorem asks_sql {α : Type} {t : Call} {l : List Orgs.Exchange} {q : OrgSql}
    {f : q.Result → OrgHandler α} {Post : Except NoombatError α → List Orgs.Exchange → Prop}
    (hasked : Asked t l (.sql q)) (herror : ∀ e, Post (.error e) (⟨.sql q, .error e⟩ :: l))
    (hok : ∀ r, Asks (Asked t) Post (f r).run (⟨.sql q, .ok r⟩ :: l)) :
  Asks (Asked t) Post (sql q >>= f).run l
  := by
  rw [asks_run_bind]
  apply (asks_run_ask (OrgRequest.sql q) _ l).mpr
  constructor
  · exact hasked
  rintro (e | r)
  · exact herror e
  · exact hok r

/-- A part of an enrolment leaves its transaction with `P`, or fails without having committed. -/
def Leads {α : Type} (P : α → Enrolling → Prop) : Except NoombatError α → List Orgs.Exchange → Prop
  | .ok a, l => ∃ e, Phase.of l = .underWay e ∧ P a e
  | .error _, l => Phase.of l ≠ .committed

/-- An enrolment has committed just when it is successful. -/
def Ends {α : Type} : Except NoombatError α → List Orgs.Exchange → Prop
  | .ok _, l => Phase.of l = .committed
  | .error _, l => Phase.of l ≠ .committed

section Asks

variable {α β : Type} {t : Call} {l : List Orgs.Exchange} {tx : Nat} {o : Uuid}
  {policy : OrganizationPolicy} {e : Enrolling}

theorem ne_committed_of_underWay (hl : Phase.of l = .underWay e) :
  Phase.of l ≠ .committed
  := by
  rw [hl]
  rintro ⟨⟩

theorem ne_committed_of_error (hl : Phase.of l = .underWay e) (q : OrgSql) (error : NoombatError) :
  Phase.of (⟨.sql q, .error error⟩ :: l) ≠ .committed
  := by
  rw [Phase.of_cons, Phase.next_error]
  exact ne_committed_of_underWay hl

/-- What follows a part of an enrolment. -/
theorem asks_leads_bind {P : α → Enrolling → Prop} {p : OrgHandler α} {f : α → OrgHandler β}
    {Post : Except NoombatError β → List Orgs.Exchange → Prop}
    (hp : Asks (Asked t) (Leads P) p.run l)
    (herror : ∀ error l', Phase.of l' ≠ .committed → Post (.error error) l')
    (hf : ∀ a l' e', Phase.of l' = .underWay e' → P a e' → Asks (Asked t) Post (f a).run l') :
  Asks (Asked t) Post (p >>= f).run l
  := by
  rw [asks_run_bind]
  apply Asks.mono _ hp
  rintro (error | a) l' h
  · exact herror error l' h
  · obtain ⟨e', hl', hP⟩ := h
    exact hf a l' e' hl' hP

/-- A ceiling is below what was counted, or the enrolment is refused. -/
theorem asks_enforce {P : Enrolling → Prop} (c : Count) {ceiling : Int} {count : OrgHandler Nat}
    {refusal : Nat → String} (hP : ∀ e n, P e → P (e.count c n))
    (hcount : ∀ l e, Phase.of l = .underWay e → P e →
      Asks (Asked t) (Leads fun n e' => e' = e.count c n) count.run l)
    (hl : Phase.of l = .underWay e) (he : P e) :
  Asks (Asked t) (Leads fun _ e' => (∃ n, e' = e ∨ e' = e.count c n) ∧ P e' ∧ e'.Below c ceiling)
    (enforce ceiling count refusal).run l
  := by
  rw [enforce]
  split
  · apply asks_leads_bind (hcount l e hl he)
    · intro error l' h
      exact h
    · rintro n l' e' hl' rfl
      split
      · rw [asks_run_throw]
        exact ne_committed_of_underWay hl'
      · rename_i hbelow
        rw [asks_run_pure]
        exact ⟨_, hl', ⟨n, .inr rfl⟩, hP e n he,
          fun _ => ⟨n, List.mem_cons_self, Int.lt_of_not_ge hbelow⟩⟩
  · rename_i hnone
    rw [asks_run_pure]
    exact ⟨e, hl, ⟨0, .inl rfl⟩, he, fun h => absurd h hnone⟩

theorem Enrolling.Below.count {c c' : Count} {ceiling : Int} {n : Nat} (h : e.Below c ceiling) :
  (e.count c' n).Below c ceiling
  := by
  intro hpos
  obtain ⟨m, hmem, hlt⟩ := h hpos
  exact ⟨m, List.mem_cons_of_mem _ hmem, hlt⟩

theorem Enrolling.Locked.count {c : Count} {n : Nat} (h : e.Locked tx o policy) :
  (e.count c n).Locked tx o policy
  := ⟨h.tx, h.locked, h.settings⟩

/-- A transaction that has locked its owner and has written nothing. -/
def Counting (tx : Nat) (o : Uuid) (policy : OrganizationPolicy) (e : Enrolling) : Prop :=
  e.Locked tx o policy ∧ e.writes = []

theorem asks_held (ht : t.owner = some o) (hl : Phase.of l = .underWay e)
    (he : Counting tx o policy e) :
  Asks (Asked t) (Leads fun n e' => e' = e.count .held n) (sql (.held tx o)).run l
  := by
  apply (asks_run_ask (OrgRequest.sql (.held tx o)) _ l).mpr
  constructor
  · exact ⟨ht, e, hl, he.1.tx, he.1.locked, he.2⟩
  rintro (error | n)
  · exact ne_committed_of_error hl _ error
  · refine ⟨_, ?_, rfl⟩
    rw [Phase.of_cons, hl]
    rfl

theorem asks_enrolmentsWithin (ht : t.owner = some o) (period : Period)
    (hl : Phase.of l = .underWay e) (he : Counting tx o policy e) :
  Asks (Asked t) (Leads fun n e' => e' = e.count (.within period.intervalArgs) n)
    (enrolmentsWithin tx o period).run l
  := by
  apply (asks_run_ask (OrgRequest.sql (.enrolmentsWithin tx o period.intervalArgs)) _ l).mpr
  constructor
  · exact ⟨ht, e, hl, he.1.tx, he.1.locked, he.2⟩
  rintro (error | n)
  · exact ne_committed_of_error hl _ error
  · refine ⟨_, ?_, rfl⟩
    rw [Phase.of_cons, hl]
    rfl

/-- An enrolment is refused, or its owner is locked and all ceilings are above what is counted. -/
theorem asks_enforceOrganizationPolicy {time : DateTime} (ht : t.owner = some o)
    (hl : Phase.of l = .underWay ⟨tx, time, none, none, [], []⟩) :
  Asks (Asked t) (Leads fun _ e' => ∃ policy, Counting tx o policy e' ∧ e'.Admitted policy)
    (enforceOrganizationPolicy tx o).run l
  := by
  rw [enforceOrganizationPolicy]
  apply asks_sql (q := .settings tx)
  · exact ⟨_, hl, rfl, rfl⟩
  · exact ne_committed_of_error hl _
  intro row
  have hread : Phase.of (⟨.sql (.settings tx), .ok row⟩ :: l) =
      .underWay ⟨tx, time, some row, none, [], []⟩ := by
    rw [Phase.of_cons, hl]
    rfl
  change Asks _ _ (ExceptT.run (if (policyOf row).enabled = true then _ else _)) _
  split
  · apply asks_sql (q := .lock tx o)
    · exact ⟨_, hread, rfl, rfl⟩
    · exact ne_committed_of_error hread _
    intro _
    have hlocked : Phase.of (⟨.sql (.lock tx o), .ok ()⟩ :: ⟨.sql (.settings tx), .ok row⟩ :: l) =
        .underWay ⟨tx, time, some row, some o, [], []⟩ := by
      rw [Phase.of_cons, hread]
      rfl
    have hcounting : Counting tx o (policyOf row) ⟨tx, time, some row, some o, [], []⟩ :=
      ⟨⟨rfl, rfl, row, rfl, rfl⟩, rfl⟩
    apply asks_leads_bind (asks_enforce .held (P := Counting tx o (policyOf row))
      (fun e n he => ⟨he.1.count, he.2⟩) (fun l e hl he => asks_held ht hl he) hlocked hcounting)
    · exact fun _ _ h => h
    rintro _ l₁ e₁ hl₁ ⟨_, he₁, hheld⟩
    apply asks_leads_bind (asks_enforce (.within (policyOf row).capPeriod.intervalArgs)
      (P := fun e => Counting tx o (policyOf row) e ∧ e.Below .held (policyOf row).concurrentCap)
      (fun e n he => ⟨⟨he.1.1.count, he.1.2⟩, he.2.count⟩)
      (fun l e hl he => asks_enrolmentsWithin ht _ hl he.1) hl₁ ⟨he₁, hheld⟩)
    · exact fun _ _ h => h
    rintro _ l₂ e₂ hl₂ ⟨_, ⟨he₂, hheld⟩, hperiod⟩
    apply Asks.mono _ (asks_enforce (.within (policyOf row).rateLimitPeriod.intervalArgs)
      (P := fun e => Counting tx o (policyOf row) e ∧ e.Below .held (policyOf row).concurrentCap ∧
        e.Below (.within (policyOf row).capPeriod.intervalArgs) (policyOf row).periodCapCount)
      (fun e n he => ⟨⟨he.1.1.count, he.1.2⟩, he.2.1.count, he.2.2.count⟩)
      (fun l e hl he => asks_enrolmentsWithin ht _ hl he.1) hl₂ ⟨he₂, hheld, hperiod⟩)
    rintro (error | _) l' h
    · exact h
    · obtain ⟨e', hl', _, ⟨he', hheld, hperiod⟩, hrate⟩ := h
      exact ⟨e', hl', policyOf row, he', hheld, hperiod, hrate⟩
  · rw [asks_run_throw]
    exact ne_committed_of_underWay hread

/-- A transaction that was admitted, and has written about a new actor only. -/
def Enrolling.Creating (tx : Nat) (o id : Uuid) (e : Enrolling) : Prop :=
  ∃ policy, e.Locked tx o policy ∧ e.Admitted policy ∧ ∀ w ∈ e.writes, w.onActor id = true

theorem Enrolling.Creating.write {id : Uuid} {w : Write} (he : e.Creating tx o id)
    (hw : w.onActor id = true) :
  (e.write w).Creating tx o id
  := by
  obtain ⟨policy, hlocked, hadmitted, hwrites⟩ := he
  refine ⟨policy, ⟨hlocked.tx, hlocked.locked, hlocked.settings⟩,
    ⟨hadmitted.held, hadmitted.period, hadmitted.rate⟩, ?_⟩
  intro w' hw'
  rcases List.mem_cons.mp hw' with rfl | hw'
  · exact hw
  · exact hwrites w' hw'

theorem asks_createActorTx (domain : String) (req : EnrolRequest)
    (hl : Phase.of l = .underWay e) (he : ∀ id, e.Creating tx o id) :
  Asks (Asked t) (Leads fun id e' => e'.Creating tx o id) (createActorTx tx domain req).run l
  := by
  rw [createActorTx, asks_run_bind]
  apply (asks_run_ask OrgRequest.newUuid _ l).mpr
  constructor
  · trivial
  intro answer
  have hl₁ : Phase.of (⟨.newUuid, answer⟩ :: l) = .underWay e := by
    rw [Phase.of_cons, hl]
    rfl
  rcases answer with error | id
  · exact ne_committed_of_underWay hl₁
  rw [onExcept_ok, asks_run_bind]
  apply (asks_run_ask OrgRequest.sealKeys _ _).mpr
  constructor
  · trivial
  intro answer
  have hl₂ : Phase.of (⟨.sealKeys, answer⟩ :: ⟨.newUuid, .ok id⟩ :: l) = .underWay e := by
    rw [Phase.of_cons, hl₁]
    rfl
  rcases answer with error | _
  · exact ne_committed_of_underWay hl₂
  rw [onExcept_ok]
  apply asks_sql (q := .createActor tx (newOrganization domain req id))
  · obtain ⟨policy, hlocked, _⟩ := he id
    exact ⟨e, hl₂, hlocked.tx⟩
  · exact ne_committed_of_error hl₂ _
  · intro _
    rw [asks_run_pure]
    have hnew : (Write.actor (newOrganization domain req id)).onActor id = true := by
      simp [Write.onActor, newOrganization]
    refine ⟨e.write (.actor (newOrganization domain req id)), ?_, (he id).write hnew⟩
    rw [Phase.of_cons, hl₂]
    rfl

theorem asks_claimDomain (id : Uuid) (raw : Option String) (hl : Phase.of l = .underWay e)
    (he : e.Creating tx o id) :
  Asks (Asked t) (Leads fun _ e' => e'.Creating tx o id) (claimDomain lib tx id raw).run l
  := by
  cases raw with
  | none =>
      rw [claimDomain, asks_run_pure]
      exact ⟨e, hl, he⟩
  | some raw =>
      rw [claimDomain]
      cases lib.registrableDomain raw with
      | none =>
          rw [asks_run_throw]
          exact ne_committed_of_underWay hl
      | some domain =>
          apply (asks_run_ask (OrgRequest.sql (.setClaimedDomain tx id domain)) _ l).mpr
          constructor
          · obtain ⟨policy, hlocked, _⟩ := he
            exact ⟨e, hl, hlocked.tx⟩
          rintro (error | _)
          · exact ne_committed_of_error hl _ error
          · refine ⟨e.write (.claimedDomain id domain), ?_, he.write (beq_self_eq_true id)⟩
            rw [Phase.of_cons, hl]
            rfl

theorem asks_declareKind (id : Uuid) (kind : Option OrgKind) (hl : Phase.of l = .underWay e)
    (he : e.Creating tx o id) :
  Asks (Asked t) (Leads fun _ e' => e'.Creating tx o id) (declareKind tx id kind).run l
  := by
  cases kind with
  | none =>
      rw [declareKind, asks_run_pure]
      exact ⟨e, hl, he⟩
  | some kind =>
      apply (asks_run_ask (OrgRequest.sql (.setOrgKind tx id kind)) _ l).mpr
      constructor
      · obtain ⟨policy, hlocked, _⟩ := he
        exact ⟨e, hl, hlocked.tx⟩
      rintro (error | _)
      · exact ne_committed_of_error hl _ error
      · refine ⟨e.write (.orgKind id kind), ?_, he.write (beq_self_eq_true id)⟩
        rw [Phase.of_cons, hl]
        rfl

/-- An enrolment commits what is complete, or fails. -/
theorem asks_enrolIn {time : DateTime} (domain : String) (req : EnrolRequest)
    (ht : t.owner = some o) (hl : Phase.of l = .underWay ⟨tx, time, none, none, [], []⟩) :
  Asks (Asked t) Ends (enrolIn lib tx domain o req).run l
  := by
  rw [enrolIn]
  apply asks_leads_bind (asks_enforceOrganizationPolicy ht hl)
  · exact fun _ _ h => h
  rintro _ l₁ e₁ hl₁ ⟨policy, ⟨hlocked, hnothing⟩, hadmitted⟩
  have he₁ : ∀ id, e₁.Creating tx o id := by
    intro id
    refine ⟨policy, hlocked, hadmitted, ?_⟩
    rw [hnothing]
    exact nofun
  apply asks_leads_bind (asks_createActorTx domain req hl₁ he₁)
  · exact fun _ _ h => h
  intro id l₂ e₂ hl₂ he₂
  apply asks_leads_bind (asks_claimDomain id req.claimedDomain hl₂ he₂)
  · exact fun _ _ h => h
  intro _ l₃ e₃ hl₃ he₃
  apply asks_leads_bind (asks_declareKind id req.orgKind hl₃ he₃)
  · exact fun _ _ h => h
  rintro _ l₄ e₄ hl₄ ⟨policy, hlocked, hadmitted, hwrites⟩
  apply asks_sql (q := .insertOwner tx id o)
  · exact ⟨e₄, hl₄, hlocked.tx⟩
  · exact ne_committed_of_error hl₄ _
  intro _
  have hl₅ : Phase.of (⟨.sql (.insertOwner tx id o), .ok ()⟩ :: l₄) =
      .underWay (e₄.write (.member ⟨id, o, .owner, some e₄.time⟩)) := by
    rw [Phase.of_cons, hl₄]
    rfl
  apply asks_sql (q := .insertEnrolment tx o id)
  · exact ⟨_, hl₅, hlocked.tx⟩
  · exact ne_committed_of_error hl₅ _
  intro _
  have hl₆ : Phase.of (⟨.sql (.insertEnrolment tx o id), .ok ()⟩ ::
      ⟨.sql (.insertOwner tx id o), .ok ()⟩ :: l₄) =
        .underWay ((e₄.write (.member ⟨id, o, .owner, some e₄.time⟩)).write
          (.enrolment ⟨o, some id, e₄.time⟩)) := by
    rw [Phase.of_cons, hl₅]
    rfl
  apply asks_sql (q := .commit tx)
  · refine ⟨o, _, policy, ht, hl₆, ?_⟩
    exact ⟨⟨hlocked.tx, hlocked.locked, hlocked.settings⟩,
      ⟨hadmitted.held, hadmitted.period, hadmitted.rate⟩, id, e₄.writes, rfl, hwrites⟩
  · exact ne_committed_of_error hl₆ _
  · intro _
    rw [asks_run_pure]
    change Phase.of _ = .committed
    rw [Phase.of_cons, hl₆]
    rfl

theorem asks_enrolOrganization (domain : String) (req : EnrolRequest) (ht : t.owner = some o)
    (hl : Phase.of l = .start) :
  Asks (Asked t) Ends (enrolOrganization lib domain o req).run l
  := by
  have hstart : ∀ {l}, Phase.of l = .start → Phase.of l ≠ .committed := by
    intro l h
    rw [h]
    rintro ⟨⟩
  rw [enrolOrganization, asks_run_bind, asks_run_ofExcept]
  cases validateUsername req.username with
  | error error => exact hstart hl
  | ok _ =>
      rw [onExcept_ok]
      apply asks_sql (q := .usernameTaken domain req.username)
      · trivial
      · intro error
        apply hstart
        rw [Phase.of_cons, Phase.next_error, hl]
      intro taken
      have hl₁ : Phase.of (⟨.sql (.usernameTaken domain req.username), .ok taken⟩ :: l) =
          .start := by
        rw [Phase.of_cons, hl]
        rfl
      split
      · rw [asks_run_throw]
        exact hstart hl₁
      rw [asks_run_bind]
      apply (asks_run_ask OrgRequest.generateKeypair _ _).mpr
      constructor
      · trivial
      intro answer
      have hl₂ : Phase.of (⟨.generateKeypair, answer⟩ ::
          ⟨.sql (.usernameTaken domain req.username), .ok taken⟩ :: l) = .start := by
        rw [Phase.of_cons, hl₁]
        rfl
      rcases answer with error | _
      · exact hstart hl₂
      rw [onExcept_ok]
      apply asks_sql (q := .begin)
      · exact hl₂
      · intro error
        apply hstart
        rw [Phase.of_cons, Phase.next_error, hl₂]
      rintro ⟨tx, time⟩
      have hl₃ : Phase.of (⟨.sql .begin, .ok (tx, time)⟩ :: ⟨.generateKeypair, .ok ()⟩ ::
          ⟨.sql (.usernameTaken domain req.username), .ok taken⟩ :: l) =
            .underWay ⟨tx, time, none, none, [], []⟩ := by
        rw [Phase.of_cons, hl₂]
        rfl
      rw [asks_run_bind, asks_run_attempt]
      apply Asks.mono _ (asks_enrolIn domain req ht hl₃)
      rintro (error | id) l' h
      · rw [onExcept_ok, asks_run_bind, asks_run_attempt]
        apply (asks_run_ask (OrgRequest.sql (.rollback tx)) _ _).mpr
        constructor
        · trivial
        intro answer
        rw [onExcept_ok, asks_run_throw]
        change Phase.of _ ≠ .committed
        rw [Phase.of_cons, Phase.next_idle _ rfl]
        exact h
      · rw [onExcept_ok, asks_run_pure]
        exact h

theorem asks_enrol (domain : String) (token : Option Uuid) (req : EnrolRequest) :
  Asks (Asked (.enrol domain token req)) Ends (enrol lib domain token req).run []
  := by
  rw [enrol, signedIn]
  cases token with
  | none =>
      rw [asks_run_bind, asks_run_bind, resolveViewer, asks_run_pure]
      rintro ⟨⟩
  | some id =>
      rw [asks_run_bind, asks_run_bind, resolveViewer, asks_run_bind, asks_run_unwrapOr]
      apply (asks_run_ask (OrgRequest.sql (.viewer id)) _ []).mpr
      constructor
      · trivial
      intro answer
      have hl : Phase.of [⟨.sql (.viewer id), answer⟩] = .start := by
        rw [Phase.of_cons, Phase.next_idle _ rfl]
        rfl
      rw [onExcept_ok, asks_run_pure, onExcept_ok, asks_run_ofExcept]
      split
      · apply asks_enrolOrganization domain _ rfl hl
      · change Phase.of _ ≠ .committed
        rw [hl]
        rintro ⟨⟩

end Asks

/-! ### The other calls -/

/-- A statement that is not of an enrolment's transaction, and makes no membership. -/
def aside : OrgSql → Bool
  | .invite _ _ => false
  | .accept _ _ => false
  | q => Phase.idle q

/-- A request that is not of an enrolment's transaction, and makes no membership. -/
def OrgRequest.Outside : OrgRequest → Prop
  | .sql q => aside q = true
  | .respond (.answered _) => True
  | _ => False

theorem every_outside {q : OrgSql} (h : aside q = true) :
  Every OrgRequest.Outside (sql q).run
  := (every_run_ask (OrgRequest.sql q)).mpr h

theorem every_signedIn (token : Option Uuid) :
  Every OrgRequest.Outside (signedIn token).run
  := by
  apply every_run_bind
  · cases token with
    | none => apply every_run_pure
    | some id =>
        apply every_run_bind
        · rw [run_unwrapOr]
          apply every_bind
          · apply every_outside rfl
          · intro r
            apply every_done
        · intro known
          apply every_run_pure
  · intro viewer
    apply every_run_ofExcept

theorem every_requireOwner (organizationId actorId : Uuid) :
  Every OrgRequest.Outside (requireOwner organizationId actorId).run
  := by
  rw [requireOwner]
  split
  · apply every_run_pure
  · apply every_run_bind (every_outside rfl)
    intro role
    split
    · apply every_run_pure
    · apply every_run_throw

theorem every_findLocalByUsername (username : String) :
  Every OrgRequest.Outside (findLocalByUsername username).run
  := by
  apply every_run_bind (every_outside rfl)
  intro row
  cases row with
  | none => apply every_run_throw
  | some actor => apply every_run_pure

theorem every_tombstoneActor (actorId : Uuid) :
  Every OrgRequest.Outside (tombstoneActor actorId).run
  := by
  apply every_run_bind
  · apply every_run_bind (every_outside rfl)
    intro row
    cases row with
    | none => apply every_run_throw
    | some actor => apply every_run_pure
  · intro actor
    split
    · apply every_outside rfl
    · apply every_run_throw

theorem every_removeMember (organizationId : Uuid) (username : String) (token : Option Uuid) :
  Every OrgRequest.Outside (removeMember organizationId username token).run
  := by
  apply every_run_bind (every_signedIn token)
  intro actorId
  apply every_run_bind (every_findLocalByUsername _)
  intro target
  apply every_run_bind
  · rw [requireMayRemove]
    split
    · apply every_requireOwner
    · apply every_run_pure
  intro _
  apply every_run_bind (every_outside rfl)
  intro removed
  split
  · apply every_run_throw
  · apply every_run_pure

theorem every_deleteActorHandler (token : Option Uuid) (username : String) :
  Every OrgRequest.Outside (deleteActorHandler token username).run
  := by
  apply every_run_bind
  · cases token with
    | none => apply every_run_pure
    | some id =>
        apply every_run_bind
        · rw [run_unwrapOr]
          apply every_bind
          · apply every_outside rfl
          · intro r
            apply every_done
        · intro known
          apply every_run_pure
  intro viewer
  apply every_run_bind (every_findLocalByUsername username)
  intro actor
  apply every_run_bind
  · apply every_run_bind (every_run_ofExcept _)
    intro actorId
    split
    · apply every_run_pure
    · apply every_run_bind (every_outside rfl)
      intro role
      cases role with
      | none => apply every_run_throw
      | some role => apply every_run_pure
  intro role
  split
  · apply every_run_throw
  · apply every_tombstoneActor

theorem every_purgeTombstonedActor (actorId : Uuid) :
  Every OrgRequest.Outside (purgeTombstonedActor actorId).run
  := by
  apply every_run_bind (every_outside rfl)
  intro affected
  split
  · apply every_run_throw
  · apply every_run_pure

theorem asked_of_outside {t : Call} {q : OrgRequest} (ht : t.isEnrol = false) (hq : q.Outside)
    (l : List Orgs.Exchange) :
  Asked t l q
  := by
  cases q with
  | sql q =>
      cases q with
      | viewer id => trivial
      | usernameTaken domain username => trivial
      | rollback tx => trivial
      | findLocalByUsername username => trivial
      | memberRole organizationId memberId => trivial
      | findById id => trivial
      | removeMember organizationId memberId => exact ht
      | tombstone id => exact ht
      | purge id => exact ht
      | _ => cases hq
  | respond r =>
      cases r with
      | enrolled r => cases hq
      | answered r => trivial
  | generateKeypair => cases hq
  | sealKeys => cases hq
  | newUuid => cases hq

/-- What a call has exchanged stays so. -/
theorem asks_outside {α : Type} {t : Call} (ht : t.isEnrol = false) {p : Program Orgs α}
    (hp : Every OrgRequest.Outside p) (l : List Orgs.Exchange) :
  Asks (Asked t) (fun _ l' => ∀ x ∈ l, x ∈ l') p l
  := by
  apply Every.asks (fun l' => ∀ x ∈ l, x ∈ l') _ hp (fun _ hx => hx)
  intro q l' hq hkept
  exact ⟨asked_of_outside ht hq l', fun r x hx => List.mem_cons_of_mem _ (hkept x hx)⟩

/-! ### Invitations -/

section Invitations

variable {t : Call} {l : List Orgs.Exchange}

/-- Who has signed in is the actor that the token names. -/
theorem asks_signedIn (token : Option Uuid) {Post : Except NoombatError Uuid →
    List Orgs.Exchange → Prop} (hPost : ∀ r l', (∀ id, r = .ok id → token = some id) → Post r l') :
  Asks (Asked t) Post (signedIn token).run l
  := by
  rw [signedIn]
  cases token with
  | none =>
      rw [asks_run_bind, resolveViewer, asks_run_pure]
      exact hPost _ _ nofun
  | some id =>
      rw [asks_run_bind, resolveViewer, asks_run_bind, asks_run_unwrapOr]
      apply (asks_run_ask (OrgRequest.sql (.viewer id)) _ l).mpr
      constructor
      · trivial
      intro answer
      rw [onExcept_ok, asks_run_pure, onExcept_ok, asks_run_ofExcept]
      apply hPost
      intro id' hid
      split at hid
      · cases hid
        rfl
      · cases hid

theorem asks_requireOwner (organizationId actorId : Uuid) :
  Asks (Asked t) (fun r l' => r = .ok () → MayInvite organizationId actorId l')
    (requireOwner organizationId actorId).run l
  := by
  rw [requireOwner]
  split
  · rename_i hself
    rw [asks_run_pure]
    exact fun _ => .inl hself
  · apply asks_sql (q := .memberRole organizationId actorId)
    · trivial
    · exact fun _ => nofun
    · intro role
      split
      · rename_i howner
        rw [asks_run_pure, howner]
        exact fun _ => .inr List.mem_cons_self
      · rw [asks_run_throw]
        nofun

theorem MayInvite.mono {organizationId actorId : Uuid} {l' : List Orgs.Exchange}
    (h : MayInvite organizationId actorId l) (hkept : ∀ x ∈ l, x ∈ l') :
  MayInvite organizationId actorId l'
  := by
  rcases h with hself | howner
  · exact .inl hself
  · exact .inr (hkept _ howner)

/-- An invitation is by an owner. -/
theorem asks_inviteMember (organizationId : Uuid) (token : Option Uuid) (username : String) :
  Asks (Asked (.invite organizationId token username)) (fun _ _ => True)
    (inviteMember organizationId token username).run l
  := by
  rw [inviteMember, asks_run_bind]
  apply asks_signedIn
  rintro (error | inviter) l₁ htoken
  · trivial
  obtain rfl := htoken inviter rfl
  rw [onExcept_ok, asks_run_bind]
  apply Asks.mono _ (asks_requireOwner organizationId inviter)
  rintro (error | _) l₂ hmay
  · trivial
  rw [onExcept_ok, asks_run_bind]
  apply Asks.mono _ (asks_outside rfl (every_findLocalByUsername (Text.trim username)) l₂)
  rintro (error | invitee) l₃ hkept
  · trivial
  rw [onExcept_ok]
  split
  · rw [asks_run_throw]
    trivial
  split
  · rw [asks_run_throw]
    trivial
  apply asks_sql (q := .invite organizationId invitee.id)
  · exact ⟨inviter, username, rfl, (hmay rfl).mono hkept⟩
  · exact fun _ => trivial
  · intro inserted
    split
    · rw [asks_run_throw]
      trivial
    · rw [asks_run_pure]
      trivial

/-- An invitation is accepted by the actor that was invited. -/
theorem asks_acceptInvitation (organizationId : Uuid) (token : Option Uuid) :
  Asks (Asked (.accept organizationId token)) (fun _ _ => True)
    (acceptInvitation organizationId token).run l
  := by
  rw [acceptInvitation, asks_run_bind]
  apply asks_signedIn
  rintro (error | memberId) l₁ htoken
  · trivial
  obtain rfl := htoken memberId rfl
  rw [onExcept_ok]
  apply asks_sql (q := .accept organizationId memberId)
  · rfl
  · exact fun _ => trivial
  · intro updated
    split
    · rw [asks_run_throw]
      trivial
    · rw [asks_run_pure]
      trivial

end Invitations

theorem asks_program (t : Call) :
  Asks (Asked t) (fun _ _ => True) (t.program lib) []
  := by
  have hanswer : ∀ {p : OrgHandler Unit}, Asks (Asked t) (fun _ _ => True) p.run [] →
      Asks (Asked t) (fun _ _ => True) (answer p) [] := by
    intro p hp
    rw [answer, asks_bind]
    apply Asks.mono _ hp
    intro r l _
    exact ⟨trivial, fun _ => trivial⟩
  have hother : ∀ {p : OrgHandler Unit}, t.isEnrol = false → Every OrgRequest.Outside p.run →
      Asks (Asked t) (fun _ _ => True) (answer p) [] := by
    intro p ht hp
    apply hanswer
    exact Asks.mono (fun _ _ _ => trivial) (asks_outside ht hp [])
  cases t with
  | enrol domain token req =>
      rw [Call.program, asks_bind]
      apply Asks.mono _ (asks_enrol domain token req)
      rintro (error | id) l h
      · exact ⟨h, fun _ => trivial⟩
      · exact ⟨h, fun _ => trivial⟩
  | invite organizationId token username =>
      exact hanswer (asks_inviteMember organizationId token username)
  | accept organizationId token => exact hanswer (asks_acceptInvitation organizationId token)
  | remove organizationId username token =>
      exact hother rfl (every_removeMember organizationId username token)
  | deleteActor token username => exact hother rfl (every_deleteActorHandler token username)
  | erase actorId => exact hother rfl (every_tombstoneActor actorId)
  | purge actorId => exact hother rfl (every_purgeTombstonedActor actorId)

end Organizations
