import Noombat.Identity.Totp

/-!
# The second factor

A secret is marked verified after a code was checked against the secret that was read, and
it is replaced after a look whether it is verified.  If nothing replaces the secret between
the reading and the mark, nothing marks it between the look and the replacement, and no
look at a verified secret fails, then only secrets for which a valid code was submitted are
marked, and a marked secret stays.
-/

namespace Identity.TwoFactor

open Federation (Uuid NoombatError)
open Fallible Program

abbrev Event : Type :=
  Interface.Event Totps Call

abbrev Factors : Type :=
  Pool Totps Call Db

variable {kit : Kit}

/-! ### Events -/

/-- The exchange is a look at whether an actor has a verified secret that said no, or that
failed. -/
def looks (actorId : Uuid) : Totps.Exchange → Bool
  | ⟨.sql (.existsVerified a), .ok verified⟩ => a == actorId && !verified
  | ⟨.sql (.existsVerified a), .error _⟩ => a == actorId
  | _ => false

/-- The exchange is the storing of a secret of an actor. -/
def upserts (actorId : Uuid) : Totps.Exchange → Bool
  | ⟨.sql (.upsert a _), .ok _⟩ => a == actorId
  | _ => false

/-- The exchange is the reading of a secret of an actor. -/
def selects (actorId : Uuid) (secret : String) : Totps.Exchange → Bool
  | ⟨.sql (.selectSecret a), .ok (some (s, _))⟩ => a == actorId && s == secret
  | _ => false

/-- The exchange is the reading of some secret of an actor. -/
def selectsAny (actorId : Uuid) : Totps.Exchange → Bool
  | ⟨.sql (.selectSecret a), .ok (some _)⟩ => a == actorId
  | _ => false

/-- The exchange is the marking of the secret of an actor. -/
def marks (actorId : Uuid) : Totps.Exchange → Bool
  | ⟨.sql (.markVerified a), .ok _⟩ => a == actorId
  | _ => false

/-- The exchange is a reading of the time. -/
def reads (time : Nat) : Totps.Exchange → Bool
  | ⟨.now, .ok t⟩ => t == time
  | _ => false

/-- No event of the history is of the kind `p` and later than one of the kind `read` in the
thread `i`. -/
def NoneSince (p read : Totps.Exchange → Bool) (i : Nat) (h : Totps.History Call) : Prop :=
  h.Pairwise fun later earlier =>
    ¬ (p later.exchange = true ∧ earlier.thread = i ∧ read earlier.exchange = true)

instance (p read : Totps.Exchange → Bool) (i : Nat) (h : Totps.History Call) :
    Decidable (NoneSince p read i h) :=
  inferInstanceAs (Decidable (h.Pairwise _))

/-- No look at a verified secret fails; no secret is marked since a call that replaces it
looked at it, or replaced since a call that marks it read it. -/
def Uncrossed : StepCondition totpWorld Call
  | _, _, .sql (.existsVerified a), c, s =>
      Option.isSome c → ∀ r ∈ s.state.secrets.rows, r.actorId = a → r.verified = false
  | i, _, .sql (.upsert a _), c, s =>
      Option.isNone c → NoneSince (marks a) (looks a) i s.history
  | i, _, .sql (.markVerified a), c, s =>
      Option.isNone c → NoneSince (upserts a) (selectsAny a) i s.history
  | _, _, _, _, _ => True

instance Uncrossed.decidable : ∀ (i : Nat) (t : Call) (q : TotpRequest)
    (c : totpWorld.Choice q) (s : Factors), Decidable (Uncrossed i t q c s)
  | _, _, .sql (.existsVerified a), c, s =>
      inferInstanceAs (Decidable (Option.isSome c = true →
        ∀ r ∈ s.state.secrets.rows, r.actorId = a → r.verified = false))
  | i, _, .sql (.upsert a _), c, s =>
      inferInstanceAs (Decidable (Option.isNone c = true →
        NoneSince (marks a) (looks a) i s.history))
  | i, _, .sql (.markVerified a), c, s =>
      inferInstanceAs (Decidable (Option.isNone c = true →
        NoneSince (upserts a) (selectsAny a) i s.history))
  | _, _, .sql (.selectSecret _), _, _ => isTrue trivial
  | _, _, .generateSecret, _, _ => isTrue trivial
  | _, _, .nonce, _, _ => isTrue trivial
  | _, _, .now, _, _ => isTrue trivial
  | _, _, .respond _, _, _ => isTrue trivial

/-- A code is valid for a sealed secret, at some time. -/
def Kit.accepts (kit : Kit) (secret code : String) (time : Nat) : Prop :=
  ∃ secretBase32 totp, kit.openAuto secret = .ok secretBase32 ∧
    buildTotp kit secretBase32 "user" "noombat" = .ok totp ∧ kit.check totp code time = true

/-- A call submitted a code that was valid for a stored secret of an actor when it read the
time. -/
def Submitted (kit : Kit) (h : Totps.History Call) (actorId : Uuid) (secret : String) : Prop :=
  ∃ i code time, kit.accepts secret code time ∧
    (∃ e ∈ h, e.thread = i ∧ e.task = .verify actorId code ∧ selects actorId secret e.exchange) ∧
    ∃ e ∈ h, e.thread = i ∧ reads time e.exchange

/-! ### What the calls ask -/

/-- What the exchanges of a call are, when it makes a request: a secret is stored only after
a look, and marked only after it was read and a code was valid for it. -/
def Asked (kit : Kit) (t : Call) (l : List Totps.Exchange) : TotpRequest → Prop
  | .sql (.upsert a _) => ∃ x ∈ l, looks a x
  | .sql (.markVerified a) => ∃ secret code time, t = .verify a code ∧
      kit.accepts secret code time ∧ (∃ x ∈ l, selects a secret x) ∧ ∃ x ∈ l, reads time x
  | _ => True

/-- The requests of a call that stores a secret of an actor, once it has looked. -/
def TotpRequest.storing (actorId : Uuid) : TotpRequest → Bool
  | .generateSecret => true
  | .nonce => true
  | .sql (.upsert a _) => a == actorId
  | _ => false

theorem every_storeSecret (actorId : Uuid) (username issuer : String) :
  Every (fun q : TotpRequest => q.storing actorId = true)
    (storeSecret kit actorId username issuer).run
  := by
  apply every_run_bind ((every_run_ask _).mpr (by rfl))
  intro secretBase32
  apply every_run_bind (every_run_ofExcept _)
  intro totp
  apply every_run_bind (every_run_ofExcept _)
  intro otpauthUri
  apply every_run_bind ((every_run_ask _).mpr (by rfl))
  intro nonce
  apply every_run_bind (every_run_ofExcept _)
  intro sealedSecret
  apply every_run_bind ((every_run_ask _).mpr (by simp [TotpRequest.storing]))
  intro _
  apply every_run_pure

theorem asks_storeSecret (t : Call) (actorId : Uuid) (username issuer : String)
    {l : List Totps.Exchange} (hl : ∃ x ∈ l, looks actorId x) :
  Asks (Asked kit t) (fun _ _ => True) (storeSecret kit actorId username issuer).run l
  := by
  have hasks : Asks (Asked kit t) (fun _ l' => ∃ x ∈ l', looks actorId x)
      (storeSecret kit actorId username issuer).run l := by
    apply Every.asks _ _ (every_storeSecret actorId username issuer) hl
    intro q l' hq hl'
    constructor
    · cases q with
      | sql st =>
          cases st with
          | upsert a secret => exact beq_iff_eq.mp hq ▸ hl'
          | _ => cases hq
      | _ => trivial
    · intro r
      obtain ⟨x, hx, hlooks⟩ := hl'
      exact ⟨x, List.mem_cons_of_mem _ hx, hlooks⟩
  apply hasks.mono
  intro _ _ _
  trivial

theorem asks_respond (t : Call) (r : Response) (l : List Totps.Exchange) :
  Asks (Asked kit t) (fun _ _ => True) (respond r) l
  := ⟨trivial, fun _ => trivial⟩

theorem asks_enrolTotp (t : Call) (actorId : Uuid) (username issuer : String)
    (l : List Totps.Exchange) :
  Asks (Asked kit t) (fun _ _ => True) (enrolTotp kit actorId username issuer).run l
  := by
  rw [enrolTotp, asks_run_bind, asks_run_unwrapOr]
  apply (asks_run_ask (TotpRequest.sql (.existsVerified actorId)) _ l).mpr
  constructor
  · trivial
  intro r
  rw [onExcept_ok]
  have hlooks : r.toOption.getD false = false →
      looks actorId ⟨.sql (.existsVerified actorId), r⟩ = true := by
    intro hr
    cases r with
    | error e => simp [looks]
    | ok verified =>
        have hverified : verified = false := hr
        simp [looks, hverified]
  split
  · rw [asks_run_throw]
    trivial
  · rename_i hr
    apply asks_storeSecret
    exact ⟨_, List.mem_cons_self, hlooks (Bool.not_eq_true _ ▸ hr)⟩

theorem asks_verifyTotp (actorId : Uuid) (code : String) :
  Asks (Asked kit (.verify actorId code)) (fun _ _ => True) (verifyTotp kit actorId code).run []
  := by
  rw [verifyTotp, asks_run_bind]
  apply (asks_run_ask (TotpRequest.sql (.selectSecret actorId)) _ []).mpr
  constructor
  · trivial
  rintro (e | _ | ⟨sealedSecret, verified⟩)
  · trivial
  · trivial
  apply (asks_run_bind _ _ _ _).mpr
  rw [asks_run_ofExcept]
  cases hopen : kit.openAuto sealedSecret with
  | error e => trivial
  | ok secretBase32 =>
      rw [onExcept_ok, asks_run_bind, asks_run_ofExcept]
      cases htotp : buildTotp kit secretBase32 "user" "noombat" with
      | error e => trivial
      | ok totp =>
          rw [onExcept_ok, asks_run_bind, checkCurrent, asks_run_bind]
          apply (asks_run_ask TotpRequest.now _ _).mpr
          constructor
          · trivial
          rintro (e | time)
          · trivial
          rw [onExcept_ok, asks_run_pure, onExcept_ok]
          split
          · rename_i hvalid
            split
            · trivial
            · apply (asks_run_ask (TotpRequest.sql (.markVerified actorId)) _ _).mpr
              constructor
              · refine ⟨sealedSecret, code, time, rfl, ⟨secretBase32, totp, hopen, htotp, hvalid⟩,
                  ⟨_, List.mem_cons_of_mem _ (List.mem_singleton_self _), ?_⟩,
                  ⟨_, List.mem_cons_self, ?_⟩⟩
                · simp [selects]
                · simp [reads]
              · intro r
                trivial
          · trivial

theorem asks_program (t : Call) :
  Asks (Asked kit t) (fun _ _ => True) (t.program kit) []
  := by
  cases t with
  | enrol actorId username issuer =>
      rw [Call.program, asks_bind]
      apply Asks.mono _ (asks_enrolTotp _ actorId username issuer [])
      intro r l _
      apply asks_respond
  | verify actorId code =>
      rw [Call.program, asks_bind]
      apply Asks.mono _ (asks_verifyTotp actorId code)
      intro r l _
      apply asks_respond

/-! ### What a statement does to secrets -/

theorem Db.eq_of_actorId {db : Db} {r r' : SecretRow} (hr : r ∈ db.secrets)
    (hr' : r' ∈ db.secrets) (h : r.actorId = r'.actorId) :
  r = r'
  := Table.eq_of_not_apart hr hr' fun hapart => hapart h

theorem Db.mem_upsert {a : Uuid} {secret : String} {db : Db} {r' : SecretRow} :
  r' ∈ (db.upsert a secret).secrets ↔ r' = ⟨a, secret, false⟩ ∨ r' ∈ db.secrets ∧ r'.actorId ≠ a
  := by
  rw [Db.upsert]
  split
  · rename_i hany
    obtain ⟨r₀, hr₀, hactor₀⟩ := List.any_eq_true.mp hany
    have hreplaced : ∀ r : SecretRow, r.actorId = a →
        { r with secret, verified := false } = (⟨a, secret, false⟩ : SecretRow) := by
      rintro r rfl
      rfl
    change r' ∈ List.map (fun r : SecretRow =>
      if r.actorId == a then { r with secret, verified := false } else r) db.secrets.rows ↔ _
    rw [List.mem_map]
    constructor
    · rintro ⟨r, hr, rfl⟩
      by_cases hactor : r.actorId = a
      · rw [if_pos (beq_iff_eq.mpr hactor)]
        exact .inl (hreplaced r hactor)
      · rw [if_neg (fun h => hactor (beq_iff_eq.mp h))]
        exact .inr ⟨hr, hactor⟩
    · rintro (rfl | ⟨hr', hactor⟩)
      · exact ⟨r₀, hr₀, by rw [if_pos hactor₀, hreplaced r₀ (beq_iff_eq.mp hactor₀)]⟩
      · exact ⟨r', hr', if_neg (fun h => hactor (beq_iff_eq.mp h))⟩
  · rename_i hany
    have hother : ∀ r ∈ db.secrets, r.actorId ≠ a := by
      intro r hr hactor
      exact hany (List.any_eq_true.mpr ⟨r, hr, beq_iff_eq.mpr hactor⟩)
    have hapart : ∀ r ∈ db.secrets.rows, SecretRow.Apart ⟨a, secret, false⟩ r :=
      fun r hr hsame => hother r hr hsame.symm
    have hinsert : db.secrets.insert ⟨a, secret, false⟩ =
        some ⟨⟨a, secret, false⟩ :: db.secrets.rows, .cons hapart db.secrets.apart⟩ :=
      dif_pos hapart
    rw [hinsert]
    change r' ∈ _ :: db.secrets.rows ↔ _
    rw [List.mem_cons]
    constructor
    · rintro (rfl | hr')
      · exact .inl rfl
      · exact .inr ⟨hr', hother r' hr'⟩
    · rintro (rfl | ⟨hr', _⟩)
      · exact .inl rfl
      · exact .inr hr'

theorem Db.mem_markVerified {a : Uuid} {db : Db} {r' : SecretRow} :
  r' ∈ (db.markVerified a).secrets ↔
    ∃ r ∈ db.secrets, (if r.actorId = a then { r with verified := true } else r) = r'
  := by
  constructor
  · intro hr'
    obtain ⟨r, hr, rfl⟩ := List.mem_map.mp hr'
    exact ⟨r, hr, by simp only [beq_iff_eq]⟩
  · rintro ⟨r, hr, rfl⟩
    exact List.mem_map.mpr ⟨r, hr, by simp only [beq_iff_eq]⟩

section Steps

variable {q : TotpRequest} {i : Nat} {t : Call} {c : totpWorld.Choice q} {s : Factors}

theorem of_upserts {a : Uuid} (h : upserts a ⟨q, (totpWorld.exec q c s.state).1⟩ = true) :
  (∃ secret, q = .sql (.upsert a secret)) ∧
    (Uncrossed i t q c s → NoneSince (marks a) (looks a) i s.history)
  := by
  cases q with
  | sql st =>
      cases st with
      | upsert a' secret =>
          cases c with
          | some e => cases h
          | none =>
              simp only [totpWorld, TotpSql.exec] at h
              split at h
              · obtain rfl := beq_iff_eq.mp h
                exact ⟨⟨secret, rfl⟩, fun hC => hC rfl⟩
              · cases h
      | _ => cases h
  | _ => cases h

theorem of_marks {a : Uuid} (h : marks a ⟨q, (totpWorld.exec q c s.state).1⟩ = true) :
  q = .sql (.markVerified a) ∧
    (Uncrossed i t q c s → NoneSince (upserts a) (selectsAny a) i s.history)
  := by
  cases q with
  | sql st =>
      cases st with
      | markVerified a' =>
          cases c with
          | some e => cases h
          | none =>
              obtain rfl := beq_iff_eq.mp h
              exact ⟨rfl, fun hC => hC rfl⟩
      | _ => cases h
  | _ => cases h

/-- A look that does not find a verified secret is at none. -/
theorem of_looks {a : Uuid} (h : looks a ⟨q, (totpWorld.exec q c s.state).1⟩ = true)
    (hC : Uncrossed i t q c s) :
  ∀ r ∈ s.state.secrets, r.actorId = a → r.verified = false
  := by
  cases q with
  | sql st =>
      cases st with
      | existsVerified a' =>
          cases c with
          | some e =>
              obtain rfl := beq_iff_eq.mp h
              apply hC rfl
          | none =>
              simp only [totpWorld, TotpSql.exec, looks, Bool.and_eq_true, beq_iff_eq,
                Bool.not_eq_true'] at h
              obtain ⟨rfl, hnone⟩ := h
              intro r hr hactor
              have hr := List.any_eq_false.mp hnone r hr
              simpa [hactor] using hr
      | _ => cases h
  | _ => cases h

theorem of_selects {a : Uuid} {secret : String}
    (h : selects a secret ⟨q, (totpWorld.exec q c s.state).1⟩ = true) :
  ∃ r ∈ s.state.secrets, r.actorId = a ∧ r.secret = secret
  := by
  cases q with
  | sql st =>
      cases st with
      | selectSecret a' =>
          cases c with
          | some e => cases h
          | none =>
              simp only [totpWorld, TotpSql.exec] at h
              cases hrow : s.state.secrets.find (·.actorId == a') with
              | none =>
                  rw [hrow] at h
                  cases h
              | some r =>
                  have hactor := Table.satisfies_of_find (p := fun r' : SecretRow => r'.actorId == a') hrow
                  rw [hrow, Option.map_some] at h
                  simp only [selects, Bool.and_eq_true, beq_iff_eq] at h
                  exact ⟨r, Table.mem_of_find hrow, (beq_iff_eq.mp hactor).trans h.1, h.2⟩
      | _ => cases h
  | _ => cases h

/-- A secret that is there after a request was there before, or it was stored unverified by
the request, or marked by it. -/
theorem mem_exec {r' : SecretRow} (hr' : r' ∈ (totpWorld.exec q c s.state).2.secrets) :
  r' ∈ s.state.secrets ∨
    (upserts r'.actorId ⟨q, (totpWorld.exec q c s.state).1⟩ = true ∧ r'.verified = false) ∨
    marks r'.actorId ⟨q, (totpWorld.exec q c s.state).1⟩ = true ∧
      ∃ r ∈ s.state.secrets, r.actorId = r'.actorId ∧ r.secret = r'.secret
  := by
  cases q with
  | sql st =>
      cases c with
      | some e => exact .inl hr'
      | none =>
          cases st with
          | existsVerified a => exact .inl hr'
          | selectSecret a => exact .inl hr'
          | upsert a secret =>
              simp only [totpWorld, TotpSql.exec] at hr' ⊢
              split at hr'
              · rename_i hactor
                rcases Db.mem_upsert.mp hr' with rfl | ⟨hr', _⟩
                · rw [if_pos hactor]
                  exact .inr (.inl ⟨by simp [upserts], rfl⟩)
                · exact .inl hr'
              · exact .inl hr'
          | markVerified a =>
              obtain ⟨r, hr, rfl⟩ := Db.mem_markVerified.mp hr'
              split
              · rename_i hactor
                refine .inr (.inr ⟨?_, r, hr, rfl, rfl⟩)
                simp [totpWorld, TotpSql.exec, marks, hactor]
              · exact .inl hr
  | _ => exact .inl hr'

/-- A secret that is there before a request is still there, or it is replaced by the
request, or marked by it. -/
theorem exec_keeps {r : SecretRow} (hr : r ∈ s.state.secrets) :
  r ∈ (totpWorld.exec q c s.state).2.secrets ∨
    upserts r.actorId ⟨q, (totpWorld.exec q c s.state).1⟩ = true ∨
    { r with verified := true } ∈ (totpWorld.exec q c s.state).2.secrets
  := by
  cases q with
  | sql st =>
      cases c with
      | some e => exact .inl hr
      | none =>
          cases st with
          | existsVerified a => exact .inl hr
          | selectSecret a => exact .inl hr
          | upsert a secret =>
              simp only [totpWorld, TotpSql.exec]
              split
              · by_cases hactor : r.actorId = a
                · exact .inr (.inl (by simp [upserts, hactor]))
                · exact .inl (Db.mem_upsert.mpr (.inr ⟨hr, hactor⟩))
              · exact .inl hr
          | markVerified a =>
              have hmem := Db.mem_markVerified (a := a).mpr ⟨r, hr, rfl⟩
              by_cases hactor : r.actorId = a
              · rw [if_pos hactor] at hmem
                exact .inr (.inr hmem)
              · rw [if_neg hactor] at hmem
                exact .inl hmem
  | _ => exact .inl hr

end Steps

/-! ### The invariant -/

/-- What holds of every pool whose steps are uncrossed. -/
structure Tracked (kit : Kit) (db : Db) (s : Factors) : Prop where
  looked : ∀ a, ∀ e ∈ s.history, looks a e.exchange →
    NoneSince (marks a) (looks a) e.thread s.history →
    ∀ r ∈ s.state.secrets, r.actorId = a → r.verified = false
  read : ∀ a secret, ∀ e ∈ s.history, selects a secret e.exchange →
    NoneSince (upserts a) (selectsAny a) e.thread s.history →
    ∃ r ∈ s.state.secrets, r.actorId = a ∧ r.secret = secret
  vouched : ∀ r ∈ s.state.secrets, r.verified = true →
    r ∈ db.secrets ∨ Submitted kit s.history r.actorId r.secret

theorem NoneSince.tail {p read : Totps.Exchange → Bool} {i : Nat} {e : Event}
    {h : Totps.History Call} (hnone : NoneSince p read i (e :: h)) :
  NoneSince p read i h
  := (List.pairwise_cons.mp hnone).2

theorem NoneSince.head {p read : Totps.Exchange → Bool} {e e' : Event}
    {h : Totps.History Call} (hnone : NoneSince p read e'.thread (e :: h)) (he' : e' ∈ h)
    (hread : read e'.exchange = true) :
  ¬ p e.exchange = true
  := fun hp => (List.pairwise_cons.mp hnone).1 e' he' ⟨hp, rfl, hread⟩

theorem Submitted.cons {h : Totps.History Call} {a : Uuid} {secret : String}
    (hsubmitted : Submitted kit h a secret) (e : Event) :
  Submitted kit (e :: h) a secret
  := by
  obtain ⟨i, code, time, haccepts, ⟨e₁, he₁, hselects⟩, e₂, he₂, hreads⟩ := hsubmitted
  exact ⟨i, code, time, haccepts, ⟨e₁, List.mem_cons_of_mem e he₁, hselects⟩, e₂,
    List.mem_cons_of_mem e he₂, hreads⟩

theorem selectsAny_of_selects {a : Uuid} {secret : String} {x : Totps.Exchange}
    (h : selects a secret x = true) :
  selectsAny a x = true
  := by
  simp only [selects] at h
  split at h
  · simp only [Bool.and_eq_true] at h
    exact h.1
  · cases h

section Preserved

variable {db : Db} {q : TotpRequest} {i : Nat} {t : Call} {c : totpWorld.Choice q}
  {s : Factors} (htracked : Tracked kit db s) (hdisc : s.Disciplined (Asked kit))
  (hasked : Asked kit t (s.history.trace i) q) (hC : Uncrossed i t q c s)
  {k : Totps.Answer q → Program Totps Unit}

include htracked hC

theorem tracked_looked (a : Uuid) (e : Event)
    (he : e ∈ (s.exchange totpWorld i t q k c).history) (hlooks : looks a e.exchange = true)
    (hnone : NoneSince (marks a) (looks a) e.thread (s.exchange totpWorld i t q k c).history) :
  ∀ r ∈ (s.exchange totpWorld i t q k c).state.secrets, r.actorId = a → r.verified = false
  := by
  have hbefore : ∀ r ∈ s.state.secrets, r.actorId = a → r.verified = false := by
    rcases List.mem_cons.mp he with rfl | he
    · apply of_looks hlooks hC
    · apply htracked.looked a e he hlooks hnone.tail
  rintro r' hr' rfl
  rcases mem_exec hr' with hr' | ⟨_, hverified⟩ | ⟨hmarks, r, hr, hactor, _⟩
  · apply hbefore r' hr' rfl
  · exact hverified
  · rcases List.mem_cons.mp he with rfl | he
    · obtain ⟨rfl, _⟩ := of_marks (i := i) (t := t) hmarks
      cases c <;> cases hlooks
    · exact absurd hmarks (hnone.head he hlooks)

omit hC in
theorem tracked_read (a : Uuid) (secret : String) (e : Event)
    (he : e ∈ (s.exchange totpWorld i t q k c).history)
    (hselects : selects a secret e.exchange = true)
    (hnone : NoneSince (upserts a) (selectsAny a) e.thread
      (s.exchange totpWorld i t q k c).history) :
  ∃ r ∈ (s.exchange totpWorld i t q k c).state.secrets, r.actorId = a ∧ r.secret = secret
  := by
  have hbefore : ∃ r ∈ s.state.secrets, r.actorId = a ∧ r.secret = secret := by
    rcases List.mem_cons.mp he with rfl | he
    · apply of_selects hselects
    · apply htracked.read a secret e he hselects hnone.tail
  obtain ⟨r, hr, rfl, rfl⟩ := hbefore
  rcases exec_keeps (q := q) (c := c) hr with hr' | hupserts | hr'
  · exact ⟨r, hr', rfl, rfl⟩
  · rcases List.mem_cons.mp he with rfl | he
    · obtain ⟨⟨secret, rfl⟩, _⟩ := of_upserts (i := i) (t := t) hupserts
      simp only [selects] at hselects
      cases hselects
    · exact absurd hupserts (hnone.head he (selectsAny_of_selects hselects))
  · exact ⟨_, hr', rfl, rfl⟩

include hasked

/-- A code was valid for the secret that a request marks. -/
theorem submitted_of_marks {r : SecretRow} (hr : r ∈ s.state.secrets)
    (hmarks : marks r.actorId ⟨q, (totpWorld.exec q c s.state).1⟩ = true)
    (hdisc : s.Disciplined (Asked kit)) (hthread : ∃ p, s.threads[i]? = some ⟨t, p⟩) :
  Submitted kit s.history r.actorId r.secret
  := by
  obtain ⟨rfl, hnone⟩ := of_marks (i := i) (t := t) hmarks
  obtain ⟨secret, code, time, rfl, haccepts, ⟨x, hx, hselects⟩, y, hy, hreads⟩ := hasked
  obtain ⟨e₁, he₁, hthread₁, rfl⟩ := Interface.History.mem_trace.mp hx
  obtain ⟨e₂, he₂, hthread₂, rfl⟩ := Interface.History.mem_trace.mp hy
  obtain ⟨r', hr', hactor, rfl⟩ :=
    htracked.read r.actorId secret e₁ he₁ hselects (hthread₁ ▸ hnone hC)
  obtain rfl := Db.eq_of_actorId hr' hr hactor
  have htask : e₁.task = .verify r'.actorId code := by
    obtain ⟨p, hp⟩ := hthread
    obtain ⟨p₁, hp₁⟩ := hdisc.events e₁ he₁
    rw [hthread₁, hp] at hp₁
    exact (Thread.mk.inj (Option.some.inj hp₁)).1.symm
  exact ⟨i, code, time, haccepts, ⟨e₁, he₁, hthread₁, htask, hselects⟩, e₂, he₂, hthread₂, hreads⟩

/-- A verified secret stays. -/
theorem exchange_keeps {r : SecretRow} (hr : r ∈ s.state.secrets) (hverified : r.verified = true) :
  r ∈ (s.exchange totpWorld i t q k c).state.secrets
  := by
  rcases exec_keeps (q := q) (c := c) hr with hr' | hupserts | hr'
  · exact hr'
  · obtain ⟨⟨secret, rfl⟩, hnone⟩ := of_upserts (i := i) (t := t) hupserts
    obtain ⟨x, hx, hlooks⟩ := hasked
    obtain ⟨e, he, hthread, rfl⟩ := Interface.History.mem_trace.mp hx
    have hunverified := htracked.looked _ e he hlooks (hthread ▸ hnone hC) r hr rfl
    rw [hverified] at hunverified
    cases hunverified
  · have hsame : { r with verified := true } = r := by
      rw [← hverified]
    rw [hsame] at hr'
    exact hr'

end Preserved

theorem tracked_exchange {db : Db} {q : TotpRequest} {i : Nat} {t : Call}
    {c : totpWorld.Choice q} {s : Factors} {k : Totps.Answer q → Program Totps Unit}
    (htracked : Tracked kit db s) (hdisc : s.Disciplined (Asked kit))
    (hthread : s.threads[i]? = some ⟨t, .call q k⟩) (hasked : Asked kit t (s.history.trace i) q)
    (hC : Uncrossed i t q c s) :
  Tracked kit db (s.exchange totpWorld i t q k c)
  := by
  constructor
  · apply tracked_looked htracked hC
  · apply tracked_read htracked
  · intro r' hr' hverified
    rcases mem_exec hr' with hr' | ⟨_, hunverified⟩ | ⟨hmarks, r, hr, hactor, hsecret⟩
    · rcases htracked.vouched r' hr' hverified with hstored | hsubmitted
      · exact .inl hstored
      · exact .inr (hsubmitted.cons _)
    · rw [hverified] at hunverified
      cases hunverified
    · rw [← hactor] at hmarks
      have hsubmitted := submitted_of_marks htracked hasked hC hr hmarks hdisc ⟨_, hthread⟩
      rw [hactor, hsecret] at hsubmitted
      exact .inr (hsubmitted.cons _)

theorem tracked_initial (db : Db) :
  Tracked kit db (.initial db)
  := by
  constructor
  · intro a e he
    cases he
  · intro a secret e he
    cases he
  · intro r hr _
    exact .inl hr

theorem tracked_of_reaches {db : Db} {s : Factors}
    (h : Reaches totpWorld (Call.program kit) Uncrossed (.initial db) s) :
  s.Disciplined (Asked kit) ∧ Tracked kit db s
  := by
  apply Step.inv (Tracked kit db) asks_program _ _ (Pool.initial_disciplined (Asked kit) db)
    (tracked_initial db) h
  · intro s t hs
    exact ⟨hs.looked, hs.read, hs.vouched⟩
  · intro s i t q k c hdisc hs hthread hasked hC
    apply tracked_exchange hs hdisc hthread hasked hC

/-- If no secret is replaced between its reading and its mark, none is marked between a look
at it and its replacement, and no look at a verified secret fails, then a secret is verified
only if it was at the start or a code was submitted that is valid for it; and a verified
secret stays as it is. -/
theorem secondFactor_sound (kit : Kit) (db : Db) (s s' : Factors)
    (h : Reaches totpWorld (Call.program kit) Uncrossed (.initial db) s)
    (h' : Reaches totpWorld (Call.program kit) Uncrossed s s') (r : SecretRow)
    (hr : r ∈ s.state.secrets) (hverified : r.verified = true) :
  (r ∈ db.secrets ∨ Submitted kit s.history r.actorId r.secret) ∧ r ∈ s'.state.secrets
  := by
  obtain ⟨hdisc, htracked⟩ := tracked_of_reaches h
  constructor
  · apply htracked.vouched r hr hverified
  · have hkept : Tracked kit db s' ∧ r ∈ s'.state.secrets := by
      apply (Step.inv (fun s'' => Tracked kit db s'' ∧ r ∈ s''.state.secrets) asks_program
        _ _ hdisc ⟨htracked, hr⟩ h').2
      · intro s'' t hs''
        exact ⟨⟨hs''.1.looked, hs''.1.read, hs''.1.vouched⟩, hs''.2⟩
      · intro s'' i t q k c hdisc hs'' hthread hasked hC
        constructor
        · apply tracked_exchange hs''.1 hdisc hthread hasked hC
        · apply exchange_keeps hs''.1 hasked hC hs''.2 hverified
    exact hkept.2

/-! ### Calls that cross -/

/-- The libraries on plain inputs: a secret is its own code. -/
def Kit.plain : Kit where
  tryFromBase32 s := .ok (s.toList.map fun c => UInt8.ofNat c.toNat)
  refusal _ := none
  toUrl _ := .ok "otpauth:"
  check totp code _ := totp.secret == code.toList.map fun c => UInt8.ofNat c.toNat
  sealAuto _ s := .ok s
  openAuto s := .ok s

/-- A statement fails as given, and the given secret is drawn. -/
def drawing (secret : String) (error : Option NoombatError) :
    (q : TotpRequest) → totpWorld.Choice q
  | .sql _ => error
  | .generateSecret => secret
  | .nonce => ""
  | .now => (0 : Nat)
  | .respond _ => ()

/-- The thread `i` makes its next `n` requests. -/
def turns (i n : Nat) (secret : String) : List (Turn totpWorld Call) :=
  List.replicate n (.exchange i (drawing secret none))

/-- An actor enrols the secret "a", and verifies it. -/
def enrolling : List (Turn totpWorld Call) :=
  .start (.enrol 1 "ann" "home.example") :: turns 0 5 "a" ++
    .start (.verify 1 "a") :: turns 1 4 ""

/-- The actor enrols again, and the look at the verified secret fails. -/
def reenrolling : List (Turn totpWorld Call) :=
  .start (.enrol 1 "ann" "home.example") ::
    .exchange 2 (drawing "" (some (.database "pool timed out"))) :: turns 2 4 "b"

/-- The actor enrols again, and the look does not fail. -/
def refused : List (Turn totpWorld Call) :=
  .start (.enrol 1 "ann" "home.example") :: turns 2 2 "b"

def annDb : Db :=
  ⟨[1], .empty⟩

/-- A failed look at a verified secret has it replaced. -/
theorem reenrolling_replaces :
  ∃ s s', Reaches totpWorld (Call.program .plain) (fun _ _ _ _ _ => True) (.initial annDb) s ∧
    Reaches totpWorld (Call.program .plain) (fun _ _ _ _ _ => True) s s' ∧
    ∃ r ∈ s.state.secrets, r.verified = true ∧ r ∉ s'.state.secrets
  := by
  have hplayed : (((Pool.initial annDb).play totpWorld (Call.program .plain)
      (fun _ _ _ _ _ => True) enrolling).bind fun s =>
        (s.play totpWorld (Call.program .plain) (fun _ _ _ _ _ => True) reenrolling).map fun s' =>
          (s.state.secrets.rows, s'.state.secrets.rows)) =
      some ([⟨1, "a", true⟩], [⟨1, "b", false⟩]) := by
    decide +kernel
  obtain ⟨s, hs, hrest⟩ := Option.bind_eq_some_iff.mp hplayed
  obtain ⟨s', hs', hrows⟩ := Option.map_eq_some_iff.mp hrest
  obtain ⟨hrows, hrows'⟩ := Prod.mk.inj hrows
  refine ⟨s, s', Pool.reaches_of_play _ _ _ hs, Pool.reaches_of_play _ _ _ hs', ⟨1, "a", true⟩,
    ?_, rfl, ?_⟩
  · apply Table.mem_rows.mp
    rw [hrows]
    apply List.mem_singleton_self
  · intro hmem
    have hmem := Table.mem_rows.mpr hmem
    rw [hrows'] at hmem
    simp at hmem

/-- A secret that was verified stays when the actor enrols again. -/
theorem refused_keeps :
  ∃ s s', Reaches totpWorld (Call.program .plain) Uncrossed (.initial annDb) s ∧
    Reaches totpWorld (Call.program .plain) Uncrossed s s' ∧
    ∃ r ∈ s.state.secrets, r.verified = true ∧
      (r ∈ annDb.secrets ∨ Submitted .plain s.history r.actorId r.secret) ∧ r ∈ s'.state.secrets
  := by
  have hplayed : (((Pool.initial annDb).play totpWorld (Call.program .plain)
      Uncrossed enrolling).bind fun s =>
        (s.play totpWorld (Call.program .plain) Uncrossed refused).map fun _ =>
          s.state.secrets.rows) = some [⟨1, "a", true⟩] := by
    decide +kernel
  obtain ⟨s, hs, hrest⟩ := Option.bind_eq_some_iff.mp hplayed
  obtain ⟨s', hs', hrows⟩ := Option.map_eq_some_iff.mp hrest
  have hr : (⟨1, "a", true⟩ : SecretRow) ∈ s.state.secrets := by
    apply Table.mem_rows.mp
    rw [hrows]
    apply List.mem_singleton_self
  have hreaches := Pool.reaches_of_play _ _ _ hs
  have hreaches' := Pool.reaches_of_play _ _ _ hs'
  exact ⟨s, s', hreaches, hreaches', _, hr, rfl,
    secondFactor_sound .plain annDb s s' hreaches hreaches' _ hr rfl⟩

end Identity.TwoFactor
