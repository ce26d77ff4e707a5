import Noombat.Identity.Email

/-!
# Redeemed challenges

A challenge is redeemed by the call whose transaction has locked it.  From the statement that
consumes it to the commit, nothing else can redeem it or remove it, so that a token is redeemed
once, before its expiry, and for the account and the address for which it was requested; and a
call that returns an error has committed nothing.
-/

namespace Identity.Email

open Federation (Uuid DateTime NoombatError)
open Fallible Program

abbrev Event : Type :=
  Interface.Event Emails Call

abbrev Calls (lib : EmailLibrary) : Type :=
  Pool Emails Call (Mail lib)

variable {lib : EmailLibrary}

/-- The calls can take this step. -/
abbrev Steps : Calls lib → Calls lib → Prop :=
  Step (emailWorld lib) (Call.program lib) fun _ _ _ _ _ => True

/-- The calls can run from one pool to another. -/
abbrev Runs : Calls lib → Calls lib → Prop :=
  Reaches (emailWorld lib) (Call.program lib) fun _ _ _ _ _ => True

/-! ### Phases -/

/-- What a transaction redeems. -/
structure Redemption where
  tx : Nat
  time : DateTime
  tokenHash : String
  actorId : Uuid
  email : String

/-- How far a redemption has come. -/
inductive Phase where
  | start
  | begun (tx : Nat) (time : DateTime)
  | consumed (r : Redemption)
  | written (r : Redemption)
  | redeemed (r : Redemption)
  /-- The call has returned an error. -/
  | refused

namespace Phase

/-- The phase after an exchange. -/
def next : Phase → Emails.Exchange → Phase
  | start, ⟨.sql .begin, .ok (tx, time)⟩ => begun tx time
  | begun tx time, ⟨.sql (.consume _ tokenHash), .ok (some (actorId, email))⟩ =>
      consumed ⟨tx, time, tokenHash, actorId, email⟩
  | consumed r, ⟨.sql (.setEmail _ _ _), .ok true⟩ => written r
  | written r, ⟨.sql (.commit _), .ok _⟩ => redeemed r
  | _, ⟨.respond (.verified (.error _)), _⟩ => refused
  | φ, _ => φ

/-- The phase after the exchanges given, the latest first. -/
def of (l : List Emails.Exchange) : Phase :=
  phaseOf start next l

@[simp]
theorem of_cons (x : Emails.Exchange) (l : List Emails.Exchange) :
  of (x :: l) = (of l).next x
  := rfl

/-- The transaction that is under way. -/
def tx : Phase → Option Nat
  | begun tx _ => some tx
  | consumed r => some r.tx
  | written r => some r.tx
  | _ => none

/-- A statement that fails changes no phase. -/
theorem next_error (φ : Phase) (q : EmailSql) (e : NoombatError) :
  φ.next ⟨.sql q, .error e⟩ = φ
  := by
  cases φ <;> cases q <;> rfl

/-- A statement that changes no phase. -/
def idle : EmailSql → Bool
  | .begin => false
  | .consume _ _ => false
  | .setEmail _ _ _ => false
  | .commit _ => false
  | _ => true

theorem next_idle (φ : Phase) {q : EmailSql} (hq : idle q = true) (a : Emails.Answer (.sql q)) :
  φ.next ⟨.sql q, a⟩ = φ
  := by
  cases q with
  | begin => cases hq
  | consume tx tokenHash => cases hq
  | setEmail tx actorId email => cases hq
  | commit tx => cases hq
  | _ => cases φ <;> rfl

/-- A call has a transaction only if it had it before, or has begun it. -/
theorem next_tx {φ : Phase} {x : Emails.Exchange} {tx : Nat} (h : (φ.next x).tx = some tx) :
  φ.tx = some tx ∨ ∃ time, x = ⟨.sql .begin, .ok (tx, time)⟩
  := by
  unfold next at h
  split at h
  · cases h
    exact .inr ⟨_, rfl⟩
  · exact .inl h
  · exact .inl h
  · cases h
  · cases h
  · exact .inl h

/-- The transaction that a redemption has begun, and its time. -/
def began : Phase → Option (Nat × DateTime)
  | begun tx time => some (tx, time)
  | consumed r => some (r.tx, r.time)
  | written r => some (r.tx, r.time)
  | redeemed r => some (r.tx, r.time)
  | _ => none

theorem next_began {φ : Phase} {x : Emails.Exchange} {b : Nat × DateTime}
    (h : (φ.next x).began = some b) :
  φ.began = some b ∨ x = ⟨.sql .begin, .ok b⟩
  := by
  unfold next at h
  split at h
  · cases h
    exact .inr rfl
  · exact .inl h
  · exact .inl h
  · exact .inl h
  · cases h
  · exact .inl h

/-- A redemption is committed. -/
theorem next_redeemed {φ : Phase} {x : Emails.Exchange} {r : Redemption}
    (h : φ.next x = redeemed r) :
  φ = redeemed r ∨ φ = written r ∧ ∃ tx, x = ⟨.sql (.commit tx), .ok ()⟩
  := by
  unfold next at h
  split at h
  · cases h
  · cases h
  · cases h
  · cases h
    exact .inr ⟨rfl, _, rfl⟩
  · cases h
  · exact .inl h

end Phase

/-- What the exchanges of a call are, when it asks something. -/
def Asked (lib : EmailLibrary) (t : Call) (l : List Emails.Exchange) : EmailRequest → Prop
  | .sql (.insert a e _ _) => ∃ email, t = .requestVerification a email ∧ e = lib.toLowercase email
  | .sql .begin => Phase.of l = .start
  | .sql (.consume tx tokenHash) => ∃ time token, t = .verify token ∧
      tokenHash = lib.hashToken token ∧ Phase.of l = .begun tx time
  | .sql (.setEmail tx a e) => ∃ time token, t = .verify token ∧
      Phase.of l = .consumed ⟨tx, time, lib.hashToken token, a, e⟩
  | .sql (.commit tx) => ∃ time token a e, t = .verify token ∧
      Phase.of l = .written ⟨tx, time, lib.hashToken token, a, e⟩
  | .sql .purgeExpired => t = .purgeExpired
  | .respond (.verified (.ok a)) => ∃ tx time token e, t = .verify token ∧
      Phase.of l = .redeemed ⟨tx, time, lib.hashToken token, a, e⟩
  | .respond (.verified (.error _)) => ∀ r, Phase.of l ≠ .redeemed r
  | _ => True

/-! ### What the calls ask -/

theorem asks_respond {t : Call} {r : Response} {l : List Emails.Exchange}
    (h : Asked lib t l (.respond r)) :
  Asks (Asked lib t) (fun _ _ => True) (respond r) l
  := ⟨h, fun _ => trivial⟩

theorem asks_requestVerification (actorId : Uuid) (email : String) :
  Asks (Asked lib (.requestVerification actorId email)) (fun _ _ => True)
    (requestVerification lib actorId email).run []
  := by
  rw [requestVerification, asks_run_bind, asks_run_ofExcept]
  cases qualify email "email" with
  | error e => trivial
  | ok _ =>
      rw [onExcept_ok, asks_run_bind]
      apply (asks_run_ask (EmailRequest.sql (.taken _ actorId)) _ _).mpr
      constructor
      · trivial
      rintro (e | taken)
      · trivial
      rw [onExcept_ok]
      split
      · trivial
      rw [asks_run_bind]
      apply (asks_run_ask (EmailRequest.sql (.recent actorId)) _ _).mpr
      constructor
      · trivial
      rintro (e | recent)
      · trivial
      rw [onExcept_ok]
      split
      · trivial
      rw [asks_run_bind]
      apply (asks_run_ask EmailRequest.mintToken _ _).mpr
      constructor
      · trivial
      rintro (e | token)
      · trivial
      rw [onExcept_ok, asks_run_bind]
      apply (asks_run_ask EmailRequest.utcNow _ _).mpr
      constructor
      · trivial
      rintro (e | now)
      · trivial
      rw [onExcept_ok, asks_run_bind]
      apply (asks_run_ask (EmailRequest.sql (.insert actorId _ _ _)) _ _).mpr
      constructor
      · exact ⟨email, rfl, rfl⟩
      rintro (e | _)
      · trivial
      · rw [onExcept_ok, asks_run_pure]
        trivial

/-- A redemption has committed just when it is successful. -/
theorem asks_redeem {tx : Nat} {token : String} {time : DateTime} {l : List Emails.Exchange}
    (hl : Phase.of l = .begun tx time) :
  Asks (Asked lib (.verify token))
    (fun r l' => match r with
      | .ok actorId => ∃ e, Phase.of l' = .redeemed ⟨tx, time, lib.hashToken token, actorId, e⟩
      | .error _ => ∀ r, Phase.of l' ≠ .redeemed r)
    (redeem lib tx token).run l
  := by
  rw [redeem, asks_run_bind]
  apply (asks_run_ask (EmailRequest.sql (.consume tx (lib.hashToken token))) _ _).mpr
  constructor
  · exact ⟨time, token, rfl, rfl, hl⟩
  rintro (e | _ | ⟨actorId, email⟩)
  · rintro r
    rw [Phase.of_cons, Phase.next_error, hl]
    rintro ⟨⟩
  · rw [onExcept_ok, asks_run_throw]
    rintro r
    rw [Phase.of_cons, hl]
    rintro ⟨⟩
  rw [onExcept_ok, asks_run_bind]
  have hconsumed : Phase.of (⟨.sql (.consume tx (lib.hashToken token)),
      .ok (some (actorId, email))⟩ :: l) =
        .consumed ⟨tx, time, lib.hashToken token, actorId, email⟩ := by
    rw [Phase.of_cons, hl]
    rfl
  apply (asks_run_ask (EmailRequest.sql (.setEmail tx actorId email)) _ _).mpr
  constructor
  · exact ⟨time, token, rfl, hconsumed⟩
  rintro (e | _ | _)
  · rintro r
    rw [Phase.of_cons, Phase.next_error, hconsumed]
    rintro ⟨⟩
  · rw [onExcept_ok, if_neg Bool.false_ne_true, asks_run_throw]
    rintro r
    rw [Phase.of_cons, hconsumed]
    rintro ⟨⟩
  rw [onExcept_ok, if_pos rfl, asks_run_bind]
  have hwritten : Phase.of (⟨.sql (.setEmail tx actorId email), .ok true⟩ ::
      ⟨.sql (.consume tx (lib.hashToken token)), .ok (some (actorId, email))⟩ :: l) =
        .written ⟨tx, time, lib.hashToken token, actorId, email⟩ := by
    rw [Phase.of_cons, hconsumed]
    rfl
  apply (asks_run_ask (EmailRequest.sql (.commit tx)) _ _).mpr
  constructor
  · exact ⟨time, token, actorId, email, rfl, hwritten⟩
  rintro (e | _)
  · rintro r
    rw [Phase.of_cons, Phase.next_error, hwritten]
    rintro ⟨⟩
  · rw [onExcept_ok, asks_run_pure]
    refine ⟨email, ?_⟩
    rw [Phase.of_cons, hwritten]
    rfl

theorem asks_verify (token : String) :
  Asks (Asked lib (.verify token))
    (fun r l => Asked lib (.verify token) l (.respond (.verified r))) (verify lib token).run []
  := by
  rw [verify, asks_run_bind]
  apply (asks_run_ask (EmailRequest.sql .begin) _ _).mpr
  constructor
  · rfl
  rintro (e | ⟨tx, time⟩)
  · rintro r ⟨⟩
  rw [onExcept_ok, asks_run_bind, asks_run_attempt]
  apply Asks.mono _ (asks_redeem rfl)
  rintro (e | actorId) l hl
  · rw [onExcept_ok, asks_run_bind, asks_run_attempt]
    apply (asks_run_ask (EmailRequest.sql (.rollback tx)) _ _).mpr
    constructor
    · trivial
    intro answer
    rw [onExcept_ok, asks_run_throw]
    intro r
    have hsame : Phase.of (⟨.sql (.rollback tx), answer⟩ :: l) = Phase.of l := by
      rw [Phase.of_cons]
      cases Phase.of l <;> rfl
    rw [hsame]
    apply hl
  · obtain ⟨e, hl⟩ := hl
    rw [onExcept_ok, asks_run_pure]
    exact ⟨tx, time, token, e, rfl, hl⟩

theorem asks_program (t : Call) :
  Asks (Asked lib t) (fun _ _ => True) (t.program lib) []
  := by
  cases t with
  | requestVerification actorId email =>
      rw [Call.program, asks_bind]
      apply Asks.mono _ (asks_requestVerification actorId email)
      intro r l _
      apply asks_respond
      trivial
  | verify token =>
      rw [Call.program, asks_bind]
      apply Asks.mono _ (asks_verify token)
      intro r l hl
      apply asks_respond hl
  | purgeExpired =>
      rw [Call.program, asks_bind, purgeExpired]
      apply (asks_run_ask (EmailRequest.sql .purgeExpired) _ _).mpr
      constructor
      · rfl
      intro r
      apply asks_respond
      trivial

/-! ### What a phase knows -/

/-- The challenge of a redemption, not redeemed yet, or redeemed. -/
def Db.Holds (consumedAt : Option DateTime) (r : Redemption) (db : Db lib) : Prop :=
  ∃ v ∈ db.emailVerifications, v.tokenHash = r.tokenHash ∧ v.actorId = r.actorId ∧
    v.email = r.email ∧ r.time < v.expiresAt ∧ v.consumedAt = consumedAt

/-- The transaction of a redemption, if it is under way, has made these writes, and has locked
the challenge, which can be redeemed. -/
structure Redemption.Wrote (ws : List Write) (r : Redemption) (s : Mail lib) : Prop where
  old : r.tx < s.nextId
  underWay : ∀ x ∈ s.underWay, x.id = r.tx → x.startedAt = r.time ∧ x.writes = ws ∧
    .challenge r.tokenHash ∈ x.locks ∧ s.committed.Holds none r

/-- What is so when a call is in a phase. -/
def Phase.Fits (s : Mail lib) : Phase → Prop
  | start => True
  | begun tx time => tx < s.nextId ∧
      ∀ x ∈ s.underWay, x.id = tx → x.startedAt = time ∧ x.writes = []
  | consumed r => r.Wrote [.consume r.tokenHash r.time] s
  | written r =>
      r.Wrote [.setEmail r.actorId r.email r.time, .consume r.tokenHash r.time] s
  | redeemed r => s.committed.Holds (some r.time) r
  | refused => True

/-- Two calls have different transactions, and have redeemed different tokens. -/
structure Phase.Apart (φ φ' : Phase) : Prop where
  tx : ∀ tx, φ.tx = some tx → φ'.tx ≠ some tx
  tokenHash : ∀ r r', φ = redeemed r → φ' = redeemed r' → r.tokenHash ≠ r'.tokenHash

/-- What a step leaves to all transactions but `tx`, and of the challenges. -/
structure Leaves (tx : Option Nat) (s s' : Mail lib) : Prop where
  nextId : s.nextId ≤ s'.nextId
  underWay : ∀ x ∈ s'.underWay, x.id < s.nextId → tx ≠ some x.id → x ∈ s.underWay
  locked : ∀ x ∈ s.underWay, tx ≠ some x.id → ∀ v ∈ s.committed.emailVerifications,
    .challenge v.tokenHash ∈ x.locks → v ∈ s'.committed.emailVerifications
  consumed : ∀ v ∈ s.committed.emailVerifications, v.consumedAt.isSome = true →
    v ∈ s'.committed.emailVerifications

section Leaves

variable {tx : Option Nat} {s s' : Mail lib} {r : Redemption} {φ : Phase}

theorem Leaves.wrote (h : Leaves tx s s') (htx : tx ≠ some r.tx) {ws : List Write}
    (hr : r.Wrote ws s) :
  r.Wrote ws s'
  := by
  constructor
  · exact Nat.lt_of_lt_of_le hr.old h.nextId
  · rintro x hx hid
    have hother : tx ≠ some x.id := hid ▸ htx
    have hmem := h.underWay x hx (hid ▸ hr.old) hother
    obtain ⟨hstarted, hwrites, hlock, v, hv, hhash, hrest⟩ := hr.underWay x hmem hid
    exact ⟨hstarted, hwrites, hlock, v, h.locked x hmem hother v hv (hhash ▸ hlock), hhash, hrest⟩

/-- The other calls still have what they rely on. -/
theorem Leaves.fits (h : Leaves tx s s') (htx : ∀ tx', φ.tx = some tx' → tx ≠ some tx')
    (hφ : φ.Fits s) :
  φ.Fits s'
  := by
  cases φ with
  | start => trivial
  | begun tx' time =>
      obtain ⟨hold, hown⟩ := hφ
      constructor
      · exact Nat.lt_of_lt_of_le hold h.nextId
      · rintro x hx rfl
        exact hown x (h.underWay x hx hold (htx _ rfl)) rfl
  | consumed r => exact h.wrote (htx _ rfl) hφ
  | written r => exact h.wrote (htx _ rfl) hφ
  | redeemed r =>
      obtain ⟨v, hv, hhash, hactor, hemail, htime, hconsumed⟩ := hφ
      exact ⟨v, h.consumed v hv (by rw [hconsumed]; rfl), hhash, hactor, hemail, htime, hconsumed⟩
  | refused => trivial

theorem Leaves.refl (tx : Option Nat) (s : Mail lib) :
  Leaves tx s s
  where
  nextId := Nat.le_refl _
  underWay := fun _ hx _ _ => hx
  locked := fun _ _ _ _ hv _ => hv
  consumed := fun _ hv _ => hv

theorem Leaves.of_none (h : Leaves none s s') (tx : Option Nat) :
  Leaves tx s s'
  where
  nextId := h.nextId
  underWay := fun x hx hlt _ => h.underWay x hx hlt nofun
  locked := fun x hx _ => h.locked x hx nofun
  consumed := h.consumed

theorem Leaves.close (tx : Option Nat) (id : Nat) (s : Mail lib) :
  Leaves tx s (s.close id)
  where
  nextId := Nat.le_refl _
  underWay := fun _ hx _ _ => (Store.mem_close.mp hx).1
  locked := fun _ _ _ _ hv _ => hv
  consumed := fun _ hv _ => hv

theorem Leaves.begin (tx : Option Nat) (s : Mail lib) :
  Leaves tx s s.begin
  := by
  constructor
  · apply Nat.le_succ
  · intro x hx hlt _
    rcases Store.mem_begin.mp hx with rfl | hx
    · exact absurd hlt (Nat.lt_irrefl _)
    · exact hx
  · intro _ _ _ v hv _
    exact hv
  · intro v hv _
    exact hv

theorem Leaves.write {id : Nat} {ws : List Write} {ks : List Lock} (h : Store.Wrote id ws ks s s') :
  Leaves (some id) s s'
  := by
  constructor
  · exact Nat.le_of_eq h.nextId.symm
  · intro x hx _ hne
    exact (h.others x fun hid => hne (congrArg some hid.symm)).mp hx
  · intro _ _ _ v hv _
    rw [h.committed]
    exact hv
  · intro v hv _
    rw [h.committed]
    exact hv

/-- A single statement that keeps what is locked or consumed. -/
theorem Leaves.withCommitted (tx : Option Nat) {db : Db lib}
    (h : ∀ v ∈ s.committed.emailVerifications,
      v.consumedAt.isSome = true ∨ s.locked (.challenge v.tokenHash) = true →
        v ∈ db.emailVerifications) :
  Leaves tx s (s.withCommitted db)
  where
  nextId := Nat.le_refl _
  underWay := fun _ hx _ _ => hx
  locked := fun _ hx _ v hv hk => h v hv (.inr (Store.locked_of_mem hx hk))
  consumed := fun v hv hconsumed => h v hv (.inl hconsumed)

end Leaves

/-! ### What a statement does -/

section Statements

variable {s : Mail lib} {φ : Phase}

theorem later_fits (elapsed : Nat) (h : φ.Fits s) :
  φ.Fits (s.later elapsed)
  := by
  cases φ with
  | consumed r => exact ⟨h.old, h.underWay⟩
  | written r => exact ⟨h.old, h.underWay⟩
  | _ => exact h

theorem Leaves.of_later {tx : Option Nat} {s' : Mail lib} {elapsed : Nat}
    (h : Leaves tx (s.later elapsed) s') :
  Leaves tx s s'
  := ⟨h.nextId, h.underWay, h.locked, h.consumed⟩

/-- Two challenges with one token are one. -/
theorem eq_of_tokenHash {db : Db lib} {v v' : Verification} (hv : v ∈ db.emailVerifications)
    (hv' : v' ∈ db.emailVerifications) (h : v.tokenHash = v'.tokenHash) :
  v = v'
  := Table.eq_of_not_apart hv hv' fun hapart => hapart h

theorem mem_consume {tokenHash : String} {time : DateTime} {db : Db lib} {v : Verification} :
  v ∈ (db.consume tokenHash time).emailVerifications ↔ ∃ v' ∈ db.emailVerifications,
    (if v'.tokenHash = tokenHash then { v' with consumedAt := some time } else v') = v
  := by
  rw [Db.consume, Table.mem_update]
  simp only [beq_iff_eq]

theorem setEmail_eq_some {a : Uuid} {e : String} {time : DateTime} {db db' : Db lib}
    (h : db.setEmail a e time = some db') :
  db'.actors.rows = db.actors.rows.map (·.proved a e time) ∧
    db'.emailVerifications = db.emailVerifications ∧ db'.created = db.created
  := by
  obtain ⟨actors, hactors, rfl⟩ := Option.map_eq_some_iff.mp h
  rw [Table.ofRows] at hactors
  split at hactors
  · cases hactors
    exact ⟨rfl, rfl, rfl⟩
  · cases hactors

/-- What a redemption has written when it is committed. -/
theorem of_commit {r : Redemption} {s' : Mail lib} (hφ : (Phase.written r).Fits s)
    (h : s.commit Write.apply r.tx = some s') :
  s'.underWay = (s.close r.tx).underWay ∧ s'.nextId = s.nextId ∧ s.committed.Holds none r ∧
    (∃ x ∈ s.underWay, x.id = r.tx ∧ .challenge r.tokenHash ∈ x.locks) ∧
    s'.committed.emailVerifications = (s.committed.consume r.tokenHash r.time).emailVerifications ∧
    s'.committed.actors.rows = s.committed.actors.rows.map (·.proved r.actorId r.email r.time) ∧
    s'.committed.created = s.committed.created
  := by
  obtain ⟨x, hx, hid, db, hview, rfl⟩ := Store.of_commit h
  obtain ⟨hstarted, hwrites, hlock, hholds⟩ := hφ.underWay x hx hid
  rw [Store.view, hwrites] at hview
  obtain ⟨hactors, hchallenges, hcreated⟩ := setEmail_eq_some hview
  exact ⟨rfl, rfl, hholds, ⟨x, hx, hid, hlock⟩, hchallenges, hactors, hcreated⟩

theorem leaves_commit {r : Redemption} {s' : Mail lib} (hφ : (Phase.written r).Fits s)
    (h : s.commit Write.apply r.tx = some s') :
  Leaves (some r.tx) s s' ∧ (Phase.redeemed r).Fits s'
  := by
  obtain ⟨hunderWay, hnext, hholds, ⟨x, hx, hid, hlock⟩, hchallenges, _, _⟩ := of_commit hφ h
  obtain ⟨v, hv, hhash, hactor, hemail, htime, hnone⟩ := hholds
  have hkept : ∀ v' ∈ s.committed.emailVerifications, v'.tokenHash ≠ r.tokenHash →
      v' ∈ s'.committed.emailVerifications := by
    intro v' hv' hne
    rw [hchallenges]
    exact mem_consume.mpr ⟨v', hv', if_neg hne⟩
  constructor
  · constructor
    · exact Nat.le_of_eq hnext.symm
    · intro y hy _ _
      rw [hunderWay] at hy
      exact (Store.mem_close.mp hy).1
    · intro y hy hne v' hv' hk
      apply hkept v' hv'
      intro heq
      -- the lock has one holder
      have hsame : x = y := Store.eq_of_lock hx hy hlock (heq ▸ hk)
      exact hne (by rw [← hsame, hid])
    · intro v' hv' hconsumed
      apply hkept v' hv'
      intro heq
      rw [eq_of_tokenHash hv' hv (heq.trans hhash.symm), hnone] at hconsumed
      cases hconsumed
  · refine ⟨{ v with consumedAt := some r.time }, ?_, hhash, hactor, hemail, htime, rfl⟩
    rw [hchallenges]
    exact mem_consume.mpr ⟨v, hv, if_pos hhash⟩

theorem fits_begin :
  (Phase.begun s.nextId s.clock).Fits s.begin
  := by
  constructor
  · apply Nat.lt_succ_self
  · intro x hx hid
    rcases Store.mem_begin.mp hx with rfl | hx
    · exact ⟨rfl, rfl⟩
    · exact absurd hid (Nat.ne_of_lt (s.old x hx))

/-- A statement that is not of a redemption, and a rollback, leave every transaction. -/
theorem leaves_idle {q : EmailSql} (hq : Phase.idle q = true) :
  Leaves none s (q.exec s).2
  := by
  cases q with
  | taken folded actorId => apply Leaves.refl
  | recent actorId => apply Leaves.refl
  | insert actorId email tokenHash expiresAt =>
      simp only [EmailSql.exec]
      split
      · split
        · apply Leaves.refl
        · rename_i inserted hinsert
          apply Leaves.withCommitted
          intro v hv _
          exact (Table.mem_of_insert hinsert).mpr (.inr hv)
      · apply Leaves.refl
  | begin => cases hq
  | consume tx tokenHash => cases hq
  | setEmail tx actorId email => cases hq
  | commit tx => cases hq
  | rollback tx => apply Leaves.close
  | purgeExpired =>
      simp only [EmailSql.exec]
      split
      · apply Leaves.refl
      · rename_i hlocked
        apply Leaves.withCommitted
        intro v hv hkept
        refine Table.mem_delete.mpr ⟨hv, Bool.eq_false_iff.mpr ?_⟩
        intro hexpired
        rcases hkept with hconsumed | hlock
        · simp only [Verification.isExpired, Bool.and_eq_true, Option.isNone_iff_eq_none] at hexpired
          rw [hexpired.1] at hconsumed
          cases hconsumed
        · exact hlocked (List.any_eq_true.mpr ⟨v, List.mem_filter.mpr ⟨hv, hexpired⟩, hlock⟩)

/-- The challenge is locked and can be redeemed. -/
theorem fits_consume {tx : Nat} {time : DateTime} {tokenHash : String} {v : Verification}
    {s' : Mail lib} (hφ : (Phase.begun tx time).Fits s)
    (hfound : s.committed.emailVerifications.find (·.isLive time tokenHash) = some v)
    (hwrote : Store.Wrote tx [.consume tokenHash time] [.challenge tokenHash] s s') :
  (Phase.consumed ⟨tx, time, tokenHash, v.actorId, v.email⟩).Fits s'
  := by
  obtain ⟨x, hx, rfl, hextended⟩ := hwrote.own
  constructor
  · rw [hwrote.nextId]
    exact hφ.1
  · intro y hy hid
    obtain rfl : y = x.extend [.consume tokenHash time] [.challenge tokenHash] :=
      Store.eq_of_id hy hextended hid
    obtain ⟨hstarted, hwrites⟩ := hφ.2 x hx rfl
    refine ⟨hstarted, ?_, List.mem_cons_self, ?_⟩
    · rw [Transaction.extend, hwrites]
      rfl
    · have hlive := Table.satisfies_of_find hfound
      simp only [Verification.isLive, Bool.and_eq_true, beq_iff_eq, Option.isNone_iff_eq_none,
        decide_eq_true_eq] at hlive
      obtain ⟨⟨hhash, hnone⟩, htime⟩ := hlive
      rw [hwrote.committed]
      exact ⟨v, Table.mem_of_find hfound, hhash, rfl, rfl, htime, hnone⟩

/-- The address is written in the transaction. -/
theorem fits_setEmail {r : Redemption} {ks : List Lock} {s' : Mail lib}
    (hφ : (Phase.consumed r).Fits s)
    (hwrote : Store.Wrote r.tx [.setEmail r.actorId r.email r.time] ks s s') :
  (Phase.written r).Fits s'
  := by
  obtain ⟨x, hx, hxid, hextended⟩ := hwrote.own
  constructor
  · rw [hwrote.nextId]
    exact hφ.old
  · intro y hy hid
    obtain rfl : y = x.extend [.setEmail r.actorId r.email r.time] ks :=
      Store.eq_of_id hy hextended (hid.trans hxid.symm)
    obtain ⟨hstarted, hwrites, hlock, hholds⟩ := hφ.underWay x hx hxid
    refine ⟨hstarted, ?_, List.mem_append_right _ hlock, ?_⟩
    · rw [Transaction.extend, hwrites]
      rfl
    · rw [hwrote.committed]
      exact hholds

/-- What a statement leaves, and where it leaves the call that has made it. -/
theorem exec_fits {t : Call} {l : List Emails.Exchange} (q : EmailSql)
    (hφ : (Phase.of l).Fits s) (hasked : Asked lib t l (.sql q)) :
  Leaves (Phase.of l).tx s (q.exec s).2 ∧
    ((Phase.of l).next ⟨.sql q, (q.exec s).1⟩).Fits (q.exec s).2
  := by
  have hidle : Phase.idle q = true → Leaves (Phase.of l).tx s (q.exec s).2 ∧
      ((Phase.of l).next ⟨.sql q, (q.exec s).1⟩).Fits (q.exec s).2 := by
    intro hq
    have hleaves := leaves_idle (s := s) hq
    rw [Phase.next_idle _ hq]
    exact ⟨hleaves.of_none _, hleaves.fits (fun _ _ => nofun) hφ⟩
  cases q with
  | taken folded actorId => exact hidle rfl
  | recent actorId => exact hidle rfl
  | insert actorId email tokenHash expiresAt => exact hidle rfl
  | begin =>
      have hstart : Phase.of l = .start := hasked
      rw [hstart]
      exact ⟨.begin _ s, fits_begin⟩
  | consume tx tokenHash =>
      obtain ⟨time, token, _, _, hphase⟩ := hasked
      rw [hphase] at hφ ⊢
      simp only [EmailSql.exec]
      split
      · exact ⟨.refl _ s, hφ⟩
      rename_i x hfound
      obtain ⟨hx, hid⟩ := Store.find_eq_some hfound
      obtain ⟨hstarted, _⟩ := hφ.2 x hx hid
      rw [hstarted]
      split
      · exact ⟨.refl _ s, hφ⟩
      split
      · exact ⟨.refl _ s, hφ⟩
      rename_i v hlive _ s' hwrite
      have hwrote := Store.wrote_of_write hwrite
      exact ⟨.write hwrote, fits_consume hφ hlive hwrote⟩
  | setEmail tx actorId email =>
      obtain ⟨time, token, _, hphase⟩ := hasked
      rw [hphase] at hφ ⊢
      simp only [EmailSql.exec]
      split
      · exact ⟨.refl _ s, hφ⟩
      rename_i x hfound
      obtain ⟨hx, hid⟩ := Store.find_eq_some hfound
      obtain ⟨hstarted, _⟩ := hφ.underWay x hx hid
      split
      · exact ⟨.refl _ s, hφ⟩
      rw [hstarted]
      split
      · exact ⟨.refl _ s, hφ⟩
      rename_i s' hwrite
      have hwrote := Store.wrote_of_write hwrite
      exact ⟨.write hwrote, fits_setEmail hφ hwrote⟩
  | commit tx =>
      obtain ⟨time, token, a, e, _, hphase⟩ := hasked
      rw [hphase] at hφ ⊢
      simp only [EmailSql.exec]
      split
      · exact ⟨.close _ tx s, (Leaves.close none tx s).fits (fun _ _ => nofun) hφ⟩
      · rename_i s' hcommit
        exact leaves_commit hφ hcommit
  | rollback tx => exact hidle rfl
  | purgeExpired => exact hidle rfl

/-- What an exchange leaves, and where it leaves the call that has made it. -/
theorem exchange_fits {t : Call} {l : List Emails.Exchange} (q : EmailRequest)
    (c : (emailWorld lib).Choice q) (hφ : (Phase.of l).Fits s) (hasked : Asked lib t l q) :
  Leaves (Phase.of l).tx s ((emailWorld lib).exec q c s).2 ∧
    ((Phase.of l).next ⟨q, ((emailWorld lib).exec q c s).1⟩).Fits ((emailWorld lib).exec q c s).2
  := by
  cases q with
  | sql q =>
      cases c with
      | error e =>
          have hleaves : Leaves none s (q.fail s) := by
            cases q with
            | commit tx => apply Leaves.close
            | _ => apply Leaves.refl
          change _ ∧ ((Phase.of l).next ⟨.sql q, .error e⟩).Fits _
          rw [Phase.next_error]
          exact ⟨hleaves.of_none _, hleaves.fits (fun _ _ => nofun) hφ⟩
      | ok elapsed =>
          obtain ⟨hleaves, hfits⟩ := exec_fits q (later_fits elapsed hφ) hasked
          exact ⟨hleaves.of_later, hfits⟩
  | mintToken =>
      refine ⟨.refl _ s, ?_⟩
      cases hphase : Phase.of l <;> rw [hphase] at hφ <;> exact hφ
  | utcNow =>
      refine ⟨.refl _ s, ?_⟩
      cases hphase : Phase.of l <;> rw [hphase] at hφ <;> exact hφ
  | respond r =>
      refine ⟨.refl _ s, ?_⟩
      rcases r with r | (e | a) | r
      · cases hphase : Phase.of l <;> rw [hphase] at hφ <;> exact hφ
      · cases hphase : Phase.of l <;> trivial
      · cases hphase : Phase.of l <;> rw [hphase] at hφ <;> exact hφ
      · cases hphase : Phase.of l <;> rw [hphase] at hφ <;> exact hφ

end Statements

/-! ### What holds of all calls -/

/-- The challenge was there at first, or its account has requested it. -/
def Requested (db : Db lib) (h : Emails.History Call) (v : Verification) : Prop :=
  (∃ v₀ ∈ db.emailVerifications, v₀.tokenHash = v.tokenHash ∧ v₀.actorId = v.actorId ∧
      v₀.email = v.email) ∨
    ∃ e ∈ h, ∃ email expiresAt, e.task = .requestVerification v.actorId email ∧
      v.email = lib.toLowercase email ∧
      e.exchange = ⟨.sql (.insert v.actorId v.email v.tokenHash expiresAt), .ok ()⟩

theorem Requested.cons {db : Db lib} {h : Emails.History Call} {v : Verification}
    (hv : Requested db h v) (e : Event) :
  Requested db (e :: h) v
  := by
  rcases hv with hv | ⟨e', he', hrest⟩
  · exact .inl hv
  · exact .inr ⟨e', List.mem_cons_of_mem e he', hrest⟩

/-- A challenge that is the same but for having been consumed. -/
theorem Requested.congr {db : Db lib} {h : Emails.History Call} {v v' : Verification}
    (hv : Requested db h v) (hhash : v'.tokenHash = v.tokenHash) (hactor : v'.actorId = v.actorId)
    (hemail : v'.email = v.email) :
  Requested db h v'
  := by
  rw [Requested, hhash, hactor, hemail]
  exact hv

/-- Every call is in a phase that fits the state, and every challenge was requested. -/
structure Settled (db : Db lib) (s : Calls lib) : Prop where
  compatible : Compatible Phase.Fits Phase.Apart s.state (s.phases .start Phase.next)
  requested : ∀ v ∈ s.state.committed.emailVerifications, Requested db s.history v

section Steps

variable {s : Calls lib} {i : Nat} {t : Call} {q : EmailRequest}
  {k : Emails.Answer q → Program Emails Unit} {c : (emailWorld lib).Choice q}

/-- Every challenge was there before, if perhaps not consumed, or is inserted. -/
theorem requested_exec {l : List Emails.Exchange} {s : Mail lib} {q : EmailSql}
    (hφ : (Phase.of l).Fits s) (hasked : Asked lib t l (.sql q)) {v : Verification}
    (hv : v ∈ (q.exec s).2.committed.emailVerifications) :
  (∃ v' ∈ s.committed.emailVerifications, v.tokenHash = v'.tokenHash ∧ v.actorId = v'.actorId ∧
      v.email = v'.email) ∨
    ∃ expiresAt, (⟨.sql q, (q.exec s).1⟩ : Emails.Exchange) =
      ⟨.sql (.insert v.actorId v.email v.tokenHash expiresAt), .ok ()⟩
  := by
  have hsame : v ∈ s.committed.emailVerifications → ∃ v' ∈ s.committed.emailVerifications,
      v.tokenHash = v'.tokenHash ∧ v.actorId = v'.actorId ∧ v.email = v'.email :=
    fun h => ⟨v, h, rfl, rfl, rfl⟩
  cases q with
  | taken folded actorId => exact .inl (hsame hv)
  | recent actorId => exact .inl (hsame hv)
  | begin => exact .inl (hsame hv)
  | rollback tx => exact .inl (hsame hv)
  | insert actorId email tokenHash expiresAt =>
      simp only [EmailSql.exec] at hv
      split at hv
      · rename_i hactor
        split at hv
        · exact .inl (hsame hv)
        · rename_i inserted hinsert
          have hanswer : (EmailSql.exec (.insert actorId email tokenHash expiresAt) s).1 =
              .ok () := by
            simp only [EmailSql.exec, hactor, if_true, hinsert]
          rcases (Table.mem_of_insert hinsert).mp hv with rfl | hv
          · rw [hanswer]
            exact .inr ⟨expiresAt, rfl⟩
          · exact .inl (hsame hv)
      · exact .inl (hsame hv)
  | consume tx tokenHash =>
      left
      simp only [EmailSql.exec] at hv
      split at hv
      · exact hsame hv
      split at hv
      · exact hsame hv
      split at hv
      · exact hsame hv
      · rename_i s' hwrite
        rw [(Store.wrote_of_write hwrite).committed] at hv
        exact hsame hv
  | setEmail tx actorId email =>
      left
      simp only [EmailSql.exec] at hv
      split at hv
      · exact hsame hv
      split at hv
      · exact hsame hv
      split at hv
      · exact hsame hv
      · rename_i s' hwrite
        rw [(Store.wrote_of_write hwrite).committed] at hv
        exact hsame hv
  | commit tx =>
      left
      obtain ⟨time, token, a, e, _, hphase⟩ := hasked
      rw [hphase] at hφ
      simp only [EmailSql.exec] at hv
      split at hv
      · exact hsame hv
      · rename_i s' hcommit
        obtain ⟨_, _, _, _, hchallenges, _, _⟩ := of_commit hφ hcommit
        rw [hchallenges] at hv
        obtain ⟨v', hv', rfl⟩ := mem_consume.mp hv
        refine ⟨v', hv', ?_⟩
        split
        · exact ⟨rfl, rfl, rfl⟩
        · exact ⟨rfl, rfl, rfl⟩
  | purgeExpired =>
      left
      simp only [EmailSql.exec] at hv
      split at hv
      · exact hsame hv
      · exact hsame (Table.mem_delete.mp hv).1

/-- A call that goes on keeps apart from the others. -/
theorem apart_exchange {l : List Emails.Exchange} {φ' : Phase} (hφ : (Phase.of l).Fits s.state)
    (hasked : Asked lib t l q) (hφ' : φ'.Fits s.state) (hapart : Phase.Apart (Phase.of l) φ') :
  Phase.Apart ((Phase.of l).next ⟨q, ((emailWorld lib).exec q c s.state).1⟩) φ'
  := by
  constructor
  · intro tx htx
    rcases Phase.next_tx htx with htx | ⟨time, hx⟩
    · exact hapart.tx tx htx
    · -- a transaction that has just begun is new
      intro htx'
      cases q with
      | sql q =>
          cases q with
          | begin =>
              cases c with
              | error e => cases hx
              | ok elapsed =>
                  obtain rfl : s.state.nextId = tx := by
                    obtain ⟨_, hanswer⟩ := Interface.Exchange.mk.inj hx
                    exact (Prod.mk.inj (Except.ok.inj (eq_of_heq hanswer))).1
                  cases φ' with
                  | begun tx time =>
                      cases htx'
                      exact Nat.lt_irrefl _ hφ'.1
                  | consumed r =>
                      have hold := hφ'.old
                      rw [Option.some.inj htx'] at hold
                      exact Nat.lt_irrefl _ hold
                  | written r =>
                      have hold := hφ'.old
                      rw [Option.some.inj htx'] at hold
                      exact Nat.lt_irrefl _ hold
                  | _ => cases htx'
          | _ => cases hx
      | _ => cases hx
  · intro r r' hr hr'
    rcases Phase.next_redeemed hr with hsame | ⟨hwritten, tx, hx⟩
    · exact hapart.tokenHash r r' hsame hr'
    · -- the challenge was not consumed before
      subst hr'
      obtain ⟨v', hv', hhash', _, _, _, hconsumed⟩ := hφ'
      cases q with
      | sql q =>
          cases q with
          | commit tx' =>
              cases c with
              | error e => cases hx
              | ok elapsed =>
                  obtain ⟨time, token, a, e, _, hphase⟩ := hasked
                  rw [hwritten] at hphase hφ
                  cases hphase
                  simp only [emailWorld, EmailSql.exec] at hx
                  split at hx
                  · cases hx
                  · rename_i s' hcommit
                    obtain ⟨_, _, ⟨v, hv, hhash, _, _, _, hnone⟩, _⟩ :=
                      of_commit (later_fits elapsed hφ) hcommit
                    intro heq
                    have hsame : v = v' :=
                      eq_of_tokenHash hv hv' (hhash.trans (heq.trans hhash'.symm))
                    rw [hsame, hconsumed] at hnone
                    cases hnone
          | _ => cases hx
      | _ => cases hx

theorem settled_exchange {db : Db lib} (hs : Settled db s)
    (hthread : s.threads[i]? = some ⟨t, .call q k⟩) (hasked : Asked lib t (s.history.trace i) q) :
  Settled db (s.exchange (emailWorld lib) i t q k c)
  := by
  have hφ : (Phase.of (s.history.trace i)).Fits s.state := hs.compatible.fits i
  constructor
  · rw [Pool.phases_exchange]
    obtain ⟨hleaves, hfits⟩ := exchange_fits q c hφ hasked
    apply hs.compatible.enter i hfits
    intro φ' hφ' hapart hapart'
    refine ⟨hleaves.fits (fun tx' htx' htx => hapart.tx tx' htx htx') hφ', ?_⟩
    have hnew := apart_exchange (c := c) hφ hasked hφ' hapart
    exact ⟨hnew, ⟨fun tx h h' => hnew.tx tx h' h, fun r r' h h' => (hnew.tokenHash r' r h' h).symm⟩⟩
  · intro v hv
    have hkept : ∀ v' ∈ s.state.committed.emailVerifications, v.tokenHash = v'.tokenHash →
        v.actorId = v'.actorId → v.email = v'.email →
        Requested db (s.exchange (emailWorld lib) i t q k c).history v := by
      intro v' hv' hhash hactor hemail
      exact ((hs.requested v' hv').congr hhash hactor hemail).cons _
    cases q with
    | sql q =>
        cases c with
        | error e =>
            have hsame : (q.fail s.state).committed = s.state.committed := by
              cases q <;> rfl
            change v ∈ (q.fail s.state).committed.emailVerifications at hv
            rw [hsame] at hv
            exact hkept v hv rfl rfl rfl
        | ok elapsed =>
            rcases requested_exec (later_fits elapsed hφ) hasked hv with
              ⟨v', hv', hhash, hactor, hemail⟩ | ⟨expiresAt, hx⟩
            · exact hkept v' hv' hhash hactor hemail
            · right
              have hinsert := hx
              cases q with
              | insert actorId email tokenHash expiresAt' =>
                  obtain ⟨hq, _⟩ := Interface.Exchange.mk.inj hx
                  cases hq
                  obtain ⟨email, htask, hemail⟩ := hasked
                  exact ⟨_, List.mem_cons_self, email, expiresAt, htask, hemail, hinsert⟩
              | _ => cases hx
    | mintToken => exact hkept v hv rfl rfl rfl
    | utcNow => exact hkept v hv rfl rfl rfl
    | respond r => exact hkept v hv rfl rfl rfl

end Steps

theorem settled (db : Db lib) (clock : DateTime) {s : Calls lib}
    (hreach : Runs (.initial (.initial db clock)) s) :
  s.Disciplined (Asked lib) ∧ Settled db s
  := by
  apply Step.inv (Settled db) asks_program _ _ (Pool.initial_disciplined _ _) _ hreach
  · intro s t hs
    exact ⟨hs.compatible, hs.requested⟩
  · intro s i t q k c _ hs hthread hasked _
    exact settled_exchange hs hthread hasked
  · constructor
    · constructor
      · intro i
        trivial
      · intro i j _
        constructor
        · rintro tx ⟨⟩
        · rintro r r' ⟨⟩
    · intro v hv
      exact .inl ⟨v, hv, rfl, rfl, rfl⟩

/-! ### What a call has done -/

section Traces

variable {t : Call} {l : List Emails.Exchange}

/-- A call that has redeemed its token returns no error. -/
theorem redeemed_cons {r : Redemption} {x : Emails.Exchange} (hl : Phase.of l = .redeemed r)
    (hasked : Asked lib t l x.request) :
  Phase.of (x :: l) = .redeemed r
  := by
  rw [Phase.of_cons, hl]
  obtain ⟨q, a⟩ := x
  cases q with
  | sql q => cases q <;> rfl
  | mintToken => rfl
  | utcNow => rfl
  | respond response =>
      rcases response with r' | (e | a') | r'
      · rfl
      · exact absurd hl (hasked r)
      · rfl
      · rfl

theorem redeemed_append {r : Redemption} {later : List Emails.Exchange}
    (hl : Phase.of l = .redeemed r)
    (hasked : Past.Throughout (fun x l => Asked lib t l x.request) (later ++ l)) :
  Phase.of (later ++ l) = .redeemed r
  := by
  induction later with
  | nil => exact hl
  | cons x later ih => exact redeemed_cons (ih hasked.2) hasked.1

/-- A call that was successful has redeemed its token. -/
theorem redeemed_of_mem {a : Uuid} {answer}
    (hasked : Past.Throughout (fun x l => Asked lib t l x.request) l)
    (hmem : ⟨.respond (.verified (.ok a)), answer⟩ ∈ l) :
  ∃ tx time token e, t = .verify token ∧
    Phase.of l = .redeemed ⟨tx, time, lib.hashToken token, a, e⟩
  := by
  induction l with
  | nil => cases hmem
  | cons x l ih =>
      rcases List.mem_cons.mp hmem with rfl | hmem
      · obtain ⟨tx, time, token, e, ht, hl⟩ := hasked.1
        exact ⟨tx, time, token, e, ht, redeemed_cons hl hasked.1⟩
      · obtain ⟨tx, time, token, e, ht, hl⟩ := ih hasked.2 hmem
        exact ⟨tx, time, token, e, ht, redeemed_cons hl hasked.1⟩

/-- A call that has returned an error does nothing else. -/
theorem refused_of_mem {e : NoombatError} {answer}
    (hmem : ⟨.respond (.verified (.error e)), answer⟩ ∈ l) :
  Phase.of l = .refused
  := by
  induction l with
  | nil => cases hmem
  | cons x l ih =>
      rw [Phase.of_cons]
      rcases List.mem_cons.mp hmem with rfl | hmem
      · cases Phase.of l <;> rfl
      · rw [ih hmem]
        obtain ⟨q, a⟩ := x
        cases q with
        | sql q => cases q <;> rfl
        | mintToken => rfl
        | utcNow => rfl
        | respond response => rcases response with r' | (e | a') | r' <;> rfl

theorem began_of_phase {b : Nat × DateTime} (h : (Phase.of l).began = some b) :
  ⟨.sql .begin, .ok b⟩ ∈ l
  := by
  induction l with
  | nil => cases h
  | cons x l ih =>
      rcases Phase.next_began h with h | rfl
      · exact List.mem_cons_of_mem x (ih h)
      · exact List.mem_cons_self

end Traces

/-! ### What changes -/

/-- A commit changes actors; else only the statements of calls that redeem nothing change
anything. -/
theorem committed_exec (q : EmailRequest) (c : (emailWorld lib).Choice q) (s : Mail lib) :
  ((emailWorld lib).exec q c s).2.committed = s.committed ∨
    ((∃ a e h x, q = .sql (.insert a e h x)) ∨ q = .sql .purgeExpired) ∧
      ((emailWorld lib).exec q c s).2.committed.actors = s.committed.actors ∨
    ∃ tx elapsed, (⟨q, ((emailWorld lib).exec q c s).1⟩ : Emails.Exchange) =
        ⟨.sql (.commit tx), .ok ()⟩ ∧
      (s.later elapsed).commit Write.apply tx = some ((emailWorld lib).exec q c s).2
  := by
  cases q with
  | mintToken => exact .inl rfl
  | utcNow => exact .inl rfl
  | respond r => exact .inl rfl
  | sql q =>
      cases c with
      | error e =>
          left
          change (q.fail s).committed = s.committed
          cases q <;> rfl
      | ok elapsed =>
          change (q.exec (s.later elapsed)).2.committed = s.committed ∨
            _ ∧ (q.exec (s.later elapsed)).2.committed.actors = s.committed.actors ∨ _
          cases q with
          | taken folded actorId => exact .inl rfl
          | recent actorId => exact .inl rfl
          | begin => exact .inl rfl
          | rollback tx => exact .inl rfl
          | insert a e h x =>
              right
              left
              refine ⟨.inl ⟨a, e, h, x, rfl⟩, ?_⟩
              simp only [EmailSql.exec]
              split
              · split <;> rfl
              · rfl
          | purgeExpired =>
              right
              left
              refine ⟨.inr rfl, ?_⟩
              simp only [EmailSql.exec]
              split <;> rfl
          | consume tx tokenHash =>
              left
              simp only [EmailSql.exec]
              split
              · rfl
              split
              · rfl
              split
              · rfl
              · rename_i s' hwrite
                exact (Store.wrote_of_write hwrite).committed
          | setEmail tx actorId email =>
              left
              simp only [EmailSql.exec]
              split
              · rfl
              split
              · rfl
              split
              · rfl
              · rename_i s' hwrite
                exact (Store.wrote_of_write hwrite).committed
          | commit tx =>
              cases hcommit : (s.later elapsed).commit Write.apply tx with
              | none =>
                  left
                  simp only [EmailSql.exec, hcommit]
                  rfl
              | some s' =>
                  right
                  right
                  have hexec : EmailSql.exec (.commit tx) (s.later elapsed) = (.ok (), s') := by
                    simp only [EmailSql.exec, hcommit]
                  refine ⟨tx, elapsed, ?_, ?_⟩
                  · change (⟨.sql (.commit tx), (EmailSql.exec (.commit tx) (s.later elapsed)).1⟩ :
                      Emails.Exchange) = _
                    rw [hexec]
                  · change _ = some (EmailSql.exec (.commit tx) (s.later elapsed)).2
                    rw [hcommit, hexec]

/-! ### The result -/

/-- A call redeems a token, for the account given. -/
def Succeeds (token : String) (actorId : Uuid) (e : Event) : Prop :=
  e.task = .verify token ∧ e.exchange = ⟨.respond (.verified (.ok actorId)), .ok ()⟩

/-- A call to redeem a token returns an error. -/
def Fails (e : Event) : Prop :=
  ∃ error, e.exchange = ⟨.respond (.verified (.error error)), .ok ()⟩

/-- What a call has redeemed when it is successful. -/
theorem redeemed_of_succeeds {db : Db lib} {clock : DateTime} {s : Calls lib}
    (hreach : Runs (.initial (.initial db clock)) s)
    {token : String} {a : Uuid} {e : Event} (he : e ∈ s.history) (hsucceeds : Succeeds token a e) :
  ∃ tx time email, Phase.of (s.history.trace e.thread) =
    .redeemed ⟨tx, time, lib.hashToken token, a, email⟩
  := by
  obtain ⟨htask, hexchange⟩ := hsucceeds
  obtain ⟨p, hthread⟩ := (settled db clock hreach).1.events e he
  have hasked := Reaches.asked asks_program hreach hthread
  obtain ⟨tx, time, token', email, ht, hphase⟩ := redeemed_of_mem hasked
    (Interface.History.mem_trace.mpr ⟨e, he, rfl, hexchange⟩)
  rw [htask] at ht
  cases ht
  exact ⟨tx, time, email, hphase⟩

/-- A token is redeemed by one call. -/
theorem thread_of_succeeds {db : Db lib} {clock : DateTime} {s : Calls lib}
    (hreach : Runs (.initial (.initial db clock)) s)
    {token : String} {a a' : Uuid} {e e' : Event} (he : e ∈ s.history) (he' : e' ∈ s.history)
    (hsucceeds : Succeeds token a e) (hsucceeds' : Succeeds token a' e') :
  e.thread = e'.thread
  := by
  obtain ⟨tx, time, email, hphase⟩ := redeemed_of_succeeds hreach he hsucceeds
  obtain ⟨tx', time', email', hphase'⟩ := redeemed_of_succeeds hreach he' hsucceeds'
  by_contra hne
  have hapart := (settled db clock hreach).2.compatible.apart _ _ hne
  exact hapart.tokenHash _ _ hphase hphase' rfl

/-- A token is redeemed before its expiry. -/
theorem consumed_of_succeeds {db : Db lib} {clock : DateTime} {s : Calls lib}
    (hreach : Runs (.initial (.initial db clock)) s)
    {token : String} {a : Uuid} {e : Event} (he : e ∈ s.history) (hsucceeds : Succeeds token a e) :
  ∃ v ∈ s.state.committed.emailVerifications, v.tokenHash = lib.hashToken token ∧ v.actorId = a ∧
    ∃ tx time, (∃ b ∈ s.history, b.thread = e.thread ∧
        b.exchange = ⟨.sql .begin, .ok (tx, time)⟩) ∧
      v.consumedAt = some time ∧ time < v.expiresAt
  := by
  obtain ⟨tx, time, email, hphase⟩ := redeemed_of_succeeds hreach he hsucceeds
  have hfits := (settled db clock hreach).2.compatible.fits e.thread
  have hphases : s.phases .start Phase.next e.thread = _ := hphase
  rw [hphases] at hfits
  obtain ⟨v, hv, hhash, hactor, _, htime, hconsumed⟩ := hfits
  have hbegun : ⟨.sql .begin, .ok (tx, time)⟩ ∈ s.history.trace e.thread := by
    apply began_of_phase
    rw [hphase]
    rfl
  obtain ⟨b, hb, hthread, hexchange⟩ := Interface.History.mem_trace.mp hbegun
  exact ⟨v, hv, hhash, hactor, tx, time, ⟨b, hb, hthread, hexchange⟩, hconsumed, htime⟩

/-- Two actors with one identifier are one. -/
theorem eq_of_actor {db : Db lib} {r r' : ActorRow} (hr : r ∈ db.actors) (hr' : r' ∈ db.actors)
    (h : r.id = r'.id) :
  r = r'
  := Table.eq_of_not_apart hr hr' fun hapart => hapart.1 h

/-- An actor changes only when a challenge is redeemed that was requested for it, to the address
of that challenge. -/
theorem requested_of_changed {db : Db lib} {clock : DateTime} {s s' : Calls lib}
    (hreach : Runs (.initial (.initial db clock)) s)
    (hstep : Steps s s')
    {r r' : ActorRow} (hr : r ∈ s.state.committed.actors) (hr' : r' ∈ s'.state.committed.actors)
    (hid : r'.id = r.id) (hchanged : r' ≠ r) :
  ∃ v ∈ s.state.committed.emailVerifications, v.actorId = r.id ∧ v.consumedAt = none ∧
    Requested db s.history v ∧ ∃ time,
      r' = { r with email := some v.email, emailVerifiedAt := some time } ∧
      { v with consumedAt := some time } ∈ s'.state.committed.emailVerifications
  := by
  obtain ⟨hdisc, hs⟩ := settled db clock hreach
  cases hstep with
  | start t => exact absurd (eq_of_actor hr' hr hid) hchanged
  | exchange i t q k c hthread _ =>
      rcases committed_exec q c s.state with hsame | ⟨_, hsame⟩ | ⟨tx, elapsed, hx, hcommit⟩
      · rw [Pool.exchange, hsame] at hr'
        exact absurd (eq_of_actor hr' hr hid) hchanged
      · rw [Pool.exchange, hsame] at hr'
        exact absurd (eq_of_actor hr' hr hid) hchanged
      · have hasked := ((asks_call _ _ _ _).mp (hdisc.threads i t _ hthread)).1
        have hfits : (Phase.of (s.history.trace i)).Fits s.state := hs.compatible.fits i
        obtain ⟨rfl, _⟩ := Interface.Exchange.mk.inj hx
        obtain ⟨time, token, a, e, _, hphase⟩ := hasked
        rw [hphase] at hfits
        obtain ⟨_, _, ⟨v, hv, hhash, hactor, hemail, _, hnone⟩, _, hchallenges, hactors, _⟩ :=
          of_commit (later_fits elapsed hfits) hcommit
        rw [← Table.mem_rows, Pool.exchange, hactors] at hr'
        obtain ⟨r₀, hr₀, rfl⟩ := List.mem_map.mp hr'
        have hsame : r₀.id = r.id := by
          rw [← hid, ActorRow.proved]
          split <;> rfl
        obtain rfl : r₀ = r := eq_of_actor hr₀ hr hsame
        rw [ActorRow.proved] at hchanged ⊢
        split at hchanged
        · rename_i hown
          rw [if_pos hown]
          refine ⟨v, hv, hactor.trans hown.symm, hnone, hs.requested v hv, time, ?_, ?_⟩
          · rw [hemail]
          · rw [Pool.exchange, hchallenges]
            exact mem_consume.mpr ⟨v, hv, if_pos hhash⟩
        · exact absurd rfl hchanged

/-- A call that changes something returns no error, ever after. -/
theorem not_fails_of_changed {db : Db lib} {clock : DateTime} {s : Calls lib}
    (hreach : Runs (.initial (.initial db clock)) s)
    {i : Nat} {token : String} {q : EmailRequest} {k : Emails.Answer q → Program Emails Unit}
    {c : (emailWorld lib).Choice q} (hthread : s.threads[i]? = some ⟨.verify token, .call q k⟩)
    (hchanged : (s.exchange (emailWorld lib) i (.verify token) q k c).state.committed ≠
      s.state.committed)
    {s' : Calls lib} (hlater : Runs (s.exchange (emailWorld lib) i (.verify token) q k c) s')
    {e : Event} (he : e ∈ s'.history) (hi : e.thread = i) :
  ¬ Fails e
  := by
  have hdisc := (settled db clock hreach).1
  have hasked := ((asks_call _ _ _ _).mp (hdisc.threads i _ _ hthread)).1
  have hstep : Steps s (s.exchange (emailWorld lib) i (.verify token) q k c) :=
    .exchange s i _ q k c hthread trivial
  -- the call has redeemed its token
  have hredeemed : ∃ r, Phase.of ((s.exchange (emailWorld lib) i (.verify token) q k c).history.trace
      i) = .redeemed r := by
    rcases committed_exec q c s.state with hsame | ⟨hother, _⟩ | ⟨tx, elapsed, hx, _⟩
    · exact absurd hsame hchanged
    · rcases hother with ⟨a, e, h, x, rfl⟩ | rfl
      · obtain ⟨_, ht, _⟩ := hasked
        cases ht
      · cases hasked
    · rw [Pool.trace_exchange_same, hx, Phase.of_cons]
      obtain ⟨rfl, _⟩ := Interface.Exchange.mk.inj hx
      obtain ⟨time, token, a, e, _, hphase⟩ := hasked
      rw [hphase]
      exact ⟨_, rfl⟩
  obtain ⟨r, hphase⟩ := hredeemed
  obtain ⟨later, hhistory⟩ := Reaches.history hlater
  have hreach' := (hreach.tail hstep).trans hlater
  obtain ⟨p, hp⟩ := (settled db clock hreach').1.events e he
  have hasked' := Reaches.asked asks_program hreach' hp
  rw [hi, hhistory, Interface.History.trace_append] at hasked'
  have hstill := redeemed_append hphase hasked'
  rintro ⟨error, hexchange⟩
  have hmem := Interface.History.mem_trace.mpr ⟨e, he, hi, hexchange⟩
  rw [hhistory, Interface.History.trace_append] at hmem
  rw [refused_of_mem hmem] at hstill
  cases hstill

/-- In every run: a token is redeemed by at most one call, whose transaction began before its
expiry; an actor changes only when a challenge that it has requested is redeemed, to the address
of that challenge; a redemption that changes anything returns no error; and no two local actors
have addresses that are the same in lower case. -/
theorem verification_binds (lib : EmailLibrary) (db : Db lib) (clock : DateTime) (s : Calls lib)
    (hreach : Runs (.initial (.initial db clock)) s) :
  (∀ token a a', ∀ e ∈ s.history, ∀ e' ∈ s.history, Succeeds token a e → Succeeds token a' e' →
      e.thread = e'.thread) ∧
    (∀ token a, ∀ e ∈ s.history, Succeeds token a e →
      ∃ v ∈ s.state.committed.emailVerifications, v.tokenHash = lib.hashToken token ∧
        v.actorId = a ∧ ∃ tx time, (∃ b ∈ s.history, b.thread = e.thread ∧
            b.exchange = ⟨.sql .begin, .ok (tx, time)⟩) ∧
          v.consumedAt = some time ∧ time < v.expiresAt) ∧
    (∀ s', Steps s s' →
      ∀ r ∈ s.state.committed.actors, ∀ r' ∈ s'.state.committed.actors, r'.id = r.id → r' ≠ r →
        ∃ v ∈ s.state.committed.emailVerifications, v.actorId = r.id ∧ v.consumedAt = none ∧
          Requested db s.history v ∧ ∃ time,
            r' = { r with email := some v.email, emailVerifiedAt := some time } ∧
            { v with consumedAt := some time } ∈ s'.state.committed.emailVerifications) ∧
    (∀ (i : Nat) (token : String) (q : EmailRequest)
        (k : Emails.Answer q → Program Emails Unit) (c : (emailWorld lib).Choice q),
      s.threads[i]? = some ⟨.verify token, .call q k⟩ →
      (s.exchange (emailWorld lib) i (.verify token) q k c).state.committed ≠
        s.state.committed →
      ∀ s', Runs (s.exchange (emailWorld lib) i (.verify token) q k c) s' →
        ∀ e ∈ s'.history, e.thread = i → ¬ Fails e) ∧
    ∀ r ∈ s.state.committed.actors, ∀ r' ∈ s.state.committed.actors, r.isLocal = true →
      r'.isLocal = true → ∀ a a', r.email = some a → r'.email = some a' →
        lib.lower a = lib.lower a' → r = r'
  := by
  refine ⟨?_, ?_, ?_, ?_, ?_⟩
  · intro token a a' e he e' he' hsucceeds hsucceeds'
    exact thread_of_succeeds hreach he he' hsucceeds hsucceeds'
  · intro token a e he hsucceeds
    exact consumed_of_succeeds hreach he hsucceeds
  · intro s' hstep r hr r' hr' hid hchanged
    exact requested_of_changed hreach hstep hr hr' hid hchanged
  · intro i token q k c hthread hchanged s' hlater e he hi
    exact not_fails_of_changed hreach hthread hchanged hlater he hi
  · intro r hr r' hr' hlocal hlocal' a a' ha ha' hsame
    apply Table.eq_of_not_apart hr hr'
    intro hapart
    apply hapart.2 (lib.lower a)
    · rw [ActorRow.indexed, if_pos hlocal, ha]
      rfl
    · rw [ActorRow.indexed, if_pos hlocal', ha', hsame]
      rfl

/-! ### A redeemed challenge -/

/-- A library that knows one token. -/
def oneToken : EmailLibrary where
  toLowercase := Text.toAsciiLowercase
  lower := Text.toAsciiLowercase
  hashToken := fun token =>
    if token = "5f5f5f5f5f5f5f5f5f5f5f5f5f5f5f5f5f5f5f5f5f5f5f5f5f5f5f5f5f5f5f5f" then
      "ce63c4ebf143f2aade4d14b4e5d941832c7af9ef9a000df459c9b6a07f155486"
    else ""

/-- A local account without an address. -/
def alice : Db oneToken where
  actors := ⟨[⟨1, true, none, none⟩], by decide⟩
  emailVerifications := .empty
  created := []

/-- Every statement is executed at once. -/
def prompt : (q : EmailRequest) → (emailWorld oneToken).Choice q
  | .sql _ => .ok (0 : Nat)
  | .mintToken => "5f5f5f5f5f5f5f5f5f5f5f5f5f5f5f5f5f5f5f5f5f5f5f5f5f5f5f5f5f5f5f5f"
  | .utcNow => (0 : DateTime)
  | .respond _ => ()

/-- An account requests a challenge, and its token is redeemed. -/
def redemption : List (Turn (emailWorld oneToken) Call) :=
  .start (.requestVerification 1 "Alice@Example.com") :: List.replicate 6 (.exchange 0 prompt) ++
    .start (.verify "5f5f5f5f5f5f5f5f5f5f5f5f5f5f5f5f5f5f5f5f5f5f5f5f5f5f5f5f5f5f5f5f") ::
      List.replicate 5 (.exchange 1 prompt)

/-- The address of the account is the one that it asked to verify, in lower case. -/
theorem verification_binds_alice :
  ∃ s : Calls oneToken, Runs (.initial (.initial alice 0)) s ∧
    s.state.committed.actors.rows.map (·.email) = [some "alice@example.com"] ∧
    ∀ token a a', ∀ e ∈ s.history, ∀ e' ∈ s.history, Succeeds token a e → Succeeds token a' e' →
      e.thread = e'.thread
  := by
  have hplayed : (((Pool.initial (.initial alice 0)).play (emailWorld oneToken)
      (Call.program oneToken) (fun _ _ _ _ _ => True) redemption).map fun s =>
        s.state.committed.actors.rows.map (·.email)) = some [some "alice@example.com"] := by
    decide +kernel
  obtain ⟨s, hs, hemails⟩ := Option.map_eq_some_iff.mp hplayed
  have hruns : Runs (.initial (.initial alice 0)) s := Pool.reaches_of_play _ _ _ hs
  exact ⟨s, hruns, hemails, (verification_binds oneToken alice 0 s hruns).1⟩

end Identity.Email
