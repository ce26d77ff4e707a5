import Noombat.Identity.EmailVerification
import Noombat.Windows

/-!
# The rate of challenges

An account starts at most five challenges in an hour if no challenge of an account is stored
while another request of it, which has counted those of the last hour, has not stored its own;
and if a challenge expires no sooner than an hour after it is stored.  The program ensures
neither: the count and the insertion are two statements, nothing is locked between them, and the
expiry is told by the program's clock while the age is told by that of the database.
-/

namespace Identity.Email

open Federation (Uuid DateTime NoombatError)
open Fallible Program

variable {lib : EmailLibrary}

/-! ### Requests that have counted -/

/-- The account whose challenges a call has counted, and found few enough, since it last stored
one. -/
def counting : Option Uuid → Emails.Exchange → Option Uuid
  | _, ⟨.sql (.recent a), .ok n⟩ => if n < maxChallengesPerHour then some a else none
  | _, ⟨.sql (.insert _ _ _ _), _⟩ => none
  | φ, _ => φ

abbrev counted (l : List Emails.Exchange) : Option Uuid :=
  phaseOf none counting l

/-- What the exchanges of a call are, when it stores a challenge. -/
def Counted (_ : Call) (l : List Emails.Exchange) : EmailRequest → Prop
  | .sql (.insert a _ _ _) => counted l = some a
  | _ => True

/-- A request that stores no challenge. -/
def EmailRequest.KeepsChallenges : EmailRequest → Prop
  | .sql (.insert _ _ _ _) => False
  | _ => True

theorem asks_of_every {α : Type} {t : Call} {p : Program Emails α} {l : List Emails.Exchange}
    (hp : Every EmailRequest.KeepsChallenges p) :
  Asks (Counted t) (fun _ _ => True) p l
  := by
  apply Every.asks (fun _ => True) _ hp trivial
  intro q l' hq _
  constructor
  · cases q with
    | sql q =>
        cases q with
        | insert a e h x => cases hq
        | _ => trivial
    | _ => trivial
  · intro r
    trivial

theorem every_redeem (tx : Nat) (token : String) :
  Every EmailRequest.KeepsChallenges (redeem lib tx token).run
  := by
  apply every_run_bind ((every_run_ask _).mpr (by trivial))
  intro redeemed
  cases redeemed with
  | none => apply every_run_throw
  | some challenge =>
      apply every_run_bind ((every_run_ask _).mpr (by trivial))
      intro allowed
      split
      · apply every_run_bind ((every_run_ask _).mpr (by trivial))
        intro _
        apply every_run_pure
      · apply every_run_throw

theorem every_verify (token : String) :
  Every EmailRequest.KeepsChallenges (verify lib token).run
  := by
  apply every_run_bind ((every_run_ask _).mpr (by trivial))
  rintro ⟨tx, time⟩
  apply every_run_bind (every_run_attempt (every_redeem tx token))
  intro redeemed
  cases redeemed with
  | ok actorId => apply every_run_pure
  | error e =>
      apply every_run_bind (every_run_attempt ((every_run_ask _).mpr (by trivial)))
      intro _
      apply every_run_throw

theorem counts_requestVerification (actorId : Uuid) (email : String) :
  Asks (Counted (.requestVerification actorId email)) (fun _ _ => True)
    (requestVerification lib actorId email).run []
  := by
  rw [requestVerification, asks_run_bind, asks_run_ofExcept]
  cases qualify email "email" with
  | error e => trivial
  | ok _ =>
      rw [onExcept_ok, asks_run_bind]
      apply (asks_run_ask (EmailRequest.sql (.taken _ actorId)) _ _).mpr
      constructor
      · trivial
      rintro (e | taken)
      · trivial
      rw [onExcept_ok]
      split
      · trivial
      rw [asks_run_bind]
      apply (asks_run_ask (EmailRequest.sql (.recent actorId)) _ _).mpr
      constructor
      · trivial
      rintro (e | recent)
      · trivial
      rw [onExcept_ok]
      split
      · trivial
      rename_i hfew
      rw [asks_run_bind]
      apply (asks_run_ask EmailRequest.mintToken _ _).mpr
      constructor
      · trivial
      rintro (e | token)
      · trivial
      rw [onExcept_ok, asks_run_bind]
      apply (asks_run_ask EmailRequest.utcNow _ _).mpr
      constructor
      · trivial
      rintro (e | now)
      · trivial
      rw [onExcept_ok, asks_run_bind]
      apply (asks_run_ask (EmailRequest.sql (.insert actorId _ _ _)) _ _).mpr
      constructor
      · change (if recent < maxChallengesPerHour then some actorId else none) = some actorId
        exact if_pos (Nat.lt_of_not_le hfew)
      rintro (e | _)
      · trivial
      · rw [onExcept_ok, asks_run_pure]
        trivial

theorem counts_program (t : Call) :
  Asks (Counted t) (fun _ _ => True) (t.program lib) []
  := by
  have hrespond : ∀ (r : Response) (l : List Emails.Exchange),
      Asks (Counted t) (fun _ _ => True) (respond r) l := by
    intro r l
    exact ⟨trivial, fun _ => trivial⟩
  cases t with
  | requestVerification actorId email =>
      rw [Call.program, asks_bind]
      apply Asks.mono _ (counts_requestVerification actorId email)
      intro r l _
      apply hrespond
  | verify token =>
      rw [Call.program, asks_bind]
      apply Asks.mono _ (asks_of_every (every_verify token))
      intro r l _
      apply hrespond
  | purgeExpired =>
      rw [Call.program, asks_bind]
      apply Asks.mono _ (asks_of_every ((every_run_ask _).mpr (by trivial)))
      intro r l _
      apply hrespond

/-! ### The condition -/

/-- A challenge is stored while no other request of its account has counted but not stored, and
at least an hour before its expiry. -/
def Unrivalled (lib : EmailLibrary) : StepCondition (emailWorld lib) Call
  | i, _, .sql (.insert a _ _ x), .ok elapsed, s =>
      (∀ j, j ≠ i → counted (s.history.trace j) ≠ some a) ∧
        s.state.clock + (elapsed : Nat) + hour ≤ x
  | _, _, _, _, _ => True

/-! ### What a statement does to the ages of challenges -/

/-- The challenges of an account that are recent at a time. -/
def Db.recent (now : DateTime) (a : Uuid) (db : Db lib) : Nat :=
  db.emailVerifications.rows.countP (·.isRecent now a)

/-- What is counted, of what was ever stored. -/
def Db.started (now : DateTime) (a : Uuid) (db : Db lib) : Nat :=
  db.created.countP fun c => c.1 == a && decide (now - hour < c.2)

/-- A challenge expires no sooner than an hour after it was stored. -/
def Verification.Lasts (v : Verification) : Prop :=
  v.createdAt + hour ≤ v.expiresAt

/-- Later, fewer challenges are recent. -/
theorem Db.recent_anti {now later : DateTime} (h : now ≤ later) (a : Uuid) (db : Db lib) :
  db.recent later a ≤ db.recent now a
  := by
  apply List.countP_mono_left
  intro v _ hv
  simp only [Verification.isRecent, Bool.and_eq_true, decide_eq_true_eq] at hv ⊢
  constructor
  · exact hv.1
  · exact Int.lt_of_le_of_lt (Int.sub_le_sub_right h hour) hv.2

/-- A step stores no challenge, and forgets no recent one. -/
structure Keeps (clock : DateTime) (db db' : Db lib) : Prop where
  created : db'.created = db.created
  lasts : ∀ v ∈ db'.emailVerifications, v.Lasts
  recent : ∀ a now, clock ≤ now → db'.recent now a = db.recent now a

theorem keeps_refl {clock : DateTime} {db : Db lib} (h : ∀ v ∈ db.emailVerifications, v.Lasts) :
  Keeps clock db db
  := ⟨rfl, h, fun _ _ _ => rfl⟩

theorem keeps_consume {clock : DateTime} {db : Db lib} (tokenHash : String) (time : DateTime)
    (h : ∀ v ∈ db.emailVerifications, v.Lasts) :
  Keeps clock db (db.consume tokenHash time)
  := by
  constructor
  · rfl
  · intro v hv
    obtain ⟨v', hv', rfl⟩ := mem_consume.mp hv
    have hlasts := h v' hv'
    split
    · exact hlasts
    · exact hlasts
  · intro a now _
    change List.countP _ (List.map _ _) = _
    rw [List.countP_map]
    apply List.countP_congr
    intro v _
    rw [Function.comp_apply]
    split
    · rfl
    · rfl

/-- What a transaction writes stores no challenge, and forgets none. -/
theorem keeps_replay {clock : DateTime} {ws : List Write} {db db' : Db lib}
    (h : ∀ v ∈ db.emailVerifications, v.Lasts) (hreplay : Store.replay Write.apply ws db = some db') :
  Keeps clock db db'
  := by
  induction ws generalizing db' with
  | nil =>
      cases hreplay
      apply keeps_refl h
  | cons w ws ih =>
      obtain ⟨db₁, hbefore, hw⟩ := Option.bind_eq_some_iff.mp hreplay
      have hkeeps := ih hbefore
      cases w with
      | consume tokenHash time =>
          cases hw
          have hlast : Keeps clock db₁ (db₁.consume tokenHash time) :=
            keeps_consume tokenHash time hkeeps.lasts
          constructor
          · rw [hlast.created, hkeeps.created]
          · exact hlast.lasts
          · intro a now hnow
            rw [hlast.recent a now hnow, hkeeps.recent a now hnow]
      | setEmail actorId email time =>
          obtain ⟨_, hchallenges, hcreated⟩ := setEmail_eq_some hw
          constructor
          · rw [hcreated, hkeeps.created]
          · rw [hchallenges]
            exact hkeeps.lasts
          · intro a now hnow
            rw [Db.recent, hchallenges]
            exact hkeeps.recent a now hnow

theorem keeps_purge {clock : DateTime} {db : Db lib} (h : ∀ v ∈ db.emailVerifications, v.Lasts) :
  Keeps clock db
    { db with emailVerifications := db.emailVerifications.delete (·.isExpired clock) }
  := by
  constructor
  · rfl
  · intro v hv
    exact h v (Table.mem_delete.mp hv).1
  · intro a now hnow
    change List.countP _ (List.filter _ _) = _
    rw [List.countP_filter]
    apply List.countP_congr
    intro v hv
    -- what is recent has not expired
    have hlasts := h v hv
    simp only [Verification.Lasts] at hlasts
    simp only [Verification.isRecent, Verification.isExpired, Bool.and_eq_true, beq_iff_eq,
      decide_eq_true_eq, Bool.not_eq_true', Bool.and_eq_false_imp, decide_eq_false_iff_not,
      Int.not_le]
    constructor
    · intro hv
      exact hv.1
    · intro hv
      refine ⟨hv, fun _ => ?_⟩
      have hnot : now < v.createdAt + hour := Int.lt_add_of_sub_right_lt hv.2
      exact Int.lt_of_lt_of_le (Int.lt_of_le_of_lt hnow hnot) hlasts

/-- A challenge of an account is stored, which expires at the time given. -/
structure Stores (a : Uuid) (x clock : DateTime) (db db' : Db lib) (v : Verification) : Prop where
  actorId : v.actorId = a
  createdAt : v.createdAt = clock
  expiresAt : v.expiresAt = x
  rows : db'.emailVerifications.rows = v :: db.emailVerifications.rows
  created : db'.created = (a, clock) :: db.created

/-- A statement stores no challenge, or is an insertion that stores one. -/
theorem exec_keeps (q : EmailSql) (s : Mail lib)
    (h : ∀ v ∈ s.committed.emailVerifications, v.Lasts) :
  (q.exec s).2.clock = s.clock ∧
    (Keeps s.clock s.committed (q.exec s).2.committed ∨
      ∃ a e hash x v, q = .insert a e hash x ∧
        Stores a x s.clock s.committed (q.exec s).2.committed v)
  := by
  have hsame : s.clock = s.clock ∧ (Keeps s.clock s.committed s.committed ∨
      ∃ a e hash x v, q = .insert a e hash x ∧ Stores a x s.clock s.committed s.committed v) :=
    ⟨rfl, .inl (keeps_refl h)⟩
  cases q with
  | taken folded actorId => exact hsame
  | recent actorId => exact hsame
  | begin => exact hsame
  | rollback tx => exact hsame
  | insert actorId email tokenHash expiresAt =>
      simp only [EmailSql.exec]
      split
      · split
        · exact hsame
        · rename_i inserted hinsert
          refine ⟨rfl, .inr ⟨actorId, email, tokenHash, expiresAt,
            ⟨actorId, email, tokenHash, expiresAt, none, s.clock⟩, rfl, rfl, rfl, rfl, ?_, rfl⟩⟩
          rw [Table.insert] at hinsert
          split at hinsert
          · cases hinsert
            rfl
          · cases hinsert
      · exact hsame
  | consume tx tokenHash =>
      simp only [EmailSql.exec]
      split
      · exact hsame
      split
      · exact hsame
      split
      · exact hsame
      · rename_i s' hwrite
        have hwrote := Store.wrote_of_write hwrite
        rw [hwrote.clock, hwrote.committed]
        exact ⟨rfl, .inl (keeps_refl h)⟩
  | setEmail tx actorId email =>
      simp only [EmailSql.exec]
      split
      · exact hsame
      split
      · exact hsame
      split
      · exact hsame
      · rename_i s' hwrite
        have hwrote := Store.wrote_of_write hwrite
        rw [hwrote.clock, hwrote.committed]
        exact ⟨rfl, .inl (keeps_refl h)⟩
  | commit tx =>
      simp only [EmailSql.exec]
      split
      · exact hsame
      · rename_i s' hcommit
        obtain ⟨x, _, _, db, hview, rfl⟩ := Store.of_commit hcommit
        exact ⟨rfl, .inl (keeps_replay h hview)⟩
  | purgeExpired =>
      simp only [EmailSql.exec]
      split
      · exact hsame
      · exact ⟨rfl, .inl (keeps_purge h)⟩

/-! ### The invariant -/

/-- The times at which an account started challenges, the latest first. -/
def Db.times (a : Uuid) (db : Db lib) : List DateTime :=
  (db.created.filter (·.1 == a)).map (·.2)

/-- The challenges that were started are recorded as long as they are recent, no account has
started too many, and a request that has counted has found few enough. -/
structure Limited (s : Calls lib) : Prop where
  lasts : ∀ v ∈ s.state.committed.emailVerifications, v.Lasts
  recorded : ∀ a now, s.state.clock ≤ now →
    s.state.committed.started now a ≤ s.state.committed.recent now a
  spaced : ∀ a, Spaced maxChallengesPerHour (· - hour) (s.state.committed.times a)
  counted : ∀ i a, counted (s.history.trace i) = some a →
    s.state.committed.recent s.state.clock a < maxChallengesPerHour

theorem countP_times (a : Uuid) (now : DateTime) (db : Db lib) :
  (db.times a).countP (fun t => decide (now - hour < t)) = db.started now a
  := by
  rw [Db.times, List.countP_map, List.countP_filter]
  apply List.countP_congr
  intro c _
  simp only [Function.comp_apply, Bool.and_eq_true]
  exact and_comm

section Steps

variable {s : Calls lib} {i : Nat} {t : Call} {q : EmailRequest}
  {k : Emails.Answer q → Program Emails Unit} {c : (emailWorld lib).Choice q}

/-- A step that stores no challenge. -/
theorem limited_of_keeps (hs : Limited s)
    (hclock : s.state.clock ≤ ((emailWorld lib).exec q c s.state).2.clock)
    (hkeeps : Keeps ((emailWorld lib).exec q c s.state).2.clock s.state.committed
      ((emailWorld lib).exec q c s.state).2.committed)
    (hcounted : ∀ a, counting (counted (s.history.trace i))
        ⟨q, ((emailWorld lib).exec q c s.state).1⟩ = some a →
      counted (s.history.trace i) = some a ∨
        s.state.committed.recent ((emailWorld lib).exec q c s.state).2.clock a <
          maxChallengesPerHour) :
  Limited (s.exchange (emailWorld lib) i t q k c)
  := by
  have hcreated : ((emailWorld lib).exec q c s.state).2.committed.created =
      s.state.committed.created := hkeeps.created
  have hfewer : ∀ a, s.state.committed.recent s.state.clock a < maxChallengesPerHour →
      ((emailWorld lib).exec q c s.state).2.committed.recent
        ((emailWorld lib).exec q c s.state).2.clock a < maxChallengesPerHour := by
    intro a hfew
    rw [hkeeps.recent a _ (Int.le_refl _)]
    exact Nat.lt_of_le_of_lt (Db.recent_anti hclock a _) hfew
  constructor
  · exact hkeeps.lasts
  · intro a now hnow
    change Db.started now a ((emailWorld lib).exec q c s.state).2.committed ≤
      Db.recent now a ((emailWorld lib).exec q c s.state).2.committed
    rw [hkeeps.recent a now hnow, Db.started, hcreated]
    exact hs.recorded a now (Int.le_trans hclock hnow)
  · intro a
    change Spaced _ _ (Db.times a ((emailWorld lib).exec q c s.state).2.committed)
    rw [Db.times, hcreated]
    exact hs.spaced a
  · intro j a hj
    by_cases hij : i = j
    · subst hij
      rw [Pool.trace_exchange_same] at hj
      rcases hcounted a hj with hbefore | hnow
      · exact hfewer a (hs.counted i a hbefore)
      · change Db.recent ((emailWorld lib).exec q c s.state).2.clock a
          ((emailWorld lib).exec q c s.state).2.committed < _
        rw [hkeeps.recent a _ (Int.le_refl _)]
        exact hnow
    · rw [Pool.trace_exchange_other hij] at hj
      exact hfewer a (hs.counted j a hj)

/-- A challenge is stored by a request that has counted, and is the only one that has. -/
theorem limited_of_stores {a : Uuid} {x : DateTime} {v : Verification} (hs : Limited s)
    (hclock : s.state.clock ≤ ((emailWorld lib).exec q c s.state).2.clock)
    (hstores : Stores a x ((emailWorld lib).exec q c s.state).2.clock s.state.committed
      ((emailWorld lib).exec q c s.state).2.committed v)
    (hcounted : counted (s.history.trace i) = some a)
    (hstored : counting (counted (s.history.trace i))
      ⟨q, ((emailWorld lib).exec q c s.state).1⟩ = none)
    (hothers : ∀ j, j ≠ i → counted (s.history.trace j) ≠ some a)
    (hlasts : ((emailWorld lib).exec q c s.state).2.clock + hour ≤ x) :
  Limited (s.exchange (emailWorld lib) i t q k c)
  := by
  have hrecent : ∀ now a', Db.recent now a' ((emailWorld lib).exec q c s.state).2.committed =
      s.state.committed.recent now a' + if v.isRecent now a' then 1 else 0 := by
    intro now a'
    rw [Db.recent, hstores.rows, List.countP_cons]
    rfl
  have hother : ∀ now a', a' ≠ a → v.isRecent now a' = false := by
    intro now a' hne
    rw [Verification.isRecent, hstores.actorId, beq_false_of_ne (Ne.symm hne), Bool.false_and]
  constructor
  · intro v' hv'
    rw [← Table.mem_rows, Pool.exchange, hstores.rows] at hv'
    rcases List.mem_cons.mp hv' with rfl | hv'
    · rw [Verification.Lasts, hstores.createdAt, hstores.expiresAt]
      exact hlasts
    · exact hs.lasts v' hv'
  · intro a' now hnow
    change Db.started now a' ((emailWorld lib).exec q c s.state).2.committed ≤
      Db.recent now a' ((emailWorld lib).exec q c s.state).2.committed
    rw [hrecent, Db.started, hstores.created, List.countP_cons]
    apply Nat.add_le_add (hs.recorded a' now (Int.le_trans hclock hnow))
    rw [Verification.isRecent, hstores.actorId, hstores.createdAt]
  · intro a'
    change Spaced _ _ (Db.times a' ((emailWorld lib).exec q c s.state).2.committed)
    rw [Db.times, hstores.created]
    by_cases hsame : a = a'
    · subst hsame
      rw [List.filter_cons_of_pos (by simp), List.map_cons, Spaced.cons_iff]
      constructor
      · -- those less than an hour old are recorded, and few
        calc (s.state.committed.times a).countP _
          _ = s.state.committed.started ((emailWorld lib).exec q c s.state).2.clock a :=
            countP_times a _ _
          _ ≤ s.state.committed.recent ((emailWorld lib).exec q c s.state).2.clock a :=
            hs.recorded a _ hclock
          _ ≤ s.state.committed.recent s.state.clock a := Db.recent_anti hclock a _
          _ < maxChallengesPerHour := hs.counted i a hcounted
      · exact hs.spaced a
    · rw [List.filter_cons_of_neg (by simpa using hsame)]
      exact hs.spaced a'
  · intro j a' hj
    by_cases hij : i = j
    · subst hij
      rw [Pool.trace_exchange_same] at hj
      cases hstored.symm.trans hj
    · rw [Pool.trace_exchange_other hij] at hj
      have hne : a' ≠ a := by
        rintro rfl
        exact hothers j (Ne.symm hij) hj
      change Db.recent ((emailWorld lib).exec q c s.state).2.clock a'
        ((emailWorld lib).exec q c s.state).2.committed < _
      rw [hrecent, hother _ a' hne]
      exact Nat.lt_of_le_of_lt (Db.recent_anti hclock a' _) (hs.counted j a' hj)

theorem limited_exchange (hs : Limited s) (hasked : Counted t (s.history.trace i) q)
    (hunrivalled : Unrivalled lib i t q c s) :
  Limited (s.exchange (emailWorld lib) i t q k c)
  := by
  have hidle : (∀ φ, counting φ ⟨q, ((emailWorld lib).exec q c s.state).1⟩ = φ) →
      s.state.clock ≤ ((emailWorld lib).exec q c s.state).2.clock →
      Keeps ((emailWorld lib).exec q c s.state).2.clock s.state.committed
        ((emailWorld lib).exec q c s.state).2.committed →
      Limited (s.exchange (emailWorld lib) i t q k c) := by
    intro hcounting hclock hkeeps
    apply limited_of_keeps hs hclock hkeeps
    intro a ha
    rw [hcounting] at ha
    exact .inl ha
  cases q with
  | mintToken => exact hidle (fun _ => rfl) (Int.le_refl _) (keeps_refl hs.lasts)
  | utcNow => exact hidle (fun _ => rfl) (Int.le_refl _) (keeps_refl hs.lasts)
  | respond r => exact hidle (fun _ => rfl) (Int.le_refl _) (keeps_refl hs.lasts)
  | sql q =>
      cases c with
      | error e =>
          have hsame : (q.fail s.state).clock = s.state.clock ∧
              (q.fail s.state).committed = s.state.committed := by
            cases q <;> exact ⟨rfl, rfl⟩
          apply limited_of_keeps hs
          · exact Int.le_of_eq hsame.1.symm
          · change Keeps _ _ (q.fail s.state).committed
            rw [hsame.2]
            apply keeps_refl hs.lasts
          · intro a ha
            left
            cases q with
            | insert a' e' h x => cases ha
            | _ => exact ha
      | ok elapsed =>
          obtain ⟨hclock, hkept⟩ := exec_keeps q (s.state.later elapsed) hs.lasts
          have hlater : s.state.clock ≤ (s.state.later elapsed).clock :=
            Int.le_add_of_nonneg_right (Int.natCast_nonneg elapsed)
          rw [← hclock] at hlater
          rcases hkept with hkeeps | ⟨a, e, hash, x, v, rfl, hstores⟩
          · rw [← hclock] at hkeeps
            apply limited_of_keeps (q := .sql q) (c := (.ok elapsed : Except NoombatError Nat)) hs
              hlater hkeeps
            intro a ha
            cases q with
            | recent a' =>
                right
                change (if s.state.committed.recent (s.state.later elapsed).clock a' <
                  maxChallengesPerHour then some a' else none) = some a at ha
                split at ha
                · rename_i hfew
                  cases ha
                  exact hfew
                · cases ha
            | insert a' e' h x => cases ha
            | _ => exact .inl ha
          · rw [← hclock] at hstores
            apply limited_of_stores (q := .sql (.insert a e hash x))
              (c := (.ok elapsed : Except NoombatError Nat)) hs hlater hstores hasked rfl
              hunrivalled.1
            exact hclock ▸ hunrivalled.2

end Steps

/-- In every run that meets the condition, no account starts more than five challenges in any
window of an hour. -/
theorem challenges_limited (lib : EmailLibrary) (db : Db lib) (clock : DateTime)
    (hcreated : db.created = [])
    (hlasts : ∀ v ∈ db.emailVerifications, v.createdAt + hour ≤ v.expiresAt) (s : Calls lib)
    (hreach : Reaches (emailWorld lib) (Call.program lib) (Unrivalled lib)
      (.initial (.initial db clock)) s)
    (a : Uuid) (start : DateTime) :
  (s.state.committed.created.countP fun c => c.1 == a && between start (start + hour) c.2) ≤
    maxChallengesPerHour
  := by
  have hinitial : Limited (.initial (.initial db clock) : Calls lib) := by
    constructor
    · exact hlasts
    · intro a now _
      change Db.started now a db ≤ _
      rw [Db.started, hcreated]
      exact Nat.zero_le _
    · intro a
      change Spaced _ _ (Db.times a db)
      rw [Db.times, hcreated]
      exact Spaced.nil
    · rintro i a ⟨⟩
  have hs : Limited s := (Step.inv Limited counts_program
    (fun s t hs => ⟨hs.lasts, hs.recorded, hs.spaced, hs.counted⟩)
    (fun s i t q k c _ hs _ hasked hC => limited_exchange hs hasked hC)
    (Pool.initial_disciplined Counted _) hinitial hreach).2
  have hmonotone : ∀ t t' : Int, t ≤ t' → t - hour ≤ t' - hour := by
    intro _ _ h
    apply Int.sub_le_sub_right h
  have hwindow := (hs.spaced a).countP_le (window_between hmonotone (start + hour))
  rw [Int.add_sub_cancel] at hwindow
  rw [Db.times, List.countP_map, List.countP_filter] at hwindow
  apply Nat.le_trans (Nat.le_of_eq _) hwindow
  apply List.countP_congr
  intro c _
  simp only [Function.comp_apply, Bool.and_eq_true, and_comm]

/-! ### Six requests -/

/-- A library that knows six tokens. -/
def sixTokens : EmailLibrary where
  toLowercase := Text.toAsciiLowercase
  lower := Text.toAsciiLowercase
  hashToken := fun token => ([
    ("1111111111111111111111111111111111111111111111111111111111111111",
      "3138bb9bc78df27c473ecfd1410f7bd45ebac1f59cf3ff9cfe4db77aab7aedd3"),
    ("2222222222222222222222222222222222222222222222222222222222222222",
      "4f2e8d65483c641648cdb374ae9d8abd368d269e4ddffe092a8237b8162cddd6"),
    ("3333333333333333333333333333333333333333333333333333333333333333",
      "79bd7d7fd684b399857c582b1b7172ddf277d4fe1b027ec52b28da3ae381e675"),
    ("4444444444444444444444444444444444444444444444444444444444444444",
      "f435f2420b50c70ec80865cf8e20b169874165fb8576b48633caf2a8176d2e4a"),
    ("5555555555555555555555555555555555555555555555555555555555555555",
      "911878b1ff94a6daecaba1d7ef6fda0b97116a16291389427b402a013a2ae79f"),
    ("6666666666666666666666666666666666666666666666666666666666666666",
      "e72bbd4d429ac914a8a6c5bd49632ff6b00d4fef42afb443f0b8047df06c85d2")].lookup token).getD ""

/-- A local account without an address or a challenge. -/
def bob : Db sixTokens where
  actors := ⟨[⟨1, true, none, none⟩], by decide⟩
  emailVerifications := .empty
  created := []

/-- Every statement is executed at once, and the token is made of the digit given. -/
def promptly (digit : Char) : (q : EmailRequest) → (emailWorld sixTokens).Choice q
  | .sql _ => .ok (0 : Nat)
  | .mintToken => String.ofList (List.replicate 64 digit)
  | .utcNow => (0 : DateTime)
  | .respond _ => ()

/-- Six requests of one account, all of which count before one has stored a challenge. -/
def flood : List (Turn (emailWorld sixTokens) Call) :=
  let digits := (['1', '2', '3', '4', '5', '6'] : List Char).zipIdx
  List.replicate 6 (.start (.requestVerification 1 "bob@example.com")) ++
    digits.flatMap (fun (d, i) => List.replicate 2 (.exchange i (promptly d))) ++
    digits.flatMap (fun (d, i) => List.replicate 3 (.exchange i (promptly d)))

/-- An account starts six challenges at once. -/
theorem challenges_flooded :
  ∃ s : Calls sixTokens, Runs (.initial (.initial bob 0)) s ∧
    ∃ start, maxChallengesPerHour <
      s.state.committed.created.countP fun c => c.1 == 1 && between start (start + hour) c.2
  := by
  have hplayed : (((Pool.initial (.initial bob 0)).play (emailWorld sixTokens)
      (Call.program sixTokens) (fun _ _ _ _ _ => True) flood).map fun s =>
        s.state.committed.created.countP fun c => c.1 == 1 && between (-1) (-1 + hour) c.2) = some 6 := by
    decide +kernel
  obtain ⟨s, hs, hcount⟩ := Option.map_eq_some_iff.mp hplayed
  exact ⟨s, Pool.reaches_of_play _ _ _ hs, -1, by rw [hcount]; decide⟩

/-- A step of the only call there is, whose challenge lasts long enough. -/
def Alone : StepCondition (emailWorld sixTokens) Call
  | i, _, .sql (.insert _ _ _ x), c, s =>
      (s.history.all (·.thread == i)) = true ∧
        s.state.clock + (Except.toOption c).getD 0 + hour ≤ x
  | _, _, _, _, _ => True

instance Alone.decidable : ∀ (i : Nat) (t : Call) (q : EmailRequest)
    (c : (emailWorld sixTokens).Choice q) (s : Calls sixTokens), Decidable (Alone i t q c s)
  | i, _, .sql (.insert _ _ _ x), c, s =>
      inferInstanceAs (Decidable ((s.history.all (·.thread == i)) = true ∧
        s.state.clock + (Except.toOption c).getD 0 + hour ≤ x))
  | _, _, .sql (.taken _ _), _, _ => isTrue trivial
  | _, _, .sql (.recent _), _, _ => isTrue trivial
  | _, _, .sql .begin, _, _ => isTrue trivial
  | _, _, .sql (.consume _ _), _, _ => isTrue trivial
  | _, _, .sql (.setEmail _ _ _), _, _ => isTrue trivial
  | _, _, .sql (.commit _), _, _ => isTrue trivial
  | _, _, .sql (.rollback _), _, _ => isTrue trivial
  | _, _, .sql .purgeExpired, _, _ => isTrue trivial
  | _, _, .mintToken, _, _ => isTrue trivial
  | _, _, .utcNow, _, _ => isTrue trivial
  | _, _, .respond _, _, _ => isTrue trivial

theorem unrivalled_of_alone {i : Nat} {t : Call} {q : EmailRequest}
    {c : (emailWorld sixTokens).Choice q} {s : Calls sixTokens} (h : Alone i t q c s) :
  Unrivalled sixTokens i t q c s
  := by
  unfold Unrivalled
  split
  · obtain ⟨hall, hlasts⟩ := h
    refine ⟨?_, hlasts⟩
    intro j hj
    have htrace : s.history.trace j = [] := by
      apply List.eq_nil_iff_forall_not_mem.mpr
      intro x hx
      obtain ⟨e, he, hthread, _⟩ := Interface.History.mem_trace.mp hx
      exact hj (hthread.symm.trans (beq_iff_eq.mp (List.all_eq_true.mp hall e he)))
    rw [htrace]
    exact nofun
  · trivial

/-- An account starts one challenge. -/
theorem challenges_limited_bob :
  ∃ s : Calls sixTokens, Reaches (emailWorld sixTokens) (Call.program sixTokens)
      (Unrivalled sixTokens) (.initial (.initial bob 0)) s ∧
    s.state.committed.created = [(1, 0)] ∧
    ∀ a start, (s.state.committed.created.countP fun c => c.1 == a && between start (start + hour) c.2) ≤
      maxChallengesPerHour
  := by
  have hplayed : (((Pool.initial (.initial bob 0)).play (emailWorld sixTokens)
      (Call.program sixTokens) Alone
      (.start (.requestVerification 1 "bob@example.com") ::
        List.replicate 6 (.exchange 0 (promptly '1')))).map fun s =>
          s.state.committed.created) = some [(1, 0)] := by
    decide +kernel
  obtain ⟨s, hs, hcreated⟩ := Option.map_eq_some_iff.mp hplayed
  have hreach : Reaches (emailWorld sixTokens) (Call.program sixTokens) (Unrivalled sixTokens)
      (.initial (.initial bob 0)) s :=
    Reaches.mono (fun _ _ _ _ _ => unrivalled_of_alone) (Pool.reaches_of_play _ _ _ hs)
  exact ⟨s, hreach, hcreated, challenges_limited sixTokens bob 0 rfl (fun _ h => nomatch h) s hreach⟩

end Identity.Email
