import Noombat.Identity.Session

/-!
# Refresh tokens are single use

An exchange reads the session, then revokes it, then inserts another.  If nothing else
revokes the session meanwhile, each token is exchanged at most once, and not after it was
revoked.  A revoked session is never live again, whatever the order of the statements.
-/

namespace Identity

open Federation (Uuid DateTime NoombatError)
open Fallible Program

abbrev Event : Type :=
  Interface.Event Sessions Call

abbrev Sessioning : Type :=
  Pool Sessions Call Db

/-! ### Events -/

/-- The exchange is the reading of a live session with a token. -/
def finds (refreshToken : String) (id : Uuid) : Sessions.Exchange → Bool
  | ⟨.sql (.selectLive t), .ok (some live)⟩ => t == refreshToken && live.sessionId == id
  | _ => false

/-- The exchange is the revocation of a session in the course of a refresh. -/
def rotates (id : Uuid) : Sessions.Exchange → Bool
  | ⟨.sql (.revoke i), .ok _⟩ => i == id
  | _ => false

/-- The exchange is the revocation of the session with a token. -/
def revokes (refreshToken : String) : Sessions.Exchange → Bool
  | ⟨.sql (.revokeByToken t), .ok _⟩ => t == refreshToken
  | _ => false

/-- The exchange is the insertion of a session with a token. -/
def issues (refreshToken : String) : Sessions.Exchange → Bool
  | ⟨.sql (.insert row), .ok _⟩ => row.refreshToken == refreshToken
  | _ => false

def responds : Sessions.Exchange → Bool
  | ⟨.respond _, _⟩ => true
  | _ => false

/-- A call that presented a token returns a new pair. -/
def exchanges (refreshToken : String) (e : Event) : Bool :=
  match e.task, e.exchange with
  | .refresh t, ⟨.respond (.tokens (.ok _)), _⟩ => t == refreshToken
  | _, _ => false

/-- A token was stored at the start, or has been issued since. -/
def Issued (db : Db) (refreshToken : String) (h : Sessions.History Call) : Prop :=
  (∃ r ∈ db.sessions, r.refreshToken = refreshToken) ∨ ∃ e ∈ h, issues refreshToken e.exchange

/-- An issued token has been revoked. -/
def Revoked (db : Db) (refreshToken : String) : Sessions.History Call → Prop
  | [] => False
  | e :: h => (revokes refreshToken e.exchange ∧ Issued db refreshToken h) ∨
      Revoked db refreshToken h

/-- A thread has returned its response. -/
def Responded (h : Sessions.History Call) (i : Nat) : Prop :=
  ∃ e ∈ h, e.thread = i ∧ responds e.exchange

instance (h : Sessions.History Call) (i : Nat) : Decidable (Responded h i) :=
  inferInstanceAs (Decidable (∃ e ∈ h, _))

/-- No statement revokes a session while a refresh of it is under way: a refresh finds the
session that it revokes live still, and a revocation by token finds no refresh between its
revocation of the session and its response. -/
def Uncrossed : StepCondition sessionWorld Call
  | _, _, .sql (.revoke id), c, s =>
      c.error = none → ∀ r ∈ s.state.sessions.rows, r.id = id → r.revokedAt = none
  | _, _, .sql (.revokeByToken t), c, s =>
      c.error = none → ∀ r ∈ s.state.sessions.rows, r.refreshToken = t →
        ∀ e ∈ s.history, rotates r.id e.exchange → Responded s.history e.thread
  | _, _, _, _, _ => True

instance Uncrossed.decidable : ∀ (i : Nat) (t : Call) (q : SessionRequest)
    (c : sessionWorld.Choice q) (s : Sessioning), Decidable (Uncrossed i t q c s)
  | _, _, .sql (.revoke id), c, s =>
      inferInstanceAs (Decidable (SqlChoice.error c = none →
        ∀ r ∈ s.state.sessions.rows, r.id = id → r.revokedAt = none))
  | _, _, .sql (.revokeByToken t), c, s =>
      inferInstanceAs (Decidable (SqlChoice.error c = none →
        ∀ r ∈ s.state.sessions.rows, r.refreshToken = t →
          ∀ e ∈ s.history, rotates r.id e.exchange → Responded s.history e.thread))
  | _, _, .sql (.selectLive _), _, _ => isTrue trivial
  | _, _, .sql (.insert _), _, _ => isTrue trivial
  | _, _, .sql (.recordSignIn _), _, _ => isTrue trivial
  | _, _, .utcNow, _, _ => isTrue trivial
  | _, _, .generateRefreshToken, _, _ => isTrue trivial
  | _, _, .respond _, _, _ => isTrue trivial

/-! ### What the calls ask -/

/-- What the exchanges of a call are, when it makes a request: a session is revoked only
when it was found with the token presented; there is one response, and it grants a pair
only when the session was revoked. -/
def Asked (t : Call) (l : List Sessions.Exchange) : SessionRequest → Prop
  | .sql (.revoke id) => ∃ tok, t = .refresh tok ∧ ∃ x ∈ l, finds tok id x
  | .respond r => (∀ x ∈ l, responds x = false) ∧
      ∀ tok tokens, t = .refresh tok → r = .tokens (.ok tokens) →
        ∃ id, (∃ x ∈ l, finds tok id x) ∧ ∃ x ∈ l, rotates id x
  | _ => True

/-- A request that neither revokes a session of a refresh nor responds. -/
def SessionRequest.quiet : SessionRequest → Bool
  | .sql (.revoke _) => false
  | .respond _ => false
  | _ => true

theorem every_createSession (jwt : Jwt) (config : SessionConfig) (actorId : Uuid)
    (username : String) (role : InstanceRole) (context : SessionContext) :
  Every (fun q : SessionRequest => q.quiet = true)
    (createSession jwt config actorId username role context).run
  := by
  apply every_run_bind ((every_run_ask _).mpr (by rfl))
  intro now
  apply every_run_bind
  · rw [encode]
    split
    · apply every_run_pure
    · apply every_run_throw
  intro accessToken
  apply every_run_bind ((every_run_ask _).mpr (by rfl))
  intro refreshToken
  apply every_run_bind ((every_run_ask _).mpr (by rfl))
  intro _
  apply every_run_bind
  · rw [recordSignIn]
    split
    · apply (every_run_ask _).mpr
      rfl
    · apply every_run_pure
  intro _
  apply every_run_pure

/-- Only other requests than responses follow the exchanges `l`. -/
def Continues (l l' : List Sessions.Exchange) : Prop :=
  l ⊆ l' ∧ ∀ x ∈ l', responds x = false

theorem Continues.quiet {t : Call} {l l' : List Sessions.Exchange} (q : SessionRequest)
    (hq : q.quiet = true) (h : Continues l l') :
  Asked t l' q ∧ ∀ r : Sessions.Answer q, Continues l (⟨q, r⟩ :: l')
  := by
  obtain ⟨hsub, hnone⟩ := h
  have hresponds : ∀ r : Sessions.Answer q, responds ⟨q, r⟩ = false := by
    intro r
    cases q with
    | respond r => cases hq
    | _ => rfl
  constructor
  · cases q with
    | sql s =>
        cases s with
        | revoke id => cases hq
        | _ => trivial
    | respond r => cases hq
    | _ => trivial
  · intro r
    constructor
    · intro x hx
      apply List.mem_cons_of_mem _ (hsub hx)
    · intro x hx
      rcases List.mem_cons.mp hx with rfl | hx
      · apply hresponds
      · apply hnone x hx

theorem asks_createSession (jwt : Jwt) (config : SessionConfig) (actorId : Uuid)
    (username : String) (role : InstanceRole) (context : SessionContext) (t : Call)
    {l : List Sessions.Exchange} (hl : ∀ x ∈ l, responds x = false) :
  Asks (Asked t) (fun _ l' => Continues l l')
    (createSession jwt config actorId username role context).run l
  := by
  apply Every.asks _ _ (every_createSession jwt config actorId username role context)
  · exact ⟨List.Subset.refl l, hl⟩
  · intro q l' hq hcontinues
    apply hcontinues.quiet q hq

theorem asks_respond {t : Call} {l : List Sessions.Exchange} {r : Response}
    (hl : ∀ x ∈ l, responds x = false)
    (h : ∀ tok tokens, t = .refresh tok → r = .tokens (.ok tokens) →
      ∃ id, (∃ x ∈ l, finds tok id x) ∧ ∃ x ∈ l, rotates id x) :
  Asks (Asked t) (fun _ _ => True) (respond r) l
  := ⟨⟨hl, h⟩, fun _ => trivial⟩

theorem asks_refused {t : Call} {l : List Sessions.Exchange} {e : NoombatError}
    (hl : ∀ x ∈ l, responds x = false) :
  Asks (Asked t) (fun _ _ => True) (respond (.tokens (.error e))) l
  := by
  apply asks_respond hl
  intro tok tokens _ hresponse
  cases hresponse

theorem asks_program (jwt : Jwt) (config : SessionConfig) (t : Call) :
  Asks (Asked t) (fun _ _ => True) (t.program jwt config) []
  := by
  have hempty : ∀ x ∈ ([] : List Sessions.Exchange), responds x = false := by
    simp
  cases t with
  | create actorId username role context =>
      rw [Call.program, asks_bind]
      apply Asks.mono _ (asks_createSession jwt config actorId username role context _ hempty)
      intro r l hl
      apply asks_respond hl.2
      intro tok tokens htask
      cases htask
  | refresh tok =>
      rw [Call.program, asks_bind, refreshSession, asks_run_bind]
      apply (asks_run_ask (SessionRequest.sql (.selectLive tok)) _ []).mpr
      constructor
      · trivial
      rintro (e | _ | live)
      · apply asks_refused
        simp [responds]
      · apply asks_refused
        simp [responds]
      have hfound : finds tok live.sessionId
          ⟨.sql (.selectLive tok), .ok (some live)⟩ = true := by
        simp [finds]
      apply (asks_run_bind _ _ _ _).mpr
      apply (asks_run_ask (SessionRequest.sql (.revoke live.sessionId)) _ _).mpr
      constructor
      · exact ⟨tok, rfl, _, List.mem_singleton_self _, hfound⟩
      rintro (e | revoked)
      · apply asks_refused
        simp [responds]
      apply Asks.mono _ (asks_createSession jwt config live.actorId live.username live.role
        .refresh _ (by simp [responds]))
      intro r l hl
      apply asks_respond hl.2
      intro tok' tokens htask _
      cases htask
      have hrotated : rotates live.sessionId
          ⟨.sql (.revoke live.sessionId), .ok revoked⟩ = true := by
        simp [rotates]
      exact ⟨live.sessionId, ⟨_, hl.1 (by simp), hfound⟩, _, hl.1 List.mem_cons_self, hrotated⟩
  | revoke tok =>
      rw [Call.program, asks_bind, revokeSession]
      apply (asks_run_ask (SessionRequest.sql (.revokeByToken tok)) _ []).mpr
      constructor
      · trivial
      intro r
      apply asks_respond
      · simp [responds]
      · intro tok' tokens htask
        cases htask

/-! ### What a statement does to sessions -/

/-- A database after another: its sessions are still there, and those that were revoked
still are. -/
def Db.Le (db db' : Db) : Prop :=
  ∀ r ∈ db.sessions, ∃ r' ∈ db'.sessions, r'.id = r.id ∧ r'.refreshToken = r.refreshToken ∧
    (r.revokedAt ≠ none → r'.revokedAt ≠ none)

theorem Db.Le.refl (db : Db) :
  db.Le db
  := fun r hr => ⟨r, hr, rfl, rfl, id⟩

theorem Db.Le.trans {db db' db'' : Db} (h : db.Le db') (h' : db'.Le db'') :
  db.Le db''
  := by
  intro r hr
  obtain ⟨r', hr', hid, htoken, hrevoked⟩ := h r hr
  obtain ⟨r'', hr'', hid', htoken', hrevoked'⟩ := h' r' hr'
  exact ⟨r'', hr'', hid'.trans hid, htoken'.trans htoken, fun hne => hrevoked' (hrevoked hne)⟩

theorem Db.mem_revokeWhere {p : SessionRow → Bool} {now : DateTime} {db : Db}
    {r' : SessionRow} :
  r' ∈ (db.revokeWhere p now).sessions ↔
    ∃ r ∈ db.sessions, (if p r then r.revokedAtTime now else r) = r'
  := List.mem_map

/-- The sessions that a revocation is about are revoked by it. -/
theorem Db.revoked_revokeWhere {p : SessionRow → Bool} (now : DateTime) {db : Db}
    {r : SessionRow} (hr : r ∈ db.sessions) (hp : p r = true) :
  r.revokedAtTime now ∈ (db.revokeWhere p now).sessions
  := Db.mem_revokeWhere.mpr ⟨r, hr, if_pos hp⟩

theorem Db.le_revokeWhere (p : SessionRow → Bool) (now : DateTime) (db : Db) :
  db.Le (db.revokeWhere p now)
  := by
  intro r hr
  by_cases hp : p r = true
  · exact ⟨r.revokedAtTime now, Db.revoked_revokeWhere now hr hp, rfl, rfl,
      fun _ => Option.some_ne_none now⟩
  · exact ⟨r, Db.mem_revokeWhere.mpr ⟨r, hr, if_neg hp⟩, rfl, rfl, id⟩

theorem Db.mem_insertSession {row : NewSession} {db db' : Db}
    (h : db.insertSession row = some db') {r : SessionRow} :
  r ∈ db'.sessions ↔ r = db.newRow row ∨ r ∈ db.sessions
  := by
  simp only [Db.insertSession] at h
  split at h
  · cases h
  · rename_i sessions hinsert
    cases h
    apply Table.mem_of_insert hinsert

theorem le_exec (q : SessionRequest) (c : sessionWorld.Choice q) (db : Db) :
  db.Le (sessionWorld.exec q c db).2
  := by
  cases q with
  | sql st =>
      simp only [sessionWorld]
      split
      · apply Db.Le.refl
      · cases st with
        | selectLive tok => apply Db.Le.refl
        | revoke id => apply Db.le_revokeWhere
        | revokeByToken tok => apply Db.le_revokeWhere
        | insert row =>
            simp only [SessionSql.exec]
            split
            · split
              · rename_i db' hinsert
                intro r hr
                exact ⟨r, (Db.mem_insertSession hinsert).mpr (.inr hr), rfl, rfl, id⟩
              · apply Db.Le.refl
            · apply Db.Le.refl
        | recordSignIn actorId => apply Db.Le.refl
  | _ => apply Db.Le.refl

section Steps

variable {q : SessionRequest} {i : Nat} {t : Call} {c : sessionWorld.Choice q} {s : Sessioning}

theorem of_finds {tok : String} {id : Uuid}
    (h : finds tok id ⟨q, (sessionWorld.exec q c s.state).1⟩ = true) :
  ∃ r ∈ s.state.sessions, r.id = id ∧ r.refreshToken = tok
  := by
  cases q with
  | sql st =>
      cases st with
      | selectLive tok' =>
          simp only [sessionWorld] at h
          split at h
          · cases h
          · simp only [SessionSql.exec] at h
            cases hrow : s.state.sessions.find fun r =>
                r.refreshToken == tok' && r.isLive c.now with
            | none =>
                rw [hrow] at h
                cases h
            | some r =>
                have hfound := Table.satisfies_of_find hrow
                simp only [Bool.and_eq_true, beq_iff_eq] at hfound
                rw [hrow, Option.bind_some, SessionRow.live] at h
                cases haccount : s.state.accounts.find? (·.id == r.actorId) with
                | none =>
                    rw [haccount] at h
                    cases h
                | some a =>
                    rw [haccount] at h
                    simp only [Option.map_some, finds, Bool.and_eq_true, beq_iff_eq] at h
                    exact ⟨r, Table.mem_of_find hrow, h.2, hfound.1.trans h.1⟩
      | _ => cases h
  | _ => cases h

theorem of_rotates {id : Uuid} (h : rotates id ⟨q, (sessionWorld.exec q c s.state).1⟩ = true) :
  q = .sql (.revoke id) ∧
    (Uncrossed i t q c s → ∀ r ∈ s.state.sessions, r.id = id → r.revokedAt = none) ∧
    ∃ now, (sessionWorld.exec q c s.state).2 = s.state.revokeWhere (·.id == id) now
  := by
  cases q with
  | sql st =>
      cases st with
      | revoke id' =>
          cases herror : c.error with
          | some e =>
              simp only [sessionWorld, herror] at h
              cases h
          | none =>
              simp only [sessionWorld, herror, SessionSql.exec, rotates, beq_iff_eq] at h ⊢
              subst h
              constructor
              · rfl
              constructor
              · intro hC
                apply hC herror
              · exact ⟨c.now, rfl⟩
      | _ => cases h
  | _ => cases h

theorem live_of_rotates {id : Uuid}
    (h : rotates id ⟨q, (sessionWorld.exec q c s.state).1⟩ = true) (hC : Uncrossed i t q c s)
    {r : SessionRow} (hr : r ∈ s.state.sessions) (hid : r.id = id) :
  r.revokedAt = none
  := (of_rotates h).2.1 hC r hr hid

theorem of_revokes {tok : String}
    (h : revokes tok ⟨q, (sessionWorld.exec q c s.state).1⟩ = true) :
  (Uncrossed i t q c s → ∀ r ∈ s.state.sessions, r.refreshToken = tok → ∀ e ∈ s.history,
      rotates r.id e.exchange → Responded s.history e.thread) ∧
    ∃ now, (sessionWorld.exec q c s.state).2 = s.state.revokeWhere (·.refreshToken == tok) now
  := by
  cases q with
  | sql st =>
      cases st with
      | revokeByToken tok' =>
          cases herror : c.error with
          | some e =>
              simp only [sessionWorld, herror] at h
              cases h
          | none =>
              simp only [sessionWorld, herror, SessionSql.exec, revokes, beq_iff_eq] at h ⊢
              subst h
              constructor
              · intro hC
                apply hC herror
              · exact ⟨c.now, rfl⟩
      | _ => cases h
  | _ => cases h

theorem of_issues {tok : String}
    (h : issues tok ⟨q, (sessionWorld.exec q c s.state).1⟩ = true) :
  ∃ r ∈ (sessionWorld.exec q c s.state).2.sessions, r.refreshToken = tok
  := by
  cases q with
  | sql st =>
      cases st with
      | insert row =>
          cases herror : c.error with
          | some e =>
              simp only [sessionWorld, herror] at h
              cases h
          | none =>
              simp only [sessionWorld, herror, SessionSql.exec] at h ⊢
              split at h
              · rename_i hactor
                rw [if_pos hactor]
                split at h
                · rename_i db' hinsert
                  have hnew := (Db.mem_insertSession hinsert).mpr (.inl rfl)
                  exact ⟨s.state.newRow row, hnew, beq_iff_eq.mp h⟩
                · cases h
              · cases h
      | _ => cases h
  | _ => cases h

end Steps

/-! ### The invariant -/

/-- A token that is at an end: it has been exchanged, or it has been revoked once issued. -/
def Ended (db : Db) (refreshToken : String) (h : Sessions.History Call) : Prop :=
  (∃ e ∈ h, exchanges refreshToken e) ∨ Revoked db refreshToken h

/-- No token is exchanged when it is at an end. -/
def Honoured (db : Db) : Sessions.History Call → Prop
  | [] => True
  | e :: h => (∀ tok, exchanges tok e → ¬ Ended db tok h) ∧ Honoured db h

/-- What holds of every pool whose steps are uncrossed. -/
structure Tracked (db : Db) (s : Sessioning) : Prop where
  found : ∀ e ∈ s.history, ∀ tok id, finds tok id e.exchange →
    ∃ r ∈ s.state.sessions, r.id = id ∧ r.refreshToken = tok
  rotated : ∀ e ∈ s.history, ∀ id, rotates id e.exchange →
    ∃ r ∈ s.state.sessions, r.id = id ∧ r.revokedAt ≠ none
  once : ∀ e ∈ s.history, ∀ e' ∈ s.history, ∀ id, rotates id e.exchange →
    rotates id e'.exchange → e.thread = e'.thread
  issued : ∀ tok, Issued db tok s.history → ∃ r ∈ s.state.sessions, r.refreshToken = tok
  revoked : ∀ tok, Revoked db tok s.history →
    ∃ r ∈ s.state.sessions, r.refreshToken = tok ∧ r.revokedAt ≠ none ∧
      ∀ e ∈ s.history, rotates r.id e.exchange → Responded s.history e.thread
  exchanged : ∀ e ∈ s.history, ∀ tok, exchanges tok e →
    ∃ r ∈ s.state.sessions, r.refreshToken = tok ∧
      ∃ e' ∈ s.history, e'.thread = e.thread ∧ rotates r.id e'.exchange
  honoured : Honoured db s.history

theorem tracked_initial (db : Db) :
  Tracked db (.initial db)
  := by
  constructor
  case issued =>
    rintro tok (hstored | ⟨e, he, _⟩)
    · exact hstored
    · cases he
  case revoked =>
    intro tok hrevoked
    cases hrevoked
  case honoured => trivial
  all_goals
    intro e he
    cases he

theorem Db.eq_of_id {db : Db} {r r' : SessionRow} (hr : r ∈ db.sessions) (hr' : r' ∈ db.sessions)
    (h : r.id = r'.id) :
  r = r'
  := Table.eq_of_not_apart hr hr' fun hapart => hapart.1 h

theorem Db.eq_of_refreshToken {db : Db} {r r' : SessionRow} (hr : r ∈ db.sessions)
    (hr' : r' ∈ db.sessions) (h : r.refreshToken = r'.refreshToken) :
  r = r'
  := Table.eq_of_not_apart hr hr' fun hapart => hapart.2 h

theorem Responded.cons {h : Sessions.History Call} {i : Nat} (hresponded : Responded h i)
    (e : Event) :
  Responded (e :: h) i
  := by
  obtain ⟨e', he', hthread, hresponds⟩ := hresponded
  exact ⟨e', List.mem_cons_of_mem e he', hthread, hresponds⟩

/-- Who responds has not responded before. -/
theorem not_responded_of_asked {t : Call} {s : Sessioning} {i : Nat} {r : Response}
    (h : Asked t (s.history.trace i) (.respond r)) :
  ¬ Responded s.history i
  := by
  rintro ⟨e, he, hthread, hresponds⟩
  have hmem : e.exchange ∈ s.history.trace i :=
    Interface.History.mem_trace.mpr ⟨e, he, hthread, rfl⟩
  rw [h.1 _ hmem] at hresponds
  cases hresponds

/-- A call that returns a new pair has found a session with its token and revoked it. -/
theorem of_exchanges {t : Call} {s : Sessioning} {i : Nat} {q : SessionRequest}
    {a : Sessions.Answer q} {tok : String} (hasked : Asked t (s.history.trace i) q)
    (h : exchanges tok ⟨i, t, q, a⟩ = true) :
  ¬ Responded s.history i ∧ ∃ id, (∃ e ∈ s.history, finds tok id e.exchange) ∧
    ∃ e ∈ s.history, e.thread = i ∧ rotates id e.exchange
  := by
  have hmatch : ∃ r tokens, q = .respond r ∧ r = .tokens (.ok tokens) ∧ t = .refresh tok := by
    simp only [exchanges] at h
    split at h
    · rename_i tok' tokens _ heq
      have hq : q = .respond (.tokens (.ok tokens)) := congrArg (·.request) heq
      rw [beq_iff_eq.mp h]
      exact ⟨_, tokens, hq, rfl, rfl⟩
    · cases h
  obtain ⟨r, tokens, rfl, hr, ht⟩ := hmatch
  constructor
  · apply not_responded_of_asked hasked
  · obtain ⟨id, ⟨x, hx, hfinds⟩, y, hy, hrotates⟩ := hasked.2 tok tokens ht hr
    obtain ⟨e, he, _, rfl⟩ := Interface.History.mem_trace.mp hx
    obtain ⟨e', he', hthread, rfl⟩ := Interface.History.mem_trace.mp hy
    exact ⟨id, ⟨e, he, hfinds⟩, e', he', hthread, hrotates⟩

section Preserved

variable {db : Db} {q : SessionRequest} {i : Nat} {t : Call} {c : sessionWorld.Choice q}
  {s : Sessioning} (htracked : Tracked db s) (hasked : Asked t (s.history.trace i) q)
  (hC : Uncrossed i t q c s) {k : Sessions.Answer q → Program Sessions Unit}

include htracked

theorem tracked_found :
  ∀ e ∈ (s.exchange sessionWorld i t q k c).history, ∀ tok id, finds tok id e.exchange →
    ∃ r ∈ (s.exchange sessionWorld i t q k c).state.sessions, r.id = id ∧ r.refreshToken = tok
  := by
  intro e he tok id hfinds
  have hbefore : ∃ r ∈ s.state.sessions, r.id = id ∧ r.refreshToken = tok := by
    rcases List.mem_cons.mp he with rfl | he
    · apply of_finds hfinds
    · apply htracked.found e he tok id hfinds
  obtain ⟨r, hr, hid, htoken⟩ := hbefore
  obtain ⟨r', hr', hid', htoken', _⟩ := le_exec q c s.state r hr
  exact ⟨r', hr', hid'.trans hid, htoken'.trans htoken⟩

include hasked

/-- The session that a refresh revokes is stored. -/
theorem stored_of_rotates {id : Uuid}
    (h : rotates id ⟨q, (sessionWorld.exec q c s.state).1⟩ = true) :
  ∃ r ∈ s.state.sessions, r.id = id
  := by
  obtain ⟨rfl, _⟩ := of_rotates (i := i) (t := t) h
  obtain ⟨tok, _, x, hx, hfinds⟩ := hasked
  obtain ⟨e, he, _, rfl⟩ := Interface.History.mem_trace.mp hx
  obtain ⟨r, hr, hid, _⟩ := htracked.found e he tok id hfinds
  exact ⟨r, hr, hid⟩

theorem tracked_rotated :
  ∀ e ∈ (s.exchange sessionWorld i t q k c).history, ∀ id, rotates id e.exchange →
    ∃ r ∈ (s.exchange sessionWorld i t q k c).state.sessions, r.id = id ∧ r.revokedAt ≠ none
  := by
  intro e he id hrotates
  rcases List.mem_cons.mp he with rfl | he
  · obtain ⟨r, hr, rfl⟩ := stored_of_rotates htracked hasked hrotates
    obtain ⟨_, _, now, hexec⟩ := of_rotates (i := i) (t := t) hrotates
    have hrevoked := Db.revoked_revokeWhere (p := (·.id == r.id)) now hr (by simp)
    rw [← hexec] at hrevoked
    exact ⟨_, hrevoked, rfl, Option.some_ne_none now⟩
  · obtain ⟨r, hr, hid, hrevoked⟩ := htracked.rotated e he id hrotates
    obtain ⟨r', hr', hid', _, hrevoked'⟩ := le_exec q c s.state r hr
    exact ⟨r', hr', hid'.trans hid, hrevoked' hrevoked⟩

include hC

omit hasked in
theorem tracked_once :
  ∀ e ∈ (s.exchange sessionWorld i t q k c).history,
    ∀ e' ∈ (s.exchange sessionWorld i t q k c).history, ∀ id, rotates id e.exchange →
      rotates id e'.exchange → e.thread = e'.thread
  := by
  have hfirst : ∀ id, rotates id ⟨q, (sessionWorld.exec q c s.state).1⟩ = true →
      ∀ e ∈ s.history, ¬ rotates id e.exchange = true := by
    intro id hrotates e he hbefore
    obtain ⟨r, hr, hid, hrevoked⟩ := htracked.rotated e he id hbefore
    apply hrevoked (live_of_rotates hrotates hC hr hid)
  intro e he e' he' id hrotates hrotates'
  rcases List.mem_cons.mp he with rfl | he
  · rcases List.mem_cons.mp he' with rfl | he'
    · rfl
    · exact absurd hrotates' (hfirst id hrotates e' he')
  · rcases List.mem_cons.mp he' with rfl | he'
    · exact absurd hrotates (hfirst id hrotates' e he)
    · apply htracked.once e he e' he' id hrotates hrotates'

theorem tracked_revoked (tok : String)
    (h : Revoked db tok (s.exchange sessionWorld i t q k c).history) :
  ∃ r ∈ (s.exchange sessionWorld i t q k c).state.sessions, r.refreshToken = tok ∧
    r.revokedAt ≠ none ∧ ∀ e ∈ (s.exchange sessionWorld i t q k c).history,
      rotates r.id e.exchange → Responded (s.exchange sessionWorld i t q k c).history e.thread
  := by
  rcases h with ⟨hrevokes, hissued⟩ | hrevoked
  · obtain ⟨r, hr, rfl⟩ := htracked.issued tok hissued
    obtain ⟨huncrossed, now, hexec⟩ := of_revokes (i := i) (t := t) hrevokes
    have hmem := Db.revoked_revokeWhere (p := (·.refreshToken == r.refreshToken)) now hr (by simp)
    rw [← hexec] at hmem
    refine ⟨r.revokedAtTime now, hmem, rfl, Option.some_ne_none now, ?_⟩
    intro e he hrotates
    rcases List.mem_cons.mp he with rfl | he
    · obtain ⟨hq, _⟩ := of_rotates (i := i) (t := t) hrotates
      subst hq
      cases hrevokes
    · apply Responded.cons (huncrossed hC r hr rfl e he hrotates)
  · obtain ⟨r, hr, htoken, hne, hresponded⟩ := htracked.revoked tok hrevoked
    obtain ⟨r', hr', hid', htoken', hne'⟩ := le_exec q c s.state r hr
    refine ⟨r', hr', htoken'.trans htoken, hne' hne, ?_⟩
    intro e he hrotates
    rw [hid'] at hrotates
    rcases List.mem_cons.mp he with rfl | he
    · exact absurd (live_of_rotates hrotates hC hr rfl) hne
    · apply Responded.cons (hresponded e he hrotates)

omit hC

theorem tracked_exchanged :
  ∀ e ∈ (s.exchange sessionWorld i t q k c).history, ∀ tok, exchanges tok e →
    ∃ r ∈ (s.exchange sessionWorld i t q k c).state.sessions, r.refreshToken = tok ∧
      ∃ e' ∈ (s.exchange sessionWorld i t q k c).history, e'.thread = e.thread ∧
        rotates r.id e'.exchange
  := by
  intro e he tok hexchanges
  have hbefore : ∃ r ∈ s.state.sessions, r.refreshToken = tok ∧
      ∃ e' ∈ s.history, e'.thread = e.thread ∧ rotates r.id e'.exchange := by
    rcases List.mem_cons.mp he with rfl | he
    · obtain ⟨_, id, ⟨x, hx, hfinds⟩, e', he', hthread, hrotates⟩ := of_exchanges hasked hexchanges
      obtain ⟨r, hr, rfl, htoken⟩ := htracked.found x hx tok id hfinds
      exact ⟨r, hr, htoken, e', he', hthread, hrotates⟩
    · apply htracked.exchanged e he tok hexchanges
  obtain ⟨r, hr, htoken, e', he', hthread, hrotates⟩ := hbefore
  obtain ⟨r', hr', hid', htoken', _⟩ := le_exec q c s.state r hr
  exact ⟨r', hr', htoken'.trans htoken, e', List.mem_cons_of_mem _ he', hthread, hid' ▸ hrotates⟩

theorem tracked_honoured :
  Honoured db (s.exchange sessionWorld i t q k c).history
  := by
  constructor
  · intro tok hexchanges
    obtain ⟨hfirst, id, ⟨x, hx, hfinds⟩, e', he', hthread, hrotates⟩ :=
      of_exchanges hasked hexchanges
    obtain ⟨r, hr, hid, htoken⟩ := htracked.found x hx tok id hfinds
    rintro (⟨e, he, hbefore⟩ | hrevoked)
    · -- the other exchange revoked the same session, so it is of the same thread
      obtain ⟨r', hr', htoken', e'', he'', hthread', hrotates'⟩ :=
        htracked.exchanged e he tok hbefore
      rw [Db.eq_of_refreshToken hr' hr (htoken'.trans htoken.symm), hid] at hrotates'
      have hsame := htracked.once e'' he'' e' he' id hrotates' hrotates
      have hresponds : responds e.exchange = true := by
        simp only [exchanges] at hbefore
        split at hbefore
        · rename_i heq
          rw [heq]
          rfl
        · cases hbefore
      exact hfirst ⟨e, he, by rw [← hthread', hsame, hthread], hresponds⟩
    · obtain ⟨r', hr', htoken', _, hresponded⟩ := htracked.revoked tok hrevoked
      rw [Db.eq_of_refreshToken hr' hr (htoken'.trans htoken.symm), hid] at hresponded
      exact hfirst (hthread ▸ hresponded e' he' hrotates)
  · exact htracked.honoured

omit hasked

theorem tracked_issued (tok : String)
    (h : Issued db tok (s.exchange sessionWorld i t q k c).history) :
  ∃ r ∈ (s.exchange sessionWorld i t q k c).state.sessions, r.refreshToken = tok
  := by
  have hkept : (∃ r ∈ s.state.sessions, r.refreshToken = tok) →
      ∃ r ∈ (s.exchange sessionWorld i t q k c).state.sessions, r.refreshToken = tok := by
    rintro ⟨r, hr, htoken⟩
    obtain ⟨r', hr', _, htoken', _⟩ := le_exec q c s.state r hr
    exact ⟨r', hr', htoken'.trans htoken⟩
  rcases h with hstored | ⟨e, he, hissues⟩
  · apply hkept (htracked.issued tok (.inl hstored))
  · rcases List.mem_cons.mp he with rfl | he
    · apply of_issues hissues
    · apply hkept (htracked.issued tok (.inr ⟨e, he, hissues⟩))

end Preserved

theorem tracked_of_reaches {jwt : Jwt} {config : SessionConfig} {db : Db} {s : Sessioning}
    (h : Reaches sessionWorld (Call.program jwt config) Uncrossed (.initial db) s) :
  Tracked db s
  := by
  apply (Step.inv (Tracked db) (asks_program jwt config) _ _ (Pool.initial_disciplined Asked db)
    (tracked_initial db) h).2
  · intro s t hs
    exact ⟨hs.found, hs.rotated, hs.once, hs.issued, hs.revoked, hs.exchanged, hs.honoured⟩
  · intro s i t q k c _ hs _ hasked hC
    exact ⟨tracked_found hs, tracked_rotated hs hasked, tracked_once hs hC,
      tracked_issued hs, tracked_revoked hs hasked hC, tracked_exchanged hs hasked,
      tracked_honoured hs hasked⟩

/-! ### Single use -/

theorem ended_of_mem {db : Db} {tok : String} {e : Event} {h : Sessions.History Call}
    (he : e ∈ h) (hexchanges : exchanges tok e = true) :
  Ended db tok h
  := .inl ⟨e, he, hexchanges⟩

/-- In an honoured history a token is exchanged at most once. -/
theorem Honoured.countP_le_one {db : Db} {h : Sessions.History Call} (hh : Honoured db h)
    (tok : String) :
  h.countP (exchanges tok) ≤ 1
  := by
  induction h with
  | nil => simp
  | cons e h ih =>
      obtain ⟨hfirst, hrest⟩ := hh
      by_cases hexchanges : exchanges tok e = true
      · have hnone : h.countP (exchanges tok) = 0 := by
          apply List.countP_eq_zero.mpr
          intro e' he' hexchanges'
          apply hfirst tok hexchanges (ended_of_mem he' hexchanges')
        simp only [List.countP_cons_of_pos hexchanges, hnone, Nat.zero_add, Nat.le_refl]
      · rw [List.countP_cons_of_neg hexchanges]
        apply ih hrest

/-- In an honoured history no token is exchanged after it was at an end. -/
theorem Honoured.not_ended {db : Db} {later earlier : Sessions.History Call} {e : Event}
    {tok : String} (h : Honoured db (later ++ e :: earlier)) (hexchanges : exchanges tok e = true) :
  ¬ Ended db tok earlier
  := by
  induction later with
  | nil => exact h.1 tok hexchanges
  | cons e' later ih => apply ih h.2

/-- The sessions that are revoked stay so, whatever happens. -/
theorem revoked_of_reaches {jwt : Jwt} {config : SessionConfig}
    {C : StepCondition sessionWorld Call} {s s' : Sessioning}
    (h : Reaches sessionWorld (Call.program jwt config) C s s') :
  s.state.Le s'.state
  := by
  induction h with
  | refl => apply Db.Le.refl
  | tail _ hstep ih =>
      apply ih.trans
      cases hstep with
      | start t => apply Db.Le.refl
      | exchange i t q k c hthread hC => apply le_exec

/-- If no statement revokes a session while a refresh of it is under way, then each refresh
token is exchanged at most once, and not after it was exchanged or revoked; and a session
that is revoked is never live again. -/
theorem refreshTokens_singleUse (jwt : Jwt) (config : SessionConfig) (db : Db)
    (s s' : Sessioning)
    (h : Reaches sessionWorld (Call.program jwt config) Uncrossed (.initial db) s)
    (h' : Reaches sessionWorld (Call.program jwt config) Uncrossed s s') :
  (∀ tok, s.history.countP (exchanges tok) ≤ 1) ∧
    (∀ tok later e earlier, s.history = later ++ e :: earlier → exchanges tok e = true →
      ¬ Ended db tok earlier) ∧
    ∀ r ∈ s.state.sessions, r.revokedAt ≠ none →
      ∃ r' ∈ s'.state.sessions, r'.id = r.id ∧ r'.refreshToken = r.refreshToken ∧
        r'.revokedAt ≠ none
  := by
  have htracked := tracked_of_reaches h
  constructor
  · apply htracked.honoured.countP_le_one
  constructor
  · intro tok later e earlier hsplit hexchanges
    apply Honoured.not_ended (hsplit ▸ htracked.honoured) hexchanges
  · intro r hr hrevoked
    obtain ⟨r', hr', hid, htoken, hrevoked'⟩ := revoked_of_reaches h' r hr
    exact ⟨r', hr', hid, htoken, hrevoked' hrevoked⟩

/-! ### Two refreshes at once -/

/-- No statement fails, and the given token is drawn. -/
def drawing (token : String) : (q : SessionRequest) → sessionWorld.Choice q
  | .sql _ => ⟨none, 0⟩
  | .utcNow => (0 : Int)
  | .generateRefreshToken => token
  | .respond _ => ()

/-- The thread `i` makes its next `n` requests. -/
def turns (i n : Nat) (token : String) : List (Turn sessionWorld Call) :=
  List.replicate n (.exchange i (drawing token))

/-- An actor signs in, and is given the token "a". -/
def signingIn : List (Turn sessionWorld Call) :=
  .start (.create 1 "ann" .user .signIn) :: turns 0 5 "a"

/-- The token is presented twice, and both refreshes read the session first. -/
def crossing : List (Turn sessionWorld Call) :=
  signingIn ++ [.start (.refresh "a"), .start (.refresh "a")] ++ turns 1 1 "b" ++ turns 2 1 "c" ++
    turns 1 5 "b" ++ turns 2 5 "c"

/-- One refresh after the other. -/
def succeeding : List (Turn sessionWorld Call) :=
  signingIn ++ [.start (.refresh "a"), .start (.refresh "a")] ++ turns 1 6 "b" ++ turns 2 2 "c"

def annDb : Db where
  accounts := [⟨1, "ann", .user, none⟩]
  sessions := .empty
  nextId := 0
  sessions_old := by simp

def plainJwt : Jwt :=
  fun _ _ => .ok "jwt"

def shortSessions : SessionConfig :=
  ⟨"secret", "home.example", 60, 3600⟩

/-- Two refreshes that both read the session before it is revoked both succeed. -/
theorem crossing_exchanges_twice :
  ∃ s, Reaches sessionWorld (Call.program plainJwt shortSessions) (fun _ _ _ _ _ => True)
      (.initial annDb) s ∧ s.history.countP (exchanges "a") = 2
  := by
  have hplayed : ((Pool.play sessionWorld (Call.program plainJwt shortSessions)
      (fun _ _ _ _ _ => True) crossing (.initial annDb)).map
        fun s => s.history.countP (exchanges "a")) = some 2 := by
    decide +kernel
  obtain ⟨s, hs, hcount⟩ := Option.map_eq_some_iff.mp hplayed
  exact ⟨s, Pool.reaches_of_play _ _ _ hs, hcount⟩

/-- The second of two refreshes fails if it reads the session after the first. -/
theorem succeeding_exchanges_once :
  ∃ s, s.history.countP (exchanges "a") = 1 ∧
    Reaches sessionWorld (Call.program plainJwt shortSessions) Uncrossed (.initial annDb) s ∧
    ((∀ tok, s.history.countP (exchanges tok) ≤ 1) ∧
      (∀ tok later e earlier, s.history = later ++ e :: earlier → exchanges tok e = true →
        ¬ Ended annDb tok earlier) ∧
      ∀ r ∈ s.state.sessions, r.revokedAt ≠ none →
        ∃ r' ∈ s.state.sessions, r'.id = r.id ∧ r'.refreshToken = r.refreshToken ∧
          r'.revokedAt ≠ none)
  := by
  have hplayed : ((Pool.play sessionWorld (Call.program plainJwt shortSessions) Uncrossed
      succeeding (.initial annDb)).map
        fun s => s.history.countP (exchanges "a")) = some 1 := by
    decide +kernel
  obtain ⟨s, hs, hcount⟩ := Option.map_eq_some_iff.mp hplayed
  have hreaches := Pool.reaches_of_play _ _ _ hs
  exact ⟨s, hcount, hreaches,
    refreshTokens_singleUse plainJwt shortSessions annDb s s hreaches .refl⟩

end Identity
