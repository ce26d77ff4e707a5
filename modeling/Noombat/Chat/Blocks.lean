import Noombat.Chat.Relay
import Noombat.Program.Phases

/-!
# Blocked addresses

The relay looks an address up among those that the actor has blocked before it sends a message
to it, and at no other time.  If the lookup succeeds and finds the address, should it be blocked
in any spelling, if no message of a blocked address is in the mailbox when it is fetched, and no
address is blocked whose mail is under way, then no mail of an address that is blocked is passed
on or submitted.
-/

namespace Chat

open Federation (Uuid)
open Program

variable (lib : MailLibrary) (lower : String → String)

/-- The sender of a message that is passed on. -/
def ServerMessage.sender : ServerMessage → Option String
  | message _ «from» _ _ _ => some «from»
  | _ => none

/-- The senders of the messages that are passed on for what is fetched. -/
def fetchedSenders : Except String (List (Except String Fetched)) → List String
  | .ok results => ((serverMessages lib results).getD []).filterMap (·.sender)
  | .error _ => []

/-- The actor has blocked an address, in some spelling. -/
def Db.Blocked (actorId : Uuid) (addr : String) (db : Db) : Prop :=
  ∃ r ∈ db.blocks.rows, r.actorId = actorId ∧ lower r.blockedAddr = lower addr

instance (actorId : Uuid) (addr : String) (db : Db) : Decidable (db.Blocked lower actorId addr) :=
  inferInstanceAs (Decidable (∃ r ∈ db.blocks.rows, _))

/-! ### Phases of a session -/

inductive Phase where
  | start
  /-- The senders of the messages that are still to be passed on. -/
  | session (actorId : Uuid) (senders : List String)
  /-- An address was looked up, and is not blocked. -/
  | cleared (actorId : Uuid) («to» : String)

namespace Phase

/-- The messages to be passed on are now those of the senders given. -/
def passing (senders : List String) : Phase → Phase
  | start => start
  | session a _ => session a senders
  | cleared a _ => session a senders

def next : Phase → Relaying.Exchange → Phase
  | _, ⟨.sql (.selectActor a), _⟩ => session a []
  | _, ⟨.sql (.isSenderBlocked a addr), .ok false⟩ => cleared a addr
  | φ, ⟨.uidFetch _, r⟩ => φ.passing (fetchedSenders lib r)
  | session a (_ :: senders), ⟨.push (.message _ _ _ _ _), .ok _⟩ => session a senders
  | φ, _ => φ.passing []

/-- The phase after the exchanges given. -/
def of (l : List Relaying.Exchange) : Phase :=
  phaseOf start (next lib) l

theorem of_cons (x : Relaying.Exchange) (l : List Relaying.Exchange) :
  of lib (x :: l) = (of lib l).next lib x
  := rfl

def actor : Phase → Option Uuid
  | start => none
  | session a _ => some a
  | cleared a _ => some a

@[simp]
theorem actor_passing (senders : List String) (φ : Phase) :
  (φ.passing senders).actor = φ.actor
  := by
  cases φ <;> rfl

/-- What is still to be passed on has no sender that is blocked; and an address to which a
message is submitted next, if that is so, is not blocked. -/
def Fits (db : Db) (submitting : Bool) : Phase → Prop
  | start => True
  | session a senders => ∀ «from» ∈ senders, ¬ db.Blocked lower a «from»
  | cleared a «to» => submitting = true → ¬ db.Blocked lower a «to»

instance Fits.decidable (db : Db) (submitting : Bool) :
    ∀ φ : Phase, Decidable (φ.Fits lower db submitting)
  | start => isTrue trivial
  | session a senders =>
      inferInstanceAs (Decidable (∀ «from» ∈ senders, ¬ db.Blocked lower a «from»))
  | cleared a «to» =>
      inferInstanceAs (Decidable (submitting = true → ¬ db.Blocked lower a «to»))

variable {lib lower}

theorem fits_passing_nil {db : Db} {submitting : Bool} (φ : Phase) :
  (φ.passing []).Fits lower db submitting
  := by
  cases φ with
  | start => trivial
  | _ =>
      intro _ h
      cases h

/-- Where no more addresses are blocked, a phase still fits. -/
theorem Fits.mono {db db' : Db} {submitting : Bool} {φ : Phase}
    (hblocked : ∀ a addr, db'.Blocked lower a addr → db.Blocked lower a addr)
    (h : φ.Fits lower db submitting) :
  φ.Fits lower db' submitting
  := by
  cases φ with
  | start => trivial
  | session a senders =>
      intro «from» hfrom hnew
      apply h «from» hfrom (hblocked _ _ hnew)
  | cleared a «to» =>
      intro hsubmits hnew
      apply h hsubmits (hblocked _ _ hnew)

/-- What is to be passed on does not depend on what is submitted next. -/
theorem fits_passing {db : Db} {submitting submitting' : Bool} {senders : List String} {φ : Phase}
    (h : (φ.passing senders).Fits lower db submitting) :
  (φ.passing senders).Fits lower db submitting'
  := by
  cases φ <;> exact h

theorem Fits.anti {db : Db} {submitting submitting' : Bool} {φ : Phase}
    (hsubmits : submitting' = true → submitting = true) (h : φ.Fits lower db submitting) :
  φ.Fits lower db submitting'
  := by
  cases φ with
  | start => trivial
  | session a senders => exact h
  | cleared a «to» =>
      intro hs
      apply h (hsubmits hs)

/-- A phase fits after what is neither a lookup nor a fetch. -/
theorem fits_next {db : Db} {submitting submitting' : Bool} {φ : Phase} {x : Relaying.Exchange}
    (hx : ∀ a addr, x.request ≠ .sql (.isSenderBlocked a addr))
    (hx' : ∀ query, x.request ≠ .uidFetch query) (h : φ.Fits lower db submitting) :
  (φ.next lib x).Fits lower db submitting'
  := by
  unfold next
  split
  · intro _ h
    cases h
  · exact absurd rfl (hx _ _)
  · exact absurd rfl (hx' _)
  · intro «from» hfrom
    apply h «from» (List.mem_cons_of_mem _ hfrom)
  · exact fits_passing_nil _

end Phase

/-! ### What a session asks -/

/-- A session passes a message on while it is the next one to be passed on, and submits one just
after its recipient was looked up. -/
def Asked : Call → List Relaying.Exchange → RelayRequest → Prop
  | .connect (some a) _, l, .push (.message _ «from» _ _ _) =>
      ∃ senders, Phase.of lib l = .session a («from» :: senders)
  | .connect (some a) _, l, .submit m =>
      ∃ r l', l = ⟨.sql (.isSenderBlocked a m.to), r⟩ :: l' ∧ r.toOption.getD false = false
  | .connect (some a) _, l, .uidFetch _ => (Phase.of lib l).actor = some a
  | .connect (some a) _, _, .sql (.isSenderBlocked a' _) => a' = a
  | _, _, _ => True

section Asks

variable {lib} {a : Uuid} {fs : List Frame} {l : List Relaying.Exchange}

/-- What a session asks while it is one of an actor. -/
def AsksOf (lib : MailLibrary) (a : Uuid) (fs : List Frame) {α : Type} (p : RelayProgram α)
    (l : List Relaying.Exchange) : Prop :=
  Asks (Asked lib (.connect (some a) fs)) (fun _ l' => (Phase.of lib l').actor = some a) p l

theorem asksOf_ask {α : Type} {q : RelayRequest} {f : q.Answer → RelayProgram α}
    (hq : Asked lib (.connect (some a) fs) l q) (hf : ∀ r, AsksOf lib a fs (f r) (⟨q, r⟩ :: l)) :
  AsksOf lib a fs (ask q >>= f) l
  := (asks_call _ _ _ _).mpr ⟨hq, hf⟩

theorem asksOf_bind {α β : Type} {p : RelayProgram α} {f : α → RelayProgram β}
    (hp : AsksOf lib a fs p l)
    (hf : ∀ b l', (Phase.of lib l').actor = some a → AsksOf lib a fs (f b) l') :
  AsksOf lib a fs (p >>= f) l
  := (asks_bind _ _ _ _).mpr (Asks.mono hf hp)

theorem asksOf_pure {α : Type} (b : α) (hl : (Phase.of lib l).actor = some a) :
  AsksOf lib a fs (pure b : RelayProgram α) l
  := hl

/-- The actor of a session stays, unless another one is looked up. -/
theorem actor_cons {x : Relaying.Exchange}
    (hx : ∀ a' addr, x.request = .sql (.isSenderBlocked a' addr) → a' = a)
    (hx' : ∀ a', x.request ≠ .sql (.selectActor a')) (hl : (Phase.of lib l).actor = some a) :
  (Phase.of lib (x :: l)).actor = some a
  := by
  rw [Phase.of_cons]
  revert hl
  generalize Phase.of lib l = φ
  intro hl
  unfold Phase.next
  split
  · exact absurd rfl (hx' _)
  · rw [Phase.actor, hx _ _ rfl]
  · rw [Phase.actor_passing, hl]
  · exact hl
  · rw [Phase.actor_passing, hl]

theorem actor_other {q : RelayRequest} {r : q.Answer} (hq : ∀ st, q ≠ .sql st)
    (hl : (Phase.of lib l).actor = some a) :
  (Phase.of lib (⟨q, r⟩ :: l)).actor = some a
  := by
  apply actor_cons _ _ hl
  · intro _ _ h
    exact absurd h (hq _)
  · intro _ h
    exact absurd h (hq _)

theorem asks_push {m : ServerMessage} (hm : m.sender = none)
    (hl : (Phase.of lib l).actor = some a) :
  AsksOf lib a fs (push m) l
  := by
  apply asksOf_ask
  · cases m with
    | message _ _ _ _ _ => cases hm
    | _ => trivial
  · intro r
    apply asksOf_pure
    apply actor_other _ hl
    intro _ h
    cases h

/-- A message is answered to the client, and the session goes on. -/
theorem asks_pushed {α : Type} {m : ServerMessage} (b : α) (hm : m.sender = none)
    (hl : (Phase.of lib l).actor = some a) :
  AsksOf lib a fs (push m >>= fun _ => pure b : RelayProgram α) l
  := by
  apply asksOf_bind (asks_push hm hl)
  intro _ l' hl'
  apply asksOf_pure _ hl'

theorem asks_passOn {ms : List ServerMessage} (hms : ∀ m ∈ ms, m.sender.isSome = true)
    (hl : Phase.of lib l = .session a (ms.filterMap (·.sender))) :
  AsksOf lib a fs (passOn ms) l
  := by
  induction ms generalizing l with
  | nil =>
      apply asksOf_pure
      rw [hl, Phase.actor]
  | cons m ms ih =>
      have hm := hms m List.mem_cons_self
      cases m with
      | message uid «from» body header time =>
          apply asksOf_ask
          · use ms.filterMap (·.sender)
            exact hl
          · rintro (e | r)
            · apply asksOf_pure
              rw [Phase.of_cons, hl]
              rfl
            · apply ih
              · intro m hm
                apply hms m (List.mem_cons_of_mem _ hm)
              · rw [Phase.of_cons, hl]
                rfl
      | _ => cases hm

theorem isSome_of_serverMessage {fetched : Fetched} {m : ServerMessage}
    (h : serverMessage lib fetched = some (some m)) :
  m.sender.isSome = true
  := by
  unfold serverMessage at h
  split at h
  · obtain ⟨extracted, _, h⟩ := Option.bind_eq_some_iff.mp h
    simp only at h
    split at h
    · cases Option.some.inj h
    · split at h
      · cases Option.some.inj h
      · cases Option.some.inj (Option.some.inj h)
        rfl
  · cases h

theorem isSome_of_serverMessages {results : List (Except String Fetched)}
    {ms : List ServerMessage} (h : serverMessages lib results = some ms) :
  ∀ m ∈ ms, m.sender.isSome = true
  := by
  induction results generalizing ms with
  | nil =>
      cases h
      intro m hm
      cases hm
  | cons result results ih =>
      cases result with
      | error e => exact ih h
      | ok fetched =>
          obtain ⟨m, hm, h⟩ := Option.bind_eq_some_iff.mp h
          obtain ⟨ms', hms', h⟩ := Option.bind_eq_some_iff.mp h
          cases Option.some.inj h
          intro m' hm'
          rcases List.mem_append.mp hm' with hm' | hm'
          · rw [Option.mem_toList] at hm'
            rw [hm'] at hm
            apply isSome_of_serverMessage hm
          · apply ih hms' m' hm'

theorem asks_fetch (results : Except String (List (Except String Fetched))) (query : String)
    (hl : (Phase.of lib l).actor = some a) :
  Phase.of lib (⟨.uidFetch query, results⟩ :: l) = .session a (fetchedSenders lib results)
  := by
  rw [Phase.of_cons]
  revert hl
  generalize Phase.of lib l = φ
  intro hl
  cases φ with
  | start => cases hl
  | session a' senders =>
      cases hl
      rfl
  | cleared a' «to» =>
      cases hl
      rfl

theorem to_of_composeMessage {«from» «to» body : String} {header : Option String}
    {m : Submission} (h : composeMessage lib «from» «to» body header = some (.ok m)) :
  m.to = «to»
  := by
  unfold composeMessage at h
  split at h
  · cases h
  · obtain ⟨_, _, h⟩ := Option.bind_eq_some_iff.mp h
    split at h
    all_goals cases h
    rfl

theorem asks_handle (chatmailAddr : String) (m : ClientMessage)
    (hl : (Phase.of lib l).actor = some a) :
  AsksOf lib a fs (handle lib a chatmailAddr m) l
  := by
  cases m with
  | auth password => exact asks_pushed _ rfl hl
  | send «to» body header =>
      apply asksOf_ask
      · rfl
      · intro r
        have hl' : (Phase.of lib (⟨.sql (.isSenderBlocked a «to»), r⟩ :: l)).actor = some a := by
          apply actor_cons _ _ hl
          · intro _ _ h
            cases h
            rfl
          · intro _ h
            cases h
        change AsksOf lib a fs (if r.toOption.getD false = true then _ else _) _
        split
        · exact asks_pushed _ rfl hl'
        · next hnot =>
            split
            · exact asksOf_pure _ hl'
            · exact asks_pushed _ rfl hl'
            · next m hm =>
                apply asksOf_bind
                · apply asksOf_ask
                  · exact ⟨r, l, by rw [to_of_composeMessage hm], Bool.eq_false_iff.mpr hnot⟩
                  · intro r'
                    have hl'' : (Phase.of lib (⟨.submit m, r'⟩ ::
                        ⟨.sql (.isSenderBlocked a «to»), r⟩ :: l)).actor = some a := by
                      apply actor_other _ hl'
                      intro _ h
                      cases h
                    cases r' with
                    | error e => exact asks_push rfl hl''
                    | ok u => exact asks_push rfl hl''
                · intro _ l' hl'
                  apply asksOf_pure _ hl'
  | fetch sinceUid =>
      apply asksOf_ask
      · exact hl
      · intro r
        have hphase := asks_fetch r (fetchQuery sinceUid) hl
        cases r with
        | error e =>
            apply asks_pushed _ rfl
            rw [hphase, Phase.actor]
        | ok results =>
            dsimp only
            cases hms : serverMessages lib results with
            | none =>
                apply asksOf_pure
                rw [hphase, Phase.actor]
            | some ms =>
                apply asksOf_bind
                · apply asks_passOn (isSome_of_serverMessages hms)
                  rw [hphase, fetchedSenders, hms, Option.getD_some]
                · intro _ l' hl'
                  apply asksOf_pure _ hl'
  | ack uid =>
      apply asksOf_ask
      · trivial
      · intro r
        apply asksOf_pure
        apply actor_other _ hl
        intro _ h
        cases h

theorem asks_relayLoop (chatmailAddr : String) (frames : List Frame)
    (hl : (Phase.of lib l).actor = some a) :
  AsksOf lib a fs (relayLoop lib a chatmailAddr frames) l
  := by
  induction frames generalizing l with
  | nil => exact asksOf_pure _ hl
  | cons frame frames ih =>
      cases frame with
      | error => exact asksOf_pure _ hl
      | close => exact asksOf_pure _ hl
      | silence => exact asks_pushed _ rfl hl
      | ping =>
          apply asksOf_ask
          · trivial
          · intro r
            apply ih
            apply actor_other _ hl
            intro _ h
            cases h
      | other => exact ih hl
      | text m =>
          cases m with
          | error e =>
              apply asksOf_bind (asks_push rfl hl)
              intro _ l' hl'
              apply ih hl'
          | ok m =>
              apply asksOf_bind (asks_handle chatmailAddr m hl)
              intro alive l' hl'
              cases alive with
              | true => exact ih hl'
              | false => exact asksOf_pure _ hl'

theorem asks_awaitAuth (frames : List Frame) (hl : (Phase.of lib l).actor = some a) :
  AsksOf lib a fs (awaitAuth frames) l
  := by
  induction frames generalizing l with
  | nil => exact asksOf_pure _ hl
  | cons frame frames ih =>
      cases frame with
      | error => exact asksOf_pure _ hl
      | close => exact asksOf_pure _ hl
      | silence => exact asks_pushed _ rfl hl
      | ping =>
          apply asksOf_ask
          · trivial
          · intro r
            apply ih
            apply actor_other _ hl
            intro _ h
            cases h
      | other => exact ih hl
      | text m =>
          cases m with
          | error e => exact asks_pushed _ rfl hl
          | ok m =>
              cases m with
              | auth password => exact asksOf_pure _ hl
              | _ => exact asks_pushed _ rfl hl

theorem asks_handleWs (chatmailAddr : String) (frames : List Frame)
    (hl : (Phase.of lib l).actor = some a) :
  AsksOf lib a fs (handleWs lib a chatmailAddr frames) l
  := by
  apply asksOf_bind (asks_awaitAuth frames hl)
  rintro (_ | ⟨password, frames⟩) l' hl'
  · exact asksOf_pure _ hl'
  · apply asksOf_ask
    · trivial
    · intro r
      have hconnected := actor_other (q := .connectImap chatmailAddr password) (r := r)
        (by intro _ h; cases h) hl'
      cases r with
      | error e => exact asks_push rfl hconnected
      | ok u =>
          apply asksOf_bind (asks_push rfl hconnected)
          intro _ l'' hl''
          apply asksOf_bind (asks_relayLoop chatmailAddr frames hl'')
          intro alive l₃ hl₃
          cases alive with
          | true =>
              apply asksOf_ask
              · trivial
              · intro r
                apply asksOf_pure
                apply actor_other _ hl₃
                intro _ h
                cases h
          | false => exact asksOf_pure _ hl₃

theorem asks_program (t : Call) :
  Asks (Asked lib t) (fun _ _ => True) (t.program lib) []
  := by
  have hrespond : ∀ {t : Call} {l : List Relaying.Exchange} (r),
      Asks (Asked lib t) (fun _ _ => True) (ask (.respond r)) l := by
    intro t l r
    apply (asks_call _ _ _ _).mpr
    constructor
    · cases t with
      | connect viewer fs => cases viewer <;> trivial
      | _ => trivial
    · intro _
      trivial
  cases t with
  | connect viewer fs =>
      cases viewer with
      | none => exact hrespond _
      | some a =>
          apply (asks_call _ _ _ _).mpr
          constructor
          · trivial
          · intro r
            cases r with
            | error e => exact hrespond _
            | ok found =>
                obtain ⟨chatmailAddr, actorStatus⟩ := found
                change Asks _ _ (if actorStatus = "active" ∨ actorStatus = "silenced" then _
                  else _) _
                split
                · cases chatmailAddr with
                  | none => exact hrespond _
                  | some chatmailAddr =>
                      apply (asks_call _ _ _ _).mpr
                      constructor
                      · trivial
                      · intro r
                        apply Asks.mono _ (asks_handleWs chatmailAddr fs rfl)
                        intro _ _ _
                        trivial
                · exact hrespond _
  | block a addr =>
      apply (asks_call _ _ _ _).mpr
      constructor
      · trivial
      · intro _
        trivial
  | unblock a addr =>
      apply (asks_call _ _ _ _).mpr
      constructor
      · trivial
      · intro _
        trivial

end Asks

/-! ### Lists that are heeded -/

abbrev Sessions : Type :=
  Pool Relaying Call Db

/-- A thread submits a message next. -/
def submits (s : Sessions) (i : Nat) : Bool :=
  match s.threads[i]? with
  | some ⟨_, .call (.submit _) _⟩ => true
  | _ => false

/-- A phase has mail under way from or to an address, for an actor. -/
def Phase.Underway (a : Uuid) (addr : String) (submitting : Bool) : Phase → Prop
  | start => False
  | session a' senders => a' = a ∧ ∃ «from» ∈ senders, lower «from» = lower addr
  | cleared a' «to» => a' = a ∧ lower «to» = lower addr ∧ submitting = true

instance Phase.Underway.decidable (a : Uuid) (addr : String) (submitting : Bool) :
    ∀ φ : Phase, Decidable (φ.Underway lower a addr submitting)
  | start => isFalse id
  | session a' senders =>
      inferInstanceAs (Decidable (a' = a ∧ ∃ «from» ∈ senders, lower «from» = lower addr))
  | cleared a' «to» =>
      inferInstanceAs (Decidable (a' = a ∧ lower «to» = lower addr ∧ submitting = true))

/-- A lookup succeeds, and finds an address that is blocked in any spelling; what is fetched has
no sender that is blocked; and no address is blocked whose mail is under way. -/
def Heeded : StepCondition relayWorld Call
  | _, _, .sql (.isSenderBlocked a addr), c, s =>
      Option.isNone c = true ∧ (s.state.Blocked lower a addr → ⟨a, addr⟩ ∈ s.state.blocks.rows)
  | i, _, .uidFetch _, c, s =>
      ((Phase.of lib (s.history.trace i)).passing (fetchedSenders lib c)).Fits lower s.state false
  | _, _, .sql (.blockSender a addr), c, s =>
      Option.isNone c = true → ∀ j < s.threads.length,
        ¬ (Phase.of lib (s.history.trace j)).Underway lower a addr (submits s j)
  | _, _, _, _, _ => True

instance Heeded.decidable : ∀ (i : Nat) (t : Call) (q : RelayRequest) (c : relayWorld.Choice q)
    (s : Sessions), Decidable (Heeded lib lower i t q c s)
  | _, _, .sql (.isSenderBlocked a addr), c, s =>
      inferInstanceAs (Decidable (Option.isNone c = true ∧
        (s.state.Blocked lower a addr → ⟨a, addr⟩ ∈ s.state.blocks.rows)))
  | i, _, .uidFetch _, c, s =>
      inferInstanceAs (Decidable (((Phase.of lib (s.history.trace i)).passing
        (fetchedSenders lib c)).Fits lower s.state false))
  | _, _, .sql (.blockSender a addr), c, s =>
      inferInstanceAs (Decidable (Option.isNone c = true → ∀ j < s.threads.length,
        ¬ (Phase.of lib (s.history.trace j)).Underway lower a addr (submits s j)))
  | _, _, .sql (.selectActor _), _, _ => isTrue trivial
  | _, _, .sql (.unblockSender _ _), _, _ => isTrue trivial
  | _, _, .respond _, _, _ => isTrue trivial
  | _, _, .connectImap _ _, _, _ => isTrue trivial
  | _, _, .uidStore _, _, _ => isTrue trivial
  | _, _, .logout, _, _ => isTrue trivial
  | _, _, .submit _, _, _ => isTrue trivial
  | _, _, .push _, _, _ => isTrue trivial
  | _, _, .pong, _, _ => isTrue trivial

/-! ### What holds throughout -/

section Invariant

variable {lib lower}

/-- The exchange is not a lookup that failed. -/
def answered : Relaying.Exchange → Bool
  | ⟨.sql (.isSenderBlocked _ _), r⟩ => Except.isOk r
  | _ => true

/-- Every phase fits, and every lookup has been answered. -/
structure Withheld (lib : MailLibrary) (lower : String → String) (s : Sessions) : Prop where
  fits : ∀ i, (Phase.of lib (s.history.trace i)).Fits lower s.state (submits s i)
  answered : ∀ e ∈ s.history, answered e.exchange = true

theorem submits_start {s : Sessions} {t : Call} (i : Nat)
    (h : submits { s with threads := s.threads ++ [⟨t, t.program lib⟩] } i = true) :
  submits s i = true
  := by
  rw [← h, submits, submits]
  rcases Nat.lt_trichotomy i s.threads.length with hi | rfl | hi
  · rw [List.getElem?_append_left hi]
  · rw [List.getElem?_eq_none (Nat.le_refl _), List.getElem?_append_right (Nat.le_refl _),
      Nat.sub_self]
    cases t with
    | connect viewer fs => cases viewer <;> rfl
    | _ => rfl
  · rw [List.getElem?_eq_none (Nat.le_of_lt hi), List.getElem?_eq_none (by simp; omega)]

theorem submits_exchange {s : Sessions} {i j : Nat} {t : Call} {q : RelayRequest}
    {k : q.Answer → RelayProgram Unit} {c : relayWorld.Choice q} (hne : j ≠ i) :
  submits (s.exchange relayWorld i t q k c) j = submits s j
  := by
  rw [submits, submits, Pool.exchange, List.getElem?_set_ne (Ne.symm hne)]

/-- An address that is blocked after another was blocked was blocked before, or is that one. -/
theorem Db.blocked_blockSender {db : Db} {a a' : Uuid} {addr addr' : String}
    (h : ((RelaySql.blockSender a addr).exec db).2.Blocked lower a' addr') :
  db.Blocked lower a' addr' ∨ (a' = a ∧ lower addr' = lower addr)
  := by
  rw [RelaySql.exec] at h
  split at h
  · split at h
    · next blocks hblocks =>
        obtain ⟨r, hr, ha, haddr⟩ := h
        rcases (Table.mem_of_insert hblocks).mp hr with rfl | hr
        · exact .inr ⟨ha.symm, haddr.symm⟩
        · exact .inl ⟨r, hr, ha, haddr⟩
    · exact .inl h
  · exact .inl h

theorem Db.blocked_unblockSender {db : Db} {a a' : Uuid} {addr addr' : String}
    (h : ((RelaySql.unblockSender a addr).exec db).2.Blocked lower a' addr') :
  db.Blocked lower a' addr'
  := by
  obtain ⟨r, hr, ha, haddr⟩ := h
  exact ⟨r, (Table.mem_delete.mp hr).1, ha, haddr⟩

/-- A phase that has no mail of an address under way fits after the address is blocked. -/
theorem Phase.Fits.block {db db' : Db} {submitting : Bool} {φ : Phase} {a : Uuid} {addr : String}
    (hblocked : ∀ a' addr', db'.Blocked lower a' addr' →
      db.Blocked lower a' addr' ∨ (a' = a ∧ lower addr' = lower addr))
    (hnot : ¬ φ.Underway lower a addr submitting) (h : φ.Fits lower db submitting) :
  φ.Fits lower db' submitting
  := by
  cases φ with
  | start => trivial
  | session a' senders =>
      intro «from» hfrom hnew
      rcases hblocked _ _ hnew with hold | ⟨ha, hlower⟩
      · apply h «from» hfrom hold
      · exact hnot ⟨ha, «from», hfrom, hlower⟩
  | cleared a' «to» =>
      intro hsubmits hnew
      rcases hblocked _ _ hnew with hold | ⟨ha, hlower⟩
      · apply h hsubmits hold
      · exact hnot ⟨ha, hlower, hsubmits⟩

/-- The phases of the other threads fit after an exchange. -/
theorem fits_others {s : Sessions} {i j : Nat} {t : Call} {q : RelayRequest}
    {c : relayWorld.Choice q} (hdisc : s.Disciplined (Asked lib)) (hs : Withheld lib lower s)
    (hC : Heeded lib lower i t q c s) :
  (Phase.of lib (s.history.trace j)).Fits lower (relayWorld.exec q c s.state).2 (submits s j)
  := by
  have hfits := hs.fits j
  cases q with
  | sql st =>
      cases c with
      | some e => exact hfits
      | none =>
          cases st with
          | selectActor a =>
              change Phase.Fits lower ((RelaySql.selectActor a).exec s.state).2 _ _
              rw [RelaySql.exec]
              split <;> exact hfits
          | isSenderBlocked a addr => exact hfits
          | blockSender a addr =>
              by_cases hj : j < s.threads.length
              · apply hfits.block (fun _ _ => Db.blocked_blockSender) (hC rfl j hj)
              · rw [Step.trace_of_ge hdisc (Nat.le_of_not_lt hj)]
                trivial
          | unblockSender a addr => apply hfits.mono fun _ _ => Db.blocked_unblockSender
  | _ => exact hfits

/-- The phase of a thread fits after its exchange. -/
theorem fits_own {s : Sessions} {i : Nat} {t : Call} {q : RelayRequest}
    {c : relayWorld.Choice q} {submitting : Bool} (hs : Withheld lib lower s)
    (hC : Heeded lib lower i t q c s) :
  ((Phase.of lib (s.history.trace i)).next lib ⟨q, (relayWorld.exec q c s.state).1⟩).Fits lower
    (relayWorld.exec q c s.state).2 submitting
  := by
  have hfits := hs.fits i
  generalize hφ : Phase.of lib (s.history.trace i) = φ at hfits
  cases q with
  | sql st =>
      cases st with
      | selectActor a =>
          intro _ h
          cases h
      | isSenderBlocked a addr =>
          obtain ⟨hnone, hfound⟩ := hC
          cases c with
          | some e => cases hnone
          | none =>
              change (φ.next lib ⟨.sql (.isSenderBlocked a addr),
                .ok (s.state.blocks.rows.any (· == ⟨a, addr⟩))⟩).Fits lower s.state submitting
              cases hany : s.state.blocks.rows.any (· == ⟨a, addr⟩) with
              | true =>
                  have hnext : φ.next lib ⟨.sql (.isSenderBlocked a addr), .ok true⟩ =
                      φ.passing [] := by
                    cases φ with
                    | session a' senders => cases senders <;> rfl
                    | _ => rfl
                  rw [hnext]
                  exact Phase.fits_passing_nil φ
              | false =>
                  intro _ hblocked
                  have hstored : s.state.blocks.rows.any (· == ⟨a, addr⟩) = true :=
                    List.any_eq_true.mpr ⟨_, hfound hblocked, beq_self_eq_true _⟩
                  rw [hany] at hstored
                  cases hstored
      | blockSender a addr => exact Phase.fits_passing_nil φ
      | unblockSender a addr => exact Phase.fits_passing_nil φ
  | uidFetch query =>
      rw [Heeded, hφ] at hC
      exact Phase.fits_passing hC
  | _ =>
      apply Phase.fits_next _ _ hfits
      all_goals
        intros
        intro h
        cases h

theorem withheld_exchange {s : Sessions} {i : Nat} {t : Call} {q : RelayRequest}
    {k : q.Answer → RelayProgram Unit} {c : relayWorld.Choice q}
    (hdisc : s.Disciplined (Asked lib)) (hs : Withheld lib lower s)
    (hC : Heeded lib lower i t q c s) :
  Withheld lib lower (s.exchange relayWorld i t q k c)
  := by
  constructor
  · intro j
    by_cases hj : j = i
    · subst hj
      rw [Pool.trace_exchange_same, Phase.of_cons]
      apply fits_own hs hC
    · rw [Pool.trace_exchange_other (Ne.symm hj), submits_exchange hj]
      apply fits_others hdisc hs hC
  · intro e he
    rcases List.mem_cons.mp he with rfl | he
    · cases q with
      | sql st =>
          cases st with
          | isSenderBlocked a addr =>
              cases c with
              | some e => cases hC.1
              | none => rfl
          | _ => rfl
      | _ => rfl
    · exact hs.answered e he

theorem withheld_of_reaches {db : Db} {s : Sessions}
    (h : Reaches relayWorld (Call.program lib) (Heeded lib lower) (.initial db) s) :
  s.Disciplined (Asked lib) ∧ Withheld lib lower s
  := by
  apply Step.inv (Withheld lib lower) asks_program _ _ (Pool.initial_disciplined (Asked lib) _) _ h
  · intro s t hs
    constructor
    · intro i
      apply (hs.fits i).anti
      exact submits_start i
    · exact hs.answered
  · intro s i t q k c hdisc hs _ _ hC
    apply withheld_exchange hdisc hs hC
  · constructor
    · intro i
      trivial
    · intro e he
      cases he

end Invariant

/-- The address from or to which a request carries mail, if it does. -/
def RelayRequest.correspondent : RelayRequest → Option String
  | .push m => m.sender
  | .submit m => some m.to
  | _ => none

/-- If the lists of blocked addresses are heeded, then no session is about to pass on or submit
mail from or to an address that its actor has blocked at that moment; and it submits a message
only just after a lookup that has found its recipient not to be blocked. -/
theorem blocked_mail_withheld (db : Db) (s : Sessions)
    (h : Reaches relayWorld (Call.program lib) (Heeded lib lower) (.initial db) s) (i : Nat)
    (a : Uuid) (frames : List Frame) (q : RelayRequest) (k : q.Answer → RelayProgram Unit)
    (hi : s.threads[i]? = some ⟨.connect (some a) frames, .call q k⟩) :
  (∀ addr, q.correspondent = some addr → ¬ s.state.Blocked lower a addr) ∧
    ∀ m, q = .submit m →
      ∃ l, s.history.trace i = ⟨.sql (.isSenderBlocked a m.to), .ok false⟩ :: l
  := by
  obtain ⟨hdisc, hs⟩ := withheld_of_reaches h
  have hasked := ((asks_call _ _ _ _).mp (hdisc.threads i _ _ hi)).1
  have hlookup : ∀ m, q = .submit m →
      ∃ l, s.history.trace i = ⟨.sql (.isSenderBlocked a m.to), .ok false⟩ :: l := by
    rintro m rfl
    obtain ⟨r, l, hl, hr⟩ := hasked
    use l
    rw [hl]
    obtain ⟨e, he, _, hexchange⟩ := Interface.History.mem_trace.mp
      (hl ▸ List.mem_cons_self : _ ∈ s.history.trace i)
    have hanswered := hs.answered e he
    rw [hexchange] at hanswered
    cases r with
    | error e => cases hanswered
    | ok b =>
        have hb : b = false := hr
        rw [hb]
  refine ⟨?_, hlookup⟩
  intro addr hcarries
  have hfits := hs.fits i
  cases q with
  | push m =>
      cases m with
      | message uid «from» body header time =>
          obtain ⟨senders, hphase⟩ := hasked
          obtain rfl := Option.some.inj hcarries
          rw [hphase] at hfits
          apply hfits _ List.mem_cons_self
      | _ => cases hcarries
  | submit m =>
      obtain ⟨l, hl⟩ := hlookup m rfl
      have hto : m.to = addr := Option.some.inj hcarries
      rw [hl, Phase.of_cons] at hfits
      rw [← hto]
      apply hfits
      rw [submits, hi]
  | _ => cases hcarries

/-! ### A message that is fetched -/

/-- A library for messages that have one header, the sender, and no body. -/
def MailLibrary.bare : MailLibrary where
  encode _ := ""
  decode _ := .ok []
  parseMail raw :=
    match Text.stripPrefix "From: " (Text.fromUtf8Lossy raw) with
    | some rest =>
        .ok ⟨[("From", String.ofList (rest.toList.takeWhile (· != '\r')))], .ok [], []⟩
    | none => .error "no header"
  addressError _ := none

/-- An actor that has blocked an address. -/
def blocking : Db :=
  ⟨⟨[⟨1, some "al@h.ex", "active"⟩], List.pairwise_singleton _ _⟩,
    ⟨[⟨1, "mal@h.ex"⟩], List.pairwise_singleton _ _⟩⟩

/-- What the mail server answers: there is one message in the mailbox. -/
def mailbox (sender : String) : (q : RelayRequest) → relayWorld.Choice q
  | .sql _ => none
  | .respond _ => ()
  | .connectImap _ _ => .ok ()
  | .uidFetch _ => .ok [.ok ⟨some 1, some (Text.asBytes s!"From: {sender}\r\n\r\n"), 0⟩]
  | .uidStore _ => ()
  | .logout => ()
  | .submit _ => .ok ()
  | .push _ => .ok ()
  | .pong => ()

/-- The actor opens a session, and fetches what there is. -/
def fetches («from» : String) : List (Turn relayWorld Call) :=
  .start (.connect (some 1) [.text (.ok (.auth "pw")), .text (.ok (.fetch 0))]) ::
    List.replicate 5 (.exchange 0 (mailbox «from»))

/-- The actor for whom a thread carries mail next, and the address from or to which it does. -/
def carrying : Thread Relaying Call → Option (Uuid × String)
  | ⟨.connect (some a) _, .call q _⟩ => q.correspondent.map fun addr => (a, addr)
  | _ => none

theorem eq_of_carrying {thread : Thread Relaying Call} {a : Uuid} {addr : String}
    (h : carrying thread = some (a, addr)) :
  ∃ (frames : List Frame) (q : RelayRequest) (k : q.Answer → RelayProgram Unit),
    thread = ⟨.connect (some a) frames, .call q k⟩ ∧ q.correspondent = some addr
  := by
  unfold carrying at h
  split at h
  · next a' frames q k =>
      obtain ⟨addr', haddr, heq⟩ := Option.map_eq_some_iff.mp h
      obtain ⟨rfl, rfl⟩ := Prod.mk.inj heq
      exact ⟨frames, q, k, rfl, haddr⟩
  · cases h

/-- Mail of an address that is blocked is passed on when it is fetched. -/
theorem blocked_mail_fetched :
  ∃ s, Reaches relayWorld (Call.program .bare) (fun _ _ _ _ _ => True) (.initial blocking) s ∧
    ∃ (frames : List Frame) (q : RelayRequest) (k : q.Answer → RelayProgram Unit),
      s.threads[0]? = some ⟨.connect (some 1) frames, .call q k⟩ ∧
      q.correspondent = some "mal@h.ex" ∧ s.state.Blocked Text.toAsciiLowercase 1 "mal@h.ex"
  := by
  have hplayed : (((Pool.initial blocking).play relayWorld (Call.program .bare)
      (fun _ _ _ _ _ => True) (fetches "mal@h.ex")).map fun s =>
        decide (s.threads[0]?.bind carrying = some (1, "mal@h.ex") ∧
          s.state.Blocked Text.toAsciiLowercase 1 "mal@h.ex")) = some true := by
    decide +kernel
  obtain ⟨s, hs, hpassed⟩ := Option.map_eq_some_iff.mp hplayed
  obtain ⟨hcarrying, hblocked⟩ := of_decide_eq_true hpassed
  obtain ⟨thread, hthread, hcarrying⟩ := Option.bind_eq_some_iff.mp hcarrying
  obtain ⟨frames, q, k, rfl, hq⟩ := eq_of_carrying hcarrying
  exact ⟨s, Pool.reaches_of_play _ _ _ hs, frames, q, k, hthread, hq, hblocked⟩

/-- Mail of an address that is not blocked is passed on. -/
theorem blocked_mail_withheld_al :
  ∃ s, Reaches relayWorld (Call.program .bare) (Heeded .bare Text.toAsciiLowercase)
      (.initial blocking) s ∧
    ∃ (frames : List Frame) (q : RelayRequest) (k : q.Answer → RelayProgram Unit),
      s.threads[0]? = some ⟨.connect (some 1) frames, .call q k⟩ ∧
      q.correspondent = some "bob@h.ex" ∧
      (∀ addr, q.correspondent = some addr →
        ¬ s.state.Blocked Text.toAsciiLowercase 1 addr) ∧
      ∀ m, q = .submit m →
        ∃ l, s.history.trace 0 = ⟨.sql (.isSenderBlocked 1 m.to), .ok false⟩ :: l
  := by
  have hplayed : (((Pool.initial blocking).play relayWorld (Call.program .bare)
      (Heeded .bare Text.toAsciiLowercase) (fetches "bob@h.ex")).map fun s =>
        decide (s.threads[0]?.bind carrying = some (1, "bob@h.ex"))) = some true := by
    decide +kernel
  obtain ⟨s, hs, hpassed⟩ := Option.map_eq_some_iff.mp hplayed
  obtain ⟨thread, hthread, hcarrying⟩ := Option.bind_eq_some_iff.mp (of_decide_eq_true hpassed)
  obtain ⟨frames, q, k, rfl, hq⟩ := eq_of_carrying hcarrying
  have hreaches := Pool.reaches_of_play _ _ _ hs
  exact ⟨s, hreaches, frames, q, k, hthread, hq,
    blocked_mail_withheld .bare Text.toAsciiLowercase blocking s hreaches 0 1 frames q k hthread⟩

end Chat
