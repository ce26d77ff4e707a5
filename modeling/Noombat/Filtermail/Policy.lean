import Mathlib.Data.List.Infix
import Noombat.Filtermail.Session

/-!
# The encryption-only policy over whole sessions

An observer of both connections follows the dialogue: what the client has sent last, what
envelope the filter has acknowledged since the last reset, which commands went to the
queue since, and whether a message has been refused.  The policy says of each thing sent
to the queue when it may be sent, in terms of what the observer has seen before.  Every
session keeps to the policy.
-/

namespace Filtermail

open Text Session Program Fallible

/-- The exchanges of a session, the latest first. -/
abbrev Transcript : Type :=
  List Smtp.Exchange

/-! ### The observer -/

/-- What the client has sent and the filter has not yet answered. -/
inductive Pending where
  | nothing
  | command (text : String)
  | message (raw : Bytes)
  | oversized
  deriving DecidableEq

/-- What an observer knows about a session. -/
structure Dialogue where
  pending : Pending
  /-- What the client gave and the filter acknowledged since the last reset. -/
  envelope : Envelope
  /-- The commands sent to the queue since the client last sent something. -/
  sent : List String
  /-- Whether a message of the client has been refused. -/
  refused : Bool

/-- Whether an answer acknowledges a command of the envelope. -/
def isOk (bytes : Bytes) : Bool :=
  (asBytes "250 ").isPrefixOf bytes

/-- The envelope after the filter has answered: a command that was acknowledged has taken
its effect, and a message that was answered has ended its transaction. -/
def Pending.answered (pending : Pending) (bytes : Bytes) (envelope : Envelope) : Envelope :=
  match pending with
  | .nothing => envelope
  | .message _ | .oversized => Envelope.clear
  | .command text =>
      if isOk bytes then
        match verbOf text with
        | "XFORWARD" => { envelope with xforward := envelope.xforward ++ [text] }
        | "MAIL" => { envelope with mailFrom := some (addressOf text), recipients := [] }
        | "RCPT" => { envelope with recipients := envelope.recipients ++ [addressOf text] }
        | "RSET" => Envelope.clear
        | _ => envelope
      else envelope

section

variable (parseMail : Bytes → Option ParsedMail) (mode : Mode)

/-- Whether a message is refused under the envelope. -/
def Dialogue.refuses (d : Dialogue) (raw : Bytes) : Bool :=
  match inspect parseMail mode raw (d.envelope.mailFrom.getD "") with
  | .refuse _ => true
  | .accept _ => false

/-- What an observer knows after one more exchange. -/
def Dialogue.after (d : Dialogue) : Smtp.Exchange → Dialogue
  | ⟨.clientLine, .ok (some line)⟩ => { d with pending := .command (textOf line), sent := [] }
  | ⟨.clientMessage, .ok (.message raw)⟩ =>
      { d with
        pending := .message raw
        sent := []
        refused := d.refused || d.refuses parseMail mode raw }
  | ⟨.clientMessage, .ok .tooLarge⟩ => { d with pending := .oversized, sent := [] }
  | ⟨.answer bytes, .ok ()⟩ =>
      { d with pending := .nothing, envelope := d.pending.answered bytes d.envelope }
  | ⟨.queueLine line, _⟩ => { d with sent := d.sent ++ [line] }
  | _ => d

/-- What an observer knows after the exchanges of a transcript. -/
def observe : Transcript → Dialogue
  | [] => ⟨.nothing, Envelope.clear, [], false⟩
  | e :: log => (observe log).after parseMail mode e

/-! ### The policy -/

/-- The client has just sent the message `raw`, under an envelope with a sender and with
recipients for which it is accepted. -/
structure Dialogue.Accepts (d : Dialogue) (raw : Bytes) (sender : String) (strip : Bool) :
    Prop where
  pending : d.pending = .message raw
  given : d.envelope.mailFrom = some sender
  named : d.envelope.recipients ≠ []
  verdict : inspect parseMail mode raw sender = .accept strip

/-- The envelope that is replayed to the queue: the sender is stripped if need be. -/
def Envelope.replayed (envelope : Envelope) (strip : Bool) : Envelope :=
  if strip then { envelope with mailFrom := some "" } else envelope

/-- The command `line` is the one the client has just given, and not one that the filter
answers by itself. -/
def Dialogue.Relays (d : Dialogue) (line : String) : Prop :=
  d.pending = .command line ∧
    verbOf line ∉ ["XFORWARD", "MAIL", "RCPT", "DATA", "RSET", "QUIT"]

/-- What may be sent to the queue.  A message is handed on only when it was accepted, and
after the replay of the very envelope it was accepted under.  Before it, only the commands
of that replay are sent.  After a message has been refused, nothing but `QUIT` is sent. -/
def Dialogue.Allows (d : Dialogue) : Request → Prop
  | .queueMessage raw =>
      d.refused = false ∧ ∃ sender strip, d.Accepts parseMail mode raw sender strip ∧
        d.sent = (d.envelope.replayed strip).commands
  | .queueLine line =>
      line = "QUIT" ∨
        (d.refused = false ∧
          (d.Relays line ∨ ∃ raw sender strip, d.Accepts parseMail mode raw sender strip ∧
            d.sent ++ [line] <+: (d.envelope.replayed strip).commands))
  | _ => True

/-- Every exchange of a transcript was allowed when it took place. -/
def Lawful (log : Transcript) : Prop :=
  ∀ e earlier, e :: earlier <:+ log → (observe parseMail mode earlier).Allows parseMail mode e.request

end

variable {parseMail : Bytes → Option ParsedMail} {mode : Mode}

@[simp]
theorem lawful_nil :
  Lawful parseMail mode []
  := by
  intro e earlier h
  simp at h

@[simp]
theorem lawful_cons (e : Smtp.Exchange) (log : Transcript) :
  Lawful parseMail mode (e :: log) ↔
    (observe parseMail mode log).Allows parseMail mode e.request ∧ Lawful parseMail mode log
  := by
  simp only [Lawful, List.suffix_cons_iff]
  constructor
  · intro h
    constructor
    · apply h e log (Or.inl rfl)
    · intro e' earlier h'
      apply h e' earlier (Or.inr h')
  · rintro ⟨he, hlog⟩ e' earlier (h | h)
    · obtain ⟨rfl, rfl⟩ := List.cons.inj h
      apply he
    · apply hlog e' earlier h

/-! ### The requests -/

/-- The state of a session with its transcript. -/
abbrev Observed : Type :=
  Sockets × Transcript

/-- Every run of a session program ends in a result and a state as the postcondition
says. -/
abbrev Holds {α : Type} (Post : Except IoError α → Observed → Prop) (p : Session α)
    (s : Observed) : Prop :=
  wp sockets.traced (Always _) Post p.run s

section

variable (parseMail mode)

/-- The session has been lawful, its observer knows `d`, and `open` says whether there is
a connection to the queue. -/
structure Seen (d : Dialogue) (isOpen : Bool) (s : Observed) : Prop where
  lawful : Lawful parseMail mode s.2
  dialogue : observe parseMail mode s.2 = d
  connection : s.1.down.isSome = isOpen

/-- The session has been lawful. -/
def Kept {α : Type} (_ : α) (s : Observed) : Prop :=
  Lawful parseMail mode s.2

end

variable {d : Dialogue} {isOpen : Bool} {s : Observed}

theorem withDown_isSome {α : Type} (s : Sockets) (f : Wire → Except IoError α × Wire) :
  (s.withDown f).2.down.isSome = s.down.isSome
  := by
  rcases s with ⟨up, _ | down, limiter⟩
  · rfl
  · rfl

/-- A request other than `connect` and `closeQueue` leaves the connection to the queue as
it is. -/
theorem exec_down_isSome {q : Request} (hconnect : q ≠ .connect) (hclose : q ≠ .closeQueue)
    (c : q.Choice) (s : Sockets) :
  (q.exec c s).2.down.isSome = s.down.isSome
  := by
  cases q with
  | connect => contradiction
  | closeQueue => contradiction
  | queueLine line => apply withDown_isSome
  | queueMessage message => apply withDown_isSome
  | queueReply => apply withDown_isSome
  | clientLine => rfl
  | clientMessage => rfl
  | answer bytes => rfl
  | queueIsOpen => rfl
  | allow key => rfl

/-- What a request that is allowed does. -/
theorem holds_ask (q : Request) (hconnect : q ≠ .connect) (hclose : q ≠ .closeQueue)
    (h : Seen parseMail mode d isOpen s) (hallows : d.Allows parseMail mode q) :
  Holds (fun r => Seen parseMail mode (d.after parseMail mode ⟨q, r⟩) isOpen) (ask q) s
  := by
  obtain ⟨hlawful, rfl, rfl⟩ := h
  apply (wp_run_ask q _ s).mpr
  intro c _
  constructor
  · apply (lawful_cons _ _).mpr
    exact ⟨hallows, hlawful⟩
  · rfl
  · apply exec_down_isSome hconnect hclose

theorem holds_queueIsOpen (h : Seen parseMail mode d isOpen s) :
  Holds (fun r s' => r = .ok isOpen ∧ Seen parseMail mode d isOpen s') queueIsOpen s
  := by
  obtain ⟨hlawful, rfl, rfl⟩ := h
  apply (wp_run_ask Request.queueIsOpen _ s).mpr
  intro c _
  constructor
  · rfl
  · constructor
    · apply (lawful_cons _ _).mpr
      exact ⟨trivial, hlawful⟩
    · rfl
    · rfl

theorem holds_closeQueue (h : Seen parseMail mode d isOpen s) :
  Holds (fun r s' => r = .ok () ∧ Seen parseMail mode d false s') closeQueue s
  := by
  obtain ⟨hlawful, rfl, rfl⟩ := h
  apply (wp_run_ask Request.closeQueue _ s).mpr
  intro c _
  constructor
  · rfl
  · constructor
    · apply (lawful_cons _ _).mpr
      exact ⟨trivial, hlawful⟩
    · rfl
    · rfl

/-- What an answer to the client does. -/
theorem holds_answer {bytes : Bytes} (h : Seen parseMail mode d isOpen s) :
  Holds
    (onExcept
      (fun _ => Seen parseMail mode
        { d with pending := .nothing, envelope := d.pending.answered bytes d.envelope } isOpen)
      (Kept parseMail mode))
    (answer bytes) s
  := by
  apply wp_mono _ (holds_ask (.answer bytes) (by simp) (by simp) h trivial)
  rintro (e | _) s' h'
  · apply h'.lawful
  · apply h'

/-- What a command to the queue does, if it is allowed. -/
theorem holds_queueLine {line : String} (h : Seen parseMail mode d isOpen s)
    (hallows : d.Allows parseMail mode (.queueLine line)) :
  Holds (fun _ => Seen parseMail mode { d with sent := d.sent ++ [line] } isOpen)
    (queueLine line) s
  := by
  apply wp_mono _ (holds_ask (.queueLine line) (by simp) (by simp) h hallows)
  rintro (e | _) s'
  · exact id
  · exact id

theorem holds_queueMessage {raw : Bytes} (h : Seen parseMail mode d isOpen s)
    (hallows : d.Allows parseMail mode (.queueMessage raw)) :
  Holds (fun _ => Seen parseMail mode d isOpen) (queueMessage raw) s
  := by
  apply wp_mono _ (holds_ask (.queueMessage raw) (by simp) (by simp) h hallows)
  rintro (e | _) s'
  · exact id
  · exact id

theorem holds_queueReply (h : Seen parseMail mode d isOpen s) :
  Holds (fun _ => Seen parseMail mode d isOpen) queueReply s
  := by
  apply wp_mono _ (holds_ask .queueReply (by simp) (by simp) h trivial)
  rintro (e | _) s'
  · exact id
  · exact id

theorem holds_allow {key : String} (h : Seen parseMail mode d isOpen s) :
  Holds (fun _ => Seen parseMail mode d isOpen) (allow key) s
  := by
  apply wp_mono _ (holds_ask (.allow key) (by simp) (by simp) h trivial)
  rintro (e | _) s'
  · exact id
  · exact id

/-! ### The commands the filter answers by itself -/

section

variable (parseMail mode)

/-- How a turn ends: the session has been lawful, and if it goes on, then with the
envelope that the observer sees, and without a connection if a message was refused. -/
def Ends : Except IoError Next → Observed → Prop
  | .ok (some envelope), s => ∃ d isOpen, Seen parseMail mode d isOpen s ∧
      d.envelope = envelope ∧ (d.refused = true → isOpen = false)
  | _, s => Lawful parseMail mode s.2

end

/-- A turn may end with an answer after which the observer sees the envelope it goes on
with. -/
theorem ends_answer {bytes : Bytes} {next : Next} (h : Seen parseMail mode d isOpen s)
    (hshut : d.refused = true → isOpen = false)
    (hnext : ∀ envelope, next = some envelope → d.pending.answered bytes d.envelope = envelope) :
  Holds (Ends parseMail mode) (answer bytes >>= fun _ => pure next) s
  := by
  rw [Holds, wp_run_bind]
  apply wp_mono _ (holds_answer h)
  rintro (e | _) s' h'
  · apply h'
  · rw [onExcept_ok, wp_run_pure]
    cases next with
    | none => apply h'.lawful
    | some envelope => exact ⟨_, _, h', hnext envelope rfl, hshut⟩

variable {text : String}

theorem ends_xforward (h : Seen parseMail mode d isOpen s)
    (hshut : d.refused = true → isOpen = false) (htext : d.pending = .command text)
    (hverb : verbOf text = "XFORWARD") :
  Holds (Ends parseMail mode) (xforward text d.envelope) s
  := by
  apply ends_answer h hshut
  rintro envelope ⟨⟩
  rw [htext, Pending.answered, if_pos (by rfl), hverb]
  rfl

theorem ends_rset (h : Seen parseMail mode d isOpen s)
    (hshut : d.refused = true → isOpen = false) (htext : d.pending = .command text)
    (hverb : verbOf text = "RSET") :
  Holds (Ends parseMail mode) rset s
  := by
  apply ends_answer h hshut
  rintro envelope ⟨⟩
  rw [htext, Pending.answered, if_pos (by rfl), hverb]
  rfl

theorem ends_rcpt (h : Seen parseMail mode d isOpen s)
    (hshut : d.refused = true → isOpen = false) (htext : d.pending = .command text)
    (hverb : verbOf text = "RCPT") :
  Holds (Ends parseMail mode) (rcpt text d.envelope) s
  := by
  rw [rcpt]
  split
  · apply ends_answer h hshut
    rintro envelope ⟨⟩
    rw [htext, Pending.answered, if_neg (by decide)]
  · apply ends_answer h hshut
    rintro envelope ⟨⟩
    rw [htext, Pending.answered, if_pos (by rfl), hverb]
    rfl

theorem holds_withinQuota {sender : String} (h : Seen parseMail mode d isOpen s) :
  Holds (fun _ => Seen parseMail mode d isOpen) (withinQuota mode sender) s
  := by
  rw [withinQuota]
  split
  · apply holds_allow h
  · rw [Holds, wp_run_pure]
    apply h

theorem ends_mail (h : Seen parseMail mode d isOpen s)
    (hshut : d.refused = true → isOpen = false) (htext : d.pending = .command text)
    (hverb : verbOf text = "MAIL") :
  Holds (Ends parseMail mode) (mail mode text d.envelope) s
  := by
  rw [mail, Holds, wp_run_bind]
  apply wp_mono _ (holds_withinQuota h)
  rintro (e | allowed) s' h'
  · apply h'.lawful
  · rw [onExcept_ok]
    split
    · apply ends_answer h' hshut
      rintro envelope ⟨⟩
      rw [htext, Pending.answered, if_pos (by rfl), hverb]
      rfl
    · apply ends_answer h' hshut
      rintro envelope ⟨⟩
      rw [htext, Pending.answered, if_neg (by decide)]

/-- Closing the connection to the queue is always allowed. -/
theorem holds_closeDownstream (h : Seen parseMail mode d isOpen s) :
  Holds
    (onExcept
      (fun _ s' => ∃ sent, Seen parseMail mode { d with sent } false s')
      (Kept parseMail mode))
    closeDownstream s
  := by
  rw [closeDownstream, Holds, wp_run_bind]
  apply wp_mono _ (holds_queueIsOpen h)
  rintro _ s₁ ⟨rfl, h₁⟩
  rw [onExcept_ok]
  cases isOpen with
  | false =>
      rw [if_neg (by simp), wp_run_pure]
      exact ⟨d.sent, h₁⟩
  | true =>
      rw [if_pos rfl, wp_run_bind, wp_run_attempt]
      apply wp_mono _ (holds_queueLine h₁ (Or.inl rfl))
      rintro _ s₂ h₂
      rw [onExcept_ok]
      apply wp_mono _ (holds_closeQueue h₂)
      rintro _ s₃ ⟨rfl, h₃⟩
      exact ⟨_, h₃⟩

theorem ends_quit (h : Seen parseMail mode d isOpen s) :
  Holds (Ends parseMail mode) quit s
  := by
  rw [quit, Holds, wp_run_bind]
  apply wp_mono _ (holds_closeDownstream h)
  rintro (e | _) s₁ h₁
  · apply h₁
  · obtain ⟨sent, h₁⟩ := h₁
    rw [onExcept_ok, wp_run_bind, wp_run_attempt]
    apply wp_mono _ (holds_answer h₁)
    rintro (e | _) s₂ h₂
    · rw [onExcept_ok, wp_run_pure]
      apply h₂
    · rw [onExcept_ok, wp_run_pure]
      apply h₂.lawful

/-! ### The commands that are relayed -/

/-- The acknowledgement of a command that is relayed does not change the envelope. -/
theorem answered_relayed {envelope : Envelope} {bytes : Bytes}
    (hverb : verbOf text ∉ ["XFORWARD", "MAIL", "RCPT", "DATA", "RSET", "QUIT"]) :
  (Pending.command text).answered bytes envelope = envelope
  := by
  rw [Pending.answered]
  split
  · split
    all_goals simp_all
  · rfl

/-- A command may be relayed, and its reply answered in any way. -/
theorem ends_passThrough {answered : Reply → Session Unit}
    (h : Seen parseMail mode d isOpen s) (hshut : d.refused = true → isOpen = false)
    (htext : d.pending = .command text)
    (hverb : verbOf text ∉ ["XFORWARD", "MAIL", "RCPT", "DATA", "RSET", "QUIT"])
    (hanswer : ∀ reply, ∃ bytes, answered reply = answer bytes) :
  Holds (Ends parseMail mode) (passThrough text d.envelope answered) s
  := by
  rw [passThrough, Holds, wp_run_bind]
  apply wp_mono _ (holds_queueIsOpen h)
  rintro _ s₁ ⟨rfl, h₁⟩
  rw [onExcept_ok]
  cases isOpen with
  | false =>
      apply ends_answer h₁ hshut
      rintro envelope ⟨⟩
  | true =>
      have hrefused : d.refused = false := by simpa using hshut
      rw [if_pos rfl, wp_run_bind]
      apply wp_mono _ (holds_queueLine h₁ (Or.inr ⟨hrefused, Or.inl ⟨htext, hverb⟩⟩))
      rintro (e | _) s₂ h₂
      · apply h₂.lawful
      · rw [onExcept_ok, wp_run_bind]
        apply wp_mono _ (holds_queueReply h₂)
        rintro (e | reply) s₃ h₃
        · apply h₃.lawful
        · rw [onExcept_ok]
          obtain ⟨bytes, hbytes⟩ := hanswer reply
          rw [hbytes]
          apply ends_answer h₃ hshut
          rintro envelope ⟨⟩
          simp only [htext, answered_relayed hverb]

/-! ### Messages -/

section

variable (parseMail mode)

/-- In the replay of an envelope to the queue, the commands `left` are still to be
sent. -/
def Replaying (d : Dialogue) (commands left : List String) (s : Observed) : Prop :=
  ∃ sent, sent ++ left = commands ∧ Seen parseMail mode { d with sent } true s

/-- After a replay was given up, more or less has been sent. -/
def GivenUp {α : Type} (d : Dialogue) (_ : α) (s : Observed) : Prop :=
  ∃ sent, Seen parseMail mode { d with sent } true s

end

variable {raw : Bytes} {sender : String} {strip : Bool}

/-- What one command of a replay does. -/
theorem holds_command {line what : String} {code : Nat} {left : List String}
    (hrefused : d.refused = false) (haccepts : d.Accepts parseMail mode raw sender strip)
    (h : Replaying parseMail mode d (d.envelope.replayed strip).commands (line :: left) s) :
  Holds
    (onExcept
      (fun _ => Replaying parseMail mode d (d.envelope.replayed strip).commands left)
      (GivenUp parseMail mode d))
    (command line code what) s
  := by
  obtain ⟨sent, hsent, h⟩ := h
  have hprefix : sent ++ [line] <+: (d.envelope.replayed strip).commands := by
    rw [← hsent]
    use left
    simp
  have hallows : Dialogue.Allows parseMail mode { d with sent } (.queueLine line) := by
    refine Or.inr ⟨hrefused, Or.inr ⟨raw, sender, strip, ?_, hprefix⟩⟩
    exact ⟨haccepts.pending, haccepts.given, haccepts.named, haccepts.verdict⟩
  rw [command, Holds, wp_run_bind]
  apply wp_mono _ (holds_queueLine h hallows)
  rintro (e | _) s₁ h₁
  · exact ⟨_, h₁⟩
  · rw [onExcept_ok, wp_run_bind]
    apply wp_mono _ (holds_queueReply h₁)
    rintro (e | reply) s₂ h₂
    · exact ⟨_, h₂⟩
    · rw [onExcept_ok]
      split
      · rw [wp_run_throw]
        exact ⟨_, h₂⟩
      · rw [wp_run_pure]
        refine ⟨_, ?_, h₂⟩
        rw [← hsent]
        simp

/-- A message is sent after the replay of the whole envelope it was accepted under. -/
theorem holds_deliver (hrefused : d.refused = false)
    (haccepts : d.Accepts parseMail mode raw sender strip) (hsent : d.sent = [])
    (h : Seen parseMail mode d true s) :
  Holds (GivenUp parseMail mode d) (deliver (d.envelope.replayed strip) raw) s
  := by
  obtain ⟨envelope, henvelope⟩ : ∃ envelope, envelope = d.envelope.replayed strip := ⟨_, rfl⟩
  have step : ∀ line code what left s', Replaying parseMail mode d envelope.commands (line :: left) s' →
      Holds (onExcept (fun _ => Replaying parseMail mode d envelope.commands left)
        (GivenUp parseMail mode d)) (command line code what) s' := by
    intro line code what left s' h'
    rw [henvelope] at h' ⊢
    apply holds_command hrefused haccepts h'
  have start : Replaying parseMail mode d envelope.commands
      (envelope.xforward ++ ["MAIL FROM:<" ++ envelope.mailFrom.getD "" ++ ">"] ++
        envelope.recipients.map (fun recipient => "RCPT TO:<" ++ recipient ++ ">") ++ ["DATA"])
      s := by
    refine ⟨[], rfl, ?_⟩
    rw [← hsent]
    apply h
  rw [← henvelope, deliver, Holds, wp_run_bind]
  apply wp_mono _ (wp_run_forM (fun xs => Replaying parseMail mode d envelope.commands
    (xs ++ ["MAIL FROM:<" ++ envelope.mailFrom.getD "" ++ ">"] ++
        envelope.recipients.map (fun recipient => "RCPT TO:<" ++ recipient ++ ">") ++ ["DATA"]))
    (fun x xs s' h' => step _ _ _ _ _ h') start)
  rintro (e | _) s₁ h₁
  · apply h₁
  · rw [onExcept_ok, wp_run_bind]
    apply wp_mono _ (step _ _ _ _ _ h₁)
    rintro (e | _) s₂ h₂
    · apply h₂
    · rw [onExcept_ok, wp_run_bind]
      apply wp_mono _ (wp_run_forM (fun xs => Replaying parseMail mode d envelope.commands
        (xs.map (fun recipient => "RCPT TO:<" ++ recipient ++ ">") ++ ["DATA"]))
        (fun x xs s' h' => step _ _ _ _ _ h') h₂)
      rintro (e | _) s₃ h₃
      · apply h₃
      · rw [onExcept_ok, wp_run_bind]
        apply wp_mono _ (step _ _ _ _ _ h₃)
        rintro (e | _) s₄ h₄
        · apply h₄
        · obtain ⟨sent, hall, h₄⟩ := h₄
          have hallows : Dialogue.Allows parseMail mode { d with sent } (.queueMessage raw) := by
            refine ⟨hrefused, sender, strip, ?_, ?_⟩
            · exact ⟨haccepts.pending, haccepts.given, haccepts.named, haccepts.verdict⟩
            · rw [← henvelope, ← hall, List.append_nil]
          rw [onExcept_ok, wp_run_bind]
          apply wp_mono _ (holds_queueMessage h₄ hallows)
          rintro (e | _) s₅ h₅
          · exact ⟨_, h₅⟩
          · rw [onExcept_ok]
            apply wp_mono _ (holds_queueReply h₅)
            intro _ s₆ h₆
            exact ⟨_, h₆⟩

/-- A message that was accepted is handed on, or the session ends or goes on without it. -/
theorem ends_handOn (haccepts : d.Accepts parseMail mode raw sender strip) (hsent : d.sent = [])
    (h : Seen parseMail mode d isOpen s) (hshut : d.refused = true → isOpen = false) :
  Holds (Ends parseMail mode) (handOn (d.envelope.replayed strip) raw) s
  := by
  have answered (sent : List String) (bytes : Bytes) (s' : Observed)
      (h' : Seen parseMail mode { d with sent } true s') (hrefused : d.refused = false) :
      Holds (Ends parseMail mode) (answer bytes >>= fun _ => pure (some Envelope.clear)) s' := by
    apply ends_answer h'
    · simp [hrefused]
    · rintro envelope ⟨⟩
      rw [haccepts.pending, Pending.answered]
  rw [handOn, Holds, wp_run_bind]
  apply wp_mono _ (holds_queueIsOpen h)
  rintro _ s₁ ⟨rfl, h₁⟩
  rw [onExcept_ok]
  cases isOpen with
  | false =>
      apply ends_answer h₁ hshut
      rintro envelope ⟨⟩
  | true =>
      have hrefused : d.refused = false := by simpa using hshut
      rw [if_pos rfl, wp_run_bind, wp_run_attempt]
      apply wp_mono _ (holds_deliver hrefused haccepts hsent h₁)
      rintro (e | reply) s₂ ⟨sent, h₂⟩
      · simp only [onExcept_ok]
        split
        · rw [wp_run_throw]
          apply h₂.lawful
        · apply answered sent _ s₂ h₂ hrefused
      · apply answered sent _ s₂ h₂ hrefused

/-- A message that is refused is the last the queue could have heard of. -/
theorem ends_judge (h : Seen parseMail mode d isOpen s)
    (hraw : d.pending = .message raw) (hsent : d.sent = [])
    (hgiven : d.envelope.mailFrom.isSome = true) (hnamed : d.envelope.recipients ≠ [])
    (hshut : d.refused = true → d.refuses parseMail mode raw = false → isOpen = false) :
  Holds (Ends parseMail mode) (judge parseMail mode d.envelope raw) s
  := by
  rw [judge]
  cases hverdict : inspect parseMail mode raw (d.envelope.mailFrom.getD "") with
  | refuse reply =>
      simp only
      rw [Holds, sendLine, wp_run_bind]
      apply wp_mono _ (holds_answer h)
      rintro (e | _) s₁ h₁
      · apply h₁
      · rw [onExcept_ok, wp_run_bind]
        apply wp_mono _ (holds_closeDownstream h₁)
        rintro (e | _) s₂ h₂
        · apply h₂
        · obtain ⟨sent, h₂⟩ := h₂
          rw [onExcept_ok, wp_run_pure]
          refine ⟨_, _, h₂, ?_, fun _ => rfl⟩
          simp [hraw, Pending.answered]
  | accept strip =>
      obtain ⟨sender, hsender⟩ := Option.isSome_iff_exists.mp hgiven
      rw [hsender, Option.getD_some] at hverdict
      apply ends_handOn ⟨hraw, hsender, hnamed, hverdict⟩ hsent h
      intro hrefused
      apply hshut hrefused
      rw [Dialogue.refuses, hsender, Option.getD_some, hverdict]

theorem ends_data (h : Seen parseMail mode d isOpen s)
    (hshut : d.refused = true → isOpen = false) (htext : d.pending = .command text) :
  Holds (Ends parseMail mode) (data parseMail mode d.envelope) s
  := by
  rw [data]
  split
  · apply ends_answer h hshut
    rintro envelope ⟨⟩
    rw [htext, Pending.answered, if_neg (by decide)]
  · rename_i hready
    rw [not_or] at hready
    rw [sendLine, Holds, wp_run_bind]
    apply wp_mono _ (holds_answer h)
    rintro (e | _) s₁ h₁
    · apply h₁
    · rw [onExcept_ok, htext, Pending.answered, if_neg (by decide)] at h₁
      rw [onExcept_ok, wp_run_bind]
      apply wp_mono _ (holds_ask .clientMessage (by simp) (by simp) h₁ trivial)
      rintro (e | body) s₂ h₂
      · apply h₂.lawful
      · rw [onExcept_ok]
        cases body with
        | eof =>
            rw [wp_run_pure]
            apply h₂.lawful
        | tooLarge =>
            apply ends_answer h₂ hshut
            rintro envelope ⟨⟩
            rfl
        | message raw =>
            have hgiven : d.envelope.mailFrom.isSome = true := by
              simpa [Option.isSome_iff_ne_none] using hready.1
            have hjudge := ends_judge h₂ rfl rfl hgiven hready.2
            apply hjudge
            intro hrefused hrefuses
            apply hshut
            exact (Bool.or_eq_true_iff.mp hrefused).resolve_right (Bool.eq_false_iff.mp hrefuses)

/-! ### Whole sessions -/

theorem ends_answerCommand (h : Seen parseMail mode d isOpen s)
    (hshut : d.refused = true → isOpen = false) (htext : d.pending = .command text) :
  Holds (Ends parseMail mode) (answerCommand parseMail mode text d.envelope) s
  := by
  have ends_ehlo (hverb : verbOf text = "EHLO" ∨ verbOf text = "HELO") :
      Holds (Ends parseMail mode) (ehlo text d.envelope) s := by
    apply ends_passThrough h hshut htext
    · rcases hverb with hverb | hverb
      · simp [hverb]
      · simp [hverb]
    · intro reply
      split
      · exact ⟨_, rfl⟩
      · exact ⟨_, rfl⟩
  rw [answerCommand]
  split
  · rename_i hverb
    apply ends_ehlo (Or.inl hverb)
  · rename_i hverb
    apply ends_ehlo (Or.inr hverb)
  · rename_i hverb
    apply ends_xforward h hshut htext hverb
  · rename_i hverb
    apply ends_mail h hshut htext hverb
  · rename_i hverb
    apply ends_rcpt h hshut htext hverb
  · apply ends_data h hshut htext
  · rename_i hverb
    apply ends_rset h hshut htext hverb
  · apply ends_quit h
  · rename_i _ _ hxforward hmail hrcpt hdata hrset hquit
    apply ends_passThrough h hshut htext
    · simp only [List.mem_cons, List.not_mem_nil, or_false, not_or]
      exact ⟨hxforward, hmail, hrcpt, hdata, hrset, hquit⟩
    · intro reply
      exact ⟨_, rfl⟩

theorem ends_turn (h : Seen parseMail mode d isOpen s) (hshut : d.refused = true → isOpen = false) :
  Holds (Ends parseMail mode) (turn parseMail mode d.envelope) s
  := by
  rw [turn, Holds, wp_run_bind]
  apply wp_mono _ (holds_ask .clientLine (by simp) (by simp) h trivial)
  rintro (e | line) s₁ h₁
  · apply h₁.lawful
  · rw [onExcept_ok]
    cases line with
    | none =>
        rw [wp_run_pure]
        apply h₁.lawful
    | some line =>
        have hanswer := ends_answerCommand h₁ hshut rfl
        apply hanswer

/-- However long the loop runs, the session is lawful. -/
theorem kept_converseFrom {fuel : Nat} (h : Seen parseMail mode d isOpen s)
    (hshut : d.refused = true → isOpen = false) :
  Holds (Kept parseMail mode) (converseFrom parseMail mode fuel d.envelope) s
  := by
  induction fuel generalizing d isOpen s with
  | zero =>
      rw [converseFrom, Holds, wp_run_pure]
      apply h.lawful
  | succ fuel ih =>
      rw [converseFrom, Holds, wp_run_bind]
      apply wp_mono _ (ends_turn h hshut)
      rintro (e | _ | envelope) s₁ h₁
      · apply h₁
      · rw [onExcept_ok, wp_run_pure]
        apply h₁
      · obtain ⟨d', isOpen', h₁, rfl, hshut'⟩ := h₁
        rw [onExcept_ok]
        apply ih h₁ hshut'

/-- Connecting is not seen by the observer. -/
theorem holds_connect (h : Seen parseMail mode d isOpen s) :
  Holds (fun _ s' => ∃ isOpen', Seen parseMail mode d isOpen' s') connect s
  := by
  obtain ⟨hlawful, rfl, rfl⟩ := h
  apply (wp_run_ask Request.connect _ s).mpr
  intro c _
  refine ⟨_, ?_, ?_, rfl⟩
  · apply (lawful_cons _ _).mpr
    exact ⟨trivial, hlawful⟩
  · rfl

/-- An answer whose failure is ignored. -/
theorem kept_attempt_answer {bytes : Bytes} (h : Seen parseMail mode d isOpen s) :
  Holds (Kept parseMail mode) (attempt (answer bytes) >>= fun _ => pure ()) s
  := by
  rw [Holds, wp_run_bind, wp_run_attempt]
  apply wp_mono _ (holds_answer h)
  rintro (e | _) s₁ h₁
  · rw [onExcept_ok, wp_run_pure]
    apply h₁
  · rw [onExcept_ok, wp_run_pure]
    apply h₁.lawful

/-- However a session goes on after the greetings, it is lawful. -/
theorem kept_afterGreeting {fuel : Nat} (h : Seen parseMail mode d isOpen s) 
    (hrefused : d.refused = false) (hclear : d.envelope = Envelope.clear) :
  Holds (Kept parseMail mode)
    (do
      let _ ← attempt (converse parseMail mode fuel)
      if ← queueIsOpen then
        let _ ← attempt (queueLine "QUIT"))
    s
  := by
  rw [Holds, wp_run_bind, wp_run_attempt, converse, ← hclear]
  apply wp_mono _ (kept_converseFrom h (by simp [hrefused]))
  intro _ s₁ hlawful
  have h₁ : Seen parseMail mode (observe parseMail mode s₁.2) s₁.1.down.isSome s₁ :=
    ⟨hlawful, rfl, rfl⟩
  rw [onExcept_ok, wp_run_bind]
  apply wp_mono _ (holds_queueIsOpen h₁)
  rintro _ s₂ ⟨rfl, h₂⟩
  rw [onExcept_ok]
  split
  · rw [wp_run_bind, wp_run_attempt]
    apply wp_mono _ (holds_queueLine h₂ (Or.inl rfl))
    intro _ s₃ h₃
    rw [onExcept_ok, wp_run_pure]
    apply h₃.lawful
  · rw [wp_run_pure]
    apply h₂.lawful

/-- Whatever the client, the queue and the clock do, every session is lawful. -/
theorem kept_serve {fuel : Nat} {s : Sockets} :
  Holds (Kept parseMail mode) (serve parseMail mode fuel) (s, [])
  := by
  have start : Seen parseMail mode (observe parseMail mode []) s.down.isSome (s, []) :=
    ⟨lawful_nil, rfl, rfl⟩
  rw [serve, Holds, wp_run_bind, wp_run_attempt]
  apply wp_mono _ (holds_connect start)
  rintro (e | _) s₁ ⟨isOpen, h₁⟩
  · apply kept_attempt_answer h₁
  · rw [onExcept_ok]
    simp only
    rw [wp_run_bind, wp_run_attempt]
    apply wp_mono _ (holds_queueReply h₁)
    intro reply s₂ h₂
    rw [onExcept_ok]
    split
    · rw [wp_run_bind, wp_run_attempt]
      apply wp_mono _ (holds_answer h₂)
      rintro (e | _) s₃ h₃
      · rw [onExcept_ok, wp_run_pure]
        apply h₃
      · rw [onExcept_ok]
        apply kept_afterGreeting h₃ rfl rfl
    · apply kept_attempt_answer h₂

/-- Every session keeps to the policy: a message is handed to the queue only when it was
accepted, after the replay of the envelope it was accepted under, and nothing but `QUIT`
follows a refusal. -/
theorem serve_keeps_policy (parseMail : Bytes → Option ParsedMail) (mode : Mode) (fuel : Nat)
    (script : Script sockets.traced) (s : Sockets) :
  Lawful parseMail mode (run sockets.traced script (serve parseMail mode fuel).run (s, [])).2.2
  := wp_run_always kept_serve

/-! ### A bounce address that disagrees with the author -/

/-- An encrypted message by another author than its envelope sender. -/
def bounceMessage : Bytes :=
  asBytes ("From: someone@peer.example\r\n\r\n" ++
    "-----BEGIN PGP MESSAGE-----\r\n\r\nabcd\r\n-----END PGP MESSAGE-----\r\n")

/-- The parser on that message. -/
def parseBounce (raw : Bytes) : Option ParsedMail :=
  if raw = bounceMessage then
    some
      { headers := [("From", "someone@peer.example")]
        bodyRaw := some (asBytes
          "-----BEGIN PGP MESSAGE-----\r\n\r\nabcd\r\n-----END PGP MESSAGE-----\r\n")
        subparts := [] }
  else none

/-- An environment in which every connection and every write succeeds. -/
def steady (down : Bytes) : Script sockets.traced
  | _, .connect => .ok ⟨⟨[], [.ok down]⟩, []⟩
  | _, .answer _ => .all
  | _, .queueLine _ => .all
  | _, .queueMessage _ => .all
  | _, .allow _ => (0 : Nat)
  | _, .clientLine => ()
  | _, .clientMessage => ()
  | _, .queueIsOpen => ()
  | _, .queueReply => ()
  | _, .closeQueue => ()

/-- The session of a peer that submits the message under a bounce address. -/
def bounceSession : Transcript :=
  let up := asBytes "MAIL FROM:<bounce@peer.example>\r\nRCPT TO:<user@relay.example>\r\nDATA\r\n" ++
    bounceMessage ++ asBytes ".\r\nQUIT\r\n"
  let down := asBytes "220 queue\r\n250 Ok\r\n250 Ok\r\n354 Go\r\n250 Queued\r\n"
  let s : Sockets := ⟨⟨⟨[], [.ok up]⟩, []⟩, none, RateLimiter.new 60 10⟩
  (run sockets.traced (steady down) (serve parseBounce .incoming 10).run (s, [])).2.2

/-- Whether the commands before the message that is sent last are others than those of
the envelope that the client gave. -/
def Transcript.alters : Transcript → Bool
  | ⟨.queueMessage _, _⟩ :: earlier =>
      let d := observe parseBounce .incoming earlier
      d.sent != d.envelope.commands
  | _ => false

/-- The queue is not always told the sender that the client gave: the message of the
session is handed on under the null sender. -/
theorem bounceSession_strips_sender :
  ∃ raw answer earlier, ⟨.queueMessage raw, answer⟩ :: earlier <:+ bounceSession ∧
    (observe parseBounce .incoming earlier).sent ≠
      (observe parseBounce .incoming earlier).envelope.commands
  := by
  have halters : bounceSession.tails.any Transcript.alters = true := by decide +kernel
  obtain ⟨log, hlog, halters⟩ := List.any_eq_true.mp halters
  unfold Transcript.alters at halters
  split at halters
  · rename_i raw answer earlier
    use raw, answer, earlier, (List.mem_tails _ _).mp hlog
    simpa using halters
  · cases halters

end Filtermail
