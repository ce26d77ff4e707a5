import Noombat.Filtermail.Policy

/-!
# The author of a submission

A submission is authenticated if its one `From` header names its envelope sender and nobody
else, and if it has a charge of its own against the quota of that sender.  The filter keeps
the account of the charges in every session.  It compares the sender with the first `From`
header only, and not with a header it can read no address out of, and it neither compares nor
charges a null sender.
-/

namespace Filtermail

open Text Session Program Fallible

/-! ### The mailboxes of a header -/

/-- What a reader of an address list is in the middle of; in a quoted string and in a comment a
character may be escaped. -/
inductive Lexeme where
  | phrase
  | quoted (escaped : Bool)
  | comment (depth : Nat) (escaped : Bool)
  | route

/-- What the reader is in the middle of after one more character. -/
def Lexeme.after : Lexeme → Char → Lexeme
  | phrase, c =>
      if c = Char.ofNat 0x22 then quoted false
      else if c = '(' then comment 0 false
      else if c = '<' then route
      else phrase
  | quoted true, _ => quoted false
  | quoted false, c =>
      if c = '\\' then quoted true
      else if c = Char.ofNat 0x22 then phrase
      else quoted false
  | comment depth true, _ => comment depth false
  | comment depth false, c =>
      if c = '\\' then comment depth true
      else if c = '(' then comment (depth + 1) false
      else if c = ')' then if depth = 0 then phrase else comment (depth - 1) false
      else comment depth false
  | route, c => if c = '>' then phrase else route

/-- A mailbox as far as it has been read: what stands outside the angle brackets, without
comments, and what stands in them. -/
structure Mailbox where
  outside : List Char
  inside : Option (List Char)

/-- The address of a mailbox stands in the angle brackets, if there are any. -/
def Mailbox.address (mailbox : Mailbox) : String :=
  trim (String.ofList (mailbox.inside.getD mailbox.outside))

/-- Read a list of mailboxes, separated by commas. -/
def readMailboxes (lexeme : Lexeme) (mailbox : Mailbox) : List Char → List Mailbox
  | [] => [mailbox]
  | c :: cs =>
      let next := lexeme.after c
      match lexeme, next with
      | .phrase, .route => readMailboxes next { mailbox with inside := some [] } cs
      | .phrase, .phrase =>
          if c = ',' then mailbox :: readMailboxes next ⟨[], none⟩ cs
          else readMailboxes next { mailbox with outside := mailbox.outside ++ [c] } cs
      | .phrase, .quoted _ | .quoted _, _ =>
          readMailboxes next { mailbox with outside := mailbox.outside ++ [c] } cs
      | .route, .route =>
          readMailboxes next { mailbox with inside := mailbox.inside.map (· ++ [c]) } cs
      | _, _ => readMailboxes next mailbox cs

/-- The addresses that the value of an address header names. -/
def addressesOf (value : String) : List String :=
  ((readMailboxes .phrase ⟨[], none⟩ value.toList).map Mailbox.address).filter (· ≠ "")

/-- The values of the `From` headers. -/
def ParsedMail.authors (parsed : ParsedMail) : List String :=
  (parsed.headers.filter fun h => eqIgnoreAsciiCase h.1 "from").map Prod.snd

/-- The addresses that the `From` headers name, in lower case. -/
def ParsedMail.authorAddresses (parsed : ParsedMail) : List String :=
  (parsed.authors.flatMap addressesOf).map toAsciiLowercase

/-- The message has one `From` header, and it names the address and no other. -/
def ParsedMail.IsBy (parsed : ParsedMail) (address : String) : Prop :=
  parsed.authors.length = 1 ∧ parsed.authorAddresses = [toAsciiLowercase address]

/-- The message has one `From` header, and it names one address, the one that the filter
reads. -/
def ParsedMail.IsPlain (parsed : ParsedMail) : Prop :=
  parsed.authors.length = 1 ∧
    ∃ address, parsed.authorAddresses = [address] ∧ headerAddress parsed "from" = some address

/-! ### The account of a session -/

/-- What an observer knows about the charges of a session. -/
structure Account where
  /-- The last sender that was charged, if no message has used the charge. -/
  credit : Option String
  /-- The charge that the last message has used. -/
  drawn : Option String
  /-- Whether the last message has been handed on. -/
  handed : Bool

/-- The account after one more exchange. -/
def Account.after (a : Account) : Smtp.Exchange → Account
  | ⟨.allow key, .ok true⟩ => { a with credit := some key }
  | ⟨.clientMessage, .ok (.message _)⟩ => ⟨none, a.credit, false⟩
  | ⟨.queueMessage _, _⟩ => { a with handed := true }
  | _ => a

/-- The account after the exchanges of a transcript. -/
def account : Transcript → Account
  | [] => ⟨none, none, false⟩
  | e :: log => (account log).after e

/-- The charge is one of the sender of the envelope, unless that is null. -/
def Covers (charge : Option String) (envelope : Envelope) : Prop :=
  ∀ sender, envelope.mailFrom = some sender → sender ≠ "" →
    charge = some (toAsciiLowercase sender)

theorem covers_clear (charge : Option String) :
  Covers charge Envelope.clear
  := by
  rintro sender ⟨⟩

section

variable (parseMail : Bytes → Option ParsedMail)

/-- Whenever a message was handed on, its charge was one of its sender, and it was not handed
on before. -/
def Paid (log : Transcript) : Prop :=
  ∀ raw r earlier, ⟨.queueMessage raw, r⟩ :: earlier <:+ log →
    Covers (account earlier).drawn (observe parseMail .outgoing earlier).envelope ∧
      (account earlier).handed = false

/-- The message that was handed on last, after the transcript `earlier`, is by its sender, and
it has a charge of its own against the quota of the sender. -/
def Authenticated (raw : Bytes) (earlier : Transcript) : Prop :=
  ∃ sender parsed, (observe parseMail .outgoing earlier).envelope.mailFrom = some sender ∧
    parseMail raw = some parsed ∧ parsed.IsBy sender ∧
    (account earlier).drawn = some (toAsciiLowercase sender) ∧ (account earlier).handed = false

/-- Every encrypted message of the client comes under a sender that is not null, and is
plain. -/
def Fair (log : Transcript) : Prop :=
  ∀ raw earlier, ⟨.clientMessage, .ok (.message raw)⟩ :: earlier <:+ log →
    ∀ parsed, parseMail raw = some parsed → isEncryptedPart parsed = true →
      (observe parseMail .outgoing earlier).envelope.mailFrom ≠ some "" ∧ parsed.IsPlain

end

variable {parseMail : Bytes → Option ParsedMail} {s : Observed} {text : String} {raw : Bytes}

@[simp]
theorem paid_nil :
  Paid parseMail []
  := by
  intro raw r earlier h
  simp at h

theorem paid_cons (e : Smtp.Exchange) (log : Transcript) :
  Paid parseMail (e :: log) ↔
    (∀ raw, e.request = .queueMessage raw →
      Covers (account log).drawn (observe parseMail .outgoing log).envelope ∧
        (account log).handed = false) ∧
    Paid parseMail log
  := by
  simp only [Paid, List.suffix_cons_iff]
  constructor
  · intro h
    constructor
    · obtain ⟨q, r⟩ := e
      rintro raw rfl
      apply h raw r log (Or.inl rfl)
    · intro raw r earlier h'
      apply h raw r earlier (Or.inr h')
  · rintro ⟨he, hlog⟩ raw r earlier (h | h)
    · obtain ⟨rfl, rfl⟩ := List.cons.inj h
      apply he raw rfl
    · apply hlog raw r earlier h

/-- A request adds one exchange to the transcript. -/
theorem holds_exchange (q : Request) :
  Holds (fun r s' => ∃ sockets', s' = (sockets', ⟨q, r⟩ :: s.2)) (ask q) s
  := by
  apply (wp_run_ask q _ s).mpr
  intro c _
  exact ⟨_, rfl⟩

/-! ### Commands without charges -/

/-- The requests that neither read from the client nor charge it nor hand on a message. -/
def Quiet : Request → Prop
  | .clientLine | .clientMessage | .allow _ | .queueMessage _ => False
  | _ => True

section

variable (parseMail)

/-- All that was handed on is paid, and so is the envelope. -/
structure Settled (s : Observed) : Prop where
  paid : Paid parseMail s.2
  covers : Covers (account s.2).credit (observe parseMail .outgoing s.2).envelope

/-- All is settled, and the client has not just sent `MAIL`. -/
structure Answering (s : Observed) : Prop extends Settled parseMail s where
  other : ∀ text, (observe parseMail .outgoing s.2).pending = .command text → verbOf text ≠ "MAIL"

/-- All that was handed on is paid. -/
def AllPaid {α : Type} (_ : α) (s : Observed) : Prop :=
  Paid parseMail s.2

end

/-- An acknowledged command other than `MAIL` does not change the sender, but may clear it. -/
theorem covers_answered {charge : Option String} {pending : Pending} {bytes : Bytes}
    {envelope : Envelope} (h : Covers charge envelope)
    (hpending : ∀ text, pending = .command text → verbOf text ≠ "MAIL") :
  Covers charge (pending.answered bytes envelope)
  := by
  cases pending with
  | nothing => apply h
  | message raw => apply covers_clear
  | oversized => apply covers_clear
  | command text =>
      have hverb := hpending text rfl
      rw [Pending.answered]
      split
      · split
        · apply h
        · contradiction
        · apply h
        · apply covers_clear
        · apply h
      · apply h

/-- A quiet request leaves the account as it is. -/
theorem account_quiet {q : Request} (hq : Quiet q) (r : Smtp.Answer q) (log : Transcript) :
  account (⟨q, r⟩ :: log) = account log
  := by
  cases q with
  | clientLine => cases hq
  | clientMessage => cases hq
  | allow key => cases hq
  | queueMessage raw => cases hq
  | _ => rfl

theorem paid_quiet {q : Request} (hq : Quiet q) {r : Smtp.Answer q} {log : Transcript}
    (h : Paid parseMail log) :
  Paid parseMail (⟨q, r⟩ :: log)
  := by
  apply (paid_cons _ _).mpr
  constructor
  · rintro raw rfl
    cases hq
  · exact h

/-- What a quiet request does to the dialogue: it answers what is pending, or changes neither
that nor the envelope. -/
theorem observe_quiet {q : Request} (hq : Quiet q) (r : Smtp.Answer q) (log : Transcript) :
  (∃ bytes, q = .answer bytes ∧
    (observe parseMail .outgoing (⟨q, r⟩ :: log)).pending = .nothing ∧
    (observe parseMail .outgoing (⟨q, r⟩ :: log)).envelope =
      (observe parseMail .outgoing log).pending.answered bytes
        (observe parseMail .outgoing log).envelope) ∨
  ((observe parseMail .outgoing (⟨q, r⟩ :: log)).pending =
      (observe parseMail .outgoing log).pending ∧
    (observe parseMail .outgoing (⟨q, r⟩ :: log)).envelope =
      (observe parseMail .outgoing log).envelope)
  := by
  cases q with
  | clientLine => cases hq
  | clientMessage => cases hq
  | allow key => cases hq
  | queueMessage raw => cases hq
  | answer bytes =>
      cases r with
      | error e => exact Or.inr ⟨rfl, rfl⟩
      | ok u => exact Or.inl ⟨bytes, rfl, rfl, rfl⟩
  | _ => exact Or.inr ⟨rfl, rfl⟩

/-- A program of quiet requests leaves all settled, if the client has not just sent `MAIL`. -/
theorem answering_quiet {α : Type} {p : Session α} (hp : Every Quiet p.run)
    (h : Answering parseMail s) :
  Holds (fun _ => Answering parseMail) p s
  := by
  apply Every.wp_inv (Answering parseMail) _ hp h
  rintro q hq c ⟨s, log⟩ - ⟨⟨hpaid, hcovers⟩, hother⟩
  obtain ⟨r, hr⟩ : ∃ r, r = (q.exec c s).1 := ⟨_, rfl⟩
  change Answering parseMail ((q.exec c s).2, ⟨q, (q.exec c s).1⟩ :: log)
  rw [← hr]
  have haccount := account_quiet hq r log
  rcases observe_quiet hq r log with
    ⟨bytes, -, hnothing, henvelope⟩ | ⟨hsame, henvelope⟩
  · refine ⟨⟨paid_quiet hq hpaid, ?_⟩, ?_⟩
    · rw [haccount, henvelope]
      apply covers_answered hcovers hother
    · intro text htext
      rw [hnothing] at htext
      cases htext
  · refine ⟨⟨paid_quiet hq hpaid, ?_⟩, ?_⟩
    · rw [haccount, henvelope]
      exact hcovers
    · rw [hsame]
      exact hother

section

variable (parseMail)

/-- How a turn ends: if the session goes on, then with all settled. -/
def Turned : Except IoError Next → Observed → Prop
  | .ok (some _), s => Settled parseMail s
  | _, s => Paid parseMail s.2

end

theorem Settled.answering (h : Settled parseMail s)
    (hpending : (observe parseMail .outgoing s.2).pending = .command text)
    (hverb : verbOf text ≠ "MAIL") :
  Answering parseMail s
  := by
  refine ⟨h, ?_⟩
  intro text' htext'
  rw [hpending] at htext'
  cases htext'
  exact hverb

theorem Settled.turned (h : Settled parseMail s) (r : Except IoError Next) :
  Turned parseMail r s
  := by
  unfold Turned
  split
  · apply h
  · apply h.paid

theorem turned_quiet {p : Session Next} (hp : Every Quiet p.run) (h : Answering parseMail s) :
  Holds (Turned parseMail) p s
  := by
  apply wp_mono _ (answering_quiet hp h)
  intro r s' h'
  apply h'.turned

theorem every_answer (bytes : Bytes) :
  Every Quiet (answer bytes).run
  := (every_run_ask (Request.answer bytes)).mpr trivial

theorem every_queueLine (line : String) :
  Every Quiet (queueLine line).run
  := (every_run_ask (Request.queueLine line)).mpr trivial

theorem every_queueReply :
  Every Quiet queueReply.run
  := (every_run_ask Request.queueReply).mpr trivial

theorem every_queueIsOpen :
  Every Quiet queueIsOpen.run
  := (every_run_ask Request.queueIsOpen).mpr trivial

/-- An answer after which the turn ends is quiet. -/
theorem every_answered {α : Type} (bytes : Bytes) (a : α) :
  Every Quiet (answer bytes >>= fun _ => (pure a : Session α)).run
  := by
  apply every_run_bind (every_answer bytes)
  intro _
  apply every_run_pure

theorem every_closeDownstream :
  Every Quiet closeDownstream.run
  := by
  apply every_run_bind every_queueIsOpen
  intro isOpen
  cases isOpen with
  | false => apply every_run_pure
  | true =>
      apply every_run_bind (every_run_attempt (every_queueLine _))
      intro _
      exact (every_run_ask Request.closeQueue).mpr trivial

theorem every_passThrough {answered : Reply → Session Unit} {envelope : Envelope}
    (hanswer : ∀ reply, Every Quiet (answered reply).run) :
  Every Quiet (passThrough text envelope answered).run
  := by
  apply every_run_bind every_queueIsOpen
  intro isOpen
  cases isOpen with
  | false => apply every_answered
  | true =>
      apply every_run_bind (every_queueLine text)
      intro _
      apply every_run_bind every_queueReply
      intro reply
      apply every_run_bind (hanswer reply)
      intro _
      apply every_run_pure

theorem every_ehlo {envelope : Envelope} :
  Every Quiet (ehlo text envelope).run
  := by
  apply every_passThrough
  intro reply
  split
  · apply every_answer
  · apply every_answer

theorem every_rcpt {envelope : Envelope} :
  Every Quiet (rcpt text envelope).run
  := by
  rw [rcpt]
  split
  · apply every_answered
  · apply every_answered

theorem every_quit :
  Every Quiet quit.run
  := by
  apply every_run_bind every_closeDownstream
  intro _
  apply every_run_bind (every_run_attempt (every_answer _))
  intro _
  apply every_run_pure

/-! ### The sender -/

/-- What an answer to the client does, whatever was pending. -/
theorem answering_answer {bytes : Bytes} (hpaid : Paid parseMail s.2)
    (hcovers : Covers (account s.2).credit
      ((observe parseMail .outgoing s.2).pending.answered bytes
        (observe parseMail .outgoing s.2).envelope)) :
  Holds
    (onExcept (fun _ => Answering parseMail) (AllPaid parseMail)) (answer bytes) s
  := by
  have hquiet : Quiet (.answer bytes) := trivial
  apply wp_mono _ (holds_exchange (.answer bytes))
  rintro (e | _) _ ⟨sockets', rfl⟩
  · apply paid_quiet hquiet hpaid
  · refine ⟨⟨?_, ?_⟩, ?_⟩
    · apply paid_quiet hquiet hpaid
    · exact hcovers
    · rintro text ⟨⟩

theorem turned_answered {bytes : Bytes} {next : Next} (hpaid : Paid parseMail s.2)
    (hcovers : Covers (account s.2).credit
      ((observe parseMail .outgoing s.2).pending.answered bytes
        (observe parseMail .outgoing s.2).envelope)) :
  Holds (Turned parseMail) (answer bytes >>= fun _ => pure next) s
  := by
  rw [Holds, wp_run_bind]
  apply wp_mono _ (answering_answer hpaid hcovers)
  rintro (e | _) s₁ h₁
  · apply h₁
  · rw [onExcept_ok, wp_run_pure]
    apply h₁.turned

/-- A sender is acknowledged only after it was charged. -/
theorem turned_mail {envelope : Envelope} (h : Settled parseMail s)
    (hpending : (observe parseMail .outgoing s.2).pending = .command text)
    (hverb : verbOf text = "MAIL") :
  Holds (Turned parseMail) (mail .outgoing text envelope) s
  := by
  rw [mail, Holds, wp_run_bind, withinQuota]
  split
  · apply wp_mono _ (holds_exchange (.allow _))
    rintro (e | allowed) _ ⟨sockets', rfl⟩
    · apply (paid_cons _ _).mpr
      exact ⟨by rintro raw ⟨⟩, h.paid⟩
    · have hpaid : Paid parseMail
          (⟨.allow (toAsciiLowercase (addressOf text)), .ok allowed⟩ :: s.2) := by
        apply (paid_cons _ _).mpr
        exact ⟨by rintro raw ⟨⟩, h.paid⟩
      rw [onExcept_ok]
      cases allowed with
      | true =>
          rw [if_pos rfl]
          apply turned_answered hpaid
          change Covers _ ((observe parseMail .outgoing s.2).pending.answered _ _)
          rw [hpending, Pending.answered, if_pos (by rfl), hverb]
          rintro sender ⟨⟩ _
          rfl
      | false =>
          rw [if_neg (by simp)]
          apply turned_answered hpaid
          change Covers _ ((observe parseMail .outgoing s.2).pending.answered _ _)
          rw [hpending, Pending.answered, if_neg (by decide)]
          exact h.covers
  · rename_i hnull
    rw [wp_run_pure, onExcept_ok, if_pos rfl]
    apply turned_answered h.paid
    rw [hpending, Pending.answered, if_pos (by rfl), hverb]
    rintro sender ⟨⟩ hne
    exact absurd ⟨rfl, hne⟩ hnull

/-! ### Messages -/

/-- The quiet requests other than answers. -/
def Silent : Request → Prop
  | .answer _ => False
  | q => Quiet q

section

variable (parseMail)

/-- Two states between which nothing was given to the client, charged or handed on. -/
structure Alike (s s' : Observed) : Prop where
  paid : Paid parseMail s.2 → Paid parseMail s'.2
  account : account s'.2 = account s.2
  pending : (observe parseMail .outgoing s'.2).pending = (observe parseMail .outgoing s.2).pending
  envelope : (observe parseMail .outgoing s'.2).envelope = (observe parseMail .outgoing s.2).envelope

/-- A message has come and is not answered. -/
structure Held (raw : Bytes) (s : Observed) : Prop where
  paid : Paid parseMail s.2
  pending : (observe parseMail .outgoing s.2).pending = .message raw

/-- A message has come, for which its sender was charged, and is not handed on. -/
structure Drawn (raw : Bytes) (s : Observed) : Prop extends Held parseMail raw s where
  covers : Covers (account s.2).drawn (observe parseMail .outgoing s.2).envelope
  handed : (account s.2).handed = false

end

theorem Silent.quiet {q : Request} (hq : Silent q) :
  Quiet q
  := by
  cases q with
  | answer bytes => cases hq
  | _ => exact hq

theorem alike_silent (parseMail : Bytes → Option ParsedMail) {α : Type} {p : Session α}
    (hp : Every Silent p.run) (s : Observed) :
  Holds (fun _ => Alike parseMail s) p s
  := by
  apply Every.wp_rel _ _ _ hp
  · intro s
    exact ⟨id, rfl, rfl, rfl⟩
  · intro s s' s'' h h'
    exact ⟨h'.paid ∘ h.paid, h'.account.trans h.account, h'.pending.trans h.pending,
      h'.envelope.trans h.envelope⟩
  · rintro q hq c ⟨s, log⟩ -
    obtain ⟨r, hr⟩ : ∃ r, r = (q.exec c s).1 := ⟨_, rfl⟩
    change Alike parseMail (s, log) ((q.exec c s).2, ⟨q, (q.exec c s).1⟩ :: log)
    rw [← hr]
    rcases observe_quiet hq.quiet r log with
      ⟨bytes, rfl, -, -⟩ | ⟨hpending, henvelope⟩
    · cases hq
    · exact ⟨paid_quiet hq.quiet, account_quiet hq.quiet r log, hpending, henvelope⟩

theorem Held.alike {s' : Observed} (h : Held parseMail raw s) (h' : Alike parseMail s s') :
  Held parseMail raw s'
  := ⟨h'.paid h.paid, h'.pending.trans h.pending⟩

theorem Drawn.alike {s' : Observed} (h : Drawn parseMail raw s) (h' : Alike parseMail s s') :
  Drawn parseMail raw s'
  := by
  constructor
  · apply h.toHeld.alike h'
  · rw [h'.account, h'.envelope]
    exact h.covers
  · rw [h'.account]
    exact h.handed

theorem every_command (line what : String) (code : Nat) :
  Every Silent (command line code what).run
  := by
  apply every_run_bind ((every_run_ask (Request.queueLine line)).mpr trivial)
  intro _
  apply every_run_bind ((every_run_ask Request.queueReply).mpr trivial)
  intro reply
  split
  · apply every_run_throw
  · apply every_run_pure

/-- The replay of an envelope hands nothing on. -/
theorem every_replay (envelope : Envelope) :
  Every Silent (do
    forM envelope.xforward fun line => command line 250 "XFORWARD"
    command ("MAIL FROM:<" ++ envelope.mailFrom.getD "" ++ ">") 250 "MAIL FROM"
    forM envelope.recipients fun recipient =>
      command ("RCPT TO:<" ++ recipient ++ ">") 250 "RCPT TO"
    command "DATA" 354 "DATA").run
  := by
  apply every_run_bind (every_run_forM fun _ _ => every_command _ _ _)
  intro _
  apply every_run_bind (every_command _ _ _)
  intro _
  apply every_run_bind (every_run_forM fun _ _ => every_command _ _ _)
  intro _
  apply every_command

/-- To deliver is to replay the envelope and to hand on the message. -/
theorem deliver_eq (envelope : Envelope) (raw : Bytes) :
  deliver envelope raw = (do
    forM envelope.xforward fun line => command line 250 "XFORWARD"
    command ("MAIL FROM:<" ++ envelope.mailFrom.getD "" ++ ">") 250 "MAIL FROM"
    forM envelope.recipients fun recipient =>
      command ("RCPT TO:<" ++ recipient ++ ">") 250 "RCPT TO"
    command "DATA" 354 "DATA") >>= fun _ => queueMessage raw >>= fun _ => queueReply
  := by
  simp only [deliver, LawfulMonad.bind_assoc]

/-- A message is handed on at most once, and with its charge. -/
theorem held_deliver {envelope : Envelope} (h : Drawn parseMail raw s) :
  Holds (fun _ => Held parseMail raw) (deliver envelope raw) s
  := by
  rw [deliver_eq, Holds, wp_run_bind]
  apply wp_mono _ (alike_silent parseMail (every_replay envelope) s)
  rintro (e | _) s₁ h₁
  · apply h.toHeld.alike h₁
  · have hdrawn := h.alike h₁
    rw [onExcept_ok, wp_run_bind]
    apply wp_mono _ (holds_exchange (.queueMessage raw))
    have hheld : ∀ sockets' r, Held parseMail raw (sockets', ⟨.queueMessage raw, r⟩ :: s₁.2) := by
      intro sockets' r
      constructor
      · apply (paid_cons _ _).mpr
        exact ⟨fun _ _ => ⟨hdrawn.covers, hdrawn.handed⟩, hdrawn.paid⟩
      · exact hdrawn.pending
    rintro (e | _) _ ⟨sockets', rfl⟩
    · apply hheld
    · rw [onExcept_ok]
      apply wp_mono _ (alike_silent parseMail
        ((every_run_ask Request.queueReply).mpr trivial) _)
      intro _ s₂ h₂
      apply (hheld _ _).alike h₂

/-- The answer to a message settles all. -/
theorem turned_answer {bytes : Bytes} {next : Next} (h : Held parseMail raw s) :
  Holds (Turned parseMail) (answer bytes >>= fun _ => pure next) s
  := by
  apply turned_answered h.paid
  rw [h.pending]
  apply covers_clear

theorem turned_handOn {envelope : Envelope} (h : Drawn parseMail raw s) :
  Holds (Turned parseMail) (handOn envelope raw) s
  := by
  rw [handOn, Holds, wp_run_bind]
  apply wp_mono _ (alike_silent parseMail
    ((every_run_ask Request.queueIsOpen).mpr trivial) s)
  rintro (e | isOpen) s₁ h₁
  · apply (h.alike h₁).paid
  · rw [onExcept_ok]
    cases isOpen with
    | false => apply turned_answer (h.alike h₁).toHeld
    | true =>
        rw [if_pos rfl, wp_run_bind, wp_run_attempt]
        apply wp_mono _ (held_deliver (h.alike h₁))
        rintro (e | reply) s₂ h₂
        · simp only [onExcept_ok]
          split
          · rw [wp_run_throw]
            apply h₂.paid
          · apply turned_answer h₂
        · apply turned_answer h₂

theorem turned_judge {envelope : Envelope} (h : Drawn parseMail raw s) :
  Holds (Turned parseMail) (judge parseMail .outgoing envelope raw) s
  := by
  rw [judge]
  split
  · rename_i reply _
    have hcovers : Covers (account s.2).credit
        ((observe parseMail .outgoing s.2).pending.answered (asBytes reply ++ asBytes "\r\n")
          (observe parseMail .outgoing s.2).envelope) := by
      rw [h.pending]
      apply covers_clear
    rw [Holds, sendLine, wp_run_bind]
    apply wp_mono _ (answering_answer h.paid hcovers)
    rintro (e | _) s₁ h₁
    · apply h₁
    · rw [onExcept_ok]
      apply turned_quiet _ h₁
      apply every_run_bind every_closeDownstream
      intro _
      apply every_run_pure
  · apply turned_handOn h

/-- A message that comes under a settled envelope is charged to its sender. -/
theorem turned_data {envelope : Envelope} (h : Settled parseMail s)
    (hpending : (observe parseMail .outgoing s.2).pending = .command text)
    (hverb : verbOf text ≠ "MAIL") :
  Holds (Turned parseMail) (data parseMail .outgoing envelope) s
  := by
  have hanswering := h.answering hpending hverb
  rw [data]
  split
  · apply turned_quiet (every_answered _ _) hanswering
  · rw [Holds, sendLine, wp_run_bind]
    apply wp_mono _ (answering_answer h.paid (covers_answered h.covers hanswering.other))
    rintro (e | _) s₁ h₁
    · apply h₁
    · have hpaid : ∀ r : Smtp.Answer .clientMessage,
          Paid parseMail (⟨.clientMessage, r⟩ :: s₁.2) := by
        intro r
        apply (paid_cons _ _).mpr
        exact ⟨by rintro raw ⟨⟩, h₁.paid⟩
      rw [onExcept_ok, wp_run_bind]
      apply wp_mono _ (holds_exchange .clientMessage)
      rintro (e | body) _ ⟨sockets', rfl⟩
      · apply hpaid
      · rw [onExcept_ok]
        cases body with
        | eof =>
            rw [wp_run_pure]
            apply hpaid
        | tooLarge =>
            apply turned_answered (hpaid _)
            apply covers_clear
        | message raw =>
            apply turned_judge
            constructor
            · constructor
              · apply hpaid
              · rfl
            · exact h₁.covers
            · rfl

/-! ### Whole sessions -/

theorem turned_answerCommand {envelope : Envelope} (h : Settled parseMail s)
    (hpending : (observe parseMail .outgoing s.2).pending = .command text) :
  Holds (Turned parseMail) (answerCommand parseMail .outgoing text envelope) s
  := by
  have quiet {p : Session Next} (hp : Every Quiet p.run) (hverb : verbOf text ≠ "MAIL") :
      Holds (Turned parseMail) p s := by
    apply turned_quiet hp (h.answering hpending hverb)
  rw [answerCommand]
  split
  · rename_i hverb
    apply quiet every_ehlo
    simp [hverb]
  · rename_i hverb
    apply quiet every_ehlo
    simp [hverb]
  · rename_i hverb
    apply quiet (every_answered _ _)
    simp [hverb]
  · rename_i hverb
    apply turned_mail h hpending hverb
  · rename_i hverb
    apply quiet every_rcpt
    simp [hverb]
  · rename_i hverb
    apply turned_data h hpending
    simp [hverb]
  · rename_i hverb
    apply quiet (every_answered _ _)
    simp [hverb]
  · rename_i hverb
    apply quiet every_quit
    simp [hverb]
  · rename_i hmail _ _ _ _
    apply quiet (every_passThrough fun reply => every_answer reply.raw)
    exact hmail

theorem turned_turn {envelope : Envelope} (h : Settled parseMail s) :
  Holds (Turned parseMail) (turn parseMail .outgoing envelope) s
  := by
  rw [turn, Holds, wp_run_bind]
  apply wp_mono _ (holds_exchange .clientLine)
  have hpaid : ∀ r : Smtp.Answer .clientLine, Paid parseMail (⟨.clientLine, r⟩ :: s.2) := by
    intro r
    apply (paid_cons _ _).mpr
    exact ⟨by rintro raw ⟨⟩, h.paid⟩
  rintro (e | line) _ ⟨sockets', rfl⟩
  · apply hpaid
  · rw [onExcept_ok]
    cases line with
    | none =>
        rw [wp_run_pure]
        apply hpaid
    | some line =>
        have hsettled : Settled parseMail
            (sockets', ⟨.clientLine, .ok (some line)⟩ :: s.2) := ⟨hpaid _, h.covers⟩
        have hanswer := @turned_answerCommand parseMail _ (textOf line) envelope hsettled rfl
        apply hanswer

/-- However long the loop runs, all that is handed on is paid. -/
theorem paid_converseFrom {fuel : Nat} {envelope : Envelope} (h : Settled parseMail s) :
  Holds (AllPaid parseMail) (converseFrom parseMail .outgoing fuel envelope) s
  := by
  induction fuel generalizing envelope s with
  | zero =>
      rw [converseFrom, Holds, wp_run_pure]
      apply h.paid
  | succ fuel ih =>
      rw [converseFrom, Holds, wp_run_bind]
      apply wp_mono _ (turned_turn h)
      rintro (e | _ | envelope) s₁ h₁
      · apply h₁
      · rw [onExcept_ok, wp_run_pure]
        apply h₁
      · rw [onExcept_ok]
        apply ih h₁

/-- Programs of quiet requests keep all that was handed on paid. -/
theorem paid_quietly {α : Type} {p : Session α} (hp : Every Quiet p.run)
    (h : Paid parseMail s.2) :
  Holds (AllPaid parseMail) p s
  := by
  apply Every.wp_inv (fun s' : Observed => Paid parseMail s'.2) _ hp h
  rintro q hq c ⟨s, log⟩ - hlog
  apply paid_quiet hq hlog

theorem paid_afterGreeting {fuel : Nat} (h : Settled parseMail s) :
  Holds (AllPaid parseMail)
    (do
      let _ ← attempt (converse parseMail .outgoing fuel)
      if ← queueIsOpen then
        let _ ← attempt (queueLine "QUIT"))
    s
  := by
  rw [Holds, wp_run_bind, wp_run_attempt]
  apply wp_mono _ (paid_converseFrom h)
  intro _ s₁ h₁
  rw [onExcept_ok]
  apply paid_quietly _ h₁
  apply every_run_bind every_queueIsOpen
  intro isOpen
  split
  · apply every_run_bind (every_run_attempt (every_queueLine _))
    intro _
    apply every_run_pure
  · apply every_run_pure

/-- Whatever the client, the queue and the clock do, all that is handed on is paid. -/
theorem paid_serve {fuel : Nat} {s : Sockets} :
  Holds (AllPaid parseMail) (serve parseMail .outgoing fuel) (s, [])
  := by
  have start : Answering parseMail (s, []) :=
    ⟨⟨paid_nil, covers_clear _⟩, by rintro text ⟨⟩⟩
  have every_told (bytes : Bytes) : Every Quiet
      (attempt (answer bytes) >>= fun _ => (pure () : Session Unit)).run := by
    apply every_run_bind (every_run_attempt (every_answer bytes))
    intro _
    apply every_run_pure
  rw [serve, Holds, wp_run_bind, wp_run_attempt]
  apply wp_mono _ (answering_quiet ((every_run_ask Request.connect).mpr trivial) start)
  rintro (e | _) s₁ h₁
  · apply paid_quietly (every_told _) h₁.paid
  · rw [onExcept_ok]
    simp only
    rw [wp_run_bind, wp_run_attempt]
    apply wp_mono _ (answering_quiet every_queueReply h₁)
    intro reply s₂ h₂
    rw [onExcept_ok]
    split
    · rw [wp_run_bind, wp_run_attempt]
      apply wp_mono _ (answering_quiet (every_answer _) h₂)
      rintro (e | _) s₃ h₃
      · rw [onExcept_ok, wp_run_pure]
        apply h₃.paid
      · rw [onExcept_ok]
        apply paid_afterGreeting h₃.toSettled
    · apply paid_quietly (every_told _) h₂.paid

/-! ### The author -/

/-- A message is pending after an exchange only if the client has just sent it, or it was
pending before; the envelope is then as it was. -/
theorem after_message {d : Dialogue} {e : Smtp.Exchange} :
  (d.after parseMail .outgoing e).pending = .message raw →
  (e = ⟨.clientMessage, .ok (.message raw)⟩ ∨ d.pending = .message raw) ∧
    (d.after parseMail .outgoing e).envelope = d.envelope
  := by
  unfold Dialogue.after
  split
  · rintro ⟨⟩
  · rintro ⟨⟩
    exact ⟨Or.inl rfl, rfl⟩
  · rintro ⟨⟩
  · rintro ⟨⟩
  · intro h
    exact ⟨Or.inr h, rfl⟩
  · intro h
    exact ⟨Or.inr h, rfl⟩

/-- A message that is pending has come from the client under the envelope that the observer
still sees. -/
theorem exists_of_pending {log : Transcript} :
  (observe parseMail .outgoing log).pending = .message raw →
  ∃ earlier, ⟨.clientMessage, .ok (.message raw)⟩ :: earlier <:+ log ∧
    (observe parseMail .outgoing earlier).envelope = (observe parseMail .outgoing log).envelope
  := by
  induction log with
  | nil => rintro ⟨⟩
  | cons e log ih =>
      intro h
      obtain ⟨rfl | hpending, henvelope⟩ := after_message h
      · use log, List.suffix_rfl
        exact henvelope.symm
      · obtain ⟨earlier, hsuffix, hearlier⟩ := ih hpending
        use earlier, hsuffix.trans (List.suffix_cons e log)
        exact hearlier.trans henvelope.symm

/-- A message that is accepted from a user of this instance is encrypted, and no address that
the filter reads out of its first `From` header disagrees with a sender. -/
theorem inspect_outgoing_agrees {sender : String} {strip : Bool}
    (h : inspect parseMail .outgoing raw sender = .accept strip) :
  ∃ parsed, parseMail raw = some parsed ∧ isEncryptedPart parsed = true ∧
    (toAsciiLowercase sender ≠ "" → ∀ address, headerAddress parsed "from" = some address →
      toAsciiLowercase address = toAsciiLowercase sender)
  := by
  rw [inspect] at h
  split at h
  · cases h
  · rename_i parsed hparsed
    split at h
    · cases h
    · rename_i hencrypted
      simp only at h
      split at h
      · cases h
      · rename_i hagrees
        refine ⟨parsed, hparsed, by simpa using hencrypted, ?_⟩
        intro hne address haddress
        simpa [hne, haddress] using hagrees

theorem toLower_idem (c : Char) :
  c.toLower.toLower = c.toLower
  := by
  unfold Char.toLower
  split
  · rename_i hupper
    rw [dif_neg]
    rintro ⟨-, h⟩
    have hlow : 65 ≤ c.val.toNat := hupper.1
    have hhigh : c.val.toNat ≤ 90 := hupper.2
    have hlowered : (c.val + ('a'.val - 'A'.val)).toNat ≤ 90 := h
    have hsum : (c.val + ('a'.val - 'A'.val)).toNat = (c.val.toNat + 32) % 2 ^ 32 := rfl
    omega
  · rfl

theorem toAsciiLowercase_idem (s : String) :
  toAsciiLowercase (toAsciiLowercase s) = toAsciiLowercase s
  := by
  simp only [toAsciiLowercase, Text.map, String.toList_ofList, List.map_map]
  congr 2
  funext c
  apply toLower_idem

theorem toAsciiLowercase_ne_empty {s : String} (h : s ≠ "") :
  toAsciiLowercase s ≠ ""
  := by
  intro hlower
  apply h
  apply String.toList_inj.mp
  have := congrArg String.toList hlower
  simpa [toAsciiLowercase, Text.map] using this

/-- A plain message that does not disagree with its sender is by its sender. -/
theorem ParsedMail.IsPlain.isBy {parsed : ParsedMail} {sender : String} (h : parsed.IsPlain)
    (hagrees : ∀ address, headerAddress parsed "from" = some address →
      toAsciiLowercase address = toAsciiLowercase sender) :
  parsed.IsBy sender
  := by
  obtain ⟨hone, address, hnamed, haddress⟩ := h
  have hlower : toAsciiLowercase address = address := by
    have hmem : address ∈ parsed.authorAddresses := by simp [hnamed]
    obtain ⟨value, -, rfl⟩ := List.mem_map.mp hmem
    apply toAsciiLowercase_idem
  refine ⟨hone, ?_⟩
  rw [hnamed, ← hagrees address haddress, hlower]

/-- A setup message with the given `From` headers. -/
def submission (authors : List String) : Bytes :=
  (authors.flatMap fun author => asBytes "From: " ++ asBytes author ++ asBytes "\r\n") ++
    asBytes "Content-Type: application/autocrypt-setup\r\n\r\nx\r\n"

/-- The parser on that message. -/
def parseSubmission (authors : List String) (raw : Bytes) : Option ParsedMail :=
  if raw = submission authors then
    some
      { headers := (authors.map fun author => ("From", author)) ++
          [("Content-Type", "application/autocrypt-setup")]
        bodyRaw := some (asBytes "x\r\n")
        subparts := [] }
  else none

/-- The wires of a user of this instance who submits the message. -/
def submitting (authors : List String) : Sockets :=
  let up := asBytes
      "MAIL FROM:<Eve@a.example>\r\nRCPT TO:<u@b.example>\r\nDATA\r\n" ++
    submission authors ++ asBytes ".\r\nQUIT\r\n"
  ⟨⟨⟨[], [.ok up]⟩, []⟩, none, RateLimiter.new 60 10⟩

/-- A queue that takes every message. -/
def queueing : Bytes :=
  asBytes "220 queue\r\n250 Ok\r\n250 Ok\r\n354 Go\r\n250 Ok\r\n"

/-- The session of the user. -/
def submissionSession (authors : List String) : Transcript :=
  (run sockets.traced (steady queueing)
    (serve (parseSubmission authors) .outgoing 10).run (submitting authors, [])).2.2

/-- Whether the last exchange hands on a message, charged to the user. -/
def Transcript.handsOn : Transcript → Bool
  | ⟨.queueMessage _, _⟩ :: earlier => (account earlier).drawn == some "eve@a.example"
  | _ => false

/-- Whether the last exchange is a message under a null sender. -/
def Transcript.nullSender (parseMail : Bytes → Option ParsedMail) : Transcript → Bool
  | ⟨.clientMessage, .ok (.message _)⟩ :: earlier =>
      (observe parseMail .outgoing earlier).envelope.mailFrom == some ""
  | _ => false

theorem exists_handed_of_any {log : Transcript} (h : log.tails.any Transcript.handsOn = true) :
  ∃ raw r earlier, ⟨.queueMessage raw, r⟩ :: earlier <:+ log
  := by
  obtain ⟨tail, htail, hhands⟩ := List.any_eq_true.mp h
  unfold Transcript.handsOn at hhands
  split at hhands
  · rename_i raw r earlier
    exact ⟨raw, r, earlier, (List.mem_tails _ _).mp htail⟩
  · cases hhands

/-- What the parser makes of the message. -/
theorem parseSubmission_headers {authors : List String} {raw : Bytes} {parsed : ParsedMail}
    (h : parseSubmission authors raw = some parsed) :
  parsed.headers = (authors.map fun author => ("From", author)) ++
    [("Content-Type", "application/autocrypt-setup")]
  := by
  unfold parseSubmission at h
  split at h
  · cases h
    rfl
  · cases h

/-- The message of the user names the user in other letters, and nobody else. -/
theorem plain_submission {raw : Bytes} {parsed : ParsedMail}
    (h : parseSubmission ["Eve <eve@A.example>"] raw = some parsed) :
  parsed.IsPlain
  := by
  have hauthors : parsed.authors = ["Eve <eve@A.example>"] := by
    rw [ParsedMail.authors, parseSubmission_headers h]
    decide +kernel
  refine ⟨by simp [hauthors], "eve@a.example", ?_, ?_⟩
  · rw [ParsedMail.authorAddresses, hauthors]
    decide +kernel
  · rw [headerAddress, ParsedMail.header, parseSubmission_headers h]
    decide +kernel

end Filtermail
