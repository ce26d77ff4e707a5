import Noombat.Program.Fallible
import Noombat.Filtermail.Inspect

/-!
# The session loop of the filter

The filter talks to a client and to the queue behind it.  A session is a program whose
requests are the reads and writes on the two wires and the queries of the rate limiter;
the world of a session is the state of the wires and of the limiter.
-/

namespace Filtermail

open Text

/-! ### The rate limiter -/

/-- Senders tracked before the rate limiter prunes what has expired. -/
def RATE_KEYS_BEFORE_PRUNE : Nat := 10000

/-- Per-sender submission limit, as a GCRA bucket.  Durations and instants are in
nanoseconds. -/
structure RateLimiter where
  interval : Nat
  tolerance : Nat
  /-- Sender to theoretical arrival time. -/
  state : List (String × Nat)

namespace RateLimiter

def new (perMinute burst : Nat) : RateLimiter :=
  let interval := 60000000000 / max perMinute 1
  { interval, tolerance := interval * (max burst 1 - 1), state := [] }

/-- Whether `key` may send now, recording the send if so. -/
def allow (limiter : RateLimiter) (key : String) (now : Nat) : Bool × RateLimiter :=
  let state :=
    if RATE_KEYS_BEFORE_PRUNE < limiter.state.length then
      limiter.state.filter fun entry => now < entry.2
    else limiter.state
  let tat := (state.lookup key).getD now
  if now + limiter.tolerance < tat then (false, { limiter with state })
  else
    let state := (key, max tat now + limiter.interval) ::
      state.filter fun entry => entry.1 != key
    (true, { limiter with state })

end RateLimiter

/-! ### The interface of a session -/

inductive Request where
  /-- Connect to the queue. -/
  | connect
  | clientLine
  | clientMessage
  /-- Send bytes to the client. -/
  | answer (bytes : Bytes)
  /-- Whether there still is a connection to the queue. -/
  | queueIsOpen
  | queueLine (line : String)
  | queueMessage (message : Bytes)
  | queueReply
  /-- Drop the connection to the queue. -/
  | closeQueue
  /-- Ask the rate limiter. -/
  | allow (key : String)

abbrev Request.Result : Request → Type
  | clientLine => Option Bytes
  | clientMessage => Body
  | queueIsOpen | allow _ => Bool
  | queueReply => Reply
  | _ => Unit

abbrev Smtp : Interface :=
  Interface.fallible IoError Request Request.Result

abbrev Session (α : Type) : Type :=
  Fallible Smtp IoError α

/-- The two connections of a session and the rate limiter. -/
structure Sockets where
  up : Wire
  down : Option Wire
  limiter : RateLimiter

namespace Sockets

/-- Use the connection to the queue. -/
def withDown {α : Type} (s : Sockets) (f : Wire → Except IoError α × Wire) :
    Except IoError α × Sockets :=
  match s.down with
  | none => (.error ⟨.other, "not connected"⟩, s)
  | some down => ((f down).1, { s with down := some (f down).2 })

/-- Use the connection to the client. -/
def withUp {α : Type} (s : Sockets) (f : Wire → Except IoError α × Wire) :
    Except IoError α × Sockets :=
  ((f s.up).1, { s with up := (f s.up).2 })

end Sockets

/-- The environment chooses what connecting gives, how writes go, and the time. -/
abbrev Request.Choice : Request → Type
  | connect => Except IoError Wire
  | answer _ | queueLine _ | queueMessage _ => Writes
  | allow _ => Nat
  | _ => Unit

def Request.exec : (q : Request) → q.Choice → Sockets → Except IoError q.Result × Sockets
  | connect, .ok down, s => (.ok (), { s with down := some down })
  | connect, .error e, s => (.error e, s)
  | clientLine, _, s => s.withUp Wire.line
  | clientMessage, _, s => s.withUp Wire.readMessage
  | answer bytes, writes, s => s.withUp (Wire.sendRaw bytes writes)
  | queueIsOpen, _, s => (.ok s.down.isSome, s)
  | queueLine line, writes, s => s.withDown (Wire.sendLine line writes)
  | queueMessage message, writes, s => s.withDown (Wire.sendMessage message writes)
  | queueReply, _, s => s.withDown Wire.reply
  | closeQueue, _, s => (.ok (), { s with down := none })
  | allow key, now, s =>
      let r := s.limiter.allow key now
      (.ok r.1, { s with limiter := r.2 })

/-- The world of a session. -/
def sockets : World Smtp Sockets :=
  ⟨Request.Choice, Request.exec⟩

/-! ### The session -/

/-- The envelope, held back until the headers have been seen. -/
structure Envelope where
  xforward : List String
  mailFrom : Option String
  recipients : List String
  deriving DecidableEq, Repr

/-- The envelope of no transaction. -/
def Envelope.clear : Envelope :=
  ⟨[], none, []⟩

/-- The commands that replay an envelope to the queue. -/
def Envelope.commands (envelope : Envelope) : List String :=
  envelope.xforward ++
    ["MAIL FROM:<" ++ envelope.mailFrom.getD "" ++ ">"] ++
    envelope.recipients.map (fun recipient => "RCPT TO:<" ++ recipient ++ ">") ++
    ["DATA"]

namespace Session

open Program Fallible

variable (parseMail : Bytes → Option ParsedMail) (mode : Mode)

def connect : Session Unit :=
  ask Request.connect

def clientLine : Session (Option Bytes) :=
  ask Request.clientLine

def clientMessage : Session Body :=
  ask Request.clientMessage

def answer (bytes : Bytes) : Session Unit :=
  ask (Request.answer bytes)

def queueIsOpen : Session Bool :=
  ask Request.queueIsOpen

def queueLine (line : String) : Session Unit :=
  ask (Request.queueLine line)

def queueMessage (message : Bytes) : Session Unit :=
  ask (Request.queueMessage message)

def queueReply : Session Reply :=
  ask Request.queueReply

def closeQueue : Session Unit :=
  ask Request.closeQueue

def allow (key : String) : Session Bool :=
  ask (Request.allow key)

/-- Send the client a line. -/
def sendLine (line : String) : Session Unit :=
  answer (asBytes line ++ asBytes "\r\n")

/-- Send the client a reply of the queue. -/
def relay (reply : Reply) : Session Unit :=
  answer reply.raw

def closeDownstream : Session Unit := do
  if ← queueIsOpen then
    let _ ← attempt (queueLine "QUIT")
    closeQueue

/-- Send the queue a command and require the code of its reply. -/
def command (line : String) (code : Nat) (what : String) : Session Unit := do
  queueLine line
  let reply ← queueReply
  if reply.code ≠ code then
    throw ⟨.other, what ++ " was answered " ++ fromUtf8Lossy (trimEol reply.raw)⟩

/-- Replay the held envelope downstream and send the message. -/
def deliver (envelope : Envelope) (raw : Bytes) : Session Reply := do
  forM envelope.xforward fun line => command line 250 "XFORWARD"
  command ("MAIL FROM:<" ++ envelope.mailFrom.getD "" ++ ">") 250 "MAIL FROM"
  forM envelope.recipients fun recipient =>
    command ("RCPT TO:<" ++ recipient ++ ">") 250 "RCPT TO"
  command "DATA" 354 "DATA"
  queueMessage raw
  queueReply

/-- The reply to `EHLO`, from what the queue offers. -/
def announce (downstream : Reply) : String :=
  let relayable := ["XFORWARD", "8BITMIME", "SIZE", "SMTPUTF8", "DSN", "ENHANCEDSTATUSCODES"]
  let kept := downstream.capabilities.filter fun cap =>
    relayable.contains (toAsciiUppercase (firstWord cap))
  match kept.getLast? with
  | none => "250 noombat-filtermail\r\n"
  | some last =>
      "250-noombat-filtermail\r\n" ++
        String.join (kept.dropLast.map fun cap => "250-" ++ cap ++ "\r\n") ++
        "250 " ++ last ++ "\r\n"

/-- What the loop goes on with: the envelope, or nothing when the session is over. -/
abbrev Next : Type :=
  Option Envelope

/-- Relay a command to the queue and do something with the reply. -/
def passThrough (text : String) (envelope : Envelope) (answer : Reply → Session Unit) :
    Session Next := do
  if ← queueIsOpen then
    queueLine text
    let reply ← queueReply
    answer reply
    return some envelope
  else
    sendLine "421 4.3.2 the queue connection is gone"
    return none

def ehlo (text : String) (envelope : Envelope) : Session Next :=
  passThrough text envelope fun reply =>
    if reply.code ≠ 250 then relay reply else answer (asBytes (announce reply))

def xforward (text : String) (envelope : Envelope) : Session Next := do
  let envelope := { envelope with xforward := envelope.xforward ++ [text] }
  sendLine "250 2.0.0 Ok"
  return some envelope

/-- Whether the sender is within its quota: only a submission that names a sender is
charged. -/
def withinQuota (sender : String) : Session Bool :=
  if mode = .outgoing ∧ sender ≠ "" then allow (toAsciiLowercase sender) else pure true

def mail (text : String) (envelope : Envelope) : Session Next := do
  let sender := addressOf text
  if ← withinQuota mode sender then
    sendLine "250 2.1.0 Ok"
    return some { envelope with mailFrom := some sender, recipients := [] }
  else
    sendLine "450 4.7.1 too many messages, please slow down"
    return some envelope

def rcpt (text : String) (envelope : Envelope) : Session Next := do
  if envelope.mailFrom.isNone then
    sendLine "503 5.5.1 need MAIL before RCPT"
    return some envelope
  else
    sendLine "250 2.1.5 Ok"
    return some { envelope with recipients := envelope.recipients ++ [addressOf text] }

/-- Hand on a message that was accepted. -/
def handOn (envelope : Envelope) (raw : Bytes) : Session Next := do
  if ← queueIsOpen then
    match ← attempt (deliver envelope raw) with
    | .ok reply =>
        relay reply
        return some Envelope.clear
    | .error e =>
        if isDisconnect e then throw e
        else
          sendLine "451 4.3.0 the queue would not take the message"
          return some Envelope.clear
  else
    sendLine "421 4.3.2 the queue connection is gone"
    return none

/-- Decide about a message, and hand it on or refuse it. -/
def judge (envelope : Envelope) (raw : Bytes) : Session Next := do
  match inspect parseMail mode raw (envelope.mailFrom.getD "") with
  | .refuse reply =>
      sendLine reply
      closeDownstream
      return some Envelope.clear
  | .accept stripSender =>
      handOn (if stripSender then { envelope with mailFrom := some "" } else envelope) raw

def data (envelope : Envelope) : Session Next := do
  if envelope.mailFrom.isNone ∨ envelope.recipients = [] then
    sendLine "503 5.5.1 need MAIL and RCPT before DATA"
    return some envelope
  else
    sendLine "354 End data with <CR><LF>.<CR><LF>"
    match ← clientMessage with
    | .eof => return none
    | .tooLarge =>
        sendLine "552 5.3.4 message exceeds the filter's size limit"
        return some Envelope.clear
    | .message raw => judge parseMail mode envelope raw

def rset : Session Next := do
  sendLine "250 2.0.0 Ok"
  return some Envelope.clear

def quit : Session Next := do
  closeDownstream
  let _ ← attempt (sendLine "221 2.0.0 Bye")
  return none

/-- The text of a command line. -/
def textOf (line : Bytes) : String :=
  fromUtf8Lossy (trimEol line)

/-- The verb of a command. -/
def verbOf (text : String) : String :=
  toAsciiUppercase (firstWord text)

/-- Answer one command of the client. -/
def answerCommand (text : String) (envelope : Envelope) : Session Next :=
  match verbOf text with
  | "EHLO" | "HELO" => ehlo text envelope
  | "XFORWARD" => xforward text envelope
  | "MAIL" => mail mode text envelope
  | "RCPT" => rcpt text envelope
  | "DATA" => data parseMail mode envelope
  | "RSET" => rset
  | "QUIT" => quit
  | _ => passThrough text envelope relay

/-- One turn of the loop. -/
def turn (envelope : Envelope) : Session Next := do
  match ← clientLine with
  | none => return none
  | some line => answerCommand parseMail mode (textOf line) envelope

/-- At most `fuel` turns of the loop; the result says whether the session is over. -/
def converseFrom (fuel : Nat) (envelope : Envelope) : Session Bool :=
  match fuel with
  | 0 => return false
  | fuel + 1 => do
      match ← turn parseMail mode envelope with
      | none => return true
      | some envelope => converseFrom fuel envelope

def converse (fuel : Nat) : Session Bool :=
  converseFrom parseMail mode fuel Envelope.clear

/-- A session, of which the client side is set up. -/
def serve (fuel : Nat) : Session Unit := do
  match ← attempt connect with
  | .error _ =>
      let _ ← attempt (sendLine "421 4.3.2 the filter cannot reach the queue")
  | .ok _ =>
      match ← attempt queueReply with
      | .ok ⟨220, _⟩ =>
          match ← attempt (sendLine "220 noombat-filtermail ready") with
          | .error _ => return ()
          | .ok _ =>
              let _ ← attempt (converse parseMail mode fuel)
              if ← queueIsOpen then
                let _ ← attempt (queueLine "QUIT")
      | _ =>
          let _ ← attempt (sendLine "421 4.3.2 the queue did not answer")

/-! ### Sessions end -/

/-- No request adds to what the client may still send. -/
theorem exec_remaining_le (q : Request) (c : q.Choice) (s : Sockets) :
  (q.exec c s).2.up.reader.remaining ≤ s.up.reader.remaining
  := by
  have withDown_up {α : Type} (f : Wire → Except IoError α × Wire) :
      (s.withDown f).2.up = s.up := by
    unfold Sockets.withDown
    split
    · rfl
    · rfl
  cases q with
  | connect =>
      rcases c with e | down
      · exact Nat.le_refl _
      · exact Nat.le_refl _
  | clientLine =>
      have := Nat.le_trans (Nat.le_add_left _ _)
        (@readLineCapped_getD_remaining MAX_LINE_BYTES s.up.reader)
      simp only [Request.exec, Sockets.withUp, Wire.line]
      split
      all_goals simp_all
  | clientMessage =>
      have := @readMessageFrom_remaining_le (s.up.reader.remaining + 1) 0 false [] s.up.reader
      exact this
  | answer bytes =>
      rcases c with _ | _
      · exact Nat.le_refl _
      · exact Nat.le_refl _
  | queueIsOpen => exact Nat.le_refl _
  | queueLine line => simp [Request.exec, withDown_up]
  | queueMessage message => simp [Request.exec, withDown_up]
  | queueReply => simp [Request.exec, withDown_up]
  | closeQueue => exact Nat.le_refl _
  | allow key => exact Nat.le_refl _

/-- A turn that is not the last uses up a byte of the client. -/
theorem turn_remaining_lt (envelope : Envelope) (s : Sockets) :
  wp sockets (Always _)
    (onExcept
      (fun next s' => next = none ∨ s'.up.reader.remaining < s.up.reader.remaining)
      (fun _ _ => True))
    (turn parseMail mode envelope).run s
  := by
  rw [turn, wp_run_bind]
  apply (wp_run_ask Request.clientLine _ s).mpr
  intro c _
  rcases hread : readLineCapped MAX_LINE_BYTES s.up.reader with ⟨e | line, reader⟩
  · simp [sockets, Request.exec, Sockets.withUp, Wire.line, hread]
  · cases line with
    | nil => simp [sockets, Request.exec, Sockets.withUp, Wire.line, hread]
    | cons b line =>
        have hline := readLineCapped_remaining hread
        simp only [sockets, Request.exec, Sockets.withUp, Wire.line, hread, onExcept_ok]
        apply wp_mono _ (Every.wp_rel
          (G := fun s₁ s₂ => s₂.up.reader.remaining ≤ s₁.up.reader.remaining)
          (fun _ => Nat.le_refl _) (fun h h' => Nat.le_trans h' h)
          (fun q _ c s _ => exec_remaining_le q c s) (every_true _) _)
        rintro (e | next) s' hs'
        · trivial
        · right
          simp only [List.length_cons] at hline
          simp only at hs'
          omega

/-- The loop ends before it runs out of fuel, if there is more of it than the client sends
bytes. -/
theorem converseFrom_ends {fuel : Nat} {envelope : Envelope} {s : Sockets}
    (h : s.up.reader.remaining < fuel) :
  wp sockets (Always _) (fun r _ => r ≠ .ok false) (converseFrom parseMail mode fuel envelope).run s
  := by
  induction fuel generalizing envelope s with
  | zero => omega
  | succ fuel ih =>
      rw [converseFrom, wp_run_bind]
      apply wp_mono _ (turn_remaining_lt parseMail mode envelope s)
      rintro (e | _ | envelope') s' hs'
      · simp
      · rw [onExcept_ok, wp_run_pure]
        simp
      · rw [onExcept_ok]
        apply ih
        have := hs'.resolve_left (by simp)
        omega

end Session

end Filtermail
