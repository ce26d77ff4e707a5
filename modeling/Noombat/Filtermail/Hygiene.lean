import Mathlib.Data.List.Infix
import Noombat.Program.Past
import Noombat.Filtermail.Session

/-!
# Transactions with the queue

The queue is a server that takes one transaction after another: it refuses `MAIL` while a
transaction is open, and it may refuse any command.  A session answers every command of its
client, one after another, and reads every reply of the queue before it sends the next
command.  But a transaction of which a recipient or `DATA` was refused stays open, and the
next message is handed on into it, if the client does not greet again before.
-/

namespace Filtermail

open Text Session Program Fallible

/-! ### The queue -/

/-- The queue as a server. -/
structure Server where
  /-- The number of recipients that were accepted in the open transaction. -/
  transaction : Option Nat
  /-- Whether the text of a message is to come. -/
  receiving : Bool
  /-- The replies that were not yet read. -/
  replies : List Reply

/-- What the server decides about a command, and the text of its reply. -/
structure Response where
  text : Bytes
  refusal : Option (Fin 200)

namespace Server

/-- The server at the start of a session, when its greeting has been read. -/
def ready : Server :=
  ⟨none, false, []⟩

/-- Whether a command comes in turn. -/
def inTurn (server : Server) : String → Bool
  | "MAIL" => server.transaction.isNone
  | "RCPT" => server.transaction.isSome
  | "DATA" => server.transaction.any (0 < ·)
  | _ => true

/-- The effect of a command that is accepted. -/
def accept (server : Server) : String → Server
  | "EHLO" | "HELO" | "RSET" => { server with transaction := none }
  | "MAIL" => { server with transaction := some 0 }
  | "RCPT" => { server with transaction := server.transaction.map (· + 1) }
  | "DATA" => { server with receiving := true }
  | _ => server

/-- The code of the reply to a command that is accepted. -/
def acceptCode : String → Nat
  | "DATA" => 354
  | "QUIT" => 221
  | _ => 250

/-- The code of the reply to a command, and the server after it.  The code 503 says that the
command does not come in turn. -/
def outcome (server : Server) (verb : String) : Option (Fin 200) → Nat × Server
  | none =>
      if server.inTurn verb then (acceptCode verb, server.accept verb) else (503, server)
  | some n => (if server.inTurn verb then 400 + n else 503, server)

/-- Hear a command. -/
def hear (line : String) (response : Response) (server : Server) : Server :=
  let r := server.outcome (verbOf line) response.refusal
  { r.2 with replies := r.2.replies ++ [⟨r.1, response.text⟩] }

/-- Take the text of a message, which ends the transaction. -/
def take (response : Response) (server : Server) : Server :=
  if server.receiving then
    let code := response.refusal.elim 250 fun n => 400 + n
    ⟨none, false, server.replies ++ [⟨code, response.text⟩]⟩
  else server

end Server

/-- The connection to the client, the queue behind the filter and the rate limiter. -/
structure Relay where
  up : Wire
  down : Option Server
  limiter : RateLimiter

namespace Relay

/-- Use the connection to the queue. -/
def withDown {α : Type} (s : Relay) (f : Server → Except IoError α × Server) :
    Except IoError α × Relay :=
  match s.down with
  | none => (.error ⟨.other, "not connected"⟩, s)
  | some server => ((f server).1, { s with down := some (f server).2 })

/-- Use the connection to the client. -/
def withUp {α : Type} (s : Relay) (f : Wire → Except IoError α × Wire) :
    Except IoError α × Relay :=
  ((f s.up).1, { s with up := (f s.up).2 })

end Relay

/-- The environment chooses the greeting of the queue, what the queue decides, how writes to
the client go, and the time. -/
abbrev Request.Reaction : Request → Type
  | connect => Except IoError Reply
  | answer _ => Writes
  | queueLine _ | queueMessage _ => Response
  | allow _ => Nat
  | _ => Unit

def Request.react : (q : Request) → q.Reaction → Relay → Except IoError q.Result × Relay
  | connect, .ok greeting, s => (.ok (), { s with down := some ⟨none, false, [greeting]⟩ })
  | connect, .error e, s => (.error e, s)
  | clientLine, _, s => s.withUp Wire.line
  | clientMessage, _, s => s.withUp Wire.readMessage
  | answer bytes, writes, s => s.withUp (Wire.sendRaw bytes writes)
  | queueIsOpen, _, s => (.ok s.down.isSome, s)
  | queueLine line, response, s => s.withDown fun server => (.ok (), server.hear line response)
  | queueMessage _, response, s => s.withDown fun server => (.ok (), server.take response)
  | queueReply, _, s => s.withDown fun server =>
      match server.replies with
      | [] => (.error ⟨.other, "no reply"⟩, server)
      | reply :: replies => (.ok reply, { server with replies })
  | closeQueue, _, s => (.ok (), { s with down := none })
  | allow key, now, s =>
      let r := s.limiter.allow key now
      (.ok r.1, { s with limiter := r.2 })

/-- The world of a session in front of such a server. -/
def relaying : World Smtp Relay :=
  ⟨Request.Reaction, Request.react⟩

/-! ### The progress of a session -/

/-- The steps of a session, with the states they were taken in, the latest first. -/
abbrev Film : Type :=
  List (Relay × Smtp.Exchange)

/-- What an observer of a session has counted and remembers. -/
structure Progress where
  /-- The commands and messages of the client. -/
  reads : Nat
  answers : Nat
  /-- Whether a message of the client is not answered yet. -/
  message : Bool
  /-- The verb of the last command to the queue since the client has sent something. -/
  asked : Option String
  /-- Whether the queue has refused a recipient or `DATA` since it was greeted. -/
  stale : Bool

/-- Whether a recipient or `DATA` was refused, after the reply to a command of the given
verb. -/
def staleAfter (verb : String) (code : Nat) (stale : Bool) : Bool :=
  match verb with
  | "EHLO" | "HELO" => stale && code != 250
  | "RCPT" => stale || code != 250
  | "DATA" => stale || code != 354
  | _ => stale

namespace Progress

def start : Progress :=
  ⟨0, 0, false, none, false⟩

def after (p : Progress) : Smtp.Exchange → Progress
  | ⟨.clientLine, .ok (some _)⟩ =>
      { p with reads := p.reads + 1, message := false, asked := none }
  | ⟨.clientMessage, .ok (.message _)⟩ =>
      { p with reads := p.reads + 1, message := true, asked := none }
  | ⟨.clientMessage, .ok .tooLarge⟩ =>
      { p with reads := p.reads + 1, message := false, asked := none }
  | ⟨.answer _, .ok ()⟩ => { p with answers := p.answers + 1, message := false }
  | ⟨.queueLine line, _⟩ => { p with asked := some (verbOf line) }
  | ⟨.queueMessage _, _⟩ => { p with asked := some "" }
  | ⟨.queueReply, .ok reply⟩ =>
      { p with stale := staleAfter (p.asked.getD "") reply.code p.stale }
  | _ => p

end Progress

/-- What the observer has counted in the course of a session. -/
def progress : Film → Progress
  | [] => Progress.start
  | step :: film => (progress film).after step.2

/-! ### Hygiene -/

/-- The step keeps in turn: the client is read only when all it has sent is answered, it is
answered only when something is not, and the queue is sent something only when all its
replies are read. -/
def InTurn (p : Progress) (before : Relay) : Smtp.Exchange → Prop
  | ⟨.clientLine, .ok (some _)⟩ | ⟨.clientMessage, .ok (.message _)⟩
  | ⟨.clientMessage, .ok .tooLarge⟩ => p.answers = p.reads + 1
  | ⟨.answer _, .ok ()⟩ => p.answers ≤ p.reads
  | ⟨.queueLine _, _⟩ | ⟨.queueMessage _, _⟩ =>
      ∀ server, before.down = some server → server.replies = []
  | _ => True

/-- The step sends the first command of the replay of an envelope. -/
def Starts (p : Progress) (e : Smtp.Exchange) : Prop :=
  p.message = true ∧ p.asked = none ∧ ∃ line, e.request = .queueLine line ∧ line ≠ "QUIT"

/-- A message would be delivered in the state `before` as in any fresh session: the requests
of the delivery get the same answers, and leave the queue in the same state. -/
def DeliversAfresh (before : Relay) : Prop :=
  ∀ (fresh : Relay) (script : Script relaying) (n : Nat) (envelope : Envelope) (raw : Bytes),
    fresh.down = some Server.ready →
      (runFrom relaying script n (deliver envelope raw).run before).1 =
        (runFrom relaying script n (deliver envelope raw).run fresh).1 ∧
      (runFrom relaying script n (deliver envelope raw).run before).2.down =
        (runFrom relaying script n (deliver envelope raw).run fresh).2.down

/-- The session keeps in step with its client and with the queue; no delivery starts in an open
transaction, and every message is delivered as in a fresh session. -/
structure Hygienic (film : Film) : Prop where
  inTurn : Past.Throughout (fun step earlier => InTurn (progress earlier) step.1 step.2) film
  closed : Past.Throughout (fun step earlier => Starts (progress earlier) step.2 →
    ∃ server, step.1.down = some server ∧ server.transaction = none) film
  afresh : Past.Throughout (fun step earlier => Starts (progress earlier) step.2 →
    DeliversAfresh step.1) film

/-! ### The server and what the observer knows of it -/

/-- The server waits for a command, and a transaction is open just if the observer knows of a
refusal. -/
structure Idle (p : Progress) (server : Server) : Prop where
  replies : server.replies = []
  receiving : server.receiving = false
  transaction : server.transaction.isSome = p.stale

/-- Every step was in turn, and whenever a delivery started, the server was idle. -/
def Sound (film : Film) : Prop :=
  Past.Throughout (fun step earlier => InTurn (progress earlier) step.1 step.2 ∧
    (Starts (progress earlier) step.2 →
      ∃ server, step.1.down = some server ∧ Idle (progress earlier) server)) film

/-- A command is accepted in turn, or it is refused and has no effect. -/
theorem outcome_cases (server : Server) (verb : String) (refusal : Option (Fin 200)) :
  (server.inTurn verb = true ∧
    server.outcome verb refusal = (Server.acceptCode verb, server.accept verb)) ∨
  ∃ code, 400 ≤ code ∧ server.outcome verb refusal = (code, server)
  := by
  cases refusal with
  | none =>
      rw [Server.outcome]
      split
      · left
        constructor
        · assumption
        · rfl
      · right
        use 503
        simp
  | some n =>
      right
      rw [Server.outcome]
      split
      · use 400 + n
        simp
      · use 503
        simp

/-- The state of a session with its film. -/
abbrev Filmed : Type :=
  Relay × Film

/-- Every run of a session program ends in a result and a state as the postcondition says. -/
abbrev Yields {α : Type} (Post : Except IoError α → Filmed → Prop) (p : Session α)
    (s : Filmed) : Prop :=
  wp relaying.filmed (Always _) Post p.run s

/-- The server is idle, if there is one, and the observer has counted as many answers as
`answers` says. -/
structure Stands (answers : Nat → Nat) (s : Filmed) : Prop where
  sound : Sound s.2
  counted : (progress s.2).answers = answers (progress s.2).reads
  idle : ∀ server, s.1.down = some server → Idle (progress s.2) server

/-- All that the client has sent is answered. -/
abbrev Rests : Filmed → Prop :=
  Stands (· + 1)

/-- An answer is owed to the client. -/
abbrev Owes : Filmed → Prop :=
  Stands id

/-- The session may end: the replies of the queue are read. -/
structure Over (s : Filmed) : Prop where
  sound : Sound s.2
  replies : ∀ server, s.1.down = some server → server.replies = []

theorem Stands.over {answers : Nat → Nat} {s : Filmed} (h : Stands answers s) :
  Over s
  := ⟨h.sound, fun server hdown => (h.idle server hdown).replies⟩

variable {s : Filmed} {answers : Nat → Nat}

/-- The requests that do not change the connection to the queue. -/
def Frontal : Request → Prop
  | .clientLine | .clientMessage | .answer _ | .queueIsOpen | .allow _ => True
  | _ => False

theorem yields_frontal {q : Request} (hq : Frontal q) :
  Yields (fun r s' => s'.1.down = s.1.down ∧ s'.2 = (s.1, ⟨q, r⟩) :: s.2) (ask q) s
  := by
  apply (wp_run_ask q _ s).mpr
  intro c _
  refine ⟨?_, rfl⟩
  cases q with
  | connect => cases hq
  | queueLine line => cases hq
  | queueMessage raw => cases hq
  | queueReply => cases hq
  | closeQueue => cases hq
  | _ => rfl

/-- A step that is in turn and starts no delivery keeps the film sound. -/
theorem Sound.cons {film : Film} {before : Relay} {e : Smtp.Exchange} (h : Sound film)
    (hturn : InTurn (progress film) before e) (hstarts : ¬ Starts (progress film) e) :
  Sound ((before, e) :: film)
  := ⟨⟨hturn, fun hs => absurd hs hstarts⟩, h⟩

theorem not_starts {p : Progress} {q : Request} (r : Smtp.Answer q)
    (hq : ∀ line, q ≠ .queueLine line) :
  ¬ Starts p ⟨q, r⟩
  := by
  rintro ⟨-, -, line, hline, -⟩
  exact hq line hline

/-- A step with the client does not keep the session from ending. -/
theorem Over.frontal {q : Request} {r : Smtp.Answer q} {relay : Relay} (h : Over s)
    (hdown : relay.down = s.1.down) (hturn : InTurn (progress s.2) s.1 ⟨q, r⟩)
    (hq : ∀ line, q ≠ .queueLine line) :
  Over (relay, (s.1, ⟨q, r⟩) :: s.2)
  := by
  constructor
  · exact h.sound.cons hturn (not_starts _ hq)
  · rw [hdown]
    exact h.replies

/-- What the observer counts does not make the server less idle. -/
theorem Idle.counted {p p' : Progress} {server : Server} (h : Idle p server)
    (hstale : p'.stale = p.stale) :
  Idle p' server
  := by
  refine ⟨h.replies, h.receiving, ?_⟩
  rw [hstale]
  exact h.transaction

/-- An answer pays what is owed. -/
theorem yields_answer {bytes : Bytes} (h : Owes s) :
  Yields (onExcept (fun _ => Rests) (fun _ => Over)) (answer bytes) s
  := by
  have hover := h.over
  obtain ⟨hsound, hcounted, hidle⟩ := h
  apply wp_mono _ (yields_frontal (q := .answer bytes) trivial)
  rintro (e | _) ⟨relay, film⟩ ⟨hdown, rfl⟩
  · exact hover.frontal hdown trivial (by simp)
  · constructor
    · apply hsound.cons _ (not_starts _ (by simp))
      apply Nat.le_of_eq hcounted
    · change (progress s.2).answers + 1 = (progress s.2).reads + 1
      rw [hcounted]
      rfl
    · rw [hdown]
      intro server hserver
      exact (hidle server hserver).counted rfl

/-- How a turn ends: the session rests, with a proper envelope, or it is over. -/
def Rounds : Except IoError Next → Filmed → Prop
  | .ok (some envelope), s => Rests s ∧ ∀ line ∈ envelope.xforward, verbOf line = "XFORWARD"
  | _, s => Over s

theorem rounds_answer {bytes : Bytes} {next : Next} (h : Owes s)
    (hnext : ∀ envelope, next = some envelope →
      ∀ line ∈ envelope.xforward, verbOf line = "XFORWARD") :
  Yields Rounds (answer bytes >>= fun _ => pure next) s
  := by
  rw [Yields, wp_run_bind]
  apply wp_mono _ (yields_answer h)
  rintro (e | _) s₁ h₁
  · apply h₁
  · rw [onExcept_ok, wp_run_pure]
    cases next with
    | none => apply h₁.over
    | some envelope => exact ⟨h₁, hnext envelope rfl⟩

/-- Whether there is a connection is asked without any effect. -/
theorem stands_queueIsOpen (h : Stands answers s) :
  Yields
    (fun r s' => r = .ok s.1.down.isSome ∧ Stands answers s' ∧ s'.1.down = s.1.down ∧
      progress s'.2 = progress s.2)
    queueIsOpen s
  := by
  obtain ⟨hsound, hcounted, hidle⟩ := h
  apply (wp_run_ask Request.queueIsOpen _ s).mpr
  intro c _
  have hturn : InTurn (progress s.2) s.1 ⟨.queueIsOpen, .ok s.1.down.isSome⟩ := trivial
  refine ⟨rfl, ⟨?_, hcounted, hidle⟩, rfl, rfl⟩
  apply hsound.cons hturn (not_starts _ (by simp))

/-! ### Commands to the queue -/

variable {server : Server}

theorem accept_replies (server : Server) (verb : String) :
  (server.accept verb).replies = server.replies
  := by
  unfold Server.accept
  split
  all_goals rfl

theorem outcome_replies (server : Server) (verb : String) (refusal : Option (Fin 200)) :
  (server.outcome verb refusal).2.replies = server.replies
  := by
  rcases outcome_cases server verb refusal with ⟨-, h⟩ | ⟨code, -, h⟩
  · rw [h, accept_replies]
  · rw [h]

/-- The server hears a command. -/
theorem exec_queueLine (line : String) (response : Response) (hdown : s.1.down = some server) :
  relaying.filmed.exec (.queueLine line) response s =
    (.ok (), { s.1 with down := some (server.hear line response) },
      (s.1, ⟨.queueLine line, .ok ()⟩) :: s.2)
  := by
  simp only [World.filmed, relaying, Request.react, Relay.withDown, hdown]

/-- The first reply that is not read is read. -/
theorem exec_queueReply {reply : Reply} {replies : List Reply} (c : Unit)
    (hdown : s.1.down = some server) (hreplies : server.replies = reply :: replies) :
  relaying.filmed.exec .queueReply c s =
    (.ok reply, { s.1 with down := some { server with replies } },
      (s.1, ⟨.queueReply, .ok reply⟩) :: s.2)
  := by
  simp only [World.filmed, relaying, Request.react, Relay.withDown, hdown, hreplies]

/-- What a command and the reply to it do, when all replies before were read. -/
theorem yields_exchange {α : Type} {line : String} {k : Reply → Session α}
    {Post : Except IoError α → Filmed → Prop} (hsound : Sound s.2)
    (hdown : s.1.down = some server) (hreplies : server.replies = [])
    (hstarts : Starts (progress s.2) ⟨.queueLine line, .ok ()⟩ → Idle (progress s.2) server)
    (h : ∀ refusal text relay film, Sound film →
      relay.down = some (server.outcome (verbOf line) refusal).2 →
      progress film = { progress s.2 with
        asked := some (verbOf line)
        stale := staleAfter (verbOf line) (server.outcome (verbOf line) refusal).1
          (progress s.2).stale } →
      Yields Post (k ⟨(server.outcome (verbOf line) refusal).1, text⟩) (relay, film)) :
  Yields Post (queueLine line >>= fun _ => queueReply >>= k) s
  := by
  rw [Yields, wp_run_bind]
  apply (wp_run_ask (Request.queueLine line) _ s).mpr
  intro response _
  rw [exec_queueLine line response hdown, onExcept_ok, wp_run_bind]
  apply (wp_run_ask Request.queueReply _ _).mpr
  intro c _
  have hheard : (server.hear line response).replies =
      [⟨(server.outcome (verbOf line) response.refusal).1, response.text⟩] := by
    simp only [Server.hear, outcome_replies, hreplies, List.nil_append]
  rw [exec_queueReply c rfl hheard, onExcept_ok]
  apply h response.refusal response.text
  · refine Sound.cons ⟨⟨?_, ?_⟩, hsound⟩ trivial (not_starts _ (by simp))
    · intro server' hserver'
      rw [hdown] at hserver'
      cases hserver'
      exact hreplies
    · intro hs
      exact ⟨server, hdown, hstarts hs⟩
  · have hempty : (server.outcome (verbOf line) response.refusal).2.replies = [] := by
      rw [outcome_replies, hreplies]
    unfold Server.hear
    generalize server.outcome (verbOf line) response.refusal = r at hempty
    obtain ⟨code, transaction, receiving, replies⟩ := r
    rw [← hempty]
  · rfl

/-- A command that neither opens nor fills a transaction leaves the server idle. -/
theorem Idle.exchange {p : Progress} {verb : String} (h : Idle p server)
    (hverb : verb ∉ ["MAIL", "RCPT", "DATA", "RSET"]) (refusal : Option (Fin 200)) :
  Idle { p with
      asked := some verb
      stale := staleAfter verb (server.outcome verb refusal).1 p.stale }
    (server.outcome verb refusal).2
  := by
  obtain ⟨hreplies, hreceiving, htransaction⟩ := h
  simp only [List.mem_cons, List.not_mem_nil, or_false, not_or] at hverb
  obtain ⟨hmail, hrcpt, hdata, hrset⟩ := hverb
  by_cases hgreeting : verb = "EHLO" ∨ verb = "HELO"
  · rcases outcome_cases server verb refusal with ⟨-, h⟩ | ⟨code, hcode, h⟩
    · rw [h]
      rcases hgreeting with rfl | rfl
      · exact ⟨hreplies, hreceiving, by simp [Server.accept, staleAfter, Server.acceptCode]⟩
      · exact ⟨hreplies, hreceiving, by simp [Server.accept, staleAfter, Server.acceptCode]⟩
    · have hne : (code != 250) = true := by
        rw [bne_iff_ne]
        omega
      rw [h]
      rcases hgreeting with rfl | rfl
      · exact ⟨hreplies, hreceiving, by simp [htransaction, staleAfter, hne]⟩
      · exact ⟨hreplies, hreceiving, by simp [htransaction, staleAfter, hne]⟩
  · rw [not_or] at hgreeting
    have hstale (code : Nat) : staleAfter verb code p.stale = p.stale := by
      unfold staleAfter
      split
      all_goals simp_all
    have haccept : server.accept verb = server := by
      unfold Server.accept
      split
      all_goals simp_all
    have hsame : (server.outcome verb refusal).2 = server := by
      rcases outcome_cases server verb refusal with ⟨-, h⟩ | ⟨code, -, h⟩
      · rw [h, haccept]
      · rw [h]
    rw [hstale, hsame]
    exact ⟨hreplies, hreceiving, htransaction⟩

/-- A command may be relayed to the queue, and its reply answered in any way. -/
theorem rounds_passThrough {text : String} {envelope : Envelope}
    {answered : Reply → Session Unit} (h : Owes s)
    (hverb : verbOf text ∉ ["MAIL", "RCPT", "DATA", "RSET"])
    (hproper : ∀ line ∈ envelope.xforward, verbOf line = "XFORWARD")
    (hanswer : ∀ reply, ∃ bytes, answered reply = answer bytes) :
  Yields Rounds (passThrough text envelope answered) s
  := by
  have hproper' : ∀ envelope', some envelope = some envelope' →
      ∀ line ∈ envelope'.xforward, verbOf line = "XFORWARD" := by
    rintro _ ⟨⟩
    exact hproper
  rw [passThrough, Yields, wp_run_bind]
  apply wp_mono _ (stands_queueIsOpen h)
  rintro _ s₁ ⟨rfl, h₁, hdown, hprogress⟩
  rw [onExcept_ok]
  cases hserver : s.1.down with
  | none => 
      apply rounds_answer h₁
      rintro _ ⟨⟩
  | some server =>
      rw [hserver] at hdown
      have hidle := h₁.idle server hdown
      rw [Option.isSome_some, if_pos rfl]
      apply yields_exchange h₁.sound hdown hidle.replies (fun _ => hidle)
      intro refusal text' relay film hsound hrelay hfilm
      have howes : Owes (relay, film) := by
        constructor
        · exact hsound
        · rw [hfilm]
          exact h₁.counted
        · rw [hfilm, hrelay]
          rintro _ ⟨⟩
          apply hidle.exchange hverb
      obtain ⟨bytes, hbytes⟩ := hanswer ⟨(server.outcome (verbOf text) refusal).1, text'⟩
      rw [hbytes]
      apply rounds_answer howes hproper'

/-! ### Deliveries -/

/-- The verb of a command ends at its first blank. -/
theorem verbOf_append {verb : List Char} (hne : verb ≠ [])
    (hverb : ∀ c ∈ verb, isWhitespace c = false) (rest : String) :
  verbOf (String.ofList (verb ++ [' ']) ++ rest) = toAsciiUppercase (String.ofList verb)
  := by
  have htake : ((verb ++ [' ']) ++ rest.toList).takeWhile (!isWhitespace ·) = verb := by
    rw [List.append_assoc, List.takeWhile_append_of_pos (by simpa using hverb)]
    simp [isWhitespace]
  have hdrop : ((verb ++ [' ']) ++ rest.toList).dropWhile isWhitespace =
      (verb ++ [' ']) ++ rest.toList := by
    cases verb with
    | nil => contradiction
    | cons c cs => simp [hverb c List.mem_cons_self]
  rw [verbOf, firstWord, String.toList_append, String.toList_ofList, hdrop, htake]

theorem verbOf_mailFrom (sender : String) :
  verbOf ("MAIL FROM:<" ++ sender ++ ">") = "MAIL"
  := by
  have hcommand : "MAIL FROM:<" ++ sender ++ ">" =
      String.ofList (['M', 'A', 'I', 'L'] ++ [' ']) ++ ("FROM:<" ++ sender ++ ">") := by
    simp [← String.toList_inj]
  have hverb : ∀ c ∈ ['M', 'A', 'I', 'L'], isWhitespace c = false := by simp [isWhitespace]
  rw [hcommand, verbOf_append (by simp) hverb]
  rfl

theorem verbOf_rcptTo (recipient : String) :
  verbOf ("RCPT TO:<" ++ recipient ++ ">") = "RCPT"
  := by
  have hcommand : "RCPT TO:<" ++ recipient ++ ">" =
      String.ofList (['R', 'C', 'P', 'T'] ++ [' ']) ++ ("TO:<" ++ recipient ++ ">") := by
    simp [← String.toList_inj]
  have hverb : ∀ c ∈ ['R', 'C', 'P', 'T'], isWhitespace c = false := by simp [isWhitespace]
  rw [hcommand, verbOf_append (by simp) hverb]
  rfl

theorem verbOf_data :
  verbOf "DATA" = "DATA"
  := by
  rfl

/-- An answer is owed, and there is a connection to the queue. -/
structure Connected (s : Filmed) : Prop where
  owes : Owes s
  connected : s.1.down.isSome = true

/-- The delivery of a message has opened a transaction with `n` recipients. -/
structure Opened (n : Nat) (s : Filmed) : Prop where
  sound : Sound s.2
  counted : (progress s.2).answers = (progress s.2).reads
  asked : (progress s.2).asked ≠ none
  stale : (progress s.2).stale = false
  opened : s.1.down = some ⟨some n, false, []⟩

/-- The queue waits for the text of the message. -/
structure Awaited (s : Filmed) : Prop where
  sound : Sound s.2
  counted : (progress s.2).answers = (progress s.2).reads
  stale : (progress s.2).stale = false
  awaited : ∃ n, s.1.down = some ⟨some n, true, []⟩

/-- A command of the replay before `MAIL`. -/
theorem connected_command {line what : String} {code : Nat}
    (hverb : verbOf line ∉ ["MAIL", "RCPT", "DATA", "RSET"]) (h : Connected s) :
  Yields (fun _ => Connected) (command line code what) s
  := by
  obtain ⟨⟨hsound, hcounted, hidles⟩, hconnected⟩ := h
  obtain ⟨server, hdown⟩ := Option.isSome_iff_exists.mp hconnected
  have hidle := hidles server hdown
  apply yields_exchange hsound hdown hidle.replies (fun _ => hidle)
  intro refusal text relay film hsound' hrelay hfilm
  have hconnected : Connected (relay, film) := by
    constructor
    · constructor
      · exact hsound'
      · rw [hfilm]
        exact hcounted
      · rw [hfilm, hrelay]
        rintro _ ⟨⟩
        apply hidle.exchange hverb
    · rw [hrelay]
      rfl
  split
  · rw [Yields, wp_run_throw]
    exact hconnected
  · rw [Yields, wp_run_pure]
    exact hconnected

/-- A refused command leaves an idle server as it is, and one with an open transaction too. -/
theorem owes_refused {relay : Relay} {film : Film} (hsound : Sound film)
    (hcounted : (progress film).answers = (progress film).reads)
    (hrelay : relay.down = some server) (hreplies : server.replies = [])
    (hreceiving : server.receiving = false)
    (htransaction : server.transaction.isSome = (progress film).stale) :
  Owes (relay, film)
  := by
  constructor
  · exact hsound
  · exact hcounted
  · rw [hrelay]
    rintro _ ⟨⟩
    exact ⟨hreplies, hreceiving, htransaction⟩

/-- A transaction is opened, if none is open. -/
theorem opened_mail {sender : String} (h : Connected s) :
  Yields (onExcept (fun _ => Opened 0) (fun _ => Owes))
    (command ("MAIL FROM:<" ++ sender ++ ">") 250 "MAIL FROM") s
  := by
  obtain ⟨⟨hsound, hcounted, hidles⟩, hconnected⟩ := h
  obtain ⟨server, hdown⟩ := Option.isSome_iff_exists.mp hconnected
  have hidle := hidles server hdown
  apply yields_exchange hsound hdown hidle.replies (fun _ => hidle)
  intro refusal text relay film hsound' hrelay hfilm
  rw [verbOf_mailFrom] at *
  obtain ⟨transaction, receiving, replies⟩ := server
  obtain ⟨rfl, rfl, htransaction⟩ := hidle
  rcases outcome_cases ⟨transaction, false, []⟩ "MAIL" refusal with
    ⟨hturn, h⟩ | ⟨code, hcode, h⟩
  · rw [h] at hrelay hfilm ⊢
    rw [if_neg (by simp [Server.acceptCode]), Yields, wp_run_pure, onExcept_ok]
    cases transaction with
    | some n => cases hturn
    | none =>
        constructor
        · exact hsound'
        · rw [hfilm]
          exact hcounted
        · rw [hfilm]
          simp
        · rw [hfilm]
          exact htransaction.symm
        · exact hrelay
  · rw [h] at hrelay hfilm ⊢
    rw [if_pos (by simp; omega), Yields, wp_run_throw, onExcept_error]
    apply owes_refused hsound' _ hrelay rfl rfl
    · rw [hfilm]
      exact htransaction
    · rw [hfilm]
      exact hcounted

/-- A recipient is accepted, or refused in the open transaction. -/
theorem opened_rcpt {recipient : String} {n : Nat} (h : Opened n s) :
  Yields (onExcept (fun _ => Opened (n + 1)) (fun _ => Owes))
    (command ("RCPT TO:<" ++ recipient ++ ">") 250 "RCPT TO") s
  := by
  obtain ⟨hsound, hcounted, hasked, hstale, hopened⟩ := h
  apply yields_exchange hsound hopened rfl (fun hs => absurd hs.2.1 hasked)
  intro refusal text relay film hsound' hrelay hfilm
  rw [verbOf_rcptTo] at *
  rcases outcome_cases ⟨some n, false, []⟩ "RCPT" refusal with ⟨-, h⟩ | ⟨code, hcode, h⟩
  · rw [h] at hrelay hfilm ⊢
    rw [if_neg (by simp [Server.acceptCode]), Yields, wp_run_pure, onExcept_ok]
    constructor
    · exact hsound'
    · rw [hfilm]
      exact hcounted
    · rw [hfilm]
      simp
    · rw [hfilm]
      simp [hstale, staleAfter, Server.acceptCode]
    · exact hrelay
  · have hne : code ≠ 250 := by omega
    rw [h] at hrelay hfilm ⊢
    rw [if_pos hne, Yields, wp_run_throw, onExcept_error]
    apply owes_refused hsound' _ hrelay rfl rfl
    · rw [hfilm]
      simp [staleAfter, hne]
    · rw [hfilm]
      exact hcounted

/-- `DATA` is accepted, or refused in the open transaction. -/
theorem awaited_data {n : Nat} (h : Opened (n + 1) s) :
  Yields (onExcept (fun _ => Awaited) (fun _ => Owes)) (command "DATA" 354 "DATA") s
  := by
  obtain ⟨hsound, hcounted, hasked, hstale, hopened⟩ := h
  apply yields_exchange hsound hopened rfl (fun hs => absurd hs.2.1 hasked)
  intro refusal text relay film hsound' hrelay hfilm
  rw [verbOf_data] at *
  rcases outcome_cases ⟨some (n + 1), false, []⟩ "DATA" refusal with ⟨-, h⟩ | ⟨code, hcode, h⟩
  · rw [h] at hrelay hfilm ⊢
    rw [if_neg (by simp [Server.acceptCode]), Yields, wp_run_pure, onExcept_ok]
    constructor
    · exact hsound'
    · rw [hfilm]
      exact hcounted
    · rw [hfilm]
      simp [hstale, staleAfter, Server.acceptCode]
    · exact ⟨n + 1, hrelay⟩
  · have hne : code ≠ 354 := by omega
    rw [h] at hrelay hfilm ⊢
    rw [if_pos hne, Yields, wp_run_throw, onExcept_error]
    apply owes_refused hsound' _ hrelay rfl rfl
    · rw [hfilm]
      simp [staleAfter, hne]
    · rw [hfilm]
      exact hcounted

/-- The text of a message ends the transaction, whatever the queue replies. -/
theorem owes_message {raw : Bytes} (h : Awaited s) :
  Yields (fun _ => Owes) (queueMessage raw >>= fun _ => queueReply) s
  := by
  obtain ⟨hsound, hcounted, hstale, n, hawaited⟩ := h
  rw [Yields, wp_run_bind]
  apply (wp_run_ask (Request.queueMessage raw) _ s).mpr
  intro response _
  have htaken : relaying.filmed.exec (.queueMessage raw) response s =
      (.ok (), { s.1 with down := some (Server.take response ⟨some n, true, []⟩) },
        (s.1, ⟨.queueMessage raw, .ok ()⟩) :: s.2) := by
    simp only [World.filmed, relaying, Request.react, Relay.withDown, hawaited]
  have hturn : InTurn (progress s.2) s.1 ⟨.queueMessage raw, .ok ()⟩ := by
    intro server hserver
    rw [hawaited] at hserver
    cases hserver
    rfl
  rw [htaken, onExcept_ok]
  apply (wp_run_ask Request.queueReply _ _).mpr
  intro c _
  rw [exec_queueReply c rfl rfl]
  constructor
  · refine Sound.cons (hsound.cons hturn (not_starts _ (by simp))) ?_ (not_starts _ (by simp))
    trivial
  · exact hcounted
  · rintro _ ⟨⟩
    exact ⟨rfl, rfl, hstale.symm⟩

/-- However a delivery ends, the server is idle afterwards. -/
theorem owes_deliver {envelope : Envelope} {raw : Bytes} (h : Connected s)
    (hproper : ∀ line ∈ envelope.xforward, verbOf line = "XFORWARD")
    (hnamed : envelope.recipients ≠ []) :
  Yields (fun _ => Owes) (deliver envelope raw) s
  := by
  have hxforward : Yields
      (onExcept (fun _ s' => Connected s' ∧ ∀ line ∈ ([] : List String), verbOf line = "XFORWARD")
        (fun _ => Connected))
      (forM envelope.xforward fun line => command line 250 "XFORWARD") s := by
    apply wp_run_forM
      (fun lines s' => Connected s' ∧ ∀ line ∈ lines, verbOf line = "XFORWARD") _ ⟨h, hproper⟩
    rintro line lines s' ⟨h', hlines⟩
    have hline : verbOf line ∉ ["MAIL", "RCPT", "DATA", "RSET"] := by
      simp [hlines line List.mem_cons_self]
    apply wp_mono _ (connected_command hline h')
    rintro (e | _) s'' h''
    · exact h''
    · exact ⟨h'', fun l hl => hlines l (List.mem_cons_of_mem _ hl)⟩
  have hrecipients (s' : Filmed) (h' : Opened 0 s') : Yields
      (onExcept
        (fun _ s'' => ∃ n,
          n + ([] : List String).length = envelope.recipients.length ∧ Opened n s'')
        (fun _ => Owes))
      (forM envelope.recipients fun recipient =>
        command ("RCPT TO:<" ++ recipient ++ ">") 250 "RCPT TO") s' := by
    apply wp_run_forM
      (fun left s'' => ∃ n, n + left.length = envelope.recipients.length ∧ Opened n s'') _
      ⟨0, Nat.zero_add _, h'⟩
    rintro recipient left s₁ ⟨n, hn, h₁⟩
    apply wp_mono _ (opened_rcpt h₁)
    rintro (e | _) s₂ h₂
    · exact h₂
    · refine ⟨n + 1, ?_, h₂⟩
      rw [List.length_cons] at hn
      omega
  rw [deliver, Yields, wp_run_bind]
  apply wp_mono _ hxforward
  rintro (e | _) s₁ h₁
  · apply h₁.owes
  · rw [onExcept_ok, wp_run_bind]
    apply wp_mono _ (opened_mail h₁.1)
    rintro (e | _) s₂ h₂
    · apply h₂
    · rw [onExcept_ok, wp_run_bind]
      apply wp_mono _ (hrecipients s₂ h₂)
      rintro (e | _) s₃ h₃
      · apply h₃
      · obtain ⟨n, hn, h₃⟩ := h₃
        rw [onExcept_ok, wp_run_bind]
        cases n with
        | zero =>
            have := List.length_pos_iff.mpr hnamed
            simp only [List.length_nil] at hn
            omega
        | succ n =>
            apply wp_mono _ (awaited_data h₃)
            rintro (e | _) s₄ h₄
            · apply h₄
            · apply owes_message h₄

/-! ### Turns -/

theorem proper_clear :
  ∀ envelope, some Envelope.clear = some envelope →
    ∀ line ∈ envelope.xforward, verbOf line = "XFORWARD"
  := by
  rintro _ ⟨⟩ line hline
  cases hline

/-- `QUIT` starts no delivery. -/
theorem sound_quit {r : Smtp.Answer (.queueLine "QUIT")} (h : Over s) :
  Sound ((s.1, ⟨.queueLine "QUIT", r⟩) :: s.2)
  := by
  have hturn : InTurn (progress s.2) s.1 ⟨.queueLine "QUIT", r⟩ := h.replies
  apply h.sound.cons hturn
  rintro ⟨-, -, line, hline, hne⟩
  cases hline
  exact hne rfl

/-- The connection to the queue is closed, and nothing is answered. -/
theorem stands_closeDownstream (h : Stands answers s) :
  Yields (fun _ => Stands answers) closeDownstream s
  := by
  rw [closeDownstream, Yields, wp_run_bind]
  apply wp_mono _ (stands_queueIsOpen h)
  rintro _ s₁ ⟨rfl, h₁, hdown, -⟩
  rw [onExcept_ok]
  cases hserver : s.1.down with
  | none =>
      rw [Option.isSome_none, if_neg (by simp), wp_run_pure]
      exact h₁
  | some server =>
      rw [hserver] at hdown
      rw [Option.isSome_some, if_pos rfl, wp_run_bind, wp_run_attempt]
      apply (wp_run_ask (Request.queueLine "QUIT") _ s₁).mpr
      intro response _
      rw [exec_queueLine "QUIT" response hdown, onExcept_ok]
      apply (wp_run_ask Request.closeQueue _ _).mpr
      intro c _
      constructor
      · refine Sound.cons (sound_quit h₁.over) ?_ (not_starts _ (by simp))
        trivial
      · exact h₁.counted
      · rintro server' ⟨⟩

/-- A message that was accepted is handed on, or the session ends or goes on without it. -/
theorem rounds_handOn {envelope : Envelope} {raw : Bytes} (h : Owes s)
    (hproper : ∀ line ∈ envelope.xforward, verbOf line = "XFORWARD")
    (hnamed : envelope.recipients ≠ []) :
  Yields Rounds (handOn envelope raw) s
  := by
  rw [handOn, Yields, wp_run_bind]
  apply wp_mono _ (stands_queueIsOpen h)
  rintro _ s₁ ⟨rfl, h₁, hdown, -⟩
  rw [onExcept_ok]
  cases hserver : s.1.down with
  | none =>
      apply rounds_answer h₁
      rintro _ ⟨⟩
  | some server =>
      have hconnected : Connected s₁ := by
        constructor
        · exact h₁
        · rw [hdown, hserver]
          rfl
      rw [Option.isSome_some, if_pos rfl, wp_run_bind, wp_run_attempt]
      apply wp_mono _ (owes_deliver hconnected hproper hnamed)
      rintro (e | reply) s₂ h₂
      · simp only [onExcept_ok]
        split
        · rw [wp_run_throw]
          apply h₂.over
        · apply rounds_answer h₂ proper_clear
      · apply rounds_answer h₂ proper_clear

theorem rounds_judge {parseMail : Bytes → Option ParsedMail} {mode : Mode} {envelope : Envelope}
    {raw : Bytes} (h : Owes s)
    (hproper : ∀ line ∈ envelope.xforward, verbOf line = "XFORWARD")
    (hnamed : envelope.recipients ≠ []) :
  Yields Rounds (judge parseMail mode envelope raw) s
  := by
  rw [judge]
  split
  · rw [Yields, sendLine, wp_run_bind]
    apply wp_mono _ (yields_answer h)
    rintro (e | _) s₁ h₁
    · apply h₁
    · rw [onExcept_ok, wp_run_bind]
      apply wp_mono _ (stands_closeDownstream h₁)
      rintro (e | _) s₂ h₂
      · apply h₂.over
      · rw [onExcept_ok, wp_run_pure]
        exact ⟨h₂, proper_clear _ rfl⟩
  · rename_i strip _
    obtain ⟨envelope', henvelope⟩ : ∃ envelope', envelope' =
        if strip then { envelope with mailFrom := some "" } else envelope := ⟨_, rfl⟩
    have hsame : envelope'.xforward = envelope.xforward ∧
        envelope'.recipients = envelope.recipients := by
      rw [henvelope]
      split
      · exact ⟨rfl, rfl⟩
      · exact ⟨rfl, rfl⟩
    rw [← henvelope]
    apply rounds_handOn h
    · rw [hsame.1]
      exact hproper
    · rw [hsame.2]
      exact hnamed

theorem rounds_data {parseMail : Bytes → Option ParsedMail} {mode : Mode} {envelope : Envelope}
    (h : Owes s) (hproper : ∀ line ∈ envelope.xforward, verbOf line = "XFORWARD") :
  Yields Rounds (data parseMail mode envelope) s
  := by
  rw [data]
  split
  · apply rounds_answer h
    rintro _ ⟨⟩
    exact hproper
  · rename_i hready
    rw [not_or] at hready
    rw [sendLine, Yields, wp_run_bind]
    apply wp_mono _ (yields_answer h)
    rintro (e | _) s₁ h₁
    · apply h₁
    · have hover := h₁.over
      obtain ⟨hsound, hcounted, hidle⟩ := h₁
      rw [onExcept_ok, wp_run_bind]
      apply wp_mono _ (yields_frontal (q := .clientMessage) trivial)
      rintro (e | body) ⟨relay, film⟩ ⟨hdown, rfl⟩
      · exact hover.frontal hdown trivial (by simp)
      · rw [onExcept_ok]
        cases body with
        | eof =>
            rw [wp_run_pure]
            exact hover.frontal hdown trivial (by simp)
        | tooLarge =>
            apply rounds_answer _ proper_clear
            constructor
            · exact hsound.cons hcounted (not_starts _ (by simp))
            · exact hcounted
            · rw [hdown]
              intro server hserver
              exact (hidle server hserver).counted rfl
        | message raw =>
            apply rounds_judge _ hproper hready.2
            constructor
            · exact hsound.cons hcounted (not_starts _ (by simp))
            · exact hcounted
            · rw [hdown]
              intro server hserver
              exact (hidle server hserver).counted rfl

theorem rounds_mail {mode : Mode} {text : String} {envelope : Envelope} (h : Owes s)
    (hproper : ∀ line ∈ envelope.xforward, verbOf line = "XFORWARD") :
  Yields Rounds (mail mode text envelope) s
  := by
  have hquota : Yields (onExcept (fun _ => Owes) (fun _ => Over))
      (withinQuota mode (addressOf text)) s := by
    rw [withinQuota]
    split
    · have hover := h.over
      obtain ⟨hsound, hcounted, hidle⟩ := h
      apply wp_mono _ (yields_frontal (q := .allow _) trivial)
      rintro (e | allowed) ⟨relay, film⟩ ⟨hdown, rfl⟩
      · exact hover.frontal hdown trivial (by simp)
      · constructor
        · exact hsound.cons trivial (not_starts _ (by simp))
        · exact hcounted
        · rw [hdown]
          exact hidle
    · rw [Yields, wp_run_pure]
      exact h
  rw [mail, Yields, wp_run_bind]
  apply wp_mono _ hquota
  rintro (e | allowed) s₁ h₁
  · apply h₁
  · rw [onExcept_ok]
    split
    · apply rounds_answer h₁
      rintro _ ⟨⟩
      exact hproper
    · apply rounds_answer h₁
      rintro _ ⟨⟩
      exact hproper

theorem rounds_quit (h : Owes s) :
  Yields Rounds quit s
  := by
  rw [quit, Yields, wp_run_bind]
  apply wp_mono _ (stands_closeDownstream h)
  rintro (e | _) s₁ h₁
  · apply h₁.over
  · rw [onExcept_ok, wp_run_bind, wp_run_attempt]
    apply wp_mono _ (yields_answer h₁)
    rintro (e | _) s₂ h₂
    · rw [onExcept_ok, wp_run_pure]
      apply h₂
    · rw [onExcept_ok, wp_run_pure]
      apply h₂.over

theorem rounds_answerCommand {parseMail : Bytes → Option ParsedMail} {mode : Mode}
    {text : String} {envelope : Envelope} (h : Owes s)
    (hproper : ∀ line ∈ envelope.xforward, verbOf line = "XFORWARD") :
  Yields Rounds (answerCommand parseMail mode text envelope) s
  := by
  have rounds_ehlo (hverb : verbOf text ∉ ["MAIL", "RCPT", "DATA", "RSET"]) :
      Yields Rounds (ehlo text envelope) s := by
    apply rounds_passThrough h hverb hproper
    intro reply
    split
    · exact ⟨_, rfl⟩
    · exact ⟨_, rfl⟩
  rw [answerCommand]
  split
  · rename_i hverb
    apply rounds_ehlo
    simp [hverb]
  · rename_i hverb
    apply rounds_ehlo
    simp [hverb]
  · rename_i hverb
    apply rounds_answer h
    rintro _ ⟨⟩ line hline
    rcases List.mem_append.mp hline with hline | hline
    · exact hproper line hline
    · rw [List.mem_singleton.mp hline, hverb]
  · apply rounds_mail h hproper
  · rw [rcpt]
    split
    · apply rounds_answer h
      rintro _ ⟨⟩
      exact hproper
    · apply rounds_answer h
      rintro _ ⟨⟩
      exact hproper
  · apply rounds_data h hproper
  · apply rounds_answer h proper_clear
  · apply rounds_quit h
  · rename_i _ _ _ hmail hrcpt hdata hrset _
    apply rounds_passThrough h _ hproper
    · intro reply
      exact ⟨_, rfl⟩
    · simp only [List.mem_cons, List.not_mem_nil, or_false, not_or]
      exact ⟨hmail, hrcpt, hdata, hrset⟩

theorem rounds_turn {parseMail : Bytes → Option ParsedMail} {mode : Mode} {envelope : Envelope}
    (h : Rests s) (hproper : ∀ line ∈ envelope.xforward, verbOf line = "XFORWARD") :
  Yields Rounds (turn parseMail mode envelope) s
  := by
  have hover := h.over
  obtain ⟨hsound, hcounted, hidle⟩ := h
  rw [turn, Yields, wp_run_bind]
  apply wp_mono _ (yields_frontal (q := .clientLine) trivial)
  rintro (e | line) ⟨relay, film⟩ ⟨hdown, rfl⟩
  · exact hover.frontal hdown trivial (by simp)
  · rw [onExcept_ok]
    cases line with
    | none =>
        rw [wp_run_pure]
        exact hover.frontal hdown trivial (by simp)
    | some line =>
        apply rounds_answerCommand _ hproper
        constructor
        · exact hsound.cons hcounted (not_starts _ (by simp))
        · exact hcounted
        · rw [hdown]
          intro server hserver
          exact (hidle server hserver).counted rfl

/-! ### Whole sessions -/

/-- However long the loop runs, the session may end after it. -/
theorem over_converseFrom {parseMail : Bytes → Option ParsedMail} {mode : Mode} {fuel : Nat}
    {envelope : Envelope} (h : Rests s)
    (hproper : ∀ line ∈ envelope.xforward, verbOf line = "XFORWARD") :
  Yields (fun _ => Over) (converseFrom parseMail mode fuel envelope) s
  := by
  induction fuel generalizing envelope s with
  | zero =>
      rw [converseFrom, Yields, wp_run_pure]
      apply h.over
  | succ fuel ih =>
      rw [converseFrom, Yields, wp_run_bind]
      apply wp_mono _ (rounds_turn h hproper)
      rintro (e | _ | envelope) s₁ h₁
      · apply h₁
      · rw [onExcept_ok, wp_run_pure]
        apply h₁
      · rw [onExcept_ok]
        apply ih h₁.1 h₁.2

/-- The queue is told that the session is over, if there is a connection. -/
theorem sound_afterGreeting {parseMail : Bytes → Option ParsedMail} {mode : Mode} {fuel : Nat}
    (h : Rests s) :
  Yields (fun _ s' => Sound s'.2)
    (do
      let _ ← attempt (converse parseMail mode fuel)
      if ← queueIsOpen then
        let _ ← attempt (queueLine "QUIT"))
    s
  := by
  rw [Yields, wp_run_bind, wp_run_attempt]
  apply wp_mono _ (over_converseFrom h (proper_clear _ rfl))
  intro _ s₁ h₁
  rw [onExcept_ok, wp_run_bind]
  apply wp_mono _ (yields_frontal (q := .queueIsOpen) trivial)
  rintro (e | isOpen) ⟨relay, film⟩ ⟨hdown, rfl⟩
  · exact h₁.sound.cons trivial (not_starts _ (by simp))
  · have hover : Over (relay, (s₁.1, ⟨.queueIsOpen, .ok isOpen⟩) :: s₁.2) :=
      h₁.frontal hdown trivial (by simp)
    rw [onExcept_ok]
    split
    · rw [wp_run_bind, wp_run_attempt]
      apply (wp_run_ask (Request.queueLine "QUIT") _ _).mpr
      intro response _
      rw [onExcept_ok, wp_run_pure]
      apply sound_quit hover
    · rw [wp_run_pure]
      apply hover.sound

/-- An answer before the first command, whose failure is ignored. -/
theorem sound_attempt_answer {bytes : Bytes} (hsound : Sound s.2)
    (hcounted : (progress s.2).answers ≤ (progress s.2).reads) :
  Yields (fun _ s' => Sound s'.2) (attempt (answer bytes) >>= fun _ => pure ()) s
  := by
  rw [Yields, wp_run_bind, wp_run_attempt]
  apply wp_mono _ (yields_frontal (q := .answer bytes) trivial)
  rintro (e | _) ⟨relay, film⟩ ⟨-, rfl⟩
  · rw [onExcept_ok, wp_run_pure]
    exact hsound.cons trivial (not_starts _ (by simp))
  · rw [onExcept_ok, wp_run_pure]
    exact hsound.cons hcounted (not_starts _ (by simp))

/-- The queue is there with its greeting, if connecting has succeeded. -/
theorem yields_connect (s : Relay) :
  Yields
    (fun r s' => ∃ relay, s' = (relay, [(s, ⟨.connect, r⟩)]) ∧
      (r = .ok () → ∃ greeting, relay.down = some ⟨none, false, [greeting]⟩))
    connect (s, [])
  := by
  apply (wp_run_ask Request.connect _ _).mpr
  rintro (e | greeting) -
  · refine ⟨_, rfl, ?_⟩
    rintro ⟨⟩
  · refine ⟨_, rfl, ?_⟩
    intro _
    exact ⟨greeting, rfl⟩

/-- Whatever the client, the queue and the clock do, every session is sound. -/
theorem sound_serve {parseMail : Bytes → Option ParsedMail} {mode : Mode} {fuel : Nat}
    {s : Relay} :
  Yields (fun _ s' => Sound s'.2) (serve parseMail mode fuel) (s, [])
  := by
  have hempty : Sound [] := trivial
  have hconnected (r : Smtp.Answer .connect) : Sound [(s, ⟨.connect, r⟩)] := by
    refine hempty.cons ?_ (not_starts _ (by simp))
    trivial
  rw [serve, Yields, wp_run_bind, wp_run_attempt]
  apply wp_mono _ (yields_connect s)
  rintro (e | _) _ ⟨relay, rfl, hgreeting⟩
  · apply sound_attempt_answer (hconnected _)
    apply Nat.le_refl
  · obtain ⟨greeting, hdown⟩ := hgreeting rfl
    rw [onExcept_ok]
    simp only
    rw [wp_run_bind, wp_run_attempt]
    apply (wp_run_ask Request.queueReply _ _).mpr
    intro c _
    rw [exec_queueReply c hdown rfl, onExcept_ok]
    have howes (relay : Relay) (hdown : relay.down = some ⟨none, false, []⟩) (before : Relay) :
        Owes (relay, [(before, ⟨.queueReply, .ok greeting⟩), (s, ⟨.connect, .ok ()⟩)]) := by
      constructor
      · refine (hconnected _).cons ?_ (not_starts _ (by simp))
        trivial
      · rfl
      · rw [hdown]
        rintro _ ⟨⟩
        exact ⟨rfl, rfl, rfl⟩
    split
    · rw [wp_run_bind, wp_run_attempt]
      apply wp_mono _ (yields_answer (howes _ rfl _))
      rintro (e | _) s₁ h₁
      · rw [onExcept_ok, wp_run_pure]
        apply h₁.sound
      · rw [onExcept_ok]
        apply sound_afterGreeting h₁
    · apply sound_attempt_answer
      · apply (howes _ rfl _).sound
      · apply Nat.le_refl

/-! ### Deliveries that start afresh -/

/-- The requests to the queue. -/
def Rear : Request → Prop
  | .queueLine _ | .queueMessage _ | .queueReply => True
  | _ => False

/-- A request to the queue is answered by the server alone. -/
theorem react_rear {q : Request} (hq : Rear q) (c : q.Reaction) {s s' : Relay}
    (hdown : s.down = s'.down) :
  (q.react c s).1 = (q.react c s').1 ∧ (q.react c s).2.down = (q.react c s').2.down
  := by
  have withDown_congr {α : Type} (f : Server → Except IoError α × Server) :
      (s.withDown f).1 = (s'.withDown f).1 ∧
        (s.withDown f).2.down = (s'.withDown f).2.down := by
    unfold Relay.withDown
    rw [← hdown]
    split
    · rename_i hnone
      exact ⟨rfl, hdown⟩
    · exact ⟨rfl, rfl⟩
  cases q with
  | queueLine line => apply withDown_congr
  | queueMessage raw => apply withDown_congr
  | queueReply => apply withDown_congr
  | _ => cases hq

/-- A program of such requests depends on the server alone. -/
theorem runFrom_rear {α : Type} {p : Program Smtp α} (hp : Every Rear p)
    (script : Script relaying) (n : Nat) {s s' : Relay} (hdown : s.down = s'.down) :
  (runFrom relaying script n p s).1 = (runFrom relaying script n p s').1 ∧
    (runFrom relaying script n p s).2.down = (runFrom relaying script n p s').2.down
  := by
  induction p generalizing n s s' with
  | done a => exact ⟨rfl, hdown⟩
  | call q k ih =>
      obtain ⟨hq, hk⟩ := (every_call q k).mp hp
      obtain ⟨hanswer, hdown'⟩ := react_rear hq (script n q) hdown
      have hrest := ih (q.react (script n q) s).1 (hk _) (n + 1) hdown'
      rw [hanswer] at hrest
      change (runFrom relaying script (n + 1) (k (q.react (script n q) s).1)
          (q.react (script n q) s).2).1 = _ ∧
        (runFrom relaying script (n + 1) (k (q.react (script n q) s).1)
          (q.react (script n q) s).2).2.down = _
      rw [hanswer]
      exact hrest

theorem every_deliver (envelope : Envelope) (raw : Bytes) :
  Every Rear (deliver envelope raw).run
  := by
  have every_command (line what : String) (code : Nat) :
      Every Rear (command line code what).run := by
    apply every_run_bind ((every_run_ask (Request.queueLine line)).mpr trivial)
    intro _
    apply every_run_bind ((every_run_ask Request.queueReply).mpr trivial)
    intro reply
    split
    · apply every_run_throw
    · apply every_run_pure
  apply every_run_bind (every_run_forM fun _ _ => every_command _ _ _)
  intro _
  apply every_run_bind (every_command _ _ _)
  intro _
  apply every_run_bind (every_run_forM fun _ _ => every_command _ _ _)
  intro _
  apply every_run_bind (every_command _ _ _)
  intro _
  apply every_run_bind ((every_run_ask (Request.queueMessage raw)).mpr trivial)
  intro _
  exact (every_run_ask Request.queueReply).mpr trivial

/-- A message is delivered afresh by an idle server without a transaction. -/
theorem deliversAfresh_of_closed {p : Progress} {before : Relay} {server : Server}
    (hdown : before.down = some server) (hidle : Idle p server)
    (hclosed : server.transaction = none) :
  DeliversAfresh before
  := by
  intro fresh script n envelope raw hfresh
  apply runFrom_rear (every_deliver envelope raw)
  obtain ⟨transaction, receiving, replies⟩ := server
  obtain ⟨rfl, rfl, -⟩ := hidle
  rw [hdown, hfresh, Server.ready]
  rw [show transaction = none from hclosed]

/-- A session is hygienic just if no message is handed on after the queue has refused a recipient
or `DATA`, unless the client has greeted again. -/
theorem serve_hygienic_iff (parseMail : Bytes → Option ParsedMail) (mode : Mode) (fuel : Nat)
    (script : Script relaying.filmed) (s : Relay) :
  Hygienic (run relaying.filmed script (serve parseMail mode fuel).run (s, [])).2.2 ↔
    Past.Throughout
      (fun step earlier => Starts (progress earlier) step.2 → (progress earlier).stale = false)
      (run relaying.filmed script (serve parseMail mode fuel).run (s, [])).2.2
  := by
  have hsound : Sound (run relaying.filmed script (serve parseMail mode fuel).run (s, [])).2.2 :=
    wp_run_always sound_serve
  generalize (run relaying.filmed script (serve parseMail mode fuel).run (s, [])).2.2 = film at *
  have hall := Past.throughout_iff.mp hsound
  constructor
  · intro h
    apply Past.throughout_iff.mpr
    intro later step earlier hsplit hstarts
    obtain ⟨server, hdown, hidle⟩ := (hall later step earlier hsplit).2 hstarts
    obtain ⟨server', hdown', hclosed⟩ :=
      Past.throughout_iff.mp h.closed later step earlier hsplit hstarts
    rw [hdown] at hdown'
    cases hdown'
    rw [← hidle.transaction, hclosed]
    rfl
  · intro h
    have hclosed : ∀ later step earlier, film = later ++ step :: earlier →
        Starts (progress earlier) step.2 →
        ∃ server, step.1.down = some server ∧ Idle (progress earlier) server ∧
          server.transaction = none := by
      intro later step earlier hsplit hstarts
      obtain ⟨server, hdown, hidle⟩ := (hall later step earlier hsplit).2 hstarts
      refine ⟨server, hdown, hidle, ?_⟩
      have hstale := Past.throughout_iff.mp h later step earlier hsplit hstarts
      rw [← hidle.transaction] at hstale
      simpa using hstale
    constructor
    · apply Past.throughout_iff.mpr
      intro later step earlier hsplit
      apply (hall later step earlier hsplit).1
    · apply Past.throughout_iff.mpr
      intro later step earlier hsplit hstarts
      obtain ⟨server, hdown, -, hnone⟩ := hclosed later step earlier hsplit hstarts
      exact ⟨server, hdown, hnone⟩
    · apply Past.throughout_iff.mpr
      intro later step earlier hsplit hstarts
      obtain ⟨server, hdown, hidle, hnone⟩ := hclosed later step earlier hsplit hstarts
      apply deliversAfresh_of_closed hdown hidle hnone

/-! ### A recipient that is refused -/

/-- A setup message. -/
def setupMessage : Bytes :=
  asBytes "Content-Type: application/autocrypt-setup\r\n\r\nx\r\n"

/-- The parser on that message. -/
def parseSetup (raw : Bytes) : Option ParsedMail :=
  if raw = setupMessage then
    some
      { headers := [("Content-Type", "application/autocrypt-setup")]
        bodyRaw := some (asBytes "x\r\n")
        subparts := [] }
  else none

/-- A peer that sends the message twice, to different recipients. -/
def sendingTwice : Relay :=
  let transaction (recipient : Bytes) := asBytes "MAIL FROM:<a@b.ex>\r\nRCPT TO:<" ++ recipient ++
    asBytes ">\r\nDATA\r\n" ++ setupMessage ++ asBytes ".\r\n"
  let up := transaction (asBytes "gone") ++ transaction (asBytes "user")
  ⟨⟨⟨[], [.ok up]⟩, []⟩, none, RateLimiter.new 60 10⟩

/-- A queue that knows the second recipient only. -/
def knowing : Script relaying.filmed
  | _, .connect => .ok ⟨220, []⟩
  | _, .queueLine line => ⟨[], if line = "RCPT TO:<gone>" then some 150 else none⟩
  | _, .queueMessage _ => ⟨[], none⟩
  | _, .answer _ => .all
  | _, .allow _ => (0 : Nat)
  | _, .clientLine => ()
  | _, .clientMessage => ()
  | _, .queueIsOpen => ()
  | _, .queueReply => ()
  | _, .closeQueue => ()

/-- Whether a delivery starts in an open transaction. -/
def Film.startsOpen : Film → Bool
  | (before, ⟨.queueLine line, _⟩) :: earlier =>
      (progress earlier).message && (progress earlier).asked == none && line != "QUIT" &&
        before.down.any (·.transaction.isSome)
  | _ => false

/-- The transaction of the first message stays open when its recipient is refused, and the second
message is handed on into it. -/
theorem sendingTwice_not_hygienic :
  ¬ Hygienic (run relaying.filmed knowing (serve parseSetup .incoming 10).run
    (sendingTwice, [])).2.2
  := by
  intro h
  have hopen : (run relaying.filmed knowing (serve parseSetup .incoming 10).run
      (sendingTwice, [])).2.2.tails.any Film.startsOpen = true := by decide +kernel
  generalize (run relaying.filmed knowing (serve parseSetup .incoming 10).run
    (sendingTwice, [])).2.2 = film at h hopen
  obtain ⟨tail, htail, hstarts⟩ := List.any_eq_true.mp hopen
  obtain ⟨later, hsplit⟩ := (List.mem_tails _ _).mp htail
  unfold Film.startsOpen at hstarts
  split at hstarts
  · rename_i before line r earlier
    simp only [Bool.and_eq_true, beq_iff_eq, bne_iff_ne] at hstarts
    obtain ⟨⟨⟨hmessage, hasked⟩, hline⟩, hopened⟩ := hstarts
    obtain ⟨server, hdown, hnone⟩ := Past.throughout_iff.mp h.closed later _ earlier hsplit.symm
      ⟨hmessage, hasked, line, rfl, hline⟩
    simp only at hdown
    rw [hdown, Option.any_some, hnone] at hopened
    cases hopened
  · cases hstarts

end Filtermail
