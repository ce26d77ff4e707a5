import Noombat.Chat.Message
import Noombat.Program.Threads
import Noombat.Table
import Noombat.Federation.Types

/-!
# The relay of the chat

A session relays between a client and the mail server: it submits the messages that the client
sends, and passes on those that it fetches from the client's mailbox.  Beside the sessions, the
addresses that an actor has blocked are added and removed.  A session is given the frames that
arrive on its socket; a task that panics stops where it is.
-/

namespace Chat

open Federation (Uuid NoombatError)

structure ChatActor where
  id : Uuid
  chatmailAddr : Option String
  actorStatus : String
  deriving DecidableEq

/-- Two actors have different identifiers. -/
def ChatActor.Apart (r r' : ChatActor) : Prop :=
  r.id ≠ r'.id

instance : DecidableRel ChatActor.Apart :=
  fun _ _ => inferInstanceAs (Decidable (_ ≠ _))

instance : Std.Symm ChatActor.Apart :=
  ⟨fun _ _ h => h.symm⟩

/-- A row of `chatmail_blocks`. -/
structure Block where
  actorId : Uuid
  blockedAddr : String
  deriving DecidableEq

/-- Two blocks are of different actors or of different addresses. -/
def Block.Apart (r r' : Block) : Prop :=
  r ≠ r'

instance : DecidableRel Block.Apart :=
  fun _ _ => inferInstanceAs (Decidable (_ ≠ _))

instance : Std.Symm Block.Apart :=
  ⟨fun _ _ h => h.symm⟩

structure Db where
  actors : Table ChatActor.Apart
  blocks : Table Block.Apart

/-! ### Statements -/

inductive RelaySql where
  /-- The address and the status of an actor. -/
  | selectActor (actorId : Uuid)
  /-- Whether there is a block of an address. -/
  | isSenderBlocked (actorId : Uuid) (senderAddr : String)
  /-- A block is stored, unless it is there. -/
  | blockSender (actorId : Uuid) (blockedAddr : String)
  | unblockSender (actorId : Uuid) (blockedAddr : String)

@[reducible]
def RelaySql.Result : RelaySql → Type
  | selectActor _ => Option String × String
  | isSenderBlocked _ _ => Bool
  | _ => Unit

def RelaySql.exec : (s : RelaySql) → Db → Except NoombatError s.Result × Db
  | selectActor actorId, db =>
      match db.actors.find (·.id == actorId) with
      | some r => (.ok (r.chatmailAddr, r.actorStatus), db)
      | none =>
          (.error (.database
            "no rows returned by a query that expected to return at least one row"), db)
  | isSenderBlocked actorId senderAddr, db =>
      (.ok (db.blocks.rows.any (· == ⟨actorId, senderAddr⟩)), db)
  | blockSender actorId blockedAddr, db =>
      if db.actors.rows.any (·.id == actorId) then
        match db.blocks.insert ⟨actorId, blockedAddr⟩ with
        | some blocks => (.ok (), { db with blocks })
        | none => (.ok (), db)
      else (.error (.database "insert or update violates foreign key constraint"), db)
  | unblockSender actorId blockedAddr, db =>
      (.ok (), { db with blocks := db.blocks.delete (· == ⟨actorId, blockedAddr⟩) })

/-! ### What the relay exchanges -/

inductive ClientMessage where
  | auth (password : String)
  | send («to» bodyB64 : String) (autocryptHeaderB64 : Option String)
  | fetch (sinceUid : UInt32)
  | ack (uid : UInt32)

inductive ServerMessage where
  | ready
  | message (uid : UInt32) («from» bodyB64 : String) (autocryptHeaderB64 : Option String)
      (timestamp : Int)
  | sent («to» : String)
  | error (message : String)

/-- What arrives on the socket. -/
inductive Frame where
  /-- A message of the client, or why the text is none. -/
  | text (message : Except String ClientMessage)
  | close
  | ping
  | other
  /-- The socket fails. -/
  | error
  /-- Nothing arrives for as long as the session waits. -/
  | silence

/-- A message in the mailbox, as it is fetched. -/
structure Fetched where
  uid : Option UInt32
  body : Option Bytes
  /-- The time at which it arrived, or else that at which it is fetched. -/
  timestamp : Int

inductive RelayRequest where
  | sql (s : RelaySql)
  /-- The response to the request for a socket, which is upgraded if there is no error. -/
  | respond (r : Except NoombatError Unit)
  | connectImap (address password : String)
  | uidFetch (query : String)
  | uidStore (uid : UInt32)
  | logout
  | submit (m : Submission)
  /-- A message is sent to the client. -/
  | push (m : ServerMessage)
  | pong

@[reducible]
def RelayRequest.Answer : RelayRequest → Type
  | sql s => Except NoombatError s.Result
  | connectImap _ _ => Except String Unit
  | uidFetch _ => Except String (List (Except String Fetched))
  | submit _ => Except String Unit
  | push _ => Except Unit Unit
  | _ => Unit

abbrev Relaying : Interface :=
  ⟨RelayRequest, RelayRequest.Answer⟩

/-- The world of the relay.  A statement fails with the error chosen, if there is one; what the
mail server and the client answer is chosen. -/
def relayWorld : World Relaying Db where
  Choice
    | .sql _ => Option NoombatError
    | q => q.Answer
  exec
    | .sql s, c, db =>
        match c with
        | some e => (.error e, db)
        | none => s.exec db
    | .respond _, c, db => (c, db)
    | .connectImap _ _, c, db => (c, db)
    | .uidFetch _, c, db => (c, db)
    | .uidStore _, c, db => (c, db)
    | .logout, c, db => (c, db)
    | .submit _, c, db => (c, db)
    | .push _, c, db => (c, db)
    | .pong, c, db => (c, db)

abbrev RelayProgram (α : Type) : Type :=
  Program Relaying α

/-- The program that makes one request of the relay. -/
def ask (q : RelayRequest) : RelayProgram q.Answer :=
  Program.request (I := Relaying) q

def push (m : ServerMessage) : RelayProgram Unit := do
  let _ ← ask (.push m)
  return ()

/-! ### Fetching -/

variable (lib : MailLibrary)

/-- The message that is passed on for one that was fetched, if it is passed on. -/
def serverMessage (fetched : Fetched) : Option (Option ServerMessage) :=
  match fetched.uid, fetched.body with
  | some uid, some body => do
      let extracted ← extractFrom lib body
      let «from» := (extracted.toOption.getD none).getD ""
      if «from».isEmpty then return none
      else
        match extractCiphertextBody lib body with
        | .error _ => return none
        | .ok ciphertext =>
            let header := ((extractAutocryptHeader lib body).toOption.getD none).map fun h =>
              lib.encode (Text.asBytes h)
            return some (.message uid «from» (lib.encode ciphertext) header fetched.timestamp)
  | _, _ => some none

/-- The messages that are passed on for those that were fetched. -/
def serverMessages : List (Except String Fetched) → Option (List ServerMessage)
  | [] => some []
  | .error _ :: results => serverMessages results
  | .ok fetched :: results => do
      let m ← serverMessage lib fetched
      let ms ← serverMessages results
      return m.toList ++ ms

/-- The messages after the one with the identifier given, all of them after zero. -/
def fetchQuery (sinceUid : UInt32) : String :=
  if sinceUid = 0 then "1:*" else s!"{(sinceUid + 1).toNat}:*"

/-- Messages are passed on until the socket fails. -/
def passOn : List ServerMessage → RelayProgram Unit
  | [] => pure ()
  | m :: ms => do
      let pushed ← ask (.push m)
      match pushed with
      | .error _ => pure ()
      | .ok _ => passOn ms

/-! ### Commands -/

/-- Whether the actor has blocked an address; it has not if this cannot be found out. -/
def isSenderBlocked (actorId : Uuid) (senderAddr : String) : RelayProgram Bool := do
  let blocked ← ask (.sql (.isSenderBlocked actorId senderAddr))
  return blocked.toOption.getD false

/-- A message is submitted for the client. -/
def submit (m : Submission) : RelayProgram Unit := do
  let submitted ← ask (.submit m)
  match submitted with
  | .ok _ => push (.sent m.to)
  | .error e => push (.error s!"send failed: SMTP send failed: {e}")

/-- Whether the task goes on after a command of the client. -/
def handle (actorId : Uuid) (chatmailAddr : String) : ClientMessage → RelayProgram Bool
  | .auth _ => do
      push (.error "already authenticated")
      return true
  | .send «to» bodyB64 autocryptHeaderB64 => do
      let blocked ← isSenderBlocked actorId «to»
      if blocked then do
        push (.error "recipient has blocked this address")
        return true
      else
        match composeMessage lib chatmailAddr «to» bodyB64 autocryptHeaderB64 with
        | none => return false
        | some (.error e) => do
            push (.error s!"send failed: {e}")
            return true
        | some (.ok m) => do
            submit m
            return true
  | .fetch sinceUid => do
      let fetched ← ask (.uidFetch (fetchQuery sinceUid))
      match fetched with
      | .error e => do
          push (.error s!"fetch failed: IMAP FETCH failed: {e}")
          return true
      | .ok results =>
          match serverMessages lib results with
          | none => return false
          | some ms => do
              passOn ms
              return true
  | .ack uid => do
      ask (.uidStore uid)
      return true

/-! ### Sessions -/

/-- Whether the task goes on after the last frame of the session. -/
def relayLoop (actorId : Uuid) (chatmailAddr : String) : List Frame → RelayProgram Bool
  | [] => return true
  | .error :: _ => return true
  | .close :: _ => return true
  | .silence :: _ => do
      push (.error "session timed out due to inactivity")
      return true
  | .ping :: frames => do
      ask .pong
      relayLoop actorId chatmailAddr frames
  | .other :: frames => relayLoop actorId chatmailAddr frames
  | .text (.error e) :: frames => do
      push (.error s!"invalid message: {e}")
      relayLoop actorId chatmailAddr frames
  | .text (.ok m) :: frames => do
      let alive ← handle lib actorId chatmailAddr m
      if alive then relayLoop actorId chatmailAddr frames else return false

/-- The password that the client authenticates with, and the frames after it. -/
def awaitAuth : List Frame → RelayProgram (Option (String × List Frame))
  | [] => return none
  | .error :: _ => return none
  | .close :: _ => return none
  | .silence :: _ => do
      push (.error "auth timeout")
      return none
  | .ping :: frames => do
      ask .pong
      awaitAuth frames
  | .other :: frames => awaitAuth frames
  | .text (.ok (.auth password)) :: frames => return some (password, frames)
  | .text _ :: _ => do
      push (.error "first message must be auth")
      return none

def handleWs (actorId : Uuid) (chatmailAddr : String) (frames : List Frame) :
    RelayProgram Unit := do
  let authenticated ← awaitAuth frames
  match authenticated with
  | none => pure ()
  | some (password, frames) => do
      let connected ← ask (.connectImap chatmailAddr password)
      match connected with
      | .error _ => push (.error "IMAP authentication failed")
      | .ok _ => do
          push .ready
          let alive ← relayLoop lib actorId chatmailAddr frames
          if alive then ask .logout else pure ()

/-- What a statement that fails says. -/
def failure : NoombatError → String
  | .database message => message
  | _ => ""

/-- The upgrade of a request of an actor to a socket. -/
def wsUpgrade (actorId : Uuid) (frames : List Frame) : RelayProgram Unit := do
  let found ← ask (.sql (.selectActor actorId))
  match found with
  | .error e => ask (.respond (.error (.internal s!"actor lookup failed: {failure e}")))
  | .ok (chatmailAddr, actorStatus) =>
      if actorStatus = "active" ∨ actorStatus = "silenced" then
        match chatmailAddr with
        | none =>
            ask (.respond (.error (.badRequest "chat not provisioned for this account")))
        | some chatmailAddr => do
            ask (.respond (.ok ()))
            handleWs lib actorId chatmailAddr frames
      else ask (.respond (.error .forbidden))

inductive Call where
  /-- An actor, if there is one, opens a session, in which the frames arrive. -/
  | connect (viewer : Option Uuid) (frames : List Frame)
  | block (actorId : Uuid) (blockedAddr : String)
  | unblock (actorId : Uuid) (blockedAddr : String)

/-- The program of a task, on an instance that has a mail server. -/
def Call.program : Call → RelayProgram Unit
  | connect none _ => ask (.respond (.error .forbidden))
  | connect (some actorId) frames => wsUpgrade lib actorId frames
  | block actorId blockedAddr => do
      let _ ← ask (.sql (.blockSender actorId blockedAddr))
      return ()
  | unblock actorId blockedAddr => do
      let _ ← ask (.sql (.unblockSender actorId blockedAddr))
      return ()

end Chat
