import Noombat.Program.Phases
import Noombat.Program.Past
import Noombat.Transactions
import Noombat.Text
import Noombat.Federation.Types

/-!
# Proving control of an address

An account asks for a challenge for an address, and whoever has the token of the challenge
redeems it, which writes the address onto the account.  The challenge is consumed and the address
written in one transaction.  Every other statement is a transaction of its own; any statement may
fail, and has no effect then.
-/

namespace Identity.Email

open Federation (Uuid DateTime NoombatError)
open Fallible

/-- What comes from elsewhere: the lower case of a string in the program and in the database, and
the hash of a token. -/
structure EmailLibrary where
  toLowercase : String → String
  lower : String → String
  hashToken : String → String

variable (lib : EmailLibrary)

/-! ### Rows -/

/-- The columns of `actors` that addresses are about. -/
structure ActorRow where
  id : Uuid
  isLocal : Bool
  email : Option String
  emailVerifiedAt : Option DateTime
  deriving DecidableEq

/-- The address of a local account, as the unique index has it. -/
def ActorRow.indexed (r : ActorRow) : Option String :=
  if r.isLocal then r.email.map lib.lower else none

/-- Two actors differ in their identifiers, and in their indexed addresses if both have one. -/
def ActorRow.Apart (r r' : ActorRow) : Prop :=
  r.id ≠ r'.id ∧ ∀ address, r.indexed lib = some address → r'.indexed lib ≠ some address

instance : DecidableRel (ActorRow.Apart lib) :=
  fun r r' =>
    match h : r.indexed lib with
    | none => decidable_of_iff (r.id ≠ r'.id) (by simp [ActorRow.Apart, h])
    | some address => decidable_of_iff (r.id ≠ r'.id ∧ r'.indexed lib ≠ some address)
        (by simp [ActorRow.Apart, h])

instance : Std.Symm (ActorRow.Apart lib) :=
  ⟨fun _ _ h => ⟨h.1.symm, fun address h' h'' => h.2 address h'' h'⟩⟩

structure Verification where
  actorId : Uuid
  email : String
  tokenHash : String
  expiresAt : DateTime
  consumedAt : Option DateTime
  createdAt : DateTime
  deriving DecidableEq

/-- Two challenges have different tokens. -/
def Verification.Apart (r r' : Verification) : Prop :=
  r.tokenHash ≠ r'.tokenHash

instance : DecidableRel Verification.Apart :=
  fun _ _ => inferInstanceAs (Decidable (_ ≠ _))

instance : Std.Symm Verification.Apart :=
  ⟨fun _ _ h => Ne.symm h⟩

structure Db where
  actors : Table (ActorRow.Apart lib)
  emailVerifications : Table Verification.Apart
  /-- The challenges that were ever stored, each with its account and its time. -/
  created : List (Uuid × DateTime)

/-! ### Transactions -/

/-- What the statements of a redemption write. -/
inductive Write where
  | consume (tokenHash : String) (time : DateTime)
  | setEmail (actorId : Uuid) (email : String) (time : DateTime)

/-- What a statement of a redemption locks. -/
inductive Lock where
  | challenge (tokenHash : String)
  | actor (id : Uuid)
  | address (indexed : String)
  deriving DecidableEq

abbrev Mail : Type :=
  Store (Db lib) Write Lock

variable {lib}

/-- A challenge is consumed. -/
def Db.consume (tokenHash : String) (time : DateTime) (db : Db lib) : Db lib :=
  { db with
    emailVerifications := db.emailVerifications.update (·.tokenHash == tokenHash)
      (fun r => { r with consumedAt := some time }) fun _ _ h => ⟨h, h, h⟩ }

/-- An actor with another address, proved at the time given. -/
def ActorRow.proved (actorId : Uuid) (email : String) (time : DateTime) (r : ActorRow) : ActorRow :=
  if r.id = actorId then { r with email := some email, emailVerifiedAt := some time } else r

/-- An address is written onto an actor, if the unique index allows it. -/
def Db.setEmail (actorId : Uuid) (email : String) (time : DateTime) (db : Db lib) :
    Option (Db lib) :=
  (Table.ofRows (db.actors.rows.map (·.proved actorId email time))).map fun actors =>
    { db with actors }

def Write.apply : Write → Db lib → Option (Db lib)
  | consume tokenHash time, db => some (db.consume tokenHash time)
  | setEmail actorId email time, db => db.setEmail actorId email time

/-! ### Requests -/

inductive EmailSql where
  /-- Whether another local account has the address. -/
  | taken (folded : String) (actorId : Uuid)
  /-- The number of challenges that an account started in the last hour. -/
  | recent (actorId : Uuid)
  | insert (actorId : Uuid) (email tokenHash : String) (expiresAt : DateTime)
  /-- Returns the transaction, and the time that its statements take for the present. -/
  | begin
  /-- Returns the actor and the address of the challenge. -/
  | consume (tx : Nat) (tokenHash : String)
  /-- Returns whether the unique index allows it. -/
  | setEmail (tx : Nat) (actorId : Uuid) (email : String)
  | commit (tx : Nat)
  | rollback (tx : Nat)
  /-- Returns the number of rows. -/
  | purgeExpired

@[reducible]
def EmailSql.Result : EmailSql → Type
  | taken _ _ => Bool
  | recent _ => Nat
  | insert _ _ _ _ => Unit
  | begin => Nat × DateTime
  | consume _ _ => Option (Uuid × String)
  | setEmail _ _ _ => Bool
  | commit _ => Unit
  | rollback _ => Unit
  | purgeExpired => Nat

structure Challenge where
  token : String
  email : String
  expiresAt : DateTime

/-- What a call returns. -/
inductive Response where
  | requested (r : Except NoombatError Challenge)
  | verified (r : Except NoombatError Uuid)
  | purged (r : Except NoombatError Nat)

inductive EmailRequest where
  | sql (s : EmailSql)
  | mintToken
  | utcNow
  | respond (r : Response)

@[reducible]
def EmailRequest.Result : EmailRequest → Type
  | sql s => s.Result
  | mintToken => String
  | utcNow => DateTime
  | respond _ => Unit

abbrev Emails : Interface :=
  Interface.fallible NoombatError EmailRequest EmailRequest.Result

abbrev EmailHandler (α : Type) : Type :=
  Fallible Emails NoombatError α

/-! ### Statements -/

/-- An hour in nanoseconds. -/
def hour : Int :=
  3600 * 1000000000

/-- A challenge of an account that was started in the hour before the time given. -/
def Verification.isRecent (now : DateTime) (actorId : Uuid) (r : Verification) : Bool :=
  r.actorId == actorId && decide (now - hour < r.createdAt)

/-- A challenge that can be redeemed at the time given. -/
def Verification.isLive (now : DateTime) (tokenHash : String) (r : Verification) : Bool :=
  r.tokenHash == tokenHash && r.consumedAt.isNone && decide (now < r.expiresAt)

/-- A challenge that can no longer be redeemed, and was not. -/
def Verification.isExpired (now : DateTime) (r : Verification) : Bool :=
  r.consumedAt.isNone && decide (r.expiresAt ≤ now)

def noTransaction : NoombatError :=
  .database "there is no transaction in progress"

def lockTimeout : NoombatError :=
  .database "canceling statement due to lock timeout"

/-- The effect of a statement. -/
def EmailSql.exec : (q : EmailSql) → Mail lib → Except NoombatError q.Result × Mail lib
  | taken folded actorId, s =>
      (.ok (s.committed.actors.rows.any fun r =>
        r.indexed lib == some folded && !(r.id == actorId)), s)
  | recent actorId, s =>
      (.ok (s.committed.emailVerifications.rows.countP (·.isRecent s.clock actorId)), s)
  | insert actorId email tokenHash expiresAt, s =>
      if s.committed.actors.rows.any (·.id == actorId) then
        match s.committed.emailVerifications.insert
            ⟨actorId, email, tokenHash, expiresAt, none, s.clock⟩ with
        | none => (.error (.database "duplicate key value violates unique constraint"), s)
        | some emailVerifications => (.ok (), s.withCommitted
            { s.committed with
              emailVerifications
              created := (actorId, s.clock) :: s.committed.created })
      else (.error (.database "insert or update violates foreign key constraint"), s)
  | begin, s => (.ok (s.nextId, s.clock), s.begin)
  | consume tx tokenHash, s =>
      match s.find tx with
      | none => (.error noTransaction, s)
      | some x =>
          match s.committed.emailVerifications.find (·.isLive x.startedAt tokenHash) with
          | none => (.ok none, s)
          | some r =>
              match s.write tx [.consume tokenHash x.startedAt] [.challenge tokenHash] with
              | none => (.error lockTimeout, s)
              | some s' => (.ok (some (r.actorId, r.email)), s')
  | setEmail tx actorId email, s =>
      match s.find tx with
      | none => (.error noTransaction, s)
      | some x =>
          match (s.view Write.apply x).bind (·.setEmail actorId email x.startedAt) with
          | none => (.ok false, s)
          | some _ =>
              match s.write tx [.setEmail actorId email x.startedAt]
                  [.actor actorId, .address (lib.lower email)] with
              | none => (.error lockTimeout, s)
              | some s' => (.ok true, s')
  | commit tx, s =>
      match s.commit Write.apply tx with
      | none => (.error noTransaction, s.close tx)
      | some s' => (.ok (), s')
  | rollback tx, s => (.ok (), s.close tx)
  | purgeExpired, s =>
      let expired := s.committed.emailVerifications.rows.filter (·.isExpired s.clock)
      if expired.any fun r => s.locked (.challenge r.tokenHash) then (.error lockTimeout, s)
      else (.ok expired.length, s.withCommitted
        { s.committed with
          emailVerifications := s.committed.emailVerifications.delete (·.isExpired s.clock) })

/-- The effect of a statement that fails: a transaction that cannot be committed ends. -/
def EmailSql.fail : EmailSql → Mail lib → Mail lib
  | commit tx, s => s.close tx
  | _, s => s

/-- The world of the calls.  A statement fails with the error chosen, or is executed after the
time chosen has passed; the tokens and the times of the program's clock are chosen. -/
def emailWorld (lib : EmailLibrary) : World Emails (Mail lib) where
  Choice
    | .sql _ => Except NoombatError Nat
    | .mintToken => String
    | .utcNow => DateTime
    | .respond _ => Unit
  exec
    | .sql q, c, s =>
        match c with
        | .error e => (.error e, q.fail s)
        | .ok elapsed => q.exec (s.later elapsed)
    | .mintToken, c, s => (.ok c, s)
    | .utcNow, c, s => (.ok c, s)
    | .respond _, _, s => (.ok (), s)

def sql (q : EmailSql) : EmailHandler q.Result :=
  ask (EmailRequest.sql q)

def mintToken : EmailHandler String :=
  ask EmailRequest.mintToken

def utcNow : EmailHandler DateTime :=
  ask EmailRequest.utcNow

/-! ### Addresses -/

def maxLength : Nat := 320

/-- Whether a character is in the Unicode category `Cc`. -/
def isControl (c : Char) : Bool :=
  c.toNat < 0x20 || (0x7F ≤ c.toNat && c.toNat < 0xA0)

/-- Check that a string is shaped like an address. -/
def qualify (addr field : String) : Except NoombatError Unit :=
  if addr.isEmpty ∨ addr.utf8ByteSize > maxLength then
    .error (.badRequest s!"{field} must be 1 to {maxLength} characters")
  else if addr.toList.any fun c => Text.isWhitespace c || isControl c then
    .error (.badRequest s!"{field} must not contain whitespace or control characters")
  else if addr.toList.contains '/' || addr.toList.contains '\\' then
    .error (.badRequest s!"{field} must not contain a path separator")
  else
    let malformed := .error (.badRequest s!"{field} must be an address of the form user@host")
    match Text.split '@' addr with
    | [l, d] =>
        if !l.isEmpty && d.toList.contains '.' && !(Text.startsWith d ".") &&
            (Text.stripSuffix "." d).isNone && !(Text.contains d "..") then .ok ()
        else malformed
    | _ => malformed

/-! ### Calls -/

def tokenTtlHours : Int := 24

def maxChallengesPerHour : Nat := 5

def inUse : NoombatError :=
  .badRequest "that address is already in use on this instance"

/-- Start a challenge for an address on behalf of an account. -/
def requestVerification (lib : EmailLibrary) (actorId : Uuid) (email : String) :
    EmailHandler Challenge := do
  ofExcept (qualify email "email")
  let folded := lib.toLowercase email
  let taken ← sql (.taken folded actorId)
  if taken then throw inUse
  else do
    let recent ← sql (.recent actorId)
    if maxChallengesPerHour ≤ recent then
      throw (.badRequest "too many verification requests; try again later")
    else do
      let token ← mintToken
      let now ← utcNow
      let expiresAt := now + tokenTtlHours * hour
      sql (.insert actorId folded (lib.hashToken token) expiresAt)
      return ⟨token, folded, expiresAt⟩

/-- The statements of a redemption, after the transaction has begun. -/
def redeem (lib : EmailLibrary) (tx : Nat) (token : String) : EmailHandler Uuid := do
  let redeemed ← sql (.consume tx (lib.hashToken token))
  match redeemed with
  | none => throw (.badRequest "that verification link is not valid")
  | some (actorId, email) => do
      let allowed ← sql (.setEmail tx actorId email)
      if allowed then do
        sql (.commit tx)
        return actorId
      else throw inUse

/-- Redeem a token, writing the proved address onto the account.  A transaction that is left
without being committed is rolled back. -/
def verify (lib : EmailLibrary) (token : String) : EmailHandler Uuid := do
  let (tx, _) ← sql .begin
  let redeemed ← attempt (redeem lib tx token)
  match redeemed with
  | .ok actorId => return actorId
  | .error e => do
      let _ ← attempt (sql (.rollback tx))
      throw e

/-- Delete the challenges that can no longer be redeemed. -/
def purgeExpired : EmailHandler Nat :=
  sql .purgeExpired

inductive Call where
  | requestVerification (actorId : Uuid) (email : String)
  | verify (token : String)
  | purgeExpired

/-- The program that ends a call. -/
def respond (r : Response) : Program Emails Unit :=
  .call (.respond r) fun _ => .done ()

/-- The program of a call, which ends with its response. -/
def Call.program (lib : EmailLibrary) : Call → Program Emails Unit
  | requestVerification actorId email => do
      let r ← (Email.requestVerification lib actorId email).run
      respond (.requested r)
  | verify token => do
      let r ← (Email.verify lib token).run
      respond (.verified r)
  | purgeExpired => do
      let r ← Email.purgeExpired.run
      respond (.purged r)

end Identity.Email
