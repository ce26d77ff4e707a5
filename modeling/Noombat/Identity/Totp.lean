import Noombat.Program.Threads
import Noombat.Table
import Noombat.Federation.Types

/-!
# One-time codes

Enrolment of a second factor: the `totp_secrets` table, the statements that read and write
it, and the two calls, one that stores a new secret and one that checks a code against the
secret stored.  Each statement takes effect at once; any statement may fail, with any error.
-/

namespace Identity.TwoFactor

open Federation (Uuid NoombatError)
open Fallible

structure SecretRow where
  actorId : Uuid
  /-- The secret, sealed. -/
  secret : String
  /-- Set after the first successful verification. -/
  verified : Bool
  deriving DecidableEq

/-- Two secrets are of different actors. -/
def SecretRow.Apart (r r' : SecretRow) : Prop :=
  r.actorId ≠ r'.actorId

instance : DecidableRel SecretRow.Apart :=
  fun _ _ => inferInstanceAs (Decidable (_ ≠ _))

instance : Std.Symm SecretRow.Apart :=
  ⟨fun _ _ h => h.symm⟩

structure Db where
  /-- The identifiers of the actors there are. -/
  actors : List Uuid
  secrets : Table SecretRow.Apart

/-- The secret of an actor is replaced, if there is one, and stored otherwise. -/
def Db.upsert (actorId : Uuid) (secret : String) (db : Db) : Db :=
  if db.secrets.rows.any (·.actorId == actorId) then
    { db with
      secrets := db.secrets.update (·.actorId == actorId)
        (fun r => { r with secret, verified := false }) (fun _ _ h => ⟨h, h, h⟩) }
  else
    match db.secrets.insert ⟨actorId, secret, false⟩ with
    | some secrets => { db with secrets }
    | none => db

/-- The secret of an actor is marked. -/
def Db.markVerified (actorId : Uuid) (db : Db) : Db :=
  { db with
    secrets := db.secrets.update (·.actorId == actorId)
      (fun r => { r with verified := true }) (fun _ _ h => ⟨h, h, h⟩) }

/-! ### Statements -/

inductive TotpSql where
  /-- Whether an actor has a verified secret. -/
  | existsVerified (actorId : Uuid)
  | upsert (actorId : Uuid) (secret : String)
  /-- The secret of an actor, and whether it is verified. -/
  | selectSecret (actorId : Uuid)
  | markVerified (actorId : Uuid)

@[reducible]
def TotpSql.Result : TotpSql → Type
  | existsVerified _ => Bool
  | selectSecret _ => Option (String × Bool)
  | _ => Unit

/-- The effect of a statement. -/
def TotpSql.exec : (s : TotpSql) → Db → Except NoombatError s.Result × Db
  | existsVerified actorId, db =>
      (.ok (db.secrets.rows.any fun r => r.actorId == actorId && r.verified), db)
  | upsert actorId secret, db =>
      if db.actors.contains actorId then (.ok (), db.upsert actorId secret)
      else (.error (.database "insert or update violates foreign key constraint"), db)
  | selectSecret actorId, db =>
      let row := db.secrets.find (·.actorId == actorId)
      (.ok (row.map fun r => (r.secret, r.verified)), db)
  | markVerified actorId, db => (.ok (), db.markVerified actorId)

/-! ### Codes -/

/-- The parameters of a generator of codes. -/
structure Totp where
  algorithm : String
  digits : Nat
  skew : Nat
  stepDuration : Nat
  secret : List UInt8
  issuer : String
  accountName : String
  deriving DecidableEq

/-- The libraries: the encoding of secrets, the generator of codes, and the envelope that
secrets are sealed in, whose nonce is drawn each time. -/
structure Kit where
  tryFromBase32 : String → Except String (List UInt8)
  /-- The error with which the builder refuses some parameters, if it does. -/
  refusal : Totp → Option String
  toUrl : Totp → Except String String
  /-- Whether a code is that of the time given, or of an adjacent step. -/
  check : Totp → (code : String) → (time : Nat) → Bool
  sealAuto : (nonce : String) → String → Except NoombatError String
  openAuto : String → Except NoombatError String

variable (kit : Kit)

def buildTotp (secretBase32 accountName issuer : String) : Except NoombatError Totp :=
  match kit.tryFromBase32 secretBase32 with
  | .error e => .error (.internal s!"invalid TOTP secret: {e}")
  | .ok secret =>
      let totp := ⟨"SHA1", 6, 1, 30, secret, issuer, accountName⟩
      match kit.refusal totp with
      | none => .ok totp
      | some e => .error (.internal s!"TOTP construction failed: {e}")

/-! ### Calls -/

structure TotpEnrolment where
  otpauthUri : String
  secretBase32 : String
  deriving DecidableEq

/-- What a call returns to its caller. -/
inductive Response where
  | enrolled (r : Except NoombatError TotpEnrolment)
  | verified (r : Except NoombatError Unit)

inductive TotpRequest where
  | sql (s : TotpSql)
  /-- A secret drawn at random, as base32. -/
  | generateSecret
  /-- A nonce drawn at random. -/
  | nonce
  /-- The time of the process. -/
  | now
  | respond (r : Response)

@[reducible]
def TotpRequest.Result : TotpRequest → Type
  | sql s => s.Result
  | generateSecret => String
  | nonce => String
  | now => Nat
  | respond _ => Unit

abbrev Totps : Interface :=
  Interface.fallible NoombatError TotpRequest TotpRequest.Result

abbrev TotpHandler (α : Type) : Type :=
  Fallible Totps NoombatError α

/-- The world of the calls.  A statement fails with the error chosen, if there is one; what
is drawn and the time are the choice of the environment. -/
def totpWorld : World Totps Db where
  Choice
    | .sql _ => Option NoombatError
    | .generateSecret => String
    | .nonce => String
    | .now => Nat
    | .respond _ => Unit
  exec
    | .sql s, c, db =>
        match c with
        | some e => (.error e, db)
        | none => s.exec db
    | .generateSecret, c, db => (.ok c, db)
    | .nonce, c, db => (.ok c, db)
    | .now, c, db => (.ok c, db)
    | .respond _, _, db => (.ok (), db)

def sql (s : TotpSql) : TotpHandler s.Result :=
  ask (TotpRequest.sql s)

def generateSecret : TotpHandler String :=
  ask TotpRequest.generateSecret

def nonce : TotpHandler String :=
  ask TotpRequest.nonce

def now : TotpHandler Nat :=
  ask TotpRequest.now

/-- The URL of a generator, for a QR code. -/
def toUrl (totp : Totp) : Except NoombatError String :=
  match kit.toUrl totp with
  | .ok url => .ok url
  | .error e => .error (.internal s!"TOTP URL construction failed: {e}")

/-- Store a new secret of an actor, instead of an unverified one if there is one. -/
def storeSecret (actorId : Uuid) (username issuer : String) : TotpHandler TotpEnrolment := do
  let secretBase32 ← generateSecret
  let totp ← ofExcept (buildTotp kit secretBase32 username issuer)
  let otpauthUri ← ofExcept (toUrl kit totp)
  let nonce ← nonce
  let sealedSecret ← ofExcept (kit.sealAuto nonce secretBase32)
  sql (.upsert actorId sealedSecret)
  return ⟨otpauthUri, secretBase32⟩

/-- Begin the enrolment of an actor, who must not have a verified secret. -/
def enrolTotp (actorId : Uuid) (username issuer : String) : TotpHandler TotpEnrolment := do
  let verified ← unwrapOr false (sql (.existsVerified actorId))
  if verified then throw (.badRequest "TOTP is already enrolled; disable it first")
  else storeSecret kit actorId username issuer

/-- Whether the code given is valid for a generator now. -/
def checkCurrent (totp : Totp) (code : String) : TotpHandler Bool := do
  let time ← now
  return kit.check totp code time

/-- Check a code against the secret of an actor, and mark the secret if it is not marked
yet. -/
def verifyTotp (actorId : Uuid) (code : String) : TotpHandler Unit := do
  let row ← sql (.selectSecret actorId)
  match row with
  | none => throw .forbidden
  | some (sealedSecret, verified) =>
      let secretBase32 ← ofExcept (kit.openAuto sealedSecret)
      let totp ← ofExcept (buildTotp kit secretBase32 "user" "noombat")
      let valid ← checkCurrent kit totp code
      if valid then
        if verified then pure () else sql (.markVerified actorId)
      else throw .forbidden

inductive Call where
  | enrol (actorId : Uuid) (username issuer : String)
  | verify (actorId : Uuid) (code : String)

/-- The program that ends a call. -/
def respond (r : Response) : Program Totps Unit :=
  .call (.respond r) fun _ => .done ()

/-- The program of a call, which ends with its response. -/
def Call.program : Call → Program Totps Unit
  | enrol actorId username issuer => do
      let r ← (enrolTotp kit actorId username issuer).run
      respond (.enrolled r)
  | verify actorId code => do
      let r ← (verifyTotp kit actorId code).run
      respond (.verified r)

end Identity.TwoFactor
