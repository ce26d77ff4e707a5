import Noombat.Program.Threads
import Noombat.Table
import Noombat.Federation.Types

/-!
# Sessions

The lifecycle of refresh tokens: the `sessions` table, the statements that read and write
it, and the calls that issue, exchange and revoke tokens.  Each statement takes effect at
once; any statement may fail, with any error.
-/

namespace Identity

open Federation (Uuid DateTime NoombatError)

inductive InstanceRole where
  | user
  | moderator
  | admin
  deriving DecidableEq

def InstanceRole.asStr : InstanceRole → String
  | user => "user"
  | moderator => "moderator"
  | admin => "admin"

/-- The columns of `actors` that sessions are about. -/
structure Account where
  id : Uuid
  username : String
  instanceRole : InstanceRole
  lastSignInAt : Option DateTime
  deriving DecidableEq

/-- The columns of a session that is inserted. -/
structure NewSession where
  actorId : Uuid
  refreshToken : String
  userAgent : Option String
  ipAddr : Option String
  expiresAt : DateTime
  deriving DecidableEq

structure SessionRow extends NewSession where
  id : Uuid
  /-- Set when the session is revoked. -/
  revokedAt : Option DateTime
  deriving DecidableEq

/-- Two sessions differ in their identifiers and in their tokens. -/
def SessionRow.Apart (r r' : SessionRow) : Prop :=
  r.id ≠ r'.id ∧ r.refreshToken ≠ r'.refreshToken

instance : DecidableRel SessionRow.Apart :=
  fun _ _ => inferInstanceAs (Decidable (_ ∧ _))

instance : Std.Symm SessionRow.Apart :=
  ⟨fun _ _ h => ⟨h.1.symm, h.2.symm⟩⟩

/-- The session, revoked. -/
def SessionRow.revokedAtTime (now : DateTime) (r : SessionRow) : SessionRow :=
  { r with revokedAt := some now }

structure Db where
  accounts : List Account
  sessions : Table SessionRow.Apart
  /-- The identifier of the next session. -/
  nextId : Uuid
  sessions_old : ∀ r ∈ sessions, r.id < nextId

namespace Db

/-- The sessions that satisfy `p`, revoked. -/
def revokeWhere (p : SessionRow → Bool) (now : DateTime) (db : Db) : Db where
  accounts := db.accounts
  sessions := db.sessions.update p (·.revokedAtTime now) (fun _ _ h => ⟨h, h, h⟩)
  nextId := db.nextId
  sessions_old := by
    intro r hr
    obtain ⟨r', hr', rfl⟩ := Table.mem_update.mp hr
    have hold := db.sessions_old r' hr'
    split
    · exact hold
    · exact hold

/-- The row of a new session. -/
def newRow (row : NewSession) (db : Db) : SessionRow :=
  { row with id := db.nextId, revokedAt := none }

/-- The database with another session, if its token is not that of another. -/
def insertSession (row : NewSession) (db : Db) : Option Db :=
  match h : db.sessions.insert (db.newRow row) with
  | none => none
  | some sessions => some
      { accounts := db.accounts
        sessions
        nextId := db.nextId + 1
        sessions_old := by
          intro r hr
          rcases (Table.mem_of_insert h).mp hr with rfl | hr
          · apply Nat.lt_succ_self
          · apply Nat.lt_succ_of_lt (db.sessions_old r hr) }

end Db

/-! ### Statements -/

inductive SessionSql where
  /-- The session with a token that is neither revoked nor expired, and its actor. -/
  | selectLive (refreshToken : String)
  | revoke (id : Uuid)
  | revokeByToken (refreshToken : String)
  | insert (row : NewSession)
  | recordSignIn (actorId : Uuid)

/-- What `selectLive` reads: the session, and the actor with its name and role. -/
structure LiveSession where
  sessionId : Uuid
  actorId : Uuid
  username : String
  role : InstanceRole
  deriving DecidableEq

@[reducible]
def SessionSql.Result : SessionSql → Type
  | selectLive _ => Option LiveSession
  | _ => Unit

/-- Joined with the actor it belongs to, a session. -/
def SessionRow.live (db : Db) (r : SessionRow) : Option LiveSession :=
  (db.accounts.find? (·.id == r.actorId)).map fun a => ⟨r.id, a.id, a.username, a.instanceRole⟩

/-- Whether a session is neither revoked nor expired. -/
def SessionRow.isLive (now : DateTime) (r : SessionRow) : Bool :=
  r.revokedAt.isNone && decide (now < r.expiresAt)

/-- The effect of a statement, at the time `now` of the database. -/
def SessionSql.exec (now : DateTime) :
    (s : SessionSql) → Db → Except NoombatError s.Result × Db
  | selectLive refreshToken, db =>
      let row := db.sessions.find fun r => r.refreshToken == refreshToken && r.isLive now
      (.ok (row.bind (·.live db)), db)
  | revoke id, db => (.ok (), db.revokeWhere (·.id == id) now)
  | revokeByToken refreshToken, db =>
      (.ok (), db.revokeWhere (·.refreshToken == refreshToken) now)
  | insert row, db =>
      if db.accounts.any (·.id == row.actorId) then
        match db.insertSession row with
        | some db' => (.ok (), db')
        | none => (.error (.database "duplicate key value violates unique constraint"), db)
      else (.error (.database "insert or update violates foreign key constraint"), db)
  | recordSignIn actorId, db =>
      (.ok (),
        { db with
          accounts := db.accounts.map fun a =>
            if a.id == actorId then { a with lastSignInAt := some now } else a })

/-! ### Calls -/

/-- The claims of an access token. -/
structure AccessClaims where
  sub : String
  username : String
  role : String
  aud : String
  iat : Int
  exp : Int
  deriving DecidableEq

structure SessionTokens where
  accessToken : String
  refreshToken : String
  expiresIn : Int
  actorId : Uuid
  username : String
  deriving DecidableEq

structure SessionConfig where
  jwtSecret : String
  domain : String
  accessTtlSecs : Int
  refreshTtlSecs : Int

inductive SessionOrigin where
  | signIn
  | refresh
  deriving DecidableEq

structure SessionContext where
  userAgent : Option String
  ipAddr : Option String
  origin : SessionOrigin

def SessionContext.signIn : SessionContext :=
  ⟨none, none, .signIn⟩

def SessionContext.refresh : SessionContext :=
  ⟨none, none, .refresh⟩

/-- What a call returns to its caller. -/
inductive Response where
  | tokens (r : Except NoombatError SessionTokens)
  | done (r : Except NoombatError Unit)

inductive SessionRequest where
  | sql (s : SessionSql)
  | utcNow
  | generateRefreshToken
  | respond (r : Response)

@[reducible]
def SessionRequest.Result : SessionRequest → Type
  | sql s => s.Result
  | utcNow => DateTime
  | generateRefreshToken => String
  | respond _ => Unit

abbrev Sessions : Interface :=
  Interface.fallible NoombatError SessionRequest SessionRequest.Result

abbrev SessionHandler (α : Type) : Type :=
  Fallible Sessions NoombatError α

/-- How a statement fares: the error it fails with, if it does, and the time of the
database. -/
structure SqlChoice where
  error : Option NoombatError
  now : DateTime

/-- The world of the calls.  Times and tokens are the choice of the environment. -/
def sessionWorld : World Sessions Db where
  Choice
    | .sql _ => SqlChoice
    | .utcNow => DateTime
    | .generateRefreshToken => String
    | .respond _ => Unit
  exec
    | .sql s, c, db =>
        match c.error with
        | some e => (.error e, db)
        | none => s.exec c.now db
    | .utcNow, c, db => (.ok c, db)
    | .generateRefreshToken, c, db => (.ok c, db)
    | .respond _, _, db => (.ok (), db)

def sql (s : SessionSql) : SessionHandler s.Result :=
  Fallible.ask (SessionRequest.sql s)

def utcNow : SessionHandler DateTime :=
  Fallible.ask SessionRequest.utcNow

def generateRefreshToken : SessionHandler String :=
  Fallible.ask SessionRequest.generateRefreshToken

/-- The time some seconds after another. -/
def afterSeconds (now : DateTime) (seconds : Int) : DateTime :=
  now + seconds * 1000000000

/-- The encoder of access tokens under a secret, with the text of its error. -/
abbrev Jwt : Type :=
  AccessClaims → String → Except String String

/-- The access token for some claims. -/
def encode (jwt : Jwt) (config : SessionConfig) (claims : AccessClaims) :
    SessionHandler String :=
  match jwt claims config.jwtSecret with
  | .ok token => pure token
  | .error e => throw (.internal s!"JWT encoding failed: {e}")

/-- A sign-in is recorded; a refresh is not. -/
def recordSignIn (origin : SessionOrigin) (actorId : Uuid) : SessionHandler Unit :=
  if origin = .signIn then sql (.recordSignIn actorId) else pure ()

/-- Issue a new pair of tokens for an actor. -/
def createSession (jwt : Jwt) (config : SessionConfig) (actorId : Uuid) (username : String)
    (role : InstanceRole) (context : SessionContext) : SessionHandler SessionTokens := do
  let now ← utcNow
  let accessExp := afterSeconds now config.accessTtlSecs
  let refreshExp := afterSeconds now config.refreshTtlSecs
  let accessToken ← encode jwt config
    { sub := toString actorId
      username
      role := role.asStr
      aud := config.domain
      iat := now.timestamp
      exp := accessExp.timestamp }
  let refreshToken ← generateRefreshToken
  sql (.insert ⟨actorId, refreshToken, context.userAgent, context.ipAddr, refreshExp⟩)
  recordSignIn context.origin actorId
  return ⟨accessToken, refreshToken, config.accessTtlSecs, actorId, username⟩

/-- Exchange a refresh token for a new pair of tokens. -/
def refreshSession (jwt : Jwt) (config : SessionConfig) (oldRefreshToken : String) :
    SessionHandler SessionTokens := do
  let row ← sql (.selectLive oldRefreshToken)
  match row with
  | none => throw .forbidden
  | some live =>
      sql (.revoke live.sessionId)
      createSession jwt config live.actorId live.username live.role .refresh

/-- Revoke the session with a refresh token. -/
def revokeSession (refreshToken : String) : SessionHandler Unit :=
  sql (.revokeByToken refreshToken)

inductive Call where
  | create (actorId : Uuid) (username : String) (role : InstanceRole) (context : SessionContext)
  | refresh (refreshToken : String)
  | revoke (refreshToken : String)

/-- The program that ends a call. -/
def respond (r : Response) : Program Sessions Unit :=
  .call (.respond r) fun _ => .done ()

/-- The program of a call, which ends with its response. -/
def Call.program (jwt : Jwt) (config : SessionConfig) : Call → Program Sessions Unit
  | create actorId username role context => do
      let r ← (createSession jwt config actorId username role context).run
      respond (.tokens r)
  | refresh refreshToken => do
      let r ← (refreshSession jwt config refreshToken).run
      respond (.tokens r)
  | revoke refreshToken => do
      let r ← (revokeSession refreshToken).run
      respond (.done r)

end Identity
