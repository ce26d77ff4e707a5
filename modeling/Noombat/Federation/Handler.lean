import Noombat.Program.Fallible
import Noombat.Federation.Statement

/-!
# Handlers

A handler is a program that makes requests of the database, of remote servers and of the
process it runs in, and ends in a result or an error.  Each statement takes effect at once;
any statement and any fetch may fail, with any error.  What a remote server answers is the
choice of the environment.
-/

namespace Federation

/-- The requests of a handler. -/
inductive FedRequest where
  | sql (s : Sql)
  /-- A fetch signed as the given local actor. -/
  | signedGet (url : String) (signer : Uuid)
  | guardedGet (url : String)
  /-- A place among the origin fetches in flight, if one came free in time. -/
  | originFetchPermit
  /-- A reading of the clock. -/
  | utcNow
  /-- Whether the rate limit of a key allows another request. -/
  | checkKey (key : String)

@[reducible]
def FedRequest.Result : FedRequest → Type
  | sql s => s.Result
  | signedGet _ _ => Response
  | guardedGet _ => Response
  | originFetchPermit => Bool
  | utcNow => DateTime
  | checkKey _ => Bool

abbrev Fed : Interface :=
  Interface.fallible NoombatError FedRequest FedRequest.Result

abbrev Handler (α : Type) : Type :=
  Fallible Fed NoombatError α

/-- How a statement fares: the error it fails with, if it does, and the row it picks where
it asks for one of several. -/
structure SqlChoice where
  error : Option NoombatError
  pick : Nat

/-- The world of the handlers. -/
def fedWorld : World Fed Db where
  Choice
    | .sql _ => SqlChoice
    | .signedGet _ _ => Except NoombatError Response
    | .guardedGet _ => Except NoombatError Response
    | .originFetchPermit => Bool
    | .utcNow => DateTime
    | .checkKey _ => Bool
  exec
    | .sql s, c, db =>
        match c.error with
        | some e => (.error e, db)
        | none => s.exec c.pick db
    | .signedGet _ _, c, db => (c, db)
    | .guardedGet _, c, db => (c, db)
    | .originFetchPermit, c, db => (.ok c, db)
    | .utcNow, c, db => (.ok c, db)
    | .checkKey _, c, db => (.ok c, db)

/-- The environment in which no statement fails and each URL is answered as given. -/
def steady (serve : String → Except NoombatError Response) : Program.Script fedWorld
  | _, .sql _ => ⟨none, 0⟩
  | _, .signedGet url _ => serve url
  | _, .guardedGet url => serve url
  | _, .originFetchPermit => true
  | _, .utcNow => (0 : Int)
  | _, .checkKey _ => true

/-! ### Requests -/

def sql (s : Sql) : Handler s.Result :=
  Fallible.ask (FedRequest.sql s)

def signedGet (url : String) (signer : Uuid) : Handler Response :=
  Fallible.ask (FedRequest.signedGet url signer)

def guardedGet (url : String) : Handler Response :=
  Fallible.ask (FedRequest.guardedGet url)

def originFetchPermit : Handler Bool :=
  Fallible.ask FedRequest.originFetchPermit

def utcNow : Handler DateTime :=
  Fallible.ask FedRequest.utcNow

def checkKey (key : String) : Handler Bool :=
  Fallible.ask (FedRequest.checkKey key)

/-- The result of a step whose failure is only logged. -/
def ignoringErrors (p : Handler Unit) : Handler Unit := do
  let _ ← Fallible.attempt p
  return ()

/-- The result of a step, or a default if it fails. -/
def unwrapOr {α : Type} (default : α) (p : Handler α) : Handler α := do
  let r ← Fallible.attempt p
  match r with
  | .ok a => return a
  | .error _ => return default

/-- The value of an optional result, or an error. -/
def okOr {α : Type} (e : NoombatError) : Option α → Handler α
  | some a => pure a
  | none => throw e

/-- The result of a check, as a step of a handler. -/
def ofExcept {α : Type} : Except NoombatError α → Handler α
  | .ok a => pure a
  | .error e => throw e

/-! ### Rules -/

section Rules

open Fallible Program

variable {α σ : Type} {W : World Fed σ} {C : Condition W}

theorem wp_request (q : FedRequest) (Post : Except NoombatError q.Result → σ → Prop) (s : σ) :
  wp W C Post (ask q : Handler q.Result).run s ↔
    ∀ c, C q c s → Post (W.exec q c s).1 (W.exec q c s).2
  := wp_run_ask q Post s

/-- A statement fails and changes nothing, or it takes effect. -/
theorem wp_sql {C : Condition fedWorld} (st : Sql)
    {Post : Except NoombatError st.Result → Db → Prop} {db : Db}
    (herr : ∀ e, Post (.error e) db)
    (hok : ∀ c : SqlChoice, C (.sql st) c db → Post (st.exec c.pick db).1 (st.exec c.pick db).2) :
  wp fedWorld C Post (sql st).run db
  := by
  apply (wp_request (FedRequest.sql st) Post db).mpr
  intro c hc
  simp only [fedWorld]
  split
  · apply herr
  · apply hok c hc

/-- The clock is read at some moment. -/
theorem wp_utcNow {C : Condition fedWorld} {Post : Except NoombatError DateTime → Db → Prop}
    {db : Db} (h : ∀ now, Post (.ok now) db) :
  wp fedWorld C Post utcNow.run db
  := (wp_request FedRequest.utcNow Post db).mpr fun now _ => h now

@[simp]
theorem wp_ignoringErrors (Post : Except NoombatError Unit → σ → Prop) (p : Handler Unit)
    (s : σ) :
  wp W C Post (ignoringErrors p).run s ↔ wp W C (fun _ s' => Post (.ok ()) s') p.run s
  := by
  unfold ignoringErrors
  rw [wp_run_bind, wp_run_attempt]
  constructor
  all_goals
    apply wp_mono
    intro r s' h
    simpa using h

/-- The value that `unwrapOr` gives. -/
def orDefault (default : α) : Except NoombatError α → α
  | .ok a => a
  | .error _ => default

@[simp]
theorem wp_unwrapOr (Post : Except NoombatError α → σ → Prop) (default : α) (p : Handler α)
    (s : σ) :
  wp W C Post (unwrapOr default p).run s ↔
    wp W C (fun r s' => Post (.ok (orDefault default r)) s') p.run s
  := by
  unfold unwrapOr
  rw [wp_run_bind, wp_run_attempt]
  constructor
  all_goals
    apply wp_mono
    rintro (e | a) s' h
    all_goals simpa [orDefault] using h

@[simp]
theorem wp_okOr (Post : Except NoombatError α → σ → Prop) (e : NoombatError) (o : Option α)
    (s : σ) :
  wp W C Post (okOr e o).run s ↔ Post (o.elim (.error e) .ok) s
  := by
  cases o
  · simp [okOr]
  · simp [okOr]

@[simp]
theorem wp_ofExcept (Post : Except NoombatError α → σ → Prop) (r : Except NoombatError α)
    (s : σ) :
  wp W C Post (ofExcept r).run s ↔ Post r s
  := by
  cases r
  · simp [ofExcept]
  · simp [ofExcept]

end Rules

end Federation
