import Noombat.Federation.Inbox

/-!
# Histories

What happens to the database in the course of time: activities are delivered and local
actors post, one after the other, and the environment makes its choices while each event is
handled.
-/

namespace Federation

open Program

variable (ext : External)

/-- What may happen: an activity is delivered, by its author or by a relay, or a local actor
posts. -/
inductive Event where
  | delivered (verifiedActor : String) (document : Json) (activity : Activity)
  | posted (post : NewPost)

def Event.handle (config : Config) : Event → Handler Unit
  | .delivered verifiedActor document activity =>
      processActivity ext config verifiedActor document activity
  | .posted post => do
      let _ ← Repo.createLocalPost post

/-- An event, and the choices of the environment while it is handled. -/
structure Occurrence where
  event : Event
  script : Script fedWorld

/-- The database after an event. -/
def Occurrence.after (config : Config) (o : Occurrence) (db : Db) : Db :=
  (run fedWorld o.script (o.event.handle ext config).run db).2

/-- An event is handled without an error. -/
def Occurrence.Processed (config : Config) (o : Occurrence) (db : Db) : Prop :=
  (run fedWorld o.script (o.event.handle ext config).run db).1 = .ok ()

/-- The database after a history. -/
def afterAll (config : Config) (history : List Occurrence) (db : Db) : Db :=
  history.foldl (fun db o => o.after ext config db) db

/-- Every event of a history satisfies `P` with the database before it. -/
def Throughout (config : Config) (P : Occurrence → Db → Prop) : List Occurrence → Db → Prop
  | [], _ => True
  | o :: history, db => P o db ∧ Throughout config P history (o.after ext config db)

section Histories

variable {ext} {config : Config} {P : Occurrence → Db → Prop}

theorem afterAll_cons (config : Config) (o : Occurrence) (history : List Occurrence) (db : Db) :
  afterAll ext config (o :: history) db = afterAll ext config history (o.after ext config db)
  := rfl

theorem afterAll_append (config : Config) (before rest : List Occurrence) (db : Db) :
  afterAll ext config (before ++ rest) db =
    afterAll ext config rest (afterAll ext config before db)
  := List.foldl_append

/-- What holds throughout a history holds throughout its parts. -/
theorem throughout_append {before rest : List Occurrence} {db : Db} :
  Throughout ext config P (before ++ rest) db ↔
    Throughout ext config P before db ∧
      Throughout ext config P rest (afterAll ext config before db)
  := by
  induction before generalizing db with
  | nil => simp [Throughout, afterAll]
  | cons o before ih =>
      rw [List.cons_append, Throughout, Throughout, afterAll_cons, ih, and_assoc]

end Histories

end Federation
