import Noombat.Program.Threads
import Noombat.Table
import Noombat.Json
import Noombat.Federation.Types

/-!
# Work experience

Claims of employment: the `work_experiences` table, the statements that read and write it, and
the calls by which a member makes, edits and deletes a claim and by which an organisation
confirms one and withdraws the confirmation.  Each statement takes effect at once; any
statement may fail, with any error.
-/

namespace Identity.Employment

open Federation (Uuid DateTime NoombatError)
open Fallible

/-- A day of the calendar, as the number of days since some fixed one. -/
abbrev NaiveDate : Type :=
  Int

/-- A moment as a column stores it, in whole microseconds. -/
def stored (t : DateTime) : DateTime :=
  t / 1000 * 1000

structure WorkExperience where
  id : Uuid
  actorId : Uuid
  title : String
  organization : String
  /-- The organisation that is named, where the employer exists as an actor. -/
  organizationId : Option Uuid
  /-- Set only where the employer's side has been established. -/
  organizationConfirmedAt : Option DateTime
  organizationConfirmedVia : Option String
  startDate : NaiveDate
  endDate : Option NaiveDate
  descriptionMd : Option String
  descriptionHtml : Option String
  sortOrder : Int
  visibility : String
  deriving DecidableEq

structure WorkExperienceRow extends WorkExperience where
  apObject : Json

/-- Two rows have different identifiers. -/
def WorkExperienceRow.Apart (r r' : WorkExperienceRow) : Prop :=
  r.id ≠ r'.id

instance : DecidableRel WorkExperienceRow.Apart :=
  fun _ _ => inferInstanceAs (Decidable (_ ≠ _))

instance : Std.Symm WorkExperienceRow.Apart :=
  ⟨fun _ _ h => h.symm⟩

structure Db where
  /-- The actors there are, with their URIs. -/
  actors : List (Uuid × String)
  experiences : Table WorkExperienceRow.Apart

def Db.isActor (id : Uuid) (db : Db) : Bool :=
  db.actors.any (·.1 == id)

/-- The URI of an actor. -/
def Db.apId (id : Uuid) (db : Db) : Option String :=
  db.actors.lookup id

/-! ### Statements -/

/-- The columns that an edit writes. -/
structure Edit where
  title : String
  organization : String
  organizationId : Option Uuid
  organizationConfirmedAt : Option DateTime
  organizationConfirmedVia : Option String
  startDate : NaiveDate
  endDate : Option NaiveDate
  descriptionMd : Option String
  descriptionHtml : Option String
  sortOrder : Int
  visibility : String
  apObject : Json

/-- The row with the columns of an edit. -/
def Edit.apply (edit : Edit) (r : WorkExperienceRow) : WorkExperienceRow where
  id := r.id
  actorId := r.actorId
  title := edit.title
  organization := edit.organization
  organizationId := edit.organizationId
  organizationConfirmedAt := edit.organizationConfirmedAt.map stored
  organizationConfirmedVia := edit.organizationConfirmedVia
  startDate := edit.startDate
  endDate := edit.endDate
  descriptionMd := edit.descriptionMd
  descriptionHtml := edit.descriptionHtml
  sortOrder := edit.sortOrder
  visibility := edit.visibility
  apObject := edit.apObject

/-- What an organisation's answer to a claim writes. -/
structure Verdict where
  confirmedAt : Option DateTime
  confirmedVia : Option String
  apObject : Json

/-- The row with the answer of an organisation. -/
def Verdict.apply (verdict : Verdict) (r : WorkExperienceRow) : WorkExperienceRow :=
  { r with
    organizationConfirmedAt := verdict.confirmedAt.map stored
    organizationConfirmedVia := verdict.confirmedVia
    apObject := verdict.apObject }

inductive ExperienceSql where
  /-- A claim of an actor. -/
  | selectOwn (id actorId : Uuid)
  /-- A claim that names an organisation. -/
  | selectNaming (id organizationId : Uuid)
  /-- The URI of an actor. -/
  | selectApId (id : Uuid)
  | insert (row : WorkExperienceRow)
  | update (id actorId : Uuid) (edit : Edit)
  | answer (id organizationId : Uuid) (verdict : Verdict)
  /-- Returns the number of rows deleted. -/
  | delete (id actorId : Uuid)

@[reducible]
def ExperienceSql.Result : ExperienceSql → Type
  | selectOwn _ _ => Option WorkExperience
  | selectNaming _ _ => Option WorkExperience
  | selectApId _ => Option String
  | insert _ => WorkExperience
  | update _ _ _ => WorkExperience
  | answer _ _ _ => WorkExperience
  | delete _ _ => Nat

def visibilities : List String :=
  ["public", "followers", "connections", "private"]

/-- The row satisfies the checks and refers to actors that there are. -/
def WorkExperienceRow.isAdmissible (db : Db) (r : WorkExperienceRow) : Bool :=
  visibilities.contains r.visibility &&
    r.organizationConfirmedVia.all (["organisation", "domain-email"].contains ·) &&
    (r.organizationConfirmedAt.isNone ||
      r.organizationId.isSome && r.organizationConfirmedVia.isSome) &&
    db.isActor r.actorId && r.organizationId.all (db.isActor ·)

/-- The rows that satisfy `p` are changed by `f`, which keeps their identifiers, and the first
of them is returned; there must be one, and all of them must be admissible. -/
def Db.updateReturning (p : WorkExperienceRow → Bool)
    (f : WorkExperienceRow → WorkExperienceRow) (hf : ∀ r, (f r).id = r.id) (db : Db) :
    Except NoombatError WorkExperience × Db :=
  match db.experiences.find p with
  | none => (.error (.database "no rows returned by a query that expected to return at least one row"), db)
  | some r =>
      if (f r).isAdmissible db then
        (.ok (f r).toWorkExperience,
          { db with
            experiences := db.experiences.update p f fun r r' h =>
              ⟨by rwa [WorkExperienceRow.Apart, hf], by rwa [WorkExperienceRow.Apart, hf],
                by rwa [WorkExperienceRow.Apart, hf, hf]⟩ })
      else (.error (.database "new row violates a constraint"), db)

/-- The claim has an identifier and is an actor's. -/
def isOwn (id actorId : Uuid) (r : WorkExperienceRow) : Bool :=
  r.id == id && r.actorId == actorId

/-- The claim has an identifier and names an organisation. -/
def isNaming (id organizationId : Uuid) (r : WorkExperienceRow) : Bool :=
  r.id == id && r.organizationId == some organizationId

/-- The effect of a statement. -/
def ExperienceSql.exec : (s : ExperienceSql) → Db → Except NoombatError s.Result × Db
  | selectOwn id actorId, db =>
      (.ok ((db.experiences.find (isOwn id actorId)).map (·.toWorkExperience)), db)
  | selectNaming id organizationId, db =>
      (.ok ((db.experiences.find (isNaming id organizationId)).map (·.toWorkExperience)), db)
  | selectApId id, db => (.ok (db.apId id), db)
  | insert row, db =>
      if row.isAdmissible db then
        match db.experiences.insert row with
        | some experiences => (.ok row.toWorkExperience, { db with experiences })
        | none => (.error (.database "duplicate key value violates unique constraint"), db)
      else (.error (.database "new row violates a constraint"), db)
  | update id actorId edit, db =>
      db.updateReturning (isOwn id actorId) edit.apply fun _ => rfl
  | answer id organizationId verdict, db =>
      db.updateReturning (isNaming id organizationId) verdict.apply fun _ => rfl
  | delete id actorId, db =>
      (.ok ((db.experiences.rows.filter (isOwn id actorId)).length),
        { db with experiences := db.experiences.delete (isOwn id actorId) })

/-! ### The world of the calls -/

inductive ExperienceRequest where
  | sql (s : ExperienceSql)
  /-- An identifier drawn at random. -/
  | newUuid
  /-- The time of the process. -/
  | utcNow
  /-- The rendering of a Markdown text as HTML. -/
  | render (md : String)

@[reducible]
def ExperienceRequest.Result : ExperienceRequest → Type
  | sql s => s.Result
  | newUuid => Uuid
  | utcNow => DateTime
  | render _ => String

abbrev Experiences : Interface :=
  Interface.fallible NoombatError ExperienceRequest ExperienceRequest.Result

abbrev ExperienceHandler (α : Type) : Type :=
  Fallible Experiences NoombatError α

/-- The world of the calls.  A statement fails with the error chosen, if there is one; what
is drawn, the time and the result of the renderer are the choice of the environment. -/
def experienceWorld : World Experiences Db where
  Choice
    | .sql _ => Option NoombatError
    | .newUuid => Uuid
    | .utcNow => DateTime
    | .render _ => Except NoombatError String
  exec
    | .sql s, c, db =>
        match c with
        | some e => (.error e, db)
        | none => s.exec db
    | .newUuid, c, db => (.ok c, db)
    | .utcNow, c, db => (.ok c, db)
    | .render _, c, db => (c, db)

def sql (s : ExperienceSql) : ExperienceHandler s.Result :=
  ask (ExperienceRequest.sql s)

def newUuid : ExperienceHandler Uuid :=
  ask ExperienceRequest.newUuid

def utcNow : ExperienceHandler DateTime :=
  ask ExperienceRequest.utcNow

def render (md : String) : ExperienceHandler String :=
  ask (ExperienceRequest.render md)

/-! ### Calls -/

/-- How identifiers, days and moments are written. -/
structure Writing where
  uuid : Uuid → String
  date : NaiveDate → String
  rfc3339 : DateTime → String

variable (writing : Writing)

/-- The wire form of a claim. -/
def buildWorkExperienceApObject (id : Uuid) (title organization : String)
    (organizationApId : Option String) (confirmedAt : Option DateTime) (startDate : NaiveDate)
    (endDate : Option NaiveDate) (descriptionHtml : Option String) : Json :=
  .obj
    [("type", .str "noombat:WorkExperience"),
     ("id", .str (writing.uuid id)),
     ("schema:roleName", .str title),
     ("schema:worksFor", .str organization),
     ("noombat:organizationId", .ofOption organizationApId),
     ("noombat:organizationConfirmed", .bool confirmedAt.isSome),
     ("noombat:organizationConfirmedAt", .ofOption (confirmedAt.map writing.rfc3339)),
     ("schema:startDate", .str (writing.date startDate)),
     ("schema:endDate", .ofOption (endDate.map writing.date)),
     ("content", .ofOption descriptionHtml)]

def validateSectionVisibility (v : String) : Except NoombatError Unit :=
  if visibilities.contains v then .ok ()
  else .error (.badRequest
    "visibility must be 'public', 'followers', 'connections', or 'private'")

/-- The URI of the organisation that a claim names, if it is known. -/
def organizationApId : Option Uuid → ExperienceHandler (Option String)
  | none => pure none
  | some id => sql (.selectApId id)

/-- A description and its rendering. -/
def renderOptionalMarkdown : Option String → ExperienceHandler (Option String × Option String)
  | some md => do
      let html ← render md
      return (some md, some html)
  | none => pure (none, none)

structure NewWorkExperience where
  title : String
  organization : String
  organizationId : Option Uuid
  startDate : NaiveDate
  endDate : Option NaiveDate
  descriptionMd : Option String
  sortOrder : Option Int
  visibility : Option String

/-- A claim as it is made, which is unconfirmed. -/
def NewWorkExperience.row (params : NewWorkExperience) (id actorId : Uuid)
    (desc : Option String × Option String) (orgApId : Option String) : WorkExperienceRow where
  id := id
  actorId := actorId
  title := params.title
  organization := params.organization
  organizationId := params.organizationId
  organizationConfirmedAt := none
  organizationConfirmedVia := none
  startDate := params.startDate
  endDate := params.endDate
  descriptionMd := desc.1
  descriptionHtml := desc.2
  sortOrder := params.sortOrder.getD 0
  visibility := params.visibility.getD "public"
  apObject := buildWorkExperienceApObject writing id params.title params.organization orgApId
    none params.startDate params.endDate desc.2

def createWorkExperience (actorId : Uuid) (params : NewWorkExperience) :
    ExperienceHandler WorkExperience := do
  let id ← newUuid
  ofExcept (validateSectionVisibility (params.visibility.getD "public"))
  let desc ← renderOptionalMarkdown params.descriptionMd
  let orgApId ← organizationApId params.organizationId
  sql (.insert (params.row writing id actorId desc orgApId))

def deleteWorkExperience (actorId id : Uuid) : ExperienceHandler Unit := do
  let affected ← sql (.delete id actorId)
  if affected = 0 then throw (.notFound "experience" id)
  else pure ()

structure UpdateWorkExperience where
  title : Option String
  organization : Option String
  /-- The outer `none` leaves the reference alone, the inner one clears it. -/
  organizationId : Option (Option Uuid)
  startDate : Option NaiveDate
  endDate : Option (Option NaiveDate)
  descriptionMd : Option (Option String)
  sortOrder : Option Int
  visibility : Option String

/-- The edit names another employer than the claim does, by text or by reference. -/
def UpdateWorkExperience.changesEmployer (params : UpdateWorkExperience)
    (current : WorkExperience) : Bool :=
  params.organization.getD current.organization != current.organization ||
    params.organizationId.getD current.organizationId != current.organizationId

/-- The columns of a claim after an edit: a confirmation stays only with the employer. -/
def UpdateWorkExperience.merge (params : UpdateWorkExperience) (current : WorkExperience)
    (desc : Option String × Option String) (orgApId : Option String) : Edit :=
  let title := params.title.getD current.title
  let organization := params.organization.getD current.organization
  let startDate := params.startDate.getD current.startDate
  let endDate := params.endDate.getD current.endDate
  let employerChanged := params.changesEmployer current
  let confirmedAt := if employerChanged then none else current.organizationConfirmedAt
  { title, organization,
    organizationId := params.organizationId.getD current.organizationId
    organizationConfirmedAt := confirmedAt
    organizationConfirmedVia :=
      if employerChanged then none else current.organizationConfirmedVia
    startDate, endDate,
    descriptionMd := desc.1
    descriptionHtml := desc.2
    sortOrder := params.sortOrder.getD current.sortOrder
    visibility := params.visibility.getD current.visibility
    apObject := buildWorkExperienceApObject writing current.id title organization orgApId
      confirmedAt startDate endDate desc.2 }

/-- The claim that a statement found, if it found one. -/
def okOr (entity : String) (id : Uuid) : Option WorkExperience → ExperienceHandler WorkExperience
  | some current => pure current
  | none => throw (.notFound entity id)

def updateWorkExperience (actorId id : Uuid) (params : UpdateWorkExperience) :
    ExperienceHandler WorkExperience := do
  ofExcept (params.visibility.elim (.ok ()) validateSectionVisibility)
  let found ← sql (.selectOwn id actorId)
  let current ← okOr "experience" id found
  let desc ← renderOptionalMarkdown (params.descriptionMd.getD current.descriptionMd)
  let orgApId ← organizationApId (params.organizationId.getD current.organizationId)
  sql (.update id actorId (params.merge writing current desc orgApId))

/-- How the employer's side of a claim was established. -/
inductive ConfirmedVia where
  | organisation
  | domainEmail
  deriving DecidableEq

def ConfirmedVia.asStr : ConfirmedVia → String
  | organisation => "organisation"
  | domainEmail => "domain-email"

/-- The answer of an organisation to a claim, confirmed at a given time or not. -/
def verdictOn (current : WorkExperience) (orgApId : Option String)
    (via : Option ConfirmedVia) (confirmedAt : Option DateTime) : Verdict where
  confirmedAt := confirmedAt
  confirmedVia := via.map ConfirmedVia.asStr
  apObject := buildWorkExperienceApObject writing current.id current.title current.organization
    orgApId confirmedAt current.startDate current.endDate current.descriptionHtml

/-- The time at which a claim is confirmed, if it is. -/
def confirmationTime : Option ConfirmedVia → ExperienceHandler (Option DateTime)
  | some _ => do
      let now ← utcNow
      return some now
  | none => pure none

def setEmploymentConfirmation (workExperienceId organizationId : Uuid)
    (via : Option ConfirmedVia) : ExperienceHandler WorkExperience := do
  let found ← sql (.selectNaming workExperienceId organizationId)
  let current ← okOr "employment claim" workExperienceId found
  let confirmedAt ← confirmationTime via
  let orgApId ← organizationApId (some organizationId)
  sql (.answer workExperienceId organizationId (verdictOn writing current orgApId via confirmedAt))

def confirmEmployment (workExperienceId organizationId : Uuid) (via : ConfirmedVia) :
    ExperienceHandler WorkExperience :=
  setEmploymentConfirmation writing workExperienceId organizationId (some via)

def withdrawEmploymentConfirmation (workExperienceId organizationId : Uuid) :
    ExperienceHandler WorkExperience :=
  setEmploymentConfirmation writing workExperienceId organizationId none

inductive Call where
  | create (actorId : Uuid) (params : NewWorkExperience)
  | delete (actorId id : Uuid)
  | update (actorId id : Uuid) (params : UpdateWorkExperience)
  | confirm (id organizationId : Uuid) (via : ConfirmedVia)
  | withdraw (id organizationId : Uuid)

/-- The program of a call, whose response is not looked at. -/
def Call.program : Call → Program Experiences Unit
  | create actorId params => do
      let _ ← (createWorkExperience writing actorId params).run
      return ()
  | delete actorId id => do
      let _ ← (deleteWorkExperience actorId id).run
      return ()
  | update actorId id params => do
      let _ ← (updateWorkExperience writing actorId id params).run
      return ()
  | confirm id organizationId via => do
      let _ ← (confirmEmployment writing id organizationId via).run
      return ()
  | withdraw id organizationId => do
      let _ ← (withdrawEmploymentConfirmation writing id organizationId).run
      return ()

end Identity.Employment
