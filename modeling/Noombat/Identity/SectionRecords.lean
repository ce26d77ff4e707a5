import Noombat.Identity.Experience

/-!
# Education and publications

The `education_entries` and `scholarly_articles` tables, the statements that read and write
them, and the calls by which a member makes and edits an entry and adds a publication, or adds it
again under the same DOI.  Each statement takes effect at once; any statement may fail, with any
error.
-/

namespace Identity.Records

open Employment (NaiveDate Writing visibilities validateSectionVisibility)
open Federation (Uuid DateTime NoombatError)
open Fallible

/-! ### Education -/

structure EducationEntry where
  id : Uuid
  actorId : Uuid
  institution : String
  degree : Option String
  fieldOfStudy : Option String
  startDate : NaiveDate
  endDate : Option NaiveDate
  descriptionMd : Option String
  descriptionHtml : Option String
  sortOrder : Int
  visibility : String
  deriving DecidableEq

structure EducationRow extends EducationEntry where
  apObject : Json

/-- Two rows have different identifiers. -/
def EducationRow.Apart (r r' : EducationRow) : Prop :=
  r.id ≠ r'.id

instance : DecidableRel EducationRow.Apart :=
  fun _ _ => inferInstanceAs (Decidable (_ ≠ _))

/-- The columns that an edit writes. -/
structure EducationEdit where
  institution : String
  degree : Option String
  fieldOfStudy : Option String
  startDate : NaiveDate
  endDate : Option NaiveDate
  descriptionMd : Option String
  descriptionHtml : Option String
  sortOrder : Int
  visibility : String
  apObject : Json

/-- The row with the columns of an edit. -/
def EducationEdit.apply (edit : EducationEdit) (r : EducationRow) : EducationRow where
  id := r.id
  actorId := r.actorId
  institution := edit.institution
  degree := edit.degree
  fieldOfStudy := edit.fieldOfStudy
  startDate := edit.startDate
  endDate := edit.endDate
  descriptionMd := edit.descriptionMd
  descriptionHtml := edit.descriptionHtml
  sortOrder := edit.sortOrder
  visibility := edit.visibility
  apObject := edit.apObject

/-! ### Publications -/

structure ScholarlyArticle where
  id : Uuid
  actorId : Uuid
  doi : String
  title : String
  authors : Json
  abstractMd : Option String
  abstractHtml : Option String
  journal : Option String
  publisher : Option String
  publishedDate : Option NaiveDate
  visibility : String
  fetchedAt : DateTime

structure ArticleRow extends ScholarlyArticle where
  doiMetadata : Json
  apObject : Json

/-- Two rows have different identifiers, and different actors or DOIs. -/
def ArticleRow.Apart (r r' : ArticleRow) : Prop :=
  r.id ≠ r'.id ∧ (r.actorId, r.doi) ≠ (r'.actorId, r'.doi)

instance : DecidableRel ArticleRow.Apart :=
  fun _ _ => inferInstanceAs (Decidable (_ ∧ _))

/-- The publication is the one of an actor under a DOI. -/
def isUnder (actorId : Uuid) (doi : String) (r : ArticleRow) : Bool :=
  r.actorId == actorId && r.doi == doi

/-- The row with what an upsert takes from the row that it conflicts with: the title, the
authors, the metadata and the time. -/
def ArticleRow.refreshedBy (excluded r : ArticleRow) : ArticleRow :=
  { r with
    title := excluded.title
    authors := excluded.authors
    doiMetadata := excluded.doiMetadata
    fetchedAt := excluded.fetchedAt }

/-! ### Statements -/

structure Db where
  actors : List Uuid
  educations : Table EducationRow.Apart
  articles : Table ArticleRow.Apart

inductive RecordSql where
  /-- An entry of an actor. -/
  | selectEducation (id actorId : Uuid)
  | insertEducation (row : EducationRow)
  | updateEducation (id actorId : Uuid) (edit : EducationEdit)
  /-- Insert a publication, or refresh the one of the actor under its DOI. -/
  | upsertArticle (row : ArticleRow)

@[reducible]
def RecordSql.Result : RecordSql → Type
  | selectEducation _ _ => Option EducationEntry
  | insertEducation _ => EducationEntry
  | updateEducation _ _ _ => EducationEntry
  | upsertArticle _ => ScholarlyArticle

/-- The entry has an identifier and is an actor's. -/
def isOwn (id actorId : Uuid) (r : EducationRow) : Bool :=
  r.id == id && r.actorId == actorId

/-- The visibility satisfies the check and the actor is there. -/
def Db.admits (visibility : String) (actorId : Uuid) (db : Db) : Bool :=
  visibilities.contains visibility && db.actors.contains actorId

/-- The effect of a statement. -/
def RecordSql.exec : (s : RecordSql) → Db → Except NoombatError s.Result × Db
  | selectEducation id actorId, db =>
      (.ok ((db.educations.find (isOwn id actorId)).map (·.toEducationEntry)), db)
  | insertEducation row, db =>
      if db.admits row.visibility row.actorId then
        match db.educations.insert row with
        | some educations => (.ok row.toEducationEntry, { db with educations })
        | none => (.error (.database "duplicate key value violates unique constraint"), db)
      else (.error (.database "new row violates a constraint"), db)
  | updateEducation id actorId edit, db =>
      match db.educations.find (isOwn id actorId) with
      | none =>
          (.error (.database
            "no rows returned by a query that expected to return at least one row"), db)
      | some r =>
          if visibilities.contains edit.visibility then
            (.ok (edit.apply r).toEducationEntry,
              { db with
                educations :=
                  db.educations.update (isOwn id actorId) edit.apply fun _ _ h => ⟨h, h, h⟩ })
          else (.error (.database "new row violates a constraint"), db)
  | upsertArticle row, db =>
      if db.admits row.visibility row.actorId then
        match db.articles.find (isUnder row.actorId row.doi) with
        | some r =>
            (.ok (row.refreshedBy r).toScholarlyArticle,
              { db with
                articles := db.articles.update (isUnder row.actorId row.doi) row.refreshedBy
                  fun _ _ h => ⟨h, h, h⟩ })
        | none =>
            match db.articles.insert row with
            | some articles => (.ok row.toScholarlyArticle, { db with articles })
            | none => (.error (.database "duplicate key value violates unique constraint"), db)
      else (.error (.database "new row violates a constraint"), db)

/-! ### The world of the calls -/

inductive RecordRequest where
  | sql (s : RecordSql)
  /-- An identifier drawn at random. -/
  | newUuid
  /-- The time of the process. -/
  | utcNow
  /-- The rendering of a Markdown text as HTML. -/
  | render (md : String)

@[reducible]
def RecordRequest.Result : RecordRequest → Type
  | sql s => s.Result
  | newUuid => Uuid
  | utcNow => DateTime
  | render _ => String

/-- What the environment chooses for a request that does not fail. -/
@[reducible]
def RecordRequest.Choice : RecordRequest → Type
  | sql _ => Unit
  | newUuid => Uuid
  | utcNow => DateTime
  | render _ => String

def RecordRequest.exec : (q : RecordRequest) → q.Choice → Db → Except NoombatError q.Result × Db
  | sql s, _, db => s.exec db
  | newUuid, c, db => (.ok c, db)
  | utcNow, c, db => (.ok c, db)
  | render _, c, db => (.ok c, db)

abbrev Requests : Interface :=
  Interface.fallible NoombatError RecordRequest RecordRequest.Result

abbrev RecordHandler (α : Type) : Type :=
  Fallible Requests NoombatError α

abbrev recordWorld : World Requests Db :=
  World.failing NoombatError RecordRequest.exec

def sql (s : RecordSql) : RecordHandler s.Result :=
  ask (RecordRequest.sql s)

def newUuid : RecordHandler Uuid :=
  ask RecordRequest.newUuid

def utcNow : RecordHandler DateTime :=
  ask RecordRequest.utcNow

def render (md : String) : RecordHandler String :=
  ask (RecordRequest.render md)

/-! ### Calls -/

/-- A Markdown text and its rendering. -/
def renderOptionalMarkdown : Option String → RecordHandler (Option String × Option String)
  | some md => do
      let html ← render md
      return (some md, some html)
  | none => pure (none, none)

structure NewEducationEntry where
  institution : String
  degree : Option String
  fieldOfStudy : Option String
  startDate : NaiveDate
  endDate : Option NaiveDate
  descriptionMd : Option String
  sortOrder : Option Int
  visibility : Option String

/-- An entry as it is made; its document has neither the dates nor the description. -/
def NewEducationEntry.row (params : NewEducationEntry) (id actorId : Uuid)
    (desc : Option String × Option String) : EducationRow where
  id := id
  actorId := actorId
  institution := params.institution
  degree := params.degree
  fieldOfStudy := params.fieldOfStudy
  startDate := params.startDate
  endDate := params.endDate
  descriptionMd := desc.1
  descriptionHtml := desc.2
  sortOrder := params.sortOrder.getD 0
  visibility := params.visibility.getD "public"
  apObject := .obj
    [("type", .str "noombat:EducationEntry"),
     ("schema:alumniOf", .str params.institution),
     ("schema:credentialCategory", .ofOption params.degree),
     ("noombat:fieldOfStudy", .ofOption params.fieldOfStudy)]

def createEducationEntry (actorId : Uuid) (params : NewEducationEntry) :
    RecordHandler EducationEntry := do
  let id ← newUuid
  ofExcept (validateSectionVisibility (params.visibility.getD "public"))
  let desc ← renderOptionalMarkdown params.descriptionMd
  sql (.insertEducation (params.row id actorId desc))

structure UpdateEducationEntry where
  institution : Option String
  degree : Option (Option String)
  fieldOfStudy : Option (Option String)
  startDate : Option NaiveDate
  endDate : Option (Option NaiveDate)
  descriptionMd : Option (Option String)
  sortOrder : Option Int
  visibility : Option String

variable (writing : Writing)

/-- The columns of an entry after an edit. -/
def UpdateEducationEntry.merge (params : UpdateEducationEntry) (current : EducationEntry)
    (desc : Option String × Option String) : EducationEdit :=
  let institution := params.institution.getD current.institution
  let degree := params.degree.getD current.degree
  let fieldOfStudy := params.fieldOfStudy.getD current.fieldOfStudy
  let startDate := params.startDate.getD current.startDate
  let endDate := params.endDate.getD current.endDate
  { institution, degree, fieldOfStudy, startDate, endDate,
    descriptionMd := desc.1
    descriptionHtml := desc.2
    sortOrder := params.sortOrder.getD current.sortOrder
    visibility := params.visibility.getD current.visibility
    apObject := .obj
      [("type", .str "noombat:EducationEntry"),
       ("id", .str (writing.uuid current.id)),
       ("schema:alumniOf", .str institution),
       ("schema:credentialCategory", .ofOption degree),
       ("noombat:fieldOfStudy", .ofOption fieldOfStudy),
       ("schema:startDate", .str (writing.date startDate)),
       ("schema:endDate", .ofOption (endDate.map writing.date)),
       ("content", .ofOption desc.2)] }

/-- The entry that a statement found, if it found one. -/
def okOr (id : Uuid) : Option EducationEntry → RecordHandler EducationEntry
  | some current => pure current
  | none => throw (.notFound "education" id)

def updateEducationEntry (actorId id : Uuid) (params : UpdateEducationEntry) :
    RecordHandler EducationEntry := do
  ofExcept (params.visibility.elim (.ok ()) validateSectionVisibility)
  let found ← sql (.selectEducation id actorId)
  let current ← okOr id found
  let desc ← renderOptionalMarkdown (params.descriptionMd.getD current.descriptionMd)
  sql (.updateEducation id actorId (params.merge writing current desc))

structure NewScholarlyArticle where
  doi : String
  title : String
  authors : Json
  abstractMd : Option String
  journal : Option String
  publisher : Option String
  publishedDate : Option NaiveDate
  doiMetadata : Json
  visibility : Option String

/-- A publication as it is added; its document has neither the abstract nor the date. -/
def NewScholarlyArticle.row (params : NewScholarlyArticle) (id actorId : Uuid)
    (abs : Option String × Option String) (now : DateTime) : ArticleRow where
  id := id
  actorId := actorId
  doi := params.doi
  title := params.title
  authors := params.authors
  abstractMd := abs.1
  abstractHtml := abs.2
  journal := params.journal
  publisher := params.publisher
  publishedDate := params.publishedDate
  visibility := params.visibility.getD "public"
  fetchedAt := now
  doiMetadata := params.doiMetadata
  apObject := .obj
    [("type", .str "noombat:ScholarlyArticle"),
     ("schema:identifier", .obj
       [("type", .str "PropertyValue"),
        ("schema:propertyID", .str "DOI"),
        ("value", .str params.doi)]),
     ("name", .str params.title)]

def createScholarlyArticle (actorId : Uuid) (params : NewScholarlyArticle) :
    RecordHandler ScholarlyArticle := do
  let id ← newUuid
  ofExcept (validateSectionVisibility (params.visibility.getD "public"))
  let abs ← renderOptionalMarkdown params.abstractMd
  let now ← utcNow
  sql (.upsertArticle (params.row id actorId abs now))

end Identity.Records
