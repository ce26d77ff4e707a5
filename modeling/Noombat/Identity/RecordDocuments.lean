import Noombat.Identity.SectionRecords
import Noombat.Program.Runs

/-!
# Records and their documents

Work experiences, education entries and publications are kept both as columns and as a document.
A record is in step if its document states what the columns do and its visibility is the one that
was last requested for it.  Experiences stay in step, and so do education entries when they are
edited; entries are not when they are made, nor are publications with an abstract or a date, or
that are added again with another title or visibility.
-/

namespace Identity.Records

open Employment (NaiveDate Writing visibilities validateSectionVisibility experienceWorld
  WorkExperience WorkExperienceRow NewWorkExperience UpdateWorkExperience)
open Federation (Uuid DateTime NoombatError)
open Fallible Program

/-! ### Records in step -/

/-- A kind of records: their columns, their document, and what it should state, as strings under
keys. -/
structure RecordType (ρ : Type) where
  id : ρ → Uuid
  visibility : ρ → String
  apObject : ρ → Json
  facts : ρ → List (String × Option String)

namespace RecordType

variable {ρ : Type} (R : RecordType ρ)

/-- The document of a record states what its columns do. -/
def Faithful (r : ρ) : Prop :=
  ∀ fact ∈ R.facts r, (R.apObject r).getStr fact.1 = fact.2

instance (r : ρ) : Decidable (R.Faithful r) :=
  inferInstanceAs (Decidable (∀ fact ∈ _, _))

/-- Every record is faithful, and as visible as was last requested. -/
structure InStep (rows : List ρ) (requested : Uuid → Option String) : Prop where
  faithful : ∀ r ∈ rows, R.Faithful r
  asRequested : ∀ r ∈ rows, requested (R.id r) = some (R.visibility r)

/-- A record is written, and all others stay. -/
def Written (r : ρ) (rows rows' : List ρ) : Prop :=
  r ∈ rows' ∧ ∀ r' ∈ rows', r' = r ∨ r' ∈ rows ∧ R.id r' ≠ R.id r

variable {R} {rows rows' : List ρ} {requested : Uuid → Option String} {r : ρ}

/-- Records stay in step just if the one that is written is faithful and as visible as is
requested. -/
theorem InStep.write_iff (h : R.InStep rows requested) (hwritten : R.Written r rows rows')
    (v : Option String) :
  R.InStep rows' (Function.update requested (R.id r) v) ↔
    R.Faithful r ∧ v = some (R.visibility r)
  := by
  obtain ⟨hr, hothers⟩ := hwritten
  constructor
  · intro h'
    constructor
    · exact h'.faithful r hr
    · rw [← h'.asRequested r hr, Function.update_self]
  · rintro ⟨hfaithful, hvisibility⟩
    constructor
    · intro r' hr'
      obtain rfl | ⟨hold, _⟩ := hothers r' hr'
      · exact hfaithful
      · exact h.faithful r' hold
    · intro r' hr'
      obtain rfl | ⟨hold, hid⟩ := hothers r' hr'
      · rw [Function.update_self, hvisibility]
      · rw [Function.update_of_ne hid, h.asRequested r' hold]

variable {Apart : ρ → ρ → Prop}

/-- A row that is inserted is written. -/
theorem written_insert [DecidableRel Apart] (hapart : ∀ r r', Apart r r' → R.id r ≠ R.id r')
    {t t' : Table Apart} (h : t.insert r = some t') :
  R.Written r t.rows t'.rows
  := by
  constructor
  · exact (Table.mem_of_insert h).mpr (.inl rfl)
  · intro r' hr'
    obtain rfl | hold := (Table.mem_of_insert h).mp hr'
    · exact .inl rfl
    · have hne := hapart r r' (Table.apart_of_insert h hold)
      exact .inr ⟨hold, hne.symm⟩

/-- The only row that satisfies `p` is written when it is updated. -/
theorem written_update [Std.Symm Apart] (hapart : ∀ r r', Apart r r' → R.id r ≠ R.id r')
    {p : ρ → Bool} {f : ρ → ρ} {keeps} (hid : ∀ r, R.id (f r) = R.id r) {t : Table Apart}
    (hp : ∀ r r', p r = true → p r' = true → ¬ Apart r r') (h : t.find p = some r) :
  R.Written (f r) t.rows (t.update p f keeps).rows
  := by
  have hr := Table.mem_of_find h
  have hfound : p r = true := by
    have hfound := Table.satisfies_of_find h
    simpa using hfound
  constructor
  · apply Table.mem_update.mpr
    use r, hr
    rw [if_pos hfound]
  · intro r' hr'
    obtain ⟨r₀, hr₀, rfl⟩ := Table.mem_update.mp hr'
    by_cases hp₀ : p r₀ = true
    · left
      rw [if_pos hp₀, Table.eq_of_not_apart hr₀ hr (hp r₀ r hp₀ hfound)]
    · right
      rw [if_neg hp₀]
      constructor
      · exact hr₀
      · rw [hid]
        intro heq
        have happart : ¬ Apart r₀ r := fun h => hapart r₀ r h heq
        obtain rfl := Table.eq_of_not_apart hr₀ hr happart
        exact hp₀ hfound

end RecordType

section Kinds

variable (writing : Writing)

def works : RecordType WorkExperienceRow where
  id r := r.id
  visibility r := r.visibility
  apObject r := r.apObject
  facts r :=
    [("schema:roleName", some r.title),
     ("schema:worksFor", some r.organization),
     ("schema:startDate", some (writing.date r.startDate)),
     ("schema:endDate", r.endDate.map writing.date),
     ("content", r.descriptionHtml)]

def educations : RecordType EducationRow where
  id r := r.id
  visibility r := r.visibility
  apObject r := r.apObject
  facts r :=
    [("schema:alumniOf", some r.institution),
     ("schema:startDate", some (writing.date r.startDate)),
     ("schema:endDate", r.endDate.map writing.date),
     ("content", r.descriptionHtml)]

def articles : RecordType ArticleRow where
  id r := r.id
  visibility r := r.visibility
  apObject r := r.apObject
  facts r :=
    [("name", some r.title),
     ("schema:datePublished", r.publishedDate.map writing.date),
     ("content", r.abstractHtml)]

end Kinds

/-! ### Operations -/

/-- The records, and the visibilities last requested for those of each table. -/
structure State where
  employment : Employment.Db
  records : Db
  works : Uuid → Option String
  educations : Uuid → Option String
  articles : Uuid → Option String

/-- An operation of a member, and the choices that the environment makes while it runs. -/
inductive Operation where
  | createWork (actorId : Uuid) (params : NewWorkExperience) (script : Script experienceWorld)
  | updateWork (actorId id : Uuid) (params : UpdateWorkExperience)
      (script : Script experienceWorld)
  | createEducation (actorId : Uuid) (params : NewEducationEntry) (script : Script recordWorld)
  | updateEducation (actorId id : Uuid) (params : UpdateEducationEntry)
      (script : Script recordWorld)
  | createArticle (actorId : Uuid) (params : NewScholarlyArticle) (script : Script recordWorld)

/-- The visibilities requested after an operation that has ended in a record or an error: the one
that it asks for, if it asks for one. -/
def requestedAfter {α : Type} (id : α → Uuid) (asked : Option String)
    (requested : Uuid → Option String) : Except NoombatError α → Uuid → Option String
  | .ok a => Function.update requested (id a) (asked <|> requested (id a))
  | .error _ => requested

/-- The visibility that adding a publication asks for: a new one is public by default. -/
def articleVisibility (db : Db) (actorId : Uuid) (params : NewScholarlyArticle) :
    Option String :=
  match db.articles.find (isUnder actorId params.doi) with
  | some _ => params.visibility
  | none => some (params.visibility.getD "public")

variable (writing : Writing)

/-- The state after an operation. -/
def step (s : State) : Operation → Option State
  | .createWork actorId params script =>
      let r := run experienceWorld script
        (Employment.createWorkExperience writing actorId params).run s.employment
      some { s with
        employment := r.2
        works := requestedAfter (·.id) (some (params.visibility.getD "public")) s.works r.1 }
  | .updateWork actorId id params script =>
      let r := run experienceWorld script
        (Employment.updateWorkExperience writing actorId id params).run s.employment
      some { s with
        employment := r.2
        works := requestedAfter (·.id) params.visibility s.works r.1 }
  | .createEducation actorId params script =>
      let r := run recordWorld script (createEducationEntry actorId params).run s.records
      some { s with
        records := r.2
        educations :=
          requestedAfter (·.id) (some (params.visibility.getD "public")) s.educations r.1 }
  | .updateEducation actorId id params script =>
      let r := run recordWorld script
        (updateEducationEntry writing actorId id params).run s.records
      some { s with
        records := r.2
        educations := requestedAfter (·.id) params.visibility s.educations r.1 }
  | .createArticle actorId params script =>
      let r := run recordWorld script (createScholarlyArticle actorId params).run s.records
      some { s with
        records := r.2
        articles :=
          requestedAfter (·.id) (articleVisibility s.records actorId params) s.articles r.1 }

/-- Every record is in step. -/
structure InStep (s : State) : Prop where
  works : (works writing).InStep s.employment.experiences.rows s.works
  educations : (educations writing).InStep s.records.educations.rows s.educations
  articles : (articles writing).InStep s.records.articles.rows s.articles

/-- An operation does not make an education entry, unless it is refused, and adds a publication
only without abstract and date, or again with the same title and visibility. -/
def Fits (s : State) : Operation → Prop
  | .createEducation _ params _ =>
      validateSectionVisibility (params.visibility.getD "public") ≠ .ok ()
  | .createArticle actorId params _ =>
      validateSectionVisibility (params.visibility.getD "public") = .ok () →
        match s.records.articles.find (isUnder actorId params.doi) with
        | none => params.abstractMd = none ∧ params.publishedDate = none
        | some r => params.title = r.title ∧ ∀ v ∈ params.visibility, v = r.visibility
  | _ => True

/-! ### Documents -/

section Documents

theorem asStr_str (s : String) :
  (Json.str s).asStr = some s
  := rfl

theorem asStr_ofOption (o : Option String) :
  (Json.ofOption o).asStr = o
  := by
  cases o <;> rfl

theorem faithful_created_work (params : NewWorkExperience) (id actorId : Uuid)
    (desc : Option String × Option String) (orgApId : Option String) :
  (works writing).Faithful (params.row writing id actorId desc orgApId)
  := by
  simp only [RecordType.Faithful, works, NewWorkExperience.row,
    Employment.buildWorkExperienceApObject, List.forall_mem_cons]
  simp only [Json.getStr, Json.get, List.lookup_cons, String.reduceBEq, Option.bind_some, asStr_str,
    asStr_ofOption, List.not_mem_nil, false_imp_iff, implies_true, and_true]

theorem faithful_edited_work (params : UpdateWorkExperience) (r : WorkExperienceRow)
    (desc : Option String × Option String) (orgApId : Option String) :
  (works writing).Faithful ((params.merge writing r.toWorkExperience desc orgApId).apply r)
  := by
  simp only [RecordType.Faithful, works, UpdateWorkExperience.merge, Employment.Edit.apply,
    Employment.buildWorkExperienceApObject, List.forall_mem_cons]
  simp only [Json.getStr, Json.get, List.lookup_cons, String.reduceBEq, Option.bind_some, asStr_str,
    asStr_ofOption, List.not_mem_nil, false_imp_iff, implies_true, and_true]

theorem faithful_edited_education (params : UpdateEducationEntry) (r : EducationRow)
    (desc : Option String × Option String) :
  (educations writing).Faithful ((params.merge writing r.toEducationEntry desc).apply r)
  := by
  simp only [RecordType.Faithful, educations, UpdateEducationEntry.merge, EducationEdit.apply,
    List.forall_mem_cons]
  simp only [Json.getStr, Json.get, List.lookup_cons, String.reduceBEq, Option.bind_some, asStr_str,
    asStr_ofOption, List.not_mem_nil, false_imp_iff, implies_true, and_true]

/-- The document of an entry that is made lacks its date. -/
theorem not_faithful_created_education (params : NewEducationEntry) (id actorId : Uuid)
    (desc : Option String × Option String) :
  ¬ (educations writing).Faithful (params.row id actorId desc)
  := by
  intro h
  have hstart := h ("schema:startDate", some (writing.date params.startDate)) (by
    simp [educations, NewEducationEntry.row])
  simp [educations, NewEducationEntry.row, Json.getStr, Json.get, List.lookup_cons] at hstart

/-- The document of a publication that is added states its columns if it has no abstract and no
date. -/
theorem faithful_added_article_iff (params : NewScholarlyArticle) (id actorId : Uuid)
    (abs : Option String × Option String) (now : DateTime) :
  (articles writing).Faithful (params.row id actorId abs now) ↔
    abs.2 = none ∧ params.publishedDate = none
  := by
  simp only [RecordType.Faithful, articles, NewScholarlyArticle.row, List.forall_mem_cons]
  simp only [Json.getStr, Json.get, List.lookup_cons, String.reduceBEq, Option.bind_some,
    Option.bind_none, asStr_str, List.lookup_nil, List.not_mem_nil, false_imp_iff, implies_true,
    and_true, true_and]
  rw [and_comm, eq_comm, eq_comm (b := params.publishedDate.map writing.date),
    Option.map_eq_none_iff]

/-- The document of a publication that is refreshed states its columns as before if the title is
the same. -/
theorem faithful_refreshed_article_iff {r : ArticleRow} (h : (articles writing).Faithful r)
    (added : ArticleRow) :
  (articles writing).Faithful (added.refreshedBy r) ↔ added.title = r.title
  := by
  simp only [RecordType.Faithful, articles, ArticleRow.refreshedBy, List.forall_mem_cons,
    List.not_mem_nil, false_imp_iff, implies_true, and_true] at h ⊢
  constructor
  · intro h'
    have htitle := h'.1.symm.trans h.1
    exact Option.some.inj htitle
  · intro htitle
    rw [htitle]
    exact h

end Documents

/-! ### Operations on education and publications -/

section Records

theorem wp_renderOptionalMarkdown (md : Option String) (db : Db) :
  wp recordWorld (Always recordWorld)
    (onExcept (fun desc db' => db' = db ∧ desc.1 = md ∧ desc.2.isSome = md.isSome)
      (fun _ db' => db' = db))
    (renderOptionalMarkdown md).run db
  := by
  cases md with
  | none =>
      apply (wp_run_pure _ _ _).mpr
      exact ⟨rfl, rfl, rfl⟩
  | some md =>
      rw [renderOptionalMarkdown, wp_run_bind]
      apply wp_run_ask_failing (RecordRequest.render md)
      · intro e _
        rfl
      · intro html _
        apply (wp_run_pure _ _ _).mpr
        exact ⟨rfl, rfl, rfl⟩

theorem isOwn_not_apart {id actorId : Uuid} (r r' : EducationRow)
    (h : isOwn id actorId r = true) (h' : isOwn id actorId r' = true) :
  ¬ EducationRow.Apart r r'
  := by
  rw [isOwn, Bool.and_eq_true, beq_iff_eq] at h h'
  intro hne
  exact hne (h.1.trans h'.1.symm)

theorem isUnder_not_apart {actorId : Uuid} {doi : String} (r r' : ArticleRow)
    (h : isUnder actorId doi r = true) (h' : isUnder actorId doi r' = true) :
  ¬ ArticleRow.Apart r r'
  := by
  rw [isUnder, Bool.and_eq_true, beq_iff_eq, beq_iff_eq] at h h'
  rintro ⟨_, hne⟩
  apply hne
  rw [h.1, h.2, h'.1, h'.2]

instance : Std.Symm EducationRow.Apart :=
  ⟨fun _ _ h => h.symm⟩

instance : Std.Symm ArticleRow.Apart :=
  ⟨fun _ _ h => ⟨h.1.symm, h.2.symm⟩⟩

/-- An entry that is made is written as the call makes it. -/
theorem wp_createEducationEntry (actorId : Uuid) (params : NewEducationEntry) (db : Db) :
  wp recordWorld (Always recordWorld)
    (onExcept
      (fun entry db' =>
        validateSectionVisibility (params.visibility.getD "public") = .ok () ∧
          db'.articles = db.articles ∧
          ∃ id desc, entry = (params.row id actorId desc).toEducationEntry ∧
            (educations writing).Written (params.row id actorId desc) db.educations.rows
              db'.educations.rows)
      (fun _ db' => db' = db))
    (createEducationEntry actorId params).run db
  := by
  rw [createEducationEntry, wp_run_bind]
  apply wp_run_ask_failing RecordRequest.newUuid
  · intro e _
    rfl
  · intro id _
    show wp recordWorld _ _ _ db
    rw [wp_run_bind, run_ofExcept, wp_done]
    cases hvalid : validateSectionVisibility (params.visibility.getD "public") with
    | error e => rfl
    | ok =>
        show wp recordWorld _ _ _ db
        rw [wp_run_bind]
        apply wp_mono _ (wp_renderOptionalMarkdown params.descriptionMd db)
        rintro (e | desc) db' hdesc
        · exact hdesc
        · obtain ⟨rfl, _, _⟩ := hdesc
          simp only [onExcept_ok]
          apply wp_run_ask_failing (RecordRequest.sql (.insertEducation (params.row id actorId desc)))
          · intro e _
            rfl
          · intro _ _
            rw [RecordRequest.exec, RecordSql.exec]
            split
            · cases hinsert : db'.educations.insert (params.row id actorId desc) with
              | none => rfl
              | some educations' =>
                  exact ⟨trivial, rfl, id, desc, rfl,
                    RecordType.written_insert (fun _ _ h => h) hinsert⟩
            · rfl

/-- An entry that is edited is written as the edit leaves it. -/
theorem wp_updateEducationEntry (actorId id : Uuid) (params : UpdateEducationEntry) (db : Db) :
  wp recordWorld (Always recordWorld)
    (onExcept
      (fun entry db' => db'.articles = db.articles ∧
        ∃ r ∈ db.educations.rows, ∃ desc,
          let edited := (params.merge writing r.toEducationEntry desc).apply r
          entry = edited.toEducationEntry ∧
            (educations writing).Written edited db.educations.rows db'.educations.rows)
      (fun _ db' => db' = db))
    (updateEducationEntry writing actorId id params).run db
  := by
  rw [updateEducationEntry, wp_run_bind, run_ofExcept, wp_done]
  cases params.visibility.elim (.ok ()) validateSectionVisibility with
  | error e => rfl
  | ok =>
      show wp recordWorld _ _ _ db
      rw [wp_run_bind]
      apply wp_run_ask_failing (RecordRequest.sql (.selectEducation id actorId))
      · intro e _
        rfl
      · intro _ _
        show wp recordWorld _ _ _ db
        rw [wp_run_bind]
        cases hfound : db.educations.find (isOwn id actorId) with
        | none =>
            apply (wp_run_throw _ _ _).mpr
            rfl
        | some r =>
            apply (wp_run_pure _ _ _).mpr
            show wp recordWorld _ _ _ db
            rw [wp_run_bind]
            apply wp_mono _ (wp_renderOptionalMarkdown
              (params.descriptionMd.getD r.descriptionMd) db)
            rintro (e | desc) db' hdesc
            · exact hdesc
            · obtain ⟨rfl, _, _⟩ := hdesc
              simp only [onExcept_ok]
              apply wp_run_ask_failing (RecordRequest.sql (.updateEducation id actorId
                (params.merge writing r.toEducationEntry desc)))
              · intro e _
                rfl
              · intro _ _
                rw [RecordRequest.exec, RecordSql.exec]
                simp only [hfound]
                split
                · have hwritten : (educations writing).Written
                      ((params.merge writing r.toEducationEntry desc).apply r)
                      db'.educations.rows
                      (db'.educations.update (isOwn id actorId)
                        (params.merge writing r.toEducationEntry desc).apply
                        fun _ _ h => ⟨h, h, h⟩).rows := by
                    apply RecordType.written_update _ _ isOwn_not_apart hfound
                    · exact fun _ _ h => h
                    · exact fun _ => rfl
                  exact ⟨rfl, r, Table.mem_of_find hfound, desc, rfl, hwritten⟩
                · rfl

/-- A publication that is added is written as the call makes it, or as it refreshes the one under
its DOI. -/
theorem wp_createScholarlyArticle (actorId : Uuid) (params : NewScholarlyArticle) (db : Db) :
  wp recordWorld (Always recordWorld)
    (onExcept
      (fun article db' =>
        validateSectionVisibility (params.visibility.getD "public") = .ok () ∧
          db'.educations = db.educations ∧
          ∃ id abs now, abs.1 = params.abstractMd ∧ abs.2.isSome = params.abstractMd.isSome ∧
            let added := params.row id actorId abs now
            let written := ((db.articles.find (isUnder actorId params.doi)).map
              added.refreshedBy).getD added
            article = written.toScholarlyArticle ∧
              (articles writing).Written written db.articles.rows db'.articles.rows)
      (fun _ db' => db' = db))
    (createScholarlyArticle actorId params).run db
  := by
  rw [createScholarlyArticle, wp_run_bind]
  apply wp_run_ask_failing RecordRequest.newUuid
  · intro e _
    rfl
  · intro id _
    show wp recordWorld _ _ _ db
    rw [wp_run_bind, run_ofExcept, wp_done]
    cases hvalid : validateSectionVisibility (params.visibility.getD "public") with
    | error e => rfl
    | ok =>
        show wp recordWorld _ _ _ db
        rw [wp_run_bind]
        apply wp_mono _ (wp_renderOptionalMarkdown params.abstractMd db)
        rintro (e | abs) db' habs
        · exact habs
        · obtain ⟨rfl, hmd, hhtml⟩ := habs
          simp only [onExcept_ok]
          rw [wp_run_bind]
          apply wp_run_ask_failing RecordRequest.utcNow
          · intro e _
            rfl
          · intro now _
            show wp recordWorld _ _ _ db'
            apply wp_run_ask_failing
              (RecordRequest.sql (.upsertArticle (params.row id actorId abs now)))
            · intro e _
              rfl
            · intro _ _
              rw [RecordRequest.exec, RecordSql.exec]
              split
              · have hunder : isUnder (params.row id actorId abs now).actorId
                    (params.row id actorId abs now).doi = isUnder actorId params.doi := rfl
                rw [hunder]
                cases hfound : db'.articles.find (isUnder actorId params.doi) with
                | none =>
                    cases hinsert : db'.articles.insert (params.row id actorId abs now) with
                    | none => rfl
                    | some articles' =>
                        exact ⟨trivial, rfl, id, abs, now, hmd, hhtml, rfl,
                          RecordType.written_insert (fun _ _ h => h.1) hinsert⟩
                | some r =>
                    have hwritten : (articles writing).Written
                        ((params.row id actorId abs now).refreshedBy r) db'.articles.rows
                        (db'.articles.update (isUnder actorId params.doi)
                          (params.row id actorId abs now).refreshedBy
                          fun _ _ h => ⟨h, h, h⟩).rows := by
                      apply RecordType.written_update _ _ isUnder_not_apart hfound
                      · exact fun _ _ h => h.1
                      · exact fun _ => rfl
                    exact ⟨trivial, rfl, id, abs, now, hmd, hhtml, rfl, hwritten⟩
              · rfl

end Records

/-! ### Operations on work experience -/

section Works

variable {α : Type}

theorem wp_ask_sql (q : Employment.ExperienceSql)
    {Post : Except NoombatError q.Result → Employment.Db → Prop} {db : Employment.Db}
    (herror : ∀ e, Post (.error e) db) (hok : Post (q.exec db).1 (q.exec db).2) :
  wp experienceWorld (Always experienceWorld) Post (Employment.sql q).run db
  := by
  apply (wp_run_ask (Employment.ExperienceRequest.sql q) _ _).mpr
  rintro (_ | e) _
  · exact hok
  · exact herror e

theorem wp_experience_renderOptionalMarkdown (md : Option String) (db : Employment.Db) :
  wp experienceWorld (Always experienceWorld) (fun _ db' => db' = db)
    (Employment.renderOptionalMarkdown md).run db
  := by
  cases md with
  | none =>
      apply (wp_run_pure _ _ _).mpr
      rfl
  | some md =>
      rw [Employment.renderOptionalMarkdown, wp_run_bind]
      apply (wp_run_ask (Employment.ExperienceRequest.render md) _ _).mpr
      rintro (e | html) _
      · rfl
      · apply (wp_run_pure _ _ _).mpr
        rfl

theorem wp_organizationApId (organizationId : Option Uuid) (db : Employment.Db) :
  wp experienceWorld (Always experienceWorld) (fun _ db' => db' = db)
    (Employment.organizationApId organizationId).run db
  := by
  cases organizationId with
  | none =>
      apply (wp_run_pure _ _ _).mpr
      rfl
  | some id =>
      apply wp_ask_sql (.selectApId id)
      · intro e
        rfl
      · rfl

/-- An experience that is made is written as the call makes it. -/
theorem wp_createWorkExperience (actorId : Uuid) (params : NewWorkExperience)
    (db : Employment.Db) :
  wp experienceWorld (Always experienceWorld)
    (onExcept
      (fun experience db' => ∃ id desc orgApId,
        let created := params.row writing id actorId desc orgApId
        experience = created.toWorkExperience ∧
          (works writing).Written created db.experiences.rows db'.experiences.rows)
      (fun _ db' => db' = db))
    (Employment.createWorkExperience writing actorId params).run db
  := by
  rw [Employment.createWorkExperience, wp_run_bind]
  apply (wp_run_ask Employment.ExperienceRequest.newUuid _ _).mpr
  intro id _
  show wp experienceWorld _ _ _ db
  rw [wp_run_bind, run_ofExcept, wp_done]
  cases validateSectionVisibility (params.visibility.getD "public") with
  | error e => rfl
  | ok =>
      show wp experienceWorld _ _ _ db
      rw [wp_run_bind]
      apply wp_mono _ (wp_experience_renderOptionalMarkdown params.descriptionMd db)
      rintro (e | desc) db' rfl
      · rfl
      · simp only [onExcept_ok]
        rw [wp_run_bind]
        apply wp_mono _ (wp_organizationApId params.organizationId db')
        rintro (e | orgApId) db'' rfl
        · rfl
        · apply wp_ask_sql (.insert (params.row writing id actorId desc orgApId))
          · intro e
            rfl
          · rw [Employment.ExperienceSql.exec]
            split
            · cases hinsert : db''.experiences.insert
                  (params.row writing id actorId desc orgApId) with
              | none => rfl
              | some experiences' =>
                  exact ⟨id, desc, orgApId, rfl,
                    RecordType.written_insert (fun _ _ h => h) hinsert⟩
            · rfl

theorem isOwn_work_not_apart {id actorId : Uuid} (r r' : WorkExperienceRow)
    (h : Employment.isOwn id actorId r = true) (h' : Employment.isOwn id actorId r' = true) :
  ¬ WorkExperienceRow.Apart r r'
  := by
  rw [Employment.isOwn, Bool.and_eq_true, beq_iff_eq] at h h'
  intro hne
  exact hne (h.1.trans h'.1.symm)

/-- An experience that is edited is written as the edit leaves it. -/
theorem wp_updateWorkExperience (actorId id : Uuid) (params : UpdateWorkExperience)
    (db : Employment.Db) :
  wp experienceWorld (Always experienceWorld)
    (onExcept
      (fun experience db' => ∃ r ∈ db.experiences.rows, ∃ desc orgApId,
        let edited := (params.merge writing r.toWorkExperience desc orgApId).apply r
        experience = edited.toWorkExperience ∧
          (works writing).Written edited db.experiences.rows db'.experiences.rows)
      (fun _ db' => db' = db))
    (Employment.updateWorkExperience writing actorId id params).run db
  := by
  rw [Employment.updateWorkExperience, wp_run_bind, run_ofExcept, wp_done]
  cases params.visibility.elim (.ok ()) validateSectionVisibility with
  | error e => rfl
  | ok =>
      show wp experienceWorld _ _ _ db
      rw [wp_run_bind]
      apply wp_ask_sql (.selectOwn id actorId)
      · intro e
        rfl
      · show wp experienceWorld _ _ _ db
        rw [wp_run_bind]
        cases hfound : db.experiences.find (Employment.isOwn id actorId) with
        | none =>
            apply (wp_run_throw _ _ _).mpr
            rfl
        | some r =>
            apply (wp_run_pure _ _ _).mpr
            show wp experienceWorld _ _ _ db
            rw [wp_run_bind]
            apply wp_mono _ (wp_experience_renderOptionalMarkdown
              (params.descriptionMd.getD r.descriptionMd) db)
            rintro (e | desc) db' rfl
            · rfl
            · simp only [onExcept_ok]
              rw [wp_run_bind]
              apply wp_mono _ (wp_organizationApId
                (params.organizationId.getD r.organizationId) db')
              rintro (e | orgApId) db'' rfl
              · rfl
              · apply wp_ask_sql (.update id actorId
                  (params.merge writing r.toWorkExperience desc orgApId))
                · intro e
                  rfl
                · rw [Employment.ExperienceSql.exec]
                  unfold Employment.Db.updateReturning
                  simp only [hfound]
                  split
                  · have hwritten : (works writing).Written
                        ((params.merge writing r.toWorkExperience desc orgApId).apply r)
                        db''.experiences.rows
                        (db''.experiences.update (Employment.isOwn id actorId)
                          (params.merge writing r.toWorkExperience desc orgApId).apply
                          fun _ _ h => ⟨h, h, h⟩).rows := by
                      apply RecordType.written_update _ _ isOwn_work_not_apart hfound
                      · exact fun _ _ h => h
                      · exact fun _ => rfl
                    exact ⟨r, Table.mem_of_find hfound, desc, orgApId, rfl, hwritten⟩
                  · rfl

end Works

/-! ### Runs -/

variable {writing : Writing}

/-- After an operation in which the record `r` is written, records are in step just if `r` is
faithful and as visible as it asks for. -/
theorem inStep_written {ρ α : Type} {R : RecordType ρ} {rows rows' : List ρ}
    {requested : Uuid → Option String} (h : R.InStep rows requested) {r : ρ}
    (hwritten : R.Written r rows rows') {id : α → Uuid} {a : α} (hid : id a = R.id r)
    (asked : Option String) :
  R.InStep rows' (requestedAfter id asked requested (.ok a)) ↔
    R.Faithful r ∧ (asked <|> requested (R.id r)) = some (R.visibility r)
  := by
  rw [requestedAfter, hid]
  apply h.write_iff hwritten

/-- An operation changes nothing, or it keeps records in step just if it fits. -/
def Settles (writing : Writing) (s s' : State) (op : Operation) : Prop :=
  s' = s ∨ (InStep writing s' ↔ Fits s op)

theorem settles_createWork {s s' : State} (h : InStep writing s) (actorId : Uuid)
    (params : NewWorkExperience) (script : Script experienceWorld)
    (hs' : step writing s (.createWork actorId params script) = some s') :
  Settles writing s s' (.createWork actorId params script)
  := by
  obtain rfl := Option.some.inj hs'
  have hrun := @wp_run_always _ _ _ _ _ script _ _
    (wp_createWorkExperience writing actorId params s.employment)
  revert hrun
  generalize run experienceWorld script _ _ = result
  obtain ⟨e | experience, db'⟩ := result
  · rintro rfl
    left
    rfl
  · rintro ⟨id, desc, orgApId, rfl, hwritten⟩
    right
    apply iff_of_true _ trivial
    constructor
    · apply (inStep_written h.works hwritten rfl _).mpr
      exact ⟨faithful_created_work writing params id actorId desc orgApId, rfl⟩
    · exact h.educations
    · exact h.articles

theorem settles_updateWork {s s' : State} (h : InStep writing s) (actorId id : Uuid)
    (params : UpdateWorkExperience) (script : Script experienceWorld)
    (hs' : step writing s (.updateWork actorId id params script) = some s') :
  Settles writing s s' (.updateWork actorId id params script)
  := by
  obtain rfl := Option.some.inj hs'
  have hrun := @wp_run_always _ _ _ _ _ script _ _
    (wp_updateWorkExperience writing actorId id params s.employment)
  revert hrun
  generalize run experienceWorld script _ _ = result
  obtain ⟨e | experience, db'⟩ := result
  · rintro rfl
    left
    rfl
  · rintro ⟨r, hr, desc, orgApId, rfl, hwritten⟩
    right
    apply iff_of_true _ trivial
    have hbefore : s.works r.id = some r.visibility := h.works.asRequested r hr
    have hvisibility : (params.visibility <|> s.works r.id) =
        some (params.visibility.getD r.visibility) := by
      rw [hbefore]
      cases params.visibility <;> rfl
    constructor
    · apply (inStep_written h.works hwritten rfl _).mpr
      exact ⟨faithful_edited_work writing params r desc orgApId, hvisibility⟩
    · exact h.educations
    · exact h.articles

theorem settles_createEducation {s s' : State} (actorId : Uuid) (params : NewEducationEntry)
    (script : Script recordWorld)
    (hs' : step writing s (.createEducation actorId params script) = some s') :
  Settles writing s s' (.createEducation actorId params script)
  := by
  obtain rfl := Option.some.inj hs'
  have hrun := @wp_run_always _ _ _ _ _ script _ _
    (wp_createEducationEntry writing actorId params s.records)
  revert hrun
  generalize run recordWorld script _ _ = result
  obtain ⟨e | entry, db'⟩ := result
  · rintro rfl
    left
    rfl
  · rintro ⟨hvalid, _, id, desc, rfl, hwritten⟩
    right
    apply iff_of_false
    · intro h'
      have hfaithful := h'.educations.faithful _ hwritten.1
      exact not_faithful_created_education writing params id actorId desc hfaithful
    · intro hfits
      exact hfits hvalid

theorem settles_updateEducation {s s' : State} (h : InStep writing s) (actorId id : Uuid)
    (params : UpdateEducationEntry) (script : Script recordWorld)
    (hs' : step writing s (.updateEducation actorId id params script) = some s') :
  Settles writing s s' (.updateEducation actorId id params script)
  := by
  obtain rfl := Option.some.inj hs'
  have hrun := @wp_run_always _ _ _ _ _ script _ _
    (wp_updateEducationEntry writing actorId id params s.records)
  revert hrun
  generalize run recordWorld script _ _ = result
  obtain ⟨e | entry, db'⟩ := result
  · rintro rfl
    left
    rfl
  · rintro ⟨harticles, r, hr, desc, rfl, hwritten⟩
    right
    apply iff_of_true _ trivial
    have hbefore : s.educations r.id = some r.visibility := h.educations.asRequested r hr
    have hvisibility : (params.visibility <|> s.educations r.id) =
        some (params.visibility.getD r.visibility) := by
      rw [hbefore]
      cases params.visibility <;> rfl
    constructor
    · exact h.works
    · apply (inStep_written h.educations hwritten rfl _).mpr
      exact ⟨faithful_edited_education writing params r desc, hvisibility⟩
    · have hkept : db'.articles = s.records.articles := harticles
      simpa [hkept] using h.articles

theorem settles_createArticle {s s' : State} (h : InStep writing s) (actorId : Uuid)
    (params : NewScholarlyArticle) (script : Script recordWorld)
    (hs' : step writing s (.createArticle actorId params script) = some s') :
  Settles writing s s' (.createArticle actorId params script)
  := by
  obtain rfl := Option.some.inj hs'
  have hrun := @wp_run_always _ _ _ _ _ script _ _
    (wp_createScholarlyArticle writing actorId params s.records)
  revert hrun
  generalize run recordWorld script _ _ = result
  obtain ⟨e | article, db'⟩ := result
  · rintro rfl
    left
    rfl
  · rintro ⟨hvalid, heducations, id, abs, now, hmd, hhtml, rfl, hwritten⟩
    right
    have hkept : db'.educations = s.records.educations := heducations
    have hothers : (educations writing).InStep db'.educations.rows s.educations := by
      rw [hkept]
      exact h.educations
    have hin : ∀ requested, InStep writing
        { s with records := db', articles := requested } ↔
          (articles writing).InStep db'.articles.rows requested := by
      intro requested
      exact ⟨fun h' => h'.articles, fun h' => ⟨h.works, hothers, h'⟩⟩
    apply (hin _).trans
    apply (inStep_written h.articles hwritten rfl _).trans
    rw [Fits, articleVisibility]
    cases hfound : s.records.articles.find (isUnder actorId params.doi) with
    | none =>
        have hnone : abs.2 = none ↔ params.abstractMd = none := by
          rw [← Option.isNone_iff_eq_none, ← Option.isNone_iff_eq_none, ← Option.not_isSome,
            ← Option.not_isSome, hhtml]
        simp only [Option.map_none, Option.getD_none]
        rw [faithful_added_article_iff, hnone]
        constructor
        · rintro ⟨hparams, _⟩ _
          exact hparams
        · intro hparams
          exact ⟨hparams hvalid, rfl⟩
    | some r =>
        have hr := Table.mem_of_find hfound
        have hbefore : s.articles r.id = some r.visibility := h.articles.asRequested r hr
        have hvisibility : (params.visibility <|> s.articles r.id) = some r.visibility ↔
            ∀ v ∈ params.visibility, v = r.visibility := by
          rw [hbefore]
          cases params.visibility with
          | none => simp
          | some v => simp
        simp only [Option.map_some, Option.getD_some]
        rw [faithful_refreshed_article_iff writing (h.articles.faithful r hr)]
        constructor
        · rintro ⟨htitle, hv⟩ _
          exact ⟨htitle, hvisibility.mp hv⟩
        · intro hparams
          obtain ⟨htitle, hv⟩ := hparams hvalid
          exact ⟨htitle, hvisibility.mpr hv⟩

/-- An operation that fits keeps records in step. -/
theorem inStep_step {s s' : State} {op : Operation} (h : InStep writing s)
    (hfits : Fits s op) (hs' : step writing s op = some s') :
  InStep writing s'
  := by
  have hsettles : Settles writing s s' op := by
    cases op with
    | createWork actorId params script => exact settles_createWork h actorId params script hs'
    | updateWork actorId id params script =>
        exact settles_updateWork h actorId id params script hs'
    | createEducation actorId params script =>
        exact settles_createEducation actorId params script hs'
    | updateEducation actorId id params script =>
        exact settles_updateEducation h actorId id params script hs'
    | createArticle actorId params script =>
        exact settles_createArticle h actorId params script hs'
  obtain rfl | hiff := hsettles
  · exact h
  · exact hiff.mpr hfits

/-- In a run of operations that fit, records are in step throughout. -/
theorem inStep_throughout {s : State} (h : InStep writing s) {ops : List Operation}
    (hfits : Runs.Meets (step writing) Fits ops s) :
  Runs.Throughout (step writing) (InStep writing) ops s
  := Runs.throughout_of_meets inStep_step h hfits

/-! ### A publication that is added again -/

/-- Everything written in decimals. -/
def decimal : Writing where
  uuid := toString
  date := toString
  rfc3339 := toString

/-- Identifiers are the same each time, it is the beginning of time, and texts are rendered as
they are. -/
def plainly : Script recordWorld
  | _, .sql _ => .ok ()
  | _, .newUuid => .ok (1 : Uuid)
  | _, .utcNow => .ok (0 : DateTime)
  | _, .render md => .ok md

/-- An actor without records. -/
def start : State where
  employment := ⟨[], .empty⟩
  records := ⟨[7], .empty, .empty⟩
  works _ := none
  educations _ := none
  articles _ := none

def paper : NewScholarlyArticle where
  doi := "10.1000/182"
  title := "On notes"
  authors := .arr []
  abstractMd := none
  journal := none
  publisher := none
  publishedDate := none
  doiMetadata := .obj []
  visibility := none

def degree : NewEducationEntry where
  institution := "Faculty"
  degree := none
  fieldOfStudy := none
  startDate := 0
  endDate := none
  descriptionMd := none
  sortOrder := none
  visibility := none

/-- The publication is added, and then again with what was added. -/
theorem paper_inStep :
  Runs.Throughout (step decimal) (InStep decimal)
    [.createArticle 7 paper plainly, .createArticle 7 paper plainly] start
  := by
  apply inStep_throughout
  · constructor
    all_goals
      constructor
      all_goals
        intro r hr
        cases hr
  · intro s' hs'
    obtain rfl := Option.some.inj hs'
    constructor
    · intro _
      exact ⟨rfl, rfl⟩
    · intro s'' hs''
      constructor
      · intro _
        refine ⟨rfl, ?_⟩
        intro v hv
        cases hv
      · trivial

/-- The publication is added, and then again as a private one: it stays public.  And the date of
the entry that is made is not in its document. -/
theorem paper_stays_public :
  ¬ Runs.Throughout (step decimal) (InStep decimal)
      [.createArticle 7 paper plainly,
        .createArticle 7 { paper with visibility := some "private" } plainly] start ∧
    ¬ Runs.Throughout (step decimal) (InStep decimal) [.createEducation 7 degree plainly] start
  := by
  constructor
  · intro h
    have hlast := ((h.2 _ rfl).2 _ rfl).articles.asRequested
    revert hlast
    decide +kernel
  · intro h
    have hlast := (h.2 _ rfl).educations.faithful
    revert hlast
    decide +kernel

end Identity.Records
