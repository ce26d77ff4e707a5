import Noombat.Jobs.Grants
import Noombat.Json
import Noombat.Program.Embedding
import Noombat.Program.Exact

/-!
# What a dereference charges

A dereference of a grant reads a document of an application with the token that was minted for
it.  The grant is redeemed first: the use is charged and the disclosure is logged.  Only then is
the application compared with the one that is named in the path, and its documents are read.
-/

namespace Jobs

open Federation (Uuid DateTime NoombatError)
open Fallible Program

/-! ### The origin of the instance -/

def isLocalDomain (domain : String) : Bool :=
  if domain == "[::1]" || Text.startsWith domain "[::1]:" then true
  else
    let host := (Text.split ':' domain).headD domain
    host == "localhost" || host == "127.0.0.1"

/-- The authority that this instance is reached under. -/
def originAuthority (domain : String) (publicPort : Nat) : String :=
  if !isLocalDomain domain || Text.contains domain ":" then domain
  else domain ++ ":" ++ toString publicPort

def httpOrigin (domain : String) (publicPort : Nat) : String :=
  (if isLocalDomain domain then "http" else "https") ++ "://" ++ originAuthority domain publicPort

/-! ### The documents -/

/-- The columns that a dereference reads of an application. -/
structure ApplicationView where
  postingTitle : String
  postingOrganization : String
  coverLetterHtml : Option String
  includeCv : Bool
  appliedOn : String
  status : String

/-- What a dereference is answered with. -/
inductive Disclosed where
  | pdf (bytes : Bytes)
  | application (body : Json)

/-- The document that describes an application. -/
def ApplicationView.toJson (id : Uuid) (row : ApplicationView) : Json :=
  .obj [("id", .str (uuidText id)), ("posting_title", .str row.postingTitle),
    ("posting_organization", .str row.postingOrganization),
    ("cover_letter_html", row.coverLetterHtml.elim .null .str),
    ("include_cv", .bool row.includeCv), ("applied_on", .str row.appliedOn),
    ("status", .str row.status)]

/-- The database, with the columns of the applications that only a dereference reads. -/
structure Records extends Db where
  appliedOn : Uuid → String
  status : Uuid → String

namespace Records

def view (s : Records) (a : ApplicationRow) : ApplicationView where
  postingTitle := a.postingTitle
  postingOrganization := a.postingOrganization
  coverLetterHtml := a.coverLetterHtml
  includeCv := a.includeCv
  appliedOn := s.appliedOn a.id
  status := s.status a.id

/-- A query for one row of an application. -/
def fetchOne {α : Type} (s : Records) (id : Uuid) (f : ApplicationRow → α) :
    Except NoombatError α :=
  match s.applications.find (·.id == id) with
  | some a => .ok (f a)
  | none => .error (.database "no rows returned")

end Records

/-! ### The route -/

inductive ReadRequest where
  | job (q : JobRequest)
  | selectApplication (id : Uuid)
  | selectCvSnapshot (id : Uuid)

@[reducible]
def ReadRequest.Result : ReadRequest → Type
  | job q => q.Result
  | selectApplication _ => ApplicationView
  | selectCvSnapshot _ => Option Bytes

abbrev Dereferencing : Interface :=
  Interface.fallible NoombatError ReadRequest ReadRequest.Result

abbrev Route (α : Type) : Type :=
  Fallible Dereferencing NoombatError α

/-- A query of the route may fail, with some message. -/
def readWorld : World Dereferencing Records where
  Choice
    | .job q => jobWorld.Choice q
    | .selectApplication _ => Option String
    | .selectCvSnapshot _ => Option String
  exec
    | .job q, c, s =>
        ((jobWorld.exec q c s.toDb).1, { s with toDb := (jobWorld.exec q c s.toDb).2 })
    | .selectApplication id, c, s =>
        match c with
        | some e => (.error (.database e), s)
        | none => (s.fetchOne id s.view, s)
    | .selectCvSnapshot id, c, s =>
        match c with
        | some e => (.error (.database e), s)
        | none => (s.fetchOne id (·.cvSnapshot), s)

/-- The requests of an operation on grants are requests of the route. -/
def asOp : Interface.Embedding Granting Dereferencing where
  request := .job
  answer _ r := r

/-- An operation on grants, run by the route. -/
def jobs {α : Type} (p : Op α) : Route α :=
  Fallible.embed asOp p

/-- The document that a query names; `debug` is how a text is quoted. -/
def documentOf (debug : String → String) : Option String → Except NoombatError Document
  | none => .ok .application
  | some "cv" => .ok .cv
  | some "application" => .ok .application
  | some other =>
      .error (.badRequest ("document must be 'application' or 'cv', not " ++ debug other))

/-- The documents of an application are read, once a grant has been redeemed. -/
def disclose (applicationId : Uuid) (document : Document) : Route Disclosed := do
  let row ← ask (ReadRequest.selectApplication applicationId)
  match document with
  | .cv =>
      if !row.includeCv then throw .forbidden
      else
        -- the snapshot taken when they applied, never a fresh render
        let snapshot ← ask (ReadRequest.selectCvSnapshot applicationId)
        match snapshot with
        | some pdf => return .pdf pdf
        | none => throw (.notFound "cv_snapshot" applicationId)
  | .application => return .application (row.toJson applicationId)

/-- Dereference a capability grant. -/
def dereference (hashToken debug : String → String) (domain : String) (publicPort : Nat)
    (applicationId : Uuid) (token : String) (document : Option String) : Route Disclosed := do
  let document ← MonadExcept.ofExcept (documentOf debug document)
  let readerOrigin := httpOrigin domain publicPort
  let redeemed ← jobs (redeem hashToken token readerOrigin document)
  -- a grant is for one application
  if redeemed.jobApplicationId ≠ applicationId then throw .forbidden
  else disclose applicationId document

/-! ### What is charged -/

/-- The documents of an application, as they are disclosed. -/
def Records.documents (s : Records) (document : Document) (a : ApplicationRow) :
    Option Disclosed :=
  match document with
  | .cv => if a.includeCv then a.cvSnapshot.map .pdf else none
  | .application => some (.application ((s.view a).toJson a.id))

/-- One use of a grant has been spent, and its disclosure logged. -/
structure Charged (document : Document) (g : Grant) (s s' : Records) : Prop where
  budget : s'.grants.rows = s.grants.rows.map fun g' =>
    if g'.id = g.id then g'.charged document else g'
  log : s'.accesses =
    access g.jobApplicationId (some g.id) none "disclosed" none :: s.accesses

/-- No budget has changed, and no disclosure has been logged. -/
structure Uncharged (s s' : Records) : Prop where
  budget : s'.grants.rows = s.grants.rows
  log : ∃ new, s'.accesses = new ++ s.accesses ∧ ∀ a ∈ new, a.outcome ≠ "disclosed"

/-- One use is charged and a disclosure is logged just if the answer is the document of the
application that the grant was made for. -/
def ChargesDisclosure (hash : String) (asked : Except NoombatError Document) (s : Records) :
    Except NoombatError Disclosed → Records → Prop :=
  onExcept
    (fun disclosed s' => ∃ document, asked = .ok document ∧
      ∃ g ∈ s.grants, g.tokenHash = hash ∧
        ∃ a ∈ s.applications, a.id = g.jobApplicationId ∧
          s.documents document a = some disclosed ∧ Charged document g s s')
    (fun _ => Uncharged s)

/-- An application has the document that is asked for. -/
def Records.Produces (s : Records) (document : Document) (applicationId : Uuid) : Prop :=
  ∃ a ∈ s.applications, a.id = applicationId ∧ (s.documents document a).isSome = true

/-- If a grant is charged, it is for the application that is named in the path, which has the
document that is asked for, and no later statement fails. -/
def Discloses (applicationId : Uuid) : Condition readWorld :=
  fun q c s =>
    match q, c with
    | .job (.sql (.spend document hash origin)), (c : SqlChoice) =>
        c.error.isSome = true ∨ ∀ g ∈ s.grants,
          g.isLive document hash origin (s.clock + c.elapsed) = true →
            g.jobApplicationId = applicationId ∧ s.Produces document applicationId
    | .job (.sql (.selectApplicant _)), (c : SqlChoice) => c.error = none
    | .job (.sql (.insertAccess row)), (c : SqlChoice) =>
        row.outcome = "disclosed" → c.error = none
    | .selectApplication _, (c : Option String) => c = none
    | .selectCvSnapshot _, (c : Option String) => c = none
    | _, _ => True

/-! ### Redeeming -/

instance : Std.Symm ApplicationRow.Apart where
  symm _ _ h := ⟨h.1.symm, h.2.1.symm, h.2.2.symm⟩

section Redeeming

variable {s s' : Records} {g : Grant} {document : Document} {hash origin : String}

theorem Uncharged.refl (s : Records) :
  Uncharged s s
  := ⟨rfl, [], rfl, fun _ h => by cases h⟩

/-- One use of a grant has been spent, and the applications are as they were. -/
structure Spent (document : Document) (g : Grant) (s s' : Records) : Prop where
  budget : s'.grants.rows = s.grants.rows.map fun g' =>
    if g'.id = g.id then g'.charged document else g'
  applications : s'.applications = s.applications
  appliedOn : s'.appliedOn = s.appliedOn
  status : s'.status = s.status

theorem Spent.later (h : Spent document g s s') (elapsed : Nat) :
  Spent document g s { s' with toDb := s'.toDb.later elapsed }
  := ⟨h.budget, h.applications, h.appliedOn, h.status⟩

theorem Grant.id_charged (g : Grant) (document : Document) :
  (g.charged document).id = g.id
  := by
  cases document with
  | application => rfl
  | cv => rfl

theorem Spent.charged_mem (h : Spent document g s s') (hg : g ∈ s.grants) :
  g.charged document ∈ s'.grants.rows
  := by
  rw [h.budget]
  exact List.mem_map.mpr ⟨g, Table.mem_rows.mpr hg, if_pos rfl⟩

/-- What has been spent is not as it was. -/
theorem Spent.not_uncharged (h : Spent document g s s') (hg : g ∈ s.grants) :
  ¬ Uncharged s s'
  := by
  intro hun
  have hsame : s.grants.rows.map (fun g' => if g'.id = g.id then g'.charged document else g') =
      s.grants.rows.map id := by
    rw [← h.budget, hun.budget, List.map_id]
  have hcharged := List.map_inj_left.mp hsame g (Table.mem_rows.mpr hg)
  rw [if_pos rfl] at hcharged
  cases document with
  | application =>
      have huses := congrArg (·.documentUsesRemaining) hcharged
      simp only [Grant.charged, id] at huses
      omega
  | cv =>
      have huses := congrArg (·.cvUsesRemaining) hcharged
      simp only [Grant.charged, id] at huses
      omega

/-- The grant that is charged is the one that is found. -/
theorem rows_spend {db : Db}
    (hfind : db.grants.find (Grant.isLive document hash origin db.clock) = some g) :
  (db.spend document hash origin).2.grants.rows = db.grants.rows.map fun g' =>
    if g'.id = g.id then g'.charged document else g'
  := by
  have hg := Table.mem_of_find hfind
  have hlive := Table.satisfies_of_find hfind
  apply List.map_congr_left
  intro g' hg'
  have hiff : g'.isLive document hash origin db.clock = true ↔ g'.id = g.id := by
    constructor
    · intro hlive'
      have hhash := (Grant.of_isLive hlive').1.trans (Grant.of_isLive hlive).1.symm
      rw [Db.eq_of_tokenHash (Table.mem_rows.mp hg') hg hhash]
    · intro hid
      rw [Db.eq_of_id (Table.mem_rows.mp hg') hg hid]
      exact hlive
  by_cases hid : g'.id = g.id
  · rw [if_pos hid, if_pos (hiff.mpr hid)]
  · rw [if_neg hid, if_neg (fun h => hid (hiff.mp h))]

/-- No grant is charged if none is found. -/
theorem rows_spend_none {db : Db}
    (hfind : db.grants.find (Grant.isLive document hash origin db.clock) = none) :
  (db.spend document hash origin).2.grants.rows = db.grants.rows
  := by
  have hnone : ∀ g ∈ db.grants.rows, ¬ g.isLive document hash origin db.clock = true :=
    List.find?_eq_none.mp hfind
  have hsame : (db.spend document hash origin).2.grants.rows = db.grants.rows.map id := by
    apply List.map_congr_left
    intro g hg
    exact if_neg (hnone g hg)
  rw [hsame, List.map_id]

end Redeeming

section Statements

variable {A C : Condition readWorld} {s : Records}

theorem exact_jobs_sql (st : JobSql) (Post : Except NoombatError st.Result → Records → Prop) :
  Exact readWorld A C Post (jobs (sql st)).run s ↔
    ∀ c : SqlChoice, A (.job (.sql st)) c s →
      (C (.job (.sql st)) c s → Post (readWorld.exec (.job (.sql st)) c s).1
        (readWorld.exec (.job (.sql st)) c s).2) ∧
      (¬ C (.job (.sql st)) c s → ¬ Post (readWorld.exec (.job (.sql st)) c s).1
        (readWorld.exec (.job (.sql st)) c s).2)
  := by
  change Exact readWorld A C Post
    (call (I := Dereferencing) (ReadRequest.job (.sql st)) fun r => done r) s ↔ _
  rw [exact_call]
  simp only [exact_done, wp_done]
  rfl

/-- A statement fails and changes nothing but the time, or it takes effect. -/
theorem wp_jobs_sql (st : JobSql) {Post : Except NoombatError st.Result → Records → Prop}
    (herror : ∀ e elapsed, Post (.error e) { s with toDb := s.toDb.later elapsed })
    (hok : ∀ id elapsed, Post (st.exec id (s.toDb.later elapsed)).1
      { s with toDb := (st.exec id (s.toDb.later elapsed)).2 }) :
  wp readWorld A Post (jobs (sql st)).run s
  := by
  have hcall : wp readWorld A Post
      (call (I := Dereferencing) (ReadRequest.job (.sql st)) fun r => done r) s := by
    rw [wp_call]
    rintro ⟨error, elapsed, id⟩ _
    rw [wp_done]
    cases error with
    | some e => exact herror _ elapsed
    | none => exact hok id elapsed
  exact hcall

/-- What a redemption does once nothing has been charged: the refusal is logged, if the grant can
be identified. -/
def refused (hash : String) : Op Redeemed := do
  match ← attempt (sql (.selectGrant hash)) with
  | .ok (some (grantId, applicationId)) =>
      let _ ← attempt (logAccess applicationId (some grantId) none "denied" none)
      throw .forbidden
  | _ => throw .forbidden

theorem wp_refused {s' : Records} (hash : String) (hsame : s'.grants.rows = s.grants.rows)
    (hlog : s'.accesses = s.accesses) :
  wp readWorld A (onExcept (fun _ _ => False) (fun _ => Uncharged s))
    (jobs (refused hash)).run s'
  := by
  have hkept : ∀ s'' : Records, s''.grants.rows = s.grants.rows → s''.accesses = s.accesses →
      Uncharged s s'' := fun s'' hsame hlog => ⟨hsame, [], hlog, fun _ h => by cases h⟩
  rw [jobs, refused, run_embed_bind, wp_run_bind, run_embed_attempt, wp_run_attempt]
  apply wp_jobs_sql (.selectGrant hash)
  · intro e elapsed
    exact (wp_done _ _ _).mpr (hkept _ hsame hlog)
  intro _ elapsed
  rw [JobSql.exec, onExcept_ok]
  split
  · rename_i grantId applicationId _
    rw [run_embed_bind, wp_run_bind, run_embed_attempt, wp_run_attempt]
    apply wp_jobs_sql (.insertAccess (access applicationId (some grantId) none "denied" none))
    · intro e elapsed
      exact (wp_done _ _ _).mpr (hkept _ hsame hlog)
    intro _ elapsed
    rw [onExcept_ok]
    apply (wp_done _ _ _).mpr
    rw [onExcept_error, JobSql.exec, Db.insertAccess]
    split
    · split
      · refine ⟨hsame, [_], congrArg _ hlog, ?_⟩
        intro a ha
        rw [List.mem_singleton.mp ha]
        exact (by decide : "denied" ≠ "disclosed")
      · exact hkept _ hsame hlog
    · exact hkept _ hsame hlog
  · exact (wp_done _ _ _).mpr (hkept _ hsame hlog)

/-- What a redemption does once a grant has been charged. -/
def disclosed (g : Grant) : Op Redeemed := do
  let applicantId ← sql (.selectApplicant g.jobApplicationId)
  logAccess g.jobApplicationId (some g.id) none "disclosed" none
  return { grantId := g.id, jobApplicationId := g.jobApplicationId, applicantId }

theorem wp_disclosed {s' : Records} {g : Grant} {document : Document}
    (hspent : Spent document g s s') (hlog : s'.accesses = s.accesses) :
  wp readWorld A
    (onExcept
      (fun redeemed s'' => redeemed.jobApplicationId = g.jobApplicationId ∧
        Spent document g s s'' ∧ Charged document g s s'')
      (fun _ => Spent document g s))
    (jobs (disclosed g)).run s'
  := by
  have hsame : ∀ s'' : Records, s''.grants.rows = s'.grants.rows →
      s''.applications = s'.applications → s''.appliedOn = s'.appliedOn →
      s''.status = s'.status → Spent document g s s'' := by
    intro s'' hgrants happlications happliedOn hstatus
    exact ⟨hgrants.trans hspent.budget, happlications.trans hspent.applications,
      happliedOn.trans hspent.appliedOn, hstatus.trans hspent.status⟩
  rw [jobs, disclosed, run_embed_bind, wp_run_bind]
  apply wp_jobs_sql (.selectApplicant g.jobApplicationId)
  · intro e elapsed
    exact hsame _ rfl rfl rfl rfl
  intro _ elapsed
  rw [JobSql.exec]
  split
  · rw [onExcept_ok, run_embed_bind, wp_run_bind]
    apply wp_jobs_sql (.insertAccess (access g.jobApplicationId (some g.id) none "disclosed" none))
    · intro e elapsed
      exact hsame _ rfl rfl rfl rfl
    intro _ elapsed
    rw [JobSql.exec, Db.insertAccess]
    split
    · split
      · apply (wp_done _ _ _).mpr
        refine ⟨rfl, hsame _ rfl rfl rfl rfl, hspent.budget, ?_⟩
        exact congrArg _ hlog
      · exact hsame _ rfl rfl rfl rfl
    · exact hsame _ rfl rfl rfl rfl
  · exact hsame _ rfl rfl rfl rfl

/-- A use is spent of the grant that is found, if one is. -/
theorem spent_spend {g : Grant} {document : Document} {hash origin : String} {elapsed : Nat}
    (hfind : s.grants.find (Grant.isLive document hash origin (s.clock + elapsed)) = some g) :
  Spent document g s { s with toDb := ((s.toDb.later elapsed).spend document hash origin).2 }
  := ⟨@rows_spend _ _ _ _ (s.toDb.later elapsed) hfind, rfl, rfl, rfl⟩

/-- No use is spent if no grant is found. -/
theorem spend_none {document : Document} {hash origin : String} {elapsed : Nat}
    (hfind : s.grants.find (Grant.isLive document hash origin (s.clock + elapsed)) = none) :
  ((s.toDb.later elapsed).spend document hash origin).1 = .ok none ∧
    ((s.toDb.later elapsed).spend document hash origin).2.grants.rows = s.grants.rows
  := by
  constructor
  · exact congrArg (fun r => Except.ok (Option.map (fun g : Grant => (g.id, g.jobApplicationId)) r)) hfind
  · exact @rows_spend_none _ _ _ (s.toDb.later elapsed) hfind

theorem spend_some {g : Grant} {document : Document} {hash origin : String} {elapsed : Nat}
    (hfind : s.grants.find (Grant.isLive document hash origin (s.clock + elapsed)) = some g) :
  ((s.toDb.later elapsed).spend document hash origin).1 = .ok (some (g.id, g.jobApplicationId))
  := congrArg (fun r => Except.ok (Option.map (fun g : Grant => (g.id, g.jobApplicationId)) r)) hfind

/-- How a redemption ends that is answered: a grant has been charged and its disclosure logged. -/
theorem wp_redeem (hashToken : String → String) (token origin : String) (document : Document) :
  wp readWorld A
    (onExcept
      (fun redeemed s' => ∃ g ∈ s.grants, g.tokenHash = hashToken token ∧
        redeemed.jobApplicationId = g.jobApplicationId ∧ Spent document g s s' ∧
          Charged document g s s')
      (fun _ _ => True))
    (jobs (redeem hashToken token origin document)).run s
  := by
  rw [jobs, redeem, run_embed_bind, wp_run_bind]
  apply wp_jobs_sql (.spend document (hashToken token) origin)
  · intro e elapsed
    trivial
  intro _ elapsed
  rw [JobSql.exec]
  cases hfind : s.grants.find (Grant.isLive document (hashToken token) origin
      (s.clock + elapsed)) with
  | none =>
      obtain ⟨hnone, hrows⟩ := spend_none hfind
      rw [hnone, onExcept_ok]
      have hrefused := @wp_refused A s { s with
        toDb := ((s.toDb.later elapsed).spend document (hashToken token) origin).2 }
        (hashToken token) hrows rfl
      apply wp_mono _ hrefused
      rintro (e | redeemed) s' h
      · trivial
      · exact h.elim
  | some g =>
      rw [spend_some hfind, onExcept_ok]
      have hhash := (Grant.of_isLive (Table.satisfies_of_find hfind)).1
      apply wp_mono _ (wp_disclosed (spent_spend hfind) rfl)
      rintro (e | redeemed) s' h
      · trivial
      · exact ⟨g, Table.mem_of_find hfind, hhash, h⟩

/-- The refusal asks for nothing that the condition is about. -/
theorem every_refused (hash : String) (applicationId : Uuid) :
  Every (fun q => ∀ c s, A q c s → Discloses applicationId q c s) (jobs (refused hash)).run
  := by
  rw [jobs, run_embed]
  apply every_embed asOp
  rw [refused]
  apply every_run_bind
  · apply every_run_attempt
    rw [sql, every_run_ask]
    exact fun _ _ _ => trivial
  rintro (e | _ | ⟨grantId, applicationId'⟩)
  · apply every_run_throw
  · apply every_run_throw
  · apply every_run_bind
    · apply every_run_attempt
      rw [logAccess, sql, every_run_ask]
      intro _ _ _ houtcome
      exact absurd houtcome (by decide : "denied" ≠ "disclosed")
    · intro _
      apply every_run_throw

theorem Spent.documents {s s' : Records} {document : Document} {g : Grant}
    (h : Spent document g s s') :
  s'.documents document = s.documents document
  := by
  funext a
  cases document with
  | cv => rfl
  | application => simp only [Records.documents, Records.view, h.appliedOn, h.status]

theorem Spent.produces_iff {s s' : Records} {document : Document} {g : Grant}
    {applicationId : Uuid} (h : Spent document g s s') :
  s'.Produces document applicationId ↔ s.Produces document applicationId
  := by
  rw [Records.Produces, Records.Produces, h.applications, h.documents]

/-- The disclosure of a charged grant is logged just if the statement does not fail. -/
theorem exact_logged {α : Type} {g : Grant} {document : Document} {s s' : Records}
    {applicationId : Uuid} (hg : g ∈ s.grants) (hspent : Spent document g s s')
    (happlication : ∃ a ∈ s.applications, a.id = g.jobApplicationId) {P : α → Prop} {a : α}
    (ha : P a) :
  Exact readWorld A (Discloses applicationId) (onExcept (fun a _ => P a) (fun _ => Uncharged s))
    (Fallible.embed asOp (do
      logAccess g.jobApplicationId (some g.id) none "disclosed" none
      return a)).run s'
  := by
  have hadmits : Db.admits (access g.jobApplicationId (some g.id) none "disclosed" none) = true := by
    rfl
  have hreferences : (s'.hasApplication g.jobApplicationId &&
      (some g.id).all fun id => s'.grants.rows.any (·.id == id)) = true := by
    rw [Bool.and_eq_true]
    constructor
    · obtain ⟨a, ha, haid⟩ := happlication
      apply List.any_eq_true.mpr
      refine ⟨a, ?_, by rw [haid]; exact beq_self_eq_true _⟩
      rw [hspent.applications]
      exact Table.mem_rows.mpr ha
    · apply List.any_eq_true.mpr
      refine ⟨g.charged document, hspent.charged_mem hg, ?_⟩
      rw [Grant.id_charged]
      exact beq_self_eq_true _
  have hlog : Exact readWorld A (Discloses applicationId) (fun r _ => r.isOk = true)
      (jobs (sql (.insertAccess (access g.jobApplicationId (some g.id) none "disclosed"
        none)))).run s' := by
    apply (exact_jobs_sql (.insertAccess _) _).mpr
    rintro ⟨error, elapsed, id⟩ _
    cases error with
    | some e => exact ⟨fun h => (by cases h rfl), fun _ h => (by cases h)⟩
    | none =>
        refine ⟨fun _ => ?_, fun hnot => absurd (fun _ => rfl) hnot⟩
        simp only [readWorld, jobWorld, JobSql.exec, Db.insertAccess, hadmits, if_true]
        rw [if_pos]
        · rfl
        · exact hreferences
  rw [run_embed_bind]
  apply exact_run_bind _ hlog
  apply wp_jobs_sql (.insertAccess (access g.jobApplicationId (some g.id) none "disclosed" none))
  · intro e elapsed
    exact ⟨fun h => (by cases h), fun _ => (hspent.later elapsed).not_uncharged hg⟩
  intro _ elapsed
  rw [JobSql.exec, Db.insertAccess, hadmits, if_pos rfl, if_pos]
  · exact ⟨fun _ => ha, fun hnot => absurd rfl hnot⟩
  · exact hreferences

/-- What a charged redemption still does: it answers that it has redeemed the grant just if no
statement fails. -/
theorem exact_charged {g : Grant} {document : Document} {s s' : Records} {applicationId : Uuid}
    (hg : g ∈ s.grants) (hspent : Spent document g s s')
    (hproduces : s.Produces document applicationId) (hid : g.jobApplicationId = applicationId) :
  Exact readWorld A (Discloses applicationId)
    (onExcept
      (fun redeemed _ => redeemed.jobApplicationId = applicationId ∧
        s.Produces document applicationId)
      (fun _ => Uncharged s))
    (jobs (disclosed g)).run s'
  := by
  obtain ⟨a, ha, haid, _⟩ := id hproduces
  have happlication : ∃ a ∈ s.applications, a.id = g.jobApplicationId := ⟨a, ha, haid.trans hid.symm⟩
  have hfound : (s.applications.find (·.id == g.jobApplicationId)).isSome = true := by
    obtain ⟨a, ha, haid⟩ := happlication
    exact Table.find_isSome_iff.mpr ⟨a, ha, by rw [haid]; exact beq_self_eq_true _⟩
  rw [jobs, disclosed, run_embed_bind]
  -- the applicant is found, if the query does not fail
  have happlicant : Exact readWorld A (Discloses applicationId) (fun r _ => r.isOk = true)
      (jobs (sql (.selectApplicant g.jobApplicationId))).run s' := by
    apply (exact_jobs_sql (.selectApplicant g.jobApplicationId) _).mpr
    rintro ⟨error, elapsed, id⟩ _
    cases error with
    | some e => exact ⟨fun h => (by cases h), fun _ h => (by cases h)⟩
    | none =>
        refine ⟨fun _ => ?_, fun hnot => absurd rfl hnot⟩
        obtain ⟨b, hb⟩ := Option.isSome_iff_exists.mp hfound
        have hfind : (s'.toDb.later elapsed).applications.find (·.id == g.jobApplicationId) =
            some b := by
          change s'.applications.find _ = _
          rw [hspent.applications]
          exact hb
        simp only [readWorld, jobWorld, JobSql.exec, hfind]
        rfl
  apply exact_run_bind _ happlicant
  apply wp_jobs_sql (.selectApplicant g.jobApplicationId)
  · intro e elapsed
    exact ⟨fun h => (by cases h), fun _ => (hspent.later elapsed).not_uncharged hg⟩
  intro _ elapsed
  rw [JobSql.exec]
  split
  · refine ⟨fun _ => ?_, fun hnot => absurd rfl hnot⟩
    exact exact_logged hg (hspent.later elapsed) happlication ⟨hid, hproduces⟩
  · exact ⟨fun h => (by cases h), fun _ => (hspent.later elapsed).not_uncharged hg⟩

/-- A redemption ends as it should just if what is charged is for the application that is named in
the path, which has the document, and no statement fails after the charge. -/
theorem exact_redeem (hashToken : String → String) (token origin : String) (document : Document)
    (applicationId : Uuid) :
  Exact readWorld A (Discloses applicationId)
    (onExcept
      (fun redeemed _ => redeemed.jobApplicationId = applicationId ∧
        s.Produces document applicationId)
      (fun _ => Uncharged s))
    (jobs (redeem hashToken token origin document)).run s
  := by
  rw [jobs, redeem, run_embed_bind]
  have hspend : Exact readWorld A (Discloses applicationId)
      (fun r _ => ∀ x : Uuid × Uuid, r = .ok (some x) →
        x.2 = applicationId ∧ s.Produces document applicationId)
      (jobs (sql (.spend document (hashToken token) origin))).run s := by
    apply (exact_jobs_sql (.spend document (hashToken token) origin) _).mpr
    rintro ⟨error, elapsed, id⟩ _
    cases error with
    | some e => exact ⟨fun _ _ h => (by cases h), fun h => absurd (.inl rfl) h⟩
    | none =>
        change ((_ ∨ ∀ g ∈ s.grants, Grant.isLive document (hashToken token) origin
            (s.clock + elapsed) g = true → _) → ∀ x, ((s.toDb.later elapsed).spend document
              (hashToken token) origin).1 = .ok (some x) → _) ∧
          (_ → ¬ ∀ x, ((s.toDb.later elapsed).spend document (hashToken token) origin).1 =
            .ok (some x) → _)
        constructor
        · rintro (h | h) x hx
          · cases h
          · cases hfind : s.grants.find (Grant.isLive document (hashToken token) origin
                (s.clock + elapsed)) with
            | none =>
                rw [(spend_none hfind).1] at hx
                cases hx
            | some g =>
                rw [spend_some hfind] at hx
                cases hx
                exact h g (Table.mem_of_find hfind) (Table.satisfies_of_find hfind)
        · intro hnot h
          apply hnot
          right
          intro g hg hlive
          obtain ⟨g', hfind⟩ := Option.isSome_iff_exists.mp
            (Table.find_isSome_iff.mpr ⟨g, hg, hlive⟩)
          have hsame : g = g' := by
            apply Db.eq_of_tokenHash hg (Table.mem_of_find hfind)
            rw [(Grant.of_isLive hlive).1,
              (Grant.of_isLive (Table.satisfies_of_find hfind)).1]
          subst hsame
          exact h _ (spend_some hfind)
  apply exact_run_bind _ hspend
  apply wp_jobs_sql (.spend document (hashToken token) origin)
  · intro e elapsed
    refine ⟨fun _ => ⟨rfl, [], rfl, fun _ h => (by cases h)⟩, fun hnot => ?_⟩
    exact absurd (fun x h => (by cases h)) hnot
  intro _ elapsed
  rw [JobSql.exec]
  cases hfind : s.grants.find (Grant.isLive document (hashToken token) origin
      (s.clock + elapsed)) with
  | none =>
      obtain ⟨hnone, hrows⟩ := spend_none hfind
      have hrefused := @wp_refused A s { s with
        toDb := ((s.toDb.later elapsed).spend document (hashToken token) origin).2 }
        (hashToken token) hrows rfl
      rw [hnone]
      constructor
      · intro _
        apply exact_of_every (every_refused _ _)
        apply wp_mono _ hrefused
        rintro (e | redeemed) s' h
        · exact h
        · exact h.elim
      · exact fun hnot => absurd (fun x h => (by cases h)) hnot
  | some g =>
      rw [spend_some hfind]
      have hg := Table.mem_of_find hfind
      constructor
      · intro hmid
        obtain ⟨hid, hproduces⟩ := hmid _ rfl
        exact exact_charged hg (spent_spend hfind) hproduces hid
      · intro hnot
        have hdisclosed := wp_disclosed (A := A) (spent_spend hfind) rfl
        apply wp_mono _ hdisclosed
        rintro (e | redeemed) s' h
        · exact h.not_uncharged hg
        · rintro ⟨hid, hproduces⟩
          apply hnot
          rintro x hx
          cases hx
          exact ⟨h.1.symm.trans hid, hproduces⟩

theorem Records.fetchOne_none {α : Type} {id : Uuid} {f : ApplicationRow → α}
    (hfind : s.applications.find (·.id == id) = none) :
  s.fetchOne id f = .error (.database "no rows returned")
  := by
  rw [Records.fetchOne, hfind]

theorem Records.fetchOne_some {α : Type} {id : Uuid} {f : ApplicationRow → α} {a : ApplicationRow}
    (hfind : s.applications.find (·.id == id) = some a) :
  s.fetchOne id f = .ok (f a)
  := by
  rw [Records.fetchOne, hfind]

/-- What the documents of an application are read as. -/
theorem wp_disclose (applicationId : Uuid) (document : Document) :
  wp readWorld A
    (onExcept
      (fun d s' => s' = s ∧ ∃ a ∈ s.applications, a.id = applicationId ∧
        s.documents document a = some d)
      (fun _ s' => s' = s))
    (disclose applicationId document).run s
  := by
  rw [disclose, wp_run_bind, wp_run_ask]
  intro (c : Option String) _
  cases c with
  | some e => rfl
  | none =>
      have hexec : readWorld.exec (.selectApplication applicationId) none s =
          (s.fetchOne applicationId s.view, s) := rfl
      rw [hexec]
      cases hfind : s.applications.find (·.id == applicationId) with
      | none =>
          rw [Records.fetchOne_none hfind]
          rfl
      | some a =>
          rw [Records.fetchOne_some hfind]
          have ha := Table.mem_of_find hfind
          have haid : a.id = applicationId := by
            have hfound := Table.satisfies_of_find hfind
            simpa using hfound
          dsimp only
          rw [onExcept_ok]
          cases document with
          | application =>
              apply (wp_done _ _ _).mpr
              refine ⟨rfl, a, ha, haid, ?_⟩
              rw [Records.documents, haid]
          | cv =>
              dsimp only
              split
              · exact (wp_done _ _ _).mpr rfl
              · rename_i hincludes
                rw [wp_run_bind, wp_run_ask]
                intro (c : Option String) _
                cases c with
                | some e => rfl
                | none =>
                    have hexec : readWorld.exec (.selectCvSnapshot applicationId) none s =
                        (s.fetchOne applicationId (·.cvSnapshot), s) := rfl
                    rw [hexec, Records.fetchOne_some hfind]
                    dsimp only
                    rw [onExcept_ok]
                    cases hsnapshot : a.cvSnapshot with
                    | none => exact (wp_done _ _ _).mpr rfl
                    | some pdf =>
                        apply (wp_done _ _ _).mpr
                        refine ⟨rfl, a, ha, haid, ?_⟩
                        have hincludes : a.includeCv = true := by
                          simpa [Records.view] using hincludes
                        change (if a.includeCv then a.cvSnapshot.map Disclosed.pdf else none) = _
                        rw [if_pos hincludes, hsnapshot]
                        rfl

/-- The documents are read that there are, if the queries do not fail. -/
theorem exact_disclose {applicationId : Uuid} {document : Document}
    (hproduces : s.Produces document applicationId) :
  Exact readWorld A (Discloses applicationId) (fun r _ => r.isOk = true)
    (disclose applicationId document).run s
  := by
  obtain ⟨a, ha, haid, hdocuments⟩ := hproduces
  have hfind : s.applications.find (·.id == applicationId) = some a := by
    apply Table.find_eq_some ha (by simpa using haid)
    intro a' ha' haid'
    apply Table.eq_of_not_apart ha' ha
    rintro ⟨hne, _⟩
    exact hne ((by simpa using haid' : a'.id = applicationId).trans haid.symm)
  rw [disclose]
  have hselect : Exact readWorld A (Discloses applicationId) (fun r _ => r.isOk = true)
      (ask (ReadRequest.selectApplication applicationId) : Route ApplicationView).run s := by
    apply (exact_run_ask (ReadRequest.selectApplication applicationId) _ _).mpr
    intro (c : Option String) _
    cases c with
    | some e => exact ⟨fun h => (by cases h), fun _ h => (by cases h)⟩
    | none =>
        have hexec : readWorld.exec (.selectApplication applicationId) none s =
            (s.fetchOne applicationId s.view, s) := rfl
        rw [hexec, Records.fetchOne_some hfind]
        exact ⟨fun _ => rfl, fun hnot => absurd rfl hnot⟩
  apply exact_run_bind _ hselect
  rw [wp_run_ask]
  intro (c : Option String) _
  cases c with
  | some e => exact ⟨fun h => (by cases h), fun _ h => (by cases h)⟩
  | none =>
      have hexec : readWorld.exec (.selectApplication applicationId) none s =
          (s.fetchOne applicationId s.view, s) := rfl
      rw [hexec, Records.fetchOne_some hfind]
      refine ⟨fun _ => ?_, fun hnot => absurd rfl hnot⟩
      dsimp only
      rw [onExcept_ok]
      cases document with
      | application => exact rfl
      | cv =>
          have hdocuments : (if a.includeCv then a.cvSnapshot.map Disclosed.pdf
              else none).isSome = true := hdocuments
          cases hincludes : a.includeCv with
          | false =>
              rw [hincludes] at hdocuments
              cases hdocuments
          | true =>
              rw [hincludes, if_pos rfl, Option.isSome_map] at hdocuments
              obtain ⟨pdf, hsnapshot⟩ := Option.isSome_iff_exists.mp hdocuments
              have hview : ¬ (!(s.view a).includeCv) = true := by
                simp [Records.view, hincludes]
              dsimp only
              rw [if_neg hview]
              have hread : Exact readWorld A (Discloses applicationId) (fun r _ => r.isOk = true)
                  (ask (ReadRequest.selectCvSnapshot applicationId) :
                    Route (Option Bytes)).run s := by
                apply (exact_run_ask (ReadRequest.selectCvSnapshot applicationId) _ _).mpr
                intro (c : Option String) _
                cases c with
                | some e => exact ⟨fun h => (by cases h), fun _ h => (by cases h)⟩
                | none =>
                    have hexec : readWorld.exec (.selectCvSnapshot applicationId) none s =
                        (s.fetchOne applicationId (·.cvSnapshot), s) := rfl
                    rw [hexec, Records.fetchOne_some hfind]
                    exact ⟨fun _ => rfl, fun hnot => absurd rfl hnot⟩
              apply exact_run_bind _ hread
              rw [wp_run_ask]
              intro (c : Option String) _
              cases c with
              | some e => exact ⟨fun h => (by cases h), fun _ h => (by cases h)⟩
              | none =>
                  have hexec : readWorld.exec (.selectCvSnapshot applicationId) none s =
                      (s.fetchOne applicationId (·.cvSnapshot), s) := rfl
                  rw [hexec, Records.fetchOne_some hfind, hsnapshot]
                  exact ⟨fun _ => rfl, fun hnot => absurd rfl hnot⟩

end Statements

section Charging

variable {A : Condition readWorld} {s s' : Records} {g : Grant} {document : Document}
  {applicationId : Uuid} {hash : String}

/-- After a charge, the answer is as it should be just if it is the document. -/
theorem charges_iff (hg : g ∈ s.grants) (hhash : g.tokenHash = hash)
    (hid : g.jobApplicationId = applicationId) (hspent : Spent document g s s')
    (hcharged : Charged document g s s') :
  wp readWorld A
    (fun r s'' => r.isOk = true ↔ ChargesDisclosure hash (.ok document) s r s'')
    (disclose applicationId document).run s'
  := by
  apply wp_mono _ (wp_disclose applicationId document)
  rintro (e | d) s'' h
  · have hsame : s'' = s' := h
    subst hsame
    exact iff_of_false (fun h => (by cases h)) (hspent.not_uncharged hg)
  · obtain ⟨hsame, a, ha, haid, hd⟩ := h
    subst hsame
    rw [hspent.applications] at ha
    rw [hspent.documents] at hd
    exact iff_of_true rfl ⟨document, rfl, g, hg, hhash, a, ha, haid.trans hid.symm, hd, hcharged⟩

end Charging

/-- A dereference charges one use and logs a disclosure just if it answers with the document of
the application that the grant was made for, exactly if its steps are as said: what it charges is
for the application that is named in the path, which has the document, and no later statement
fails. -/
theorem dereference_charges_iff (script : Script readWorld) (s : Records)
    (hashToken debug : String → String) (domain : String) (publicPort : Nat)
    (applicationId : Uuid) (token : String) (document : Option String) :
  ChargesDisclosure (hashToken token) (documentOf debug document) s
      (run readWorld script
        (dereference hashToken debug domain publicPort applicationId token document).run s).1
      (run readWorld script
        (dereference hashToken debug domain publicPort applicationId token document).run s).2 ↔
    Along readWorld (Discloses applicationId) script
      (dereference hashToken debug domain publicPort applicationId token document).run s
  := by
  have hexact : Exact readWorld (fun _ _ _ => True) (Discloses applicationId)
      (ChargesDisclosure (hashToken token) (documentOf debug document) s)
      (dereference hashToken debug domain publicPort applicationId token document).run s := by
    rw [dereference]
    cases hdocument : documentOf debug document with
    | error e => exact Uncharged.refl s
    | ok document =>
        change Exact readWorld _ _ _ (jobs (redeem hashToken token _ document) >>= _).run s
        apply exact_run_bind _ (exact_redeem hashToken token _ document applicationId)
        apply wp_mono _ (wp_redeem hashToken token _ document)
        rintro (e | redeemed) s' h
        · exact ⟨id, id⟩
        obtain ⟨g, hg, hhash, hid, hspent, hcharged⟩ := h
        simp only [onExcept_ok]
        by_cases hpath : redeemed.jobApplicationId = applicationId
        · rw [if_neg (not_not_intro hpath)]
          have hiff := charges_iff (A := fun _ _ _ => True) hg hhash (hid.symm.trans hpath) hspent
            hcharged
          constructor
          · rintro ⟨_, hproduces⟩
            exact (exact_disclose (hspent.produces_iff.mpr hproduces)).congr hiff
          · intro hnot
            apply wp_mono _ (wp_and hiff (wp_disclose applicationId document))
            rintro (e | d) s'' ⟨hiff, hd⟩ hcharges
            · exact absurd (hiff.mpr hcharges) (fun h => (by cases h))
            · obtain ⟨_, a, ha, haid, hd⟩ := hd
              apply hnot
              refine ⟨hpath, hspent.produces_iff.mp ⟨a, ha, haid, ?_⟩⟩
              rw [hd]
              rfl
        · rw [if_pos hpath]
          constructor
          · rintro ⟨hpath', _⟩
            exact absurd hpath' hpath
          · intro _
            exact (wp_done _ _ _).mpr (hspent.not_uncharged hg)
  exact hexact.run (alongFrom_always script 0 _ s)

/-! ### A token that is walked onto another application -/

/-- An application, and the grant that came with it. -/
def applied : Records where
  clock := 0
  organisations := []
  postings := []
  applications := ⟨[⟨5, 2, 3, "Engineer", "Acme", "https://home.example/applications/5", none,
    none, false, none⟩], by decide⟩
  grants := ⟨[⟨⟨5, "secret", "https://acme.example/users/hr", "https://home.example", 90, 50, 0⟩,
    4, .active, none⟩], by decide⟩
  accesses := []
  appliedOn _ := "2026-01-01"
  status _ := "submitted"

/-- Every request is answered. -/
def answers : Script readWorld := fun _ q =>
  match q with
  | .job (.sql _) => (⟨none, 1, 0⟩ : SqlChoice)
  | .job (.renderMarkup _) => (.ok "" : Except NoombatError String)
  | .job .newUuid => (0 : Uuid)
  | .job .mintToken => ""
  | .job .utcNow => (0 : DateTime)
  | .job (.respond _) => ()
  | .selectApplication _ => (none : Option String)
  | .selectCvSnapshot _ => (none : Option String)

/-- The request is refused, and the use has been charged. -/
theorem dereference_charges_refused :
  ¬ ChargesDisclosure "secret" (documentOf id none) applied
    (run readWorld answers (dereference id id "home.example" 443 6 "secret" none).run applied).1
    (run readWorld answers (dereference id id "home.example" 443 6 "secret" none).run applied).2
  := by
  have hrun : (run readWorld answers
        (dereference id id "home.example" 443 6 "secret" none).run applied).1.isOk = false ∧
      (run readWorld answers
        (dereference id id "home.example" 443 6 "secret" none).run applied).2.grants.rows ≠
          applied.grants.rows := by
    decide +kernel
  revert hrun
  generalize run readWorld answers _ applied = result
  obtain ⟨e | d, s'⟩ := result
  · rintro ⟨_, hbudget⟩ hun
    exact hbudget (Uncharged.budget hun)
  · rintro ⟨hok, _⟩
    cases hok

end Jobs
