import Noombat.Erasure.Tombstone
import Noombat.Json

/-!
# The export of an account

The archive of what an account has in the tables.  Each of its files but the first comes from a
statement whose failure is taken for no rows.
-/

namespace Erasure.Export

open Federation (Uuid DateTime NoombatError)
open Relational

/-- Whether a table has a column that refers. -/
def hasColumn (t : Table) (column : Column) : Bool :=
  foreignKeys.any fun fk => fk.table == t && fk.column == column

/-- What can go wrong, and how rows are written. -/
structure Setting where
  /-- The error of the statement that selects from a table by a column. -/
  statementError : Table → Option Column → Option String
  /-- The error of writing a file of the archive, and of its end. -/
  writeError : String → Option NoombatError
  finishError : Option String
  rowToJson : (t : Table) → Row Column (Data t) → Json
  /-- The columns of an actor that are not sensitive. -/
  actorToJson : Actor → Json

variable (s : Setting)

/-- `SELECT row_to_json(r) FROM t r WHERE column = $1 AND p`, or no rows if it fails. -/
def select (tables : Database Table Column Data) (accountId : Uuid) (t : Table) (column : Column)
    (p : Row Column (Data t) → Bool) : List Json :=
  if hasColumn t column && (s.statementError t (some column)).isNone then
    ((tables t).filter fun r => refersTo column accountId r && p r).map (s.rowToJson t)
  else []

/-- A file of the archive that is named after a table. -/
structure File where
  name : String
  table : Table
  /-- The column by which the rows are selected. -/
  column : Column
  deriving DecidableEq, Repr

def workExperiences : File := ⟨"work_experiences.json", .workExperiences, .actorId⟩
def educationEntries : File := ⟨"education_entries.json", .educationEntries, .actorId⟩
def skills : File := ⟨"skills.json", .skills, .actorId⟩
def scholarlyArticles : File := ⟨"scholarly_articles.json", .scholarlyArticles, .actorId⟩
def customSections : File := ⟨"custom_sections.json", .customProfileSections, .actorId⟩
def posts : File := ⟨"posts.json", .posts, .actorId⟩
def groupMemberships : File := ⟨"group_memberships.json", .groupMemberships, .actorId⟩
def eventRsvps : File := ⟨"event_rsvps.json", .eventRsvps, .actorId⟩
def verifiedLinks : File := ⟨"verified_links.json", .verifiedLinks, .actorId⟩
def blocks : File := ⟨"blocks.json", .blocks, .actorId⟩
def mutes : File := ⟨"mutes.json", .mutes, .actorId⟩
def jobApplications : File := ⟨"job_applications.json", .jobApplications, .applicantId⟩

/-- The files before and after the social graph. -/
def profileFiles : List File :=
  [workExperiences, educationEntries, skills, scholarlyArticles, customSections, posts]

def relationFiles : List File :=
  [groupMemberships, eventRsvps, verifiedLinks, blocks, mutes, jobApplications]

def files : List File :=
  profileFiles ++ relationFiles

/-- The content of a file that is named after a table. -/
def File.content (tables : Database Table Column Data) (accountId : Uuid) (file : File) : Json :=
  .arr (select s tables accountId file.table file.column fun _ => true)

/-- The follows that are accepted, by either side. -/
def socialGraph (tables : Database Table Column Data) (accountId : Uuid) : Json :=
  let accepted : Row Column (Data .follows) → Bool := fun r => FollowData.accepted r.data
  .obj [("followers", .arr (select s tables accountId .follows .followingId accepted)),
    ("following", .arr (select s tables accountId .follows .followerId accepted))]

/-- Write an entry at the end of an archive. -/
def writeJsonEntry (name : String) (content : Json) (archive : List (String × Json)) :
    Except NoombatError (List (String × Json)) :=
  match s.writeError name with
  | some error => .error error
  | none => .ok (archive ++ [(name, content)])

/-- Write entries in turn, up to the first that fails. -/
def writeAll : List (String × Json) → List (String × Json) →
    Except NoombatError (List (String × Json))
  | [], archive => .ok archive
  | (name, content) :: entries, archive => do
      let archive ← writeJsonEntry s name content archive
      writeAll entries archive

/-- The entries after that of the actor. -/
def entries (tables : Database Table Column Data) (accountId : Uuid) : List (String × Json) :=
  profileFiles.map (fun file => (file.name, file.content s tables accountId)) ++
    ("social_graph.json", socialGraph s tables accountId) ::
    relationFiles.map fun file => (file.name, file.content s tables accountId)

/-- `GET /api/v1/me/export` -/
def exportData (tables : Database Table Column Data) (viewer : Option Uuid) :
    Except NoombatError (List (String × Json)) :=
  match viewer with
  | none => .error .forbidden
  | some accountId =>
      match s.statementError .actors none, (tables .actors).find? (·.id == accountId) with
      | some message, _ => .error (.database message)
      | none, none =>
          .error (.database
            "no rows returned by a query that expected to return at least one row")
      | none, some actor => do
          let archive ← writeAll s
            (("actor.json", s.actorToJson actor) :: entries s tables accountId) []
          match s.finishError with
          | some message => .error (.internal message)
          | none => .ok archive

/-! ### Completeness -/

/-- The column that names the account whose row it is. -/
def ownerColumn : Table → Column
  | .jobApplications => .applicantId
  | .groupMemberships => .memberId
  | .follows => .followerId
  | .reports => .reporterId
  | _ => .actorId

/-- The rows that an account has in a table. -/
def owned (tables : Database Table Column Data) (accountId : Uuid) (t : Table) :
    List (Row Column (Data t)) :=
  (tables t).filter (refersTo (ownerColumn t) accountId)

/-- The tables from which the erasure of an account deletes. -/
def erasedTables (now : DateTime) (accountId : Uuid) : List Table :=
  (tombstoneStatements now accountId).filterMap fun statement =>
    match statement with
    | .delete t _ => some t
    | .update _ _ _ => none

/-- Whether the statement for a file fails. -/
def File.fails (file : File) : Bool :=
  !hasColumn file.table file.column || (s.statementError file.table (some file.column)).isSome

/-- A file holds exactly the rows that the account has in its table. -/
def File.Exact (tables : Database Table Column Data) (accountId : Uuid)
    (archive : List (String × Json)) (file : File) : Prop :=
  archive.lookup file.name =
    some (.arr ((owned tables accountId file.table).map (s.rowToJson file.table)))

/-- Whether the rows of a table are in the archive. -/
def Covered (t : Table) : Prop :=
  t = .follows ∨ ∃ file ∈ files, file.table = t

/-- An archive is complete: its files hold exactly the rows of the account, every table from which
erasure deletes is in it, and no failure shows as an empty file. -/
structure Complete (tables : Database Table Column Data) (accountId : Uuid)
    (archive : List (String × Json)) : Prop where
  exact : ∀ file ∈ files, file.Exact s tables accountId archive
  covers : ∀ now, ∀ t ∈ erasedTables now accountId, Covered t
  shown : ∀ file ∈ files, file.fails s = true → archive.lookup file.name ≠ some (.arr [])

/-- The names of the files. -/
def names : List String :=
  "actor.json" :: (profileFiles.map File.name ++ "social_graph.json" :: relationFiles.map File.name)

/-- There is an account for which the statement on its row and the writing of the archive
succeed. -/
structure Succeeds (tables : Database Table Column Data) (accountId : Uuid) : Prop where
  selected : s.statementError .actors none = none
  present : ∃ actor ∈ tables .actors, actor.id = accountId
  written : ∀ name ∈ names, s.writeError name = none
  finished : s.finishError = none

/-- The tables from which erasure deletes and that no file is from. -/
def missing : List Table :=
  [.actorAliases, .likes, .boosts, .mediaAttachments, .jobPostings, .deliveryQueue, .reports,
    .events, .hashtagFollows]

section Archive

variable {s} {tables : Database Table Column Data}

theorem writeAll_ok_iff (entries archive archive' : List (String × Json)) :
  writeAll s entries archive = .ok archive' ↔
    (∀ name ∈ entries.map (·.1), s.writeError name = none) ∧ archive' = archive ++ entries
  := by
  induction entries generalizing archive with
  | nil =>
      rw [writeAll, Except.ok.injEq, List.append_nil, eq_comm]
      simp
  | cons entry entries ih =>
      obtain ⟨name, content⟩ := entry
      rw [writeAll, writeJsonEntry]
      cases hwrite : s.writeError name with
      | some error =>
          constructor
          · intro h
            cases h
          · rintro ⟨hwritten, _⟩
            have hname := hwritten name (List.mem_map_of_mem List.mem_cons_self)
            rw [hwrite] at hname
            cases hname
      | none =>
          change writeAll s entries (archive ++ [(name, content)]) = .ok archive' ↔ _
          rw [ih, List.map_cons, List.forall_mem_cons, List.append_assoc, List.singleton_append]
          simp [hwrite]

/-- The names of the entries are those of the files. -/
theorem names_entries (accountId : Uuid) (content : Json) :
  (("actor.json", content) :: entries s tables accountId).map (·.1) = names
  := by
  rw [names, entries, List.map_cons, List.map_append, List.map_cons, List.map_map, List.map_map]
  rfl

/-- An archive is made just when nothing before its files' statements fails and every file is
written. -/
theorem exportData_ok_iff (viewer : Option Uuid) (archive : List (String × Json)) :
  exportData s tables viewer = .ok archive ↔
    ∃ accountId, viewer = some accountId ∧ Succeeds s tables accountId ∧
      ∃ actor, (tables .actors).find? (·.id == accountId) = some actor ∧
        archive = ("actor.json", s.actorToJson actor) :: entries s tables accountId
  := by
  cases viewer with
  | none =>
      constructor
      · intro h
        cases h
      · rintro ⟨_, hviewer, _⟩
        cases hviewer
  | some accountId =>
      rw [exportData]
      constructor
      · intro h
        split at h
        next => cases h
        next => cases h
        next actor hselected hfind =>
          cases hwrite : writeAll s (("actor.json", s.actorToJson actor) ::
              entries s tables accountId) [] with
          | error e =>
              rw [hwrite] at h
              cases h
          | ok archive' =>
              rw [hwrite] at h
              obtain ⟨hwritten, rfl⟩ := (writeAll_ok_iff _ _ _).mp hwrite
              rw [names_entries] at hwritten
              cases hfinished : s.finishError with
              | some message =>
                  rw [hfinished] at h
                  cases h
              | none =>
                  rw [hfinished] at h
                  obtain rfl := Except.ok.inj h
                  have hactor := List.find?_some hfind
                  exact ⟨accountId, rfl, ⟨hselected, ⟨actor, List.mem_of_find?_eq_some hfind,
                    beq_iff_eq.mp hactor⟩, hwritten, hfinished⟩, actor, hfind, rfl⟩
      · rintro ⟨_, hviewer, hsucceeds, actor, hfind, rfl⟩
        obtain rfl := Option.some.inj hviewer
        have hwrite : writeAll s (("actor.json", s.actorToJson actor) ::
            entries s tables accountId) [] =
              .ok (("actor.json", s.actorToJson actor) :: entries s tables accountId) := by
          apply (writeAll_ok_iff _ _ _).mpr
          rw [names_entries]
          exact ⟨hsucceeds.written, rfl⟩
        simp only [hsucceeds.selected, hfind, hwrite, hsucceeds.finished]
        rfl

/-- An account for which everything succeeds has an archive. -/
theorem Succeeds.archive {accountId : Uuid} (h : Succeeds s tables accountId) :
  ∃ archive, exportData s tables (some accountId) = .ok archive
  := by
  obtain ⟨actor, hactor, hid⟩ := h.present
  have hfound : ((tables .actors).find? (·.id == accountId)).isSome = true :=
    List.find?_isSome.mpr ⟨actor, hactor, beq_iff_eq.mpr hid⟩
  obtain ⟨row, hrow⟩ := Option.isSome_iff_exists.mp hfound
  use ("actor.json", s.actorToJson row) :: entries s tables accountId
  exact (exportData_ok_iff _ _).mpr ⟨accountId, rfl, h, row, hrow, rfl⟩

/-- Each file is under its name. -/
theorem lookup_file {file : File} (hfile : file ∈ files) (accountId : Uuid) (content : Json) :
  (("actor.json", content) :: entries s tables accountId).lookup file.name =
    some (file.content s tables accountId)
  := by
  simp only [files, profileFiles, relationFiles, List.cons_append, List.nil_append, List.mem_cons,
    List.not_mem_nil, or_false] at hfile
  obtain rfl | rfl | rfl | rfl | rfl | rfl | rfl | rfl | rfl | rfl | rfl | rfl := hfile
  all_goals rfl

/-- The rows of a file are selected by the owner, if there is such a column. -/
theorem column_file :
  ∀ file ∈ files, hasColumn file.table file.column = true → file.column = ownerColumn file.table
  := by
  decide

/-- A file has the rows of the account, or none if its statement fails. -/
theorem content_file {file : File} (hfile : file ∈ files) (accountId : Uuid) :
  file.content s tables accountId =
    .arr (if file.fails s then [] else (owned tables accountId file.table).map
      (s.rowToJson file.table))
  := by
  rw [File.content, select, File.fails]
  cases hcolumn : hasColumn file.table file.column with
  | false => rfl
  | true =>
      cases herror : s.statementError file.table (some file.column) with
      | some message => rfl
      | none =>
          have hselected : (owned tables accountId file.table) = (tables file.table).filter
              fun r => refersTo (ownerColumn file.table) accountId r && true := by
            rw [owned]
            congr 1
            funext r
            exact (Bool.and_true _).symm
          rw [column_file file hfile hcolumn, hselected]
          rfl

/-- A file is exact just when its statement does not fail or there is nothing to select. -/
theorem exact_iff {file : File} (hfile : file ∈ files) {accountId : Uuid} (content : Json) :
  file.Exact s tables accountId (("actor.json", content) :: entries s tables accountId) ↔
    (file.fails s = true → owned tables accountId file.table = [])
  := by
  rw [File.Exact, lookup_file hfile, content_file hfile, Option.some.injEq, Json.arr.injEq]
  cases hfails : file.fails s with
  | false => simp
  | true =>
      rw [if_pos rfl, eq_comm, List.map_eq_nil_iff]
      simp

theorem mem_missing_iff (now : DateTime) (accountId : Uuid) (t : Table) :
  t ∈ erasedTables now accountId ∧ ¬ Covered t ↔ t ∈ missing
  := by
  have herased : erasedTables now accountId =
      [.workExperiences, .educationEntries, .skills, .scholarlyArticles, .verifiedLinks,
        .customProfileSections, .jobApplications, .actorAliases, .follows, .blocks, .mutes, .likes,
        .boosts, .mediaAttachments, .posts, .jobPostings, .deliveryQueue, .reports, .eventRsvps,
        .events, .groupMemberships, .hashtagFollows] := rfl
  rw [herased]
  unfold Covered
  revert t
  intro t
  cases t <;> decide

end Archive

/-- Nothing fails but what must. -/
def calm : Setting where
  statementError _ _ := none
  writeError _ := none
  finishError := none
  rowToJson _ r := .num (toString r.id)
  actorToJson _ := .null

/-- Account 1 is in a group and likes a post. -/
def groupMember : Database Table Column Data
  | .actors =>
      [row 1 [] { apId := "a", isLocal := true }, row 2 [] { apId := "b", isLocal := true }]
  | .groupMemberships => [row 3 [(.groupId, 2), (.memberId, 1)] ()]
  | .posts => [row 4 [(.actorId, 2)] ()]
  | .likes => [row 5 [(.actorId, 1), (.postId, 4)] ()]
  | _ => []

end Erasure.Export
