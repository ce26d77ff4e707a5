import Noombat.Erasure.Schema

/-!
# Tombstones

The transaction that erases the data of an actor, the purge of the row that it leaves, and
when they succeed.
-/

namespace Erasure

open Federation (Uuid DateTime NoombatError)
open Relational

/-- The tables that refer to actors, and the `ap_id`s of the actors that are gone. -/
structure Db where
  tables : Database Table Column Data
  tombstonedActors : List (String × DateTime)

/-- A row of `actors`. -/
abbrev Actor : Type :=
  Row Column ActorData

def refersTo (column : Column) (id : Uuid) {D : Type} (r : Row Column D) : Bool :=
  r.ref column == some id

/-- The row of an actor without personal data. -/
def clearPersonalData (now : DateTime) (r : Actor) : Actor :=
  { r with
    data := { r.data with
      displayName := none
      headline := none
      location := none
      avatarUrl := none
      headerUrl := none
      summaryMd := none
      summaryHtml := none
      chatmailAddr := none
      chatmailCred := none
      authKeyHash := none
      ed25519PrivateKey := none
      orcid := none
      actorStatus := .suspended
      erasedAt := r.data.erasedAt.or (some now)
      actorPrivacy := ⟨false, false, true, false, false, false, "self"⟩ } }

/-- The statements of the transaction up to those on reports. -/
def clearContent (now : DateTime) (actorId : Uuid) : List (Schema.Statement Table Column Data) :=
  [.update .actors (·.id == actorId) (clearPersonalData now),
    .delete .workExperiences (refersTo .actorId actorId),
    .delete .educationEntries (refersTo .actorId actorId),
    .delete .skills (refersTo .actorId actorId),
    .delete .scholarlyArticles (refersTo .actorId actorId),
    .delete .verifiedLinks (refersTo .actorId actorId),
    .delete .customProfileSections (refersTo .actorId actorId),
    .delete .jobApplications (refersTo .applicantId actorId),
    .delete .actorAliases (refersTo .actorId actorId),
    .delete .follows fun r => refersTo .followerId actorId r || refersTo .followingId actorId r,
    .delete .blocks fun r => refersTo .actorId actorId r || refersTo .targetId actorId r,
    .delete .mutes fun r => refersTo .actorId actorId r || refersTo .targetId actorId r,
    .delete .likes (refersTo .actorId actorId),
    .delete .boosts (refersTo .actorId actorId),
    .delete .mediaAttachments (refersTo .actorId actorId),
    .delete .posts (refersTo .actorId actorId),
    .delete .jobPostings (refersTo .actorId actorId),
    .delete .deliveryQueue (refersTo .actorId actorId)]

/-- The statements of the transaction from the second change of reports on. -/
def clearRelations (actorId : Uuid) : List (Schema.Statement Table Column Data) :=
  [.update .reports (refersTo .resolvedBy actorId) (·.clear .resolvedBy),
    .delete .eventRsvps (refersTo .actorId actorId),
    .delete .events fun r => refersTo .actorId actorId r || refersTo .organiserId actorId r,
    .delete .groupMemberships (refersTo .memberId actorId),
    .update .domainRestrictions (refersTo .createdBy actorId) (·.clear .createdBy),
    .delete .hashtagFollows (refersTo .actorId actorId)]

/-- The statements of the transaction on the tables that refer to actors. -/
def tombstoneStatements (now : DateTime) (actorId : Uuid) :
    List (Schema.Statement Table Column Data) :=
  clearContent now actorId ++
    [.delete .reports (refersTo .reporterId actorId),
      .update .reports (refersTo .targetActorId actorId) (·.clear .targetActorId)] ++
    clearRelations actorId

/-- Record that an `ap_id` is gone, unless it is recorded. -/
def insertTombstone (now : DateTime) (apId : String) (tombstoned : List (String × DateTime)) :
    List (String × DateTime) :=
  if tombstoned.any (·.1 == apId) then tombstoned else tombstoned ++ [(apId, now)]

variable (describe : Violation Table → String)

/-- Erase the data of a local actor, in a transaction; the row of the actor is returned as it
was.  The text of a violated constraint is the database's. -/
def tombstoneActor (now : DateTime) (actorId : Uuid) (db : Db) :
    Except NoombatError Actor × Db :=
  match (db.tables .actors).find? (·.id == actorId) with
  | none => (.error (.notFound "actor" actorId), db)
  | some actor =>
      let data : ActorData := actor.data
      if data.isLocal then
        match schema.execAll (tombstoneStatements now actorId) db.tables with
        | .error violation => (.error (.database (describe violation)), db)
        | .ok tables =>
            (.ok actor, ⟨tables, insertTombstone now data.apId db.tombstonedActors⟩)
      else (.error (.badRequest "cannot delete a remote actor"), db)

/-- Whether a row is that of an actor and the actor is erased. -/
def isErased (actorId : Uuid) (r : Actor) : Bool :=
  r.id == actorId && r.data.erasedAt.isSome

/-- Delete the row of an actor that is erased. -/
def purgeTombstonedActor (actorId : Uuid) (db : Db) : Except NoombatError Unit × Db :=
  match schema.delete .actors (isErased actorId) db.tables with
  | .error violation => (.error (.database (describe violation)), db)
  | .ok tables =>
      if (db.tables .actors).any (isErased actorId) then (.ok (), { db with tables := tables })
      else (.error (.notFound "actor" actorId), { db with tables := tables })

/-! ### What can fail -/

/-- A report is about the actor and nothing else, and another actor has filed it. -/
def AccusesOnly (actorId : Uuid) (r : Row Column ReportData) : Prop :=
  r.ref .targetActorId = some actorId ∧ r.ref .reporterId ≠ some actorId ∧
    r.ref .targetPostId = none ∧ r.data.targetChatAddr = none

/-- An employment of another actor names the actor and is confirmed. -/
def ConfirmedBy (actorId : Uuid) (r : Row Column WorkExperienceData) : Prop :=
  r.ref .organizationId = some actorId ∧ r.ref .actorId ≠ some actorId ∧
    r.data.organizationConfirmedAt ≠ none

/-- The actor has reviewed an application as a moderator. -/
def ReviewedBy (actorId : Uuid) (r : Row Column AccessData) : Prop :=
  r.ref .readerId = some actorId ∧ r.data.kind = .moderatorReview

/-- The actor organises an event of another actor. -/
def OrganisedBy (actorId : Uuid) (r : Row Column Unit) : Prop :=
  r.ref .organiserId = some actorId ∧ r.ref .actorId ≠ some actorId

section Statements

variable (now : DateTime) (actorId : Uuid)

theorem benign_clearContent :
  ∀ statement ∈ clearContent now actorId, schema.Benign .actors statement
  := by
  intro statement hstatement
  simp only [clearContent, List.mem_cons, List.not_mem_nil, or_false] at hstatement
  rcases hstatement with rfl | hdelete
  · constructor
    · intro r
      exact ⟨rfl, fun c => .inl rfl⟩
    · intro r _
      rfl
  · rcases hdelete with rfl | rfl | rfl | rfl | rfl | rfl | rfl | rfl | rfl | rfl | rfl | rfl |
      rfl | rfl | rfl | rfl | rfl
    all_goals exact fun h => Table.noConfusion h

theorem leaves_clearContent :
  ∀ statement ∈ clearContent now actorId, statement.Leaves .reports
  := by
  intro statement hstatement
  simp only [clearContent, List.mem_cons, List.not_mem_nil, or_false] at hstatement
  rcases hstatement with rfl | hdelete
  · exact fun h => Table.noConfusion h
  · rcases hdelete with rfl | rfl | rfl | rfl | rfl | rfl | rfl | rfl | rfl | rfl | rfl | rfl |
      rfl | rfl | rfl | rfl | rfl
    all_goals trivial

theorem spares_clearContent (r : Row Column (Data .reports)) :
  ∀ statement ∈ clearContent now actorId, statement.Spares r
  := by
  intro statement hstatement
  simp only [clearContent, List.mem_cons, List.not_mem_nil, or_false] at hstatement
  rcases hstatement with rfl | hdelete
  · trivial
  · rcases hdelete with rfl | rfl | rfl | rfl | rfl | rfl | rfl | rfl | rfl | rfl | rfl | rfl |
      rfl | rfl | rfl | rfl | rfl
    all_goals exact fun h => Table.noConfusion h

theorem benign_clearRelations :
  ∀ statement ∈ clearRelations actorId, schema.Benign .actors statement
  := by
  intro statement hstatement
  simp only [clearRelations, List.mem_cons, List.not_mem_nil, or_false] at hstatement
  rcases hstatement with rfl | rfl | rfl | rfl | rfl | rfl
  · exact ⟨Row.weakens_clear _, harmless_nullable (.reports, .resolvedBy) (by decide)⟩
  · exact fun h => Table.noConfusion h
  · exact fun h => Table.noConfusion h
  · exact fun h => Table.noConfusion h
  · exact ⟨Row.weakens_clear _, harmless_nullable (.domainRestrictions, .createdBy) (by decide)⟩
  · exact fun h => Table.noConfusion h

/-- Reports refer to posts, and are deleted with them. -/
theorem reports_foreignKeys :
  ∀ fk ∈ schema.foreignKeys, fk.table = .reports → fk.target ≠ .actors →
    fk.column = .targetPostId ∧ fk.onDelete ≠ .setNull
  := by
  change ∀ fk ∈ foreignKeys, _
  decide

variable {db : Database Table Column Data}

/-- Before the actor is cleared from reports, the reports that are left are among those that
there were, and the actor has filed none of them; and those that are about no post are left
if another actor has filed them. -/
theorem reports_before (h : ∀ t, schema.Intact t (db t)) :
  ∃ db', schema.execAll (clearContent now actorId ++
      [.delete .reports (refersTo .reporterId actorId)]) db = .ok db' ∧
    (∀ t, schema.Intact t (db' t)) ∧
    (∀ r ∈ db' .reports, r ∈ db .reports ∧ r.ref .reporterId ≠ some actorId) ∧
    ∀ r ∈ db .reports, r.ref .reporterId ≠ some actorId → r.ref .targetPostId = none →
      r ∈ db' .reports
  := by
  have hcascades : ∀ fk ∈ schema.foreignKeys, fk.table = .reports → fk.target ≠ .actors →
      fk.onDelete ≠ .setNull :=
    fun fk hfk htable htarget => (reports_foreignKeys fk hfk htable htarget).2
  have hrefs (r : Row Column (Data .reports)) (hpost : r.ref .targetPostId = none) :
      ∀ fk ∈ schema.foreignKeys, fk.table = .reports → fk.target ≠ .actors →
        r.ref fk.column = none := by
    intro fk hfk htable htarget
    rw [(reports_foreignKeys fk hfk htable htarget).1, hpost]
  obtain ⟨db₁, hok₁, hintact₁, hspec₁⟩ := schema_tame.execAll h (benign_clearContent now actorId)
  obtain ⟨hkept₁, hold₁⟩ := hspec₁ .reports (leaves_clearContent now actorId)
  have hne : Table.reports ≠ .actors := by decide
  obtain ⟨db₂, hok₂, hintact₂, htrims⟩ := schema_tame.delete hintact₁ hne
    (refersTo .reporterId actorId)
  have hkept₂ := htrims.kept .reports
  have hold₂ := htrims.old .reports hcascades
  rw [Function.update_self] at hkept₂ hold₂
  refine ⟨db₂, ?_, hintact₂, ?_, ?_⟩
  · rw [Schema.execAll_append, hok₁]
    simp only [Schema.execAll, Schema.exec, hok₂]
  · intro r hr
    obtain ⟨hr₁, hreporter⟩ := List.mem_filter.mp (hold₂ r hr)
    exact ⟨hold₁ hcascades r hr₁, by simpa [refersTo] using hreporter⟩
  · intro r hr hreporter hpost
    apply hkept₂ r _ (hrefs r hpost)
    apply List.mem_filter.mpr
    constructor
    · exact hkept₁ r hr (hrefs r hpost) (spares_clearContent now actorId r)
    · simpa [refersTo] using hreporter

/-- A report that is about something else too still names a target without the actor. -/
theorem check_clear_targetActor {r : Row Column (Data .reports)}
    (hcheck : schema.check .reports r = true) :
  schema.check .reports (r.clear .targetActorId) = true ↔
    ¬ (r.ref .targetPostId = none ∧ (r.data : ReportData).targetChatAddr = none)
  := by
  change check .reports r = true at hcheck
  change check .reports (r.clear .targetActorId) = true ↔ _
  simp only [check, notNull, constraints, reportNamesATarget, Bool.and_eq_true, Bool.or_eq_true]
    at hcheck ⊢
  obtain ⟨hreporter, ⟨_, hquoted⟩, hbounded⟩ := hcheck
  have hpost : (r.clear .targetActorId).ref .targetPostId = r.ref .targetPostId := rfl
  constructor
  · rintro ⟨_, ⟨hnames, _⟩, _⟩ ⟨hnoPost, hnoChat⟩
    rw [Row.ref_clear_self, hpost, hnoPost, Row.data_clear, hnoChat] at hnames
    simp at hnames
  · intro hother
    refine ⟨hreporter, ⟨?_, hquoted⟩, hbounded⟩
    rw [hpost, Row.data_clear]
    cases hp : r.ref .targetPostId with
    | some post => simp
    | none =>
        right
        apply Option.isSome_iff_ne_none.mpr
        intro hchat
        exact hother ⟨hp, hchat⟩

end Statements

/-! ### When erasure succeeds -/

section Success

variable {actorId : Uuid} {db : Database Table Column Data}

/-- The transaction succeeds just when every report about the actor that another actor has
filed is about something else too. -/
theorem tombstoneStatements_ok_iff (now : DateTime) (h : ∀ t, schema.Intact t (db t)) :
  (∃ db', schema.execAll (tombstoneStatements now actorId) db = .ok db') ↔
    ¬ ∃ r ∈ db .reports, AccusesOnly actorId r
  := by
  obtain ⟨db₁, hok₁, hintact₁, hold₁, hkept₁⟩ := reports_before now actorId h
  have hsplit : tombstoneStatements now actorId =
      (clearContent now actorId ++ [.delete .reports (refersTo .reporterId actorId)]) ++
        (.update .reports (refersTo .targetActorId actorId) (·.clear .targetActorId) ::
          clearRelations actorId) := by
    simp [tombstoneStatements]
  rw [hsplit, Schema.execAll_append, hok₁]
  simp only [Schema.execAll, Schema.exec]
  constructor
  · rintro ⟨db', hok⟩ ⟨r, hr, htarget, hreporter, hpost, hchat⟩
    have hthere := hkept₁ r hr hreporter hpost
    have hcheck : schema.check .reports (r.clear .targetActorId) = false := by
      rw [← Bool.not_eq_true, check_clear_targetActor ((hintact₁ .reports).checks r hthere)]
      exact not_not_intro ⟨hpost, hchat⟩
    have hrefers : refersTo .targetActorId actorId r = true := beq_iff_eq.mpr htarget
    rw [Schema.update_of_check hthere hrefers hcheck] at hok
    cases hok
  · intro hnone
    have hchecks : ∀ r ∈ db₁ .reports, refersTo .targetActorId actorId r = true →
        schema.check .reports (r.clear .targetActorId) = true := by
      intro r hr htarget
      apply (check_clear_targetActor ((hintact₁ .reports).checks r hr)).mpr
      rintro ⟨hpost, hchat⟩
      obtain ⟨hthere, hreporter⟩ := hold₁ r hr
      exact hnone ⟨r, hthere, beq_iff_eq.mp htarget, hreporter, hpost, hchat⟩
    obtain ⟨hok₂, hintact₂⟩ := Schema.update_of_checks hintact₁
      (Row.weakens_clear .targetActorId) hchecks
    rw [hok₂]
    obtain ⟨db₃, hok₃, _⟩ := schema_tame.execAll hintact₂ (benign_clearRelations actorId)
    exact ⟨db₃, hok₃⟩

/-- An employment loses the organisation that it names just when it is not confirmed. -/
theorem check_clear_organization {r : Row Column (Data .workExperiences)}
    (hcheck : schema.check .workExperiences r = true) :
  schema.check .workExperiences (r.clear .organizationId) = true ↔
    (r.data : WorkExperienceData).organizationConfirmedAt = none
  := by
  change check .workExperiences r = true at hcheck
  change check .workExperiences (r.clear .organizationId) = true ↔ _
  obtain ⟨hactor, _⟩ := Bool.and_eq_true_iff.mp hcheck
  simp only [check, constraints, confirmationNamesAnOrganisation, Bool.and_eq_true,
    Bool.or_eq_true, Row.data_clear, Row.ref_clear_self, Option.isNone_iff_eq_none]
  constructor
  · rintro ⟨_, hnone | ⟨hsome, _⟩⟩
    · exact hnone
    · cases hsome
  · intro hnone
    exact ⟨hactor, .inl hnone⟩

/-- An access loses its reader just when it is no review of a moderator. -/
theorem check_clear_reader {r : Row Column (Data .jobApplicationAccesses)}
    (hcheck : schema.check .jobApplicationAccesses r = true) :
  schema.check .jobApplicationAccesses (r.clear .readerId) = true ↔
    (r.data : AccessData).kind ≠ .moderatorReview
  := by
  change check .jobApplicationAccesses r = true at hcheck
  change check .jobApplicationAccesses (r.clear .readerId) = true ↔ _
  obtain ⟨happlication, _⟩ := Bool.and_eq_true_iff.mp hcheck
  simp only [check, constraints, moderatorReviewStatesAReason, Bool.and_eq_true,
    Bool.or_eq_true, Row.data_clear, Row.ref_clear_self, bne_iff_ne]
  constructor
  · rintro ⟨_, hne | ⟨hsome, _⟩⟩
    · exact hne
    · cases hsome
  · intro hne
    exact ⟨happlication, .inl hne⟩

/-- The foreign keys to actors. -/
def toActors : List (ForeignKey Table Column) :=
  schema.foreignKeys.filter (·.target = .actors)

theorem passes_workExperiences (h : ∀ t, schema.Intact t (db t)) :
  schema.Passes .workExperiences actorId (Schema.columnsOf toActors .workExperiences)
    (db .workExperiences) ↔ ¬ ∃ r ∈ db .workExperiences, ConfirmedBy actorId r
  := by
  have hcolumns : Schema.columnsOf toActors .workExperiences =
      [(.actorId, .cascade), (.organizationId, .setNull)] := by decide
  rw [hcolumns]
  constructor
  · rintro ⟨_, hyields, _⟩ ⟨r, hr, horganization, hactor, hconfirmed⟩
    have hleft := Schema.mem_left_of_ref_ne .cascade hr hactor
    have hcheck := (h .workExperiences).checks r hr
    exact hconfirmed ((check_clear_organization hcheck).mp (hyields r hleft horganization))
  · intro hnone
    refine ⟨fun _ _ _ => trivial, ?_, trivial⟩
    intro r hr horganization
    obtain ⟨hthere, hactor⟩ := List.mem_filter.mp hr
    apply (check_clear_organization ((h .workExperiences).checks r hthere)).mpr
    by_contra hconfirmed
    exact hnone ⟨r, hthere, horganization, by simpa using hactor, hconfirmed⟩

theorem passes_accesses (h : ∀ t, schema.Intact t (db t)) :
  schema.Passes .jobApplicationAccesses actorId
    (Schema.columnsOf toActors .jobApplicationAccesses) (db .jobApplicationAccesses) ↔
      ¬ ∃ r ∈ db .jobApplicationAccesses, ReviewedBy actorId r
  := by
  have hcolumns : Schema.columnsOf toActors .jobApplicationAccesses =
      [(.readerId, .setNull)] := by decide
  rw [hcolumns]
  constructor
  · rintro ⟨hyields, _⟩ ⟨r, hr, hreader, hkind⟩
    have hcheck := (h .jobApplicationAccesses).checks r hr
    exact (check_clear_reader hcheck).mp (hyields r hr hreader) hkind
  · intro hnone
    refine ⟨?_, trivial⟩
    intro r hr hreader
    apply (check_clear_reader ((h .jobApplicationAccesses).checks r hr)).mpr
    intro hkind
    exact hnone ⟨r, hr, hreader, hkind⟩

theorem passes_events (h : ∀ t, schema.Intact t (db t)) :
  schema.Passes .events actorId (Schema.columnsOf toActors .events) (db .events) ↔
    ¬ ∃ r ∈ db .events, OrganisedBy actorId r
  := by
  have hcolumns : Schema.columnsOf toActors .events =
      [(.actorId, .cascade), (.organiserId, .noAction), (.groupId, .setNull)] := by decide
  rw [hcolumns]
  constructor
  · rintro ⟨_, hyields, _⟩ ⟨r, hr, horganiser, hactor⟩
    have hleft := Schema.mem_left_of_ref_ne .cascade hr hactor
    exact hyields r hleft horganiser
  · intro hnone
    refine ⟨fun _ _ _ => trivial, ?_, ?_, trivial⟩
    · intro r hr horganiser
      obtain ⟨hthere, hactor⟩ := List.mem_filter.mp hr
      exact hnone ⟨r, hthere, horganiser, by simpa using hactor⟩
    · intro r hr _
      have hthere : r ∈ db .events := List.mem_of_mem_filter hr
      exact harmless_nullable (.events, .groupId) (by decide) r ((h .events).checks r hthere)

/-- The actions for the deletion of an actor succeed just when they do on the tables of
employments, accesses and events. -/
theorem passes_toActors_iff (h : ∀ t, schema.Intact t (db t)) :
  (∀ t, t ≠ .actors → schema.Passes t actorId (Schema.columnsOf toActors t) (db t)) ↔
    (¬ ∃ r ∈ db .workExperiences, ConfirmedBy actorId r) ∧
    (¬ ∃ r ∈ db .jobApplicationAccesses, ReviewedBy actorId r) ∧
    (¬ ∃ r ∈ db .events, OrganisedBy actorId r)
  := by
  rw [← passes_workExperiences h, ← passes_accesses h, ← passes_events h]
  constructor
  · intro hall
    exact ⟨hall _ (by decide), hall _ (by decide), hall _ (by decide)⟩
  · rintro ⟨hworkExperiences, haccesses, hevents⟩ t ht
    by_cases hspecial : t = .workExperiences ∨ t = .jobApplicationAccesses ∨ t = .events
    · obtain rfl | rfl | rfl := hspecial
      · exact hworkExperiences
      · exact haccesses
      · exact hevents
    · have hothers : ∀ fk ∈ toActors, ¬ (fk.table = .workExperiences ∨
          fk.table = .jobApplicationAccesses ∨ fk.table = .events) →
          fk.onDelete = .cascade ∨ fk.onDelete = .setNull ∧ (fk.table, fk.column) ∈ nullable := by
        decide
      apply (h t).passes
      intro c hc
      obtain ⟨fk, hfk, rfl⟩ := List.mem_map.mp hc
      obtain ⟨hmem, htable⟩ := List.mem_filter.mp hfk
      obtain rfl : fk.table = t := of_decide_eq_true htable
      obtain hcascade | ⟨hnull, hnullable⟩ := hothers fk hmem hspecial
      · rw [hcascade]
        exact harmless_cascade _ _
      · rw [hnull]
        exact harmless_nullable _ hnullable

/-- A row of an actor is the only one with its key. -/
theorem filter_isErased (h : ∀ t, schema.Intact t (db t)) {r : Actor} (hr : r ∈ db .actors)
    (herased : isErased actorId r = true) :
  (db .actors).filter (isErased actorId) = [r]
  := by
  have hkeys := (h .actors).keys
  have hsame : ∀ r' ∈ (db .actors).filter (isErased actorId), r' = r := by
    intro r' hr'
    obtain ⟨hmem, herased'⟩ := List.mem_filter.mp hr'
    simp only [isErased, Bool.and_eq_true, beq_iff_eq] at herased herased'
    exact List.inj_on_of_nodup_map hkeys hmem hr (herased'.1.trans herased.1.symm)
  have hmem : r ∈ (db .actors).filter (isErased actorId) := List.mem_filter.mpr ⟨hr, herased⟩
  have hnodup := hkeys.of_map.filter (isErased actorId)
  rw [List.eq_replicate_of_mem hsame] at hnodup hmem ⊢
  have hle := List.nodup_replicate.mp hnodup
  have hpos := (List.mem_replicate.mp hmem).1
  have hone : ((db .actors).filter (isErased actorId)).length = 1 := by omega
  rw [hone]
  rfl

theorem purge_ok_iff (h : ∀ t, schema.Intact t (db t)) {r : Actor} (hr : r ∈ db .actors)
    (herased : isErased actorId r = true) :
  (∃ db', schema.delete .actors (isErased actorId) db = .ok db') ↔
    (¬ ∃ r ∈ db .workExperiences, ConfirmedBy actorId r) ∧
    (¬ ∃ r ∈ db .jobApplicationAccesses, ReviewedBy actorId r) ∧
    (¬ ∃ r ∈ db .events, OrganisedBy actorId r)
  := by
  have hid : r.id = actorId := by
    simp only [isErased, Bool.and_eq_true, beq_iff_eq] at herased
    exact herased.1
  rw [schema_tame.delete_ok_iff h (filter_isErased h hr herased), ← passes_toActors_iff h, hid]
  rfl

end Success

/-- The erasure of a local actor succeeds just when every report about the actor that another
actor has filed is also about a post or a chat address.  The purge of an erased actor succeeds
just when no confirmed employment of another actor names the actor, the actor has reviewed no
application as a moderator, and the actor organises no event of another actor. -/
theorem erasure_succeeds_iff (describe : Violation Table → String) (now : DateTime)
    (actorId : Uuid) (db : Db) (h : schema.Satisfies db.tables) :
  ((∃ r ∈ db.tables .actors, r.id = actorId ∧ (r.data : ActorData).isLocal = true) →
    ((tombstoneActor describe now actorId db).1.isOk = true ↔
      ¬ ∃ r ∈ db.tables .reports, AccusesOnly actorId r)) ∧
  ((∃ r ∈ db.tables .actors, isErased actorId r = true) →
    ((purgeTombstonedActor describe actorId db).1.isOk = true ↔
      (¬ ∃ r ∈ db.tables .workExperiences, ConfirmedBy actorId r) ∧
      (¬ ∃ r ∈ db.tables .jobApplicationAccesses, ReviewedBy actorId r) ∧
      (¬ ∃ r ∈ db.tables .events, OrganisedBy actorId r)))
  := by
  constructor
  · rintro ⟨r, hr, hid, hlocal⟩
    rw [← tombstoneStatements_ok_iff now h.intact]
    -- The row that is found by the key is the row of the actor.
    have hfound : (db.tables .actors).find? (·.id == actorId) = some r := by
      cases hfind : (db.tables .actors).find? (·.id == actorId) with
      | none => simpa [hid] using List.find?_eq_none.mp hfind r hr
      | some r' =>
          have hid' : r'.id = actorId := by simpa using List.find?_some hfind
          have hmem := List.mem_of_find?_eq_some hfind
          rw [List.inj_on_of_nodup_map (h.intact .actors).keys hmem hr (hid'.trans hid.symm)]
    rw [tombstoneActor, hfound]
    simp only [if_pos hlocal]
    cases schema.execAll (tombstoneStatements now actorId) db.tables with
    | error e => simp [Except.isOk, Except.toBool]
    | ok tables => simp [Except.isOk, Except.toBool]
  · rintro ⟨r, hr, herased⟩
    rw [← purge_ok_iff h.intact hr herased, purgeTombstonedActor]
    have hany : (db.tables .actors).any (isErased actorId) = true :=
      List.any_eq_true.mpr ⟨r, hr, herased⟩
    cases schema.delete .actors (isErased actorId) db.tables with
    | error e => simp [Except.isOk, Except.toBool]
    | ok tables => simp [hany, Except.isOk, Except.toBool]

/-- A row with the given references. -/
def row {D : Type} (id : Nat) (refs : List (Column × Nat)) (data : D) : Row Column D :=
  ⟨id, fun c => (refs.find? (·.1 == c)).map (·.2), data⟩

/-- Actor 2 has reported actor 1, and has an employment that actor 3 has confirmed.  Actor 3
is erased. -/
def reportedActor : Db where
  tables
    | .actors =>
        [row 1 [] { apId := "a", isLocal := true }, row 2 [] { apId := "b", isLocal := true },
          row 3 [] { apId := "o", isLocal := true, erasedAt := some 0 }]
    | .reports => [row 4 [(.reporterId, 2), (.targetActorId, 1)] ⟨none, none, none⟩]
    | .workExperiences =>
        [row 5 [(.actorId, 2), (.organizationId, 3)] ⟨some 0, some .organisation⟩]
    | _ => []
  tombstonedActors := [("o", 0)]

/-- Whether every reference is to a row that is there. -/
theorem satisfies_of_any {db : Database Table Column Data} (hintact : ∀ t, schema.Intact t (db t))
    (hany : ∀ fk ∈ foreignKeys, ∀ r ∈ db fk.table,
      ((r.ref fk.column).all fun key => (db fk.target).any (·.id == key)) = true) :
  schema.Satisfies db
  := by
  constructor
  · exact hintact
  · intro fk hfk r hr key href
    have hrefers := hany fk hfk r hr
    rw [href] at hrefers
    obtain ⟨r', hr', hid⟩ := List.any_eq_true.mp hrefers
    exact ⟨r', hr', beq_iff_eq.mp hid⟩

theorem reportedActor_satisfies :
  schema.Satisfies reportedActor.tables
  := by
  apply satisfies_of_any
  · intro t
    cases t
    all_goals exact ⟨by decide, by decide, by decide⟩
  · decide

/-- The report keeps actor 1 from being erased, and the employment keeps actor 3 from being
purged. -/
theorem erasure_blocked :
  schema.Satisfies reportedActor.tables ∧
  (∃ r ∈ reportedActor.tables .actors, r.id = 1 ∧ (r.data : ActorData).isLocal = true) ∧
  (tombstoneActor (fun _ => "violation") 7 1 reportedActor).1.isOk = false ∧
  (∃ r ∈ reportedActor.tables .actors, isErased 3 r = true) ∧
  (purgeTombstonedActor (fun _ => "violation") 3 reportedActor).1.isOk = false
  := by
  refine ⟨reportedActor_satisfies, ?_, ?_, ?_, ?_⟩
  · exact ⟨_, List.mem_cons_self, rfl, rfl⟩
  · rfl
  · exact ⟨_, List.mem_cons_of_mem _ (List.mem_cons_of_mem _ List.mem_cons_self), rfl⟩
  · rfl

/-- The actor who has filed the report can be erased. -/
theorem erasure_succeeds_reporter :
  (tombstoneActor (fun _ => "violation") 7 2 reportedActor).1.isOk = true ∧
  (purgeTombstonedActor (fun _ => "violation") 3 reportedActor).1.isOk = false
  := by
  obtain ⟨herase, _⟩ := erasure_succeeds_iff (fun _ => "violation") 7 2 reportedActor
    reportedActor_satisfies
  obtain ⟨_, hpurge⟩ := erasure_succeeds_iff (fun _ => "violation") 7 3 reportedActor
    reportedActor_satisfies
  constructor
  · apply (herase ⟨_, List.mem_cons_of_mem _ List.mem_cons_self, rfl, rfl⟩).mpr
    rintro ⟨r, hr, htarget, _⟩
    obtain rfl := List.mem_singleton.mp hr
    cases htarget
  · rw [← Bool.not_eq_true, hpurge ⟨_, List.mem_cons_of_mem _ (List.mem_cons_of_mem _
      List.mem_cons_self), rfl⟩]
    rintro ⟨hnone, _⟩
    apply hnone
    refine ⟨_, List.mem_singleton_self _, rfl, ?_, ?_⟩
    · decide
    · exact Option.some_ne_none 0

end Erasure
