import Noombat.Erasure.Tombstone
import Noombat.Cascades

/-!
# What is left of an actor

A row belongs to an actor if it would go with the actor: if it refers to the actor by a foreign key
that is not set to null, or goes with a row that does.  The transaction that erases an actor
deletes what refers to it by some of these columns, and clears some of the columns of its row.
Two databases that differ in the data of one actor become the same just when they do not differ
in what refers to it by the other columns, and in the other columns of its row.  The rows of other
actors are left as they were, apart from references to the actor and to what is deleted.
-/

namespace Erasure

open Federation (Uuid DateTime NoombatError)
open Relational

/-- A row refers to an actor by some columns. -/
def refersBy (columns : List (Table × Column)) (id : Uuid) (t : Table)
    (r : Row Column (Data t)) : Bool :=
  columns.any fun c => c.1 == t && r.ref c.2 == some id

/-- The columns by which a row refers to the actor it belongs to. -/
def ownerColumns : List (Table × Column) :=
  (foreignKeys.filter fun fk => fk.target = .actors ∧ fk.onDelete ≠ .setNull).map fun fk =>
    (fk.table, fk.column)

/-- The columns by which the transaction names what it deletes. -/
def erasedColumns : List (Table × Column) :=
  [(.workExperiences, .actorId), (.educationEntries, .actorId), (.skills, .actorId),
    (.scholarlyArticles, .actorId), (.verifiedLinks, .actorId),
    (.customProfileSections, .actorId), (.jobApplications, .applicantId),
    (.actorAliases, .actorId), (.follows, .followerId), (.follows, .followingId),
    (.blocks, .actorId), (.blocks, .targetId), (.mutes, .actorId), (.mutes, .targetId),
    (.likes, .actorId), (.boosts, .actorId), (.mediaAttachments, .actorId), (.posts, .actorId),
    (.jobPostings, .actorId), (.deliveryQueue, .actorId), (.reports, .reporterId),
    (.eventRsvps, .actorId), (.events, .actorId), (.events, .organiserId),
    (.groupMemberships, .memberId), (.hashtagFollows, .actorId)]

/-- The columns by which it deletes nothing. -/
def leftColumns : List (Table × Column) :=
  [(.sessions, .actorId), (.totpSecrets, .actorId), (.oauthStates, .linkActorId),
    (.emailVerifications, .actorId), (.oauthIdentities, .actorId),
    (.organizationMembers, .organizationId), (.organizationMembers, .memberId),
    (.organizationEnrolments, .ownerId), (.jobPostingReaders, .memberId),
    (.connections, .requesterId), (.connections, .addresseeId), (.groupMemberships, .groupId),
    (.mediaFetchOperations, .actorId), (.chatmailBlocks, .actorId), (.reports, .targetActorId)]

/-- The columns that it sets to null. -/
def unlinkedColumns : List (Table × Column) :=
  [(.reports, .targetActorId), (.reports, .resolvedBy), (.domainRestrictions, .createdBy)]

/-- A row belongs to an actor. -/
def Owned (db : Database Table Column Data) (id : Uuid) : Table → Nat → Prop :=
  schema.Goes db (refersBy ownerColumns id)

/-- A row is deleted with the data of an actor. -/
def Erased (db : Database Table Column Data) (id : Uuid) : Table → Nat → Prop :=
  schema.Goes db (refersBy erasedColumns id)

/-- A reference to the actor is cleared, or one to a row that is deleted. -/
def Unlinked (db : Database Table Column Data) (id : Uuid) (t : Table) (c : Column) (key : Nat) :
    Prop :=
  ((t, c) ∈ unlinkedColumns ∧ key = id) ∨
    ∃ fk ∈ foreignKeys, fk.table = t ∧ fk.column = c ∧ fk.onDelete = .setNull ∧
      Erased db id fk.target key

/-- A row that belongs to an actor, and is not deleted. -/
def Left (db : Database Table Column Data) (id : Uuid) (t : Table) (r : Row Column (Data t)) :
    Prop :=
  r ∈ db t ∧ refersBy leftColumns id t r = true ∧ ¬ Erased db id t r.id

/-- The columns of the row of an actor that are left, but for identifiers and timestamps. -/
def ActorData.left (d : ActorData) :=
  (d.isLocal, d.inboxUrl, d.sharedInboxUrl, d.instanceRole, d.email, d.chatRequiresReprovisioning,
    d.claimedDomain, d.orgKind, d.blurSensitiveMedia, d.defaultPostVisibility,
    d.connectionsVisibility, d.followingVisibility, d.followersVisibility)

/-- The row of an actor without identifiers, that of the account that it moved to among them, and
timestamps. -/
def ActorData.anonymous (d : ActorData) : ActorData :=
  { d with apId := "", movedTo := none, deletionRequestedAt := none, erasedAt := none }

/-! ### Two databases -/

/-- Two databases differ only in the data of one actor. -/
structure Agree (id : Uuid) (db₁ db₂ : Database Table Column Data) : Prop where
  tables : ∀ t, t ≠ .actors → ∀ r,
    (r ∈ db₁ t ∧ ¬ Owned db₁ id t r.id) ↔ (r ∈ db₂ t ∧ ¬ Owned db₂ id t r.id)
  actors : ∀ r : Actor, r.id ≠ id → (r ∈ db₁ .actors ↔ r ∈ db₂ .actors)

/-- Two databases are the same, but for identifiers and timestamps of one actor and for the reports,
which are kept for moderation. -/
structure Same (id : Uuid) (db₁ db₂ : Database Table Column Data) : Prop where
  tables : ∀ t, t ≠ .actors → t ≠ .reports → ∀ r, r ∈ db₁ t ↔ r ∈ db₂ t
  actors : ∀ r : Actor, r.id ≠ id → (r ∈ db₁ .actors ↔ r ∈ db₂ .actors)
  actor : ∀ r₁ ∈ db₁ .actors, ∀ r₂ ∈ db₂ .actors, r₁.id = id → r₂.id = id →
    (r₁.data : ActorData).anonymous = (r₂.data : ActorData).anonymous

/-- Two databases have the same of what is left of an actor. -/
structure SameLeft (id : Uuid) (db₁ db₂ : Database Table Column Data) : Prop where
  rows : ∀ t, t ≠ .reports → ∀ r, Left db₁ id t r ↔ Left db₂ id t r
  columns : ∀ r₁ ∈ db₁ .actors, ∀ r₂ ∈ db₂ .actors, r₁.id = id → r₂.id = id →
    (r₁.data : ActorData).left = (r₂.data : ActorData).left

/-- What belongs to no other actor than one is kept, but for references to that actor and to what
is deleted, and nothing is added. -/
structure Spares (id : Uuid) (db db' : Database Table Column Data) : Prop where
  kept : ∀ t, ∀ r ∈ db t, ¬ Owned db id t r.id → ¬ (t = .actors ∧ r.id = id) →
    ∃ r' ∈ db' t, Schema.Loses (Unlinked db id) t r r'
  old : ∀ t, ∀ r' ∈ db' t, ∃ r ∈ db t, r.id = r'.id

/-! ### Columns -/

theorem refersBy_iff {columns : List (Table × Column)} {id : Uuid} {t : Table}
    {r : Row Column (Data t)} :
  refersBy columns id t r = true ↔ ∃ c, (t, c) ∈ columns ∧ r.ref c = some id
  := by
  rw [refersBy, List.any_eq_true]
  constructor
  · rintro ⟨⟨t', c⟩, hmem, hrefers⟩
    simp only [Bool.and_eq_true, beq_iff_eq] at hrefers
    obtain ⟨rfl, href⟩ := hrefers
    exact ⟨c, hmem, href⟩
  · rintro ⟨c, hmem, href⟩
    refine ⟨(t, c), hmem, ?_⟩
    simp [href]

/-- A row refers to its actor by a column by which it is deleted, or by one by which it is left. -/
theorem ownerColumns_iff (c : Table × Column) :
  c ∈ ownerColumns ↔ c ∈ erasedColumns ∨ c ∈ leftColumns
  := by
  have hforward : ∀ c ∈ ownerColumns, c ∈ erasedColumns ∨ c ∈ leftColumns := by
    decide
  have herased : ∀ c ∈ erasedColumns, c ∈ ownerColumns := by
    decide
  have hleft : ∀ c ∈ leftColumns, c ∈ ownerColumns := by
    decide
  constructor
  · exact hforward c
  · rintro (h | h)
    · exact herased c h
    · exact hleft c h

theorem sources_ne_actors :
  ∀ fk ∈ schema.foreignKeys, fk.table ≠ .actors
  := schema_tame.source

/-- No actor goes with the data of an actor. -/
theorem not_goes_actors {db : Database Table Column Data} {columns : List (Table × Column)}
    (hcolumns : ∀ c ∈ columns, c.1 ≠ .actors) {id key : Nat} :
  ¬ schema.Goes db (refersBy columns id) .actors key
  := by
  intro h
  generalize ht : Table.actors = t at h
  cases h with
  | named hr hp =>
      obtain ⟨c, hmem, _⟩ := refersBy_iff.mp hp
      exact hcolumns _ hmem ht.symm
  | cascade hfk _ _ _ _ => exact sources_ne_actors _ hfk ht.symm

theorem erased_not_actors :
  ∀ c ∈ erasedColumns, c.1 ≠ .actors
  := by
  decide

/-- What is deleted belongs to the actor. -/
theorem Erased.owned {db : Database Table Column Data} {id : Uuid} {t : Table} {key : Nat}
    (h : Erased db id t key) :
  Owned db id t key
  := by
  induction h with
  | named hr hp =>
      obtain ⟨c, hmem, href⟩ := refersBy_iff.mp hp
      exact .named hr (refersBy_iff.mpr ⟨c, (ownerColumns_iff _).mpr (.inl hmem), href⟩)
  | cascade hfk hcascade hr href _ ih => exact .cascade hfk hcascade hr href ih

/-- What belongs to the actor is deleted, or refers to it by a column by which it is left. -/
theorem Owned.cases {db : Database Table Column Data} {id : Uuid} {t : Table} {key : Nat}
    (h : Owned db id t key) :
  Erased db id t key ∨ ∃ r ∈ db t, r.id = key ∧ refersBy leftColumns id t r = true
  := by
  -- nothing goes with what is left
  have hleaf : ∀ fk ∈ foreignKeys, fk.onDelete = .cascade → ∀ c ∈ leftColumns, fk.target ≠ c.1 := by
    decide
  induction h with
  | named hr hp =>
      obtain ⟨c, hmem, href⟩ := refersBy_iff.mp hp
      rcases (ownerColumns_iff _).mp hmem with hmem | hmem
      · exact .inl (.named hr (refersBy_iff.mpr ⟨c, hmem, href⟩))
      · exact .inr ⟨_, hr, rfl, refersBy_iff.mpr ⟨c, hmem, href⟩⟩
  | cascade hfk hcascade hr href _ ih =>
      rcases ih with herased | ⟨x, _, _, hleft⟩
      · exact .inl (.cascade hfk hcascade hr href herased)
      · obtain ⟨c, hmem, _⟩ := refersBy_iff.mp hleft
        exact absurd rfl (hleaf _ hfk hcascade _ hmem)

/-! ### What the transaction leaves -/

/-- The row of an actor, cleared if it is that of the given one. -/
def clearRow (now : DateTime) (id : Uuid) (r : Actor) : Actor :=
  if r.id == id then clearPersonalData now r else r

theorem id_clearRow (now : DateTime) (id : Uuid) (r : Actor) :
  (clearRow now id r).id = r.id
  := by
  rw [clearRow]
  split
  · rfl
  · rfl

theorem clearRow_of_ne (now : DateTime) {id : Uuid} {r : Actor} (hid : r.id ≠ id) :
  clearRow now id r = r
  := if_neg (by simpa using hid)

theorem clearRow_of_eq (now : DateTime) {id : Uuid} {r : Actor} (hid : r.id = id) :
  clearRow now id r = clearPersonalData now r
  := if_pos (beq_iff_eq.mpr hid)

/-- The tables after the row of the actor is cleared. -/
def cleared (now : DateTime) (id : Uuid) (db : Database Table Column Data) :
    Database Table Column Data :=
  Function.update db .actors ((db .actors).map (clearRow now id))

theorem mem_cleared {now : DateTime} {id : Uuid} {db : Database Table Column Data} {r' : Actor} :
  r' ∈ cleared now id db .actors ↔ ∃ r : Actor, r ∈ db .actors ∧ clearRow now id r = r'
  := by
  rw [cleared, Function.update_self]
  exact List.mem_map

theorem cleared_of_ne (now : DateTime) (id : Uuid) (db : Database Table Column Data) {t : Table}
    (ht : t ≠ .actors) :
  cleared now id db t = db t
  := Function.update_of_ne ht _ _

/-- What goes depends on no actor. -/
theorem goes_cleared (now : DateTime) {id : Uuid} {db : Database Table Column Data} :
  schema.Goes (cleared now id db) (refersBy erasedColumns id) = Erased db id
  := by
  funext t key
  apply propext
  constructor
  · intro h
    induction h with
    | named hr hp =>
        obtain ⟨c, hmem, _⟩ := refersBy_iff.mp hp
        rw [cleared_of_ne _ _ _ (erased_not_actors _ hmem)] at hr
        exact .named hr hp
    | cascade hfk hcascade hr href _ ih =>
        rw [cleared_of_ne _ _ _ (sources_ne_actors _ hfk)] at hr
        exact .cascade hfk hcascade hr href ih
  · intro h
    induction h with
    | named hr hp =>
        obtain ⟨c, hmem, _⟩ := refersBy_iff.mp hp
        rw [← cleared_of_ne now id db (erased_not_actors _ hmem)] at hr
        exact .named hr hp
    | cascade hfk hcascade hr href _ ih =>
        rw [← cleared_of_ne now id db (sources_ne_actors _ hfk)] at hr
        exact .cascade hfk hcascade hr href ih

section Covered

variable {now : DateTime} {id : Uuid} {db : Database Table Column Data} {t : Table}
  {c c' : Column}

theorem falling_refersTo (lost : Table → Column → Nat → Prop) :
  Schema.Falling lost fun r : Row Column (Data t) => refersTo c id r
  := fun _ _ hloses hrefers => beq_iff_eq.mpr (hloses.some (beq_iff_eq.mp hrefers))

theorem erased_of_refersTo (hc : (t, c) ∈ erasedColumns) {r : Row Column (Data t)}
    (hr : r ∈ cleared now id db t) (hrefers : refersTo c id r = true) :
  Erased db id t r.id
  := by
  rw [cleared_of_ne _ _ _ (erased_not_actors _ hc)] at hr
  exact .named hr (refersBy_iff.mpr ⟨c, hc, beq_iff_eq.mp hrefers⟩)

theorem covered_one (hc : (t, c) ∈ erasedColumns) :
  Schema.Statement.Covered (Erased db id) (Unlinked db id) (cleared now id db)
    (.delete t (refersTo c id))
  := ⟨falling_refersTo _, fun _ hr hrefers => erased_of_refersTo hc hr hrefers⟩

theorem covered_two (hc : (t, c) ∈ erasedColumns) (hc' : (t, c') ∈ erasedColumns) :
  Schema.Statement.Covered (Erased db id) (Unlinked db id) (cleared now id db)
    (.delete t fun r => refersTo c id r || refersTo c' id r)
  := by
  constructor
  · intro r r' hloses hrefers
    rcases Bool.or_eq_true_iff.mp hrefers with hrefers | hrefers
    · exact Bool.or_eq_true_iff.mpr (.inl (falling_refersTo _ r r' hloses hrefers))
    · exact Bool.or_eq_true_iff.mpr (.inr (falling_refersTo _ r r' hloses hrefers))
  · intro r hr hrefers
    rcases Bool.or_eq_true_iff.mp hrefers with hrefers | hrefers
    · exact erased_of_refersTo hc hr hrefers
    · exact erased_of_refersTo hc' hr hrefers

theorem covered_clear (hc : (t, c) ∈ unlinkedColumns) :
  Schema.Statement.Covered (Erased db id) (Unlinked db id) (cleared now id db)
    (.update t (refersTo c id) (·.clear c))
  := by
  constructor
  · apply falling_refersTo
  · intro r hrefers
    constructor
    · exact .clear (beq_iff_eq.mp hrefers) (.inl ⟨hc, rfl⟩)
    · simp [refersTo]

end Covered

/-- The statements after the first. -/
theorem covered_tail (now : DateTime) (id : Uuid) (db : Database Table Column Data) :
  ∀ statement ∈ (tombstoneStatements now id).tail,
    statement.Covered (Erased db id) (Unlinked db id) (cleared now id db)
  := by
  intro statement hstatement
  simp only [tombstoneStatements, clearContent, clearRelations, List.cons_append, List.nil_append,
    List.tail_cons, List.mem_cons, List.not_mem_nil, or_false] at hstatement
  rcases hstatement with rfl | rfl | rfl | rfl | rfl | rfl | rfl | rfl | rfl | rfl | rfl | rfl |
    rfl | rfl | rfl | rfl | rfl | rfl | rfl | rfl | rfl | rfl | rfl | rfl | rfl
  all_goals first
    | exact covered_one (by decide)
    | exact covered_two (by decide) (by decide)
    | exact covered_clear (by decide)

theorem refers_cleared {now : DateTime} {id : Uuid} {db : Database Table Column Data}
    (h : schema.Refers db) :
  schema.Refers (cleared now id db)
  := by
  intro fk hfk r hr key href
  rw [cleared_of_ne _ _ _ (sources_ne_actors fk hfk)] at hr
  obtain ⟨x, hx, hid⟩ := h fk hfk r hr key href
  by_cases ht : fk.target = .actors
  · obtain ⟨table, column, target, onDelete⟩ := fk
    obtain rfl : target = .actors := ht
    exact ⟨_, mem_cleared.mpr ⟨x, hx, rfl⟩, (id_clearRow now id x).trans hid⟩
  · rw [cleared_of_ne _ _ _ ht]
    exact ⟨x, hx, hid⟩

/-- What the transaction leaves: what is not deleted, without the references that are set to null,
and the row of the actor without its data. -/
structure Remains (now : DateTime) (id : Uuid) (db db' : Database Table Column Data) : Prop where
  old : ∀ t, t ≠ .actors → ∀ r' ∈ db' t, ∃ r ∈ db t, ¬ Erased db id t r.id ∧
    Schema.Loses (Unlinked db id) t r r'
  kept : ∀ t, t ≠ .actors → ∀ r ∈ db t, ¬ Erased db id t r.id →
    ∃ r' ∈ db' t, Schema.Loses (Unlinked db id) t r r'
  unlinked : ∀ t, ∀ r' ∈ db' t, ∀ c key, Unlinked db id t c key → r'.ref c ≠ some key
  actors : ∀ r', r' ∈ db' .actors ↔ r' ∈ cleared now id db .actors

/-- A row of an actor loses no reference. -/
theorem eq_of_loses_actors {db : Database Table Column Data} {id : Uuid}
    {r r' : Row Column (Data .actors)} (h : Schema.Loses (Unlinked db id) .actors r r') :
  r' = r
  := by
  apply h.unique (.refl r)
  rintro c key _ (⟨hmem, _⟩ | ⟨fk, hfk, htable, _⟩)
  · have hnone : ∀ c ∈ unlinkedColumns, c.1 ≠ .actors := by decide
    exact absurd rfl (hnone _ hmem)
  · exact absurd htable (sources_ne_actors fk hfk)

/-- Every column by which the transaction names what it deletes is in one of its statements. -/
theorem refersTo_of_done {now : DateTime} {id : Uuid} {db : Database Table Column Data}
    (hdone : ∀ statement ∈ (tombstoneStatements now id).tail, statement.Done db) {t : Table}
    {c : Column} (hc : (t, c) ∈ erasedColumns) :
  ∀ r ∈ db t, refersTo c id r = false
  := by
  have hone : ∀ {t : Table} {c : Column},
      .delete t (refersTo c id) ∈ (tombstoneStatements now id).tail →
        ∀ r ∈ db t, refersTo c id r = false :=
    fun hmem => hdone _ hmem
  have htwo : ∀ {t : Table} {c c' : Column},
      .delete t (fun r => refersTo c id r || refersTo c' id r) ∈
          (tombstoneStatements now id).tail →
        ∀ r ∈ db t, refersTo c id r = false ∧ refersTo c' id r = false :=
    fun hmem r hr => Bool.or_eq_false_iff.mp (hdone _ hmem r hr)
  simp only [tombstoneStatements, clearContent, clearRelations, List.cons_append, List.nil_append,
    List.tail_cons] at hone htwo
  have hfollows := @htwo .follows .followerId .followingId (by simp)
  have hblocks := @htwo .blocks .actorId .targetId (by simp)
  have hmutes := @htwo .mutes .actorId .targetId (by simp)
  have hevents := @htwo .events .actorId .organiserId (by simp)
  simp only [erasedColumns, List.mem_cons, Prod.mk.injEq, List.not_mem_nil, or_false] at hc
  rcases hc with ⟨rfl, rfl⟩ | ⟨rfl, rfl⟩ | ⟨rfl, rfl⟩ | ⟨rfl, rfl⟩ | ⟨rfl, rfl⟩ | ⟨rfl, rfl⟩ |
    ⟨rfl, rfl⟩ | ⟨rfl, rfl⟩ | ⟨rfl, rfl⟩ | ⟨rfl, rfl⟩ | ⟨rfl, rfl⟩ | ⟨rfl, rfl⟩ | ⟨rfl, rfl⟩ |
    ⟨rfl, rfl⟩ | ⟨rfl, rfl⟩ | ⟨rfl, rfl⟩ | ⟨rfl, rfl⟩ | ⟨rfl, rfl⟩ | ⟨rfl, rfl⟩ | ⟨rfl, rfl⟩ |
    ⟨rfl, rfl⟩ | ⟨rfl, rfl⟩ | ⟨rfl, rfl⟩ | ⟨rfl, rfl⟩ | ⟨rfl, rfl⟩ | ⟨rfl, rfl⟩
  all_goals first
    | exact fun r hr => (hfollows r hr).1
    | exact fun r hr => (hfollows r hr).2
    | exact fun r hr => (hblocks r hr).1
    | exact fun r hr => (hblocks r hr).2
    | exact fun r hr => (hmutes r hr).1
    | exact fun r hr => (hmutes r hr).2
    | exact fun r hr => (hevents r hr).1
    | exact fun r hr => (hevents r hr).2
    | exact hone (by simp)

/-- And every column that it sets to null. -/
theorem unlinked_of_done {now : DateTime} {id : Uuid} {db : Database Table Column Data}
    (hdone : ∀ statement ∈ (tombstoneStatements now id).tail, statement.Done db) {t : Table}
    {c : Column} (hc : (t, c) ∈ unlinkedColumns) :
  ∀ r ∈ db t, refersTo c id r = false
  := by
  have hclear : ∀ {t : Table} {c : Column},
      .update t (refersTo c id) (·.clear c) ∈ (tombstoneStatements now id).tail →
        ∀ r ∈ db t, refersTo c id r = false :=
    fun hmem => hdone _ hmem
  simp only [tombstoneStatements, clearContent, clearRelations, List.cons_append, List.nil_append,
    List.tail_cons] at hclear
  simp only [unlinkedColumns, List.mem_cons, Prod.mk.injEq, List.not_mem_nil, or_false] at hc
  rcases hc with ⟨rfl, rfl⟩ | ⟨rfl, rfl⟩ | ⟨rfl, rfl⟩
  all_goals exact hclear (by simp)

/-- A column by which something is set to null is none by which something is deleted. -/
theorem not_unlinked_of_erased {db : Database Table Column Data} {id key : Nat} {t : Table}
    {c : Column} (hc : (t, c) ∈ erasedColumns) :
  ¬ Unlinked db id t c key
  := by
  rintro (⟨hmem, _⟩ | ⟨fk, hfk, rfl, rfl, hsetNull, _⟩)
  · have hnone : ∀ c ∈ erasedColumns, c ∉ unlinkedColumns := by decide
    exact hnone _ hc hmem
  · have hnone : ∀ fk ∈ foreignKeys, fk.onDelete = .setNull →
        (fk.table, fk.column) ∉ erasedColumns := by decide
    exact hnone fk hfk hsetNull hc

/-- What cascades from what is deleted is not unlinked. -/
theorem not_unlinked_of_cascade {db : Database Table Column Data} {id key : Nat}
    {fk : ForeignKey Table Column} (hfk : fk ∈ foreignKeys) (hcascade : fk.onDelete = .cascade)
    (herased : Erased db id fk.target key) :
  ¬ Unlinked db id fk.table fk.column key
  := by
  rintro (⟨hmem, _⟩ | ⟨fk', hfk', htable, hcolumn, hsetNull, _⟩)
  · -- reports on an actor, of whom nothing is deleted
    have hactors : ∀ fk ∈ foreignKeys, fk.onDelete = .cascade →
        (fk.table, fk.column) ∈ unlinkedColumns → fk.target = .actors := by decide
    rw [hactors fk hfk hcascade hmem] at herased
    exact not_goes_actors erased_not_actors herased
  · have hone : ∀ fk ∈ foreignKeys,
        foreignKeys.find? (fun fk' => fk'.table = fk.table ∧ fk'.column = fk.column) = some fk := by
      decide +kernel
    have hsame := hone fk' hfk'
    rw [htable, hcolumn, hone fk hfk] at hsame
    obtain rfl := Option.some.inj hsame
    rw [hcascade] at hsetNull
    cases hsetNull

theorem remains_of_execAll {now : DateTime} {id : Uuid} {db db' : Database Table Column Data}
    (h : schema.Satisfies db) (hok : schema.execAll (tombstoneStatements now id) db = .ok db') :
  Remains now id db db'
  := by
  have hcovered := covered_tail now id db
  have hsplit : tombstoneStatements now id =
      .update .actors (·.id == id) (clearPersonalData now) :: (tombstoneStatements now id).tail :=
    rfl
  rw [hsplit, Schema.execAll] at hok
  split at hok
  · cases hok
  rename_i db₁ hfirst
  obtain rfl : db₁ = cleared now id db := Schema.update_ok hfirst
  have hclosed : schema.Closed (Erased db id) (cleared now id db) := by
    rw [← goes_cleared now]
    exact Schema.closed_goes _ _
  have hreleases : schema.Releases (Erased db id) (Unlinked db id) :=
    fun fk hfk hsetNull key herased => .inr ⟨fk, hfk, rfl, rfl, hsetNull, herased⟩
  obtain ⟨hreduces, hrefers, hdone⟩ := Schema.reduces_execAll hcovered hclosed hreleases (.refl _)
    (refers_cleared h.refers) hok
  -- nothing is left of what the statements name
  have hnamed : ∀ t, ∀ r ∈ db' t, refersBy erasedColumns id t r = false := by
    intro t r hr
    apply Bool.eq_false_iff.mpr
    intro hrefers
    obtain ⟨c, hmem, href⟩ := refersBy_iff.mp hrefers
    have hfalse := refersTo_of_done hdone hmem r hr
    rw [refersTo, href, beq_self_eq_true] at hfalse
    cases hfalse
  have hkeys : ∀ t, ((cleared now id db t).map (·.id)).Nodup := by
    intro t
    by_cases ht : t = .actors
    · subst ht
      have hids : ((cleared now id db .actors).map (·.id)) = (db .actors).map (·.id) := by
        rw [cleared, Function.update_self]
        exact List.map_map.trans (List.map_congr_left fun r _ => id_clearRow now id r)
      rw [hids]
      exact (h.intact .actors).keys
    · rw [cleared_of_ne _ _ _ ht]
      exact (h.intact t).keys
  have hgone : ∀ t, ∀ r' ∈ db' t, ¬ Erased db id t r'.id := by
    intro t r' hr' herased
    rw [← goes_cleared now] at herased
    refine Schema.gone_of_goes hkeys hreduces hrefers hnamed ?_ ?_ herased r' hr' rfl
    · intro t r r' hloses hp
      obtain ⟨c, hmem, href⟩ := refersBy_iff.mp hp
      rcases hloses.ref c with hsame | ⟨_, key, _, hlost⟩
      · exact refersBy_iff.mpr ⟨c, hmem, hsame.trans href⟩
      · exact absurd hlost (not_unlinked_of_erased hmem)
    · intro fk hfk hcascade key hgoes
      rw [goes_cleared] at hgoes
      exact not_unlinked_of_cascade hfk hcascade hgoes
  constructor
  · intro t ht r' hr'
    obtain ⟨r, hr, hloses⟩ := hreduces.old t r' hr'
    rw [cleared_of_ne _ _ _ ht] at hr
    refine ⟨r, hr, ?_, hloses⟩
    rw [← hloses.id]
    exact hgone t r' hr'
  · intro t ht r hr hkept
    apply hreduces.kept t r _ hkept
    rwa [cleared_of_ne _ _ _ ht]
  · rintro t r' hr' c key (⟨hmem, rfl⟩ | ⟨fk, hfk, rfl, rfl, hsetNull, herased⟩) href
    · have hfalse := unlinked_of_done hdone hmem r' hr'
      rw [refersTo, href, beq_self_eq_true] at hfalse
      cases hfalse
    · obtain ⟨x, hx, rfl⟩ := hrefers fk hfk r' hr' key href
      exact hgone _ x hx herased
  · intro r'
    constructor
    · intro hr'
      obtain ⟨r, hr, hloses⟩ := hreduces.old .actors r' hr'
      rw [eq_of_loses_actors hloses]
      exact hr
    · intro hr'
      obtain ⟨r, hr, hloses⟩ :=
        hreduces.kept .actors r' hr' (not_goes_actors erased_not_actors)
      rw [← eq_of_loses_actors hloses]
      exact hr

section OneRun

variable {now : DateTime} {id : Uuid} {db db' : Database Table Column Data}

theorem mem_cleared_iff {r : Actor} (hid : r.id ≠ id) :
  r ∈ cleared now id db .actors ↔ r ∈ db .actors
  := by
  rw [mem_cleared]
  constructor
  · rintro ⟨r₀, hr₀, rfl⟩
    rw [id_clearRow] at hid
    rwa [clearRow_of_ne now hid]
  · intro hr
    exact ⟨r, hr, clearRow_of_ne now hid⟩

/-- The row of the actor. -/
theorem mem_cleared_self {r' : Actor} (hid : r'.id = id) (hr' : r' ∈ cleared now id db .actors) :
  ∃ r : Actor, r ∈ db .actors ∧ r.id = id ∧ r' = clearPersonalData now r
  := by
  obtain ⟨r, hr, rfl⟩ := mem_cleared.mp hr'
  rw [id_clearRow] at hid
  exact ⟨r, hr, hid, clearRow_of_eq now hid⟩

/-- No row of another actor is lost. -/
theorem Remains.spares (h : Remains now id db db') :
  Spares id db db'
  := by
  constructor
  · intro t r hr howned hother
    by_cases ht : t = .actors
    · subst ht
      have hid : r.id ≠ id := fun hid => hother ⟨rfl, hid⟩
      exact ⟨r, (h.actors r).mpr ((mem_cleared_iff hid).mpr hr), .refl r⟩
    · exact h.kept t ht r hr fun herased => howned herased.owned
  · intro t r' hr'
    by_cases ht : t = .actors
    · subst ht
      obtain ⟨r, hr, rfl⟩ := mem_cleared.mp ((h.actors r').mp hr')
      exact ⟨r, hr, (id_clearRow now id r).symm⟩
    · obtain ⟨r, hr, _, hloses⟩ := h.old t ht r' hr'
      exact ⟨r, hr, hloses.id.symm⟩

/-- No reference of a row that is left is set to null, but those of reports. -/
theorem not_unlinked_of_left {t : Table} {r : Row Column (Data t)} (ht : t ≠ .reports)
    (hleft : refersBy leftColumns id t r = true) (c : Column) (key : Nat) :
  ¬ Unlinked db id t c key
  := by
  obtain ⟨column, hcolumn, _⟩ := refersBy_iff.mp hleft
  rintro (⟨hmem, _⟩ | ⟨fk, hfk, rfl, rfl, hsetNull, herased⟩)
  · have hnone : ∀ x ∈ leftColumns, x.1 ≠ .reports → ∀ y ∈ unlinkedColumns, y.1 ≠ x.1 := by decide
    exact hnone _ hcolumn ht _ hmem rfl
  · have hactors : ∀ fk ∈ foreignKeys, fk.onDelete = .setNull → ∀ x ∈ leftColumns,
        x.1 = fk.table → fk.target = .actors := by decide
    rw [hactors fk hfk hsetNull _ hcolumn rfl] at herased
    exact not_goes_actors erased_not_actors herased

/-- What is left of the actor is as it was. -/
theorem Remains.left_iff (h : Remains now id db db') {t : Table} (ht : t ≠ .reports)
    {r : Row Column (Data t)} (hleft : refersBy leftColumns id t r = true) :
  r ∈ db' t ↔ Left db id t r
  := by
  have hactors : t ≠ .actors := by
    rintro rfl
    obtain ⟨c, hmem, _⟩ := refersBy_iff.mp hleft
    have hnone : ∀ c ∈ leftColumns, c.1 ≠ .actors := by decide
    exact hnone _ hmem rfl
  constructor
  · intro hr
    obtain ⟨x, hx, herased, hloses⟩ := h.old t hactors r hr
    have hleft' : refersBy leftColumns id t x = true := by
      obtain ⟨c, hmem, href⟩ := refersBy_iff.mp hleft
      exact refersBy_iff.mpr ⟨c, hmem, hloses.some href⟩
    obtain rfl : r = x :=
      hloses.unique (.refl x) fun c key _ hlost =>
        absurd hlost (not_unlinked_of_left ht hleft' c key)
    exact ⟨hx, hleft, herased⟩
  · rintro ⟨hr, _, herased⟩
    obtain ⟨r', hr', hloses⟩ := h.kept t hactors r hr herased
    obtain rfl : r' = r :=
      hloses.unique (.refl r) fun c key _ hlost =>
        absurd hlost (not_unlinked_of_left ht hleft c key)
    exact hr'

/-- The columns that are left are those that the transaction does not clear. -/
theorem anonymous_clearPersonalData_iff {now now' : DateTime} {r r' : Actor} :
  (clearPersonalData now r).data.anonymous = (clearPersonalData now' r').data.anonymous ↔
    r.data.left = r'.data.left
  := by
  simp only [ActorData.anonymous, ActorData.left, clearPersonalData, ActorData.mk.injEq,
    Prod.mk.injEq, true_and]

end OneRun

/-! ### Two runs -/

section TwoRuns

variable {now₁ now₂ : DateTime} {id : Uuid} {db₁ db₂ db₁' db₂' : Database Table Column Data}

theorem Agree.symm (h : Agree id db₁ db₂) :
  Agree id db₂ db₁
  := ⟨fun t ht r => (h.tables t ht r).symm, fun r hr => (h.actors r hr).symm⟩

theorem SameLeft.symm (h : SameLeft id db₁ db₂) :
  SameLeft id db₂ db₁
  := ⟨fun t ht r => (h.rows t ht r).symm,
    fun r₁ hr₁ r₂ hr₂ hid₁ hid₂ => (h.columns r₂ hr₂ r₁ hr₁ hid₂ hid₁).symm⟩

/-- What is not deleted is in both databases. -/
theorem mem_of_not_erased (h₁ : schema.Satisfies db₁) (hagree : Agree id db₁ db₂)
    (hleft : SameLeft id db₁ db₂) {t : Table} (hactors : t ≠ .actors) (hreports : t ≠ .reports)
    {r : Row Column (Data t)} (hr : r ∈ db₁ t) (hkept : ¬ Erased db₁ id t r.id) :
  r ∈ db₂ t ∧ ¬ Erased db₂ id t r.id
  := by
  by_cases howned : Owned db₁ id t r.id
  · rcases howned.cases with herased | ⟨x, hx, hid, hrefers⟩
    · exact absurd herased hkept
    · obtain rfl := List.inj_on_of_nodup_map (h₁.intact t).keys hx hr hid
      obtain ⟨hr₂, _, hkept₂⟩ := (hleft.rows t hreports x).mp ⟨hx, hrefers, hkept⟩
      exact ⟨hr₂, hkept₂⟩
  · obtain ⟨hr₂, howned₂⟩ := (hagree.tables t hactors r).mp ⟨hr, howned⟩
    exact ⟨hr₂, fun herased => howned₂ herased.owned⟩

/-- A reference that a row loses in one database it loses in the other. -/
theorem unlinked_of_unlinked (h₂ : schema.Satisfies db₂) (hagree : Agree id db₁ db₂) {t : Table}
    {r : Row Column (Data t)} (hr : r ∈ db₂ t) {c : Column} {key : Nat}
    (href : r.ref c = some key) (h : Unlinked db₁ id t c key) :
  Unlinked db₂ id t c key
  := by
  rcases h with hmem | ⟨fk, hfk, rfl, rfl, hsetNull, herased⟩
  · exact .inl hmem
  · right
    refine ⟨fk, hfk, rfl, rfl, hsetNull, ?_⟩
    have hactors : fk.target ≠ .actors := by
      intro htarget
      rw [htarget] at herased
      exact not_goes_actors erased_not_actors herased
    obtain ⟨x, hx, rfl⟩ := h₂.refers fk hfk r hr key href
    by_cases howned : Owned db₂ id fk.target x.id
    · rcases howned.cases with herased₂ | ⟨y, _, _, hleft⟩
      · exact herased₂
      · -- nothing that is left is referred to
        obtain ⟨column, hmem, _⟩ := refersBy_iff.mp hleft
        have hnone : ∀ fk ∈ foreignKeys, ∀ c ∈ leftColumns, fk.target ≠ c.1 := by decide
        exact absurd rfl (hnone fk hfk _ hmem)
    · obtain ⟨_, howned₁⟩ := (hagree.tables _ hactors x).mpr ⟨hx, howned⟩
      exact absurd herased.owned howned₁

/-- What is left in one database is left in the other. -/
theorem mem_of_sameLeft (h₁ : schema.Satisfies db₁) (h₂ : schema.Satisfies db₂)
    (hagree : Agree id db₁ db₂) (hremains₁ : Remains now₁ id db₁ db₁')
    (hremains₂ : Remains now₂ id db₂ db₂') (hleft : SameLeft id db₁ db₂) {t : Table}
    (hactors : t ≠ .actors) (hreports : t ≠ .reports) {r' : Row Column (Data t)}
    (hr' : r' ∈ db₁' t) :
  r' ∈ db₂' t
  := by
  obtain ⟨r, hr, hkept, hloses₁⟩ := hremains₁.old t hactors r' hr'
  obtain ⟨hr₂, hkept₂⟩ := mem_of_not_erased h₁ hagree hleft hactors hreports hr hkept
  obtain ⟨r'', hr'', hloses₂⟩ := hremains₂.kept t hactors r hr₂ hkept₂
  -- in both it has lost the same references
  have hloses₂' : Schema.Loses (Unlinked db₁ id) t r r'' :=
    hloses₂.mono fun c key href hlost => unlinked_of_unlinked h₁ hagree.symm hr href hlost
  have hsame : r' = r'' := by
    apply hloses₁.unique hloses₂'
    intro c key href hlost
    have hlost₂ := unlinked_of_unlinked h₂ hagree hr₂ href hlost
    exact ⟨hloses₁.none href (hremains₁.unlinked t r' hr' c key hlost),
      hloses₂.none href (hremains₂.unlinked t r'' hr'' c key hlost₂)⟩
  rw [hsame]
  exact hr''

/-- Two databases that differ in the data of an actor become the same just when they do not differ
in what is left of it. -/
theorem same_iff (h₁ : schema.Satisfies db₁) (h₂ : schema.Satisfies db₂)
    (hagree : Agree id db₁ db₂) (hremains₁ : Remains now₁ id db₁ db₁')
    (hremains₂ : Remains now₂ id db₂ db₂') :
  Same id db₁' db₂' ↔ SameLeft id db₁ db₂
  := by
  constructor
  · intro hsame
    constructor
    · intro t ht r
      by_cases hrefers : refersBy leftColumns id t r = true
      · have hactors : t ≠ .actors := by
          rintro rfl
          obtain ⟨c, hmem, _⟩ := refersBy_iff.mp hrefers
          have hnone : ∀ c ∈ leftColumns, c.1 ≠ .actors := by decide
          exact hnone _ hmem rfl
        rw [← hremains₁.left_iff ht hrefers, ← hremains₂.left_iff ht hrefers]
        exact hsame.tables t hactors ht r
      · constructor
        · exact fun hleft => absurd hleft.2.1 hrefers
        · exact fun hleft => absurd hleft.2.1 hrefers
    · intro r₁ hr₁ r₂ hr₂ hid₁ hid₂
      have hr₁' := (hremains₁.actors (clearPersonalData now₁ r₁)).mpr
        (mem_cleared.mpr ⟨r₁, hr₁, clearRow_of_eq now₁ hid₁⟩)
      have hr₂' := (hremains₂.actors (clearPersonalData now₂ r₂)).mpr
        (mem_cleared.mpr ⟨r₂, hr₂, clearRow_of_eq now₂ hid₂⟩)
      exact anonymous_clearPersonalData_iff.mp (hsame.actor _ hr₁' _ hr₂' hid₁ hid₂)
  · intro hleft
    constructor
    · intro t hactors hreports r
      constructor
      · exact mem_of_sameLeft h₁ h₂ hagree hremains₁ hremains₂ hleft hactors hreports
      · exact mem_of_sameLeft h₂ h₁ hagree.symm hremains₂ hremains₁ hleft.symm hactors hreports
    · intro r hid
      calc
        _ ↔ r ∈ cleared now₁ id db₁ .actors := hremains₁.actors r
        _ ↔ r ∈ db₁ .actors := mem_cleared_iff hid
        _ ↔ r ∈ db₂ .actors := hagree.actors r hid
        _ ↔ r ∈ cleared now₂ id db₂ .actors := (mem_cleared_iff hid).symm
        _ ↔ _ := (hremains₂.actors r).symm
    · intro r₁' hr₁' r₂' hr₂' hid₁' hid₂'
      obtain ⟨r₁, hr₁, hid₁, rfl⟩ :=
        mem_cleared_self hid₁' ((hremains₁.actors r₁').mp hr₁')
      obtain ⟨r₂, hr₂, hid₂, rfl⟩ :=
        mem_cleared_self hid₂' ((hremains₂.actors r₂').mp hr₂')
      exact anonymous_clearPersonalData_iff.mpr (hleft.columns r₁ hr₁ r₂ hr₂ hid₁ hid₂)

end TwoRuns

/-- An erasure that succeeds runs its statements. -/
theorem execAll_of_tombstoneActor {describe : Violation Table → String} {now : DateTime}
    {actorId : Uuid} {db db' : Db} {actor : Actor}
    (hok : tombstoneActor describe now actorId db = (.ok actor, db')) :
  schema.execAll (tombstoneStatements now actorId) db.tables = .ok db'.tables
  := by
  rw [tombstoneActor] at hok
  split at hok
  · cases hok
  · dsimp only at hok
    split at hok
    · split at hok
      · cases hok
      · rename_i tables hexec
        cases hok
        exact hexec
    · cases hok

/-- After the erasure of an actor, two databases that differ in the data of the actor are the same,
and of other actors nothing is lost but references, just when what the erasure leaves of the actor
is the same. -/
theorem erasure_complete_iff (describe : Violation Table → String) (now₁ now₂ : DateTime)
    (actorId : Uuid) (db₁ db₂ db₁' db₂' : Db) (actor₁ actor₂ : Actor)
    (h₁ : schema.Satisfies db₁.tables) (h₂ : schema.Satisfies db₂.tables)
    (hagree : Agree actorId db₁.tables db₂.tables)
    (hok₁ : tombstoneActor describe now₁ actorId db₁ = (.ok actor₁, db₁'))
    (hok₂ : tombstoneActor describe now₂ actorId db₂ = (.ok actor₂, db₂')) :
  (Same actorId db₁'.tables db₂'.tables ∧ Spares actorId db₁.tables db₁'.tables ∧
      Spares actorId db₂.tables db₂'.tables) ↔
    SameLeft actorId db₁.tables db₂.tables
  := by
  have hremains₁ := remains_of_execAll h₁ (execAll_of_tombstoneActor hok₁)
  have hremains₂ := remains_of_execAll h₂ (execAll_of_tombstoneActor hok₂)
  rw [← same_iff h₁ h₂ hagree hremains₁ hremains₂]
  constructor
  · exact fun h => h.1
  · exact fun h => ⟨h, hremains₁.spares, hremains₂.spares⟩

/-- Actor 1 with some columns, skills and sessions, and another actor. -/
def account (data : ActorData) (skills sessions : List (Row Column Unit)) : Db where
  tables
    | .actors => [row 1 [] data, row 2 [] { apId := "b", isLocal := true }]
    | .skills => skills
    | .sessions => sessions
    | _ => []
  tombstonedActors := []

/-- Actor 1 has entered nothing. -/
def bare : Db :=
  account { apId := "a", isLocal := true } [] []

/-- Actor 1 has entered a headline and a skill. -/
def skilled : Db :=
  account { apId := "a", isLocal := true, headline := some "baker" } [row 3 [(.actorId, 1)] ()] []

/-- Actor 1 has entered an address, and is signed in. -/
def signedIn : Db :=
  account { apId := "a", isLocal := true, email := some "a@b" } [] [row 4 [(.actorId, 1)] ()]

theorem bare_satisfies :
  schema.Satisfies bare.tables
  := by
  apply satisfies_of_any
  · intro t
    cases t
    all_goals exact ⟨by decide, by decide, by decide⟩
  · decide

theorem skilled_satisfies :
  schema.Satisfies skilled.tables
  := by
  apply satisfies_of_any
  · intro t
    cases t
    all_goals exact ⟨by decide, by decide, by decide⟩
  · decide

theorem signedIn_satisfies :
  schema.Satisfies signedIn.tables
  := by
  apply satisfies_of_any
  · intro t
    cases t
    all_goals exact ⟨by decide, by decide, by decide⟩
  · decide

section Accounts

variable {data data' : ActorData} {skills sessions skills' sessions' : List (Row Column Unit)}

theorem owned_account (hrows : ∀ r ∈ skills ++ sessions, r.ref .actorId = some 1) {t : Table}
    (ht : t ≠ .actors) {r : Row Column (Data t)}
    (hr : r ∈ (account data skills sessions).tables t) :
  Owned (account data skills sessions).tables 1 t r.id
  := by
  apply Schema.Goes.named hr
  apply refersBy_iff.mpr
  use .actorId
  cases t with
  | actors => exact absurd rfl ht
  | skills => exact ⟨by decide, hrows r (List.mem_append_left _ hr)⟩
  | sessions => exact ⟨by decide, hrows r (List.mem_append_right _ hr)⟩
  | _ => cases hr

theorem agree_account (hrows : ∀ r ∈ skills ++ sessions, r.ref .actorId = some 1)
    (hrows' : ∀ r ∈ skills' ++ sessions', r.ref .actorId = some 1) :
  Agree 1 (account data skills sessions).tables (account data' skills' sessions').tables
  := by
  constructor
  · intro t ht r
    constructor
    · exact fun h => absurd (owned_account hrows ht h.1) h.2
    · exact fun h => absurd (owned_account hrows' ht h.1) h.2
  · intro r hid
    change r ∈ [row 1 [] data, _] ↔ r ∈ [row 1 [] data', _]
    rw [List.mem_cons, List.mem_cons]
    have hne : ∀ d, r ≠ row 1 [] d := by
      rintro d rfl
      exact hid rfl
    rw [or_iff_right (hne data), or_iff_right (hne data')]

end Accounts

/-- Of the address and the session of an actor who is signed in, neither is erased. -/
theorem erasure_incomplete :
  ∃ db₁' db₂' actor₁ actor₂,
    schema.Satisfies signedIn.tables ∧ schema.Satisfies bare.tables ∧
    Agree 1 signedIn.tables bare.tables ∧
    tombstoneActor (fun _ => "violation") 7 1 signedIn = (.ok actor₁, db₁') ∧
    tombstoneActor (fun _ => "violation") 7 1 bare = (.ok actor₂, db₂') ∧
    (∃ r ∈ db₁'.tables .actors, r.id = 1 ∧ (r.data : ActorData).email = some "a@b") ∧
    db₁'.tables .sessions ≠ [] ∧
    ¬ Same 1 db₁'.tables db₂'.tables
  := by
  refine ⟨_, _, _, _, signedIn_satisfies, bare_satisfies, agree_account ?_ ?_, rfl, rfl, ?_, ?_, ?_⟩
  · decide
  · decide
  · exact ⟨_, List.mem_cons_self, rfl, rfl⟩
  · exact List.cons_ne_nil _ _
  · intro hsame
    have hthere := (hsame.tables .sessions (by decide) (by decide) (row 4 [(.actorId, 1)] ())).mp
      List.mem_cons_self
    exact List.not_mem_nil hthere

/-- Of the headline and the skill of an actor nothing is left. -/
theorem erasure_complete_skilled :
  ∃ db₁' db₂' actor₁ actor₂,
    tombstoneActor (fun _ => "violation") 7 1 skilled = (.ok actor₁, db₁') ∧
    tombstoneActor (fun _ => "violation") 8 1 bare = (.ok actor₂, db₂') ∧
    Same 1 db₁'.tables db₂'.tables
  := by
  refine ⟨_, _, _, _, rfl, rfl, ?_⟩
  have hagree : Agree 1 skilled.tables bare.tables := agree_account (by decide) (by decide)
  apply ((erasure_complete_iff (fun _ => "violation") 7 8 1 skilled bare _ _ _ _ skilled_satisfies
    bare_satisfies hagree rfl rfl).mpr ?_).1
  constructor
  · intro t _ r
    have hnone : ∀ r ∈ skilled.tables t, refersBy leftColumns 1 t r = false := by
      cases t
      all_goals decide
    constructor
    · rintro ⟨hr, hleft, _⟩
      rw [hnone r hr] at hleft
      cases hleft
    · rintro ⟨hr, hleft, _⟩
      have hnone' : ∀ r ∈ bare.tables t, refersBy leftColumns 1 t r = false := by
        cases t
        all_goals decide
      rw [hnone' r hr] at hleft
      cases hleft
  · intro r₁ hr₁ r₂ hr₂ hid₁ hid₂
    change r₁ ∈ [row 1 [] _, row 2 [] _] at hr₁
    change r₂ ∈ [row 1 [] _, row 2 [] _] at hr₂
    simp only [List.mem_cons, List.not_mem_nil, or_false] at hr₁ hr₂
    obtain rfl | rfl := hr₁
    · obtain rfl | rfl := hr₂
      · rfl
      · cases hid₂
    · cases hid₁

end Erasure
