import Mathlib.Data.List.Basic
import Mathlib.Data.List.Nodup
import Mathlib.Data.List.Pairwise
import Mathlib.Logic.Function.Basic

/-!
# Tables with foreign keys

The statements of a relational database on tables whose rows refer to rows of other tables.
The deletion of a row fires, for each foreign key that refers to its table, an action on the
rows that refer to it: they are deleted too, or the reference is set to null, or the
deletion fails.  The actions for the rows that a statement deletes come in the order of the
foreign keys, before those for the rows that they delete.
-/

namespace Relational

/-- What the deletion of a row does to the rows that refer to it. -/
inductive OnDelete where
  | cascade
  | setNull
  | noAction
  deriving DecidableEq, Repr

structure ForeignKey (Table Column : Type) where
  table : Table
  column : Column
  target : Table
  onDelete : OnDelete
  deriving DecidableEq, Repr

/-- A row: its primary key, its references to other rows, and its other columns. -/
structure Row (Column Data : Type) where
  id : Nat
  ref : Column → Option Nat
  data : Data

/-- The constraints on tables.  Those of uniqueness are on columns that refer. -/
structure Schema (Table Column : Type) (Data : Table → Type) where
  /-- The foreign keys, in the order in which they are created. -/
  foreignKeys : List (ForeignKey Table Column)
  check : (t : Table) → Row Column (Data t) → Bool
  unique : Table → List (List Column)
  /-- How many rounds of deletions can follow the deletion of a row. -/
  depth : Table → Nat
  descends : ∀ fk ∈ foreignKeys, fk.onDelete = .cascade → depth fk.table < depth fk.target

/-- Why a statement fails. -/
inductive Violation (Table : Type) where
  | check (table : Table)
  | unique (table : Table)
  | foreignKey (table : Table)
  | unsettled
  deriving DecidableEq, Repr

/-- The rows of every table. -/
abbrev Database (Table Column : Type) (Data : Table → Type) : Type :=
  (t : Table) → List (Row Column (Data t))

section Rows

variable {Column Data : Type}

/-- Two rows have the same references, and no nulls, in some columns. -/
def clash (columns : List Column) (r r' : Row Column Data) : Bool :=
  columns.all fun c => (r.ref c).isSome && r.ref c == r'.ref c

/-- The second row has the key of the first, and its references or nulls. -/
def Row.Weakens (r r' : Row Column Data) : Prop :=
  r'.id = r.id ∧ ∀ c, r'.ref c = r.ref c ∨ r'.ref c = none

theorem Row.Weakens.refl (r : Row Column Data) :
  r.Weakens r
  := ⟨rfl, fun _ => .inl rfl⟩

/-- Rows that do not clash do not when references are lost. -/
theorem clash_of_weakens {columns : List Column} {r₁ r₂ r₁' r₂' : Row Column Data}
    (h₁ : r₁.Weakens r₁') (h₂ : r₂.Weakens r₂') (h : clash columns r₁ r₂ = false) :
  clash columns r₁' r₂' = false
  := by
  obtain ⟨c, hc, hne⟩ := List.all_eq_false.mp h
  apply List.all_eq_false.mpr
  use c, hc
  simp only [Bool.and_eq_true, beq_iff_eq, not_and] at hne ⊢
  intro hsome heq
  have hsome₂ : (r₂'.ref c).isSome := heq ▸ hsome
  obtain h₁ | h₁ := h₁.2 c
  · obtain h₂ | h₂ := h₂.2 c
    · rw [h₁] at hsome heq
      rw [h₂] at heq
      exact hne hsome heq
    · rw [h₂] at hsome₂
      cases hsome₂
  · rw [h₁] at hsome
    cases hsome

variable [DecidableEq Column]

/-- The row without its reference in a column. -/
def Row.clear (column : Column) (r : Row Column Data) : Row Column Data :=
  { r with ref := fun c => if c = column then none else r.ref c }

@[simp]
theorem Row.id_clear (column : Column) (r : Row Column Data) :
  (r.clear column).id = r.id
  := rfl

@[simp]
theorem Row.data_clear (column : Column) (r : Row Column Data) :
  (r.clear column).data = r.data
  := rfl

@[simp]
theorem Row.ref_clear_self (column : Column) (r : Row Column Data) :
  (r.clear column).ref column = none
  := if_pos rfl

@[simp]
theorem Row.ref_clear_of_ne {column c : Column} (h : c ≠ column) (r : Row Column Data) :
  (r.clear column).ref c = r.ref c
  := if_neg h

theorem Row.weakens_clear (column : Column) (r : Row Column Data) :
  r.Weakens (r.clear column)
  := by
  constructor
  · rfl
  · intro c
    by_cases h : c = column
    · right
      rw [h, r.ref_clear_self]
    · left
      exact r.ref_clear_of_ne h

end Rows

namespace Schema

variable {Table Column : Type} {Data : Table → Type} (s : Schema Table Column Data)

/-! ### Changes of rows -/

/-- No two rows of a table have the same references in columns that are unique. -/
def Distinct (t : Table) (rows : List (Row Column (Data t))) : Prop :=
  ∀ columns ∈ s.unique t, rows.Pairwise fun r r' => clash columns r r' = false

instance (t : Table) (rows : List (Row Column (Data t))) : Decidable (s.Distinct t rows) :=
  inferInstanceAs (Decidable (∀ columns ∈ s.unique t, _))

/-- Change the rows of a table that satisfy `p`. -/
def rewrite (t : Table) (p : Row Column (Data t) → Bool)
    (f : Row Column (Data t) → Row Column (Data t)) (rows : List (Row Column (Data t))) :
    Except (Violation Table) (List (Row Column (Data t))) :=
  let rewritten := rows.map fun r => if p r then f r else r
  if rows.all fun r => !p r || s.check t (f r) then
    if s.Distinct t rewritten then .ok rewritten else .error (.unique t)
  else .error (.check t)

/-! ### Constraints that hold -/

/-- The rows of a table have keys of their own and satisfy the constraints on the table. -/
structure Intact (t : Table) (rows : List (Row Column (Data t))) : Prop where
  keys : (rows.map (·.id)).Nodup
  checks : ∀ r ∈ rows, s.check t r = true
  distinct : s.Distinct t rows

/-- The rows of every table satisfy the constraints, and refer to rows that are there. -/
structure Satisfies (db : Database Table Column Data) : Prop where
  intact : ∀ t, s.Intact t (db t)
  refers : ∀ fk ∈ s.foreignKeys, ∀ r ∈ db fk.table, ∀ key, r.ref fk.column = some key →
    ∃ r' ∈ db fk.target, r'.id = key

section Rewriting

variable {s} {t : Table} {rows : List (Row Column (Data t))}

theorem Intact.filter (h : s.Intact t rows) (p : Row Column (Data t) → Bool) :
  s.Intact t (rows.filter p)
  := by
  constructor
  · exact h.keys.sublist (List.filter_sublist.map _)
  · intro r hr
    exact h.checks r (List.mem_of_mem_filter hr)
  · intro columns hcolumns
    exact (h.distinct columns hcolumns).filter _

/-- A change that keeps keys, references and the check of the rows that it changes succeeds. -/
theorem Intact.rewrite (h : s.Intact t rows) {p : Row Column (Data t) → Bool}
    {f : Row Column (Data t) → Row Column (Data t)} (hweakens : ∀ r, Row.Weakens r (f r))
    (hchecks : ∀ r ∈ rows, p r = true → s.check t (f r) = true) :
  s.rewrite t p f rows = .ok (rows.map fun r => if p r then f r else r) ∧
    s.Intact t (rows.map fun r => if p r then f r else r)
  := by
  have hchanged (r : Row Column (Data t)) : r.Weakens (if p r then f r else r) := by
    split
    · exact hweakens r
    · exact .refl r
  have hdistinct : s.Distinct t (rows.map fun r => if p r then f r else r) := by
    intro columns hcolumns
    apply List.pairwise_map.mpr
    apply (h.distinct columns hcolumns).imp
    intro r r' hclash
    exact clash_of_weakens (hchanged r) (hchanged r') hclash
  constructor
  · rw [Schema.rewrite, if_pos, if_pos hdistinct]
    apply List.all_eq_true.mpr
    intro r hr
    cases hp : p r with
    | false => rfl
    | true => simpa using hchecks r hr hp
  · constructor
    · have hkeys : (rows.map fun r => if p r then f r else r).map (·.id) = rows.map (·.id) := by
        rw [List.map_map]
        apply List.map_congr_left
        intro r _
        exact (hchanged r).1
      rw [hkeys]
      exact h.keys
    · intro r' hr'
      obtain ⟨r, hr, rfl⟩ := List.mem_map.mp hr'
      split
      · rename_i hp
        exact hchecks r hr hp
      · exact h.checks r hr
    · exact hdistinct

/-- A change that fails a check fails. -/
theorem rewrite_of_check {p : Row Column (Data t) → Bool}
    {f : Row Column (Data t) → Row Column (Data t)} {r : Row Column (Data t)} (hr : r ∈ rows)
    (hp : p r = true) (hcheck : s.check t (f r) = false) :
  s.rewrite t p f rows = .error (.check t)
  := by
  rw [Schema.rewrite, if_neg]
  intro hall
  have hchecks := List.all_eq_true.mp hall r hr
  simp [hp, hcheck] at hchecks

end Rewriting

/-! ### The actions on the rows of a table -/

variable [DecidableEq Column]

/-- The action of a foreign key of a table on its rows, for the deletion of the row that has
the given key: the rows that are left, and the keys of those that are deleted. -/
def fireRows (t : Table) (column : Column) (onDelete : OnDelete) (key : Nat)
    (rows : List (Row Column (Data t))) :
    Except (Violation Table) (List (Row Column (Data t)) × List Nat) :=
  match onDelete with
  | .cascade =>
      .ok (rows.filter fun r => r.ref column != some key,
        (rows.filter fun r => r.ref column == some key).map (·.id))
  | .setNull =>
      (s.rewrite t (fun r => r.ref column == some key) (·.clear column) rows).map (·, [])
  | .noAction =>
      if rows.any fun r => r.ref column == some key then .error (.foreignKey t)
      else .ok (rows, [])

/-- Whether the action of a foreign key on a row that refers to a deleted one succeeds. -/
def Yields (t : Table) (column : Column) (onDelete : OnDelete) (r : Row Column (Data t)) : Prop :=
  match onDelete with
  | .cascade => True
  | .setNull => s.check t (r.clear column) = true
  | .noAction => False

/-- Whether the action of a foreign key succeeds on every row that satisfies the constraints. -/
def Harmless (t : Table) (column : Column) (onDelete : OnDelete) : Prop :=
  ∀ r, s.check t r = true → s.Yields t column onDelete r

/-- The rows that the action of a foreign key leaves. -/
def left (column : Column) (onDelete : OnDelete) (key : Nat) {D : Type}
    (rows : List (Row Column D)) : List (Row Column D) :=
  match onDelete with
  | .cascade => rows.filter fun r => r.ref column != some key
  | .setNull => rows.map fun r => if r.ref column == some key then r.clear column else r
  | .noAction => rows

section Actions

variable {s} {t : Table} {rows : List (Row Column (Data t))} {column : Column}
  {onDelete : OnDelete} {key : Nat}

/-- An action succeeds if it does on every row that refers to the deleted one, and keeps the
constraints. -/
theorem fireRows_of_yields (h : s.Intact t rows)
    (hyields : ∀ r ∈ rows, r.ref column = some key → s.Yields t column onDelete r) :
  s.Intact t (left column onDelete key rows) ∧
    ∃ gone, s.fireRows t column onDelete key rows = .ok (left column onDelete key rows, gone) ∧
      (onDelete ≠ .cascade → gone = [])
  := by
  cases onDelete with
  | cascade =>
      constructor
      · exact h.filter _
      · exact ⟨_, rfl, fun hne => absurd rfl hne⟩
  | setNull =>
      obtain ⟨hok, hintact⟩ := h.rewrite (p := fun r => r.ref column == some key)
        (Row.weakens_clear column) (fun r hr hp => hyields r hr (beq_iff_eq.mp hp))
      constructor
      · exact hintact
      · use []
        rw [fireRows, hok]
        exact ⟨rfl, fun _ => rfl⟩
  | noAction =>
      have hnone : ¬ (rows.any fun r => r.ref column == some key) = true := by
        intro hany
        obtain ⟨r, hr, href⟩ := List.any_eq_true.mp hany
        exact hyields r hr (beq_iff_eq.mp href)
      constructor
      · exact h
      · use []
        rw [fireRows, if_neg hnone]
        exact ⟨rfl, fun _ => rfl⟩

/-- An action fails if it does on one row. -/
theorem fireRows_of_not_yields {r : Row Column (Data t)} (hr : r ∈ rows)
    (href : r.ref column = some key) (hnot : ¬ s.Yields t column onDelete r) :
  ∃ e, s.fireRows t column onDelete key rows = .error e
  := by
  cases onDelete with
  | cascade => exact absurd trivial hnot
  | setNull =>
      use .check t
      have hcheck : s.check t (r.clear column) = false := by
        simpa [Yields] using hnot
      rw [fireRows, rewrite_of_check (p := fun r => r.ref column == some key) hr
        (beq_iff_eq.mpr href) hcheck]
      rfl
  | noAction =>
      use .foreignKey t
      rw [fireRows, if_pos]
      exact List.any_eq_true.mpr ⟨r, hr, beq_iff_eq.mpr href⟩

/-- A row that does not refer to the deleted one is left. -/
theorem mem_left_of_ref_ne (onDelete : OnDelete) {r : Row Column (Data t)} (hr : r ∈ rows)
    (href : r.ref column ≠ some key) :
  r ∈ left column onDelete key rows
  := by
  have hfalse : (r.ref column == some key) = false := by simpa using href
  cases onDelete with
  | cascade => exact List.mem_filter.mpr ⟨hr, by simpa using href⟩
  | setNull => exact List.mem_map.mpr ⟨r, hr, by rw [hfalse]; rfl⟩
  | noAction => exact hr

/-- A row that an action leaves is as it was, unless references are set to null. -/
theorem mem_of_mem_left {r : Row Column (Data t)} (hr : r ∈ left column onDelete key rows)
    (hne : onDelete ≠ .setNull) :
  r ∈ rows
  := by
  cases onDelete with
  | cascade => exact List.mem_of_mem_filter hr
  | setNull => exact absurd rfl hne
  | noAction => exact hr

end Actions

/-- Whether the actions of the foreign keys of a table succeed on its rows, in turn. -/
def Passes (t : Table) (key : Nat) :
    List (Column × OnDelete) → List (Row Column (Data t)) → Prop
  | [], _ => True
  | (column, onDelete) :: rest, rows =>
      (∀ r ∈ rows, r.ref column = some key → s.Yields t column onDelete r) ∧
        Passes t key rest (left column onDelete key rows)

/-- Actions that are harmless succeed. -/
theorem Intact.passes {s : Schema Table Column Data} {t : Table}
    {rows : List (Row Column (Data t))} (h : s.Intact t rows) (key : Nat)
    {columns : List (Column × OnDelete)}
    (hharmless : ∀ c ∈ columns, s.Harmless t c.1 c.2) :
  s.Passes t key columns rows
  := by
  induction columns generalizing rows with
  | nil => trivial
  | cons c columns ih =>
      obtain ⟨column, onDelete⟩ := c
      have hyields : ∀ r ∈ rows, r.ref column = some key → s.Yields t column onDelete r :=
        fun r hr _ => hharmless _ List.mem_cons_self r (h.checks r hr)
      obtain ⟨hleft, _⟩ := fireRows_of_yields h hyields
      constructor
      · exact hyields
      · apply ih hleft
        intro c hc
        exact hharmless c (List.mem_cons_of_mem _ hc)

/-! ### Statements -/

variable [DecidableEq Table]

/-- The action of a foreign key for the deletion of a row. -/
def fire (fk : ForeignKey Table Column) (key : Nat) (db : Database Table Column Data) :
    Except (Violation Table) (Database Table Column Data × List (Table × Nat)) :=
  match s.fireRows fk.table fk.column fk.onDelete key (db fk.table) with
  | .error e => .error e
  | .ok (rows, gone) => .ok (Function.update db fk.table rows, gone.map (fk.table, ·))

/-- The given actions, in turn. -/
def fireAll : List (ForeignKey Table Column × Nat) → Database Table Column Data →
    Except (Violation Table) (Database Table Column Data × List (Table × Nat))
  | [], db => .ok (db, [])
  | (fk, key) :: events, db =>
      match s.fire fk key db with
      | .error e => .error e
      | .ok (db, gone) =>
          match fireAll events db with
          | .error e => .error e
          | .ok (db, more) => .ok (db, gone ++ more)

/-- The actions for the deletion of some rows. -/
def events (deleted : List (Table × Nat)) : List (ForeignKey Table Column × Nat) :=
  deleted.flatMap fun (t, key) => (s.foreignKeys.filter (·.target = t)).map (·, key)

/-- The actions for the deletion of some rows, those for the rows that they delete, and so
on, in a number of rounds. -/
def settle : Nat → List (Table × Nat) → Database Table Column Data →
    Except (Violation Table) (Database Table Column Data)
  | _, [], db => .ok db
  | 0, _ :: _, _ => .error .unsettled
  | n + 1, row :: deleted, db =>
      match s.fireAll (s.events (row :: deleted)) db with
      | .error e => .error e
      | .ok (db, gone) => settle n gone db

/-- Delete the rows of a table that satisfy `p`. -/
def delete (t : Table) (p : Row Column (Data t) → Bool) (db : Database Table Column Data) :
    Except (Violation Table) (Database Table Column Data) :=
  s.settle (s.depth t + 1) (((db t).filter p).map fun r => (t, r.id))
    (Function.update db t ((db t).filter fun r => !p r))

/-- Change the rows of a table that satisfy `p`. -/
def update (t : Table) (p : Row Column (Data t) → Bool)
    (f : Row Column (Data t) → Row Column (Data t)) (db : Database Table Column Data) :
    Except (Violation Table) (Database Table Column Data) :=
  match s.rewrite t p f (db t) with
  | .error e => .error e
  | .ok rows => .ok (Function.update db t rows)

/-! ### The actions on the tables -/

/-- The foreign keys of a table, among some. -/
def columnsOf (foreignKeys : List (ForeignKey Table Column)) (t : Table) :
    List (Column × OnDelete) :=
  (foreignKeys.filter (·.table = t)).map fun fk => (fk.column, fk.onDelete)

section Tables

variable {s} {db db' : Database Table Column Data} {key : Nat}

/-- An action on a table of a database that satisfies the constraints of every table. -/
theorem fire_of_yields (h : ∀ t, s.Intact t (db t)) {fk : ForeignKey Table Column}
    (hyields : ∀ r ∈ db fk.table, r.ref fk.column = some key →
      s.Yields fk.table fk.column fk.onDelete r) :
  (∀ t, s.Intact t (Function.update db fk.table
    (left fk.column fk.onDelete key (db fk.table)) t)) ∧
  ∃ gone, s.fire fk key db =
      .ok (Function.update db fk.table (left fk.column fk.onDelete key (db fk.table)), gone) ∧
    ∀ x ∈ gone, x.1 = fk.table ∧ fk.onDelete = .cascade
  := by
  obtain ⟨hintact, gone, hfire, hgone⟩ := fireRows_of_yields (h fk.table) hyields
  constructor
  · intro t
    by_cases ht : t = fk.table
    · subst ht
      rw [Function.update_self]
      exact hintact
    · rw [Function.update_of_ne ht]
      exact h t
  · use gone.map (fk.table, ·)
    constructor
    · rw [fire, hfire]
    · intro x hx
      obtain ⟨id, hid, rfl⟩ := List.mem_map.mp hx
      constructor
      · rfl
      · by_contra hne
        rw [hgone hne] at hid
        cases hid

/-- The actions for the deletion of one row succeed just when they do on every table. -/
theorem fireAll_ok_iff (h : ∀ t, s.Intact t (db t))
    (foreignKeys : List (ForeignKey Table Column)) :
  (∃ result, s.fireAll (foreignKeys.map (·, key)) db = .ok result) ↔
    ∀ t, s.Passes t key (columnsOf foreignKeys t) (db t)
  := by
  induction foreignKeys generalizing db with
  | nil =>
      constructor
      · intro _ t
        trivial
      · intro _
        exact ⟨_, rfl⟩
  | cons fk foreignKeys ih =>
      have hcolumns : columnsOf (fk :: foreignKeys) fk.table =
          (fk.column, fk.onDelete) :: columnsOf foreignKeys fk.table := by
        simp [columnsOf]
      have hothers : ∀ t, t ≠ fk.table →
          columnsOf (fk :: foreignKeys) t = columnsOf foreignKeys t := by
        intro t ht
        simp [columnsOf, Ne.symm ht]
      by_cases hyields : ∀ r ∈ db fk.table, r.ref fk.column = some key →
          s.Yields fk.table fk.column fk.onDelete r
      · obtain ⟨hintact, gone, hfire, _⟩ := fire_of_yields h hyields
        have hrest : (∃ result, s.fireAll ((fk :: foreignKeys).map (·, key)) db = .ok result) ↔
            ∃ result, s.fireAll (foreignKeys.map (·, key)) (Function.update db fk.table
              (left fk.column fk.onDelete key (db fk.table))) = .ok result := by
          rw [List.map_cons, fireAll, hfire]
          cases hall : s.fireAll (foreignKeys.map (·, key)) (Function.update db fk.table
            (left fk.column fk.onDelete key (db fk.table))) with
          | error e => simp [hall]
          | ok result => simp [hall]
        rw [hrest, ih hintact]
        apply forall_congr'
        intro t
        by_cases ht : t = fk.table
        · subst ht
          rw [hcolumns, Function.update_self, Passes]
          exact (and_iff_right hyields).symm
        · rw [hothers t ht, Function.update_of_ne ht]
      · constructor
        · rintro ⟨result, hok⟩
          simp only [not_forall] at hyields
          obtain ⟨r, hr, href, hnot⟩ := hyields
          obtain ⟨e, hfails⟩ := fireRows_of_not_yields hr href hnot
          rw [List.map_cons, fireAll, fire, hfails] at hok
          cases hok
        · intro hpasses
          have hfirst := hpasses fk.table
          rw [hcolumns] at hfirst
          exact absurd hfirst.1 hyields

/-- An action that succeeds does so on every row that refers to the deleted one. -/
theorem yields_of_fire {fk : ForeignKey Table Column} {result}
    (hok : s.fire fk key db = .ok result) :
  ∀ r ∈ db fk.table, r.ref fk.column = some key → s.Yields fk.table fk.column fk.onDelete r
  := by
  intro r hr href
  by_contra hnot
  obtain ⟨e, hfails⟩ := fireRows_of_not_yields hr href hnot
  rw [fire, hfails] at hok
  cases hok

/-- Actions that succeed keep the constraints, and what they delete is deleted by cascades. -/
theorem fireAll_spec {events : List (ForeignKey Table Column × Nat)} {gone : List (Table × Nat)}
    (h : ∀ t, s.Intact t (db t)) (hok : s.fireAll events db = .ok (db', gone)) :
  (∀ t, s.Intact t (db' t)) ∧
    ∀ x ∈ gone, ∃ event ∈ events, x.1 = event.1.table ∧ event.1.onDelete = .cascade
  := by
  induction events generalizing db gone with
  | nil =>
      cases hok
      constructor
      · exact h
      · intro x hx
        cases hx
  | cons event events ih =>
      obtain ⟨fk, key⟩ := event
      rw [fireAll] at hok
      cases hfirst : s.fire fk key db with
      | error e =>
          rw [hfirst] at hok
          cases hok
      | ok result =>
          obtain ⟨hintact, gone₁, hfire, hgone₁⟩ := fire_of_yields h (yields_of_fire hfirst)
          rw [hfire] at hok
          simp only at hok
          cases hrest : s.fireAll events (Function.update db fk.table
              (left fk.column fk.onDelete key (db fk.table))) with
          | error e => simp [hrest] at hok
          | ok result =>
              obtain ⟨db₂, gone₂⟩ := result
              simp only [hrest, Except.ok.injEq, Prod.mk.injEq] at hok
              obtain ⟨rfl, rfl⟩ := hok
              obtain ⟨hintact₂, hgone₂⟩ := ih hintact hrest
              constructor
              · exact hintact₂
              · intro x hx
                obtain hx | hx := List.mem_append.mp hx
                · exact ⟨(fk, key), List.mem_cons_self, hgone₁ x hx⟩
                · obtain ⟨event, hevent, hspec⟩ := hgone₂ x hx
                  exact ⟨event, List.mem_cons_of_mem _ hevent, hspec⟩

end Tables

/-! ### Deletions that reach no row of a table -/

/-- The deletion of rows of other tables than one cannot fail, and cannot reach that table. -/
structure Tame (a : Table) : Prop where
  harmless : ∀ fk ∈ s.foreignKeys, fk.target ≠ a → s.Harmless fk.table fk.column fk.onDelete
  source : ∀ fk ∈ s.foreignKeys, fk.table ≠ a

/-- What the deletion of rows of other tables than `a` can do to rows that it does not name. -/
structure Trims (a : Table) (db db' : Database Table Column Data) : Prop where
  /-- Rows that refer to no row of those tables are kept. -/
  kept : ∀ t, ∀ r ∈ db t, (∀ fk ∈ s.foreignKeys, fk.table = t → fk.target ≠ a →
    r.ref fk.column = none) → r ∈ db' t
  /-- Rows change only where references to those tables are set to null. -/
  old : ∀ t, (∀ fk ∈ s.foreignKeys, fk.table = t → fk.target ≠ a → fk.onDelete ≠ .setNull) →
    ∀ r ∈ db' t, r ∈ db t

section Tame

variable {s} {a : Table} {db db' db'' : Database Table Column Data}

omit [DecidableEq Column] [DecidableEq Table] in
theorem Trims.refl (db : Database Table Column Data) :
  s.Trims a db db
  := ⟨fun _ _ hr _ => hr, fun _ _ _ hr => hr⟩

omit [DecidableEq Column] [DecidableEq Table] in
theorem Trims.trans (h : s.Trims a db db') (h' : s.Trims a db' db'') :
  s.Trims a db db''
  := by
  constructor
  · intro t r hr hrefs
    exact h'.kept t r (h.kept t r hr hrefs) hrefs
  · intro t hcascades r hr
    exact h.old t hcascades r (h'.old t hcascades r hr)

/-- An action of a foreign key to another table than `a`. -/
theorem trims_left {fk : ForeignKey Table Column} (hfk : fk ∈ s.foreignKeys)
    (htarget : fk.target ≠ a) (key : Nat) :
  s.Trims a db (Function.update db fk.table (left fk.column fk.onDelete key (db fk.table)))
  := by
  constructor
  · intro t r hr hrefs
    by_cases ht : t = fk.table
    · subst ht
      rw [Function.update_self]
      apply mem_left_of_ref_ne fk.onDelete hr
      rw [hrefs fk hfk rfl htarget]
      simp
    · rw [Function.update_of_ne ht]
      exact hr
  · intro t hcascades r hr
    by_cases ht : t = fk.table
    · subst ht
      rw [Function.update_self] at hr
      exact mem_of_mem_left hr (hcascades fk hfk rfl htarget)
    · rw [Function.update_of_ne ht] at hr
      exact hr

/-- Actions of foreign keys to other tables than `a` succeed. -/
theorem Tame.fireAll (hs : s.Tame a) {events : List (ForeignKey Table Column × Nat)}
    (hevents : ∀ event ∈ events, event.1 ∈ s.foreignKeys ∧ event.1.target ≠ a)
    (h : ∀ t, s.Intact t (db t)) :
  ∃ db' gone, s.fireAll events db = .ok (db', gone) ∧ s.Trims a db db'
  := by
  induction events generalizing db with
  | nil => exact ⟨db, [], rfl, .refl db⟩
  | cons event events ih =>
      obtain ⟨fk, key⟩ := event
      obtain ⟨hfk, htarget⟩ := hevents (fk, key) List.mem_cons_self
      have hyields : ∀ r ∈ db fk.table, r.ref fk.column = some key →
          s.Yields fk.table fk.column fk.onDelete r :=
        fun r hr _ => hs.harmless fk hfk htarget r ((h fk.table).checks r hr)
      obtain ⟨hintact, gone, hfire, _⟩ := fire_of_yields h hyields
      obtain ⟨db', more, hrest, htrims⟩ :=
        ih (fun event hevent => hevents event (List.mem_cons_of_mem _ hevent)) hintact
      use db', gone ++ more
      constructor
      · rw [Schema.fireAll, hfire]
        simp only [hrest]
      · exact (trims_left hfk htarget key).trans htrims

omit [DecidableEq Column] in
/-- The actions for rows of other tables than `a` are of foreign keys to these. -/
theorem mem_events {deleted : List (Table × Nat)} {event : ForeignKey Table Column × Nat}
    (h : event ∈ s.events deleted) :
  event.1 ∈ s.foreignKeys ∧ ∃ x ∈ deleted, event.1.target = x.1
  := by
  obtain ⟨x, hx, hevent⟩ := List.mem_flatMap.mp h
  obtain ⟨fk, hfk, rfl⟩ := List.mem_map.mp hevent
  obtain ⟨hmem, htarget⟩ := List.mem_filter.mp hfk
  exact ⟨hmem, x, hx, of_decide_eq_true htarget⟩

/-- The deletion of rows of other tables than `a` settles in as many rounds as their tables
are deep. -/
theorem Tame.settle (hs : s.Tame a) {n : Nat} {deleted : List (Table × Nat)}
    (hdeleted : ∀ x ∈ deleted, x.1 ≠ a ∧ s.depth x.1 < n) (h : ∀ t, s.Intact t (db t)) :
  ∃ db', s.settle n deleted db = .ok db' ∧ (∀ t, s.Intact t (db' t)) ∧ s.Trims a db db'
  := by
  induction n generalizing deleted db with
  | zero =>
      cases deleted with
      | nil => exact ⟨db, rfl, h, .refl db⟩
      | cons x deleted => exact absurd (hdeleted x List.mem_cons_self).2 (Nat.not_lt_zero _)
  | succ n ih =>
      cases deleted with
      | nil => exact ⟨db, rfl, h, .refl db⟩
      | cons x deleted =>
          have hevents : ∀ event ∈ s.events (x :: deleted),
              event.1 ∈ s.foreignKeys ∧ event.1.target ≠ a := by
            intro event hevent
            obtain ⟨hfk, y, hy, htarget⟩ := mem_events hevent
            exact ⟨hfk, htarget ▸ (hdeleted y hy).1⟩
          obtain ⟨db₁, gone, hfires, htrims⟩ := hs.fireAll hevents h
          obtain ⟨hintact, hgone⟩ := fireAll_spec h hfires
          have hnext : ∀ y ∈ gone, y.1 ≠ a ∧ s.depth y.1 < n := by
            intro y hy
            obtain ⟨event, hevent, htable, hcascade⟩ := hgone y hy
            obtain ⟨hfk, z, hz, htarget⟩ := mem_events hevent
            have hlower := s.descends event.1 hfk hcascade
            have hdepth := (hdeleted z hz).2
            rw [htarget] at hlower
            rw [htable]
            exact ⟨hs.source event.1 hfk, by omega⟩
          obtain ⟨db₂, hsettles, hintact₂, htrims₂⟩ := ih hnext hintact
          use db₂
          rw [Schema.settle, hfires]
          exact ⟨hsettles, hintact₂, htrims.trans htrims₂⟩

omit [DecidableEq Column] in
/-- The rows of a table without those that satisfy `p`. -/
theorem intact_update_filter (h : ∀ t, s.Intact t (db t)) (t : Table)
    (p : Row Column (Data t) → Bool) :
  ∀ t', s.Intact t' (Function.update db t ((db t).filter p) t')
  := by
  intro t'
  by_cases ht : t' = t
  · subst ht
    rw [Function.update_self]
    exact (h t').filter p
  · rw [Function.update_of_ne ht]
    exact h t'

/-- The deletion of rows of another table than `a` succeeds. -/
theorem Tame.delete (hs : s.Tame a) (h : ∀ t, s.Intact t (db t)) {t : Table} (ht : t ≠ a)
    (p : Row Column (Data t) → Bool) :
  ∃ db', s.delete t p db = .ok db' ∧ (∀ t, s.Intact t (db' t)) ∧
    s.Trims a (Function.update db t ((db t).filter fun r => !p r)) db'
  := by
  apply hs.settle
  · intro x hx
    obtain ⟨r, _, rfl⟩ := List.mem_map.mp hx
    exact ⟨ht, Nat.lt_succ_self _⟩
  · exact intact_update_filter h t _

/-- The deletion of one row of `a` succeeds just when the actions on every table do. -/
theorem Tame.delete_ok_iff (hs : s.Tame a) (h : ∀ t, s.Intact t (db t))
    {p : Row Column (Data a) → Bool} {r : Row Column (Data a)} (hp : (db a).filter p = [r]) :
  (∃ db', s.delete a p db = .ok db') ↔
    ∀ t, t ≠ a →
      s.Passes t r.id (columnsOf (s.foreignKeys.filter (·.target = a)) t) (db t)
  := by
  have hrest := intact_update_filter h a fun r => !p r
  have hevents : s.events [(a, r.id)] =
      (s.foreignKeys.filter (·.target = a)).map (·, r.id) := by
    simp [events]
  have hpasses : (∀ t, s.Passes t r.id (columnsOf (s.foreignKeys.filter (·.target = a)) t)
        (Function.update db a ((db a).filter fun r => !p r) t)) ↔
      ∀ t, t ≠ a →
        s.Passes t r.id (columnsOf (s.foreignKeys.filter (·.target = a)) t) (db t) := by
    constructor
    · intro hall t ht
      have hthere := hall t
      rwa [Function.update_of_ne ht] at hthere
    · intro hall t
      by_cases ht : t = a
      · -- No foreign key is of the table `a` itself.
        have hnone : columnsOf (s.foreignKeys.filter (·.target = a)) t = [] := by
          rw [columnsOf, List.map_eq_nil_iff, List.filter_eq_nil_iff]
          intro fk hfk
          have hsource := hs.source fk (List.mem_of_mem_filter hfk)
          simpa [ht] using hsource
        rw [hnone]
        trivial
      · rw [Function.update_of_ne ht]
        exact hall t ht
  rw [Schema.delete, hp, List.map_cons, List.map_nil, Schema.settle, hevents, ← hpasses,
    ← fireAll_ok_iff hrest]
  constructor
  · rintro ⟨db', hok⟩
    cases hfires : s.fireAll ((s.foreignKeys.filter (·.target = a)).map (·, r.id))
        (Function.update db a ((db a).filter fun r => !p r)) with
    | error e =>
        rw [hfires] at hok
        cases hok
    | ok result => exact ⟨result, rfl⟩
  · rintro ⟨⟨db₁, gone⟩, hfires⟩
    obtain ⟨hintact, hgone⟩ := fireAll_spec hrest hfires
    have hnext : ∀ x ∈ gone, x.1 ≠ a ∧ s.depth x.1 < s.depth a := by
      intro x hx
      obtain ⟨event, hevent, htable, hcascade⟩ := hgone x hx
      obtain ⟨fk, hfk, rfl⟩ := List.mem_map.mp hevent
      obtain ⟨hmem, htarget⟩ := List.mem_filter.mp hfk
      have hlower := s.descends fk hmem hcascade
      rw [of_decide_eq_true htarget] at hlower
      rw [htable]
      exact ⟨hs.source fk hmem, hlower⟩
    obtain ⟨db₂, hsettles, _⟩ := hs.settle hnext hintact
    use db₂
    rw [hfires]
    exact hsettles

end Tame

/-! ### Sequences of statements -/

/-- A statement that deletes or changes the rows of a table that satisfy `p`. -/
inductive Statement (Table Column : Type) (Data : Table → Type) where
  | delete (t : Table) (p : Row Column (Data t) → Bool)
  | update (t : Table) (p : Row Column (Data t) → Bool)
      (f : Row Column (Data t) → Row Column (Data t))

/-- Execute a statement. -/
def exec : Statement Table Column Data → Database Table Column Data →
    Except (Violation Table) (Database Table Column Data)
  | .delete t p => s.delete t p
  | .update t p f => s.update t p f

/-- Execute statements in turn, up to the first that fails. -/
def execAll : List (Statement Table Column Data) → Database Table Column Data →
    Except (Violation Table) (Database Table Column Data)
  | [], db => .ok db
  | statement :: statements, db =>
      match s.exec statement db with
      | .error e => .error e
      | .ok db => execAll statements db

/-- A statement that cannot fail, and can delete no row of `a`. -/
def Benign (a : Table) : Statement Table Column Data → Prop
  | .delete t _ => t ≠ a
  | .update t _ f => (∀ r, Row.Weakens r (f r)) ∧ ∀ r, s.check t r = true → s.check t (f r) = true

/-- A statement does not change the rows of a table. -/
def Statement.Leaves (t : Table) : Statement Table Column Data → Prop
  | .delete _ _ => True
  | .update t' _ _ => t' ≠ t

/-- A statement does not name a row for deletion. -/
def Statement.Spares {t : Table} (r : Row Column (Data t)) : Statement Table Column Data → Prop
  | .delete t' p => ∀ h : t = t', p (h ▸ r) = false
  | .update _ _ _ => True

section Statements

variable {s} {a : Table} {db : Database Table Column Data}
  {statements statements' : List (Statement Table Column Data)}

theorem execAll_append :
  s.execAll (statements ++ statements') db =
    match s.execAll statements db with
    | .error e => .error e
    | .ok db => s.execAll statements' db
  := by
  induction statements generalizing db with
  | nil => rfl
  | cons statement statements ih =>
      rw [List.cons_append, execAll, execAll]
      cases s.exec statement db with
      | error e => rfl
      | ok db₁ => exact ih

omit [DecidableEq Column] in
/-- A change that the constraints allow succeeds, and keeps them. -/
theorem update_of_checks (h : ∀ t, s.Intact t (db t)) {t : Table}
    {p : Row Column (Data t) → Bool} {f : Row Column (Data t) → Row Column (Data t)}
    (hweakens : ∀ r, Row.Weakens r (f r))
    (hchecks : ∀ r ∈ db t, p r = true → s.check t (f r) = true) :
  s.update t p f db =
      .ok (Function.update db t ((db t).map fun r => if p r then f r else r)) ∧
    ∀ t', s.Intact t' (Function.update db t ((db t).map fun r => if p r then f r else r) t')
  := by
  obtain ⟨hok, hintact⟩ := (h t).rewrite hweakens hchecks
  constructor
  · rw [Schema.update, hok]
  · intro t'
    by_cases ht : t' = t
    · subst ht
      rw [Function.update_self]
      exact hintact
    · rw [Function.update_of_ne ht]
      exact h t'

omit [DecidableEq Column] in
/-- A change that a constraint forbids fails. -/
theorem update_of_check {t : Table} {p : Row Column (Data t) → Bool}
    {f : Row Column (Data t) → Row Column (Data t)} {r : Row Column (Data t)} (hr : r ∈ db t)
    (hp : p r = true) (hcheck : s.check t (f r) = false) :
  s.update t p f db = .error (.check t)
  := by
  rw [Schema.update, rewrite_of_check hr hp hcheck]

/-- A benign statement succeeds. -/
theorem Tame.exec (hs : s.Tame a) (h : ∀ t, s.Intact t (db t))
    {statement : Statement Table Column Data} (hbenign : s.Benign a statement) :
  ∃ db', s.exec statement db = .ok db' ∧ (∀ t, s.Intact t (db' t)) ∧
    (∀ t, ∀ r ∈ db t, (∀ fk ∈ s.foreignKeys, fk.table = t → fk.target ≠ a →
      r.ref fk.column = none) → statement.Leaves t → statement.Spares r → r ∈ db' t) ∧
    ∀ t, (∀ fk ∈ s.foreignKeys, fk.table = t → fk.target ≠ a → fk.onDelete ≠ .setNull) →
      statement.Leaves t → ∀ r ∈ db' t, r ∈ db t
  := by
  cases statement with
  | delete t p =>
      obtain ⟨db', hok, hintact, htrims⟩ := hs.delete h hbenign p
      refine ⟨db', hok, hintact, ?_, ?_⟩
      · intro t' r hr hrefs _ hspares
        apply htrims.kept t' r _ hrefs
        by_cases ht : t' = t
        · subst ht
          rw [Function.update_self]
          exact List.mem_filter.mpr ⟨hr, by simpa using hspares rfl⟩
        · rw [Function.update_of_ne ht]
          exact hr
      · intro t' hcascades _ r hr
        have hfiltered := htrims.old t' hcascades r hr
        by_cases ht : t' = t
        · subst ht
          rw [Function.update_self] at hfiltered
          exact List.mem_of_mem_filter hfiltered
        · rwa [Function.update_of_ne ht] at hfiltered
  | update t p f =>
      obtain ⟨hweakens, hchecks⟩ := hbenign
      obtain ⟨hok, hintact⟩ := update_of_checks h hweakens (p := p)
        fun r hr _ => hchecks r ((h t).checks r hr)
      refine ⟨_, hok, hintact, ?_, ?_⟩
      · intro t' r hr _ hleaves _
        rw [Function.update_of_ne (Ne.symm hleaves)]
        exact hr
      · intro t' _ hleaves r hr
        rwa [Function.update_of_ne (Ne.symm hleaves)] at hr

/-- Benign statements succeed. -/
theorem Tame.execAll (hs : s.Tame a) (h : ∀ t, s.Intact t (db t))
    (hbenign : ∀ statement ∈ statements, s.Benign a statement) :
  ∃ db', s.execAll statements db = .ok db' ∧ (∀ t, s.Intact t (db' t)) ∧
    ∀ t, (∀ statement ∈ statements, statement.Leaves t) →
      (∀ r ∈ db t, (∀ fk ∈ s.foreignKeys, fk.table = t → fk.target ≠ a →
        r.ref fk.column = none) → (∀ statement ∈ statements, statement.Spares r) → r ∈ db' t) ∧
      ((∀ fk ∈ s.foreignKeys, fk.table = t → fk.target ≠ a → fk.onDelete ≠ .setNull) →
        ∀ r ∈ db' t, r ∈ db t)
  := by
  induction statements generalizing db with
  | nil => exact ⟨db, rfl, h, fun t _ => ⟨fun r hr _ _ => hr, fun _ r hr => hr⟩⟩
  | cons statement statements ih =>
      obtain ⟨db₁, hfirst, hintact₁, hkept₁, hold₁⟩ := hs.exec h
        (hbenign statement List.mem_cons_self)
      obtain ⟨db₂, hrest, hintact₂, hspec₂⟩ := ih hintact₁
        fun st hst => hbenign st (List.mem_cons_of_mem _ hst)
      refine ⟨db₂, ?_, hintact₂, ?_⟩
      · rw [Schema.execAll, hfirst]
        exact hrest
      · intro t hleaves
        obtain ⟨hkept₂, hold₂⟩ := hspec₂ t fun st hst => hleaves st (List.mem_cons_of_mem _ hst)
        have hleaves₁ := hleaves statement List.mem_cons_self
        constructor
        · intro r hr hrefs hspares
          apply hkept₂ r _ hrefs fun st hst => hspares st (List.mem_cons_of_mem _ hst)
          exact hkept₁ t r hr hrefs hleaves₁ (hspares statement List.mem_cons_self)
        · intro hcascades r hr
          exact hold₁ t hcascades hleaves₁ r (hold₂ hcascades r hr)

end Statements

end Schema

end Relational
