import Mathlib.Data.List.Basic
import Mathlib.Data.List.Pairwise

/-!
# Tables with unique columns

A table is a list of rows any two of which are apart, where `Apart` says that two rows
differ in every column, or group of columns, that is declared unique.  A change that would
leave rows that are not apart fails; deletions and changes to other columns cannot.
-/

/-- The rows of a table, any two of which are apart. -/
structure Table {ρ : Type} (Apart : ρ → ρ → Prop) where
  rows : List ρ
  apart : rows.Pairwise Apart

namespace Table

variable {ρ : Type} {Apart : ρ → ρ → Prop}

instance : Membership ρ (Table Apart) :=
  ⟨fun t r => r ∈ t.rows⟩

theorem mem_rows {t : Table Apart} {r : ρ} :
  r ∈ t.rows ↔ r ∈ t
  := Iff.rfl

/-- The table without rows. -/
def empty : Table Apart :=
  ⟨[], List.Pairwise.nil⟩

/-- The table with the given rows, if any two of them are apart. -/
def ofRows [DecidableRel Apart] (rows : List ρ) : Option (Table Apart) :=
  if h : rows.Pairwise Apart then some ⟨rows, h⟩ else none

/-- The table with another row, if that is apart from all others. -/
def insert [DecidableRel Apart] (r : ρ) (t : Table Apart) : Option (Table Apart) :=
  if h : ∀ r' ∈ t.rows, Apart r r' then some ⟨r :: t.rows, List.Pairwise.cons h t.apart⟩
  else none

/-- The table without the rows that satisfy `p`. -/
def delete (p : ρ → Bool) (t : Table Apart) : Table Apart :=
  ⟨t.rows.filter (!p ·), t.apart.filter _⟩

/-- The table with the rows that satisfy `p` changed by `f`, which keeps rows apart. -/
def update (p : ρ → Bool) (f : ρ → ρ)
    (keeps : ∀ r r', Apart r r' → Apart (f r) r' ∧ Apart r (f r') ∧ Apart (f r) (f r'))
    (t : Table Apart) : Table Apart where
  rows := t.rows.map fun r => if p r then f r else r
  apart := by
    apply List.pairwise_map.mpr
    apply t.apart.imp
    intro r r' h
    obtain ⟨h₁, h₂, h₃⟩ := keeps r r' h
    split <;> split <;> assumption

/-- The row that satisfies `p`, the first if there are several. -/
def find (p : ρ → Bool) (t : Table Apart) : Option ρ :=
  t.rows.find? p

/-! ### Rows of changed tables -/

@[simp]
theorem mem_empty (r : ρ) :
  ¬ r ∈ (empty : Table Apart)
  := List.not_mem_nil

theorem mem_of_ofRows [DecidableRel Apart] {rows : List ρ} {t : Table Apart}
    (h : ofRows rows = some t) {r : ρ} :
  r ∈ t ↔ r ∈ rows
  := by
  unfold ofRows at h
  split at h
  · cases h
    rfl
  · cases h

theorem mem_of_insert [DecidableRel Apart] {r : ρ} {t t' : Table Apart}
    (h : t.insert r = some t') {r' : ρ} :
  r' ∈ t' ↔ r' = r ∨ r' ∈ t
  := by
  unfold insert at h
  split at h
  · cases h
    apply List.mem_cons
  · cases h

/-- A row that is apart from all others can be inserted. -/
theorem exists_insert [DecidableRel Apart] {r : ρ} {t : Table Apart} (h : ∀ r' ∈ t, Apart r r') :
  ∃ t', t.insert r = some t'
  := by
  have hrows : ∀ r' ∈ t.rows, Apart r r' := h
  exact ⟨_, dif_pos hrows⟩

/-- A row that is inserted is apart from those that were there. -/
theorem apart_of_insert [DecidableRel Apart] {r : ρ} {t t' : Table Apart}
    (h : t.insert r = some t') {r' : ρ} (hr' : r' ∈ t) :
  Apart r r'
  := by
  unfold insert at h
  split at h
  · rename_i hapart
    exact hapart r' hr'
  · cases h

@[simp]
theorem mem_delete {p : ρ → Bool} {t : Table Apart} {r : ρ} :
  r ∈ t.delete p ↔ r ∈ t ∧ p r = false
  := by
  change r ∈ t.rows.filter _ ↔ _
  simp [List.mem_filter, mem_rows]

@[simp]
theorem mem_update {p : ρ → Bool} {f : ρ → ρ} {keeps} {t : Table Apart} {r : ρ} :
  r ∈ t.update p f keeps ↔ ∃ r' ∈ t, (if p r' then f r' else r') = r
  := List.mem_map

theorem mem_of_find {p : ρ → Bool} {t : Table Apart} {r : ρ} (h : t.find p = some r) :
  r ∈ t
  := List.mem_of_find?_eq_some h

theorem satisfies_of_find {p : ρ → Bool} {t : Table Apart} {r : ρ} (h : t.find p = some r) :
  p r = true
  := List.find?_some h

/-- There is a row that satisfies `p` just when one is found. -/
theorem find_isSome_iff {p : ρ → Bool} {t : Table Apart} :
  (t.find p).isSome ↔ ∃ r ∈ t, p r = true
  := List.find?_isSome

/-- The only row that satisfies `p` is found. -/
theorem find_eq_some {p : ρ → Bool} {t : Table Apart} {r : ρ} (hr : r ∈ t) (hp : p r = true)
    (h : ∀ r' ∈ t, p r' = true → r' = r) :
  t.find p = some r
  := by
  obtain ⟨r', hfound⟩ := Option.isSome_iff_exists.mp (find_isSome_iff.mpr ⟨r, hr, hp⟩)
  rw [hfound, h r' (mem_of_find hfound) (satisfies_of_find hfound)]

/-- Two rows that are not apart are the same. -/
theorem eq_of_not_apart [Std.Symm Apart] {t : Table Apart} {r r' : ρ}
    (hr : r ∈ t) (hr' : r' ∈ t) (h : ¬ Apart r r') :
  r = r'
  := by
  by_contra hne
  exact h (t.apart.forall hr hr' hne)

end Table
