import Mathlib.Order.Lattice
import Mathlib.Data.List.Pairwise

/-!
# Maps and sets in order

A map whose keys are of a linear order, as the list of its entries in increasing order of
their keys.  Two maps with the same entries are equal, and the map made of the entries of
a map is that map.  A set is a map without values.
-/

/-- A map, as the list of its entries in order. -/
structure OrderedMap (κ ν : Type) [LinearOrder κ] where
  entries : List (κ × ν)
  ordered : entries.Pairwise fun e e' => e.1 < e'.1

/-- A set, as the map that sends its members to nothing. -/
abbrev OrderedSet (κ : Type) [LinearOrder κ] : Type :=
  OrderedMap κ Unit

namespace OrderedMap

variable {κ ν : Type} [LinearOrder κ]

/-- The entries with one more, in the place of the one with its key if there is such. -/
def insertEntry (k : κ) (v : ν) : List (κ × ν) → List (κ × ν)
  | [] => [(k, v)]
  | e :: es =>
      if k < e.1 then (k, v) :: e :: es
      else if e.1 < k then e :: insertEntry k v es
      else (k, v) :: es

theorem mem_insertEntry {k : κ} {v : ν} {l : List (κ × ν)}
    (hl : l.Pairwise fun e e' => e.1 < e'.1) {e : κ × ν} :
  e ∈ insertEntry k v l ↔ e = (k, v) ∨ e ∈ l ∧ e.1 ≠ k
  := by
  induction l with
  | nil => simp [insertEntry]
  | cons e' es ih =>
      rw [List.pairwise_cons] at hl
      rw [insertEntry]
      split
      · rename_i hlt
        have hne : ∀ e ∈ e' :: es, e.1 ≠ k := by
          intro e he
          rcases List.mem_cons.mp he with rfl | he
          · exact ne_of_gt hlt
          · exact ne_of_gt (lt_trans hlt (hl.1 e he))
        rw [List.mem_cons]
        constructor
        · rintro (rfl | he)
          · exact .inl rfl
          · exact .inr ⟨he, hne e he⟩
        · rintro (rfl | ⟨he, _⟩)
          · exact .inl rfl
          · exact .inr he
      · split
        · rename_i hlt
          rw [List.mem_cons, ih hl.2, List.mem_cons]
          constructor
          · rintro (rfl | rfl | ⟨he, hne⟩)
            · exact .inr ⟨.inl rfl, ne_of_lt hlt⟩
            · exact .inl rfl
            · exact .inr ⟨.inr he, hne⟩
          · rintro (rfl | ⟨rfl | he, hne⟩)
            · exact .inr (.inl rfl)
            · exact .inl rfl
            · exact .inr (.inr ⟨he, hne⟩)
        · rename_i hnlt hngt
          have heq : e'.1 = k := le_antisymm (not_lt.mp hnlt) (not_lt.mp hngt)
          rw [List.mem_cons, List.mem_cons]
          constructor
          · rintro (rfl | he)
            · exact .inl rfl
            · exact .inr ⟨.inr he, ne_of_gt (heq ▸ hl.1 e he)⟩
          · rintro (rfl | ⟨rfl | he, hne⟩)
            · exact .inl rfl
            · exact absurd heq hne
            · exact .inr he

theorem pairwise_insertEntry {k : κ} {v : ν} {l : List (κ × ν)}
    (hl : l.Pairwise fun e e' => e.1 < e'.1) :
  (insertEntry k v l).Pairwise fun e e' => e.1 < e'.1
  := by
  induction l with
  | nil => exact List.pairwise_singleton _ _
  | cons e' es ih =>
      have hl' := hl
      rw [List.pairwise_cons] at hl
      rw [insertEntry]
      split
      · rename_i hlt
        refine List.pairwise_cons.mpr ⟨?_, hl'⟩
        intro e he
        rcases List.mem_cons.mp he with rfl | he
        · exact hlt
        · exact lt_trans hlt (hl.1 e he)
      · split
        · rename_i hlt
          refine List.pairwise_cons.mpr ⟨?_, ih hl.2⟩
          intro e he
          rcases (mem_insertEntry hl.2).mp he with rfl | ⟨he, _⟩
          · exact hlt
          · exact hl.1 e he
        · rename_i hnlt hngt
          have heq : e'.1 = k := le_antisymm (not_lt.mp hnlt) (not_lt.mp hngt)
          refine List.pairwise_cons.mpr ⟨?_, hl.2⟩
          intro e he
          exact heq ▸ hl.1 e he

/-- An entry whose key comes after all others is put at the end. -/
theorem insertEntry_of_lt {k : κ} {v : ν} {l : List (κ × ν)} (hl : ∀ e ∈ l, e.1 < k) :
  insertEntry k v l = l ++ [(k, v)]
  := by
  induction l with
  | nil => rfl
  | cons e es ih =>
      have he := hl e List.mem_cons_self
      rw [insertEntry, if_neg (lt_asymm he), if_pos he,
        ih fun e' he' => hl e' (List.mem_cons_of_mem e he'), List.cons_append]

/-- The map without entries. -/
def empty : OrderedMap κ ν :=
  ⟨[], List.Pairwise.nil⟩

def insert (k : κ) (v : ν) (m : OrderedMap κ ν) : OrderedMap κ ν :=
  ⟨insertEntry k v m.entries, pairwise_insertEntry m.ordered⟩

def erase (k : κ) (m : OrderedMap κ ν) : OrderedMap κ ν :=
  ⟨m.entries.filter fun e => e.1 ≠ k, m.ordered.filter _⟩

/-- The value under a key. -/
def get? (m : OrderedMap κ ν) (k : κ) : Option ν :=
  (m.entries.find? fun e => e.1 = k).map Prod.snd

/-- The map of the given entries, of which the last with a key counts. -/
def ofList (l : List (κ × ν)) : OrderedMap κ ν :=
  l.foldl (fun m e => m.insert e.1 e.2) empty

def keys (m : OrderedMap κ ν) : List κ :=
  m.entries.map Prod.fst

instance : Membership κ (OrderedMap κ ν) :=
  ⟨fun m k => k ∈ m.keys⟩

instance (m : OrderedMap κ ν) (k : κ) : Decidable (k ∈ m) :=
  inferInstanceAs (Decidable (k ∈ m.keys))

theorem mem_keys {m : OrderedMap κ ν} {k : κ} :
  k ∈ m.keys ↔ k ∈ m
  := Iff.rfl

@[ext]
theorem ext {m m' : OrderedMap κ ν} (h : m.entries = m'.entries) :
  m = m'
  := by
  cases m
  cases m'
  cases h
  rfl

instance [DecidableEq ν] : DecidableEq (OrderedMap κ ν) :=
  fun _ _ => decidable_of_iff _ ⟨ext, congrArg entries⟩

@[simp]
theorem mem_entries_empty {e : κ × ν} :
  ¬ e ∈ (empty : OrderedMap κ ν).entries
  := List.not_mem_nil

@[simp]
theorem mem_entries_insert {k : κ} {v : ν} {m : OrderedMap κ ν} {e : κ × ν} :
  e ∈ (m.insert k v).entries ↔ e = (k, v) ∨ e ∈ m.entries ∧ e.1 ≠ k
  := mem_insertEntry m.ordered

@[simp]
theorem mem_entries_erase {k : κ} {m : OrderedMap κ ν} {e : κ × ν} :
  e ∈ (m.erase k).entries ↔ e ∈ m.entries ∧ e.1 ≠ k
  := by
  simp [erase, List.mem_filter]

theorem mem_iff {m : OrderedMap κ ν} {k : κ} :
  k ∈ m ↔ ∃ v, (k, v) ∈ m.entries
  := by
  rw [← mem_keys, keys, List.mem_map]
  constructor
  · rintro ⟨⟨k', v⟩, he, rfl⟩
    exact ⟨v, he⟩
  · rintro ⟨v, he⟩
    exact ⟨_, he, rfl⟩

@[simp]
theorem not_mem_empty {k : κ} :
  ¬ k ∈ (empty : OrderedMap κ ν)
  := by
  simp [mem_iff]

@[simp]
theorem mem_insert {k k' : κ} {v : ν} {m : OrderedMap κ ν} :
  k' ∈ m.insert k v ↔ k' = k ∨ k' ∈ m
  := by
  by_cases h : k' = k
  · simp [mem_iff, h]
  · simp [mem_iff, h]

@[simp]
theorem mem_erase {k k' : κ} {m : OrderedMap κ ν} :
  k' ∈ m.erase k ↔ k' ∈ m ∧ k' ≠ k
  := by
  simp [mem_iff]

/-- A key has one value. -/
theorem eq_of_mem_entries {m : OrderedMap κ ν} {k : κ} {v v' : ν} (h : (k, v) ∈ m.entries)
    (h' : (k, v') ∈ m.entries) :
  v = v'
  := by
  have hsymm : Std.Symm fun e e' : κ × ν => e.1 ≠ e'.1 := ⟨fun _ _ h => h.symm⟩
  have hapart : m.entries.Pairwise fun e e' => e.1 ≠ e'.1 := m.ordered.imp ne_of_lt
  by_contra hne
  exact hapart.forall h h' (fun heq => hne (Prod.mk.inj heq).2) rfl

theorem get?_eq_some {m : OrderedMap κ ν} {k : κ} {v : ν} :
  m.get? k = some v ↔ (k, v) ∈ m.entries
  := by
  have hget : ∀ v, m.get? k = some v → (k, v) ∈ m.entries := by
    intro v h
    obtain ⟨⟨k', v'⟩, hfound, rfl⟩ := Option.map_eq_some_iff.mp h
    obtain rfl : k' = k := by simpa using List.find?_some hfound
    exact List.mem_of_find?_eq_some hfound
  constructor
  · exact hget v
  · intro h
    cases hfound : m.get? k with
    | none =>
        have hnone := List.find?_eq_none.mp (Option.map_eq_none_iff.mp hfound) _ h
        simp at hnone
    | some v' => rw [eq_of_mem_entries (hget v' hfound) h]

theorem get?_eq_none {m : OrderedMap κ ν} {k : κ} :
  m.get? k = none ↔ ¬ k ∈ m
  := by
  simp [Option.eq_none_iff_forall_ne_some, get?_eq_some, mem_iff]

/-- The map of the entries of a map is that map. -/
theorem ofList_entries (m : OrderedMap κ ν) :
  ofList m.entries = m
  := by
  have hfold : ∀ (l : List (κ × ν)) (acc : OrderedMap κ ν),
      (acc.entries ++ l).Pairwise (fun e e' => e.1 < e'.1) →
      (l.foldl (fun m e => m.insert e.1 e.2) acc).entries = acc.entries ++ l := by
    intro l
    induction l with
    | nil =>
        intro acc _
        exact (List.append_nil _).symm
    | cons e es ih =>
        intro acc hl
        have hlast : (acc.insert e.1 e.2).entries = acc.entries ++ [e] := by
          apply insertEntry_of_lt
          intro e' he'
          exact (List.pairwise_append.mp hl).2.2 e' he' e List.mem_cons_self
        rw [List.foldl_cons, ih, hlast, List.append_assoc, List.singleton_append]
        rw [hlast, List.append_assoc, List.singleton_append]
        exact hl
  apply ext
  apply hfold m.entries empty m.ordered

end OrderedMap
