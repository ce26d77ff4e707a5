import Mathlib.Algebra.Ring.Nat
import Mathlib.Data.List.Sort
import Mathlib.Data.List.Nodup

/-!
# Maps and objects of JavaScript

A map keeps its entries in the order in which their keys were first set.  The own properties of
an object are such a map too; but an assignment under the name of the prototype sets the
prototype and makes no property, and an enumeration takes the names that are array indices
first, in ascending order.
-/

/-! ### Lists of entries -/

namespace Entries

variable {κ α β : Type} [DecidableEq κ]

/-- The entries with a value set: in the place of the entry under the key, or at the end. -/
def set (key : κ) (value : α) : List (κ × α) → List (κ × α)
  | [] => [(key, value)]
  | e :: es => if e.1 = key then (key, value) :: es else e :: set key value es

section

variable {key key' : κ} {value : α} {es : List (κ × α)}

theorem set_of_not_mem (h : key ∉ es.map Prod.fst) :
  set key value es = es ++ [(key, value)]
  := by
  induction es with
  | nil => rfl
  | cons e es ih =>
      rw [List.map_cons, List.mem_cons, not_or] at h
      rw [set, if_neg (Ne.symm h.1), ih h.2]
      rfl

theorem keys_set_of_mem (h : key ∈ es.map Prod.fst) :
  (set key value es).map Prod.fst = es.map Prod.fst
  := by
  induction es with
  | nil => cases h
  | cons e es ih =>
      rw [set]
      by_cases hkey : e.1 = key
      · rw [if_pos hkey, List.map_cons, List.map_cons, hkey]
      · have hmem : key ∈ es.map Prod.fst := by
          rw [List.map_cons, List.mem_cons] at h
          apply h.resolve_left
          apply Ne.symm hkey
        rw [if_neg hkey, List.map_cons, List.map_cons, ih hmem]

theorem nodup_set (h : (es.map Prod.fst).Nodup) (key : κ) (value : α) :
  ((set key value es).map Prod.fst).Nodup
  := by
  by_cases hkey : key ∈ es.map Prod.fst
  · rw [keys_set_of_mem hkey]
    exact h
  · rw [set_of_not_mem hkey, List.map_append, List.nodup_append]
    refine ⟨h, List.nodup_singleton _, ?_⟩
    intro k hk k' hk' hsame
    obtain rfl := List.mem_singleton.mp hk'
    apply hkey
    rw [hsame] at hk
    exact hk

@[simp]
theorem lookup_set_self (key : κ) (value : α) (es : List (κ × α)) :
  (set key value es).lookup key = some value
  := by
  induction es with
  | nil => apply List.lookup_cons_self
  | cons e es ih =>
      rw [set]
      by_cases hkey : e.1 = key
      · rw [if_pos hkey, List.lookup_cons_self]
      · rw [if_neg hkey, List.lookup_cons, beq_false_of_ne (Ne.symm hkey)]
        exact ih

theorem lookup_set_of_ne (h : key' ≠ key) (value : α) (es : List (κ × α)) :
  (set key value es).lookup key' = es.lookup key'
  := by
  induction es with
  | nil =>
      rw [set, List.lookup_cons, beq_false_of_ne h]
  | cons e es ih =>
      rw [set]
      by_cases hkey : e.1 = key
      · have hother : key' ≠ e.1 := by
          rw [hkey]
          exact h
        rw [if_pos hkey, List.lookup_cons, List.lookup_cons, beq_false_of_ne h,
          beq_false_of_ne hother]
      · rw [if_neg hkey, List.lookup_cons, List.lookup_cons, ih]

/-- To set what is there already changes nothing. -/
theorem set_of_lookup (h : es.lookup key = some value) :
  set key value es = es
  := by
  induction es with
  | nil => cases h
  | cons e es ih =>
      obtain ⟨k, v⟩ := e
      rw [set]
      by_cases hkey : k = key
      · subst hkey
        rw [List.lookup_cons_self] at h
        rw [if_pos rfl, Option.some.inj h]
      · rw [List.lookup_cons, beq_false_of_ne (Ne.symm hkey)] at h
        rw [if_neg hkey, ih h]

/-- The entries whose keys are chosen stay as they are when another is set. -/
theorem filter_set {p : κ → Bool} (h : p key = false) (value : α) (es : List (κ × α)) :
  (set key value es).filter (fun e => p e.1) = es.filter (fun e => p e.1)
  := by
  induction es with
  | nil =>
      apply List.filter_cons_of_neg
      simp only [h]
      nofun
  | cons e es ih =>
      rw [set]
      by_cases hkey : e.1 = key
      · have hold : ¬ p e.1 = true := by
          rw [hkey, h]
          nofun
        have hnew : ¬ p key = true := by
          rw [h]
          nofun
        rw [if_pos hkey, List.filter_cons, if_neg hnew, List.filter_cons, if_neg hold]
      · rw [if_neg hkey, List.filter_cons, List.filter_cons, ih]

theorem lookup_eq_some_iff (h : (es.map Prod.fst).Nodup) :
  es.lookup key = some value ↔ (key, value) ∈ es
  := by
  induction es with
  | nil => simp
  | cons e es ih =>
      obtain ⟨k, v⟩ := e
      rw [List.map_cons, List.nodup_cons] at h
      by_cases hkey : k = key
      · subst hkey
        rw [List.lookup_cons_self, List.mem_cons]
        constructor
        · intro hv
          left
          rw [Option.some.inj hv]
        · rintro (hv | hv)
          · injection hv with _ hv
            rw [hv]
          · exact absurd (List.mem_map_of_mem (f := Prod.fst) hv) h.1
      · rw [List.lookup_cons, beq_false_of_ne (Ne.symm hkey), List.mem_cons]
        constructor
        · intro hv
          exact Or.inr ((ih h.2).mp hv)
        · rintro (hv | hv)
          · injection hv with hv
            exact absurd hv.symm hkey
          · exact (ih h.2).mpr hv

/-- What is found under a key does not depend on the order of the entries. -/
theorem lookup_perm {es es' : List (κ × α)} (hp : es'.Perm es) (h : (es.map Prod.fst).Nodup)
    (key : κ) :
  es'.lookup key = es.lookup key
  := by
  have h' : (es'.map Prod.fst).Nodup := (hp.map Prod.fst).nodup_iff.mpr h
  apply Option.ext
  intro value
  rw [lookup_eq_some_iff h, lookup_eq_some_iff h', hp.mem_iff]

theorem lookup_filter (p : κ → Bool) (key : κ) (es : List (κ × α)) :
  (es.filter fun e => p e.1).lookup key = if p key then es.lookup key else none
  := by
  induction es with
  | nil =>
      split
      · rfl
      · rfl
  | cons e es ih =>
      obtain ⟨k, v⟩ := e
      rw [List.filter_cons, List.lookup_cons]
      by_cases hkey : key = k
      · subst hkey
        by_cases hp : p key = true
        · simp only [hp, if_true, beq_self_eq_true, List.lookup_cons_self]
        · simp only [hp, if_false, ih, Bool.false_eq_true]
      · rw [beq_false_of_ne hkey]
        by_cases hp : p k = true
        · simp only [hp, if_true, List.lookup_cons, beq_false_of_ne hkey, ih]
        · simp only [hp, ih, Bool.false_eq_true, if_false]

theorem lookup_map (f : α → β) (key : κ) (es : List (κ × α)) :
  (es.map (Prod.map id f)).lookup key = (es.lookup key).map f
  := by
  induction es with
  | nil => rfl
  | cons e es ih =>
      obtain ⟨k, v⟩ := e
      rw [List.map_cons, Prod.map_apply, id_eq, List.lookup_cons, List.lookup_cons]
      cases key == k with
      | true => rfl
      | false => exact ih

end

end Entries

/-! ### Maps -/

/-- A map: entries in the order in which their keys were first set. -/
@[ext]
structure JsMap (κ α : Type) where
  entries : List (κ × α)
  nodup : (entries.map Prod.fst).Nodup

namespace JsMap

variable {κ α : Type} [DecidableEq κ]

def empty : JsMap κ α :=
  ⟨[], List.nodup_nil⟩

def get (key : κ) (m : JsMap κ α) : Option α :=
  m.entries.lookup key

def set (key : κ) (value : α) (m : JsMap κ α) : JsMap κ α :=
  ⟨Entries.set key value m.entries, Entries.nodup_set m.nodup key value⟩

/-- The map with entries set one after the other. -/
def setAll (es : List (κ × α)) (m : JsMap κ α) : JsMap κ α :=
  es.foldl (fun m e => m.set e.1 e.2) m

@[simp]
theorem get_empty (key : κ) :
  (empty : JsMap κ α).get key = none
  := rfl

@[simp]
theorem get_set_self (key : κ) (value : α) (m : JsMap κ α) :
  (m.set key value).get key = some value
  := Entries.lookup_set_self key value m.entries

theorem get_set_of_ne {key key' : κ} (h : key' ≠ key) (value : α) (m : JsMap κ α) :
  (m.set key value).get key' = m.get key'
  := Entries.lookup_set_of_ne h value m.entries

theorem set_of_get {key : κ} {value : α} {m : JsMap κ α} (h : m.get key = some value) :
  m.set key value = m
  := JsMap.ext (Entries.set_of_lookup h)

theorem entries_setAll {es : List (κ × α)} {m : JsMap κ α}
    (h : ((m.entries ++ es).map Prod.fst).Nodup) :
  (m.setAll es).entries = m.entries ++ es
  := by
  induction es generalizing m with
  | nil => exact (List.append_nil _).symm
  | cons e es ih =>
      have hnew : e.1 ∉ m.entries.map Prod.fst := by
        rw [List.map_append, List.map_cons] at h
        intro hmem
        exact List.disjoint_of_nodup_append h hmem List.mem_cons_self
      have hset : (m.set e.1 e.2).entries = m.entries ++ [e] := Entries.set_of_not_mem hnew
      have hsplit : m.entries ++ e :: es = (m.set e.1 e.2).entries ++ es := by
        rw [hset, List.append_assoc]
        rfl
      rw [hsplit] at h ⊢
      apply ih h

/-- Entries under different keys make the map of just these. -/
theorem entries_setAll_empty {es : List (κ × α)} (h : (es.map Prod.fst).Nodup) :
  ((empty : JsMap κ α).setAll es).entries = es
  := entries_setAll h

end JsMap

/-! ### Objects -/

/-- The own properties of an object. -/
abbrev JsObject (α : Type) : Type :=
  JsMap String α

namespace JsObject

variable {α β : Type}

/-- The name under which an object has its prototype. -/
def protoName : String := "__proto__"

/-- The object after an assignment; an object assigned under the name of the prototype becomes
the prototype. -/
def assign (name : String) (value : α) (o : JsObject α) : JsObject α :=
  if name = protoName then o else o.set name value

/-- The object with properties assigned one after the other. -/
def assignAll (es : List (String × α)) (o : JsObject α) : JsObject α :=
  es.foldl (fun o e => o.assign e.1 e.2) o

/-- The names under which assignments make properties. -/
def isOwnName (name : String) : Bool :=
  decide (name ≠ protoName)

/-- The number of which a name may be the numeral. -/
def index (name : String) : Nat :=
  Nat.ofDigitChars 10 name.toList 0

def isArrayIndex (name : String) : Bool :=
  decide (toString (index name) = name ∧ index name < 2 ^ 32 - 1)

/-- The properties in the order of enumeration: those under array indices first. -/
def enumerate (es : List (String × α)) : List (String × α) :=
  (es.filter fun e => isArrayIndex e.1).insertionSort (fun e e' => index e.1 ≤ index e'.1) ++
    es.filter fun e => !isArrayIndex e.1

/-- An object keeps what is assigned but the prototype. -/
theorem assignAll_eq (es : List (String × α)) (o : JsObject α) :
  o.assignAll es = o.setAll (es.filter fun e => isOwnName e.1)
  := by
  induction es generalizing o with
  | nil => rfl
  | cons e es ih =>
      rw [assignAll, List.foldl_cons]
      refine (ih (o.assign e.1 e.2)).trans ?_
      by_cases hproto : e.1 = protoName
      · have hname : ¬ isOwnName e.1 = true := by
          rw [isOwnName, hproto]
          simp
        rw [List.filter_cons, if_neg hname, assign, if_pos hproto]
      · have hname : isOwnName e.1 = true := decide_eq_true hproto
        rw [List.filter_cons, if_pos hname, assign, if_neg hproto]
        rfl

theorem enumerate_perm (es : List (String × α)) :
  (enumerate es).Perm es
  := by
  apply (List.Perm.append_right _ (List.perm_insertionSort _ _)).trans
  apply List.filter_append_perm

/-- The order of enumeration depends on the names only. -/
theorem enumerate_map (f : α → β) (es : List (String × α)) :
  enumerate (es.map (Prod.map id f)) = (enumerate es).map (Prod.map id f)
  := by
  rw [enumerate, enumerate, List.map_append, List.filter_map, List.filter_map]
  congr 1
  symm
  apply List.map_insertionSort
  intro a _ b _
  rfl

end JsObject
