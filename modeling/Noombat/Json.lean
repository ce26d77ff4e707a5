import Mathlib.Data.List.Forall2
import Noombat.Text

/-!
# JSON values

A JSON value as the program reads it after parsing.  The fields of an object are a list in
which the first entry of a name counts; a number is its literal, since no modelled function
computes with one.
-/

inductive Json where
  | null
  | bool (b : Bool)
  | num (literal : String)
  | str (s : String)
  | arr (items : List Json)
  | obj (fields : List (String × Json))
  deriving Inhabited

namespace Json

/-- The entry of an object under a key. -/
def get (key : String) : Json → Option Json
  | obj fields => fields.lookup key
  | _ => none

def asStr : Json → Option String
  | str s => some s
  | _ => none

def asBool : Json → Option Bool
  | bool b => some b
  | _ => none

def asArray : Json → Option (List Json)
  | arr items => some items
  | _ => none

def isObject : Json → Bool
  | obj _ => true
  | _ => false

/-- The object without the entry under a key. -/
def remove (key : String) : Json → Json
  | obj fields => obj (fields.filter fun f => f.1 != key)
  | j => j

/-- The object with the given entry under a key. -/
def insert (key : String) : Json → Json → Json
  | obj fields, value => obj ((key, value) :: fields.filter fun f => f.1 != key)
  | j, _ => j

/-- The string under a key of an object. -/
def getStr (key : String) (j : Json) : Option String :=
  (j.get key).bind asStr

/-- The value of an optional string: the string if there is one, `null` otherwise. -/
def ofOption : Option String → Json
  | some s => str s
  | none => null

/-! ### Serialisation -/

mutual

/-- The text of a value whose strings need no escapes. -/
def render : Json → String
  | null => "null"
  | bool b => toString b
  | num literal => literal
  | str s => "\"" ++ s ++ "\""
  | arr items => "[" ++ renderItems items ++ "]"
  | obj fields => "\x7b" ++ renderFields fields ++ "\x7d"

def renderItems : List Json → String
  | [] => ""
  | item :: items => render item ++ (if items.isEmpty then "" else ",") ++ renderItems items

def renderFields : List (String × Json) → String
  | [] => ""
  | field :: fields =>
      renderField field ++ (if fields.isEmpty then "" else ",") ++ renderFields fields

def renderField : String × Json → String
  | (key, value) => "\"" ++ key ++ "\":" ++ render value

end

@[simp]
theorem get_obj (key : String) (fields : List (String × Json)) :
  (obj fields).get key = fields.lookup key
  := rfl

/-! ### Entries of changed objects -/

section Entries

variable {key key' : String} {value : Json} {j : Json}

theorem lookup_filter_self (key : String) (fields : List (String × Json)) :
  (fields.filter fun f => f.1 != key).lookup key = none
  := by
  rw [List.lookup_eq_none_iff]
  intro f hf
  have hne := (List.mem_filter.mp hf).2
  simp only [bne_iff_ne, ne_eq] at hne
  simpa using Ne.symm hne

theorem lookup_filter_of_ne (h : key' ≠ key) (fields : List (String × Json)) :
  (fields.filter fun f => f.1 != key).lookup key' = fields.lookup key'
  := by
  induction fields with
  | nil => rfl
  | cons f fields ih =>
      obtain ⟨name, v⟩ := f
      by_cases hname : name = key
      · have hother : (key' == name) = false := by simp [hname, h]
        rw [List.filter_cons_of_neg (by simp [hname]), ih, List.lookup_cons, hother]
      · rw [List.filter_cons_of_pos (by simp [hname]), List.lookup_cons, List.lookup_cons, ih]

@[simp]
theorem get_remove_self (key : String) (j : Json) :
  (j.remove key).get key = none
  := by
  cases j with
  | obj fields => exact lookup_filter_self key fields
  | _ => rfl

@[simp]
theorem get_remove_of_ne (h : key' ≠ key) (j : Json) :
  (j.remove key).get key' = j.get key'
  := by
  cases j with
  | obj fields => exact lookup_filter_of_ne h fields
  | _ => rfl

theorem get_insert_self (h : j.isObject = true) :
  (j.insert key value).get key = some value
  := by
  cases j with
  | obj fields => simp [insert]
  | _ => cases h

@[simp]
theorem get_insert_of_ne (h : key' ≠ key) (j value : Json) :
  (j.insert key value).get key' = j.get key'
  := by
  cases j with
  | obj fields =>
      have hother : (key' == key) = false := by simp [h]
      rw [insert, get_obj, List.lookup_cons, hother]
      exact lookup_filter_of_ne h fields
  | _ => rfl

@[simp]
theorem isObject_remove (key : String) (j : Json) :
  (j.remove key).isObject = j.isObject
  := by
  cases j <;> rfl

@[simp]
theorem isObject_insert (key : String) (j value : Json) :
  (j.insert key value).isObject = j.isObject
  := by
  cases j <;> rfl

theorem isObject_of_get (h : j.get key = some value) :
  j.isObject = true
  := by
  cases j with
  | obj fields => rfl
  | _ => cases h

@[simp]
theorem remove_insert_self (key : String) (j value : Json) :
  (j.insert key value).remove key = j.remove key
  := by
  cases j with
  | obj fields => simp [insert, remove]
  | _ => rfl

theorem remove_insert_of_ne (h : key' ≠ key) (j value : Json) :
  (j.insert key value).remove key' = (j.remove key').insert key value
  := by
  cases j with
  | obj fields =>
      have hkept : (key != key') = true := by simp [Ne.symm h]
      simp only [insert, remove, List.filter_cons, hkept, if_true, List.filter_filter]
      simp only [Bool.and_comm]
  | _ => rfl

theorem remove_comm (key key' : String) (j : Json) :
  (j.remove key).remove key' = (j.remove key').remove key
  := by
  cases j with
  | obj fields => simp only [remove, List.filter_filter, Bool.and_comm]
  | _ => rfl

/-- An entry that is not there can be removed. -/
theorem remove_of_get_none (h : j.get key = none) :
  j.remove key = j
  := by
  cases j with
  | obj fields =>
      rw [remove]
      congr 1
      apply List.filter_eq_self.mpr
      intro f hf
      have hne := List.lookup_eq_none_iff.mp h f hf
      simpa using Ne.symm (by simpa using hne)
  | _ => rfl

/-- An inserted entry takes the place of the one that is there. -/
@[simp]
theorem insert_remove_self (key : String) (j value : Json) :
  (j.remove key).insert key value = j.insert key value
  := by
  cases j with
  | obj fields => simp [insert, remove]
  | _ => rfl

@[simp]
theorem getStr_remove_of_ne (h : key' ≠ key) (j : Json) :
  (j.remove key).getStr key' = j.getStr key'
  := by
  rw [getStr, getStr, get_remove_of_ne h]

@[simp]
theorem getStr_insert_of_ne (h : key' ≠ key) (j value : Json) :
  (j.insert key value).getStr key' = j.getStr key'
  := by
  rw [getStr, getStr, get_insert_of_ne h]

end Entries

/-! ### Equality of values -/

/-- Two values are the same up to the order of the entries of their objects. -/
inductive Same : Json → Json → Prop
  | null : Same null null
  | bool (b : Bool) : Same (bool b) (bool b)
  | num (literal : String) : Same (num literal) (num literal)
  | str (s : String) : Same (str s) (str s)
  | arr {items items' : List Json} : List.Forall₂ Same items items' → Same (arr items) (arr items')
  | obj {fields fields' : List (String × Json)} :
      (∀ key, Option.Rel Same (fields.lookup key) (fields'.lookup key)) →
        Same (obj fields) (obj fields')

theorem Same.refl (j : Json) :
  j.Same j
  := by
  match j with
  | .null => exact .null
  | .bool b => exact .bool b
  | .num literal => exact .num literal
  | .str s => exact .str s
  | .arr items =>
      apply Same.arr
      apply List.forall₂_same.mpr
      intro item hitem
      exact Same.refl item
  | .obj fields =>
      apply Same.obj
      intro key
      cases hvalue : fields.lookup key with
      | none => exact .none
      | some value =>
          obtain ⟨before, after, hfields, _⟩ := List.lookup_eq_some_iff.mp hvalue
          have hmem : (key, value) ∈ fields := by
            rw [hfields]
            simp
          exact .some (Same.refl value)
termination_by sizeOf j
decreasing_by
  · have hsize := List.sizeOf_lt_of_mem hitem
    simp only [Json.arr.sizeOf_spec]
    omega
  · have hsize := List.sizeOf_lt_of_mem hmem
    simp only [Prod.mk.sizeOf_spec, Json.obj.sizeOf_spec] at hsize ⊢
    omega

/-- The entries of the same objects are the same. -/
theorem Same.get {j j' : Json} (h : j.Same j') (key : String) :
  Option.Rel Same (j.get key) (j'.get key)
  := by
  cases h with
  | obj hfields => exact hfields key
  | _ => exact .none

/-- The same objects are the same without an entry. -/
theorem Same.remove {j j' : Json} (h : j.Same j') (key : String) :
  (j.remove key).Same (j'.remove key)
  := by
  cases h with
  | obj hfields =>
      apply Same.obj
      intro key'
      by_cases hkey : key' = key
      · rw [hkey, lookup_filter_self, lookup_filter_self]
        exact .none
      · rw [lookup_filter_of_ne hkey, lookup_filter_of_ne hkey]
        exact hfields key'
  | null => exact .null
  | bool b => exact .bool b
  | num literal => exact .num literal
  | str s => exact .str s
  | arr hitems => exact .arr hitems

end Json
