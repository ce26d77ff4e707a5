import Mathlib.Data.List.DropRight
import Noombat.TextSplits

/-!
# Lists of attributes

A list of attributes is cut at one kind of its elements into parts, a part at another kind into
a key and a value, and what is blank is dropped at the ends of each.  A rendering writes every
element as a list of others; if it writes each blank as blanks and anything else as one element
that is not blank, then the attributes of what it writes are those of the list, as it writes
them.
-/

namespace Attributes

variable {α β : Type}

/-- The list without the blanks at its start and at its end. -/
def trim (blank : α → Bool) (l : List α) : List α :=
  (l.dropWhile blank).rdropWhile blank

/-- The parts of a list before and after the first element that satisfies `p`. -/
def splitOnce (p : α → Bool) (l : List α) : Option (List α × List α) :=
  match l.dropWhile (!p ·) with
  | [] => none
  | _ :: after => some (l.takeWhile (!p ·), after)

/-- The key and the value of a part, if it has both. -/
def keyValue (blank eq : α → Bool) (part : List α) : Option (List α × List α) :=
  (splitOnce eq (trim blank part)).map fun (key, value) => (trim blank key, trim blank value)

/-- The attributes of a list, as their keys and their values. -/
def attributes (blank sep eq : α → Bool) (l : List α) : List (List α × List α) :=
  (Text.splitList sep l).filterMap (keyValue blank eq)

/-- The first element of what has been trimmed is not blank. -/
theorem head_trim {blank : α → Bool} {l l' : List α} {a : α} (h : trim blank l = a :: l') :
  blank a = false
  := by
  have hpre : trim blank l <+: l.dropWhile blank := List.rdropWhile_prefix _ _
  rw [h] at hpre
  obtain ⟨rest, hrest⟩ := hpre
  have hhead := List.head?_dropWhile_not blank l
  rw [← hrest] at hhead
  simpa using hhead

/-- The key of an attribute has been trimmed. -/
theorem key_trimmed {blank sep eq : α → Bool} {l : List α} {a : List α × List α}
    (h : a ∈ attributes blank sep eq l) :
  ∃ key, a.1 = trim blank key
  := by
  obtain ⟨part, _, hpart⟩ := List.mem_filterMap.mp h
  obtain ⟨⟨key, value⟩, _, rfl⟩ := Option.map_eq_some_iff.mp hpart
  exact ⟨key, rfl⟩

theorem trim_cons_of_blank {blank : α → Bool} {a : α} (ha : blank a = true) (l : List α) :
  trim blank (a :: l) = trim blank l
  := by
  rw [trim, List.dropWhile_cons_of_pos ha, trim]

/-- A blank at the start of a list is no part of its attributes. -/
theorem attributes_cons_of_blank {blank sep eq : α → Bool} {a : α} (ha : blank a = true)
    (hsep : sep a = false) (l : List α) :
  attributes blank sep eq (a :: l) = attributes blank sep eq l
  := by
  rw [attributes, attributes, Text.splitList, hsep]
  cases hparts : Text.splitList sep l with
  | nil => exact absurd hparts (Text.splitList_ne_nil l)
  | cons part parts =>
      have hpart : keyValue blank eq (a :: part) = keyValue blank eq part := by
        rw [keyValue, trim_cons_of_blank ha, keyValue]
      rw [List.filterMap_cons, List.filterMap_cons, hpart]

theorem attributes_dropWhile {blank sep eq p : α → Bool}
    (hp : ∀ a, p a = true → blank a = true ∧ sep a = false) (l : List α) :
  attributes blank sep eq (l.dropWhile p) = attributes blank sep eq l
  := by
  induction l with
  | nil => rfl
  | cons a l ih =>
      cases ha : p a with
      | true =>
          rw [List.dropWhile_cons_of_pos ha, ih,
            attributes_cons_of_blank (hp a ha).1 (hp a ha).2]
      | false => rw [List.dropWhile_cons_of_neg (by simp [ha])]

/-! ### Renderings -/

/-- A rendering writes a blank as blanks, and anything else as one element that is none. -/
structure Renders (blank : α → Bool) (blank' : β → Bool) (g : α → List β) : Prop where
  blanks : ∀ a, blank a = true → ∀ b ∈ g a, blank' b = true
  solid : ∀ a, blank a = false → ∃ b, g a = [b] ∧ blank' b = false

/-- A rendering writes the elements of one kind as single elements of that kind, and in no
other place. -/
structure Marks (p : α → Bool) (p' : β → Bool) (g : α → List β) : Prop where
  mark : ∀ a, p a = true → ∃ b, g a = [b] ∧ p' b = true
  other : ∀ a, p a = false → ∀ b ∈ g a, p' b = false

variable {blank sep eq p : α → Bool} {blank' sep' eq' p' : β → Bool} {g : α → List β}

theorem Renders.reverse (h : Renders blank blank' g) :
  Renders blank blank' fun a => (g a).reverse
  := by
  constructor
  · intro a ha b hb
    apply h.blanks a ha b (List.mem_reverse.mp hb)
  · intro a ha
    obtain ⟨b, hb, hblank⟩ := h.solid a ha
    use b
    constructor
    · rw [hb, List.reverse_singleton]
    · exact hblank

theorem dropWhile_flatMap (h : Renders blank blank' g) (l : List α) :
  (l.flatMap g).dropWhile blank' = (l.dropWhile blank).flatMap g
  := by
  induction l with
  | nil => rfl
  | cons a l ih =>
      rw [List.flatMap_cons]
      cases ha : blank a with
      | true =>
          rw [List.dropWhile_append_of_pos (h.blanks a ha), ih, List.dropWhile_cons_of_pos ha]
      | false =>
          obtain ⟨b, hb, hblank⟩ := h.solid a ha
          rw [List.dropWhile_cons_of_neg (by simp [ha]), hb, List.singleton_append,
            List.dropWhile_cons_of_neg (by simp [hblank]), List.flatMap_cons, hb,
            List.singleton_append]

theorem trim_flatMap (h : Renders blank blank' g) (l : List α) :
  trim blank' (l.flatMap g) = (trim blank l).flatMap g
  := by
  rw [trim, dropWhile_flatMap h, trim, List.rdropWhile, List.rdropWhile, List.reverse_flatMap]
  have hreverse := dropWhile_flatMap h.reverse (l.dropWhile blank).reverse
  have hg : (List.reverse ∘ g) = fun a => (g a).reverse := rfl
  rw [hg, hreverse, List.reverse_flatMap]
  congr 1
  funext a
  apply List.reverse_reverse

theorem splitList_append_of_other {l : List β} (hl : ∀ b ∈ l, sep' b = false) (l' : List β) :
  Text.splitList sep' (l ++ l') = (Text.splitList sep' l').modifyHead (l ++ ·)
  := by
  induction l with
  | nil =>
      rw [List.nil_append]
      cases Text.splitList sep' l' <;> rfl
  | cons b l ih =>
      rw [List.cons_append, Text.splitList, hl b List.mem_cons_self,
        ih fun b hb => hl b (List.mem_cons_of_mem _ hb)]
      cases hparts : Text.splitList sep' l' with
      | nil => exact absurd hparts (Text.splitList_ne_nil l')
      | cons part parts => rfl

theorem splitList_flatMap (h : Marks sep sep' g) (l : List α) :
  Text.splitList sep' (l.flatMap g) = (Text.splitList sep l).map (·.flatMap g)
  := by
  induction l with
  | nil => rfl
  | cons a l ih =>
      rw [List.flatMap_cons]
      cases ha : sep a with
      | true =>
          obtain ⟨b, hb, hsep⟩ := h.mark a ha
          rw [hb, List.singleton_append, Text.splitList, Text.splitList, hsep, ha, ih]
          rfl
      | false =>
          rw [splitList_append_of_other (h.other a ha), ih, Text.splitList, ha]
          cases hparts : Text.splitList sep l with
          | nil => exact absurd hparts (Text.splitList_ne_nil l)
          | cons part parts => rfl

theorem splitOnce_flatMap (h : Marks eq eq' g) (l : List α) :
  splitOnce eq' (l.flatMap g) =
    (splitOnce eq l).map fun (key, value) => (key.flatMap g, value.flatMap g)
  := by
  induction l with
  | nil => rfl
  | cons a l ih =>
      rw [List.flatMap_cons]
      cases ha : eq a with
      | true =>
          obtain ⟨b, hb, heq⟩ := h.mark a ha
          simp [splitOnce, hb, heq, ha]
      | false =>
          have hother : ∀ b ∈ g a, (!eq' b) = true := by
            intro b hb
            rw [h.other a ha b hb, Bool.not_false]
          rw [splitOnce, splitOnce] at ih
          rw [splitOnce, splitOnce, List.dropWhile_append_of_pos hother,
            List.takeWhile_append_of_pos hother, List.dropWhile_cons_of_pos (by simp [ha]),
            List.takeWhile_cons_of_pos (by simp [ha])]
          cases hafter : (l.flatMap g).dropWhile (!eq' ·) with
          | nil =>
              rw [hafter] at ih
              cases hafter' : l.dropWhile (!eq ·) with
              | nil => rfl
              | cons c after' =>
                  rw [hafter'] at ih
                  cases ih
          | cons b after =>
              rw [hafter] at ih
              cases hafter' : l.dropWhile (!eq ·) with
              | nil =>
                  rw [hafter'] at ih
                  cases ih
              | cons c after' =>
                  rw [hafter'] at ih
                  obtain ⟨hkey, hvalue⟩ := Prod.mk.inj (Option.some.inj ih)
                  simp [hkey, hvalue]

/-- The attributes of what is written are those of the list, as they are written. -/
theorem attributes_flatMap (hblank : Renders blank blank' g) (hsep : Marks sep sep' g)
    (heq : Marks eq eq' g) (l : List α) :
  attributes blank' sep' eq' (l.flatMap g) =
    (attributes blank sep eq l).map fun (key, value) => (key.flatMap g, value.flatMap g)
  := by
  have hpart : ∀ part : List α, keyValue blank' eq' (part.flatMap g) =
      (keyValue blank eq part).map fun (key, value) => (key.flatMap g, value.flatMap g) := by
    intro part
    rw [keyValue, trim_flatMap hblank, splitOnce_flatMap heq, keyValue, Option.map_map,
      Option.map_map]
    congr 1
    funext (key, value)
    simp only [Function.comp, trim_flatMap hblank]
  rw [attributes, splitList_flatMap hsep, attributes, List.filterMap_map, List.map_filterMap]
  congr 1
  funext part
  apply hpart

end Attributes
