import Noombat.Text

/-!
# The parts of a list

A list is split into parts at the elements that separate.  Parts that are joined at a separator
are split again.
-/

namespace Text

variable {α : Type} {q : α → Bool}

theorem splitList_ne_nil (l : List α) :
  splitList q l ≠ []
  := by
  intro h
  have hhead := head_splitList q l
  rw [h] at hhead
  cases hhead

/-- A list is split where it is joined at a separator. -/
theorem splitList_append_cons {a : α} (ha : q a = true) (l l' : List α) :
  splitList q (l ++ a :: l') = splitList q l ++ splitList q l'
  := by
  induction l with
  | nil =>
      rw [List.nil_append, splitList, splitList, ha]
      rfl
  | cons b l ih =>
      rw [List.cons_append, splitList, splitList, ih]
      cases hparts : splitList q l with
      | nil => exact absurd hparts (splitList_ne_nil l)
      | cons part parts =>
          cases q b with
          | true => rfl
          | false => rfl

/-- A list without separators is one part. -/
theorem splitList_of_clear {l : List α} (h : ∀ a ∈ l, q a = false) :
  splitList q l = [l]
  := by
  induction l with
  | nil => rfl
  | cons a l ih =>
      rw [splitList, h a List.mem_cons_self, ih fun b hb => h b (List.mem_cons_of_mem _ hb)]

/-- What is joined at a separator is split into the parts again. -/
theorem splitList_intercalate {a : α} (ha : q a = true) {parts : List (List α)} (hne : parts ≠ [])
    (h : ∀ part ∈ parts, ∀ b ∈ part, q b = false) :
  splitList q ([a].intercalate parts) = parts
  := by
  induction parts with
  | nil => exact absurd rfl hne
  | cons part parts ih =>
      have hpart := splitList_of_clear (h part List.mem_cons_self)
      cases parts with
      | nil => rw [List.intercalate_singleton, hpart]
      | cons part' parts =>
          rw [List.intercalate_cons_cons, List.append_assoc, List.singleton_append,
            splitList_append_cons ha, hpart,
            ih (List.cons_ne_nil _ _) fun p hp => h p (List.mem_cons_of_mem _ hp)]
          rfl

/-- No part has an element that separates. -/
theorem not_of_mem_splitList {l part : List α} (h : part ∈ splitList q l) :
  ∀ a ∈ part, q a = false
  := by
  induction l generalizing part with
  | nil =>
      obtain rfl := List.mem_singleton.mp h
      intro a ha
      cases ha
  | cons b l ih =>
      rw [splitList] at h
      cases hparts : splitList q l with
      | nil => exact absurd hparts (splitList_ne_nil l)
      | cons part' parts =>
          rw [hparts] at h ih
          cases hb : q b with
          | true =>
              rw [hb] at h
              obtain rfl | h := List.mem_cons.mp h
              · intro a ha
                cases ha
              · exact ih h
          | false =>
              rw [hb] at h
              obtain rfl | h := List.mem_cons.mp h
              · intro a ha
                obtain rfl | ha := List.mem_cons.mp ha
                · exact hb
                · exact ih List.mem_cons_self a ha
              · exact ih (List.mem_cons_of_mem _ h)

/-- The parts have elements of the list only. -/
theorem mem_of_mem_splitList {l part : List α} {c : α}
    (hpart : part ∈ splitList q l) (hc : c ∈ part) :
  c ∈ l
  := by
  induction l generalizing part with
  | nil =>
      rw [splitList, List.mem_singleton] at hpart
      rw [hpart] at hc
      cases hc
  | cons a l ih =>
      rw [splitList] at hpart
      split at hpart
      · obtain rfl | hpart := List.mem_cons.mp hpart
        · cases hc
        · exact List.mem_cons_of_mem a (ih hpart hc)
      · rw [List.mem_singleton] at hpart
        rw [hpart, List.mem_singleton] at hc
        exact hc ▸ List.mem_cons_self
      · rename_i first parts _ hparts
        obtain rfl | hpart := List.mem_cons.mp hpart
        · obtain rfl | hc := List.mem_cons.mp hc
          · exact List.mem_cons_self
          · exact List.mem_cons_of_mem a (ih (hparts ▸ List.mem_cons_self) hc)
        · exact List.mem_cons_of_mem a (ih (hparts ▸ List.mem_cons_of_mem first hpart) hc)

/-- What is put at the end of a list, and does not separate, is at the end of its last part. -/
theorem splitList_append_of_clear (l : List α) {l' : List α} (h : ∀ a ∈ l', q a = false) :
  ∃ parts part, splitList q l = parts ++ [part] ∧ splitList q (l ++ l') = parts ++ [part ++ l']
  := by
  induction l with
  | nil => exact ⟨[], [], rfl, splitList_of_clear h⟩
  | cons b l ih =>
      obtain ⟨parts, part, hl, hl'⟩ := ih
      rw [List.cons_append, splitList, splitList, hl, hl']
      cases q b with
      | true => exact ⟨[] :: parts, part, rfl, rfl⟩
      | false =>
          cases parts with
          | nil => exact ⟨[], b :: part, rfl, rfl⟩
          | cons part' parts => exact ⟨(b :: part') :: parts, part, rfl, rfl⟩

/-- The parts of a list, joined where they were split. -/
theorem intercalate_splitList [BEq α] [LawfulBEq α] (a : α) (l : List α) :
  [a].intercalate (splitList (· == a) l) = l
  := by
  induction l with
  | nil => rfl
  | cons b l ih =>
      rw [splitList]
      cases hparts : splitList (· == a) l with
      | nil => exact absurd hparts (splitList_ne_nil l)
      | cons part parts =>
          rw [hparts] at ih
          cases hb : b == a with
          | true =>
              rw [beq_iff_eq.mp hb]
              dsimp only
              rw [List.intercalate_cons_cons, ih]
              rfl
          | false =>
              dsimp only
              cases parts with
              | nil =>
                  rw [List.intercalate_singleton] at ih ⊢
                  rw [ih]
              | cons part' parts =>
                  rw [List.intercalate_cons_cons] at ih ⊢
                  rw [List.cons_append, List.cons_append, ih]

end Text
