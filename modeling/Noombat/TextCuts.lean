import Noombat.Text

/-!
# Where characters are found

The first and the last occurrence of a character in a string, found in a string that is taken
apart there.
-/

namespace Text

variable {c : Char} {before after : List Char}

theorem idxOf?_append_cons (h : c ∉ before) :
  (before ++ c :: after).idxOf? c = some before.length
  := by
  induction before with
  | nil => simp [List.idxOf?_cons]
  | cons b before ih =>
      have hne : (b == c) = false := by
        rw [beq_eq_false_iff_ne]
        intro hbc
        exact h (hbc ▸ List.mem_cons_self)
      rw [List.cons_append, List.idxOf?_cons, hne, ih (fun hc => h (List.mem_cons_of_mem b hc))]
      rfl

theorem find_eq_none {s : String} (h : c ∉ s.toList) :
  find c s = none
  := List.idxOf?_eq_none_iff.mpr h

theorem rfind_eq_none {s : String} (h : c ∉ s.toList) :
  rfind c s = none
  := by
  rw [rfind, List.idxOf?_eq_none_iff.mpr (by simpa using h)]
  rfl

theorem find_append_cons (h : c ∉ before) :
  find c (String.ofList (before ++ c :: after)) = some before.length
  := by
  rw [find, String.toList_ofList, idxOf?_append_cons h]

theorem rfind_append_cons (h : c ∉ after) :
  rfind c (String.ofList (before ++ c :: after)) = some before.length
  := by
  have hreverse : (before ++ c :: after).reverse = after.reverse ++ c :: before.reverse := by
    simp
  rw [rfind, String.toList_ofList, hreverse, idxOf?_append_cons (by simpa using h)]
  simp only [Option.map_some, List.length_append, List.length_cons, List.length_reverse,
    Option.some.injEq]
  omega

theorem slice_append (before middle after : List Char) {i j : Nat} (hi : i = before.length)
    (hj : j = before.length + middle.length) :
  slice i j (String.ofList (before ++ middle ++ after)) = String.ofList middle
  := by
  subst hi hj
  rw [slice, String.toList_ofList, List.append_assoc, List.drop_left, Nat.add_sub_cancel_left,
    List.take_left]

/-- Of two elements, one comes first. -/
theorem eq_of_both_first {α : Type} {a b : α} {before after front back : List α}
    (h : before ++ a :: after = front ++ b :: back) (hb : b ∉ before) (ha : a ∉ front) :
  a = b
  := by
  induction before generalizing front with
  | nil =>
      cases front with
      | nil => exact (List.cons.inj h).1
      | cons x front =>
          have hx := (List.cons.inj h).1
          exact absurd (hx ▸ List.mem_cons_self) ha
  | cons x before ih =>
      cases front with
      | nil =>
          have hx := (List.cons.inj h).1
          exact absurd (hx ▸ List.mem_cons_self) hb
      | cons y front =>
          apply ih (List.cons.inj h).2
          · exact fun hmem => hb (List.mem_cons_of_mem x hmem)
          · exact fun hmem => ha (List.mem_cons_of_mem y hmem)

/-- A list is taken apart at the last occurrence of one of its elements. -/
theorem exists_last_of_mem {α : Type} {a : α} {l : List α} (h : a ∈ l) :
  ∃ front back, l = front ++ a :: back ∧ a ∉ back
  := by
  obtain ⟨back, front, hl, hback⟩ := List.eq_append_cons_of_mem (List.mem_reverse.mpr h)
  use front.reverse, back.reverse
  constructor
  · rw [← List.reverse_reverse l, hl]
    simp
  · simpa using hback

end Text
