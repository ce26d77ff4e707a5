import Mathlib.Data.List.Count
import Mathlib.Data.List.Nodup

/-!
# Names told apart by numbers

A name that has come before is given the number of times that it has come before.  The numbers are
counted up to a limit, where they begin again.  The names so given are different just if no name
comes too often and none is the same as another with a number.
-/

namespace Numbering

/-- A name with a number, or alone if the number is zero. -/
def suffixed (name : String) (n : Nat) : String :=
  if n = 0 then name else name ++ "-" ++ toString n

/-- The names with their numbers, if the names `before` have come already. -/
def numberedAfter (limit : Nat) (before : List String) : List String → List String
  | [] => []
  | name :: names =>
      suffixed name (before.count name % limit) :: numberedAfter limit (before ++ [name]) names

/-! ### Names with numbers -/

theorem not_mem_toString (n : Nat) :
  '-' ∉ (toString n).toList
  := by
  intro h
  rw [Nat.toString_eq_repr, Nat.repr_eq_ofList_toDigits, String.toList_ofList] at h
  exact absurd (Nat.isDigit_of_mem_toDigits (by decide) (by decide) h) (by decide)

theorem toString_injective {n n' : Nat} (h : toString n = toString n') :
  n = n'
  := by
  have hdigits : Nat.toDigits 10 n = Nat.toDigits 10 n' := by
    have := congrArg String.toList h
    simpa [Nat.toString_eq_repr, Nat.repr_eq_ofList_toDigits, String.toList_ofList] using this
  rw [← Nat.ofDigitChars_ten_toDigits (n := n), hdigits, Nat.ofDigitChars_ten_toDigits]

@[simp]
theorem suffixed_zero (name : String) :
  suffixed name 0 = name
  := rfl

theorem toList_suffixed {n : Nat} (h : 0 < n) (name : String) :
  (suffixed name n).toList = name.toList ++ '-' :: (toString n).toList
  := by
  rw [suffixed, if_neg (Nat.pos_iff_ne_zero.mp h), String.toList_append, String.toList_append,
    List.append_assoc]
  rfl

/-- What stands after the last hyphen is the number. -/
theorem suffixed_inj {name name' : String} {n n' : Nat} (hn : 0 < n) (hn' : 0 < n')
    (h : suffixed name n = suffixed name' n') :
  name = name' ∧ n = n'
  := by
  have hlist := congrArg String.toList h
  rw [toList_suffixed hn, toList_suffixed hn'] at hlist
  have hplain := not_mem_toString n
  have hplain' := not_mem_toString n'
  obtain ⟨tail, hname, htail⟩ | ⟨tail, hname, htail⟩ := List.append_eq_append_iff.mp hlist
  · cases tail with
    | nil =>
        rw [List.append_nil] at hname
        rw [List.nil_append] at htail
        exact ⟨(String.toList_inj.mp hname).symm,
          toString_injective (String.toList_inj.mp (List.cons.inj htail).2)⟩
    | cons c tail =>
        -- the hyphen of the second name would stand in the number of the first
        obtain ⟨-, htail⟩ := List.cons.inj htail
        exact absurd (htail ▸ List.mem_append_right _ List.mem_cons_self) hplain
  · cases tail with
    | nil =>
        rw [List.append_nil] at hname
        rw [List.nil_append] at htail
        exact ⟨String.toList_inj.mp hname,
          (toString_injective (String.toList_inj.mp (List.cons.inj htail).2)).symm⟩
    | cons c tail =>
        obtain ⟨-, htail⟩ := List.cons.inj htail
        exact absurd (htail ▸ List.mem_append_right _ List.mem_cons_self) hplain'

theorem suffixed_ne_self {n : Nat} (h : 0 < n) (name : String) :
  suffixed name n ≠ name
  := by
  intro heq
  have hlength := congrArg (fun s => s.toList.length) heq
  simp only [toList_suffixed h, List.length_append, List.length_cons] at hlength
  omega

theorem suffixed_eq_empty_iff {name : String} {n : Nat} :
  suffixed name n = "" ↔ n = 0 ∧ name = ""
  := by
  rcases Nat.eq_zero_or_pos n with rfl | h
  · simp
  · constructor
    · intro heq
      have hlist := congrArg String.toList heq
      rw [toList_suffixed h] at hlist
      simp at hlist
    · rintro ⟨rfl, -⟩
      exact absurd h (Nat.lt_irrefl 0)

/-! ### Lists of names -/

variable {limit : Nat} {names : List String}

theorem getElem?_numberedAfter (before : List String) (i : Nat) :
  (numberedAfter limit before names)[i]? =
    names[i]?.map fun name => suffixed name ((before ++ names.take i).count name % limit)
  := by
  induction names generalizing before i with
  | nil => rfl
  | cons name names ih =>
      cases i with
      | zero => simp [numberedAfter]
      | succ i => simp [numberedAfter, ih]

theorem numberedAfter_concat (before : List String) (name : String) :
  numberedAfter limit before (names ++ [name]) =
    numberedAfter limit before names ++ [suffixed name ((before ++ names).count name % limit)]
  := by
  induction names generalizing before with
  | nil => simp [numberedAfter]
  | cons first names ih => simp [numberedAfter, ih]

theorem length_numberedAfter (before : List String) :
  (numberedAfter limit before names).length = names.length
  := by
  induction names generalizing before with
  | nil => rfl
  | cons name names ih => simp [numberedAfter, ih]

/-- A name comes for every number below the times that it comes. -/
theorem exists_getElem?_of_lt_count {name : String} {n : Nat} (h : n < names.count name) :
  ∃ i, names[i]? = some name ∧ (names.take i).count name = n
  := by
  induction names generalizing n with
  | nil => simp at h
  | cons first names ih =>
      by_cases hfirst : first = name
      · subst hfirst
        cases n with
        | zero => exact ⟨0, rfl, rfl⟩
        | succ n =>
            rw [List.count_cons_self] at h
            obtain ⟨i, hi, hcount⟩ := ih (Nat.lt_of_succ_lt_succ h)
            use i + 1
            constructor
            · exact hi
            · rw [List.take_succ_cons, List.count_cons_self, hcount]
      · rw [List.count_cons_of_ne hfirst] at h
        obtain ⟨i, hi, hcount⟩ := ih h
        use i + 1
        constructor
        · exact hi
        · rw [List.take_succ_cons, List.count_cons_of_ne hfirst, hcount]

theorem count_take_lt {name : String} {i : Nat} (h : names[i]? = some name) :
  (names.take i).count name < names.count name
  := by
  have hsplit := List.take_append_drop i names
  have hdrop : name ∈ names.drop i := by
    apply List.mem_of_getElem? (i := 0)
    rw [List.getElem?_drop]
    exact h
  have hpos := List.count_pos_iff.mpr hdrop
  conv_rhs => rw [← hsplit, List.count_append]
  omega

theorem count_take_lt_count_take {name : String} {i j : Nat} (h : names[i]? = some name)
    (hij : i < j) :
  (names.take i).count name < (names.take j).count name
  := by
  have htake : (names.take j)[i]? = some name := by
    rw [List.getElem?_take_of_lt hij, h]
  have := count_take_lt htake
  rw [List.take_take, Nat.min_eq_left (Nat.le_of_lt hij)] at this
  exact this

/-- No name comes more often than there are numbers, and no name is the same as another with one of
its numbers. -/
structure Apart (limit : Nat) (names : List String) : Prop where
  few : ∀ name ∈ names, names.count name ≤ limit
  other : ∀ name ∈ names, ∀ n, 0 < n → n < names.count name → suffixed name n ∉ names

/-- The names with their numbers are different just if the names are apart. -/
theorem nodup_numberedAfter_iff (hlimit : 0 < limit) :
  (numberedAfter limit [] names).Nodup ↔ Apart limit names
  := by
  rw [List.nodup_iff_getElem?_ne_getElem?]
  simp only [length_numberedAfter, getElem?_numberedAfter, List.nil_append]
  constructor
  · intro h
    have distinct {i j : Nat} {name name' : String} (hi : names[i]? = some name)
        (hj : names[j]? = some name') (hne : i ≠ j) :
        suffixed name ((names.take i).count name % limit) ≠
          suffixed name' ((names.take j).count name' % limit) := by
      intro heq
      have hli := (List.getElem?_eq_some_iff.mp hi).1
      have hlj := (List.getElem?_eq_some_iff.mp hj).1
      rcases Nat.lt_or_gt_of_ne hne with hlt | hlt
      · apply h i j hlt hlj
        rw [hi, hj, Option.map_some, Option.map_some, heq]
      · apply h j i hlt hli
        rw [hi, hj, Option.map_some, Option.map_some, heq]
    have hfew : ∀ name ∈ names, names.count name ≤ limit := by
      intro name hname
      by_contra hmany
      obtain ⟨i, hi, hcount⟩ := exists_getElem?_of_lt_count (List.count_pos_iff.mpr hname)
      obtain ⟨j, hj, hcount'⟩ := exists_getElem?_of_lt_count (Nat.lt_of_not_le hmany)
      apply distinct hi hj
      · rintro rfl
        omega
      · rw [hcount, hcount', Nat.zero_mod, Nat.mod_self]
    constructor
    · exact hfew
    · intro name hname n hpos hn hmem
      obtain ⟨i, hi, hcount⟩ := exists_getElem?_of_lt_count hn
      obtain ⟨j, hj, hcount'⟩ := exists_getElem?_of_lt_count (List.count_pos_iff.mpr hmem)
      have hbelow : n < limit := Nat.lt_of_lt_of_le hn (hfew name hname)
      apply distinct hi hj
      · rintro rfl
        exact suffixed_ne_self hpos name (Option.some.inj (hj.symm.trans hi))
      · rw [hcount, hcount', Nat.mod_eq_of_lt hbelow, Nat.zero_mod, suffixed_zero]
  · intro h i j hij hj heq
    obtain ⟨name', hj'⟩ : ∃ name', names[j]? = some name' := ⟨_, List.getElem?_eq_getElem hj⟩
    obtain ⟨name, hi'⟩ : ∃ name, names[i]? = some name :=
      ⟨_, List.getElem?_eq_getElem (Nat.lt_trans hij hj)⟩
    have hname := List.mem_of_getElem? hi'
    have hname' := List.mem_of_getElem? hj'
    have hbelow : (names.take i).count name < limit :=
      Nat.lt_of_lt_of_le (count_take_lt hi') (h.few name hname)
    have hbelow' : (names.take j).count name' < limit :=
      Nat.lt_of_lt_of_le (count_take_lt hj') (h.few name' hname')
    rw [hi', hj', Option.map_some, Option.map_some, Nat.mod_eq_of_lt hbelow,
      Nat.mod_eq_of_lt hbelow'] at heq
    have heq := Option.some.inj heq
    rcases Nat.eq_zero_or_pos ((names.take i).count name) with hzero | hpos
    · rcases Nat.eq_zero_or_pos ((names.take j).count name') with hzero' | hpos'
      · rw [hzero, hzero', suffixed_zero, suffixed_zero] at heq
        subst heq
        have := count_take_lt_count_take hi' hij
        omega
      · rw [hzero, suffixed_zero] at heq
        exact h.other name' hname' _ hpos' (count_take_lt hj') (heq ▸ hname)
    · rcases Nat.eq_zero_or_pos ((names.take j).count name') with hzero' | hpos'
      · rw [hzero', suffixed_zero] at heq
        exact h.other name hname _ hpos (count_take_lt hi') (heq ▸ hname')
      · obtain ⟨rfl, hsame⟩ := suffixed_inj hpos hpos' heq
        have := count_take_lt_count_take hi' hij
        omega

/-- No name with its number is empty just if no name is. -/
theorem ne_empty_numberedAfter_iff :
  (∀ name ∈ numberedAfter limit [] names, name ≠ "") ↔ "" ∉ names
  := by
  constructor
  · intro h hmem
    obtain ⟨i, hi, hcount⟩ := exists_getElem?_of_lt_count (List.count_pos_iff.mpr hmem)
    apply h "" _ rfl
    apply List.mem_of_getElem? (i := i)
    rw [getElem?_numberedAfter, hi, Option.map_some, List.nil_append, hcount, Nat.zero_mod,
      suffixed_zero]
  · rintro h _ hmem rfl
    obtain ⟨i, hi⟩ := List.mem_iff_getElem?.mp hmem
    rw [getElem?_numberedAfter] at hi
    obtain ⟨name, hname, heq⟩ := Option.map_eq_some_iff.mp hi
    obtain ⟨-, rfl⟩ := suffixed_eq_empty_iff.mp heq
    exact h (List.mem_of_getElem? hname)

end Numbering
