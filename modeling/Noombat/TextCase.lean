import Mathlib.Data.List.DropRight
import Noombat.Text

/-!
# Letter case and white space

Folding the case of ASCII letters touches nothing but letters, so that it can be done before or
after white space is trimmed.
-/

namespace Text

/-! ### Characters -/

/-- A character in lower case is the same, or is a letter. -/
theorem toLower_cases (c : Char) :
  c.toLower = c ∨ (c.isAlpha = true ∧ c.toLower.isAlpha = true ∧ c.toLower.toLower = c.toLower)
  := by
  unfold Char.toLower
  by_cases h : c.val ≥ 'A'.val ∧ c.val ≤ 'Z'.val
  · right
    rw [dif_pos h]
    have hA : c.val ≥ 65 := h.1
    have hZ : c.val ≤ 90 := h.2
    have hlower : 97 ≤ c.val + 32 ∧ c.val + 32 ≤ 122 := by
      simp only [UInt32.le_iff_toNat_le, UInt32.toNat_add, ge_iff_le] at hA hZ ⊢
      have h65 : (65 : UInt32).toNat = 65 := rfl
      have h90 : (90 : UInt32).toNat = 90 := rfl
      have h32 : (32 : UInt32).toNat = 32 := rfl
      have h97 : (97 : UInt32).toNat = 97 := rfl
      have h122 : (122 : UInt32).toNat = 122 := rfl
      omega
    refine ⟨?_, ?_, ?_⟩
    · simp [isAlpha_eq, isUpper_eq, hA, hZ]
    · simp [isAlpha_eq, isLower_eq, hlower]
    · apply dif_neg
      rintro ⟨_, hle⟩
      have hle' : c.val + 32 ≤ 90 := hle
      have htrans : (97 : UInt32) ≤ 90 := UInt32.le_trans hlower.1 hle'
      revert htrans
      decide
  · left
    rw [dif_neg h]

theorem toLower_idem (c : Char) :
  c.toLower.toLower = c.toLower
  := by
  obtain h | ⟨_, _, h⟩ := toLower_cases c
  · rw [h, h]
  · exact h

theorem isWhitespace_of_isAlpha {c : Char} (h : c.isAlpha = true) :
  isWhitespace c = false
  := by
  simp only [isAlpha_eq, isUpper_eq, isLower_eq, Bool.or_eq_true, Bool.and_eq_true,
    decide_eq_true_eq, UInt32.le_iff_toNat_le, ge_iff_le, Char.reduceVal] at h
  have hA : (65 : UInt32).toNat = 65 := rfl
  have hZ : (90 : UInt32).toNat = 90 := rfl
  have ha : (97 : UInt32).toNat = 97 := rfl
  have hz : (122 : UInt32).toNat = 122 := rfl
  have hval : c.toNat = c.val.toNat := rfl
  simp only [isWhitespace, Bool.or_eq_false_iff, Bool.and_eq_false_iff, beq_eq_false_iff_ne,
    decide_eq_false_iff_not]
  omega

/-- A character that is no letter is no other's lower case. -/
theorem toLower_eq_iff {d : Char} (hd : d.isAlpha = false) (c : Char) :
  c.toLower = d ↔ c = d
  := by
  obtain h | ⟨h, h', _⟩ := toLower_cases c
  · rw [h]
  · constructor
    · rintro rfl
      rw [h'] at hd
      cases hd
    · rintro rfl
      rw [h] at hd
      cases hd

/-! ### Strings -/

theorem toAsciiLowercase_idem (s : String) :
  toAsciiLowercase (toAsciiLowercase s) = toAsciiLowercase s
  := by
  have hcomp : Char.toLower ∘ Char.toLower = Char.toLower := by
    funext c
    apply toLower_idem
  simp only [toAsciiLowercase, map, String.toList_ofList, List.map_map, hcomp]

theorem toAsciiLowercase_eq_empty {s : String} :
  toAsciiLowercase s = "" ↔ s = ""
  := by
  rw [toAsciiLowercase, map, ← String.toList_inj, ← String.toList_inj, String.toList_ofList]
  simp

theorem mem_toAsciiLowercase {d : Char} (hd : d.isAlpha = false) {s : String} :
  d ∈ (toAsciiLowercase s).toList ↔ d ∈ s.toList
  := by
  rw [toAsciiLowercase, map, String.toList_ofList, List.mem_map]
  constructor
  · rintro ⟨c, hc, hcd⟩
    rw [toLower_eq_iff hd] at hcd
    exact hcd ▸ hc
  · intro h
    exact ⟨d, h, (toLower_eq_iff hd d).mpr rfl⟩

/-! ### Trimming -/

/-- Trimming keeps whatever is no white space. -/
theorem mem_trim {c : Char} (hc : isWhitespace c = false) {s : String} :
  c ∈ (trim s).toList ↔ c ∈ s.toList
  := by
  have hkept (l : List Char) : c ∈ l.dropWhile isWhitespace ↔ c ∈ l := by
    constructor
    · intro h
      exact (List.dropWhile_sublist _).mem h
    · intro h
      rw [← List.takeWhile_append_dropWhile (p := isWhitespace) (l := l)] at h
      obtain h | h := List.mem_append.mp h
      · have hblank := List.mem_takeWhile_imp h
        rw [hc] at hblank
        cases hblank
      · exact h
  rw [trim, String.toList_ofList, List.mem_reverse, hkept, List.mem_reverse, hkept]

theorem trim_eq_empty {s : String} :
  trim s = "" ↔ ∀ c ∈ s.toList, isWhitespace c = true
  := by
  constructor
  · intro h c hc
    by_contra hblank
    have hmem := (mem_trim (Bool.eq_false_iff.mpr hblank)).mpr hc
    rw [h] at hmem
    cases hmem
  · intro h
    have hnil : s.toList.dropWhile isWhitespace = [] := List.dropWhile_eq_nil_iff.mpr h
    rw [trim, hnil]
    rfl

theorem trim_trim (s : String) :
  trim (trim s) = trim s
  := by
  -- what is left starts with what the string starts with after its white space
  have hstart : ((s.toList.dropWhile isWhitespace).rdropWhile isWhitespace).dropWhile isWhitespace =
      (s.toList.dropWhile isWhitespace).rdropWhile isWhitespace := by
    have hpre := List.rdropWhile_prefix isWhitespace (s.toList.dropWhile isWhitespace)
    cases hleft : (s.toList.dropWhile isWhitespace).rdropWhile isWhitespace with
    | nil => rfl
    | cons c cs =>
        rw [hleft] at hpre
        have hhead : (s.toList.dropWhile isWhitespace).head? = some c := by
          obtain ⟨more, hmore⟩ := hpre
          rw [← hmore]
          rfl
        have hblank := List.head?_dropWhile_not isWhitespace s.toList
        rw [hhead] at hblank
        rw [List.dropWhile_cons_of_neg (by simp [hblank])]
  have hlist (t : String) : (trim t).toList =
      (t.toList.dropWhile isWhitespace).rdropWhile isWhitespace := by
    rw [trim, String.toList_ofList]
    rfl
  rw [← String.toList_inj, hlist (trim s), hlist s, hstart, List.rdropWhile_idempotent]

end Text
