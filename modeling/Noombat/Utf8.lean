import Noombat.Text

/-!
# Decoding what was encoded

The lossy decoder gives a string back from its encoding, and a byte below `0x80` occurs in an
encoding only as the character that it stands for.
-/

namespace Text

/-- The byte that carries six bits of a character after its first. -/
theorem continuation_bits (n : Nat) :
  isContinuation (UInt8.ofNat (n % 64 + 0x80)) = true ∧
    bits (UInt8.ofNat (n % 64 + 0x80)) 0x3F = n % 64
  := by
  have hbyte : (UInt8.ofNat (n % 64 + 0x80)).toNat = n % 64 + 0x80 := by
    rw [UInt8.toNat_ofNat']
    omega
  constructor
  · simp only [isContinuation, Bool.and_eq_true, decide_eq_true_eq, UInt8.le_iff_toNat_le, hbyte]
    constructor
    · exact Nat.le_add_left _ _
    · change n % 64 + 0x80 ≤ 0xBF
      omega
  · rw [bits, UInt8.toNat_and, hbyte]
    change (n % 64 + 0x80) &&& (2 ^ 6 - 1) = n % 64
    rw [Nat.and_two_pow_sub_one_eq_mod]
    omega

/-- The low bits of a first byte. -/
theorem lead_bits {n lead : Nat} (k : Nat) (mask : UInt8) (hmask : mask.toNat = 2 ^ k - 1)
    (hlead : lead % 2 ^ k = 0) (hn : n < 2 ^ k) (hbyte : n + lead < 256) :
  bits (UInt8.ofNat (n + lead)) mask = n
  := by
  rw [bits, UInt8.toNat_and, hmask, UInt8.toNat_ofNat', Nat.mod_eq_of_lt hbyte,
    Nat.and_two_pow_sub_one_eq_mod, Nat.add_mod, hlead, Nat.add_zero, Nat.mod_mod,
    Nat.mod_eq_of_lt hn]

theorem toNat_byte {n : Nat} (h : n < 256) :
  (UInt8.ofNat n).toNat = n
  := by
  rw [UInt8.toNat_ofNat', Nat.mod_eq_of_lt h]

variable {v : Nat}

theorem decodeChar_one (h : v ≤ 0x7F) (rest : Bytes) :
  decodeChar (UInt8.ofNat v) rest = (Char.ofNat v, 0)
  := by
  have hbyte : (UInt8.ofNat v).toNat = v := toNat_byte (by omega)
  have hlow : UInt8.ofNat v < 0x80 := by
    simp only [UInt8.lt_iff_toNat_lt, hbyte, UInt8.reduceToNat]
    omega
  unfold decodeChar
  rw [if_pos hlow, hbyte]

theorem decodeChar_two (h : 0x7F < v) (h' : v ≤ 0x7FF) (rest : Bytes) :
  decodeChar (UInt8.ofNat (v / 64 + 0xC0)) (UInt8.ofNat (v % 64 + 0x80) :: rest) = (Char.ofNat v, 1)
  := by
  have hbyte : (UInt8.ofNat (v / 64 + 0xC0)).toNat = v / 64 + 0xC0 := toNat_byte (by omega)
  have hlead := @lead_bits (v / 64) 0xC0 5 0x1F rfl rfl (by omega) (by omega)
  obtain ⟨hcont, hbits⟩ := continuation_bits v
  have hlow : ¬ UInt8.ofNat (v / 64 + 0xC0) < 0x80 := by
    simp only [UInt8.lt_iff_toNat_lt, hbyte, UInt8.reduceToNat]
    omega
  have htwo : (0xC2 ≤ UInt8.ofNat (v / 64 + 0xC0) && UInt8.ofNat (v / 64 + 0xC0) ≤ 0xDF &&
      isContinuation (UInt8.ofNat (v % 64 + 0x80))) = true := by
    simp only [hcont, Bool.and_eq_true, decide_eq_true_eq, UInt8.le_iff_toNat_le, hbyte,
      UInt8.reduceToNat, and_true]
    omega
  have hsum : v / 64 * 64 + v % 64 = v := by omega
  unfold decodeChar
  rw [if_neg hlow]
  simp only
  rw [if_pos htwo, hlead, hbits, hsum]

theorem decodeChar_three (h : 0x7FF < v) (h' : v ≤ 0xFFFF)
    (hvalid : v < 0xD800 ∨ 0xDFFF < v) (rest : Bytes) :
  decodeChar (UInt8.ofNat (v / 4096 + 0xE0))
      (UInt8.ofNat (v / 64 % 64 + 0x80) :: UInt8.ofNat (v % 64 + 0x80) :: rest) =
    (Char.ofNat v, 2)
  := by
  have hbyte : (UInt8.ofNat (v / 4096 + 0xE0)).toNat = v / 4096 + 0xE0 := toNat_byte (by omega)
  have hbyte₁ : (UInt8.ofNat (v / 64 % 64 + 0x80)).toNat = v / 64 % 64 + 0x80 :=
    toNat_byte (by omega)
  have hlead := @lead_bits (v / 4096) 0xE0 4 0x0F rfl rfl (by omega) (by omega)
  obtain ⟨-, hbits₁⟩ := continuation_bits (v / 64)
  obtain ⟨hcont₂, hbits₂⟩ := continuation_bits v
  have hlow : ¬ UInt8.ofNat (v / 4096 + 0xE0) < 0x80 := by
    simp only [UInt8.lt_iff_toNat_lt, hbyte, UInt8.reduceToNat]
    omega
  have htwo : ¬ (0xC2 ≤ UInt8.ofNat (v / 4096 + 0xE0) && UInt8.ofNat (v / 4096 + 0xE0) ≤ 0xDF &&
      isContinuation (UInt8.ofNat (v / 64 % 64 + 0x80))) = true := by
    simp only [Bool.and_eq_true, decide_eq_true_eq, UInt8.le_iff_toNat_le, hbyte,
      UInt8.reduceToNat]
    omega
  have hthree : isSecondOfThree (UInt8.ofNat (v / 4096 + 0xE0))
      (UInt8.ofNat (v / 64 % 64 + 0x80)) = true := by
    simp only [isSecondOfThree, isContinuation, Bool.or_eq_true, Bool.and_eq_true,
      decide_eq_true_eq, beq_iff_eq, bne_iff_ne, ne_eq, ← UInt8.toNat_inj, UInt8.le_iff_toNat_le,
      hbyte, hbyte₁, UInt8.reduceToNat]
    omega
  have hsum : (v / 4096 * 64 + v / 64 % 64) * 64 + v % 64 = v := by omega
  unfold decodeChar
  rw [if_neg hlow]
  simp only
  rw [if_neg htwo, if_pos hthree, if_pos hcont₂, hlead, hbits₁, hbits₂, hsum]

theorem decodeChar_four (h : 0xFFFF < v) (h' : v < 0x110000) (rest : Bytes) :
  decodeChar (UInt8.ofNat (v / 262144 + 0xF0))
      (UInt8.ofNat (v / 4096 % 64 + 0x80) :: UInt8.ofNat (v / 64 % 64 + 0x80) ::
        UInt8.ofNat (v % 64 + 0x80) :: rest) =
    (Char.ofNat v, 3)
  := by
  have hbyte : (UInt8.ofNat (v / 262144 + 0xF0)).toNat = v / 262144 + 0xF0 :=
    toNat_byte (by omega)
  have hbyte₁ : (UInt8.ofNat (v / 4096 % 64 + 0x80)).toNat = v / 4096 % 64 + 0x80 :=
    toNat_byte (by omega)
  have hlead := @lead_bits (v / 262144) 0xF0 3 0x07 rfl rfl (by omega) (by omega)
  obtain ⟨-, hbits₁⟩ := continuation_bits (v / 4096)
  obtain ⟨hcont₂, hbits₂⟩ := continuation_bits (v / 64)
  obtain ⟨hcont₃, hbits₃⟩ := continuation_bits v
  have hlow : ¬ UInt8.ofNat (v / 262144 + 0xF0) < 0x80 := by
    simp only [UInt8.lt_iff_toNat_lt, hbyte, UInt8.reduceToNat]
    omega
  have htwo : ¬ (0xC2 ≤ UInt8.ofNat (v / 262144 + 0xF0) &&
      UInt8.ofNat (v / 262144 + 0xF0) ≤ 0xDF &&
      isContinuation (UInt8.ofNat (v / 4096 % 64 + 0x80))) = true := by
    simp only [Bool.and_eq_true, decide_eq_true_eq, UInt8.le_iff_toNat_le, hbyte,
      UInt8.reduceToNat]
    omega
  have hthree : ¬ isSecondOfThree (UInt8.ofNat (v / 262144 + 0xF0))
      (UInt8.ofNat (v / 4096 % 64 + 0x80)) = true := by
    simp only [isSecondOfThree, Bool.or_eq_true, Bool.and_eq_true, decide_eq_true_eq, beq_iff_eq,
      bne_iff_ne, ne_eq, ← UInt8.toNat_inj, UInt8.le_iff_toNat_le, hbyte, UInt8.reduceToNat]
    omega
  have hfour : isSecondOfFour (UInt8.ofNat (v / 262144 + 0xF0))
      (UInt8.ofNat (v / 4096 % 64 + 0x80)) = true := by
    simp only [isSecondOfFour, isContinuation, Bool.or_eq_true, Bool.and_eq_true,
      decide_eq_true_eq, beq_iff_eq, ← UInt8.toNat_inj, UInt8.le_iff_toNat_le, hbyte, hbyte₁,
      UInt8.reduceToNat]
    omega
  have hsum : ((v / 262144 * 64 + v / 4096 % 64) * 64 + v / 64 % 64) * 64 + v % 64 = v := by omega
  unfold decodeChar
  rw [if_neg hlow]
  simp only
  rw [if_neg htwo, if_neg hthree, if_pos hfour]
  simp only [hcont₂, hcont₃, Bool.and_self, if_true]
  rw [hlead, hbits₁, hbits₂, hbits₃, hsum]

/-- What a character is decoded to from the start of its encoding. -/
theorem decodeChar_utf8EncodeChar (c : Char) :
  ∃ b₀ bytes, String.utf8EncodeChar c = b₀ :: bytes ∧
    ∀ rest, decodeChar b₀ (bytes ++ rest) = (c, bytes.length)
  := by
  have hvalid : c.val.toNat < 0xD800 ∨ 0xDFFF < c.val.toNat ∧ c.val.toNat < 0x110000 := c.valid
  have hchar : Char.ofNat c.val.toNat = c := Char.ofNat_toNat c
  generalize hv : c.val.toNat = v at hvalid hchar
  rw [String.utf8EncodeChar, hv]
  -- one case for each number of bytes
  by_cases h₁ : v ≤ 0x7F
  · rw [if_pos h₁]
    refine ⟨_, _, rfl, ?_⟩
    intro rest
    rw [decodeChar_one h₁, hchar]
    rfl
  · rw [if_neg h₁]
    by_cases h₂ : v ≤ 0x7FF
    · rw [if_pos h₂, Nat.mod_eq_of_lt (a := v / 64) (b := 0x20) (by omega)]
      refine ⟨_, _, rfl, ?_⟩
      intro rest
      have hdecode := decodeChar_two (Nat.lt_of_not_le h₁) h₂ rest
      rw [hchar] at hdecode
      exact hdecode
    · rw [if_neg h₂]
      by_cases h₃ : v ≤ 0xFFFF
      · rw [if_pos h₃, Nat.mod_eq_of_lt (a := v / 4096) (b := 0x10) (by omega)]
        refine ⟨_, _, rfl, ?_⟩
        intro rest
        have hdecode := decodeChar_three (Nat.lt_of_not_le h₂) h₃ (by omega) rest
        rw [hchar] at hdecode
        exact hdecode
      · rw [if_neg h₃, Nat.mod_eq_of_lt (a := v / 262144) (b := 0x08) (by omega)]
        refine ⟨_, _, rfl, ?_⟩
        intro rest
        have hdecode := decodeChar_four (Nat.lt_of_not_le h₃) (by omega) rest
        rw [hchar] at hdecode
        exact hdecode

theorem lossyChars_append_length (bytes rest : Bytes) :
  lossyChars bytes.length (bytes ++ rest) = lossyChars 0 rest
  := by
  induction bytes with
  | nil => rfl
  | cons b bytes ih =>
      rw [List.cons_append, List.length_cons, lossyChars]
      exact ih

/-- The lossy decoder undoes the encoding. -/
theorem fromUtf8Lossy_asBytes (s : String) :
  fromUtf8Lossy (asBytes s) = s
  := by
  have hchars (cs : List Char) : lossyChars 0 (cs.flatMap String.utf8EncodeChar) = cs := by
    induction cs with
    | nil => rfl
    | cons c cs ih =>
        obtain ⟨b₀, bytes, hencode, hdecode⟩ := decodeChar_utf8EncodeChar c
        rw [List.flatMap_cons, hencode, List.cons_append, lossyChars, hdecode]
        simp only
        rw [lossyChars_append_length, ih]
  rw [fromUtf8Lossy, asBytes, hchars, String.ofList_toList]

/-- A low byte stands for its character. -/
theorem mem_utf8EncodeChar {b : UInt8} (hb : b.toNat < 0x80) {c : Char}
    (h : b ∈ String.utf8EncodeChar c) :
  c.val.toNat = b.toNat
  := by
  have hvalid : c.val.toNat < 0x110000 := by
    have : c.val.toNat < 0xD800 ∨ 0xDFFF < c.val.toNat ∧ c.val.toNat < 0x110000 := c.valid
    omega
  generalize hv : c.val.toNat = v at hvalid
  rw [String.utf8EncodeChar, hv] at h
  have high {n : Nat} (hn : 0x80 ≤ n) (hn' : n < 256) : b ≠ UInt8.ofNat n := by
    rintro rfl
    rw [toNat_byte hn'] at hb
    omega
  split at h
  · rw [List.mem_singleton.mp h, toNat_byte (by omega)]
  · split at h
    · simp only [List.mem_cons, List.not_mem_nil, or_false] at h
      rcases h with h | h
      · exact absurd h (high (by omega) (by omega))
      · exact absurd h (high (by omega) (by omega))
    · split at h
      · simp only [List.mem_cons, List.not_mem_nil, or_false] at h
        rcases h with h | h | h
        · exact absurd h (high (by omega) (by omega))
        · exact absurd h (high (by omega) (by omega))
        · exact absurd h (high (by omega) (by omega))
      · simp only [List.mem_cons, List.not_mem_nil, or_false] at h
        rcases h with h | h | h | h
        · exact absurd h (high (by omega) (by omega))
        · exact absurd h (high (by omega) (by omega))
        · exact absurd h (high (by omega) (by omega))
        · exact absurd h (high (by omega) (by omega))

theorem mem_asBytes_feed {s : String} :
  0x0A ∈ asBytes s ↔ '\n' ∈ s.toList
  := by
  rw [asBytes, List.mem_flatMap]
  constructor
  · rintro ⟨c, hc, hmem⟩
    have hval := mem_utf8EncodeChar (b := 0x0A) (by decide) hmem
    obtain rfl : c = '\n' := by
      apply Char.ext
      apply UInt32.toNat_inj.mp
      rw [hval]
      rfl
    exact hc
  · intro h
    exact ⟨'\n', h, by decide⟩

theorem asBytes_append (s t : String) :
  asBytes (s ++ t) = asBytes s ++ asBytes t
  := by
  rw [asBytes, String.toList_append, List.flatMap_append]
  rfl

end Text
