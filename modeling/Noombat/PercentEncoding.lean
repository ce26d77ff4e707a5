import Noombat.Text

/-!
# Percent encoding

Characters that are kept stand for themselves, others for the bytes of their UTF-8 encoding, each
written as a percent sign and two hexadecimal digits.  Reading the bytes back undoes the encoding,
if the percent sign is not kept.
-/

namespace Percent

/-- The hexadecimal digits, in upper case. -/
def digits : List Char :=
  "0123456789ABCDEF".toList

def hexDigit (n : Nat) : Char :=
  digits.getD n '0'

/-- The value of a hexadecimal digit, in either case. -/
def hexValue (c : Char) : Nat :=
  digits.idxOf c.toUpper

def encodeByte (b : UInt8) : List Char :=
  ['%', hexDigit (b.toNat / 16), hexDigit (b.toNat % 16)]

/-- A character that is not kept, encoded. -/
def encodeChar (c : Char) : List Char :=
  (String.utf8EncodeChar c).flatMap encodeByte

/-- A text in which the characters that are not kept are encoded. -/
def encode (keep : Char → Bool) (cs : List Char) : List Char :=
  cs.flatMap fun c => if keep c then [c] else encodeChar c

/-- The bytes that an encoded text stands for. -/
def decode : List Char → Bytes
  | '%' :: a :: b :: rest => UInt8.ofNat (hexValue a * 16 + hexValue b) :: decode rest
  | c :: rest => String.utf8EncodeChar c ++ decode rest
  | [] => []

variable {keep : Char → Bool}

@[simp]
theorem encode_nil :
  encode keep [] = []
  := rfl

theorem encode_cons (c : Char) (cs : List Char) :
  encode keep (c :: cs) = (if keep c then [c] else encodeChar c) ++ encode keep cs
  := rfl

/-- A text all of whose characters are kept is its own encoding. -/
theorem encode_eq_self {cs : List Char} (h : ∀ c ∈ cs, keep c = true) :
  encode keep cs = cs
  := by
  induction cs with
  | nil => rfl
  | cons c cs ih =>
      rw [encode_cons, if_pos (h c List.mem_cons_self),
        ih fun d hd => h d (List.mem_cons_of_mem _ hd)]
      rfl

theorem hexDigit_mem {n : Nat} (hn : n < 16) :
  hexDigit n ∈ digits
  := by
  revert n
  decide

/-- What an encoded text consists of. -/
theorem mem_encode {c : Char} {cs : List Char} (h : c ∈ encode keep cs) :
  c ∈ cs ∧ keep c = true ∨ c = '%' ∨ c ∈ digits
  := by
  obtain ⟨d, hd, hc⟩ := List.mem_flatMap.mp h
  split at hc
  · rename_i hkeep
    obtain rfl := List.mem_singleton.mp hc
    exact .inl ⟨hd, hkeep⟩
  · obtain ⟨b, _, hb⟩ := List.mem_flatMap.mp hc
    have hlt := b.toNat_lt
    simp only [encodeByte, List.mem_cons, List.not_mem_nil, or_false] at hb
    obtain rfl | rfl | rfl := hb
    · exact .inr (.inl rfl)
    · exact .inr (.inr (hexDigit_mem (by omega)))
    · exact .inr (.inr (hexDigit_mem (by omega)))

theorem hexValue_hexDigit {n : Nat} (hn : n < 16) :
  hexValue (hexDigit n) = n
  := by
  revert n
  decide

theorem decode_cons_of_ne {c : Char} (hc : c ≠ '%') (rest : List Char) :
  decode (c :: rest) = String.utf8EncodeChar c ++ decode rest
  := by
  rw [decode]
  rintro a b rest' rfl
  exact fun _ => hc rfl

theorem decode_encodeByte (b : UInt8) (rest : List Char) :
  decode (encodeByte b ++ rest) = b :: decode rest
  := by
  have hlt := b.toNat_lt
  rw [encodeByte, List.cons_append, List.cons_append, List.cons_append, decode,
    hexValue_hexDigit (by omega), hexValue_hexDigit (by omega), List.nil_append]
  congr 1
  apply UInt8.toNat_inj.mp
  rw [UInt8.toNat_ofNat']
  omega

theorem decode_encodeChar (c : Char) (rest : List Char) :
  decode (encodeChar c ++ rest) = String.utf8EncodeChar c ++ decode rest
  := by
  rw [encodeChar]
  induction String.utf8EncodeChar c with
  | nil => rfl
  | cons b bytes ih =>
      rw [List.flatMap_cons, List.append_assoc, decode_encodeByte, ih]
      rfl

/-- The encoding of a text stands for its bytes. -/
theorem decode_encode (hkeep : keep '%' = false) (cs : List Char) :
  decode (encode keep cs) = Text.asBytes (String.ofList cs)
  := by
  rw [Text.asBytes, String.toList_ofList]
  induction cs with
  | nil => rfl
  | cons c cs ih =>
      rw [encode_cons, List.flatMap_cons, ← ih]
      split
      · rename_i hc
        apply decode_cons_of_ne
        rintro rfl
        rw [hkeep] at hc
        cases hc
      · apply decode_encodeChar

/-- Texts with one encoding are the same. -/
theorem encode_injective (hkeep : keep '%' = false) {cs cs' : List Char}
    (h : encode keep cs = encode keep cs') :
  cs = cs'
  := by
  have hbytes := congrArg decode h
  rw [decode_encode hkeep, decode_encode hkeep] at hbytes
  exact String.ofList_inj.mp (Text.asBytes_injective hbytes)

end Percent
