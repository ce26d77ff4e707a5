import Mathlib.Algebra.Ring.Nat
import Mathlib.Data.List.Basic

/-!
# Internet addresses

An address of version 4 is four octets, and one of version 6 eight segments of 16 bits.  Both are
numbers, most significant part first.  A block is the addresses that share the first bits of a
network, and some blocks of version 6 carry an address of version 4 after those bits.
-/

structure Ipv4Addr where
  a : UInt8
  b : UInt8
  c : UInt8
  d : UInt8
  deriving DecidableEq

structure Ipv6Addr where
  s0 : UInt16
  s1 : UInt16
  s2 : UInt16
  s3 : UInt16
  s4 : UInt16
  s5 : UInt16
  s6 : UInt16
  s7 : UInt16
  deriving DecidableEq

inductive IpAddr where
  | v4 (v4 : Ipv4Addr)
  | v6 (v6 : Ipv6Addr)
  deriving DecidableEq

/-- The numbers of `width` bits whose first `length` bits are those of `network`. -/
structure Block (width : Nat) where
  network : Nat
  length : Nat

namespace Block

variable {width : Nat}

def Has (B : Block width) (n : Nat) : Prop :=
  n / 2 ^ (width - B.length) = B.network / 2 ^ (width - B.length)

instance (B : Block width) (n : Nat) : Decidable (B.Has n) :=
  inferInstanceAs (Decidable (_ = _))

/-- The block of the numbers that go on, after the bits of another block, with the 32 bits of a
number. -/
def followedBy (B : Block width) (n : Nat) : Block width where
  network := B.network + n * 2 ^ (width - (B.length + 32))
  length := B.length + 32

end Block

/-! ### Masks -/

/-- The bits from `k` up to `k + m` of a number. -/
theorem and_mask (n k m : Nat) :
  n &&& (2 ^ m - 1) <<< k = (n / 2 ^ k % 2 ^ m) <<< k
  := by
  apply Nat.eq_of_testBit_eq
  intro i
  rw [Nat.testBit_and, Nat.testBit_shiftLeft, Nat.testBit_shiftLeft, Nat.testBit_two_pow_sub_one,
    Nat.testBit_mod_two_pow, ← Nat.shiftRight_eq_div_pow, Nat.testBit_shiftRight]
  by_cases hi : k ≤ i
  · rw [Nat.add_sub_cancel' hi]
    simp only [ge_iff_le, hi, decide_true, Bool.true_and]
    exact Bool.and_comm _ _
  · simp [hi]

/-- The first bits of an octet are compared under a mask. -/
theorem UInt8.and_mask_eq_iff {x y mask : UInt8} (k : Nat)
    (hmask : mask.toNat = (2 ^ (8 - k) - 1) <<< k) (hy : y.toNat = y.toNat / 2 ^ k * 2 ^ k)
    (hk : k ≤ 8) :
  x &&& mask = y ↔ x.toNat / 2 ^ k = y.toNat / 2 ^ k
  := by
  have hx : x.toNat / 2 ^ k < 2 ^ (8 - k) := by
    rw [Nat.div_lt_iff_lt_mul (Nat.two_pow_pos k), ← Nat.pow_add, Nat.sub_add_cancel hk]
    exact x.toNat_lt
  rw [← UInt8.toNat_inj, UInt8.toNat_and, hmask, and_mask, Nat.mod_eq_of_lt hx,
    Nat.shiftLeft_eq]
  constructor
  · intro h
    rw [← h, Nat.mul_div_cancel _ (Nat.two_pow_pos k)]
  · intro h
    rw [h]
    exact hy.symm

/-- The first bits of a segment are compared under a mask. -/
theorem UInt16.and_mask_eq_iff {x y mask : UInt16} (k : Nat)
    (hmask : mask.toNat = (2 ^ (16 - k) - 1) <<< k) (hy : y.toNat = y.toNat / 2 ^ k * 2 ^ k)
    (hk : k ≤ 16) :
  x &&& mask = y ↔ x.toNat / 2 ^ k = y.toNat / 2 ^ k
  := by
  have hx : x.toNat / 2 ^ k < 2 ^ (16 - k) := by
    rw [Nat.div_lt_iff_lt_mul (Nat.two_pow_pos k), ← Nat.pow_add, Nat.sub_add_cancel hk]
    exact x.toNat_lt
  rw [← UInt16.toNat_inj, UInt16.toNat_and, hmask, and_mask, Nat.mod_eq_of_lt hx,
    Nat.shiftLeft_eq]
  constructor
  · intro h
    rw [← h, Nat.mul_div_cancel _ (Nat.two_pow_pos k)]
  · intro h
    rw [h]
    exact hy.symm

/-! ### Addresses of version 4 -/

namespace Ipv4Addr

variable (v : Ipv4Addr)

def toNat : Nat :=
  v.a.toNat * 2 ^ 24 + v.b.toNat * 2 ^ 16 + v.c.toNat * 2 ^ 8 + v.d.toNat

/-- The addresses that share the first bits of this one. -/
def block (length : Nat) : Block 32 where
  network := v.toNat
  length

/-- Whether an address is in `127.0.0.0/8`. -/
def isLoopback : Bool :=
  v.a == 127

/-- Whether an address is in `10.0.0.0/8`, `172.16.0.0/12` or `192.168.0.0/16`. -/
def isPrivate : Bool :=
  v.a == 10 || (v.a == 172 && v.b ≥ 16 && v.b ≤ 31) || (v.a == 192 && v.b == 168)

/-- Whether an address is in `169.254.0.0/16`. -/
def isLinkLocal : Bool :=
  v.a == 169 && v.b == 254

/-- Whether an address is `255.255.255.255`. -/
def isBroadcast : Bool :=
  v == ⟨255, 255, 255, 255⟩

/-- Whether an address is in `192.0.2.0/24`, `198.51.100.0/24` or `203.0.113.0/24`. -/
def isDocumentation : Bool :=
  (v.a == 192 && v.b == 0 && v.c == 2) || (v.a == 198 && v.b == 51 && v.c == 100) ||
    (v.a == 203 && v.b == 0 && v.c == 113)

/-- Whether an address is in `224.0.0.0/4`. -/
def isMulticast : Bool :=
  v.a ≥ 224 && v.a ≤ 239

theorem toNat_lt :
  v.toNat < 2 ^ 32
  := by
  have ha := v.a.toNat_lt
  have hb := v.b.toNat_lt
  have hc := v.c.toNat_lt
  have hd := v.d.toNat_lt
  rw [toNat]
  omega

theorem toNat_inj {v w : Ipv4Addr} :
  v.toNat = w.toNat ↔ v = w
  := by
  constructor
  · intro h
    have ha := v.a.toNat_lt
    have hb := v.b.toNat_lt
    have hc := v.c.toNat_lt
    have hd := v.d.toNat_lt
    have ha' := w.a.toNat_lt
    have hb' := w.b.toNat_lt
    have hc' := w.c.toNat_lt
    have hd' := w.d.toNat_lt
    obtain ⟨a, b, c, d⟩ := v
    obtain ⟨a', b', c', d'⟩ := w
    simp only [toNat] at *
    rw [mk.injEq, ← UInt8.toNat_inj, ← UInt8.toNat_inj, ← UInt8.toNat_inj, ← UInt8.toNat_inj]
    omega
  · rintro rfl
    rfl

end Ipv4Addr

/-! ### Addresses of version 6 -/

namespace Ipv6Addr

variable (v : Ipv6Addr)

def toNat : Nat :=
  v.s0.toNat * 2 ^ 112 + v.s1.toNat * 2 ^ 96 + v.s2.toNat * 2 ^ 80 + v.s3.toNat * 2 ^ 64 +
    v.s4.toNat * 2 ^ 48 + v.s5.toNat * 2 ^ 32 + v.s6.toNat * 2 ^ 16 + v.s7.toNat

/-- The addresses that share the first bits of this one. -/
def block (length : Nat) : Block 128 where
  network := v.toNat
  length

theorem toNat_inj {v w : Ipv6Addr} :
  v.toNat = w.toNat ↔ v = w
  := by
  constructor
  · intro h
    have h1 := v.s1.toNat_lt
    have h2 := v.s2.toNat_lt
    have h3 := v.s3.toNat_lt
    have h4 := v.s4.toNat_lt
    have h5 := v.s5.toNat_lt
    have h6 := v.s6.toNat_lt
    have h7 := v.s7.toNat_lt
    have h1' := w.s1.toNat_lt
    have h2' := w.s2.toNat_lt
    have h3' := w.s3.toNat_lt
    have h4' := w.s4.toNat_lt
    have h5' := w.s5.toNat_lt
    have h6' := w.s6.toNat_lt
    have h7' := w.s7.toNat_lt
    obtain ⟨s0, s1, s2, s3, s4, s5, s6, s7⟩ := v
    obtain ⟨t0, t1, t2, t3, t4, t5, t6, t7⟩ := w
    simp only [toNat] at *
    simp only [mk.injEq, ← UInt16.toNat_inj]
    omega
  · rintro rfl
    rfl

/-- Whether an address is `::1`. -/
def isLoopback : Bool :=
  v == ⟨0, 0, 0, 0, 0, 0, 0, 1⟩

/-- Whether an address is `::`. -/
def isUnspecified : Bool :=
  v == ⟨0, 0, 0, 0, 0, 0, 0, 0⟩

/-- The address of version 4 in an address of the form `::ffff:a.b.c.d`. -/
def toIpv4Mapped : Option Ipv4Addr :=
  if v.s0 = 0 ∧ v.s1 = 0 ∧ v.s2 = 0 ∧ v.s3 = 0 ∧ v.s4 = 0 ∧ v.s5 = 0xffff then
    some ⟨(v.s6 >>> 8).toUInt8, v.s6.toUInt8, (v.s7 >>> 8).toUInt8, v.s7.toUInt8⟩
  else none

end Ipv6Addr

/-- The address of version 4 that two segments make. -/
theorem Ipv4Addr.toNat_segments (s t : UInt16) :
  (Ipv4Addr.mk (s >>> 8).toUInt8 s.toUInt8 (t >>> 8).toUInt8 t.toUInt8).toNat =
    s.toNat * 2 ^ 16 + t.toNat
  := by
  have hs := s.toNat_lt
  have ht := t.toNat_lt
  have h8 : (8 : UInt16).toNat % 16 = 8 := rfl
  simp only [toNat, UInt16.toNat_toUInt8, UInt16.toNat_shiftRight, h8, Nat.shiftRight_eq_div_pow]
  omega
