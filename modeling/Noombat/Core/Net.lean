import Noombat.IpAddress

/-!
# Addresses that are not reached

Which addresses a request that is directed by a user must not reach.
-/

namespace Core

/-- Whether an address of version 4 is in a range that is reserved. -/
def isPrivateV4 (v4 : Ipv4Addr) : Bool :=
  v4.isLoopback ||
    v4.isPrivate ||
    v4.isLinkLocal ||
    v4.isBroadcast ||
    v4.a == 0 ||
    v4.isDocumentation ||
    (v4.a == 192 && v4.b == 0 && v4.c == 0) ||
    (v4.a == 198 && v4.b &&& 0xfe == 18) ||
    v4.isMulticast ||
    (v4.a == 100 && v4.b &&& 0xC0 == 64) ||
    v4.a &&& 0xf0 == 240

def isPrivateV6 (v6 : Ipv6Addr) : Bool :=
  let low : Ipv4Addr :=
    ⟨(v6.s6 >>> 8).toUInt8, v6.s6.toUInt8, (v6.s7 >>> 8).toUInt8, v6.s7.toUInt8⟩
  v6.isLoopback ||
    v6.isUnspecified ||
    v6.s0 &&& 0xfe00 == 0xfc00 ||
    v6.s0 &&& 0xffc0 == 0xfe80 ||
    v6.s0 &&& 0xffc0 == 0xfec0 ||
    v6.s0 &&& 0xff00 == 0xff00 ||
    v6.toIpv4Mapped.any isPrivateV4 ||
    ([v6.s0, v6.s1, v6.s2, v6.s3, v6.s4, v6.s5] == [0, 0, 0, 0, 0, 0] && isPrivateV4 low) ||
    ([v6.s0, v6.s1, v6.s2, v6.s3, v6.s4, v6.s5] == [0x64, 0xff9b, 0, 0, 0, 0] &&
      isPrivateV4 low) ||
    [v6.s0, v6.s1, v6.s2] == [0x64, 0xff9b, 1] ||
    (v6.s0 == 0x2002 &&
      isPrivateV4
        ⟨(v6.s1 >>> 8).toUInt8, v6.s1.toUInt8, (v6.s2 >>> 8).toUInt8, v6.s2.toUInt8⟩)

/-- Whether no request should reach an address. -/
def isPrivateIp : IpAddr → Bool
  | .v4 v4 => isPrivateV4 v4
  | .v6 v6 => isPrivateV6 v6

/-! ### The blocks -/

def reservedV4 : List (Block 32) :=
  [(Ipv4Addr.mk 127 0 0 0).block 8,
   (Ipv4Addr.mk 10 0 0 0).block 8,
   (Ipv4Addr.mk 172 16 0 0).block 12,
   (Ipv4Addr.mk 192 168 0 0).block 16,
   (Ipv4Addr.mk 169 254 0 0).block 16,
   (Ipv4Addr.mk 255 255 255 255).block 32,
   (Ipv4Addr.mk 0 0 0 0).block 8,
   (Ipv4Addr.mk 192 0 2 0).block 24,
   (Ipv4Addr.mk 198 51 100 0).block 24,
   (Ipv4Addr.mk 203 0 113 0).block 24,
   (Ipv4Addr.mk 192 0 0 0).block 24,
   (Ipv4Addr.mk 198 18 0 0).block 15,
   (Ipv4Addr.mk 224 0 0 0).block 4,
   (Ipv4Addr.mk 100 64 0 0).block 10,
   (Ipv4Addr.mk 240 0 0 0).block 4]

def reservedV6 : List (Block 128) :=
  [(Ipv6Addr.mk 0 0 0 0 0 0 0 1).block 128,
   (Ipv6Addr.mk 0 0 0 0 0 0 0 0).block 128,
   (Ipv6Addr.mk 0xfc00 0 0 0 0 0 0 0).block 7,
   (Ipv6Addr.mk 0xfe80 0 0 0 0 0 0 0).block 10,
   (Ipv6Addr.mk 0xfec0 0 0 0 0 0 0 0).block 10,
   (Ipv6Addr.mk 0xff00 0 0 0 0 0 0 0).block 8,
   (Ipv6Addr.mk 0x64 0xff9b 1 0 0 0 0 0).block 48]

/-- The blocks whose addresses carry an address of version 4: mapped, compatible, behind NAT64 and
behind 6to4. -/
def carriers : List (Block 128) :=
  [(Ipv6Addr.mk 0 0 0 0 0 0xffff 0 0).block 96,
   (Ipv6Addr.mk 0 0 0 0 0 0 0 0).block 96,
   (Ipv6Addr.mk 0x64 0xff9b 0 0 0 0 0 0).block 96,
   (Ipv6Addr.mk 0x2002 0 0 0 0 0 0 0).block 16]

/-- What is not to be reached: the reserved blocks, and what carries an address from them. -/
inductive Reserved : IpAddr → Prop where
  | v4 {v : Ipv4Addr} {B : Block 32} (hB : B ∈ reservedV4) (h : B.Has v.toNat) :
      Reserved (.v4 v)
  | v6 {w : Ipv6Addr} {B : Block 128} (hB : B ∈ reservedV6) (h : B.Has w.toNat) :
      Reserved (.v6 w)
  | carried {v : Ipv4Addr} {w : Ipv6Addr} {B : Block 128} (hv : Reserved (.v4 v))
      (hB : B ∈ carriers) (h : (B.followedBy v.toNat).Has w.toNat) :
      Reserved (.v6 w)

/-! ### Version 4 -/

section V4

variable (v : Ipv4Addr)

/-- What lies in a block, in numbers. -/
theorem has_block_v4 (w : Ipv4Addr) (length n : Nat) :
  (w.block length).Has n ↔ n / 2 ^ (32 - length) = w.toNat / 2 ^ (32 - length)
  := Iff.rfl

theorem isLoopback_iff :
  v.isLoopback = true ↔ ((Ipv4Addr.mk 127 0 0 0).block 8).Has v.toNat
  := by
  have hb := v.b.toNat_lt
  have hc := v.c.toNat_lt
  have hd := v.d.toNat_lt
  rw [has_block_v4, Ipv4Addr.isLoopback, beq_iff_eq, ← UInt8.toNat_inj]
  simp only [Ipv4Addr.toNat, UInt8.reduceToNat]
  omega

theorem isPrivate_iff :
  v.isPrivate = true ↔
    ((Ipv4Addr.mk 10 0 0 0).block 8).Has v.toNat ∨
      ((Ipv4Addr.mk 172 16 0 0).block 12).Has v.toNat ∨
        ((Ipv4Addr.mk 192 168 0 0).block 16).Has v.toNat
  := by
  have hb := v.b.toNat_lt
  have hc := v.c.toNat_lt
  have hd := v.d.toNat_lt
  simp only [has_block_v4, Ipv4Addr.isPrivate, Bool.or_eq_true, Bool.and_eq_true, beq_iff_eq,
    decide_eq_true_eq, ge_iff_le, UInt8.le_iff_toNat_le, ← UInt8.toNat_inj, Ipv4Addr.toNat,
    UInt8.reduceToNat]
  omega

theorem isLinkLocal_iff :
  v.isLinkLocal = true ↔ ((Ipv4Addr.mk 169 254 0 0).block 16).Has v.toNat
  := by
  have hb := v.b.toNat_lt
  have hc := v.c.toNat_lt
  have hd := v.d.toNat_lt
  simp only [has_block_v4, Ipv4Addr.isLinkLocal, Bool.and_eq_true, beq_iff_eq, ← UInt8.toNat_inj,
    Ipv4Addr.toNat, UInt8.reduceToNat]
  omega

theorem isBroadcast_iff :
  v.isBroadcast = true ↔ ((Ipv4Addr.mk 255 255 255 255).block 32).Has v.toNat
  := by
  rw [has_block_v4, Nat.sub_self, Nat.pow_zero, Nat.div_one, Nat.div_one, Ipv4Addr.toNat_inj,
    Ipv4Addr.isBroadcast, beq_iff_eq]

theorem thisNetwork_iff :
  (v.a == 0) = true ↔ ((Ipv4Addr.mk 0 0 0 0).block 8).Has v.toNat
  := by
  have hb := v.b.toNat_lt
  have hc := v.c.toNat_lt
  have hd := v.d.toNat_lt
  simp only [has_block_v4, beq_iff_eq, ← UInt8.toNat_inj, Ipv4Addr.toNat, UInt8.reduceToNat]
  omega

theorem isDocumentation_iff :
  v.isDocumentation = true ↔
    ((Ipv4Addr.mk 192 0 2 0).block 24).Has v.toNat ∨
      ((Ipv4Addr.mk 198 51 100 0).block 24).Has v.toNat ∨
        ((Ipv4Addr.mk 203 0 113 0).block 24).Has v.toNat
  := by
  have hb := v.b.toNat_lt
  have hc := v.c.toNat_lt
  have hd := v.d.toNat_lt
  simp only [has_block_v4, Ipv4Addr.isDocumentation, Bool.or_eq_true, Bool.and_eq_true,
    beq_iff_eq, ← UInt8.toNat_inj, Ipv4Addr.toNat, UInt8.reduceToNat]
  omega

theorem assignments_iff :
  (v.a == 192 && v.b == 0 && v.c == 0) = true ↔
    ((Ipv4Addr.mk 192 0 0 0).block 24).Has v.toNat
  := by
  have hb := v.b.toNat_lt
  have hc := v.c.toNat_lt
  have hd := v.d.toNat_lt
  simp only [has_block_v4, Bool.and_eq_true, beq_iff_eq, ← UInt8.toNat_inj, Ipv4Addr.toNat,
    UInt8.reduceToNat]
  omega

theorem benchmarking_iff :
  (v.a == 198 && v.b &&& 0xfe == 18) = true ↔
    ((Ipv4Addr.mk 198 18 0 0).block 15).Has v.toNat
  := by
  have hb := v.b.toNat_lt
  have hc := v.c.toNat_lt
  have hd := v.d.toNat_lt
  have hmask := @UInt8.and_mask_eq_iff v.b 18 0xfe 1 (by decide) (by decide) (by decide)
  rw [has_block_v4, Bool.and_eq_true, beq_iff_eq, beq_iff_eq, hmask, ← UInt8.toNat_inj]
  simp only [Ipv4Addr.toNat, UInt8.reduceToNat]
  omega

theorem isMulticast_iff :
  v.isMulticast = true ↔ ((Ipv4Addr.mk 224 0 0 0).block 4).Has v.toNat
  := by
  have hb := v.b.toNat_lt
  have hc := v.c.toNat_lt
  have hd := v.d.toNat_lt
  simp only [has_block_v4, Ipv4Addr.isMulticast, Bool.and_eq_true, decide_eq_true_eq, ge_iff_le,
    UInt8.le_iff_toNat_le, Ipv4Addr.toNat, UInt8.reduceToNat]
  omega

theorem carrierGrade_iff :
  (v.a == 100 && v.b &&& 0xC0 == 64) = true ↔
    ((Ipv4Addr.mk 100 64 0 0).block 10).Has v.toNat
  := by
  have hb := v.b.toNat_lt
  have hc := v.c.toNat_lt
  have hd := v.d.toNat_lt
  have hmask := @UInt8.and_mask_eq_iff v.b 64 0xC0 6 (by decide) (by decide) (by decide)
  rw [has_block_v4, Bool.and_eq_true, beq_iff_eq, beq_iff_eq, hmask, ← UInt8.toNat_inj]
  simp only [Ipv4Addr.toNat, UInt8.reduceToNat]
  omega

theorem future_iff :
  (v.a &&& 0xf0 == 240) = true ↔ ((Ipv4Addr.mk 240 0 0 0).block 4).Has v.toNat
  := by
  have hb := v.b.toNat_lt
  have hc := v.c.toNat_lt
  have hd := v.d.toNat_lt
  have hmask := @UInt8.and_mask_eq_iff v.a 240 0xf0 4 (by decide) (by decide) (by decide)
  rw [has_block_v4, beq_iff_eq, hmask]
  simp only [Ipv4Addr.toNat, UInt8.reduceToNat]
  omega

theorem isPrivateV4_iff :
  isPrivateV4 v = true ↔ ∃ B ∈ reservedV4, B.Has v.toNat
  := by
  simp only [isPrivateV4, Bool.or_eq_true, isLoopback_iff, isPrivate_iff, isLinkLocal_iff,
    isBroadcast_iff, thisNetwork_iff, isDocumentation_iff, assignments_iff, benchmarking_iff,
    isMulticast_iff, carrierGrade_iff, future_iff, reservedV4, List.exists_mem_cons_iff,
    List.not_mem_nil, false_and, exists_false, or_false, or_assoc]

end V4

/-! ### Version 6 -/

section V6

variable (w : Ipv6Addr)

theorem has_block_v6 (u : Ipv6Addr) (length n : Nat) :
  (u.block length).Has n ↔ n / 2 ^ (128 - length) = u.toNat / 2 ^ (128 - length)
  := Iff.rfl

theorem isLoopback_v6_iff :
  w.isLoopback = true ↔ ((Ipv6Addr.mk 0 0 0 0 0 0 0 1).block 128).Has w.toNat
  := by
  rw [has_block_v6, Nat.sub_self, Nat.pow_zero, Nat.div_one, Nat.div_one, Ipv6Addr.toNat_inj,
    Ipv6Addr.isLoopback, beq_iff_eq]

theorem isUnspecified_iff :
  w.isUnspecified = true ↔ ((Ipv6Addr.mk 0 0 0 0 0 0 0 0).block 128).Has w.toNat
  := by
  rw [has_block_v6, Nat.sub_self, Nat.pow_zero, Nat.div_one, Nat.div_one, Ipv6Addr.toNat_inj,
    Ipv6Addr.isUnspecified, beq_iff_eq]

/-- What is left of an address when all but its first segment is cut off. -/
theorem toNat_div_segment (k : Nat) :
  w.toNat / 2 ^ (112 + k) = w.s0.toNat / 2 ^ k
  := by
  have h1 := w.s1.toNat_lt
  have h2 := w.s2.toNat_lt
  have h3 := w.s3.toNat_lt
  have h4 := w.s4.toNat_lt
  have h5 := w.s5.toNat_lt
  have h6 := w.s6.toNat_lt
  have h7 := w.s7.toNat_lt
  rw [Nat.pow_add, ← Nat.div_div_eq_div_mul]
  congr 1
  rw [Ipv6Addr.toNat]
  omega

/-- A mask of the first segment finds the addresses of a block. -/
theorem masked_iff {x mask : UInt16} {k : Nat} (hk : k ≤ 16)
    (hmask : mask.toNat = (2 ^ (16 - k) - 1) <<< k) (hx : x.toNat = x.toNat / 2 ^ k * 2 ^ k) :
  (w.s0 &&& mask == x) = true ↔ ((Ipv6Addr.mk x 0 0 0 0 0 0 0).block (16 - k)).Has w.toNat
  := by
  have hbits : 128 - (16 - k) = 112 + k := by omega
  rw [has_block_v6, hbits, toNat_div_segment, toNat_div_segment, beq_iff_eq,
    UInt16.and_mask_eq_iff k hmask hx hk]

theorem localNat64_iff :
  ([w.s0, w.s1, w.s2] == [0x64, 0xff9b, 1]) = true ↔
    ((Ipv6Addr.mk 0x64 0xff9b 1 0 0 0 0 0).block 48).Has w.toNat
  := by
  have h1 := w.s1.toNat_lt
  have h2 := w.s2.toNat_lt
  have h3 := w.s3.toNat_lt
  have h4 := w.s4.toNat_lt
  have h5 := w.s5.toNat_lt
  have h6 := w.s6.toNat_lt
  have h7 := w.s7.toNat_lt
  simp only [has_block_v6, beq_iff_eq, List.cons.injEq, and_true, ← UInt16.toNat_inj,
    Ipv6Addr.toNat, UInt16.reduceToNat]
  omega

/-- The address of version 4 in the last two segments. -/
def low : Ipv4Addr :=
  ⟨(w.s6 >>> 8).toUInt8, w.s6.toUInt8, (w.s7 >>> 8).toUInt8, w.s7.toUInt8⟩

/-- Which address of version 4 is carried is read off the segments. -/
theorem carried_iff {B : Block 128} {p : Prop} {v : Ipv4Addr}
    (h : ∀ n, n < 2 ^ 32 → ((B.followedBy n).Has w.toNat ↔ p ∧ n = v.toNat)) :
  (∃ v, isPrivateV4 v = true ∧ (B.followedBy v.toNat).Has w.toNat) ↔
    p ∧ isPrivateV4 v = true
  := by
  constructor
  · rintro ⟨v', hprivate, hcarried⟩
    obtain ⟨hp, hv⟩ := (h _ v'.toNat_lt).mp hcarried
    obtain rfl := Ipv4Addr.toNat_inj.mp hv
    exact ⟨hp, hprivate⟩
  · rintro ⟨hp, hprivate⟩
    exact ⟨v, hprivate, (h _ v.toNat_lt).mpr ⟨hp, rfl⟩⟩

/-- A block of 96 bits carries the address in the last two segments. -/
theorem has_followedBy_low {u : Ipv6Addr} (h6 : u.s6 = 0) (h7 : u.s7 = 0) {n : Nat}
    (hn : n < 2 ^ 32) :
  ((u.block 96).followedBy n).Has w.toNat ↔
    [w.s0, w.s1, w.s2, w.s3, w.s4, w.s5] = [u.s0, u.s1, u.s2, u.s3, u.s4, u.s5] ∧
      n = (low w).toNat
  := by
  have hw1 := w.s1.toNat_lt
  have hw2 := w.s2.toNat_lt
  have hw3 := w.s3.toNat_lt
  have hw4 := w.s4.toNat_lt
  have hw5 := w.s5.toNat_lt
  have hw6 := w.s6.toNat_lt
  have hw7 := w.s7.toNat_lt
  have hu1 := u.s1.toNat_lt
  have hu2 := u.s2.toNat_lt
  have hu3 := u.s3.toNat_lt
  have hu4 := u.s4.toNat_lt
  have hu5 := u.s5.toNat_lt
  have hbits : 128 - (96 + 32) = 0 := rfl
  rw [low, Ipv4Addr.toNat_segments]
  simp only [Block.Has, Block.followedBy, Ipv6Addr.block, hbits, Nat.pow_zero, Nat.div_one,
    Nat.mul_one, Ipv6Addr.toNat, h6, h7, UInt16.reduceToNat, List.cons.injEq, and_true,
    ← UInt16.toNat_inj]
  omega

theorem mapped_iff :
  w.toIpv4Mapped.any isPrivateV4 = true ↔ ∃ v, isPrivateV4 v = true ∧
    (((Ipv6Addr.mk 0 0 0 0 0 0xffff 0 0).block 96).followedBy v.toNat).Has w.toNat
  := by
  rw [carried_iff w fun n hn => has_followedBy_low w rfl rfl hn, Ipv6Addr.toIpv4Mapped]
  simp only [List.cons.injEq, and_true]
  split
  · rename_i hmapped
    exact ⟨fun h => ⟨hmapped, h⟩, fun h => h.2⟩
  · rename_i hmapped
    constructor
    · intro h
      cases h
    · intro h
      exact absurd h.1 hmapped

theorem embedded_iff {u : Ipv6Addr} (h6 : u.s6 = 0) (h7 : u.s7 = 0) :
  ([w.s0, w.s1, w.s2, w.s3, w.s4, w.s5] == [u.s0, u.s1, u.s2, u.s3, u.s4, u.s5] &&
      isPrivateV4 (low w)) = true ↔
    ∃ v, isPrivateV4 v = true ∧ ((u.block 96).followedBy v.toNat).Has w.toNat
  := by
  rw [carried_iff w fun n hn => has_followedBy_low w h6 h7 hn, Bool.and_eq_true, beq_iff_eq]

theorem sixToFour_iff :
  (w.s0 == 0x2002 && isPrivateV4
      ⟨(w.s1 >>> 8).toUInt8, w.s1.toUInt8, (w.s2 >>> 8).toUInt8, w.s2.toUInt8⟩) = true ↔
    ∃ v, isPrivateV4 v = true ∧
      (((Ipv6Addr.mk 0x2002 0 0 0 0 0 0 0).block 16).followedBy v.toNat).Has w.toNat
  := by
  have h1 := w.s1.toNat_lt
  have h2 := w.s2.toNat_lt
  have h3 := w.s3.toNat_lt
  have h4 := w.s4.toNat_lt
  have h5 := w.s5.toNat_lt
  have h6 := w.s6.toNat_lt
  have h7 := w.s7.toNat_lt
  have hbits : 128 - (16 + 32) = 80 := rfl
  have hcarried : ∀ n, n < 2 ^ 32 →
      ((((Ipv6Addr.mk 0x2002 0 0 0 0 0 0 0).block 16).followedBy n).Has w.toNat ↔
        w.s0 = 0x2002 ∧ n = (Ipv4Addr.mk (w.s1 >>> 8).toUInt8 w.s1.toUInt8 (w.s2 >>> 8).toUInt8
          w.s2.toUInt8).toNat) := by
    intro n hn
    rw [Ipv4Addr.toNat_segments]
    simp only [Block.Has, Block.followedBy, Ipv6Addr.block, hbits, Ipv6Addr.toNat,
      UInt16.reduceToNat, ← UInt16.toNat_inj]
    omega
  rw [carried_iff w hcarried, Bool.and_eq_true, beq_iff_eq]

theorem isPrivateV6_iff :
  isPrivateV6 w = true ↔ (∃ B ∈ reservedV6, B.Has w.toNat) ∨
    ∃ B ∈ carriers, ∃ v, isPrivateV4 v = true ∧ (B.followedBy v.toNat).Has w.toNat
  := by
  have hunique := @masked_iff w 0xfc00 0xfe00 9 (by decide) (by decide) (by decide)
  have hlinkLocal := @masked_iff w 0xfe80 0xffc0 6 (by decide) (by decide) (by decide)
  have hsiteLocal := @masked_iff w 0xfec0 0xffc0 6 (by decide) (by decide) (by decide)
  have hmulticast := @masked_iff w 0xff00 0xff00 8 (by decide) (by decide) (by decide)
  have hcompatible := @embedded_iff w (Ipv6Addr.mk 0 0 0 0 0 0 0 0) rfl rfl
  have hnat64 := @embedded_iff w (Ipv6Addr.mk 0x64 0xff9b 0 0 0 0 0 0) rfl rfl
  simp only [low] at hcompatible hnat64
  simp only [isPrivateV6, Bool.or_eq_true, isLoopback_v6_iff, isUnspecified_iff, hunique,
    hlinkLocal, hsiteLocal, hmulticast, mapped_iff, hcompatible, hnat64, localNat64_iff,
    sixToFour_iff, reservedV6, carriers, List.exists_mem_cons_iff, List.not_mem_nil, false_and,
    exists_false, or_false, Nat.reduceSub]
  apply iff_of_eq
  ac_rfl

end V6

section

variable {v : Ipv4Addr} {ip : IpAddr}

theorem isPrivateV4_of_reserved (h : Reserved (.v4 v)) :
  isPrivateV4 v = true
  := by
  cases h with
  | v4 hB h => exact (isPrivateV4_iff v).mpr ⟨_, hB, h⟩

theorem reserved_of_isPrivateV4 (h : isPrivateV4 v = true) :
  Reserved (.v4 v)
  := by
  obtain ⟨B, hB, h⟩ := (isPrivateV4_iff v).mp h
  exact .v4 hB h

theorem isPrivateIp_of_reserved (h : Reserved ip) :
  isPrivateIp ip = true
  := by
  cases h with
  | v4 hB h => exact isPrivateV4_of_reserved (.v4 hB h)
  | v6 hB h => exact (isPrivateV6_iff _).mpr (.inl ⟨_, hB, h⟩)
  | carried hv hB h =>
      exact (isPrivateV6_iff _).mpr (.inr ⟨_, hB, _, isPrivateV4_of_reserved hv, h⟩)

theorem reserved_of_isPrivateIp (h : isPrivateIp ip = true) :
  Reserved ip
  := by
  cases ip with
  | v4 v => exact reserved_of_isPrivateV4 h
  | v6 w =>
      obtain ⟨B, hB, hhas⟩ | ⟨B, hB, v, hv, hhas⟩ := (isPrivateV6_iff w).mp h
      · exact .v6 hB hhas
      · exact .carried (reserved_of_isPrivateV4 hv) hB hhas

end

/-- The tests of octets and segments find just the addresses of the blocks, and those that carry
one of them. -/
theorem isPrivateIp_iff_reserved (ip : IpAddr) :
  isPrivateIp ip = true ↔ Reserved ip
  := ⟨reserved_of_isPrivateIp, isPrivateIp_of_reserved⟩

end Core
