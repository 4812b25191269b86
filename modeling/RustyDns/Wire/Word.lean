import Mathlib.Data.Nat.Bitwise

/-!
# Machine words on the wire

The buffer assembles and splits `u16` and `u32` values with shifts, masks and
casts. These lemmas give the value of each such expression, once, as natural
number arithmetic; every codec proof then works on `toNat`.
-/

namespace RustyDns

/-- Disjoint bit fields: a value shifted above `k` bits and one below `2 ^ k` combine by sum. -/
theorem shiftLeft_or_eq_add (a : Nat) {b k : Nat} (hb : b < 2 ^ k) :
    a <<< k ||| b = 2 ^ k * a + b := by
  apply Nat.eq_of_testBit_eq
  intro j
  rw [Nat.testBit_lor, Nat.testBit_shiftLeft, Nat.testBit_mul_pow_two_add a hb]
  by_cases hj : k ≤ j
  · simp [hj, show ¬ j < k by omega,
      Nat.testBit_lt_two_pow (Nat.lt_of_lt_of_le hb (Nat.pow_le_pow_right (by omega) hj))]
  · simp [hj, show j < k by omega]

@[simp] theorem UInt8.toNat_toUInt16 (x : UInt8) : x.toUInt16.toNat = x.toNat := rfl

@[simp] theorem UInt8.toNat_toUInt32 (x : UInt8) : x.toUInt32.toNat = x.toNat := rfl

@[simp] theorem UInt16.toNat_toUInt8 (x : UInt16) : x.toUInt8.toNat = x.toNat % 256 := by
  simp [UInt16.toUInt8, Nat.toUInt8, UInt8.ofNat, UInt8.toNat]

@[simp] theorem UInt32.toNat_toUInt8 (x : UInt32) : x.toUInt8.toNat = x.toNat % 256 := by
  simp [UInt32.toUInt8, Nat.toUInt8, UInt8.ofNat, UInt8.toNat]

@[simp] theorem UInt32.toNat_toUInt16 (x : UInt32) : x.toUInt16.toNat = x.toNat % 65536 := by
  simp [UInt32.toUInt16, Nat.toUInt16, UInt16.ofNat, UInt16.toNat]

/-- `val >> k` on a `u16`, for the shift amounts the code uses. -/
@[simp] theorem UInt16.toNat_shiftRight (v k : UInt16) :
    (v >>> k).toNat = v.toNat / 2 ^ (k.toNat % 16) := by
  change (v.toBitVec >>> (UInt16.mod k 16).toBitVec).toNat = _
  simp [UInt16.mod, UInt16.toNat, Nat.shiftRight_eq_div_pow]

/-- `val >> k` on a `u32`, for the shift amounts the code uses. -/
@[simp] theorem UInt32.toNat_shiftRight (v k : UInt32) :
    (v >>> k).toNat = v.toNat / 2 ^ (k.toNat % 32) := by
  change (v.toBitVec >>> (UInt32.mod k 32).toBitVec).toNat = _
  simp [UInt32.mod, UInt32.toNat, Nat.shiftRight_eq_div_pow]

/-- The low-byte mask `val & 0xFF` on a `u16`. -/
@[simp] theorem UInt16.toNat_and_255 (v : UInt16) : (v &&& 0xFF).toNat = v.toNat % 256 :=
  Nat.and_pow_two_sub_one_eq_mod v.toNat 8

/-- The low-byte mask `val & 0xFF` on a `u32`. -/
@[simp] theorem UInt32.toNat_and_255 (v : UInt32) : (v &&& 0xFF).toNat = v.toNat % 256 :=
  Nat.and_pow_two_sub_one_eq_mod v.toNat 8

/-- The low-half mask `val & 0xFFFF` on a `u32`. -/
@[simp] theorem UInt32.toNat_and_65535 (v : UInt32) :
    (v &&& 0xFFFF).toNat = v.toNat % 65536 :=
  Nat.and_pow_two_sub_one_eq_mod v.toNat 16

/-- `((hi as u16) << 8) | (lo as u16)`, as `read_u16` assembles two bytes. -/
@[simp] theorem UInt16.toNat_combine (x y : UInt8) :
    ((x.toUInt16 <<< 8) ||| y.toUInt16).toNat = x.toNat * 256 + y.toNat := by
  have hx := x.toNat_lt_size
  have hy := y.toNat_lt_size
  simp only [UInt8.size] at hx hy
  change (x.toUInt16.toBitVec <<< (8 : Nat) ||| y.toUInt16.toBitVec).toNat = _
  simp only [BitVec.toNat_or, BitVec.toNat_shiftLeft]
  change (x.toNat <<< 8 % 2 ^ 16) ||| y.toNat = _
  rw [Nat.mod_eq_of_lt (by rw [Nat.shiftLeft_eq]; omega), shiftLeft_or_eq_add _ hy]
  omega

/-- The four-byte assembly of `read_u32`. -/
@[simp] theorem UInt32.toNat_combine (a b c d : UInt8) :
    ((a.toUInt32 <<< 24) ||| (b.toUInt32 <<< 16) ||| (c.toUInt32 <<< 8) ||| d.toUInt32).toNat =
      a.toNat * 2 ^ 24 + b.toNat * 2 ^ 16 + c.toNat * 2 ^ 8 + d.toNat := by
  have ha := a.toNat_lt_size
  have hb := b.toNat_lt_size
  have hc := c.toNat_lt_size
  have hd := d.toNat_lt_size
  simp only [UInt8.size] at ha hb hc hd
  change ((a.toUInt32.toBitVec <<< (24 : Nat)) ||| (b.toUInt32.toBitVec <<< (16 : Nat)) |||
    (c.toUInt32.toBitVec <<< (8 : Nat)) ||| d.toUInt32.toBitVec).toNat = _
  simp only [BitVec.toNat_or, BitVec.toNat_shiftLeft]
  change ((a.toNat <<< 24 % 2 ^ 32) ||| (b.toNat <<< 16 % 2 ^ 32) |||
    (c.toNat <<< 8 % 2 ^ 32)) ||| d.toNat = _
  simp only [Nat.shiftLeft_eq]
  rw [Nat.mod_eq_of_lt (by omega), Nat.mod_eq_of_lt (by omega), Nat.mod_eq_of_lt (by omega),
    Nat.lor_assoc, Nat.lor_assoc, ← Nat.shiftLeft_eq, ← Nat.shiftLeft_eq, ← Nat.shiftLeft_eq,
    shiftLeft_or_eq_add _ (show d.toNat < 2 ^ 8 by omega),
    shiftLeft_or_eq_add _ (show 2 ^ 8 * c.toNat + d.toNat < 2 ^ 16 by omega),
    shiftLeft_or_eq_add _ (show 2 ^ 16 * b.toNat + (2 ^ 8 * c.toNat + d.toNat) < 2 ^ 24 by omega)]
  omega

@[simp] theorem UInt16.toNat_toUInt32 (x : UInt16) : x.toUInt32.toNat = x.toNat := rfl

/-- Two `u16` halves assembled into a `u32`, as the `AAAA` reader splits them again. -/
@[simp] theorem UInt32.toNat_combine16 (x y : UInt16) :
    ((x.toUInt32 <<< 16) ||| y.toUInt32).toNat = x.toNat * 65536 + y.toNat := by
  have hx := x.toNat_lt_size
  have hy := y.toNat_lt_size
  simp only [UInt16.size] at hx hy
  change (x.toUInt32.toBitVec <<< (16 : Nat) ||| y.toUInt32.toBitVec).toNat = _
  simp only [BitVec.toNat_or, BitVec.toNat_shiftLeft]
  change (x.toNat <<< 16 % 2 ^ 32) ||| y.toNat = _
  rw [Nat.mod_eq_of_lt (by rw [Nat.shiftLeft_eq]; omega), shiftLeft_or_eq_add _ hy]
  omega

/-- The octets the `A` reader takes out of the `u32` it assembled from four bytes. -/
theorem UInt32.octets_combine (a b c d : UInt8) :
    let v := (a.toUInt32 <<< 24) ||| (b.toUInt32 <<< 16) ||| (c.toUInt32 <<< 8) ||| d.toUInt32
    ((v >>> 24) &&& 0xFF).toUInt8 = a ∧ ((v >>> 16) &&& 0xFF).toUInt8 = b ∧
      ((v >>> 8) &&& 0xFF).toUInt8 = c ∧ (v &&& 0xFF).toUInt8 = d := by
  have ha := a.toNat_lt_size
  have hb := b.toNat_lt_size
  have hc := c.toNat_lt_size
  have hd := d.toNat_lt_size
  simp only [UInt8.size] at ha hb hc hd
  refine ⟨?_, ?_, ?_, ?_⟩ <;> apply UInt8.toNat.inj <;>
    simp only [UInt32.toNat_toUInt8, UInt32.toNat_and_255, UInt32.toNat_shiftRight,
      UInt32.toNat_combine, UInt32.reduceToNat, Nat.reduceMod, Nat.reducePow] <;> omega

/-- The segments the `AAAA` reader takes out of a `u32` assembled from two. -/
theorem UInt32.segments_combine (x y : UInt16) :
    let v := (x.toUInt32 <<< 16) ||| y.toUInt32
    ((v >>> 16) &&& 0xFFFF).toUInt16 = x ∧ (v &&& 0xFFFF).toUInt16 = y := by
  have hx := x.toNat_lt_size
  have hy := y.toNat_lt_size
  simp only [UInt16.size] at hx hy
  refine ⟨?_, ?_⟩ <;> apply UInt16.toNat.inj <;>
    simp only [UInt32.toNat_toUInt16, UInt32.toNat_and_65535, UInt32.toNat_shiftRight,
      UInt32.toNat_combine16, UInt32.reduceToNat, Nat.reduceMod, Nat.reducePow] <;> omega

theorem toNat_toUInt16_of_lt {n : Nat} (h : n < 65536) : n.toUInt16.toNat = n := by
  simp [Nat.toUInt16, UInt16.ofNat, UInt16.toNat, Nat.mod_eq_of_lt h]

end RustyDns
