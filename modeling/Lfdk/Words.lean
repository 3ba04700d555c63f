import Mathlib.Tactic

/-!
# Aligned blocks of fixed-width words

A power of two splits a word into the start of its block and the offset inside
it. Both halves are computed with masks, as machine code does it; the laws here
translate the masks to division and remainder of natural numbers, where linear
arithmetic can finish an argument.
-/

namespace Lfdk.Words

/-- The mask of the low `k` bits is the natural number `2 ^ k - 1`. -/
theorem low_mask_toNat {w k : Nat} (fits : k < w) :
    (BitVec.twoPow w k - 1#w).toNat = 2 ^ k - 1 := by
  have small : 2 ^ k < 2 ^ w := Nat.pow_lt_pow_right (by decide) fits
  have positive : 0 < 2 ^ k := Nat.two_pow_pos k
  have one : (1#w).toNat = 1 := by
    rw [BitVec.toNat_ofNat]
    exact Nat.mod_eq_of_lt (by omega)
  have wrapped : 2 ^ w - 1 + 2 ^ k = (2 ^ k - 1) + 2 ^ w := by omega
  rw [BitVec.toNat_sub, one, BitVec.toNat_twoPow, Nat.mod_eq_of_lt small, wrapped,
    Nat.add_mod_right, Nat.mod_eq_of_lt (by omega)]

/-- Masking the low bits gives the remainder by the power of two. -/
theorem low_toNat {w k : Nat} (x : BitVec w) (fits : k < w) :
    (x &&& (BitVec.twoPow w k - 1#w)).toNat = x.toNat % 2 ^ k := by
  rw [BitVec.toNat_and, low_mask_toNat fits, Nat.and_two_pow_sub_one_eq_mod]

/-- A mask and its complement split a word without overlap. -/
theorem high_add_low {w : Nat} (x mask : BitVec w) : (x &&& ~~~mask) + (x &&& mask) = x := by
  have apart : (x &&& ~~~mask) &&& (x &&& mask) = 0#w := by
    ext i inside
    cases bit : mask[i] <;> simp [bit]
  rw [BitVec.add_eq_or_of_and_eq_zero _ _ apart]
  ext i inside
  cases bit : mask[i] <;> simp [bit]

/-- The offset of a word in its block is what remains after the block's start. -/
theorem sub_high {w : Nat} (x mask : BitVec w) : x - (x &&& ~~~mask) = x &&& mask := by
  have split : (x &&& ~~~mask) + (x &&& mask) = x := high_add_low x mask
  rw [BitVec.sub_eq_iff_eq_add, BitVec.add_comm]
  exact split.symm

/-- Clearing the low bits rounds down to a multiple of the block size. -/
theorem high_toNat {w k : Nat} (x : BitVec w) (fits : k < w) :
    (x &&& ~~~(BitVec.twoPow w k - 1#w)).toNat = x.toNat / 2 ^ k * 2 ^ k := by
  have low : (x &&& (BitVec.twoPow w k - 1#w)).toNat = x.toNat % 2 ^ k := low_toNat x fits
  have below : (x &&& ~~~(BitVec.twoPow w k - 1#w)).toNat ≤ x.toNat := by
    rw [BitVec.toNat_and]
    exact Nat.and_le_left
  have offset : (x - (x &&& ~~~(BitVec.twoPow w k - 1#w))).toNat = x.toNat % 2 ^ k := by
    rw [sub_high, low]
  rw [BitVec.toNat_sub_of_le (BitVec.le_def.mpr below)] at offset
  have division : x.toNat / 2 ^ k * 2 ^ k + x.toNat % 2 ^ k = x.toNat := Nat.div_add_mod' _ _
  omega

/-- A field shifted clear of the field below it: the or is a sum. -/
theorem shift_or_toNat {w k : Nat} (x y : BitVec w) (fits : x.toNat * 2 ^ k < 2 ^ w)
    (small : y.toNat < 2 ^ k) : (x <<< k ||| y).toNat = x.toNat * 2 ^ k + y.toNat := by
  rw [BitVec.toNat_or, BitVec.toNat_shiftLeft, Nat.shiftLeft_eq, Nat.mod_eq_of_lt fits,
    ← Nat.shiftLeft_eq, Nat.shiftLeft_add_eq_or_of_lt small]

/-- A number that is a multiple of a block meets another one block by block. -/
theorem high_or {k : Nat} (high other : Nat) :
    (high * 2 ^ k) ||| other = (high ||| other / 2 ^ k) * 2 ^ k + other % 2 ^ k := by
  have split : other = other / 2 ^ k * 2 ^ k + other % 2 ^ k := (Nat.div_add_mod' _ _).symm
  have small : other % 2 ^ k < 2 ^ k := Nat.mod_lt _ (Nat.two_pow_pos k)
  conv_lhs => rw [split]
  rw [← Nat.shiftLeft_eq, ← Nat.shiftLeft_eq, ← Nat.shiftLeft_eq,
    Nat.shiftLeft_add_eq_or_of_lt small, Nat.shiftLeft_add_eq_or_of_lt small, ← Nat.or_assoc,
    Nat.shiftLeft_or_distrib]

end Lfdk.Words
