import Mathlib

/-!
# Floating depth

The pixel pipeline of `hw/voodoo_data.h` makes a depth of 16 bits out of the iterated W or Z: a count
of leading zeros and twelve inverted bits.  The depth falls as the value rises.
-/

namespace Qemu.Voodoo

open Nat

/-- The loop of `count_leading_zeros`. -/
def countLeadingZeros (value result : Nat) : Nat :=
  if 0 < value then countLeadingZeros (value / 2) (result - 1) else result

/-- The depth that stands for `temp`. -/
def floatDepth (temp : Nat) : Nat :=
  if temp &&& 0xffff0000 = 0 then 0xffff
  else
    let exp := countLeadingZeros temp 32
    let depth := (exp <<< 12) ||| ((0xffffffff - temp) >>> (19 - exp) &&& 0xfff)
    if depth < 0xffff then depth + 1 else depth

/-- The depth of a value whose lowest 32 bits count after a shift, and which is far away if it has
bits under the mask. -/
def cutDepth (mask shift value : Nat) : Nat :=
  if value &&& mask ≠ 0 then 0 else floatDepth (value <<< shift % 2 ^ 32)

def wfloat (iterw : Nat) : Nat := cutDepth 0xffff00000000 0 iterw

/-- `depthval` for the iterated Z. -/
def zfloat (iterz : Nat) : Nat := cutDepth 0xf0000000 4 iterz

theorem countLeadingZeros_eq {n value result : Nat} (low : 2 ^ n ≤ value)
    (high : value < 2 ^ (n + 1)) : countLeadingZeros value result = result - (n + 1) := by
  have positive : 0 < value := lt_of_lt_of_le (Nat.two_pow_pos n) low
  induction n generalizing value result with
  | zero =>
    obtain rfl : value = 1 := by omega
    simp [countLeadingZeros]
  | succ n ih =>
    rw [countLeadingZeros, if_pos positive, ih (by omega) (by omega) (by omega)]
    omega

theorem and_eq_zero_iff {value mask : Nat} (low count : Nat) (upper : mask = (2 ^ count - 1) <<< low)
    (small : value < 2 ^ (low + count)) : value &&& mask = 0 ↔ value < 2 ^ low := by
  have cut : value &&& mask = value / 2 ^ low * 2 ^ low := by
    refine eq_of_testBit_eq fun i => ?_
    have beyond : low + count ≤ i → value.testBit i = false := fun above =>
      Nat.testBit_lt_two_pow (small.trans_le (Nat.pow_le_pow_right (by decide) above))
    simp only [upper, testBit_and, testBit_shiftLeft, testBit_two_pow_sub_one,
      ← shiftRight_eq_div_pow, ← shiftLeft_eq, testBit_shiftRight]
    grind
  rw [cut, Nat.mul_eq_zero, Nat.div_eq_zero_iff_lt (Nat.two_pow_pos low)]
  exact or_iff_left (Nat.two_pow_pos low).ne'

/-- A depth is made of the shift that leaves thirteen bits of the value and of these bits. -/
theorem floatDepth_eq {s temp : Nat} (inside : 4 ≤ s ∧ s < 20) (low : 2 ^ 12 ≤ temp / 2 ^ s)
    (high : temp / 2 ^ s < 2 ^ 13) :
    floatDepth temp = min 0xffff ((19 - s) * 2 ^ 12 + 2 ^ 13 - temp / 2 ^ s) := by
  have lower := (Nat.le_div_iff_mul_le (Nat.two_pow_pos s)).mp low
  have upper := (Nat.div_lt_iff_lt_mul (Nat.two_pow_pos s)).mp high
  rw [← Nat.pow_add] at lower upper
  have large := (Nat.pow_le_pow_right (by decide) (by omega : 16 ≤ 12 + s)).trans lower
  have small := upper.trans_le (Nat.pow_le_pow_right (by decide) (by omega : 13 + s ≤ 32))
  have exponent : countLeadingZeros temp 32 = 19 - s := by
    rw [countLeadingZeros_eq lower (by rwa [Nat.add_right_comm])]
    omega
  have mantissa : (0xffffffff - temp) >>> (19 - (19 - s)) &&& 0xfff = 2 ^ 13 - 1 - temp / 2 ^ s := by
    have whole : 2 ^ s * (2 ^ 13 * 2 ^ (19 - s)) = 2 ^ 32 := by
      rw [← Nat.pow_add, ← Nat.pow_add]
      congr 1
      omega
    have split := mul_sub_div temp (2 ^ s) (2 ^ 13 * 2 ^ (19 - s)) (by rwa [whole])
    have power := Nat.two_pow_pos (19 - s)
    rw [Nat.sub_sub_self (by omega), Nat.shiftRight_eq_div_pow, Nat.and_two_pow_sub_one_eq_mod _ 12]
    rw [whole, (by omega : 2 ^ 32 - (temp + 1) = 0xffffffff - temp)] at split
    omega
  have mask : ¬temp &&& 0xffff0000 = 0 :=
    (and_eq_zero_iff 16 16 (by decide) small).not.mpr (not_lt.mpr large)
  simp only [floatDepth, if_neg mask, exponent, mantissa]
  rw [← shiftLeft_add_eq_or_of_lt (by omega), shiftLeft_eq]
  split <;> omega

theorem floatDepth_of_small {temp : Nat} (small : temp < 2 ^ 16) : floatDepth temp = 0xffff :=
  if_pos ((and_eq_zero_iff 16 16 (by decide) (small.trans (by decide))).mpr small)

theorem exists_shift {temp : Nat} (large : 2 ^ 16 ≤ temp) (small : temp < 2 ^ 32) :
    ∃ s, (4 ≤ s ∧ s < 20) ∧ 2 ^ 12 ≤ temp / 2 ^ s ∧ temp / 2 ^ s < 2 ^ 13 := by
  have inside : 16 ≤ temp.log2 ∧ temp.log2 < 32 :=
    ⟨(le_log2 (by omega)).mpr large, (log2_lt (by omega)).mpr small⟩
  refine ⟨temp.log2 - 12, by omega, ?_, ?_⟩
  · rw [Nat.le_div_iff_mul_le (Nat.two_pow_pos _), ← Nat.pow_add, Nat.add_sub_cancel' (by omega)]
    exact log2_self_le (by omega)
  · rw [Nat.div_lt_iff_lt_mul (Nat.two_pow_pos _), ← Nat.pow_add,
      (by omega : 13 + (temp.log2 - 12) = temp.log2 + 1)]
    exact lt_log2_self

theorem floatDepth_anti {u v : Nat} (le : u ≤ v) (small : v < 2 ^ 32) :
    floatDepth v ≤ floatDepth u ∧ floatDepth u ≤ 0xffff := by
  by_cases large : 2 ^ 16 ≤ v
  case neg =>
    rw [floatDepth_of_small (by omega), floatDepth_of_small (by omega)]
    decide
  obtain ⟨s, inside, low, high⟩ := exists_shift large small
  rw [floatDepth_eq inside low high]
  by_cases large : 2 ^ 16 ≤ u
  case neg =>
    rw [floatDepth_of_small (by omega)]
    exact ⟨min_le_left .., le_refl _⟩
  obtain ⟨r, inside', low', high'⟩ := exists_shift large (by omega)
  rw [floatDepth_eq inside' low' high']
  have quotients := @Nat.div_le_div_right u v (2 ^ s) le
  refine ⟨?_, min_le_left ..⟩
  rcases lt_trichotomy r s with less | rfl | greater
  · omega
  · omega
  · have halves : u / 2 ^ r ≤ u / 2 ^ s / 2 := by
      rw [Nat.div_div_eq_div_mul, ← Nat.pow_succ]
      exact Nat.div_le_div_left (Nat.pow_le_pow_right (by decide) greater) (Nat.two_pow_pos _)
    omega

theorem cutDepth_anti {mask shift u v : Nat} (low count : Nat) (word : low + shift = 32)
    (upper : mask = (2 ^ count - 1) <<< low) (le : u ≤ v) (small : v < 2 ^ (low + count)) :
    cutDepth mask shift v ≤ cutDepth mask shift u ∧ cutDepth mask shift u ≤ 0xffff := by
  have fits {x : Nat} (below : x < 2 ^ low) : x <<< shift < 2 ^ 32 := by
    rw [Nat.shiftLeft_eq, ← word, Nat.pow_add]
    exact Nat.mul_lt_mul_of_pos_right below (Nat.two_pow_pos shift)
  have cut {x : Nat} (below : x ≤ v) :
      cutDepth mask shift x = if x < 2 ^ low then floatDepth (x <<< shift) else 0 := by
    simp only [cutDepth, ne_eq, and_eq_zero_iff low count upper (below.trans_lt small), ite_not]
    split
    · next inside => rw [mod_eq_of_lt (fits inside)]
    · rfl
  rw [cut (le_refl v), cut le]
  by_cases near : v < 2 ^ low
  · rw [if_pos near, if_pos (le.trans_lt near)]
    refine floatDepth_anti ?_ (fits near)
    rw [shiftLeft_eq, shiftLeft_eq]
    exact mul_le_mul_right _ le
  · rw [if_neg near]
    refine ⟨zero_le _, ?_⟩
    split
    · next inside => exact (floatDepth_anti (le_refl _) (fits inside)).2
    · decide

/-- A greater W or Z has no greater depth. -/
theorem depths_anti {u v : Nat} (le : u ≤ v) :
    (v < 2 ^ 48 → wfloat v ≤ wfloat u ∧ wfloat u ≤ 0xffff) ∧
      (v < 2 ^ 31 → zfloat v ≤ zfloat u ∧ zfloat u ≤ 0xffff) :=
  ⟨cutDepth_anti 32 16 (by decide) (by decide) le,
    fun small => cutDepth_anti 28 4 (by decide) (by decide) le (small.trans (by decide))⟩

theorem depths_anti_carry : wfloat (2 ^ 32) ≤ wfloat 1 ∧ zfloat (2 ^ 28) ≤ zfloat 1 :=
  ⟨((depths_anti (by decide : 1 ≤ 2 ^ 32)).1 (by decide)).1,
    ((depths_anti (by decide : 1 ≤ 2 ^ 28)).2 (by decide)).1⟩

end Qemu.Voodoo
