import Qemu.Voodoo.Buffers

/-!
# Float registers

The float copies of the vertex registers hold IEEE singles.  `float_to_int32` and `float_to_int64`
turn one into fixed point by shifting its mantissa.
-/

namespace Qemu.Voodoo

open Nat

open BitVec hiding or_comm

/-- The mantissa as the two conversions shift it, for the width of their result. -/
def shiftMantissa (w : Nat) (data : UINT32) (fixedbits : Nat) : BitVec w :=
  let exponent : Int := ((data >>> 23) &&& 0xff).toNat - 127 - 23 + fixedbits
  let result : BitVec w := ((data &&& 0x7fffff) ||| 0x800000).setWidth w
  if exponent < 0 then
    if exponent > -w then result.sshiftRight (-exponent).toNat else 0
  else if exponent < w then result <<< exponent.toNat
  else intMax w

def floatToInt (w : Nat) (data : UINT32) (fixedbits : Nat) : BitVec w :=
  let result := shiftMantissa w data fixedbits
  if data &&& 0x80000000 ≠ 0 then -result else result

section

variable (data : UINT32)

def floatToInt32 (fixedbits : Nat) : BitVec 32 := floatToInt 32 data fixedbits

def floatToInt64 (fixedbits : Nat) : BitVec 64 := floatToInt 64 data fixedbits

/-- The biased exponent of a single. -/
def biased : Nat := ((data >>> 23) &&& 0xff).toNat

/-- The stored bits of the mantissa of a single. -/
def fraction : Nat := (data &&& 0x7fffff).toNat

/-- The single times `2 ^ fixedbits`, cut to an integer, without its sign.  A single with biased
exponent `0` has no leading one and the exponent of the smallest normal one. -/
def magnitude (fixedbits : Nat) : Nat :=
  if biased data = 0 then fraction data * 2 ^ (1 + fixedbits) / 2 ^ 150
  else (2 ^ 23 + fraction data) * 2 ^ (biased data + fixedbits) / 2 ^ 150

def withSign (value : Nat) : Int :=
  if data &&& 0x80000000 ≠ 0 then -value else value

end

def Fits (w : Nat) (value : Int) : Prop :=
  -(2 ^ (w - 1) : Nat) ≤ value ∧ value < (2 ^ (w - 1) : Nat)

instance (w : Nat) (value : Int) : Decidable (Fits w value) :=
  inferInstanceAs (Decidable (_ ∧ _))

/-- What the conversion to `w` bits is for. -/
def saturated (w : Nat) (data : UINT32) (fixedbits : Nat) : Int :=
  let truncated := withSign data (magnitude data fixedbits)
  if Fits w truncated then truncated else withSign data (2 ^ (w - 1) - 1)

variable {w : Nat} {data : UINT32} {fixedbits : Nat}

theorem fraction_lt (data : UINT32) : fraction data < 2 ^ 23 := by
  exact and_lt_two_pow _ (by decide)

theorem toNat_mantissa (wide : 24 < w) :
    (((data &&& 0x7fffff) ||| 0x800000).setWidth w).toNat = 2 ^ 23 + fraction data := by
  have small := fraction_lt data
  have room : 2 ^ 24 ≤ 2 ^ w := Nat.pow_le_pow_right (by decide) wide.le
  rw [toNat_setWidth, toNat_or, Nat.or_comm]
  change (2 ^ 23 * 1 ||| fraction data) % _ = _
  rw [← two_pow_add_eq_or_of_lt small 1]
  exact mod_eq_of_lt (by omega)

theorem magnitude_eq (few : fixedbits ≤ 126) :
    magnitude data fixedbits =
      (2 ^ 23 + fraction data) * 2 ^ (biased data + fixedbits) / 2 ^ 150 := by
  have small := fraction_lt data
  -- Without a leading one both sides are below one.
  have vanishes : ∀ s < 2 ^ 24, s * 2 ^ fixedbits / 2 ^ 150 = 0 := by
    intro s small
    have power : 2 ^ fixedbits ≤ 2 ^ 126 := Nat.pow_le_pow_right (by decide) few
    have product : s * 2 ^ fixedbits < 2 ^ 24 * 2 ^ 126 :=
      Nat.mul_lt_mul_of_lt_of_le small power (by decide)
    exact div_eq_of_lt product
  unfold magnitude
  split
  next tiny =>
    rw [tiny, zero_add, vanishes _ (by omega), pow_add, ← mul_assoc, vanishes _ (by omega)]
  · rfl

theorem toInt_withSign (value : Nat) :
    (if data &&& 0x80000000 ≠ 0 then -BitVec.ofNat w value else BitVec.ofNat w value).toInt =
      (withSign data value).bmod (2 ^ w) := by
  unfold withSign
  split
  · rw [← ofInt_natCast, ← ofInt_neg, toInt_ofInt]
  · rw [← ofInt_natCast, toInt_ofInt]

theorem fits_withSign {value : Nat} (small : value < 2 ^ (w - 1)) :
    Fits w (withSign data value) := by
  unfold Fits withSign
  split <;> omega

section

variable (wide : 24 < w) (few : fixedbits ≤ 126)
include wide few

theorem shiftMantissa_eq :
    shiftMantissa w data fixedbits = BitVec.ofNat w
      (if biased data + fixedbits < 150 + w then magnitude data fixedbits
      else 2 ^ (w - 1) - 1) := by
  have small := fraction_lt data
  have room : 2 ^ 25 ≤ 2 ^ w := Nat.pow_le_pow_right (by decide) (by omega)
  have mantissa := @toNat_mantissa w data wide
  have exponent : (((data >>> 23) &&& 0xff).toNat - 127 - 23 + fixedbits : Int) =
      ((biased data + fixedbits : Nat) : Int) - 150 := by
    rw [← biased]
    omega
  apply eq_of_toNat_eq
  rw [shiftMantissa, exponent, magnitude_eq few, toNat_ofNat]
  generalize biased data + fixedbits = k
  rcases lt_or_ge k 150 with right | left
  · obtain ⟨d, sum⟩ : ∃ d, 150 = d + k := ⟨150 - k, by omega⟩
    have quotient : (2 ^ 23 + fraction data) * 2 ^ k / 2 ^ 150 =
        (2 ^ 23 + fraction data) / 2 ^ d := by
      rw [sum, pow_add, Nat.mul_div_mul_right _ _ (Nat.two_pow_pos k)]
    have lower := div_le_self (2 ^ 23 + fraction data) (2 ^ d)
    rw [if_pos (by omega), if_pos (by omega : k < 150 + w), quotient, mod_eq_of_lt (by omega),
      show (-((k : Int) - 150)).toNat = d by omega]
    split
    · rw [sshiftRight_eq_of_msb_false (msb_eq_false_iff_two_mul_lt.mpr (by omega)),
        toNat_ushiftRight, shiftRight_eq_div_pow, mantissa]
    · have gone : 2 ^ 24 ≤ 2 ^ d := Nat.pow_le_pow_right (by decide) (by omega)
      exact (div_eq_of_lt (by omega)).symm
  · obtain ⟨d, rfl⟩ : ∃ d, k = d + 150 := ⟨k - 150, by omega⟩
    rw [if_neg (by omega), show (((d + 150 : Nat) : Int) - 150) = d by omega, Int.toNat_natCast,
      pow_add, ← mul_assoc, Nat.mul_div_cancel _ (by decide)]
    by_cases shifts : d < w
    · rw [if_pos (by omega), if_pos (by omega), toNat_shiftLeft, Nat.shiftLeft_eq, mantissa]
    · rw [if_neg (by omega), if_neg (by omega), toNat_intMax, mod_eq_of_lt]
      exact lt_of_le_of_lt (Nat.sub_le _ _) (Nat.pow_lt_pow_right (by decide) (by omega))

omit wide in
theorem magnitude_eq_shift (left : 150 ≤ biased data + fixedbits) :
    magnitude data fixedbits =
      (2 ^ 23 + fraction data) * 2 ^ (biased data + fixedbits - 150) := by
  rw [magnitude_eq few]
  conv_lhs => rw [← Nat.sub_add_cancel left, Nat.pow_add, ← Nat.mul_assoc]
  exact Nat.mul_div_cancel _ (Nat.two_pow_pos _)

theorem even_of_not_fits (unfit : ¬Fits w (withSign data (magnitude data fixedbits))) :
    2 ∣ magnitude data fixedbits := by
  have small := fraction_lt data
  have room : 2 ^ 24 ≤ 2 ^ (w - 1) := Nat.pow_le_pow_right (by decide) (by omega)
  rcases lt_or_ge 150 (biased data + fixedbits) with left | right
  · rw [magnitude_eq_shift few left.le]
    exact Dvd.dvd.mul_left (dvd_pow_self 2 (by omega)) _
  · refine absurd (fits_withSign ?_) unfit
    rw [magnitude_eq few]
    apply lt_of_le_of_lt (Nat.div_le_div_right
      (Nat.mul_le_mul_left _ (Nat.pow_le_pow_right (by decide) right)))
    omega

/-- A shifted mantissa that does not fit is even, the bounds to saturate to are odd. -/
theorem floatToInt_iff :
    (floatToInt w data fixedbits).toInt = saturated w data fixedbits ↔
      Fits w (withSign data (magnitude data fixedbits)) ∨ 150 + w ≤ biased data + fixedbits := by
  have double : 2 ^ (w - 1) * 2 = 2 ^ w := two_pow_pred_mul_two (by omega)
  have half : 2 ∣ 2 ^ (w - 1) := dvd_pow_self 2 (by omega)
  have small : ∀ value, Fits w value → value.bmod (2 ^ w) = value := by
    intro value fits
    unfold Fits at fits
    exact Int.bmod_eq_of_le_mul_two (by omega) (by omega)
  have positive := Nat.two_pow_pos (w - 1)
  rw [floatToInt, shiftMantissa_eq wide few, toInt_withSign, saturated]
  rcases lt_or_ge (biased data + fixedbits) (150 + w) with shifts | beyond
  · rw [if_pos shifts]
    split
    next fits => exact iff_of_true (small _ fits) (.inl fits)
    next unfit =>
      refine iff_of_false (fun same => ?_) (not_or.mpr ⟨unfit, by omega⟩)
      have even := even_of_not_fits wide few unfit
      have wraps := @Int.dvd_bmod_sub_self (withSign data (magnitude data fixedbits)) (2 ^ w)
      rw [same] at wraps
      have parity := dvd_trans (dvd_pow_self 2 (by omega)) (Int.natCast_pow 2 w ▸ wraps)
      unfold withSign at parity
      split at parity <;> omega
  · rw [if_neg (by omega), if_neg, small _ (fits_withSign (by omega))]
    · simp only [beyond, or_true]
    · have power := Nat.pow_le_pow_right (show 0 < 2 by decide)
        (show w - 1 ≤ biased data + fixedbits - 150 by omega)
      have large : 2 ^ (w - 1) < magnitude data fixedbits := by
        rw [magnitude_eq_shift few (by omega)]
        exact lt_of_lt_of_le (lt_mul_of_one_lt_left positive (by omega))
          (mul_le_mul_left _ power)
      unfold Fits withSign
      split <;> omega

end

/-- A conversion is exact whenever the number fits, but saturates only from the exponent on that
shifts every bit of the mantissa out. -/
theorem float_converts_iff (data : UINT32) (fixedbits : Nat) (few : fixedbits ≤ 126) :
    ((floatToInt32 data fixedbits).toInt = saturated 32 data fixedbits ↔
      Fits 32 (withSign data (magnitude data fixedbits)) ∨ 182 ≤ biased data + fixedbits) ∧
    ((floatToInt64 data fixedbits).toInt = saturated 64 data fixedbits ↔
      Fits 64 (withSign data (magnitude data fixedbits)) ∨ 214 ≤ biased data + fixedbits) :=
  ⟨floatToInt_iff (by decide) few, floatToInt_iff (by decide) few⟩

theorem half_converts : (floatToInt32 0x3f000000 4).toInt = saturated 32 0x3f000000 4 :=
  (float_converts_iff 0x3f000000 4 (by decide)).1.mpr (.inl (by decide))

/-- The vertex coordinate `2 ^ 27` becomes the least number, not the largest. -/
theorem large_vertex_wraps :
    (floatToInt32 0x4d000000 4).toInt = -2 ^ 31 ∧ saturated 32 0x4d000000 4 = 2 ^ 31 - 1 := by
  decide

end Qemu.Voodoo
