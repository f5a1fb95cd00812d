import Mathlib

/-!
# Carries and borrows of machine words

A word `r` with `r = a + b + c` modulo the word size, for a carry `c` of at most one, determines the
carry out of every bit and the signed overflow of the sum.  A difference `a = r - b - c` is read as
the sum `r = a + b + c`, so one set of facts serves both directions.
-/

namespace Qemu.Carry

open BitVec Nat

section Word

variable {w : Nat} {a b r : BitVec w} {c : Nat}

theorem toNat_cases (sum : r.toNat = (a.toNat + b.toNat + c) % 2 ^ w) (bit : c ≤ 1) :
    r.toNat = a.toNat + b.toNat + c ∧ a.toNat + b.toNat + c < 2 ^ w ∨
      r.toNat + 2 ^ w = a.toNat + b.toNat + c := by
  rcases lt_or_ge (a.toNat + b.toNat + c) (2 ^ w) with small | large
  · exact .inl ⟨by rw [sum, mod_eq_of_lt small], small⟩
  · right
    rw [sum, mod_eq_sub_mod large, mod_eq_of_lt (by omega)]
    omega

/-- Without a carry in, a sum carries out when it is smaller than a summand. -/
theorem lt_iff_carry (sum : r.toNat = (a.toNat + b.toNat + 0) % 2 ^ w) :
    r.toNat < b.toNat ↔ 2 ^ w ≤ a.toNat + b.toNat := by
  rcases toNat_cases sum (by omega) with ⟨plain, small⟩ | wrapped <;> omega

/-- With a carry in, a sum carries out when it is at most a summand. -/
theorem le_iff_carry (sum : r.toNat = (a.toNat + b.toNat + 1) % 2 ^ w) :
    r.toNat ≤ b.toNat ↔ 2 ^ w ≤ a.toNat + b.toNat + 1 := by
  rcases toNat_cases sum (by omega) with ⟨plain, small⟩ | wrapped <;> omega

theorem toInt_cases (x : BitVec w) :
    x.msb = false ∧ x.toInt = x.toNat ∧ x.toNat < 2 ^ (w - 1) ∨
      x.msb = true ∧ x.toInt = x.toNat - 2 ^ w ∧ 2 ^ (w - 1) ≤ x.toNat := by
  have value := toInt_eq_msb_cond x
  have sign := msb_eq_decide x
  cases negative : x.msb with
  | false =>
    rw [negative] at value sign
    exact .inl ⟨rfl, by simpa using value, by simpa using sign.symm⟩
  | true =>
    rw [negative] at value sign
    exact .inr ⟨rfl, by simpa using value, by simpa using sign.symm⟩

theorem two_pow_eq_double {w : Nat} (nonempty : 0 < w) :
    (2 : Nat) ^ w = 2 ^ (w - 1) + 2 ^ (w - 1) := by
  rw [← Nat.two_mul, ← Nat.pow_succ', Nat.succ_eq_add_one, Nat.sub_add_cancel nonempty]

theorem half_facts {w : Nat} (nonempty : 0 < w) :
    (2 : Nat) ^ w = 2 ^ (w - 1) + 2 ^ (w - 1) ∧ (2 : Int) ^ w = 2 ^ (w - 1) + 2 ^ (w - 1) ∧
      ((2 ^ (w - 1) : Nat) : Int) = (2 : Int) ^ (w - 1) :=
  ⟨two_pow_eq_double nonempty, by exact_mod_cast two_pow_eq_double nonempty, by rfl⟩

section Signs

variable (sum : r.toNat = (a.toNat + b.toNat + c) % 2 ^ w) (bit : c ≤ 1) (nonempty : 0 < w)

include sum bit nonempty

/-- The sum of two words of the same sign overflows when its sign differs from theirs. -/
theorem signs_iff_overflow :
    a.msb = b.msb ∧ b.msb ≠ r.msb ↔
      a.toInt + b.toInt + c < -2 ^ (w - 1) ∨ 2 ^ (w - 1) ≤ a.toInt + b.toInt + c := by
  obtain ⟨double, doubleInt, half⟩ := half_facts nonempty
  have word := toNat_cases sum bit
  rcases toInt_cases a with ⟨sa, va, na⟩ | ⟨sa, va, na⟩ <;>
  rcases toInt_cases b with ⟨sb, vb, nb⟩ | ⟨sb, vb, nb⟩ <;>
  rcases toInt_cases r with ⟨sr, vr, nr⟩ | ⟨sr, vr, nr⟩ <;>
  rw [sa, sb, sr, va, vb] <;> simp <;> omega

/-- The difference `r - b - c` overflows when `r` and `b` differ in sign and the difference has the
sign of `b`. -/
theorem signs_iff_underflow :
    r.msb ≠ b.msb ∧ r.msb ≠ a.msb ↔
      r.toInt - b.toInt - c < -2 ^ (w - 1) ∨ 2 ^ (w - 1) ≤ r.toInt - b.toInt - c := by
  obtain ⟨double, doubleInt, half⟩ := half_facts nonempty
  have word := toNat_cases sum bit
  rcases toInt_cases a with ⟨sa, va, na⟩ | ⟨sa, va, na⟩ <;>
  rcases toInt_cases b with ⟨sb, vb, nb⟩ | ⟨sb, vb, nb⟩ <;>
  rcases toInt_cases r with ⟨sr, vr, nr⟩ | ⟨sr, vr, nr⟩ <;>
  rw [sa, sb, sr, vr, vb] <;> simp <;> omega

end Signs

/-- The sign of a difference, corrected by its overflow, is the signed order of its operands. -/
theorem sign_xor_overflow (sum : r.toNat = (a.toNat + b.toNat + 0) % 2 ^ w) (nonempty : 0 < w) :
    (a.msb ^^ (r.msb != b.msb && r.msb != a.msb)) = r.slt b := by
  obtain ⟨double, doubleInt, half⟩ := half_facts nonempty
  have word := toNat_cases sum (by omega)
  rw [slt_eq_decide]
  rcases toInt_cases a with ⟨sa, va, na⟩ | ⟨sa, va, na⟩ <;>
  rcases toInt_cases b with ⟨sb, vb, nb⟩ | ⟨sb, vb, nb⟩ <;>
  rcases toInt_cases r with ⟨sr, vr, nr⟩ | ⟨sr, vr, nr⟩ <;>
  rw [sa, sb, sr, vr, vb] <;> simp <;> omega

theorem eq_iff_zero (sum : r.toNat = (a.toNat + b.toNat + 0) % 2 ^ w) : r = b ↔ a = 0 := by
  have zero : (0 : BitVec w).toNat = 0 := by simp
  rw [← toNat_inj, ← toNat_inj, zero]
  rcases toNat_cases sum (by omega) with ⟨plain, small⟩ | wrapped <;> omega

/-- The three words disagree in a bit when there is a carry into it. -/
theorem xor_bit_eq_carry (sum : r.toNat = (a.toNat + b.toNat + c) % 2 ^ w) (bit : c ≤ 1) {i : Nat}
    (inside : i < w) :
    (r.getLsbD i ^^ b.getLsbD i ^^ a.getLsbD i) =
      decide (2 ^ i ≤ a.toNat % 2 ^ i + b.toNat % 2 ^ i + c) := by
  obtain ⟨carry, rfl⟩ : ∃ carry : Bool, c = carry.toNat := by
    rcases le_one_iff_eq_zero_or_eq_one.mp bit with rfl | rfl
    · exact ⟨false, rfl⟩
    · exact ⟨true, rfl⟩
  have word : r = a + b + setWidth w (ofBool carry) := by
    apply eq_of_toNat_eq
    rw [sum]
    simp only [toNat_add, toNat_setWidth, toNat_ofBool, add_mod_mod, mod_add_mod]
  rw [word, getLsbD_add_add_bool inside, BitVec.carry]
  cases a.getLsbD i <;> cases b.getLsbD i <;> simp

end Word

end Qemu.Carry
