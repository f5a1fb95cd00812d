import Qemu.I386.FlagWord

/-!
# Flags as the processor defines them

The specification: for operands of any width, the flags an instruction sets, with `none` for a flag
that it leaves undefined.  Carry, auxiliary carry and overflow are stated by the arithmetic on the
integers that the operands denote.  The helpers return these flags for the operands and results
recorded by the emitted code.
-/

namespace Qemu.I386

open BitVec Bool Carry

variable {count : Nat}

variable {a b r : TargetUlong} {carry : Bool}

abbrev X86Flags := Flag → Option Bool

/-- A flags word has every flag that is defined. -/
def X86Flags.AgreesWith (flags : X86Flags) (word : TargetUlong) : Prop :=
  ∀ flag value, flags flag = some value → word.getLsbD flag.bit = value

section Spec

variable {w : Nat}

/-- Flags of a result `r`, given those that depend on the operands. -/
def x86Flags (r : BitVec w) (cf af of : Option Bool) : X86Flags
  | .cf => cf
  | .pf => some (evenParity (r.setWidth 8))
  | .af => af
  | .zf => some (r == 0)
  | .sf => some r.msb
  | .of => of

/-- An integer that does not fit into a signed word. -/
def SignedOverflow (w : Nat) (value : Int) : Prop := value < -2 ^ (w - 1) ∨ 2 ^ (w - 1) ≤ value

instance (w : Nat) (value : Int) : Decidable (SignedOverflow w value) :=
  inferInstanceAs (Decidable (_ ∨ _))

/-- `add` and `adc`. -/
def addFlags (a b : BitVec w) (carry : Bool) : X86Flags :=
  x86Flags (a + b + BitVec.ofNat w carry.toNat)
    (some (decide (2 ^ w ≤ a.toNat + b.toNat + carry.toNat)))
    (some (decide (16 ≤ a.toNat % 16 + b.toNat % 16 + carry.toNat)))
    (some (decide (SignedOverflow w (a.toInt + b.toInt + carry.toNat))))

/-- `sub`, `sbb` and `cmp`. -/
def subFlags (a b : BitVec w) (borrow : Bool) : X86Flags :=
  x86Flags (a - b - BitVec.ofNat w borrow.toNat)
    (some (decide (a.toNat < b.toNat + borrow.toNat)))
    (some (decide (a.toNat % 16 < b.toNat % 16 + borrow.toNat)))
    (some (decide (SignedOverflow w (a.toInt - b.toInt - borrow.toNat))))

/-- `and`, `or` and `xor`. -/
def logicFlags (r : BitVec w) : X86Flags := x86Flags r (some false) none (some false)

section

variable (a : BitVec w)

/-- `inc`: an addition of one that keeps the carry. -/
def incFlags (carry : Bool) : X86Flags := Function.update (addFlags a 1 false) .cf (some carry)

/-- `dec`: a subtraction of one that keeps the carry. -/
def decFlags (carry : Bool) : X86Flags := Function.update (subFlags a 1 false) .cf (some carry)

/-- `neg`: a subtraction from zero. -/
def negFlags : X86Flags := subFlags 0 a false

/-- `shl`: the carry is the last bit shifted out. -/
def shlFlags (count : Nat) : X86Flags :=
  x86Flags (a <<< count) (some (a.getLsbD (w - count))) none
    (if count = 1 then some ((a <<< count).msb ^^ a.getLsbD (w - count)) else none)

def shrFlags (count : Nat) : X86Flags :=
  x86Flags (a >>> count) (some (a.getLsbD (count - 1))) none
    (if count = 1 then some a.msb else none)

def sarFlags (count : Nat) : X86Flags :=
  x86Flags (a.sshiftRight count) (some (a.getLsbD (count - 1))) none
    (if count = 1 then some false else none)

end

end Spec

section Agreement

variable (ot : OperandSize)

theorem bits_le : ot.bits ≤ 32 := by cases ot <;> simp [OperandSize.bits]

theorem le_bits : 8 ≤ ot.bits := by cases ot <;> simp [OperandSize.bits]

theorem dataType_add (x y : TargetUlong) : dataType ot (x + y) = dataType ot x + dataType ot y :=
  setWidth_add x y (bits_le ot)

/-- The word returned for a result agrees with flags that have the given operand part. -/
theorem resultWord_agrees {dst : TargetUlong} {r : BitVec ot.bits} (result : dataType ot dst = r)
    {cf af of : Bool} {flags : X86Flags} {cf' af' of' : Option Bool}
    (shape : flags = x86Flags r cf' af' of') (carry : ∀ value ∈ cf', cf = value)
    (auxiliary : ∀ value ∈ af', af = value) (overflow : ∀ value ∈ of', of = value) :
    flags.AgreesWith (resultWord ot dst cf af of) := by
  subst shape result
  have byte : (dataType ot dst).setWidth 8 = dst.setWidth 8 :=
    setWidth_setWidth_of_le dst (le_bits ot)
  intro flag value expected
  rw [resultWord, getLsbD_flagWord]
  cases flag with
  | cf => exact carry value expected
  | af => exact auxiliary value expected
  | of => exact overflow value expected
  | pf =>
    rw [x86Flags, byte] at expected
    exact Option.some.inj expected
  | zf | sf => exact Option.some.inj expected

theorem dataType_sum (a b : TargetUlong) (carry : Bool) :
    (dataType ot (a + b + ofBool carry)).toNat =
      ((dataType ot a).toNat + (dataType ot b).toNat + carry.toNat) % 2 ^ ot.bits := by
  have bit : (dataType ot (ofBool carry)).toNat = carry.toNat := by
    cases ot <;> cases carry <;> rfl
  rw [dataType_add, dataType_add, toNat_add, toNat_add, bit, Nat.mod_add_mod]

theorem dataType_ofBool (carry : Bool) :
    dataType ot (ofBool carry) = BitVec.ofNat ot.bits carry.toNat := by
  cases ot <;> cases carry <;> rfl

/-- A sum has the flags that the helpers return for it, if its carry is right. -/
theorem sum_agrees (a b : TargetUlong) (carry : Bool) {cf : Bool}
    (out : cf =
      decide (2 ^ ot.bits ≤ (dataType ot a).toNat + (dataType ot b).toNat + carry.toNat)) :
    let r := a + b + ofBool carry
    (addFlags (dataType ot a) (dataType ot b) carry).AgreesWith
      (resultWord ot r cf (nibbleCarry ot r b a) (sumOverflow ot b a r)) := by
  have sum := dataType_sum ot a b carry
  have wide := le_bits ot
  have signs : _ ↔ SignedOverflow ot.bits _ :=
    signs_iff_overflow sum (toNat_le carry) (by omega)
  refine resultWord_agrees ot ?_ rfl ?_ ?_ ?_
  · rw [dataType_add, dataType_add, dataType_ofBool]
  · rintro _ ⟨⟩
    exact out
  · rintro _ ⟨⟩
    exact xor_bit_eq_carry sum (toNat_le carry) (by omega : 4 < ot.bits)
  · rintro _ ⟨⟩
    rw [Bool.eq_iff_iff, decide_eq_true_iff, ← signs, sumOverflow, Bool.and_eq_true, beq_iff_eq,
      bne_iff_ne]
    exact and_congr eq_comm Iff.rfl

theorem computeAllAdd_agrees (a b : TargetUlong) :
    (addFlags (dataType ot a) (dataType ot b) false).AgreesWith (computeAllAdd ot b (a + b)) := by
  have plain : a + b + ofBool false = a + b := BitVec.add_zero _
  rw [computeAllAdd_eq, add_sub_cancel, ← plain]
  refine sum_agrees ot a b false ?_
  rw [ult_eq_decide_lt, decide_eq_decide]
  exact lt_iff_carry (dataType_sum ot a b false)

theorem computeAllAdc_agrees (a b : TargetUlong) :
    (addFlags (dataType ot a) (dataType ot b) true).AgreesWith
      (computeAllAdc ot b (a + b + 1)) := by
  have first : a + b + 1 - b - 1 = a := by
    rw [BitVec.add_assoc, BitVec.add_comm b 1, ← BitVec.add_assoc, add_sub_cancel, add_sub_cancel]
  rw [computeAllAdc_eq, first]
  refine sum_agrees ot a b true ?_
  rw [ule_eq_decide_le, decide_eq_decide]
  exact le_iff_carry (dataType_sum ot a b true)

theorem dataType_sub (x y : TargetUlong) : dataType ot (x - y) = dataType ot x - dataType ot y := by
  have sum := dataType_add ot (x - y) y
  rw [sub_add_cancel] at sum
  rw [sum, add_sub_cancel]

theorem difference_add (a b c : TargetUlong) : a - b - c + b + c = a := by
  rw [BitVec.add_assoc, BitVec.add_comm b, ← BitVec.add_assoc, sub_add_cancel, sub_add_cancel]

theorem dataType_difference (a b : TargetUlong) (borrow : Bool) :
    (dataType ot a).toNat = ((dataType ot (a - b - ofBool borrow)).toNat + (dataType ot b).toNat +
      borrow.toNat) % 2 ^ ot.bits := by
  rw [← dataType_sum, difference_add]

/-- A difference has the flags that the helpers return for it, if its borrow is right. -/
theorem difference_agrees (a b : TargetUlong) (borrow : Bool) {cf : Bool}
    (out : cf = decide ((dataType ot a).toNat < (dataType ot b).toNat + borrow.toNat)) :
    let r := a - b - ofBool borrow
    (subFlags (dataType ot a) (dataType ot b) borrow).AgreesWith
      (resultWord ot r cf (nibbleCarry ot r a b) (differenceOverflow ot a b r)) := by
  intro r
  have sum : (dataType ot a).toNat = ((dataType ot r).toNat + (dataType ot b).toNat +
      borrow.toNat) % 2 ^ ot.bits := dataType_difference ot a b borrow
  have wide := le_bits ot
  have signs : _ ↔ SignedOverflow ot.bits _ :=
    signs_iff_underflow sum (toNat_le borrow) (by omega)
  have carry := xor_bit_eq_carry sum (toNat_le borrow) (by omega : 4 < ot.bits)
  have order : nibbleCarry ot r a b = ((dataType ot a).getLsbD 4 ^^ (dataType ot b).getLsbD 4 ^^
      (dataType ot r).getLsbD 4) := by
    rw [nibbleCarry]
    cases (dataType ot a).getLsbD 4 <;> cases (dataType ot b).getLsbD 4 <;>
      cases (dataType ot r).getLsbD 4 <;> rfl
  have low : (dataType ot a).toNat % 16 =
      ((dataType ot r).toNat + (dataType ot b).toNat + borrow.toNat) % 16 := by
    rw [sum, Nat.mod_mod_of_dvd]
    exact pow_dvd_pow 2 (by omega : 4 ≤ ot.bits)
  refine resultWord_agrees ot ?_ rfl ?_ ?_ ?_
  · rw [dataType_sub, dataType_sub, dataType_ofBool]
  · rintro _ ⟨⟩
    exact out
  · rintro _ ⟨⟩
    rw [order, carry, decide_eq_decide]
    omega
  · rintro _ ⟨⟩
    rw [Bool.eq_iff_iff, decide_eq_true_iff, ← signs, differenceOverflow]
    simp

theorem computeAllSub_agrees (a b : TargetUlong) :
    (subFlags (dataType ot a) (dataType ot b) false).AgreesWith (computeAllSub ot b (a - b)) := by
  have plain : a - b - ofBool false = a - b := BitVec.sub_zero _
  rw [computeAllSub_eq, sub_add_cancel, ← plain]
  exact difference_agrees ot a b false rfl

theorem computeAllSbb_agrees (a b : TargetUlong) :
    (subFlags (dataType ot a) (dataType ot b) true).AgreesWith
      (computeAllSbb ot b (a - b - 1)) := by
  rw [computeAllSbb_eq, difference_add]
  refine difference_agrees ot a b true ?_
  rw [ule_eq_decide_le, decide_eq_decide]
  exact Nat.lt_succ_iff.symm

theorem computeAllLogic_agrees (r : TargetUlong) :
    (logicFlags (dataType ot r)).AgreesWith (computeAllLogic ot r) := by
  rw [computeAllLogic_eq]
  refine resultWord_agrees ot rfl rfl ?_ ?_ ?_
  · rintro _ ⟨⟩
    rfl
  · rintro _ ⟨⟩
  · rintro _ ⟨⟩
    rfl

theorem toNat_and_dataMask (x : TargetUlong) :
    (x &&& dataMask ot).toNat = (dataType ot x).toNat := by
  rw [toNat_and, dataMask, toNat_ofNat, dataType, toNat_setWidth,
    Nat.mod_eq_of_lt (lt_of_lt_of_le (Nat.sub_lt (Nat.two_pow_pos _) (by omega))
      (Nat.pow_le_pow_right (by omega) (bits_le ot))), Nat.and_two_pow_sub_one_eq_mod]

theorem toNat_signMask : (signMask ot).toNat = 2 ^ (ot.bits - 1) := by
  cases ot <;> rfl

theorem and_dataMask_beq (x value : TargetUlong) :
    (x &&& dataMask ot == value) = decide ((dataType ot x).toNat = value.toNat) := by
  rw [Bool.eq_iff_iff, beq_iff_eq, decide_eq_true_iff, ← toNat_and_dataMask]
  exact toNat_inj.symm

theorem toNat_dataType_one : (dataType ot 1).toNat = 1 := by
  cases ot <;> rfl

theorem msb_dataType_one : (dataType ot 1).msb = false := by
  cases ot <;> rfl

theorem two_pow_bits : 2 ^ ot.bits = 2 ^ (ot.bits - 1) + 2 ^ (ot.bits - 1) ∧
    2 ≤ 2 ^ (ot.bits - 1) := by
  cases ot <;> decide

variable (a : TargetUlong)

/-- An increment overflows when it reaches the smallest signed value. -/
theorem incOverflow_eq : (a + 1 &&& dataMask ot == signMask ot) = sumOverflow ot 1 a (a + 1) := by
  have sum := dataType_sum ot a 1 false
  have plain : a + 1 + ofBool false = a + 1 := BitVec.add_zero _
  rw [plain] at sum
  have wrap := toNat_cases sum (toNat_le false)
  rw [toNat_dataType_one, toNat_false] at wrap
  have half := two_pow_bits ot
  rw [and_dataMask_beq, toNat_signMask, sumOverflow, msb_dataType_one, msb_eq_decide,
    msb_eq_decide, Bool.eq_iff_iff]
  simp only [decide_eq_true_iff, and_eq_true, beq_iff_eq, bne_iff_ne, ne_eq,
    eq_comm (a := false), decide_eq_false_iff_not]
  omega

/-- A decrement overflows when it reaches the largest signed value. -/
theorem decOverflow_eq :
    (a - 1 &&& dataMask ot == signMask ot - 1) = differenceOverflow ot a 1 (a - 1) := by
  have sum := dataType_difference ot a 1 false
  have plain : a - 1 - ofBool false = a - 1 := BitVec.sub_zero _
  rw [plain] at sum
  have wrap := toNat_cases sum (toNat_le false)
  rw [toNat_dataType_one, toNat_false] at wrap
  have half := two_pow_bits ot
  have mask : (signMask ot - 1).toNat = 2 ^ (ot.bits - 1) - 1 := by cases ot <;> rfl
  rw [and_dataMask_beq, mask, differenceOverflow, msb_dataType_one, msb_eq_decide,
    msb_eq_decide, Bool.eq_iff_iff]
  simp only [decide_eq_true_iff, and_eq_true, bne_iff_ne, ne_eq, decide_eq_decide,
    decide_eq_false_iff_not]
  omega

theorem keepCarry_agrees {flags : X86Flags} {dst : TargetUlong} {cf af of : Bool}
    (agrees : flags.AgreesWith (resultWord ot dst cf af of)) :
    X86Flags.AgreesWith (Function.update flags .cf (some carry))
      (resultWord ot dst carry af of) := by
  intro flag value expected
  have old := agrees flag value
  rw [resultWord, getLsbD_flagWord] at old ⊢
  cases flag with
  | cf => exact (by simpa using expected : carry = value)
  | pf | af | zf | sf | of => exact old (by simpa using expected)

theorem computeAllInc_agrees (carry : Bool) :
    (incFlags (dataType ot a) carry).AgreesWith (computeAllInc ot (ofBool carry) (a + 1)) := by
  have sum := computeAllAdd_agrees ot a 1
  rw [computeAllAdd_eq, add_sub_cancel] at sum
  rw [computeAllInc_eq, add_sub_cancel, incOverflow_eq]
  have order : nibbleCarry ot (a + 1) a 1 = nibbleCarry ot (a + 1) 1 a := by
    simp only [nibbleCarry, Bool.xor_comm, Bool.xor_left_comm]
  rw [order]
  have one : dataType ot 1 = 1 := by cases ot <;> rfl
  rw [one] at sum
  exact keepCarry_agrees ot sum

theorem computeAllDec_agrees (carry : Bool) :
    (decFlags (dataType ot a) carry).AgreesWith (computeAllDec ot (ofBool carry) (a - 1)) := by
  have difference := computeAllSub_agrees ot a 1
  rw [computeAllSub_eq, sub_add_cancel] at difference
  rw [computeAllDec_eq, sub_add_cancel, decOverflow_eq]
  have one : dataType ot 1 = 1 := by cases ot <;> rfl
  rw [one] at difference
  exact keepCarry_agrees ot difference

theorem getLsbD_dataType (x : TargetUlong) {i : Nat} (inside : i < ot.bits) :
    (dataType ot x).getLsbD i = x.getLsbD i := by
  simp [dataType, inside]

theorem dataType_shiftLeft (x : TargetUlong) (n : Nat) :
    dataType ot (x <<< n) = dataType ot x <<< n := by
  have width := bits_le ot
  apply eq_of_getLsbD_eq
  intro i inside
  have word : i < 32 := by omega
  rw [getLsbD_dataType ot _ inside, getLsbD_shiftLeft, getLsbD_shiftLeft,
    getLsbD_dataType ot x (by omega)]
  simp [inside, word]

theorem dataType_xor_msb (x y : TargetUlong) :
    (dataType ot (x ^^^ y)).msb = ((dataType ot x).msb ^^ (dataType ot y).msb) := by
  simp only [msb_dataType, getLsbD_xor]

theorem computeAllShl_agrees (positive : 0 < count) (below : count < ot.bits) :
    (shlFlags (dataType ot a) count).AgreesWith
      (computeAllShl ot (a <<< (count - 1)) (a <<< count)) := by
  have width := bits_le ot
  have carry : (dataType ot (a <<< (count - 1))).msb =
      (dataType ot a).getLsbD (ot.bits - count) := by
    have reach : ¬ot.bits - 1 < count - 1 := by omega
    have word : ot.bits - 1 < 32 := by omega
    have position : ot.bits - 1 - (count - 1) = ot.bits - count := by omega
    rw [msb_dataType, getLsbD_dataType ot a (by omega), getLsbD_shiftLeft, position]
    simp [reach, word]
  rw [computeAllShl_eq]
  refine resultWord_agrees ot (dataType_shiftLeft ot a count) rfl ?_ ?_ ?_
  · rintro _ ⟨⟩
    exact carry
  · rintro _ ⟨⟩
  · intro value expected
    split at expected
    · rw [dataType_xor_msb, carry, dataType_shiftLeft, Bool.xor_comm]
      exact Option.some.inj expected
    · cases expected

theorem dataType_setWidth (x : BitVec ot.bits) : dataType ot (x.setWidth 32) = x := by
  rw [dataType, setWidth_setWidth_of_le x (bits_le ot), setWidth_eq]

theorem computeAllSar_agrees_shr (a : BitVec ot.bits) (positive : 0 < count)
    (below : count < ot.bits) :
    (shrFlags a count).AgreesWith
      (computeAllSar ot (a.setWidth 32 >>> (count - 1)) (a.setWidth 32 >>> count)) := by
  have width := bits_le ot
  have shifted : ∀ n : Nat, dataType ot (a.setWidth 32 >>> n) = a >>> n := by
    intro n
    apply eq_of_getLsbD_eq
    intro i inside
    rw [getLsbD_dataType ot _ inside, getLsbD_ushiftRight, getLsbD_ushiftRight, getLsbD_setWidth]
    by_cases word : n + i < 32
    · simp [word]
    · simp [word, getLsbD_of_ge a (n + i) (by omega)]
  rw [computeAllSar_eq]
  refine resultWord_agrees ot (shifted count) rfl ?_ ?_ ?_
  · have word : count - 1 < 32 := by omega
    simp [word]
  · rintro _ ⟨⟩
  · intro value expected
    split at expected
    · rename_i once
      subst once
      have cleared : (a >>> 1).msb = false := by
        simp [msb_ushiftRight]
      rw [dataType_xor_msb, shifted, shifted, cleared]
      simpa using Option.some.inj expected
    · cases expected

theorem computeAllSar_agrees_sar (a : BitVec ot.bits) (positive : 0 < count)
    (below : count < ot.bits) :
    (sarFlags a count).AgreesWith
      (computeAllSar ot ((a.signExtend 32).sshiftRight (count - 1))
        ((a.signExtend 32).sshiftRight count)) := by
  have width := bits_le ot
  have sign : (a.signExtend 32).msb = a.msb := by
    rw [msb_signExtend]
    cases ot <;> simp only [OperandSize.bits] <;> rfl
  have bit : ∀ i < 32, (a.signExtend 32).getLsbD i =
      if i < ot.bits then a.getLsbD i else a.msb := by
    intro i word
    rw [getLsbD_signExtend, decide_eq_true word, Bool.true_and]
  have shifted : ∀ n, dataType ot ((a.signExtend 32).sshiftRight n) = a.sshiftRight n := by
    intro n
    apply eq_of_getLsbD_eq
    intro i inside
    have word : ¬32 ≤ i := by omega
    have operand : ¬ot.bits ≤ i := by omega
    rw [getLsbD_dataType ot _ inside, getLsbD_sshiftRight, getLsbD_sshiftRight, sign]
    by_cases within : n + i < 32
    · rw [if_pos within, bit _ within]
      simp [word, operand]
    · have beyond : ¬n + i < ot.bits := by omega
      simp [word, operand, within, beyond]
  rw [computeAllSar_eq]
  refine resultWord_agrees ot (shifted count) rfl ?_ ?_ ?_
  · rintro _ ⟨⟩
    have word : count - 1 < 32 := by omega
    have operand : count - 1 < ot.bits := by omega
    rw [getLsbD_sshiftRight, add_zero, if_pos word, bit _ word, if_pos operand]
    rfl
  · rintro _ ⟨⟩
  · intro value expected
    split at expected
    · rw [dataType_xor_msb, shifted, shifted, msb_sshiftRight, msb_sshiftRight, Bool.xor_self]
      exact Option.some.inj expected
    · cases expected

end Agreement

end Qemu.I386
