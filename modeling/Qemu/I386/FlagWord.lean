import Qemu.I386.Flags

/-!
# The flags that the helpers return

Each `compute_all` function ors six disjoint one-bit values together.  `flagWord` is such a word
given by its flags; the lemmas below say which flags each function returns, in terms of the operand
sized parts of `CC_SRC` and `CC_DST`.
-/

namespace Qemu.I386

open BitVec OperandSize

inductive Flag where
  | cf | pf | af | zf | sf | of
  deriving DecidableEq, Repr

def Flag.bit : Flag → Nat
  | cf => 0
  | pf => 2
  | af => 4
  | zf => 6
  | sf => 7
  | of => 11

variable (cf pf af zf sf of : Bool)

/-- The word with the given flags. -/
def flagWord : TargetUlong :=
  ofBool cf ||| ofBool pf <<< 2 ||| ofBool af <<< 4 ||| ofBool zf <<< 6 ||| ofBool sf <<< 7 |||
    ofBool of <<< 11

def pickFlag : Flag → Bool
  | .cf => cf
  | .pf => pf
  | .af => af
  | .zf => zf
  | .sf => sf
  | .of => of

theorem getLsbD_flagWord (flag : Flag) :
    (flagWord cf pf af zf sf of).getLsbD flag.bit = pickFlag cf pf af zf sf of flag := by
  cases flag <;> revert cf pf af zf sf of <;> decide

theorem flagWord_and_ccC : flagWord cf pf af zf sf of &&& ccC = ofBool cf := by
  revert cf pf af zf sf of
  decide

/-- An even number of one bits. -/
def evenParity (byte : BitVec 8) : Bool := ((List.range 8).countP byte.getLsbD) % 2 == 0

theorem parityFlag_eq (dst : TargetUlong) :
    parityFlag dst = ofBool (evenParity (dst.setWidth 8)) <<< 2 := by
  have table : ∀ n : Fin 256, parityTable.getD n.val 0 =
      ofBool (evenParity (BitVec.ofNat 8 n.val)) <<< 2 := by decide +kernel
  have entry := table ⟨(dst.setWidth 8).toNat, (dst.setWidth 8).isLt⟩
  rwa [ofNat_toNat, setWidth_eq] at entry

section Sized

variable (ot : OperandSize)

theorem getLsbD_ofBool_shiftLeft (value : Bool) (n i : Nat) :
    (ofBool value <<< n).getLsbD i = (decide (i < 32) && decide (i = n) && value) := by
  cases value with
  | false => simp [ofBool]
  | true =>
    rw [ofBool, if_pos rfl, getLsbD_shiftLeft]
    by_cases same : i = n
    · subst same
      simp
    · rcases lt_or_gt_of_ne same with below | above
      · simp [same, below]
      · have apart : ¬i < n := by omega
        have positive : i - n ≠ 0 := by omega
        simp [same, apart, getLsbD_one, positive]

variable (x : TargetUlong)

theorem and_bit {n : Nat} (inside : n < 32) :
    x &&& ((1 : TargetUlong) <<< n) = ofBool (x.getLsbD n) <<< n := by
  apply eq_of_getLsbD_eq
  intro i _
  rw [getLsbD_and, getLsbD_ofBool_shiftLeft]
  have one : ((1 : TargetUlong) <<< n).getLsbD i = (decide (i < 32) && decide (i = n) && true) :=
    getLsbD_ofBool_shiftLeft true n i
  rw [one]
  by_cases same : i = n
  · subst same
    simp [inside]
  · simp [same]

theorem msb_dataType : (dataType ot x).msb = x.getLsbD (ot.bits - 1) := by
  cases ot <;> simp [dataType, bits, BitVec.msb, getMsbD]

theorem getLsbD_lshift {n : Int} {i : Nat} (inside : i < 32) (lower : 0 ≤ i - n)
    (upper : i - n < 32) : (lshift x n).getLsbD i = x.getLsbD (i - n).toNat := by
  rw [lshift]
  split
  · have position : (i - n).toNat = i - n.toNat := by omega
    have reach : ¬i < n.toNat := by omega
    rw [getLsbD_shiftLeft, position]
    simp [inside, reach]
  · have position : (i - n).toNat = (-n).toNat + i := by omega
    have reach : (-n).toNat + i < 32 := by omega
    rw [getLsbD_sshiftRight, position]
    simp [inside, reach]

/-- The sign of the operand, moved to the bit of the sign flag. -/
theorem signFlag_eq (dst : TargetUlong) : signFlag ot dst = ofBool (dataType ot dst).msb <<< 7 := by
  have mask : (0x80 : TargetUlong) = (1 : TargetUlong) <<< 7 := by decide
  rw [signFlag, mask, and_bit _ (by omega), msb_dataType]
  cases ot <;> rw [getLsbD_lshift _ (by omega) (by simp [bits]) (by simp [bits])] <;> rfl

/-- The sign of a word, moved to the bit of the overflow flag. -/
theorem overflowFlag_eq : lshift x (12 - ot.bits) &&& ccO = ofBool (dataType ot x).msb <<< 11 := by
  have mask : ccO = (1 : TargetUlong) <<< 11 := by decide
  rw [mask, and_bit _ (by omega), msb_dataType]
  cases ot <;> rw [getLsbD_lshift _ (by omega) (by simp [bits]) (by simp [bits])] <;> rfl

theorem zeroFlag_eq (dst : TargetUlong) :
    zeroFlag ot dst = ofBool (dataType ot dst == 0) <<< 6 := rfl

theorem auxiliaryFlag_eq (dst src1 src2 : TargetUlong) :
    auxiliaryFlag dst src1 src2 = ofBool
      ((dataType ot dst).getLsbD 4 ^^ (dataType ot src1).getLsbD 4 ^^
        (dataType ot src2).getLsbD 4) <<< 4 := by
  have mask : (0x10 : TargetUlong) = (1 : TargetUlong) <<< 4 := by decide
  have inside : 4 < ot.bits := by cases ot <;> simp [bits]
  rw [auxiliaryFlag, mask, and_bit _ (by omega)]
  simp [dataType, inside]

section

variable (src1 src2 dst : TargetUlong)

/-- The overflow of a sum: equal signs of the operands and another sign of the result. -/
def sumOverflow : Bool :=
  ((dataType ot src1).msb == (dataType ot src2).msb) &&
    ((dataType ot src1).msb != (dataType ot dst).msb)

/-- The overflow of a difference: different signs of the operands and another sign of the result
than the first. -/
def differenceOverflow : Bool :=
  ((dataType ot src1).msb != (dataType ot src2).msb) &&
    ((dataType ot src1).msb != (dataType ot dst).msb)

/-- The carry into bit four. -/
def nibbleCarry (dst src1 src2 : TargetUlong) : Bool :=
  (dataType ot dst).getLsbD 4 ^^ (dataType ot src1).getLsbD 4 ^^ (dataType ot src2).getLsbD 4

theorem sumOverflow_eq :
    lshift ((src1 ^^^ src2 ^^^ -1) &&& (src1 ^^^ dst)) (12 - ot.bits) &&& ccO =
      ofBool (sumOverflow ot src1 src2 dst) <<< 11 := by
  have ones : (-1 : TargetUlong).getLsbD (ot.bits - 1) = true := by cases ot <;> decide
  rw [overflowFlag_eq]
  simp only [sumOverflow, msb_dataType, getLsbD_and, getLsbD_xor, ones]
  cases src1.getLsbD (ot.bits - 1) <;> cases src2.getLsbD (ot.bits - 1) <;>
    cases dst.getLsbD (ot.bits - 1) <;> rfl

theorem differenceOverflow_eq :
    lshift ((src1 ^^^ src2) &&& (src1 ^^^ dst)) (12 - ot.bits) &&& ccO =
      ofBool (differenceOverflow ot src1 src2 dst) <<< 11 := by
  rw [overflowFlag_eq]
  simp only [differenceOverflow, msb_dataType, getLsbD_and, getLsbD_xor]

end

/-- The word returned for a result, given the flags that depend on the operands. -/
def resultWord (dst : TargetUlong) (cf af of : Bool) : TargetUlong :=
  flagWord cf (evenParity (dst.setWidth 8)) af (dataType ot dst == 0) (dataType ot dst).msb of

variable (src dst : TargetUlong)

theorem computeAllAdd_eq :
    computeAllAdd ot src dst = resultWord ot dst ((dataType ot dst).ult (dataType ot src))
      (nibbleCarry ot dst src (dst - src)) (sumOverflow ot src (dst - src) dst) := by
  rw [computeAllAdd, parityFlag_eq, auxiliaryFlag_eq ot, zeroFlag_eq, signFlag_eq, sumOverflow_eq]
  rfl

theorem computeAllAdc_eq :
    computeAllAdc ot src dst = resultWord ot dst ((dataType ot dst).ule (dataType ot src))
      (nibbleCarry ot dst src (dst - src - 1)) (sumOverflow ot src (dst - src - 1) dst) := by
  rw [computeAllAdc, parityFlag_eq, auxiliaryFlag_eq ot, zeroFlag_eq, signFlag_eq, sumOverflow_eq]
  rfl

theorem computeAllSub_eq :
    computeAllSub ot src dst = resultWord ot dst ((dataType ot (dst + src)).ult (dataType ot src))
      (nibbleCarry ot dst (dst + src) src) (differenceOverflow ot (dst + src) src dst) := by
  rw [computeAllSub, parityFlag_eq, auxiliaryFlag_eq ot, zeroFlag_eq, signFlag_eq,
    differenceOverflow_eq]
  rfl

theorem computeAllSbb_eq :
    computeAllSbb ot src dst =
      resultWord ot dst ((dataType ot (dst + src + 1)).ule (dataType ot src))
        (nibbleCarry ot dst (dst + src + 1) src) (differenceOverflow ot (dst + src + 1) src dst) := by
  rw [computeAllSbb, parityFlag_eq, auxiliaryFlag_eq ot, zeroFlag_eq, signFlag_eq,
    differenceOverflow_eq]
  rfl

theorem computeAllLogic_eq : computeAllLogic ot dst = resultWord ot dst false false false := by
  rw [computeAllLogic, parityFlag_eq, zeroFlag_eq, signFlag_eq]
  rfl

theorem computeAllInc_eq (carry : Bool) :
    computeAllInc ot (ofBool carry) dst = resultWord ot dst carry (nibbleCarry ot dst (dst - 1) 1)
      (dst &&& dataMask ot == signMask ot) := by
  rw [computeAllInc, parityFlag_eq, auxiliaryFlag_eq ot, zeroFlag_eq, signFlag_eq]
  rfl

theorem computeAllDec_eq (carry : Bool) :
    computeAllDec ot (ofBool carry) dst = resultWord ot dst carry (nibbleCarry ot dst (dst + 1) 1)
      (dst &&& dataMask ot == signMask ot - 1) := by
  rw [computeAllDec, parityFlag_eq, auxiliaryFlag_eq ot, zeroFlag_eq, signFlag_eq]
  rfl

theorem and_ccC : x &&& ccC = ofBool (x.getLsbD 0) := by
  have mask : ccC = (1 : TargetUlong) <<< 0 := by decide
  rw [mask, and_bit x (by omega), shiftLeft_zero]

theorem computeCShl_eq : computeCShl ot src = ofBool (dataType ot src).msb := by
  have position : (src >>> (ot.bits - 1)).getLsbD 0 = src.getLsbD (ot.bits - 1) := by
    rw [getLsbD_ushiftRight, add_zero]
  rw [computeCShl, and_ccC, position, msb_dataType]

theorem computeAllShl_eq :
    computeAllShl ot src dst = resultWord ot dst (dataType ot src).msb false
      (dataType ot (src ^^^ dst)).msb := by
  have carry : (src >>> (ot.bits - 1)) &&& ccC = ofBool (dataType ot src).msb :=
    computeCShl_eq ot src
  rw [computeAllShl, carry, parityFlag_eq, zeroFlag_eq, signFlag_eq, overflowFlag_eq]
  rfl

theorem computeAllSar_eq :
    computeAllSar ot src dst = resultWord ot dst (src.getLsbD 0) false
      (dataType ot (src ^^^ dst)).msb := by
  have carry : src &&& 1 = ofBool (src.getLsbD 0) := and_ccC src
  rw [computeAllSar, carry, parityFlag_eq, zeroFlag_eq, signFlag_eq, overflowFlag_eq]
  rfl

theorem computeAllMul_eq :
    computeAllMul ot src dst = resultWord ot dst (src != 0) false (src != 0) := by
  rw [computeAllMul, parityFlag_eq, zeroFlag_eq, signFlag_eq]
  rfl

end Sized

/-- The two helpers agree on the carry, except that an increment or decrement hands on whatever it
recorded. -/
theorem helperCcComputeC_eq (op src dst : TargetUlong)
    (bit : ∀ ot, CcOp.ofCode op = some (.tagged .inc ot) ∨ CcOp.ofCode op = some (.tagged .dec ot) →
      ∃ carry, src = ofBool carry) :
    helperCcComputeC op src dst = helperCcComputeAll op src dst &&& ccC := by
  rw [helperCcComputeC, helperCcComputeAll]
  cases selected : CcOp.ofCode op with
  | none => exact zero_and.symm
  | some tag =>
    cases tag with
    | dynamic => exact zero_and.symm
    | eflags => rfl
    | tagged family ot =>
      cases family with
      | inc =>
        obtain ⟨carry, rfl⟩ := bit ot (.inl selected)
        simp only [computeAllInc_eq, resultWord, flagWord_and_ccC, computeCInc]
      | dec =>
        obtain ⟨carry, rfl⟩ := bit ot (.inr selected)
        simp only [computeAllDec_eq, resultWord, flagWord_and_ccC, computeCInc]
      | mul => simp only [computeAllMul_eq, resultWord, flagWord_and_ccC, computeCMul]
      | add => simp only [computeAllAdd_eq, resultWord, flagWord_and_ccC, computeCAdd]
      | adc => simp only [computeAllAdc_eq, resultWord, flagWord_and_ccC, computeCAdc]
      | sub => simp only [computeAllSub_eq, resultWord, flagWord_and_ccC, computeCSub]
      | sbb => simp only [computeAllSbb_eq, resultWord, flagWord_and_ccC, computeCSbb]
      | logic => simp only [computeAllLogic_eq, resultWord, flagWord_and_ccC, computeCLogic]; rfl
      | shl => simp only [computeAllShl_eq, resultWord, flagWord_and_ccC, computeCShl_eq]
      | sar =>
        simp only [computeAllSar_eq, resultWord, flagWord_and_ccC, computeCSar]
        exact and_ccC src

end Qemu.I386
