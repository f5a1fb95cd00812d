import Qemu.I386.X86Flags

/-!
# Rotations through the carry

This file embeds `helper_rcl` and `helper_rcr` of `target-i386/helper_template.h`.  They rotate the
operand with the carry above its top bit.
-/

namespace Qemu.I386

open BitVec

def rclwTable : List Nat :=
  [0, 1, 2, 3, 4, 5, 6, 7, 8, 9, 10, 11, 12, 13, 14, 15,
    16, 0, 1, 2, 3, 4, 5, 6, 7, 8, 9, 10, 11, 12, 13, 14]

def rclbTable : List Nat :=
  [0, 1, 2, 3, 4, 5, 6, 7, 8, 0, 1, 2, 3, 4, 5, 6, 7, 8, 0, 1, 2, 3, 4, 5, 6, 7, 8, 0, 1, 2, 3, 4]

theorem rotateRight_rotateLeft {w : Nat} (x : BitVec w) (n : Nat) :
    (x.rotateLeft n).rotateRight n = x := by
  apply eq_of_getLsbD_eq
  intro i inside
  rw [getLsbD_rotateRight, getLsbD_rotateLeft, getLsbD_rotateLeft]
  by_cases low : i < w - n % w
  · have stays : ¬n % w + i < n % w := by omega
    have reach : n % w + i < w := by omega
    simp [low, stays, reach]
  · have wraps : i - (w - n % w) < n % w := by omega
    have back : w - n % w + (i - (w - n % w)) = i := by omega
    simp [low, wraps, back, inside]

section Template

variable (ot : OperandSize)

/-- The count the helpers rotate by. -/
def rotcCount (t1 : TargetUlong) : Nat :=
  let count := (t1 &&& 0x1f).toNat
  match ot with
  | .byte => rclbTable.getD count 0
  | .word => rclwTable.getD count 0
  | .long => count

/-- The flags with a new carry, and the overflow of a rotation from `src` to `t0`. -/
def rotcFlags (eflags src t0 carry : TargetUlong) : TargetUlong :=
  eflags &&& ~~~(ccC ||| ccO) ||| lshift (src ^^^ t0) (11 - (ot.bits - 1)) &&& ccO ||| carry &&& ccC

/-- The result and `cc_tmp`, where -1 stands for flags that do not change. -/
def helperRcl (ccOp ccSrc ccDst t0 t1 : TargetUlong) : TargetUlong × TargetUlong :=
  let count := rotcCount ot t1
  if count ≠ 0 then
    let eflags := helperCcComputeAll ccOp ccSrc ccDst
    let src := t0 &&& dataMask ot
    let res := src <<< count ||| (eflags &&& ccC) <<< (count - 1)
    let res := if 1 < count then res ||| src >>> (ot.bits + 1 - count) else res
    (res, rotcFlags ot eflags src res (src >>> (ot.bits - count)))
  else (t0, -1)

def helperRcr (ccOp ccSrc ccDst t0 t1 : TargetUlong) : TargetUlong × TargetUlong :=
  let count := rotcCount ot t1
  if count ≠ 0 then
    let eflags := helperCcComputeAll ccOp ccSrc ccDst
    let src := t0 &&& dataMask ot
    let res := src >>> count ||| (eflags &&& ccC) <<< (ot.bits - count)
    let res := if 1 < count then res ||| src <<< (ot.bits + 1 - count) else res
    (res, rotcFlags ot eflags src res (src >>> (count - 1)))
  else (t0, -1)

/-- The word that is rotated. -/
def withCarry (eflags t0 : TargetUlong) : BitVec (ot.bits + 1) :=
  cons (eflags.getLsbD 0) (dataType ot t0)

theorem rotcCount_eq (t1 : TargetUlong) : rotcCount ot t1 = t1.toNat % 32 % (ot.bits + 1) := by
  have byte : ∀ count < 32, rclbTable.getD count 0 = count % 9 := by decide
  have word : ∀ count < 32, rclwTable.getD count 0 = count % 17 := by decide
  have mask : (t1 &&& 0x1f).toNat = t1.toNat % 32 := by
    exact Nat.and_two_pow_sub_one_eq_mod t1.toNat 5
  have below : t1.toNat % 32 < 32 := Nat.mod_lt _ (by decide)
  cases ot with
  | byte => simp only [rotcCount, mask, byte _ below, OperandSize.bits]
  | word => simp only [rotcCount, mask, word _ below, OperandSize.bits]
  | long =>
    simp only [rotcCount, mask, OperandSize.bits]
    omega

theorem getLsbD_masked (x : TargetUlong) (i : Nat) :
    (x &&& dataMask ot).getLsbD i = (decide (i < ot.bits) && x.getLsbD i) := by
  have same : x &&& dataMask ot = (dataType ot x).setWidth 32 := by
    apply eq_of_toNat_eq
    have width := bits_le ot
    rw [toNat_and_dataMask, toNat_setWidth_of_le width]
  rw [same, getLsbD_setWidth, dataType, getLsbD_setWidth]
  grind

theorem rotcFlags_carry (eflags src t0 carry : TargetUlong) :
    (rotcFlags ot eflags src t0 carry).getLsbD 0 = carry.getLsbD 0 := by
  have cleared : (~~~(ccC ||| ccO)).getLsbD 0 = false := by decide
  have overflow : ccO.getLsbD 0 = false := by decide
  have set : ccC.getLsbD 0 = true := by decide
  simp only [rotcFlags, getLsbD_or, getLsbD_and, cleared, overflow, set, Bool.and_false,
    Bool.false_or, Bool.and_true]

theorem rotcFlags_others (eflags src t0 carry : TargetUlong) :
    rotcFlags ot eflags src t0 carry &&& ~~~(ccC ||| ccO) = eflags &&& ~~~(ccC ||| ccO) := by
  apply eq_of_getLsbD_eq
  simp only [rotcFlags, getLsbD_and, getLsbD_or, getLsbD_not]
  grind

section Rotations

variable (ccOp ccSrc ccDst t0 t1 : TargetUlong)

theorem rotcCount_lt : rotcCount ot t1 < ot.bits + 1 := by
  rw [rotcCount_eq]
  exact Nat.mod_lt _ (Nat.succ_pos _)

theorem helperRotc_word (turns : rotcCount ot t1 ≠ 0) :
    let word := withCarry ot (helperCcComputeAll ccOp ccSrc ccDst) t0
    let left := helperRcl ot ccOp ccSrc ccDst t0 t1
    let right := helperRcr ot ccOp ccSrc ccDst t0 t1
    withCarry ot left.2 left.1 = word.rotateLeft (rotcCount ot t1) ∧
      withCarry ot right.2 right.1 = word.rotateRight (rotcCount ot t1) := by
  have fits := rotcCount_lt ot t1
  have width := bits_le ot
  constructor
  -- bit by bit: the new carry at the top, below it the shifted operand and the old carry
  all_goals
    apply eq_of_getLsbD_eq
    intro i inside
    simp only [helperRcl, helperRcr, if_pos turns, getLsbD_rotateLeft, getLsbD_rotateRight,
      Nat.mod_eq_of_lt fits, withCarry, getLsbD_cons, rotcFlags_carry, getLsbD_ushiftRight,
      getLsbD_masked, and_ccC, dataType, getLsbD_setWidth]
    by_cases top : i = ot.bits
    · grind
    · rw [if_neg top]
      split <;> simp only [getLsbD_or, getLsbD_ofBool_shiftLeft] <;>
        simp only [getLsbD_shiftLeft, getLsbD_ushiftRight, getLsbD_masked] <;> grind

/-- Rotations of the operand with the carry above it; a left rotation is undone by the right one
that reads the flags it recorded. -/
theorem rotates_through_carry (ccDst' : TargetUlong) :
    let eflags := helperCcComputeAll ccOp ccSrc ccDst
    let count := t1.toNat % 32 % (ot.bits + 1)
    let left := helperRcl ot ccOp ccSrc ccDst t0 t1
    let right := helperRcr ot ccOp ccSrc ccDst t0 t1
    let back := helperRcr ot CcOp.eflags.code left.2 ccDst' left.1 t1
    if count = 0 then left = (t0, -1) ∧ right = (t0, -1)
    else
      withCarry ot left.2 left.1 = (withCarry ot eflags t0).rotateLeft count ∧
        withCarry ot right.2 right.1 = (withCarry ot eflags t0).rotateRight count ∧
        left.2 &&& ~~~(ccC ||| ccO) = eflags &&& ~~~(ccC ||| ccO) ∧
        right.2 &&& ~~~(ccC ||| ccO) = eflags &&& ~~~(ccC ||| ccO) ∧
        withCarry ot back.2 back.1 = withCarry ot eflags t0 := by
  intro eflags count left right back
  have reduced : rotcCount ot t1 = count := rotcCount_eq ot t1
  have read : helperCcComputeAll CcOp.eflags.code left.2 ccDst' = left.2 := rfl
  by_cases still : count = 0
  · have stays : ¬rotcCount ot t1 ≠ 0 := not_not_intro (reduced.trans still)
    rw [if_pos still]
    exact ⟨if_neg stays, if_neg stays⟩
  · have turns : rotcCount ot t1 ≠ 0 := reduced ▸ still
    obtain ⟨turned, right_turned⟩ := helperRotc_word ot ccOp ccSrc ccDst t0 t1 turns
    rw [if_neg still, ← reduced]
    refine ⟨turned, right_turned, ?_, ?_, ?_⟩
    · simp only [left, helperRcl, if_pos turns]
      exact rotcFlags_others ..
    · simp only [right, helperRcr, if_pos turns]
      exact rotcFlags_others ..
    · rw [(helperRotc_word ot _ _ _ _ _ turns).2, read, turned, rotateRight_rotateLeft]

end Rotations

end Template

end Qemu.I386
