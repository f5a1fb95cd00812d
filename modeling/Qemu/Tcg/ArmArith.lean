import Qemu.Tcg.ArmCompare

/-!
# Shifts and double-word arithmetic on ARM

This file embeds the code that `tcg/arm/tcg-target.c` emits for the shifts and rotates, for the sum
and difference of double words and for products.  Of the flags only the carry is read.
-/

namespace Qemu.Tcg.ArmArith

open BitVec

open Arm (Reg toNat_pair)

structure State where
  regs : Reg → BitVec 32
  carry : Bool

def State.set (s : State) (rd : Reg) (value : BitVec 32) : State :=
  { s with regs := Function.update s.regs rd value }

@[simp] theorem State.set_self (s : State) (rd : Reg) (value : BitVec 32) :
    (s.set rd value).regs rd = value := Function.update_self ..

@[simp] theorem State.set_of_ne (s : State) {rd r : Reg} (ne : r ≠ rd) (value : BitVec 32) :
    (s.set rd value).regs r = s.regs r := Function.update_of_ne ne ..

inductive Shift where
  | lsl | lsr | asr | ror

def Shift.apply (x : BitVec 32) (n : Nat) : Shift → BitVec 32
  | lsl => x <<< n
  | lsr => x >>> n
  | asr => x.sshiftRight n
  | ror => x.rotateRight n

/-- `SHIFT_IMM_LSL` and the like, and `SHIFT_REG_LSL` and the like. -/
inductive Shifter where
  | imm (shift : Shift) (im : BitVec 5)
  | reg (shift : Shift) (rs : Reg)

/-- The amount `0` stands for 32 in right shifts, and for a rotation by one through the carry. -/
def Shifter.apply (s : State) (x : BitVec 32) : Shifter → BitVec 32
  | imm .lsl im => x <<< im.toNat
  | imm .ror im =>
    if im = 0 then (BitVec.ofBool s.carry ++ x).extractLsb' 1 32 else x.rotateRight im.toNat
  | imm shift im => shift.apply x (if im = 0 then 32 else im.toNat)
  | reg shift rs => shift.apply x ((s.regs rs).setWidth 8).toNat

inductive Arith where
  | add | adc | sub | sbc

/-- The sum and the carry out of it. -/
def addWithCarry (x y : BitVec 32) (carry : Bool) : BitVec 32 × Bool :=
  let sum := x.toNat + y.toNat + carry.toNat
  (BitVec.ofNat 32 sum, decide (2 ^ 32 ≤ sum))

def Arith.apply (x y : BitVec 32) (carry : Bool) : Arith → BitVec 32 × Bool
  | add => addWithCarry x y false
  | adc => addWithCarry x y carry
  | sub => addWithCarry x (~~~y) true
  | sbc => addWithCarry x (~~~y) carry

inductive Insn where
  | mov (rd rm : Reg) (shifter : Shifter)
  | rsbImm (rd rn : Reg) (im : BitVec 32)
  | arith (opc : Arith) (flags : Bool) (rd rn rm : Reg)
  | mul (rd rm rs : Reg)
  | umull (rdLo rdHi rm rs : Reg)

/-- Products are unpredictable before ARMv6 if the register of the first factor is written. -/
def Insn.step (s : State) : Insn → Option State
  | mov rd rm shifter => some (s.set rd (shifter.apply s (s.regs rm)))
  | rsbImm rd rn im => some (s.set rd (im - s.regs rn))
  | arith opc flags rd rn rm =>
    let sum := opc.apply (s.regs rn) (s.regs rm) s.carry
    some { s.set rd sum.1 with carry := if flags then sum.2 else s.carry }
  | mul rd rm rs => if rd = rm then none else some (s.set rd (s.regs rm * s.regs rs))
  | umull rdLo rdHi rm rs =>
    if rdLo = rdHi ∨ rdLo = rm ∨ rdHi = rm then none
    else
      let product : BitVec 64 := (s.regs rm).setWidth 64 * (s.regs rs).setWidth 64
      some ((s.set rdLo (product.setWidth 32)).set rdHi (product.extractLsb' 32 32))

/-- The registers after the code. -/
def run (code : List Insn) (s : State) : Option (Reg → BitVec 32) :=
  (code.foldlM Insn.step s).map State.regs

/-- `TCG_REG_R8`, which is reserved: no operand is assigned to it. -/
def r8 : Reg := 8

variable {s : State}

/-! ## Shifts -/

inductive ShiftOp where
  | shl | shr | sar | rotl | rotr

/-- A second argument that is a constant or in a register. -/
inductive Amount where
  | const (value : BitVec 32)
  | reg (r : Reg)

def ShiftOp.shift : ShiftOp → Shift
  | shl => .lsl
  | shr => .lsr
  | sar => .asr
  | rotl | rotr => .ror

def unlessZero (shift : Shift) (im : BitVec 5) : Shifter :=
  if im ≠ 0 then .imm shift im else .imm .lsl 0

/-- `INDEX_op_shl_i32` and the like of `tcg_out_op`. -/
def tcgOutShift (a0 a1 : Reg) : ShiftOp → Amount → List Insn
  | .shl, .const a2 => [.mov a0 a1 (.imm .lsl (a2.setWidth 5))]
  | .rotl, .const a2 => [.mov a0 a1 (unlessZero .ror ((0x20 - a2).setWidth 5))]
  | .rotl, .reg _ => [.rsbImm r8 a1 0x20, .mov a0 a1 (.reg .ror r8)]
  | op, .const a2 => [.mov a0 a1 (unlessZero op.shift (a2.setWidth 5))]
  | op, .reg a2 => [.mov a0 a1 (.reg op.shift a2)]

/-- The result of the operation for amounts below 32. -/
def ShiftOp.eval (x : BitVec 32) (n : Nat) : ShiftOp → BitVec 32
  | rotl => x.rotateLeft n
  | op => op.shift.apply x n

def Amount.value (s : State) : Amount → Nat
  | const value => value.toNat
  | reg r => (s.regs r).toNat

theorem rotateRight_sub (x : BitVec 32) {n : Nat} (small : n < 32) :
    x.rotateRight ((32 - n) % 32) = x.rotateLeft n := by
  rw [rotateRight_mod_eq_rotateRight, rotateRight_def, rotateLeft_def]
  rcases Nat.eq_zero_or_pos n with rfl | positive
  · simp [ushiftRight_eq_zero]
  · rw [Nat.mod_eq_of_lt (by omega), Nat.mod_eq_of_lt small, BitVec.or_comm,
      Nat.sub_sub_self (by omega)]

theorem apply_unlessZero (x : BitVec 32) (shift : Shift) (im : BitVec 5) :
    (unlessZero shift im).apply s x = shift.apply x im.toNat := by
  unfold unlessZero
  split
  next some => cases shift <;> simp_all [Shifter.apply, Shift.apply]
  next none =>
    obtain rfl : im = 0 := by simpa using none
    cases shift <;> simp [Shifter.apply, Shift.apply, rotateRight_def]

theorem run_mov {a0 a1 : Reg} (shifter : Shifter) :
    (run [.mov a0 a1 shifter] s).map (· a0) = some (shifter.apply s (s.regs a1)) := by
  simp [run, Insn.step]

/-- What the emitted code leaves in the destination: a rotation to the left by a register is one by
the low bits of the rotated word. -/
theorem run_shift {a0 a1 : Reg} {op : ShiftOp} {a2 : Amount} (small : a2.value s < 32)
    (source : a1 ≠ r8) : (run (tcgOutShift a0 a1 op a2) s).map (· a0) = some (match op, a2 with
      | .rotl, .reg _ => (s.regs a1).rotateLeft ((s.regs a1).toNat % 32)
      | op, a2 => op.eval (s.regs a1) (a2.value s)) := by
  cases a2 with
  | const n =>
    have few : n.toNat < 32 := small
    have amount : (n.setWidth 5).toNat = n.toNat := by
      exact Nat.mod_eq_of_lt few
    have left : ((0x20 - n).setWidth 5).toNat = (32 - n.toNat) % 32 := by
      change (2 ^ 32 - n.toNat + 32) % 2 ^ 32 % 2 ^ 5 = _
      omega
    cases op with
    | rotl =>
      rw [tcgOutShift, run_mov, apply_unlessZero, Shift.apply, left, rotateRight_sub _ few]
      rfl
    | shl =>
      rw [tcgOutShift, run_mov, Shifter.apply, amount]
      rfl
    | shr | sar | rotr =>
      simp only [tcgOutShift, run_mov, apply_unlessZero, amount]
      rfl
  | reg r =>
    have amount : ((s.regs r).setWidth 8).toNat = (s.regs r).toNat := by
      exact Nat.mod_eq_of_lt (lt_trans small (by decide))
    cases op with
    | rotl =>
      have low : ((0x20 - s.regs a1).setWidth 8).toNat % 32 =
          (32 - (s.regs a1).toNat % 32) % 32 := by
        change (2 ^ 32 - (s.regs a1).toNat + 32) % 2 ^ 32 % 2 ^ 8 % 32 = _
        omega
      rw [← rotateRight_sub _ (Nat.mod_lt _ (by decide)), ← low, rotateRight_mod_eq_rotateRight]
      simp [run, tcgOutShift, Insn.step, Shifter.apply, Shift.apply, source]
    | shl | shr | sar | rotr =>
      simp only [tcgOutShift, run_mov, Shifter.apply, amount]
      rfl

/-- Every shift is right but a rotation to the left by a register, which is right if the rotated
word asks for the same rotation. -/
theorem shifts_iff (op : ShiftOp) (a0 a1 : Reg) (a2 : Amount) (s : State)
    (small : a2.value s < 32) (source : a1 ≠ r8) :
    (run (tcgOutShift a0 a1 op a2) s).map (· a0) = some (op.eval (s.regs a1) (a2.value s)) ↔
      ∀ r, op = .rotl → a2 = .reg r → (s.regs a1).rotateLeft (s.regs r).toNat =
        (s.regs a1).rotateLeft ((s.regs a1).toNat % 32) := by
  rw [run_shift small source, Option.some_inj]
  cases op <;> cases a2 <;> simp [ShiftOp.eval, Amount.value, eq_comm]

theorem shifts_by_one :
    (run (tcgOutShift 0 1 .shl (.const 1)) ⟨fun _ => 1, false⟩).map (· 0) = some 2 :=
  (shifts_iff .shl 0 1 (.const 1) ⟨fun _ => 1, false⟩ (by decide) (by decide)).mpr nofun

/-- `1` rotated to the left by the register that holds `2`. -/
theorem rotates_by_itself :
    (run (tcgOutShift 0 1 .rotl (.reg 2)) ⟨fun r => r.val, false⟩).map (· 0) ≠
      some (ShiftOp.rotl.eval 1 2) := by
  decide

/-! ## Double words -/

def tcgOutDatReg2 (opc0 opc1 : Arith) (rd0 rd1 rn0 rn1 rm0 rm1 : Reg) : List Insn :=
  if rd0 = rn1 ∨ rd0 = rm1 then
    [.arith opc0 true r8 rn0 rm0, .arith opc1 false rd1 rn1 rm1, .mov rd0 r8 (.imm .lsl 0)]
  else [.arith opc0 true rd0 rn0 rm0, .arith opc1 false rd1 rn1 rm1]

def tcgOutMul32 (rd rs rm : Reg) : List Insn :=
  if rd ≠ rm then [.mul rd rm rs]
  else if rd ≠ rs then [.mul rd rs rm]
  else [.mul r8 rm rs, .mov rd r8 (.imm .lsl 0)]

def tcgOutUmull32 (rd0 rd1 rs rm : Reg) : List Insn :=
  if rd0 ≠ rm ∧ rd1 ≠ rm then [.umull rd0 rd1 rm rs]
  else if rd0 ≠ rs ∧ rd1 ≠ rs then [.umull rd0 rd1 rs rm]
  else [.mov r8 rm (.imm .lsl 0), .umull rd0 rd1 r8 rs]

theorem addWithCarry_pair (x1 x0 y1 y0 : BitVec 32) (carry : Bool) :
    let low := addWithCarry x0 y0 carry
    (addWithCarry x1 y1 low.2).1 ++ low.1 =
      (x1 ++ x0) + (y1 ++ y0) + (ofBool carry).setWidth 64 := by
  have bit := carry.toNat_lt
  apply eq_of_toNat_eq
  simp only [addWithCarry, toNat_pair, toNat_add, toNat_setWidth, toNat_ofBool, toNat_ofNat]
  by_cases carries : 2 ^ 32 ≤ x0.toNat + y0.toNat + carry.toNat
  · rw [decide_eq_true carries, Bool.toNat_true]
    omega
  · rw [decide_eq_false carries, Bool.toNat_false]
    omega

theorem product_words (product : BitVec 64) :
    product.extractLsb' 32 32 ++ product.setWidth 32 = product := by
  apply eq_of_toNat_eq
  rw [toNat_pair, extractLsb'_toNat, toNat_setWidth, Nat.shiftRight_eq_div_pow]
  omega

section

variable {rd0 rd1 rn0 rn1 rm0 rm1 rs rm : Reg}

theorem run_mul32 (free : rm ≠ r8) :
    (run (tcgOutMul32 rd0 rs rm) s).map (· rd0) = some (s.regs rs * s.regs rm) := by
  unfold tcgOutMul32
  split
  next apart => simp [run, Insn.step, apart, BitVec.mul_comm]
  next =>
    split
    next apart => simp [run, Insn.step, apart]
    next => simp [run, Insn.step, free.symm, Shifter.apply, BitVec.mul_comm]

/-- The double word in two registers after the code. -/
def runPair (rd0 rd1 : Reg) (code : List Insn) (s : State) : Option (BitVec 64) :=
  (run code s).map fun regs => regs rd1 ++ regs rd0

variable (apart : rd0 ≠ rd1)
include apart

theorem run_datReg2 (opc0 opc1 : Arith) (free : ∀ r ∈ [rd0, rd1, rn0, rn1, rm0, rm1], r ≠ r8) :
    let low := opc0.apply (s.regs rn0) (s.regs rm0) s.carry
    runPair rd0 rd1 (tcgOutDatReg2 opc0 opc1 rd0 rd1 rn0 rn1 rm0 rm1) s =
      some ((opc1.apply (s.regs rn1) (s.regs rm1) low.2).1 ++ low.1) := by
  simp only [List.forall_mem_cons] at free
  obtain ⟨-, high, -, left, -, right, -⟩ := free
  unfold tcgOutDatReg2
  split
  next => simp [runPair, run, Insn.step, Shifter.apply, left, right, apart.symm, high.symm]
  next clear =>
    obtain ⟨left, right⟩ := not_or.mp clear
    simp [runPair, run, Insn.step, apart, Ne.symm left, Ne.symm right]

theorem run_umull32 (low : rd0 ≠ r8) (high : rd1 ≠ r8) (free : rs ≠ r8) :
    runPair rd0 rd1 (tcgOutUmull32 rd0 rd1 rs rm) s =
      some ((s.regs rs).setWidth 64 * (s.regs rm).setWidth 64) := by
  unfold tcgOutUmull32
  split
  next clear =>
    simp [runPair, run, Insn.step, apart, clear, product_words, BitVec.mul_comm]
  next =>
    split
    next clear => simp [runPair, run, Insn.step, apart, clear, product_words]
    next =>
      simp [runPair, run, Insn.step, Shifter.apply, apart, low, high, free, product_words,
        BitVec.mul_comm]

/-- Outputs may be in the registers of inputs; the two words of an output are in different ones. -/
theorem runs_double_words (free : ∀ r ∈ [rd0, rd1, rn0, rn1, rm0, rm1], r ≠ r8) :
    runPair rd0 rd1 (tcgOutDatReg2 .add .adc rd0 rd1 rn0 rn1 rm0 rm1) s =
      some ((s.regs rn1 ++ s.regs rn0) + (s.regs rm1 ++ s.regs rm0)) ∧
    runPair rd0 rd1 (tcgOutDatReg2 .sub .sbc rd0 rd1 rn0 rn1 rm0 rm1) s =
      some ((s.regs rn1 ++ s.regs rn0) - (s.regs rm1 ++ s.regs rm0)) ∧
    (run (tcgOutMul32 rd0 rn0 rm0) s).map (· rd0) = some (s.regs rn0 * s.regs rm0) ∧
    runPair rd0 rd1 (tcgOutUmull32 rd0 rd1 rn0 rm0) s =
      some ((s.regs rn0).setWidth 64 * (s.regs rm0).setWidth 64) := by
  refine ⟨?_, ?_, run_mul32 (free rm0 (by simp)), run_umull32 apart (free rd0 (by simp))
    (free rd1 (by simp)) (free rn0 (by simp))⟩
  · simpa [Arith.apply, addWithCarry_pair] using run_datReg2 (s := s) apart .add .adc free
  · have difference := run_datReg2 (s := s) apart .sub .sbc free
    simp only [Arith.apply, addWithCarry_pair, ← not_append] at difference
    rw [sub_eq_add_neg, neg_eq_not_add, ← BitVec.add_assoc]
    exact difference

end

/-- The words of both operands are where the result goes. -/
theorem runs_squared : runPair 0 1 (tcgOutUmull32 0 1 0 1) ⟨fun _ => 3, false⟩ = some 9 :=
  (@runs_double_words ⟨fun _ => 3, false⟩ 0 1 0 1 1 0 (by decide) (by decide)).2.2.2

end Qemu.Tcg.ArmArith
