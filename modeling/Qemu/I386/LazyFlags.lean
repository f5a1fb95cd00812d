import Qemu.I386.Translate
import Qemu.I386.X86Flags

/-!
# Lazy flags are the processor's flags

The emitted code is run piece by piece: loads and stores of the destination, the code that brings
`CC_OP` up to date, and the operation itself.  What it records makes the helpers return the flags
that the processor defines.
-/

namespace Qemu.I386

open TCGv TcgOp Function BitVec CpuState CcOp ShiftOp List

inductive Instr where
  | arith (op : ArithOp) (ot : OperandSize) (d : Dest)
  | inc (ot : OperandSize) (d : Dest)
  | dec (ot : OperandSize) (d : Dest)
  | neg (ot : OperandSize) (d : Dest)
  | shift (op : ShiftOp) (ot : OperandSize) (d : Dest)
  | shiftIm (op : ShiftOp) (ot : OperandSize) (d : Dest) (count : TargetUlong)

/-- Emitted code and new `s->cc_op` of an instruction. -/
def Instr.gen (ccOp : CcOp) : Instr → List TcgOp × CcOp
  | arith op ot d => genOp ccOp op ot d
  | inc ot d => genInc ccOp ot d true
  | dec ot d => genInc ccOp ot d false
  | neg ot d => genNeg ot d
  | shift op ot d => genShiftRmT1 ccOp ot d op
  | shiftIm op ot d count => genShiftRmIm ccOp ot d count op

section

variable (state : CpuState)

/-- A word whose low part is the destination operand. -/
def CpuState.operandWord (ot : OperandSize) : Dest → TargetUlong
  | .reg r => if ot = .byte ∧ 4 ≤ r.val then state.vars (reg (highByteOf r)) >>> 8
      else state.vars (reg r)
  | .mem => state.load ot (state.vars A0)

/-- The destination operand before an instruction. -/
def CpuState.operand (ot : OperandSize) (d : Dest) : BitVec ot.bits :=
  dataType ot (state.operandWord ot d)

/-- The source operand, which is in `T1`. -/
def CpuState.source (ot : OperandSize) : BitVec ot.bits := dataType ot (state.vars T1)

def shiftCount (value : TargetUlong) : Nat := (value &&& 0x1f).toNat

def ShiftOp.flags {w : Nat} (a : BitVec w) (count : Nat) : ShiftOp → X86Flags
  | shl => shlFlags a count
  | shr => shrFlags a count
  | sar => sarFlags a count

/-- Flags of an instruction executed in a state with a given carry flag. -/
def Instr.flags (carry : Bool) : Instr → X86Flags
  | arith .addl ot d => addFlags (state.operand ot d) (state.source ot) false
  | arith .adcl ot d => addFlags (state.operand ot d) (state.source ot) carry
  | arith .subl ot d => subFlags (state.operand ot d) (state.source ot) false
  | arith .cmpl ot d => subFlags (state.operand ot d) (state.source ot) false
  | arith .sbbl ot d => subFlags (state.operand ot d) (state.source ot) carry
  | arith .andl ot d => logicFlags (state.operand ot d &&& state.source ot)
  | arith .orl ot d => logicFlags (state.operand ot d ||| state.source ot)
  | arith .xorl ot d => logicFlags (state.operand ot d ^^^ state.source ot)
  | inc ot d => incFlags (state.operand ot d) carry
  | dec ot d => decFlags (state.operand ot d) carry
  | neg ot d => negFlags (state.operand ot d)
  | shift op ot d => op.flags (state.operand ot d) (shiftCount (state.vars T1))
  | shiftIm op ot d count => op.flags (state.operand ot d) (shiftCount count)

/-- Shifts with a nonzero count below the operand width. -/
def Instr.CountInRange : Instr → Prop
  | shift _ ot _ => 0 < shiftCount (state.vars T1) ∧ shiftCount (state.vars T1) < ot.bits
  | shiftIm _ ot _ count => 0 < shiftCount count ∧ shiftCount count < ot.bits
  | _ => True

end

/-- The value of `CC_OP`, which may be known to the translator only. -/
def currentCcOp (ccOp : CcOp) (state : CpuState) : TargetUlong :=
  if ccOp = .dynamic then state.vars .ccOp else ccOp.code

section Run

variable (junk : Nat → TCGv → TargetUlong)

@[simp] theorem vars_set (state : CpuState) (ret : TCGv) (value : TargetUlong) (var : TCGv) :
    (state.set ret value).vars var = if var = ret then value else state.vars var := by
  rw [CpuState.set]
  by_cases same : var = ret
  · subst same
    simp
  · simp [same]

@[simp] theorem vars_store (state : CpuState) (ot : OperandSize) (addr value : TargetUlong) :
    (state.store ot addr value).vars = state.vars := rfl

@[simp] theorem vars_endBlock (junk' : TCGv → TargetUlong) (state : CpuState) (var : TCGv) :
    (endBlock junk' state).vars var = if var.survives then state.vars var else junk' var := rfl

/-- Operations that transfer control or end a basic block. -/
def TcgOp.isControl : TcgOp → Bool
  | brcondiEq _ _ _ | brcond _ _ _ _ | brcondi _ _ _ _ | setLabel _ => true
  | _ => false

theorem run_cons {op : TcgOp} (straight : op.isControl = false) (rest : List TcgOp)
    (state : CpuState) :
    run junk (op :: rest) none state = run junk rest none (op.eval (junk rest.length) state) := by
  cases op <;> first | rfl | cases straight

theorem run_genLoad (ot : OperandSize) (d : Dest) (rest : List TcgOp) (state : CpuState) :
    ∃ value, dataType ot value = state.operand ot d ∧
      run junk (genLoad ot d ++ rest) none state = run junk rest none (state.set T0 value) := by
  cases d with
  | mem => exact ⟨_, rfl, run_cons junk rfl _ _⟩
  | reg r =>
    by_cases high : ot = .byte ∧ 4 ≤ r.val
    · obtain ⟨rfl, high⟩ := high
      have low : ¬r.val < 4 := by omega
      refine ⟨(dataType .byte (state.vars (reg (highByteOf r)) >>> 8)).setWidth 32, ?_, ?_⟩
      · rw [dataType_setWidth, operand, operandWord, if_pos ⟨rfl, high⟩]
      · rw [genLoad, genOpMovVReg, if_neg low]
        simp only [List.cons_append, List.nil_append]
        rw [run_cons junk rfl, run_cons junk rfl]
        simp only [TcgOp.eval, CpuState.set, update_self, update_idem]
        rfl
    · have plain : genLoad ot (.reg r) = [mov T0 (reg r)] := by
        cases ot with
        | byte =>
          have low : r.val < 4 := by
            by_contra
            exact high ⟨rfl, by omega⟩
          simp [genLoad, genOpMovVReg, low]
        | word | long => rfl
      refine ⟨_, ?_, by rw [plain]; exact run_cons junk rfl _ _⟩
      rw [operand, operandWord, if_neg high]

/-- Storing the destination changes no variable but registers. -/
theorem run_genStore (ot : OperandSize) (d : Dest) (rest : List TcgOp) (state : CpuState) :
    ∃ after, run junk (genStore ot d ++ rest) none state = run junk rest none after ∧
      ∀ var, (∀ r, var ≠ reg r) → after.vars var = state.vars var := by
  cases d with
  | mem => exact ⟨_, run_cons junk rfl _ _, fun _ _ => rfl⟩
  | reg r =>
    have single : ∃ op target, genStore ot (.reg r) = [op] ∧ op.isControl = false ∧
        ∀ junk, ∃ value, op.eval junk state = state.set (reg target) value := by
      cases ot with
      | byte =>
        by_cases low : r.val < 4 <;>
          exact ⟨_, _, by simp [genStore, genOpMovRegV, low]; rfl, rfl, fun _ => ⟨_, rfl⟩⟩
      | word | long => exact ⟨_, _, rfl, rfl, fun _ => ⟨_, rfl⟩⟩
    obtain ⟨op, target, code, straight, effect⟩ := single
    obtain ⟨value, stored⟩ := effect (junk rest.length)
    refine ⟨state.set (reg target) value, ?_, fun var other => ?_⟩
    · rw [code, singleton_append, run_cons junk straight, stored]
    · rw [vars_set, if_neg (other target)]

/-- The state with `CC_OP` stored. -/
def CpuState.synced (state : CpuState) (ccOp : CcOp) : CpuState :=
  state.set .ccOp (currentCcOp ccOp state)

theorem run_genSyncCcOp (ccOp : CcOp) (rest : List TcgOp) (state : CpuState) :
    run junk (genSyncCcOp ccOp ++ rest) none state = run junk rest none (state.synced ccOp) := by
  rw [genSyncCcOp, synced, currentCcOp]
  split
  · rw [CpuState.set, update_eq_self]
    rfl
  · exact run_cons junk rfl _ _

/-- An operation on the two operands, up to the store of its result. -/
theorem run_binary (op : AluOp) (ot : OperandSize) (d : Dest) (rest : List TcgOp)
    (state : CpuState) :
    ∃ value junk' after, dataType ot value = state.operand ot d ∧
      run junk (genLoad ot d ++ ([alu op T0 T0 T1] ++ (genStore ot d ++ rest))) none state =
        run junk rest none after ∧
      after.vars T0 = op.eval junk' value (state.vars T1) ∧
      after.vars T1 = state.vars T1 := by
  obtain ⟨value, operand, loaded⟩ := run_genLoad junk ot d
    ([alu op T0 T0 T1] ++ (genStore ot d ++ rest)) state
  obtain ⟨after, stored, kept⟩ := run_genStore junk ot d rest
    ((alu op T0 T0 T1).eval (junk (genStore ot d ++ rest).length) (state.set T0 value))
  refine ⟨value, junk (genStore ot d ++ rest).length T0, after, operand, loaded.trans stored, ?_, ?_⟩
  · rw [kept T0 (by simp)]
    simp [TcgOp.eval]
  · rw [kept T1 (by simp)]
    simp [TcgOp.eval]

/-- What is recorded makes both helpers return the given flags. -/
def Records (flags : X86Flags) (op src dst : TargetUlong) : Prop :=
  flags.AgreesWith (helperCcComputeAll op src dst) ∧
    helperCcComputeC op src dst = helperCcComputeAll op src dst &&& ccC ∧
    ∃ carry, helperCcComputeC op src dst = ofBool carry

theorem helperCcComputeC_tagged {family : CcFamily} {ot : OperandSize} {src dst : TargetUlong}
    (bit : family = .inc ∨ family = .dec → ∃ carry, src = ofBool carry) :
    helperCcComputeC (tagged family ot).code src dst =
      helperCcComputeAll (tagged family ot).code src dst &&& ccC := by
  apply helperCcComputeC_eq
  intro other selected
  rw [ofCode_code] at selected
  refine bit (selected.imp ?_ ?_) <;>
  · intro same
    injection same with same
    injection same

theorem records_of_family {flags : X86Flags} {family : CcFamily} {ot : OperandSize}
    {src dst : TargetUlong}
    (agrees : flags.AgreesWith (helperCcComputeAll (tagged family ot).code src dst))
    (bit : family = .inc ∨ family = .dec → ∃ carry, src = ofBool carry) :
    Records flags (tagged family ot).code src dst :=
  have carry := helperCcComputeC_tagged bit
  ⟨agrees, carry, _, carry.trans (and_ccC _)⟩

@[simp] theorem currentCcOp_tagged (family : CcFamily) (ot : OperandSize) (state : CpuState) :
    currentCcOp (.tagged family ot) state = (tagged family ot).code := rfl

@[simp] theorem currentCcOp_dynamic (state : CpuState) :
    currentCcOp .dynamic state = state.vars .ccOp := rfl

section Families

variable (ot : OperandSize) (a b : TargetUlong)

theorem records_add :
    Records (addFlags (dataType ot a) (dataType ot b) false) (tagged .add ot).code b (a + b) := by
  refine records_of_family ?_ (by simp)
  rw [helperCcComputeAll, ofCode_code]
  exact computeAllAdd_agrees ot a b

theorem records_adc :
    Records (addFlags (dataType ot a) (dataType ot b) true) (tagged .adc ot).code b
      (a + b + 1) := by
  refine records_of_family ?_ (by simp)
  rw [helperCcComputeAll, ofCode_code]
  exact computeAllAdc_agrees ot a b

theorem records_sub :
    Records (subFlags (dataType ot a) (dataType ot b) false) (tagged .sub ot).code b (a - b) := by
  refine records_of_family ?_ (by simp)
  rw [helperCcComputeAll, ofCode_code]
  exact computeAllSub_agrees ot a b

theorem records_sbb :
    Records (subFlags (dataType ot a) (dataType ot b) true) (tagged .sbb ot).code b
      (a - b - 1) := by
  refine records_of_family ?_ (by simp)
  rw [helperCcComputeAll, ofCode_code]
  exact computeAllSbb_agrees ot a b

theorem records_logic (r src : TargetUlong) :
    Records (logicFlags (dataType ot r)) (tagged .logic ot).code src r := by
  refine records_of_family ?_ (by simp)
  rw [helperCcComputeAll, ofCode_code]
  exact computeAllLogic_agrees ot r

theorem records_inc (a : TargetUlong) (carry : Bool) :
    Records (incFlags (dataType ot a) carry) (tagged .inc ot).code (ofBool carry) (a + 1) := by
  refine records_of_family ?_ fun _ => ⟨carry, rfl⟩
  rw [helperCcComputeAll, ofCode_code]
  exact computeAllInc_agrees ot a carry

theorem records_dec (a : TargetUlong) (carry : Bool) :
    Records (decFlags (dataType ot a) carry) (tagged .dec ot).code (ofBool carry) (a - 1) := by
  refine records_of_family ?_ fun _ => ⟨carry, rfl⟩
  rw [helperCcComputeAll, ofCode_code]
  exact computeAllDec_agrees ot a carry

/-- What a shift operation does to a word after the extension that precedes it. -/
def ShiftOp.apply (op : ShiftOp) (a : TargetUlong) (count : Nat) : TargetUlong :=
  match op with
  | shl => a <<< count
  | shr => (dataType ot a).setWidth 32 >>> count
  | sar => ((dataType ot a).signExtend 32).sshiftRight count

theorem records_shift (op : ShiftOp) (a : TargetUlong) {count : Nat} (positive : 0 < count)
    (below : count < ot.bits) :
    Records (op.flags (dataType ot a) count) (tagged op.family ot).code
      (op.apply ot a (count - 1)) (op.apply ot a count) := by
  refine records_of_family ?_ (by cases op <;> simp [family])
  rw [helperCcComputeAll, ofCode_code]
  cases op with
  | shl => exact computeAllShl_agrees ot a positive below
  | shr => exact computeAllSar_agrees_shr ot (dataType ot a) positive below
  | sar => exact computeAllSar_agrees_sar ot (dataType ot a) positive below

end Families

/-- The flags recorded by emitted code that leaves `s->cc_op` at `ccOp`. -/
def RecordsAfter (flags : X86Flags) (ccOp : CcOp) (after : CpuState) : Prop :=
  Records flags (currentCcOp ccOp after) (after.vars ccSrc) (after.vars ccDst)

section Code

variable (ccOp : CcOp) (ot : OperandSize) (d : Dest) (state : CpuState)

theorem run_genOpUpdate2Cc (after : CpuState) :
    run junk genOpUpdate2Cc none after =
      (after.set ccSrc (after.vars T1)).set ccDst (after.vars T0) := by
  simp [genOpUpdate2Cc, run, TcgOp.eval]

theorem run_genOpUpdate1Cc (after : CpuState) :
    ∃ src, run junk genOpUpdate1Cc none after = (after.set ccSrc src).set ccDst (after.vars T0) := by
  refine ⟨junk 1 ccSrc, ?_⟩
  simp [genOpUpdate1Cc, run, TcgOp.eval]

/-- Additions and subtractions record the source operand and the result. -/
theorem records_update2 {op : AluOp} {family : CcFamily} {flags : X86Flags}
    (recorded : ∀ junk' value, dataType ot value = state.operand ot d →
      Records flags (tagged family ot).code (state.vars T1)
        (op.eval junk' value (state.vars T1))) :
    RecordsAfter flags (.tagged family ot)
      (run junk (genLoad ot d ++ [alu op T0 T0 T1] ++ genStore ot d ++ genOpUpdate2Cc) none
        state) := by
  obtain ⟨value, junk', after, operand, ran, result, source⟩ :=
    run_binary junk op ot d genOpUpdate2Cc state
  simp only [List.append_assoc]
  rw [ran, run_genOpUpdate2Cc, RecordsAfter, result, source]
  simpa using recorded junk' value operand

theorem records_update1 {op : AluOp} {r : BitVec ot.bits}
    (result_eq : ∀ junk' value, dataType ot value = state.operand ot d →
      dataType ot (op.eval junk' value (state.vars T1)) = r) :
    RecordsAfter (logicFlags r) (.tagged .logic ot)
      (run junk (genLoad ot d ++ [alu op T0 T0 T1] ++ genStore ot d ++ genOpUpdate1Cc) none
        state) := by
  obtain ⟨value, junk', after, operand, ran, result, -⟩ :=
    run_binary junk op ot d genOpUpdate1Cc state
  obtain ⟨src, updated⟩ := run_genOpUpdate1Cc junk after
  simp only [List.append_assoc]
  rw [ran, updated, RecordsAfter, result, ← result_eq junk' value operand]
  simpa using records_logic ot (op.eval junk' value (state.vars T1)) src

theorem records_cmpl :
    RecordsAfter (subFlags (state.operand ot d) (state.source ot) false) (.tagged .sub ot)
      (run junk (genLoad ot d ++ genOpCmplT0T1Cc) none state) := by
  obtain ⟨value, operand, loaded⟩ := run_genLoad junk ot d genOpCmplT0T1Cc state
  rw [loaded, ← operand]
  simpa [RecordsAfter, genOpCmplT0T1Cc, run, TcgOp.eval, AluOp.eval, source] using
    records_sub ot value (state.vars T1)

theorem records_neg :
    RecordsAfter (negFlags (state.operand ot d)) (genNeg ot d).2
      (run junk (genNeg ot d).1 none state) := by
  obtain ⟨value, operand, loaded⟩ := run_genLoad junk ot d
    ([neg T0 T0] ++ (genStore ot d ++ genOpUpdateNegCc)) state
  rw [singleton_append, run_cons junk rfl] at loaded
  obtain ⟨after, stored, kept⟩ := run_genStore junk ot d genOpUpdateNegCc
    ((neg T0 T0).eval (junk (genStore ot d ++ genOpUpdateNegCc).length) (state.set T0 value))
  have result : after.vars T0 = 0 - value := by
    rw [kept T0 (by simp)]
    simp [TcgOp.eval]
  have zero : dataType ot 0 = 0 := by cases ot <;> rfl
  have recorded := records_sub ot 0 value
  rw [zero] at recorded
  simp only [genNeg, List.append_assoc]
  rw [List.singleton_append, loaded, stored, ← operand]
  simpa [RecordsAfter, genOpUpdateNegCc, run, TcgOp.eval, result, negFlags] using recorded

theorem run_genComputeEflagsC (ret : TCGv) (rest : List TcgOp) :
    run junk (genComputeEflagsC ret ++ rest) none state =
      run junk rest none ((state.set tmp2 (helperCcComputeC (state.vars .ccOp) (state.vars ccSrc)
        (state.vars ccDst))).set ret (helperCcComputeC (state.vars .ccOp) (state.vars ccSrc)
          (state.vars ccDst))) := by
  rw [genComputeEflagsC, List.cons_append, List.singleton_append, run_cons junk rfl,
    run_cons junk rfl]
  simp [TcgOp.eval]

theorem run_genTagByCarry (family : CcFamily) (carry : Bool) (carryIn : state.vars tmp4 = ofBool carry) :
    ∃ after, run junk (genTagByCarry family ot) none state = after ∧
      after.vars .ccOp = ofBool carry <<< 2 + (tagged family ot).code ∧
      after.vars ccSrc = state.vars T1 ∧ after.vars ccDst = state.vars T0 := by
  refine ⟨_, rfl, ?_, ?_, ?_⟩ <;>
    simp [genTagByCarry, run, TcgOp.eval, AluOp.eval, carryIn]

section

variable {carry : Bool}
  (carryIn : helperCcComputeC (currentCcOp ccOp state) (state.vars ccSrc) (state.vars ccDst) =
    ofBool carry)

include carryIn

theorem run_carried (op : AluOp) (family : CcFamily) :
    ∃ value junk1 junk2 after, dataType ot value = state.operand ot d ∧
      run junk (genLoad ot d ++ genSyncCcOp ccOp ++ genComputeEflagsC tmp4 ++
        [alu op T0 T0 T1, alu op T0 T0 tmp4] ++ genStore ot d ++ genTagByCarry family ot) none state =
          after ∧
      after.vars .ccOp = ofBool carry <<< 2 + (tagged family ot).code ∧
      after.vars ccSrc = state.vars T1 ∧
      after.vars ccDst = op.eval junk2 (op.eval junk1 value (state.vars T1)) (ofBool carry) := by
  simp only [List.append_assoc]
  obtain ⟨value, operand, loaded⟩ := run_genLoad junk ot d
    (genSyncCcOp ccOp ++ (genComputeEflagsC tmp4 ++ ([alu op T0 T0 T1, alu op T0 T0 tmp4] ++
      (genStore ot d ++ genTagByCarry family ot)))) state
  have tag : currentCcOp ccOp (state.set T0 value) = currentCcOp ccOp state := by
    simp [currentCcOp]
  rw [run_genSyncCcOp, run_genComputeEflagsC] at loaded
  simp only [synced, vars_set, tag, reduceCtorEq, if_true, if_false, carryIn] at loaded
  rw [List.cons_append, List.singleton_append, run_cons junk rfl, run_cons junk rfl] at loaded
  obtain ⟨stored, storing, kept⟩ := run_genStore junk ot d (genTagByCarry family ot) _
  rw [storing] at loaded
  obtain ⟨after, finished, op_eq, src_eq, dst_eq⟩ := run_genTagByCarry junk ot stored family carry (by
    rw [kept tmp4 (by simp)]
    simp [TcgOp.eval])
  have result : stored.vars T0 = op.eval (junk (genStore ot d ++ genTagByCarry family ot).length T0)
      (op.eval (junk (alu op T0 T0 tmp4 :: (genStore ot d ++ genTagByCarry family ot)).length T0)
        value (state.vars T1)) (ofBool carry) := by
    rw [kept T0 (by simp)]
    simp [TcgOp.eval]
  refine ⟨value, _, _, after, operand, loaded.trans finished, op_eq, ?_, dst_eq.trans result⟩
  rw [src_eq, kept T1 (by simp)]
  simp [TcgOp.eval]

theorem records_adcl :
    RecordsAfter (addFlags (state.operand ot d) (state.source ot) carry) .dynamic
      (run junk (genOp ccOp .adcl ot d).1 none state) := by
  obtain ⟨value, junk1, junk2, after, operand, ran, tag, src, dst⟩ :=
    run_carried junk ccOp ot d state carryIn .add .add
  rw [genOp, ran, RecordsAfter, currentCcOp_dynamic, tag, src, dst, ← operand,
    (code_add_carry ot carry).1]
  cases carry with
  | false =>
    simpa [AluOp.eval, ofBool, source] using records_add ot value (state.vars T1)
  | true => exact records_adc ot value (state.vars T1)

theorem records_sbbl :
    RecordsAfter (subFlags (state.operand ot d) (state.source ot) carry) .dynamic
      (run junk (genOp ccOp .sbbl ot d).1 none state) := by
  obtain ⟨value, junk1, junk2, after, operand, ran, tag, src, dst⟩ :=
    run_carried junk ccOp ot d state carryIn .sub .sub
  rw [genOp, ran, RecordsAfter, currentCcOp_dynamic, tag, src, dst, ← operand,
    (code_add_carry ot carry).2]
  cases carry with
  | false =>
    simpa [AluOp.eval, ofBool, source] using records_sub ot value (state.vars T1)
  | true => exact records_sbb ot value (state.vars T1)

theorem run_genInc (up : Bool) :
    ∃ value, dataType ot value = state.operand ot d ∧
      (run junk (genInc ccOp ot d up).1 none state).vars ccSrc = ofBool carry ∧
      (run junk (genInc ccOp ot d up).1 none state).vars ccDst =
        value + (if up then 1 else -1) := by
  simp only [genInc, List.append_assoc]
  obtain ⟨value, operand, loaded⟩ := run_genLoad junk ot d
    (genSyncCcOp ccOp ++ ([alui .add T0 T0 (if up then 1 else -1)] ++ (genStore ot d ++
      (genComputeEflagsC ccSrc ++ [mov ccDst T0])))) state
  have tag : currentCcOp ccOp (state.set T0 value) = currentCcOp ccOp state := by
    simp [currentCcOp]
  rw [run_genSyncCcOp, singleton_append, run_cons junk rfl] at loaded
  obtain ⟨stored, storing, kept⟩ :=
    run_genStore junk ot d (genComputeEflagsC ccSrc ++ [mov ccDst T0]) _
  rw [storing, run_genComputeEflagsC, kept .ccOp (by simp), kept ccSrc (by simp),
    kept ccDst (by simp)] at loaded
  simp only [TcgOp.eval, synced, vars_set, tag, reduceCtorEq, if_true, if_false, carryIn] at loaded
  have result : stored.vars T0 = value + (if up then 1 else -1) := by
    rw [kept T0 (by simp)]
    simp [TcgOp.eval, AluOp.eval, synced]
  refine ⟨value, operand, ?_, ?_⟩
  · rw [List.singleton_append, loaded]
    simp [run, TcgOp.eval]
  · rw [List.singleton_append, loaded]
    simp [run, TcgOp.eval, result]

theorem records_genInc (up : Bool) :
    RecordsAfter ((if up then incFlags else decFlags) (state.operand ot d) carry)
      (genInc ccOp ot d up).2 (run junk (genInc ccOp ot d up).1 none state) := by
  obtain ⟨value, operand, src, dst⟩ := run_genInc junk ccOp ot d state carryIn up
  rw [RecordsAfter, src, dst, ← operand]
  cases up with
  | true => exact records_inc ot value carry
  | false =>
    have minus : value - 1 = value + -1 := BitVec.sub_eq_add_neg value 1
    have recorded := records_dec ot value carry
    rw [minus] at recorded
    exact recorded

end

section

variable (op : ShiftOp)

/-- `T0` after the extension before a shift. -/
def ShiftOp.extended (ot : OperandSize) (value : TargetUlong) : TargetUlong :=
  match op with
  | shl => value
  | shr => (dataType ot value).setWidth 32
  | sar => (dataType ot value).signExtend 32

theorem eval_shift (junk' value : TargetUlong) {count : TargetUlong}
    (below : count.toNat < 32) :
    op.alu.eval junk' (op.extended ot value) count = op.apply ot value count.toNat := by
  cases op <;> simp [ShiftOp.alu, AluOp.eval, extended, apply, below]

theorem eval_add (junk' x y : TargetUlong) : AluOp.add.eval junk' x y = x + y := rfl

theorem eval_and (junk' x y : TargetUlong) : AluOp.and.eval junk' x y = x &&& y := rfl

theorem run_extend (rest : List TcgOp) :
    run junk (op.extend ot ++ rest) none state =
      run junk rest none (state.set T0 (op.extended ot (state.vars T0))) := by
  cases op with
  | shl =>
    rw [extended, CpuState.set, update_eq_self]
    rfl
  | shr | sar => exact run_cons junk rfl _ _

theorem shiftCount_word {count : TargetUlong} (positive : 0 < shiftCount count)
    (below : shiftCount count < ot.bits) :
    (count &&& 0x1f).toNat < 32 ∧ count &&& 0x1f ≠ 0 ∧
      ((count &&& 0x1f) - 1).toNat = (count &&& 0x1f).toNat - 1 := by
  refine ⟨lt_of_lt_of_le below (bits_le ot), fun zero => ?_, toNat_sub_of_le positive⟩
  rw [shiftCount, zero] at positive
  exact lt_irrefl 0 positive

theorem records_shiftIm (op2 : TargetUlong) (positive : 0 < shiftCount op2)
    (below : shiftCount op2 < ot.bits) :
    RecordsAfter (op.flags (state.operand ot d) (shiftCount op2)) (genShiftRmIm ccOp ot d op2 op).2
      (run junk (genShiftRmIm ccOp ot d op2 op).1 none state) := by
  obtain ⟨word, nonzero, previous⟩ := shiftCount_word ot positive below
  rw [genShiftRmIm]
  simp only [if_neg nonzero, List.append_assoc, List.cons_append, List.nil_append]
  obtain ⟨value, operand, loaded⟩ := run_genLoad junk ot d (op.extend ot ++
    (alui op.alu tmp4 T0 ((op2 &&& 0x1f) - 1) :: alui op.alu T0 T0 (op2 &&& 0x1f) ::
      (genStore ot d ++ [mov ccSrc tmp4, mov ccDst T0]))) state
  rw [run_extend, run_cons junk rfl, run_cons junk rfl] at loaded
  obtain ⟨stored, storing, kept⟩ := run_genStore junk ot d [mov ccSrc tmp4, mov ccDst T0] _
  rw [storing] at loaded
  have src : stored.vars tmp4 = op.apply ot value (shiftCount op2 - 1) := by
    rw [kept tmp4 (by simp)]
    simp only [TcgOp.eval, vars_set, reduceCtorEq, if_true, if_false]
    rw [eval_shift ot op _ value (by omega), previous]
    rfl
  have dst : stored.vars T0 = op.apply ot value (shiftCount op2) := by
    rw [kept T0 (by simp)]
    exact eval_shift ot op _ value word
  rw [loaded, RecordsAfter, ← operand]
  simpa [run, TcgOp.eval, src, dst] using records_shift ot op value positive below

/-- The branch of `gen_shift_rm_T1` over the update of the flags. -/
abbrev shiftUpdate (tag : TargetUlong) : List TcgOp :=
  [mov local0 T0, mov local1 T3, brcondiEq T1 0 0, mov ccSrc local1, mov ccDst local0,
    movi .ccOp tag, setLabel 0]

theorem run_shiftUpdate (tag : TargetUlong) (nonzero : state.vars T1 ≠ 0) :
    ∃ after, run junk (shiftUpdate tag) none state = after ∧
      after.vars .ccOp = tag ∧ after.vars ccSrc = state.vars T3 ∧
      after.vars ccDst = state.vars T0 := by
  have untaken : ¬state.vars T1 = 0#32 := nonzero
  refine ⟨_, rfl, ?_, ?_, ?_⟩ <;> simp [run, TcgOp.eval, survives, untaken]

theorem records_shiftT1 (positive : 0 < shiftCount (state.vars T1))
    (below : shiftCount (state.vars T1) < ot.bits) :
    RecordsAfter (op.flags (state.operand ot d) (shiftCount (state.vars T1)))
      (genShiftRmT1 ccOp ot d op).2 (run junk (genShiftRmT1 ccOp ot d op).1 none state) := by
  obtain ⟨word, nonzero, previous⟩ := shiftCount_word ot positive below
  have minus : (state.vars T1 &&& 0x1f) + -1 = (state.vars T1 &&& 0x1f) - 1 :=
    (BitVec.sub_eq_add_neg _ 1).symm
  simp only [genShiftRmT1, List.append_assoc, List.cons_append, List.nil_append]
  obtain ⟨value, operand, loaded⟩ := run_genLoad junk ot d (alui .and T1 T1 0x1f ::
    alui .add tmp5 T1 (-1) :: (op.extend ot ++ (alu op.alu T3 T0 tmp5 ::
      alu op.alu T0 T0 T1 :: (genStore ot d ++ (genSyncCcOp ccOp ++
        shiftUpdate (tagged op.family ot).code))))) state
  rw [run_cons junk rfl, run_cons junk rfl, run_extend, run_cons junk rfl, run_cons junk rfl] at loaded
  obtain ⟨stored, storing, kept⟩ := run_genStore junk ot d (genSyncCcOp ccOp ++
    shiftUpdate (tagged op.family ot).code) _
  rw [storing, run_genSyncCcOp] at loaded
  have count : stored.vars T1 = state.vars T1 &&& 0x1f := by
    rw [kept T1 (by simp)]
    simp only [TcgOp.eval, vars_set, reduceCtorEq, if_true, if_false, eval_and]
  have src : stored.vars T3 = op.apply ot value (shiftCount (state.vars T1) - 1) := by
    rw [kept T3 (by simp)]
    simp only [TcgOp.eval, vars_set, reduceCtorEq, if_true, if_false, eval_and, eval_add, minus]
    rw [eval_shift ot op _ value (by omega), previous]
    rfl
  have dst : stored.vars T0 = op.apply ot value (shiftCount (state.vars T1)) := by
    rw [kept T0 (by simp)]
    exact eval_shift ot op _ value word
  obtain ⟨after, finished, tag, ccSrc_eq, ccDst_eq⟩ := run_shiftUpdate junk
    (stored.synced ccOp) (tagged op.family ot).code (by
      simpa [synced, count] using nonzero)
  rw [loaded, finished, RecordsAfter, currentCcOp_dynamic, tag, ccSrc_eq, ccDst_eq, ← operand]
  simpa [synced, src, dst] using records_shift ot op value positive below

end

end Code

end Run

/-- After the code of an instruction has run, the helpers return the flags that the processor
defines, whatever was recorded before, as long as it denoted a carry flag; and what is recorded
then denotes a carry flag again. -/
theorem lazyFlags_eq_x86Flags (junk : Nat → TCGv → TargetUlong) (instr : Instr) (ccOp : CcOp)
    (state : CpuState) (carry : Bool)
    (carryIn : helperCcComputeC (currentCcOp ccOp state) (state.vars ccSrc) (state.vars ccDst) =
      ofBool carry)
    (counted : instr.CountInRange state) :
    RecordsAfter (instr.flags state carry) (instr.gen ccOp).2
      (run junk (instr.gen ccOp).1 none state) := by
  cases instr with
  | arith op ot d =>
    cases op with
    | addl =>
      refine records_update2 junk ot d state fun _ value operand => ?_
      rw [Instr.flags, ← operand]
      exact records_add ot value (state.vars T1)
    | subl =>
      refine records_update2 junk ot d state fun _ value operand => ?_
      rw [Instr.flags, ← operand]
      exact records_sub ot value (state.vars T1)
    | adcl => exact records_adcl junk ccOp ot d state carryIn
    | sbbl => exact records_sbbl junk ccOp ot d state carryIn
    | cmpl => exact records_cmpl junk ot d state
    | andl =>
      refine records_update1 junk ot d state fun _ value operand => ?_
      rw [← operand]
      exact setWidth_and
    | orl =>
      refine records_update1 junk ot d state fun _ value operand => ?_
      rw [← operand]
      exact setWidth_or
    | xorl =>
      refine records_update1 junk ot d state fun _ value operand => ?_
      rw [← operand]
      exact setWidth_xor
  | inc ot d => exact records_genInc junk ccOp ot d state carryIn true
  | dec ot d => exact records_genInc junk ccOp ot d state carryIn false
  | neg ot d => exact records_neg junk ot d state
  | shift op ot d => exact records_shiftT1 junk ccOp ot d state op counted.1 counted.2
  | shiftIm op ot d count =>
    exact records_shiftIm junk ccOp ot d state op count counted.1 counted.2

/-- A subtraction with borrow in a state whose flags are explicit and have the carry set. -/
theorem lazyFlags_eq_x86Flags_sbb :
    helperCcComputeC (currentCcOp .eflags ⟨fun _ => 1, fun _ => 0⟩) 1 1 = ofBool true ∧
      RecordsAfter (subFlags (1 : BitVec 8) 1 true) .dynamic
        (run (fun _ _ => 7) (genOp .eflags .sbbl .byte (.reg 0)).1 none ⟨fun _ => 1, fun _ => 0⟩) :=
  ⟨rfl, lazyFlags_eq_x86Flags (fun _ _ => 7) (.arith .sbbl .byte (.reg 0)) .eflags
    ⟨fun _ => 1, fun _ => 0⟩ true rfl trivial⟩

end Qemu.I386
