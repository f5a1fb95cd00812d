import Qemu.I386.LazyFlags

/-!
# Conditional jumps

`gen_jcc1` compares the recorded words directly where the tag allows it and rebuilds the flags
otherwise.  Both ways take the branch exactly when the condition holds of the flags word.
-/

namespace Qemu.I386

open TCGv TcgOp BitVec CcOp

variable {taken : Bool} {code : List TcgOp} {cond : TCGCond} {ccOp : CcOp}

/-! ## Emitted code -/

/-- Conditions `JCC_O` to `JCC_LE`. -/
inductive JccOp where
  | o | b | z | be | s | p | l | le
  deriving DecidableEq, Repr

/-- `(b >> 1) & 7` for a jump opcode `b`. -/
def jccOp (b : Nat) : JccOp :=
  match (b >>> 1) % 8 with
  | 0 => .o
  | 1 => .b
  | 2 => .z
  | 3 => .be
  | 4 => .s
  | 5 => .p
  | 6 => .l
  | _ => .le

/-- `b & 1`: the jump is taken if the condition does not hold. -/
def jccInv (b : Nat) : Bool := b % 2 == 1

def genComputeEflags (ret : TCGv) : List TcgOp := [callCcComputeAll tmp2 .ccOp, mov ret tmp2]

def genFlagT0 (bit : TargetUlong) : List TcgOp :=
  genComputeEflags T0 ++ [alui .shr T0 T0 bit, alui .and T0 T0 1]

/-- `gen_setcc_slow_T0` after the store of `CC_OP`. -/
def genSetccT0 : JccOp → List TcgOp
  | .o => genFlagT0 11
  | .b => genComputeEflagsC T0
  | .z => genFlagT0 6
  | .be => genComputeEflags tmp0 ++
      [alui .shr T0 tmp0 6, alu .or T0 T0 tmp0, alui .and T0 T0 1]
  | .s => genFlagT0 7
  | .p => genFlagT0 2
  | .l => genComputeEflags tmp0 ++
      [alui .shr T0 tmp0 11, alui .shr tmp0 tmp0 7, alu .xor T0 T0 tmp0, alui .and T0 T0 1]
  | .le => genComputeEflags tmp0 ++
      [alui .shr T0 tmp0 11, alui .shr tmp4 tmp0 7, alui .shr tmp0 tmp0 6, alu .xor T0 T0 tmp4,
        alu .or T0 T0 tmp0, alui .and T0 T0 1]

/-- `gen_setcc_slow_T0`, with `s->cc_op`. -/
def genSetccSlowT0 (ccOp : CcOp) (jcc : JccOp) : List TcgOp := genSyncCcOp ccOp ++ genSetccT0 jcc

/-- `is_fast_jcc_case`, with `s->cc_op`. -/
def isFastJccCase (ccOp : CcOp) (b : Nat) : Bool :=
  match ccOp with
  | .tagged .sub _ => jccOp b != .o && jccOp b != .p
  | .tagged .add _ | .tagged .logic _ | .tagged .inc _ | .tagged .dec _ | .tagged .shl _ =>
    jccOp b == .z || jccOp b == .s
  | _ => false

def genJccSlow (ccOp : CcOp) (b label : Nat) : List TcgOp :=
  genSetccSlowT0 ccOp (jccOp b) ++ [brcondi (if jccInv b then .eq else .ne) T0 0 label]

section

variable (ot : OperandSize)

/-- The code at `fast_jcc_z`. -/
def genJccZ (inv : Bool) (label : Nat) : List TcgOp :=
  match ot with
  | .byte => [alui .and tmp0 ccDst 0xff, brcondi (if inv then .ne else .eq) tmp0 0 label]
  | .word => [alui .and tmp0 ccDst 0xffff, brcondi (if inv then .ne else .eq) tmp0 0 label]
  | .long => [brcondi (if inv then .ne else .eq) ccDst 0 label]

/-- The code at `fast_jcc_s`. -/
def genJccS (inv : Bool) (label : Nat) : List TcgOp :=
  match ot with
  | .byte => [alui .and tmp0 ccDst 0x80, brcondi (if inv then .eq else .ne) tmp0 0 label]
  | .word => [alui .and tmp0 ccDst 0x8000, brcondi (if inv then .eq else .ne) tmp0 0 label]
  | .long => [brcondi (if inv then .ge else .lt) ccDst 0 label]

/-- The code at `fast_jcc_b`: the first operand of the comparison is rebuilt. -/
def genJccB (cond : TCGCond) (label : Nat) : List TcgOp :=
  alu .add tmp4 ccDst ccSrc ::
    match ot with
    | .byte => [alui .and tmp4 tmp4 0xff, alui .and tmp0 ccSrc 0xff, brcond cond tmp4 tmp0 label]
    | .word => [alui .and tmp4 tmp4 0xffff, alui .and tmp0 ccSrc 0xffff,
        brcond cond tmp4 tmp0 label]
    | .long => [brcond cond tmp4 ccSrc label]

/-- The code at `fast_jcc_l`. -/
def genJccL (cond : TCGCond) (label : Nat) : List TcgOp :=
  alu .add tmp4 ccDst ccSrc ::
    match ot with
    | .byte => [exts .byte tmp4 tmp4, exts .byte tmp0 ccSrc, brcond cond tmp4 tmp0 label]
    | .word => [exts .word tmp4 tmp4, exts .word tmp0 ccSrc, brcond cond tmp4 tmp0 label]
    | .long => [brcond cond tmp4 ccSrc label]

end

/-- `gen_jcc1`, with `s->cc_op`, the tag to branch on, the jump opcode and the label. -/
def genJcc1 (sCcOp ccOp : CcOp) (b label : Nat) : List TcgOp :=
  let inv := jccInv b
  match ccOp with
  | .tagged .sub ot =>
    match jccOp b with
    | .z => genJccZ ot inv label
    | .s => genJccS ot inv label
    | .b => genJccB ot (if inv then .geu else .ltu) label
    | .be => genJccB ot (if inv then .gtu else .leu) label
    | .l => genJccL ot (if inv then .ge else .lt) label
    | .le => genJccL ot (if inv then .gt else .le) label
    | _ => genJccSlow sCcOp b label
  | .tagged .add ot | .tagged .adc ot | .tagged .sbb ot | .tagged .logic ot | .tagged .inc ot
  | .tagged .dec ot | .tagged .shl ot | .tagged .sar ot =>
    match jccOp b with
    | .z => genJccZ ot inv label
    | .s => genJccS ot inv label
    | _ => genJccSlow sCcOp b label
  | _ => genJccSlow sCcOp b label

/-! ## Conditions on the flags -/

/-- A condition on the bits of a flags word. -/
def JccOp.holds (flags : TargetUlong) : JccOp → Bool
  | .o => flags.getLsbD Flag.of.bit
  | .b => flags.getLsbD Flag.cf.bit
  | .z => flags.getLsbD Flag.zf.bit
  | .be => flags.getLsbD Flag.cf.bit || flags.getLsbD Flag.zf.bit
  | .s => flags.getLsbD Flag.sf.bit
  | .p => flags.getLsbD Flag.pf.bit
  | .l => flags.getLsbD Flag.sf.bit ^^ flags.getLsbD Flag.of.bit
  | .le => flags.getLsbD Flag.zf.bit || (flags.getLsbD Flag.sf.bit ^^ flags.getLsbD Flag.of.bit)

/-- The condition of a jump opcode; odd opcodes negate it. -/
def jccHolds (b : Nat) (flags : TargetUlong) : Bool := (jccOp b).holds flags ^^ jccInv b

/-- The variable that an operation writes. -/
def TcgOp.ret : TcgOp → Option TCGv
  | movi ret _ | mov ret _ | discard ret | alu _ ret _ _ | alui _ ret _ _ | neg ret _
  | extu _ ret _ | exts _ ret _ | deposit ret _ _ _ _ | qemuLd _ ret _ | callCcComputeC ret _
  | callCcComputeAll ret _ => some ret
  | qemuSt _ _ _ | brcondiEq _ _ _ | brcond _ _ _ _ | brcondi _ _ _ _ | setLabel _ => none

section

variable (junk : Nat → TCGv → TargetUlong) (rest : List TcgOp) (state : CpuState) (label : Nat)

/-- The code branches to the label exactly when `taken`, and changes no variable that lives on but
`CC_OP`. -/
def Branches (code : List TcgOp) (taken : Bool) : Prop :=
  ∃ after, run junk (code ++ rest) none state =
      run junk rest (if taken then some label else none) after ∧
    ∀ var, var.survives = true → var ≠ .ccOp → after.vars var = state.vars var

variable {junk rest state label}

/-- The operation writes a temporary and goes on. -/
def TcgOp.writesTemp (op : TcgOp) : Bool := !op.isControl && op.ret.any fun ret => !ret.survives

/-- The state after straight code that is followed by `tail` operations. -/
def evalCode (junk : Nat → TCGv → TargetUlong) (tail : Nat) : List TcgOp → CpuState → CpuState
  | [], state => state
  | op :: code, state => evalCode junk tail code (op.eval (junk (code.length + tail)) state)

theorem eval_kept {op : TcgOp} (temp : op.writesTemp = true) (junk' : TCGv → TargetUlong)
    (state : CpuState) {var : TCGv} (survives : var.survives = true) :
    (op.eval junk' state).vars var = state.vars var := by
  have ne : ∀ ret, op.ret = some ret → var ≠ ret := by
    rintro ret writes rfl
    simp [writesTemp, writes, survives] at temp
  cases op <;> simp [ret] at ne <;> simp [eval, ne]

/-- Straight code over temporaries runs through and changes no variable that lives on. -/
theorem run_straight (junk : Nat → TCGv → TargetUlong) (temps : code.all writesTemp = true)
    (tail : List TcgOp) (state : CpuState) :
    run junk (code ++ tail) none state =
        run junk tail none (evalCode junk tail.length code state) ∧
      ∀ var, var.survives = true →
        (evalCode junk tail.length code state).vars var = state.vars var := by
  induction code generalizing state with
  | nil => exact ⟨rfl, fun _ _ => rfl⟩
  | cons op code ih =>
    obtain ⟨first, others⟩ := Bool.and_eq_true_iff.mp temps
    have straight : op.isControl = false := by
      simpa using (Bool.and_eq_true_iff.mp first).1
    obtain ⟨ran, kept⟩ := ih others (op.eval (junk (code.length + tail.length)) state)
    constructor
    · rw [List.cons_append, run_cons junk straight, List.length_append, ran]
      rfl
    · intro var survives
      exact (kept var survives).trans (eval_kept first _ state survives)

theorem branches_of_straight (temps : code.all writesTemp = true) {branch : TcgOp}
    (branches : run junk (branch :: rest) none (evalCode junk (rest.length + 1) code state) =
      run junk rest (if taken then some label else none)
        (endBlock (junk rest.length) (evalCode junk (rest.length + 1) code state))) :
    Branches junk rest state label (code ++ [branch]) taken := by
  obtain ⟨ran, kept⟩ := run_straight junk temps (branch :: rest) state
  refine ⟨endBlock (junk rest.length) (evalCode junk (rest.length + 1) code state), ?_,
    fun var survives _ => ?_⟩
  · rw [List.append_assoc, List.singleton_append, ran, List.length_cons, branches]
  · rw [vars_endBlock, if_pos survives]
    exact kept var survives

theorem branches_brcondi (code : List TcgOp) (temps : code.all writesTemp = true) {arg : TCGv}
    {value : TargetUlong}
    (decides : cond.eval ((evalCode junk (rest.length + 1) code state).vars arg) value = taken) :
    Branches junk rest state label (code ++ [brcondi cond arg value label]) taken :=
  branches_of_straight temps (by rw [← decides]; rfl)

theorem branches_brcond (code : List TcgOp) (temps : code.all writesTemp = true) {arg1 arg2 : TCGv}
    (decides : cond.eval ((evalCode junk (rest.length + 1) code state).vars arg1)
      ((evalCode junk (rest.length + 1) code state).vars arg2) = taken) :
    Branches junk rest state label (code ++ [brcond cond arg1 arg2 label]) taken :=
  branches_of_straight temps (by rw [← decides]; rfl)

/-! ## Fast cases -/

section

variable (ot : OperandSize)

include ot

theorem and_dataMask_eq_zero (x : TargetUlong) :
    (x &&& dataMask ot == 0) = (dataType ot x == 0) := by
  rw [and_dataMask_beq, Bool.eq_iff_iff, decide_eq_true_iff, beq_iff_eq, ← toNat_inj]
  simp

theorem branches_genJccZ (inv : Bool) :
    Branches junk rest state label (genJccZ ot inv label)
      ((dataType ot (state.vars ccDst) == 0) ^^ inv) := by
  have decides : ∀ x, (x == 0) = (dataType ot (state.vars ccDst) == 0) →
      TCGCond.eval x 0 (if inv then .ne else .eq) =
        ((dataType ot (state.vars ccDst) == 0) ^^ inv) := by
    intro x same
    rw [← same]
    cases inv <;> simp [TCGCond.eval, bne]
  cases ot with
  | byte => exact branches_brcondi [_] rfl (decides _ (and_dataMask_eq_zero .byte _))
  | word => exact branches_brcondi [_] rfl (decides _ (and_dataMask_eq_zero .word _))
  | long => exact branches_brcondi [] rfl (decides _ rfl)

theorem and_signMask_eq_zero (x : TargetUlong) :
    (x &&& signMask ot != 0) = (dataType ot x).msb := by
  have inside : ot.bits - 1 < 32 := by cases ot <;> decide
  rw [signMask, and_bit x inside, msb_dataType]
  cases x.getLsbD (ot.bits - 1) with
  | true | false => cases ot <;> rfl

theorem branches_genJccS (inv : Bool) :
    Branches junk rest state label (genJccS ot inv label)
      ((dataType ot (state.vars ccDst)).msb ^^ inv) := by
  have decides : ∀ x, (x != 0) = (dataType ot (state.vars ccDst)).msb →
      TCGCond.eval x 0 (if inv then .eq else .ne) =
        ((dataType ot (state.vars ccDst)).msb ^^ inv) := by
    intro x same
    rw [← same]
    cases inv <;> simp [TCGCond.eval, bne]
  cases ot with
  | byte => exact branches_brcondi [_] rfl (decides _ (and_signMask_eq_zero .byte _))
  | word => exact branches_brcondi [_] rfl (decides _ (and_signMask_eq_zero .word _))
  | long =>
    have sign : BitVec.slt (state.vars ccDst) 0 = (dataType .long (state.vars ccDst)).msb := by
      exact slt_zero_eq_msb
    refine branches_brcondi [] rfl ?_
    cases inv with
    | false => exact sign.trans (Bool.xor_false _).symm
    | true =>
      rw [← sign, Bool.xor_true]
      exact sle_eq_not_slt

theorem branches_genJccB
    (decides : ∀ x y,
      x.toNat = (dataType ot (state.vars ccDst + state.vars ccSrc)).toNat →
      y.toNat = (dataType ot (state.vars ccSrc)).toNat → cond.eval x y = taken) :
    Branches junk rest state label (genJccB ot cond label) taken := by
  cases ot with
  | byte =>
    exact branches_brcond [_, _, _] rfl
      (decides _ _ (toNat_and_dataMask .byte _) (toNat_and_dataMask .byte _))
  | word =>
    exact branches_brcond [_, _, _] rfl
      (decides _ _ (toNat_and_dataMask .word _) (toNat_and_dataMask .word _))
  | long => exact branches_brcond [_] rfl (decides _ _ rfl rfl)

theorem toInt_signExtend_dataType (x : TargetUlong) :
    ((dataType ot x).signExtend 32).toInt = (dataType ot x).toInt :=
  toInt_signExtend_of_le (bits_le ot)

theorem branches_genJccL
    (decides : ∀ x y,
      x.toInt = (dataType ot (state.vars ccDst + state.vars ccSrc)).toInt →
      y.toInt = (dataType ot (state.vars ccSrc)).toInt → cond.eval x y = taken) :
    Branches junk rest state label (genJccL ot cond label) taken := by
  cases ot with
  | byte =>
    exact branches_brcond [_, _, _] rfl
      (decides _ _ (toInt_signExtend_dataType .byte _) (toInt_signExtend_dataType .byte _))
  | word =>
    exact branches_brcond [_, _, _] rfl
      (decides _ _ (toInt_signExtend_dataType .word _) (toInt_signExtend_dataType .word _))
  | long => exact branches_brcond [_] rfl (decides _ _ rfl rfl)

end

/-! ## Slow case -/

theorem and_one (x : TargetUlong) : x &&& 1 = ofBool (x.getLsbD 0) := and_ccC x

theorem getLsbD_shiftRight_zero (x : TargetUlong) (n : Nat) :
    (x >>> n).getLsbD 0 = x.getLsbD n := by
  rw [getLsbD_ushiftRight, add_zero]

theorem evalCode_genSetccT0 (tail : Nat) (jcc : JccOp) {flags : TargetUlong}
    (all : flags = helperCcComputeAll (state.vars .ccOp) (state.vars ccSrc) (state.vars ccDst))
    (carry : helperCcComputeC (state.vars .ccOp) (state.vars ccSrc) (state.vars ccDst) =
      flags &&& ccC) :
    (evalCode junk tail (genSetccT0 jcc) state).vars T0 = ofBool (jcc.holds flags) := by
  subst all
  have flag : ∀ n, n.toNat < 32 →
      (evalCode junk tail (genFlagT0 n) state).vars T0 = ofBool ((helperCcComputeAll
        (state.vars .ccOp) (state.vars ccSrc) (state.vars ccDst)).getLsbD n.toNat) := by
    intro n below
    simp only [genFlagT0, genComputeEflags, List.cons_append, List.nil_append, evalCode, eval,
      AluOp.eval, below, if_true]
    exact (and_one _).trans (congrArg ofBool (getLsbD_shiftRight_zero _ _))
  cases jcc with
  | o => exact flag 11 (by decide)
  | z => exact flag 6 (by decide)
  | s => exact flag 7 (by decide)
  | p => exact flag 2 (by decide)
  | b => exact carry.trans (and_one _)
  | be =>
    refine (and_one _).trans (congrArg ofBool ?_)
    rw [JccOp.holds, Bool.or_comm]
    exact getLsbD_or.trans (congrArg (· || _) (getLsbD_shiftRight_zero _ 6))
  | l =>
    refine (and_one _).trans (congrArg ofBool ?_)
    rw [JccOp.holds, Bool.xor_comm]
    exact getLsbD_xor.trans
      (congrArg₂ _ (getLsbD_shiftRight_zero _ 11) (getLsbD_shiftRight_zero _ 7))
  | le =>
    refine (and_one _).trans (congrArg ofBool ?_)
    rw [JccOp.holds, Bool.or_comm, Bool.xor_comm]
    refine getLsbD_or.trans (congrArg₂ _ ?_ (getLsbD_shiftRight_zero _ 6))
    exact getLsbD_xor.trans
      (congrArg₂ _ (getLsbD_shiftRight_zero _ 11) (getLsbD_shiftRight_zero _ 7))

theorem branches_genJccSlow (sCcOp : CcOp) (b : Nat) {flags : TargetUlong}
    (all : flags =
      helperCcComputeAll (currentCcOp sCcOp state) (state.vars ccSrc) (state.vars ccDst))
    (carry : helperCcComputeC (currentCcOp sCcOp state) (state.vars ccSrc) (state.vars ccDst) =
      flags &&& ccC) :
    Branches junk rest state label (genJccSlow sCcOp b label) (jccHolds b flags) := by
  have temps : (genSetccT0 (jccOp b)).all writesTemp = true := by
    cases jccOp b <;> rfl
  have computed : (evalCode junk (rest.length + 1) (genSetccT0 (jccOp b))
      (state.synced sCcOp)).vars T0 = _ := evalCode_genSetccT0 (rest.length + 1) (jccOp b) all carry
  have decides : ∀ holds, TCGCond.eval (ofBool holds) 0 (if jccInv b then .eq else .ne) =
      (holds ^^ jccInv b) := by
    intro holds
    cases holds <;> cases jccInv b <;> rfl
  obtain ⟨after, ran, kept⟩ : Branches junk rest (state.synced sCcOp) label
      (genSetccT0 (jccOp b) ++ [brcondi (if jccInv b then .eq else .ne) T0 0 label])
      (jccHolds b flags) :=
    branches_brcondi _ temps (by rw [computed, decides]; rfl)
  refine ⟨after, ?_, fun var survives ne => ?_⟩
  · rw [genJccSlow, genSetccSlowT0, List.append_assoc, List.append_assoc, run_genSyncCcOp,
      ← List.append_assoc, ran]
  · rw [kept var survives ne, CpuState.synced, vars_set, if_neg ne]

/-! ## All tags -/

/-- Zero and sign flag of a tagged result are read off the result alone. -/
theorem helperCcComputeAll_result (family : CcFamily) (ot : OperandSize) (src dst : TargetUlong)
    (bit : family = .inc ∨ family = .dec → ∃ carry, src = ofBool carry) :
    ∃ cf af of, helperCcComputeAll (tagged family ot).code src dst =
      resultWord ot dst cf af of := by
  rw [helperCcComputeAll, ofCode_code]
  cases family with
  | inc =>
    obtain ⟨carry, rfl⟩ := bit (.inl rfl)
    exact ⟨_, _, _, computeAllInc_eq ot dst carry⟩
  | dec =>
    obtain ⟨carry, rfl⟩ := bit (.inr rfl)
    exact ⟨_, _, _, computeAllDec_eq ot dst carry⟩
  | mul => exact ⟨_, _, _, computeAllMul_eq ot src dst⟩
  | add => exact ⟨_, _, _, computeAllAdd_eq ot src dst⟩
  | adc => exact ⟨_, _, _, computeAllAdc_eq ot src dst⟩
  | sub => exact ⟨_, _, _, computeAllSub_eq ot src dst⟩
  | sbb => exact ⟨_, _, _, computeAllSbb_eq ot src dst⟩
  | logic => exact ⟨_, _, _, computeAllLogic_eq ot dst⟩
  | shl => exact ⟨_, _, _, computeAllShl_eq ot src dst⟩
  | sar => exact ⟨_, _, _, computeAllSar_eq ot src dst⟩

theorem sub_holds (ot : OperandSize) (src dst : TargetUlong) :
    let flags := helperCcComputeAll (tagged .sub ot).code src dst
    let first := dataType ot (dst + src)
    let second := dataType ot src
    JccOp.holds flags .b = first.ult second ∧ JccOp.holds flags .be = first.ule second ∧
      JccOp.holds flags .l = first.slt second ∧ JccOp.holds flags .le = first.sle second := by
  intro flags first second
  have word : flags = resultWord ot dst (first.ult second) (nibbleCarry ot dst (dst + src) src)
      (differenceOverflow ot (dst + src) src dst) := by
    rw [← computeAllSub_eq]
    simp only [flags, helperCcComputeAll, ofCode_code]
  have bits : ∀ flag, flags.getLsbD flag.bit = pickFlag (first.ult second)
      (evenParity (dst.setWidth 8)) (nibbleCarry ot dst (dst + src) src) (dataType ot dst == 0)
      (dataType ot dst).msb (differenceOverflow ot (dst + src) src dst) flag := by
    intro flag
    rw [word, resultWord, getLsbD_flagWord]
  have sum := dataType_sum ot dst src false
  have plain : dst + src + ofBool false = dst + src := BitVec.add_zero _
  rw [plain] at sum
  have less : ((dataType ot dst).msb ^^ differenceOverflow ot (dst + src) src dst) =
      first.slt second :=
    Carry.sign_xor_overflow sum (lt_of_lt_of_le (by omega) (le_bits ot))
  have equal : (dataType ot dst == 0) = (first == second) := by
    rw [Bool.eq_iff_iff, beq_iff_eq, beq_iff_eq]
    exact (Carry.eq_iff_zero sum).symm
  simp only [JccOp.holds, bits, pickFlag, less, equal, true_and]
  constructor
  · rw [Bool.eq_iff_iff, Bool.or_eq_true, beq_iff_eq, ← toNat_inj]
    simp only [ult_eq_decide_lt, ule_eq_decide_le, decide_eq_true_iff]
    exact Nat.le_iff_lt_or_eq.symm
  · rw [Bool.eq_iff_iff, Bool.or_eq_true, beq_iff_eq, ← toInt_inj]
    simp only [slt_eq_decide, sle_eq_decide, decide_eq_true_iff]
    exact (Int.le_iff_lt_or_eq.trans or_comm).symm

section

variable {ot : OperandSize} {first second : BitVec ot.bits} {x y : TargetUlong}

theorem eval_unsigned (inv : Bool) (left : x.toNat = first.toNat) (right : y.toNat = second.toNat) :
    TCGCond.eval x y (if inv then .geu else .ltu) = (first.ult second ^^ inv) ∧
      TCGCond.eval x y (if inv then .gtu else .leu) = (first.ule second ^^ inv) := by
  cases inv <;>
    simp [TCGCond.eval, BitVec.ult, BitVec.ule, left, right, ← Nat.not_lt, -not_lt]

theorem eval_signed (inv : Bool) (left : x.toInt = first.toInt) (right : y.toInt = second.toInt) :
    TCGCond.eval x y (if inv then .ge else .lt) = (first.slt second ^^ inv) ∧
      TCGCond.eval x y (if inv then .gt else .le) = (first.sle second ^^ inv) := by
  cases inv <;>
    simp [TCGCond.eval, BitVec.slt, BitVec.sle, left, right, ← Int.not_lt, -not_lt]

end

section

variable {sCcOp : CcOp} {family : CcFamily} {ot : OperandSize} {b : Nat}
  (current : currentCcOp sCcOp state = (tagged family ot).code)
  (bit : family = .inc ∨ family = .dec → ∃ carry, state.vars ccSrc = ofBool carry)

include current bit

theorem branches_slow_tagged :
    Branches junk rest state label (genJccSlow sCcOp b label) (jccHolds b
      (helperCcComputeAll (tagged family ot).code (state.vars ccSrc) (state.vars ccDst))) := by
  refine branches_genJccSlow sCcOp b (by rw [current]) ?_
  rw [current]
  exact helperCcComputeC_tagged bit

theorem branches_result
    (fast : genJcc1 sCcOp (.tagged family ot) b label =
      match jccOp b with
      | .z => genJccZ ot (jccInv b) label
      | .s => genJccS ot (jccInv b) label
      | _ => genJccSlow sCcOp b label) :
    Branches junk rest state label (genJcc1 sCcOp (.tagged family ot) b label) (jccHolds b
      (helperCcComputeAll (tagged family ot).code (state.vars ccSrc) (state.vars ccDst))) := by
  have slow : Branches junk rest state label (genJccSlow sCcOp b label) _ :=
    branches_slow_tagged current bit
  obtain ⟨cf, af, of, word⟩ := helperCcComputeAll_result family ot (state.vars ccSrc)
    (state.vars ccDst) bit
  -- zero and sign conditions of a result need no other flag
  have zero : JccOp.holds (resultWord ot (state.vars ccDst) cf af of) .z = _ :=
    getLsbD_flagWord _ _ _ _ _ _ .zf
  have sign : JccOp.holds (resultWord ot (state.vars ccDst) cf af of) .s = _ :=
    getLsbD_flagWord _ _ _ _ _ _ .sf
  rw [fast]
  cases jcc : jccOp b with
  | z =>
    simp only [jccHolds, jcc, word, zero]
    exact branches_genJccZ ot (jccInv b)
  | s =>
    simp only [jccHolds, jcc, word, sign]
    exact branches_genJccS ot (jccInv b)
  | _ => exact slow

end

theorem branches_sub {sCcOp : CcOp} {ot : OperandSize} {b : Nat}
    (current : currentCcOp sCcOp state = (tagged .sub ot).code) :
    Branches junk rest state label (genJcc1 sCcOp (.tagged .sub ot) b label)
      (jccHolds b (helperCcComputeAll (tagged .sub ot).code (state.vars ccSrc)
        (state.vars ccDst))) := by
  obtain ⟨below, belowEq, less, lessEq⟩ := sub_holds ot (state.vars ccSrc) (state.vars ccDst)
  cases jcc : jccOp b with
  | o | p | z | s => exact branches_result current (by simp) (by simp only [genJcc1, jcc])
  | b =>
    simp only [genJcc1, jcc, jccHolds, below]
    exact branches_genJccB ot fun x y left right => (eval_unsigned _ left right).1
  | be =>
    simp only [genJcc1, jcc, jccHolds, belowEq]
    exact branches_genJccB ot fun x y left right => (eval_unsigned _ left right).2
  | l =>
    simp only [genJcc1, jcc, jccHolds, less]
    exact branches_genJccL ot fun x y left right => (eval_signed _ left right).1
  | le =>
    simp only [genJcc1, jcc, jccHolds, lessEq]
    exact branches_genJccL ot fun x y left right => (eval_signed _ left right).2

theorem branches_genJcc1 {sCcOp : CcOp} {b : Nat} (known : ccOp ≠ .dynamic)
    (current : currentCcOp sCcOp state = ccOp.code)
    (bit : ∀ ot, ccOp = .tagged .inc ot ∨ ccOp = .tagged .dec ot →
      ∃ carry, state.vars ccSrc = ofBool carry) :
    Branches junk rest state label (genJcc1 sCcOp ccOp b label)
      (jccHolds b (helperCcComputeAll ccOp.code (state.vars ccSrc) (state.vars ccDst))) := by
  cases ccOp with
  | dynamic => exact absurd rfl known
  | eflags =>
    refine branches_genJccSlow sCcOp b (by rw [current]) ?_
    rw [current]
    rfl
  | tagged family ot =>
    have carry : family = .inc ∨ family = .dec → ∃ carry, state.vars ccSrc = ofBool carry := by
      rintro (rfl | rfl)
      · exact bit ot (.inl rfl)
      · exact bit ot (.inr rfl)
    cases family with
    | sub => exact branches_sub current
    | mul => exact branches_slow_tagged current carry
    | _ => exact branches_result current carry rfl

end

/-! ## The fast cases leave `T0` alone -/

theorem ret_genJcc1 {b : Nat} (fast : isFastJccCase ccOp b = true) (sCcOp : CcOp) (label : Nat) :
    ∀ op ∈ genJcc1 sCcOp ccOp b label, op.ret ≠ some T0 := by
  have plain : ∀ ot, (∀ op ∈ genJccZ ot (jccInv b) label, op.ret ≠ some T0) ∧
      (∀ op ∈ genJccS ot (jccInv b) label, op.ret ≠ some T0) ∧
      (∀ cond, ∀ op ∈ genJccB ot cond label, op.ret ≠ some T0) ∧
      ∀ cond, ∀ op ∈ genJccL ot cond label, op.ret ≠ some T0 := by
    intro ot
    cases ot <;> simp [genJccZ, genJccS, genJccB, genJccL, ret]
  cases ccOp with
  | dynamic | eflags => cases fast
  | tagged family ot =>
    obtain ⟨zero, sign, below, less⟩ := plain ot
    cases jcc : jccOp b <;> cases family <;>
      simp only [isFastJccCase, jcc] at fast <;>
      first
      | exact absurd fast (by decide)
      | simpa only [genJcc1, jcc] using zero
      | simpa only [genJcc1, jcc] using sign
      | simpa only [genJcc1, jcc] using below _
      | simpa only [genJcc1, jcc] using less _

theorem CcOp.ofCode_of_known (known : ccOp ≠ .dynamic) : ofCode ccOp.code = some ccOp := by
  cases ccOp with
  | dynamic => exact absurd rfl known
  | eflags => decide
  | tagged family ot => exact ofCode_code family ot

/-- The branch is taken exactly when the condition holds of the flags that the helper computes, for
increments and decrements that recorded a carry; and the fast cases do not write `T0`. -/
theorem jcc_agrees_with_flags (junk : Nat → TCGv → TargetUlong) (state : CpuState)
    (sCcOp ccOp : CcOp) (b label : Nat) (known : ccOp ≠ .dynamic)
    (current : currentCcOp sCcOp state = ccOp.code)
    (bit : ∀ ot, ccOp = .tagged .inc ot ∨ ccOp = .tagged .dec ot →
      state.vars ccSrc = 0 ∨ state.vars ccSrc = 1) :
    (∀ rest, Branches junk rest state label (genJcc1 sCcOp ccOp b label)
      (jccHolds b (helperCcComputeAll ccOp.code (state.vars ccSrc) (state.vars ccDst)))) ∧
    (isFastJccCase sCcOp b = true → ∀ op ∈ genJcc1 sCcOp ccOp b label, op.ret ≠ some T0) := by
  constructor
  · intro rest
    refine branches_genJcc1 known current fun ot tag => ?_
    rcases bit ot tag with zero | one
    · exact ⟨false, zero⟩
    · exact ⟨true, one⟩
  · intro fast
    have static : sCcOp ≠ .dynamic := by
      rintro rfl
      cases fast
    have same : sCcOp.code = ccOp.code := by rwa [currentCcOp, if_neg static] at current
    have equal : some sCcOp = some ccOp := by
      rw [← ofCode_of_known static, ← ofCode_of_known known, same]
    obtain rfl := Option.some.inj equal
    exact ret_genJcc1 fast sCcOp label

/-- All variables zero but the recorded words. -/
def recordedState (src dst : TargetUlong) : CpuState :=
  ⟨fun var => if var = ccSrc then src else if var = ccDst then dst else 0, fun _ => 0⟩

theorem jcc_agrees_with_flags_cmp :
    (run (fun _ _ => 0) (genJcc1 (.tagged .sub .byte) (.tagged .sub .byte) 12 7 ++
      [movi local0 1, setLabel 7]) none (recordedState 0x101 0x37f)).vars local0 = 0 := by
  obtain ⟨after, ran, kept⟩ := (jcc_agrees_with_flags (fun _ _ => 0) (recordedState 0x101 0x37f)
    (.tagged .sub .byte) (.tagged .sub .byte) 12 7 (by decide) rfl (by simp)).1
    [movi local0 1, setLabel 7]
  have less : jccHolds 12 (helperCcComputeAll (tagged .sub .byte).code
      ((recordedState 0x101 0x37f).vars ccSrc) ((recordedState 0x101 0x37f).vars ccDst)) = true := by
    decide
  rw [ran, less]
  exact kept local0 rfl (by decide)

/-- An increment whose recorded carry is not a single bit: a jump on carry is taken although the
carry flag is clear, and a jump on zero is not taken although the zero flag is set. -/
theorem jcc_departs_from_flags :
    ((run (fun _ _ => 0) (genJcc1 (.tagged .inc .byte) (.tagged .inc .byte) 2 7 ++
        [movi local0 1, setLabel 7]) none (recordedState 2 1)).vars local0 = 0 ∧
      jccHolds 2 (helperCcComputeAll (CcOp.tagged .inc .byte).code 2 1) = false) ∧
    ((run (fun _ _ => 0) (genJcc1 (.tagged .inc .byte) (.tagged .inc .byte) 4 7 ++
        [movi local0 1, setLabel 7]) none (recordedState 0x40 1)).vars local0 = 1 ∧
      jccHolds 4 (helperCcComputeAll (CcOp.tagged .inc .byte).code 0x40 1) = true) := by
  decide

end Qemu.I386
