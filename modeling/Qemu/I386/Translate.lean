import Qemu.I386.Flags

/-!
# Emitted code for arithmetic instructions

This file embeds the functions of `target-i386/translate.c` that emit arithmetic, increments and
shifts, for the 32-bit target, and the meaning of the operations they emit.  Values that the code
generator leaves undefined are taken from an arbitrary source of junk.  The memory index of a load
or store selects an access path and is left out.
-/

namespace Qemu.I386

/-- The TCG variables used by these instructions. -/
inductive TCGv where
  | T0 | T1 | T3 | tmp0 | tmp2 | tmp4 | tmp5 | A0
  | local0 | local1
  | ccSrc | ccDst | ccOp
  | reg (r : Fin 8)
  deriving DecidableEq, Repr

/-- Globals and local temporaries keep their value at the end of a basic block. -/
def TCGv.survives : TCGv → Bool
  | T0 | T1 | T3 | tmp0 | tmp2 | tmp4 | tmp5 | A0 => false
  | _ => true

/-- Two-operand operations. -/
inductive AluOp where
  | add | sub | and | or | xor | shl | shr | sar
  deriving DecidableEq, Repr

/-- Comparisons of conditional branches. -/
inductive TCGCond where
  | eq | ne | lt | ge | le | gt | ltu | geu | leu | gtu
  deriving DecidableEq, Repr

def TCGCond.eval (x y : TargetUlong) : TCGCond → Bool
  | eq => x == y
  | ne => x != y
  | lt => x.slt y
  | ge => y.sle x
  | le => x.sle y
  | gt => y.slt x
  | ltu => x.ult y
  | geu => y.ule x
  | leu => x.ule y
  | gtu => y.ult x

/-- What the translator emits. -/
inductive TcgOp where
  | movi (ret : TCGv) (value : TargetUlong)
  | mov (ret arg : TCGv)
  | discard (arg : TCGv)
  | alu (op : AluOp) (ret arg1 arg2 : TCGv)
  | alui (op : AluOp) (ret arg1 : TCGv) (arg2 : TargetUlong)
  | neg (ret arg : TCGv)
  | extu (ot : OperandSize) (ret arg : TCGv)
  | exts (ot : OperandSize) (ret arg : TCGv)
  | deposit (ret arg1 arg2 : TCGv) (ofs len : Nat)
  | qemuLd (ot : OperandSize) (ret addr : TCGv)
  | qemuSt (ot : OperandSize) (arg addr : TCGv)
  | callCcComputeC (ret op : TCGv)
  | callCcComputeAll (ret op : TCGv)
  | brcondiEq (arg : TCGv) (value : TargetUlong) (label : Nat)
  | brcond (cond : TCGCond) (arg1 arg2 : TCGv) (label : Nat)
  | brcondi (cond : TCGCond) (arg1 : TCGv) (arg2 : TargetUlong) (label : Nat)
  | setLabel (label : Nat)

/-- Values of the variables and guest memory. -/
structure CpuState where
  vars : TCGv → TargetUlong
  memory : TargetUlong → BitVec 8

namespace CpuState

def set (state : CpuState) (ret : TCGv) (value : TargetUlong) : CpuState :=
  { state with vars := Function.update state.vars ret value }

/-- Zero-extended little-endian load. -/
def load (state : CpuState) (ot : OperandSize) (addr : TargetUlong) : TargetUlong :=
  match ot with
  | .byte => (state.memory addr).setWidth 32
  | .word => (state.memory (addr + 1) ++ state.memory addr).setWidth 32
  | .long => state.memory (addr + 3) ++ state.memory (addr + 2) ++ state.memory (addr + 1) ++
      state.memory addr

/-- Little-endian store. -/
def store (state : CpuState) (ot : OperandSize) (addr value : TargetUlong) : CpuState :=
  { state with
    memory := fun position =>
      if (position - addr).toNat < ot.bits / 8 then
        (value >>> (8 * (position - addr).toNat)).setWidth 8
      else state.memory position }

end CpuState

/-- A two-operand operation; a shift by the word size or more has no defined value. -/
def AluOp.eval (junk x y : TargetUlong) : AluOp → TargetUlong
  | add => x + y
  | sub => x - y
  | and => x &&& y
  | or => x ||| y
  | xor => x ^^^ y
  | shl => if y.toNat < 32 then x <<< y.toNat else junk
  | shr => if y.toNat < 32 then x >>> y.toNat else junk
  | sar => if y.toNat < 32 then x.sshiftRight y.toNat else junk

/-- Meaning of an operation that does not transfer control. -/
def TcgOp.eval (junk : TCGv → TargetUlong) (state : CpuState) : TcgOp → CpuState
  | movi ret value => state.set ret value
  | mov ret arg => state.set ret (state.vars arg)
  | discard arg => state.set arg (junk arg)
  | alu op ret arg1 arg2 => state.set ret (op.eval (junk ret) (state.vars arg1) (state.vars arg2))
  | alui op ret arg1 arg2 => state.set ret (op.eval (junk ret) (state.vars arg1) arg2)
  | neg ret arg => state.set ret (-state.vars arg)
  | extu ot ret arg => state.set ret ((dataType ot (state.vars arg)).setWidth 32)
  | exts ot ret arg => state.set ret ((dataType ot (state.vars arg)).signExtend 32)
  | deposit ret arg1 arg2 ofs len =>
    let mask := BitVec.ofNat 32 (2 ^ len - 1)
    state.set ret ((state.vars arg1 &&& ~~~(mask <<< ofs)) ||| ((state.vars arg2 &&& mask) <<< ofs))
  | qemuLd ot ret addr => state.set ret (state.load ot (state.vars addr))
  | qemuSt ot arg addr => state.store ot (state.vars addr) (state.vars arg)
  | callCcComputeC ret op => state.set ret
      (helperCcComputeC (state.vars op) (state.vars .ccSrc) (state.vars .ccDst))
  | callCcComputeAll ret op => state.set ret
      (helperCcComputeAll (state.vars op) (state.vars .ccSrc) (state.vars .ccDst))
  | brcondiEq _ _ _ | brcond _ _ _ _ | brcondi _ _ _ _ | setLabel _ => state

def endBlock (junk : TCGv → TargetUlong) (state : CpuState) : CpuState :=
  { state with vars := fun var => if var.survives then state.vars var else junk var }

/-- Run emitted code; with `some label` everything up to that label is skipped. -/
def run (junk : Nat → TCGv → TargetUlong) : List TcgOp → Option Nat → CpuState → CpuState
  | [], _, state => state
  | .setLabel label :: rest, skip, state =>
    if skip = none ∨ skip = some label then run junk rest none (endBlock (junk rest.length) state)
    else run junk rest skip state
  | .brcondiEq arg value label :: rest, none, state =>
    run junk rest (if state.vars arg = value then some label else none)
      (endBlock (junk rest.length) state)
  | .brcond cond arg1 arg2 label :: rest, none, state =>
    run junk rest (if cond.eval (state.vars arg1) (state.vars arg2) then some label else none)
      (endBlock (junk rest.length) state)
  | .brcondi cond arg1 arg2 label :: rest, none, state =>
    run junk rest (if cond.eval (state.vars arg1) arg2 then some label else none)
      (endBlock (junk rest.length) state)
  | op :: rest, none, state => run junk rest none (op.eval (junk rest.length) state)
  | _ :: rest, some label, state => run junk rest (some label) state

/-- The place of a destination operand: a register, or memory at `A0` for `OR_TMP0`. -/
inductive Dest where
  | reg (r : Fin 8)
  | mem
  deriving DecidableEq, Repr

open TCGv TcgOp

/-- The register that holds `AH`, `CH`, `DH` or `BH`. -/
def highByteOf (r : Fin 8) : Fin 8 := ⟨r.val - 4, by omega⟩

variable (ot : OperandSize)

def genOpMovVReg (t0 : TCGv) (r : Fin 8) : List TcgOp :=
  match ot with
  | .byte =>
    if r.val < 4 then [mov t0 (reg r)]
    else [alui .shr t0 (reg (highByteOf r)) 8, extu .byte t0 t0]
  | _ => [mov t0 (reg r)]

def genOpMovRegV (r : Fin 8) (t0 : TCGv) : List TcgOp :=
  match ot with
  | .byte =>
    if r.val < 4 then [deposit (reg r) (reg r) t0 0 8]
    else [deposit (reg (highByteOf r)) (reg (highByteOf r)) t0 8 8]
  | .word => [deposit (reg r) (reg r) t0 0 16]
  | .long => [extu .long (reg r) t0]

def genLoad : Dest → List TcgOp
  | .reg r => genOpMovVReg ot T0 r
  | .mem => [qemuLd ot T0 A0]

def genStore : Dest → List TcgOp
  | .reg r => genOpMovRegV ot r T0
  | .mem => [qemuSt ot T0 A0]

/-- `gen_op_set_cc_op`, unless the value is already in place. -/
def genSyncCcOp (ccOp : CcOp) : List TcgOp :=
  if ccOp = .dynamic then [] else [movi .ccOp ccOp.code]

def genComputeEflagsC (ret : TCGv) : List TcgOp := [callCcComputeC tmp2 .ccOp, mov ret tmp2]

def genOpUpdate1Cc : List TcgOp := [discard ccSrc, mov ccDst T0]

def genOpUpdate2Cc : List TcgOp := [mov ccSrc T1, mov ccDst T0]

def genOpCmplT0T1Cc : List TcgOp := [mov ccSrc T1, alu .sub ccDst T0 T1]

def genOpUpdateNegCc : List TcgOp := [neg ccSrc T0, mov ccDst T0]

/-- Arithmetic operations `OP_ADDL` to `OP_CMPL`. -/
inductive ArithOp where
  | addl | orl | adcl | sbbl | andl | subl | xorl | cmpl
  deriving DecidableEq, Repr

/-- The end of the `OP_ADCL` and `OP_SBBL` cases: the carry in selects the tag. -/
def genTagByCarry (family : CcFamily) (ot : OperandSize) : List TcgOp :=
  [mov ccSrc T1, mov ccDst T0, mov tmp2 tmp4, alui .shl tmp2 tmp2 2,
    alui .add ccOp tmp2 (CcOp.tagged family ot).code]

/-- `gen_op`; the result is the emitted code and the new `s->cc_op`. -/
def genOp (ccOp : CcOp) (op : ArithOp) (ot : OperandSize) (d : Dest) : List TcgOp × CcOp :=
  match op with
  | .adcl => (genLoad ot d ++ genSyncCcOp ccOp ++ genComputeEflagsC tmp4 ++
      [alu .add T0 T0 T1, alu .add T0 T0 tmp4] ++ genStore ot d ++ genTagByCarry .add ot, .dynamic)
  | .sbbl => (genLoad ot d ++ genSyncCcOp ccOp ++ genComputeEflagsC tmp4 ++
      [alu .sub T0 T0 T1, alu .sub T0 T0 tmp4] ++ genStore ot d ++ genTagByCarry .sub ot, .dynamic)
  | .addl => (genLoad ot d ++ [alu .add T0 T0 T1] ++ genStore ot d ++ genOpUpdate2Cc,
      .tagged .add ot)
  | .subl => (genLoad ot d ++ [alu .sub T0 T0 T1] ++ genStore ot d ++ genOpUpdate2Cc,
      .tagged .sub ot)
  | .andl => (genLoad ot d ++ [alu .and T0 T0 T1] ++ genStore ot d ++ genOpUpdate1Cc,
      .tagged .logic ot)
  | .orl => (genLoad ot d ++ [alu .or T0 T0 T1] ++ genStore ot d ++ genOpUpdate1Cc,
      .tagged .logic ot)
  | .xorl => (genLoad ot d ++ [alu .xor T0 T0 T1] ++ genStore ot d ++ genOpUpdate1Cc,
      .tagged .logic ot)
  | .cmpl => (genLoad ot d ++ genOpCmplT0T1Cc, .tagged .sub ot)

/-- `gen_inc`, for a positive `c` or not. -/
def genInc (ccOp : CcOp) (ot : OperandSize) (d : Dest) (up : Bool) : List TcgOp × CcOp :=
  (genLoad ot d ++ genSyncCcOp ccOp ++ [alui .add T0 T0 (if up then 1 else -1)] ++ genStore ot d ++
    genComputeEflagsC ccSrc ++ [mov ccDst T0], .tagged (if up then .inc else .dec) ot)

/-- The `neg` case of group 3. -/
def genNeg (d : Dest) : List TcgOp × CcOp :=
  (genLoad ot d ++ [neg T0 T0] ++ genStore ot d ++ genOpUpdateNegCc, .tagged .sub ot)

/-- The shifts, given to the source functions as `is_right` and `is_arith`. -/
inductive ShiftOp where
  | shl | shr | sar
  deriving DecidableEq, Repr

/-- Tag recorded by a shift. -/
def ShiftOp.family : ShiftOp → CcFamily
  | shl => .shl
  | shr | sar => .sar

/-- Extension of `T0` before a right shift. -/
def ShiftOp.extend : ShiftOp → List TcgOp
  | shl => []
  | shr => [extu ot T0 T0]
  | sar => [exts ot T0 T0]

def ShiftOp.alu : ShiftOp → AluOp
  | shl => .shl
  | shr => .shr
  | sar => .sar

def genShiftRmT1 (ccOp : CcOp) (ot : OperandSize) (d : Dest) (op : ShiftOp) : List TcgOp × CcOp :=
  (genLoad ot d ++ [alui .and T1 T1 0x1f, alui .add tmp5 T1 (-1)] ++ op.extend ot ++
    [.alu op.alu T3 T0 tmp5, .alu op.alu T0 T0 T1] ++ genStore ot d ++ genSyncCcOp ccOp ++
    [mov local0 T0, mov local1 T3, brcondiEq T1 0 0, mov ccSrc local1, mov ccDst local0,
      movi .ccOp (CcOp.tagged op.family ot).code, setLabel 0], .dynamic)

def genShiftRmIm (ccOp : CcOp) (ot : OperandSize) (d : Dest) (op2 : TargetUlong) (op : ShiftOp) :
    List TcgOp × CcOp :=
  let count := op2 &&& 0x1f
  if count = 0 then (genLoad ot d ++ genStore ot d, ccOp)
  else (genLoad ot d ++ op.extend ot ++
    [alui op.alu tmp4 T0 (count - 1), alui op.alu T0 T0 count] ++ genStore ot d ++
    [mov ccSrc tmp4, mov ccDst T0], .tagged op.family ot)

end Qemu.I386
