import Qemu.Lib.Carry

/-!
# Lazy condition codes

This file embeds the part of `target-i386/helper_template.h` and `op_helper.c` that rebuilds the
flags from `CC_OP`, `CC_SRC` and `CC_DST`, for the 32-bit target.  The template functions exist once
for each operand size and are parametrised by it here.
-/

namespace Qemu.I386

/-- `target_ulong`, and `target_long` with the signed reading of the same bits. -/
abbrev TargetUlong := BitVec 32

def ccC : TargetUlong := 0x0001
def ccP : TargetUlong := 0x0004
def ccA : TargetUlong := 0x0010
def ccZ : TargetUlong := 0x0040
def ccS : TargetUlong := 0x0080
def ccO : TargetUlong := 0x0800

/-- Operand sizes `OT_BYTE`, `OT_WORD` and `OT_LONG`. -/
inductive OperandSize where
  | byte
  | word
  | long
  deriving DecidableEq, Repr

namespace OperandSize

/-- Value of the size in its enumeration. -/
def index : OperandSize → Nat
  | byte => 0
  | word => 1
  | long => 2

def bits : OperandSize → Nat
  | byte => 8
  | word => 16
  | long => 32

end OperandSize

/-- Groups of four values of the `CC_OP` enumeration, one value for each operand size. -/
inductive CcFamily where
  | mul | add | adc | sub | sbb | logic | inc | dec | shl | sar
  deriving DecidableEq, Repr

/-- Position of a group in the enumeration. -/
def CcFamily.index : CcFamily → Nat
  | mul => 0 | add => 1 | adc => 2 | sub => 3 | sbb => 4
  | logic => 5 | inc => 6 | dec => 7 | shl => 8 | sar => 9

/-- Values of `CC_OP` that have a meaning on the 32-bit target. -/
inductive CcOp where
  | dynamic
  | eflags
  | tagged (family : CcFamily) (ot : OperandSize)
  deriving DecidableEq, Repr

/-- Numeric value of a `CC_OP`; a group also has a value for 64-bit operands. -/
def CcOp.code : CcOp → TargetUlong
  | dynamic => 0
  | eflags => 1
  | tagged family ot => BitVec.ofNat 32 (2 + 4 * family.index + ot.index)

/-- All values but `CC_OP_DYNAMIC` for which the helper functions have a case. -/
def CcOp.all : List CcOp :=
  .eflags :: [CcFamily.mul, .add, .adc, .sub, .sbb, .logic, .inc, .dec, .shl, .sar].flatMap
    fun family => [.tagged family .byte, .tagged family .word, .tagged family .long]

/-- The case of the helper functions selected by a number. -/
def CcOp.ofCode (code : TargetUlong) : Option CcOp := CcOp.all.find? fun op => op.code == code

def parityTable : List TargetUlong := [
  ccP, 0, 0, ccP, 0, ccP, ccP, 0,
  0, ccP, ccP, 0, ccP, 0, 0, ccP,
  0, ccP, ccP, 0, ccP, 0, 0, ccP,
  ccP, 0, 0, ccP, 0, ccP, ccP, 0,
  0, ccP, ccP, 0, ccP, 0, 0, ccP,
  ccP, 0, 0, ccP, 0, ccP, ccP, 0,
  ccP, 0, 0, ccP, 0, ccP, ccP, 0,
  0, ccP, ccP, 0, ccP, 0, 0, ccP,
  0, ccP, ccP, 0, ccP, 0, 0, ccP,
  ccP, 0, 0, ccP, 0, ccP, ccP, 0,
  ccP, 0, 0, ccP, 0, ccP, ccP, 0,
  0, ccP, ccP, 0, ccP, 0, 0, ccP,
  ccP, 0, 0, ccP, 0, ccP, ccP, 0,
  0, ccP, ccP, 0, ccP, 0, 0, ccP,
  0, ccP, ccP, 0, ccP, 0, 0, ccP,
  ccP, 0, 0, ccP, 0, ccP, ccP, 0,
  0, ccP, ccP, 0, ccP, 0, 0, ccP,
  ccP, 0, 0, ccP, 0, ccP, ccP, 0,
  ccP, 0, 0, ccP, 0, ccP, ccP, 0,
  0, ccP, ccP, 0, ccP, 0, 0, ccP,
  ccP, 0, 0, ccP, 0, ccP, ccP, 0,
  0, ccP, ccP, 0, ccP, 0, 0, ccP,
  0, ccP, ccP, 0, ccP, 0, 0, ccP,
  ccP, 0, 0, ccP, 0, ccP, ccP, 0,
  ccP, 0, 0, ccP, 0, ccP, ccP, 0,
  0, ccP, ccP, 0, ccP, 0, 0, ccP,
  0, ccP, ccP, 0, ccP, 0, 0, ccP,
  ccP, 0, 0, ccP, 0, ccP, ccP, 0,
  0, ccP, ccP, 0, ccP, 0, 0, ccP,
  ccP, 0, 0, ccP, 0, ccP, ccP, 0,
  ccP, 0, 0, ccP, 0, ccP, ccP, 0,
  0, ccP, ccP, 0, ccP, 0, 0, ccP]

/-- `lshift`: a negative count shifts right. -/
def lshift (x : TargetUlong) (n : Int) : TargetUlong :=
  if 0 ≤ n then x <<< n.toNat else x.sshiftRight (-n).toNat

/-- A truth value as an `int`. -/
def ofBool (value : Bool) : TargetUlong := if value then 1 else 0

section Template

variable (ot : OperandSize)

/-- `(DATA_TYPE)x`. -/
def dataType (x : TargetUlong) : BitVec ot.bits := x.setWidth ot.bits

def signMask : TargetUlong := (1 : TargetUlong) <<< (ot.bits - 1)

def dataMask : TargetUlong := BitVec.ofNat 32 (2 ^ ot.bits - 1)

def parityFlag (dst : TargetUlong) : TargetUlong := parityTable.getD (dst.setWidth 8).toNat 0

def zeroFlag (dst : TargetUlong) : TargetUlong := ofBool (dataType ot dst == 0) <<< 6

def signFlag (dst : TargetUlong) : TargetUlong := lshift dst (8 - ot.bits) &&& 0x80

/-- The auxiliary carry of two operands and their result. -/
def auxiliaryFlag (dst src1 src2 : TargetUlong) : TargetUlong := (dst ^^^ src1 ^^^ src2) &&& 0x10

variable (src dst : TargetUlong)

def computeAllAdd : TargetUlong :=
  let src1 := src
  let src2 := dst - src
  let cf := ofBool ((dataType ot dst).ult (dataType ot src1))
  let pf := parityFlag dst
  let af := auxiliaryFlag dst src1 src2
  let zf := zeroFlag ot dst
  let sf := signFlag ot dst
  let of := lshift ((src1 ^^^ src2 ^^^ -1) &&& (src1 ^^^ dst)) (12 - ot.bits) &&& ccO
  cf ||| pf ||| af ||| zf ||| sf ||| of

def computeCAdd : TargetUlong := ofBool ((dataType ot dst).ult (dataType ot src))

def computeAllAdc : TargetUlong :=
  let src1 := src
  let src2 := dst - src - 1
  let cf := ofBool ((dataType ot dst).ule (dataType ot src1))
  let pf := parityFlag dst
  let af := auxiliaryFlag dst src1 src2
  let zf := zeroFlag ot dst
  let sf := signFlag ot dst
  let of := lshift ((src1 ^^^ src2 ^^^ -1) &&& (src1 ^^^ dst)) (12 - ot.bits) &&& ccO
  cf ||| pf ||| af ||| zf ||| sf ||| of

def computeCAdc : TargetUlong := ofBool ((dataType ot dst).ule (dataType ot src))

def computeAllSub : TargetUlong :=
  let src1 := dst + src
  let src2 := src
  let cf := ofBool ((dataType ot src1).ult (dataType ot src2))
  let pf := parityFlag dst
  let af := auxiliaryFlag dst src1 src2
  let zf := zeroFlag ot dst
  let sf := signFlag ot dst
  let of := lshift ((src1 ^^^ src2) &&& (src1 ^^^ dst)) (12 - ot.bits) &&& ccO
  cf ||| pf ||| af ||| zf ||| sf ||| of

def computeCSub : TargetUlong := ofBool ((dataType ot (dst + src)).ult (dataType ot src))

def computeAllSbb : TargetUlong :=
  let src1 := dst + src + 1
  let src2 := src
  let cf := ofBool ((dataType ot src1).ule (dataType ot src2))
  let pf := parityFlag dst
  let af := auxiliaryFlag dst src1 src2
  let zf := zeroFlag ot dst
  let sf := signFlag ot dst
  let of := lshift ((src1 ^^^ src2) &&& (src1 ^^^ dst)) (12 - ot.bits) &&& ccO
  cf ||| pf ||| af ||| zf ||| sf ||| of

def computeCSbb : TargetUlong := ofBool ((dataType ot (dst + src + 1)).ule (dataType ot src))

def computeAllLogic (dst : TargetUlong) : TargetUlong :=
  let cf := 0
  let pf := parityFlag dst
  let af := 0
  let zf := zeroFlag ot dst
  let sf := signFlag ot dst
  let of := 0
  cf ||| pf ||| af ||| zf ||| sf ||| of

def computeCLogic : TargetUlong := 0

def computeAllInc : TargetUlong :=
  let src1 := dst - 1
  let src2 := 1
  let cf := src
  let pf := parityFlag dst
  let af := auxiliaryFlag dst src1 src2
  let zf := zeroFlag ot dst
  let sf := signFlag ot dst
  let of := ofBool (dst &&& dataMask ot == signMask ot) <<< 11
  cf ||| pf ||| af ||| zf ||| sf ||| of

/-- `compute_c_incl`, used for all sizes and for decrements too. -/
def computeCInc (src : TargetUlong) : TargetUlong := src

def computeAllDec : TargetUlong :=
  let src1 := dst + 1
  let src2 := 1
  let cf := src
  let pf := parityFlag dst
  let af := auxiliaryFlag dst src1 src2
  let zf := zeroFlag ot dst
  let sf := signFlag ot dst
  let of := ofBool (dst &&& dataMask ot == signMask ot - 1) <<< 11
  cf ||| pf ||| af ||| zf ||| sf ||| of

def computeAllShl : TargetUlong :=
  let cf := (src >>> (ot.bits - 1)) &&& ccC
  let pf := parityFlag dst
  let af := 0
  let zf := zeroFlag ot dst
  let sf := signFlag ot dst
  let of := lshift (src ^^^ dst) (12 - ot.bits) &&& ccO
  cf ||| pf ||| af ||| zf ||| sf ||| of

def computeCShl (src : TargetUlong) : TargetUlong := (src >>> (ot.bits - 1)) &&& ccC

/-- `compute_c_sarl`, used for all sizes. -/
def computeCSar (src : TargetUlong) : TargetUlong := src &&& 1

def computeAllSar : TargetUlong :=
  let cf := src &&& 1
  let pf := parityFlag dst
  let af := 0
  let zf := zeroFlag ot dst
  let sf := signFlag ot dst
  let of := lshift (src ^^^ dst) (12 - ot.bits) &&& ccO
  cf ||| pf ||| af ||| zf ||| sf ||| of

/-- `compute_c_mull`, used for all sizes. -/
def computeCMul (src : TargetUlong) : TargetUlong := ofBool (src != 0)

def computeAllMul : TargetUlong :=
  let cf := ofBool (src != 0)
  let pf := parityFlag dst
  let af := 0
  let zf := zeroFlag ot dst
  let sf := signFlag ot dst
  let of := cf <<< 11
  cf ||| pf ||| af ||| zf ||| sf ||| of

end Template

def helperCcComputeAll (op src dst : TargetUlong) : TargetUlong :=
  match CcOp.ofCode op with
  | none | some .dynamic => 0
  | some .eflags => src
  | some (.tagged .mul ot) => computeAllMul ot src dst
  | some (.tagged .add ot) => computeAllAdd ot src dst
  | some (.tagged .adc ot) => computeAllAdc ot src dst
  | some (.tagged .sub ot) => computeAllSub ot src dst
  | some (.tagged .sbb ot) => computeAllSbb ot src dst
  | some (.tagged .logic ot) => computeAllLogic ot dst
  | some (.tagged .inc ot) => computeAllInc ot src dst
  | some (.tagged .dec ot) => computeAllDec ot src dst
  | some (.tagged .shl ot) => computeAllShl ot src dst
  | some (.tagged .sar ot) => computeAllSar ot src dst

def helperCcComputeC (op src dst : TargetUlong) : TargetUlong :=
  match CcOp.ofCode op with
  | none | some .dynamic => 0
  | some .eflags => src &&& ccC
  | some (.tagged .mul _) => computeCMul src
  | some (.tagged .add ot) => computeCAdd ot src dst
  | some (.tagged .adc ot) => computeCAdc ot src dst
  | some (.tagged .sub ot) => computeCSub ot src dst
  | some (.tagged .sbb ot) => computeCSbb ot src dst
  | some (.tagged .logic _) => computeCLogic
  | some (.tagged .inc _) => computeCInc src
  | some (.tagged .dec _) => computeCInc src
  | some (.tagged .shl ot) => computeCShl ot src
  | some (.tagged .sar _) => computeCSar src

/-- The enumeration has distinct values, so every one selects its own case. -/
theorem CcOp.ofCode_code (family : CcFamily) (ot : OperandSize) :
    ofCode (tagged family ot).code = some (.tagged family ot) := by
  cases family <;> cases ot <;> decide

/-- The layout of the enumeration: a carry shifted to the place of four selects the operation with
carry. -/
theorem CcOp.code_add_carry (ot : OperandSize) (carry : Bool) :
    ofBool carry <<< 2 + (tagged .add ot).code =
        (tagged (if carry then .adc else .add) ot).code ∧
      ofBool carry <<< 2 + (tagged .sub ot).code =
        (tagged (if carry then .sbb else .sub) ot).code := by
  cases ot <;> cases carry <;> decide

end Qemu.I386
