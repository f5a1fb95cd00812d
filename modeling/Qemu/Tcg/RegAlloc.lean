import Qemu.Lib.Prog
import Qemu.Tcg.Liveness

/-!
# Register allocator

The allocator of `tcg/tcg.c` that turns annotated ops into host code.  It keeps one location for
every variable and one variable for every register, and appends host instructions as it moves
values between registers and memory.  Memory is addressed by a base register and an offset, as the
emitters do; a host word has 32 bits and there is one value type.
-/

namespace Qemu.Tcg

open Prog Function List

abbrev Reg := Nat

abbrev TCGRegSet := Reg → Bool

/-- Base register and offset of a word in memory. -/
abbrev Slot := Reg × Nat

/-- `TCGArgConstraint`.  An output tagged `TCG_CT_ALIAS` names the input it is tied to and an
input tagged `TCG_CT_IALIAS` its output.  `constMatch` is `tcg_target_const_match` for this
constraint. -/
structure TCGArgConstraint where
  regs : TCGRegSet
  aliasInput : Option Nat
  aliasOutput : Option Nat
  constMatch : TCGArg → Bool

/-- Constraints of one op: `sorted_args` is split into its outputs and its inputs. -/
structure OpConstraints where
  argsCt : Nat → TCGArgConstraint
  sortedOuts : List Nat
  sortedIns : List Nat

/-- The host description and the parts of `TCGContext` that do not change while code is
generated. -/
structure Target where
  nbRegs : Nat
  regAllocOrder : List Reg
  availableRegs : TCGRegSet
  callClobberRegs : TCGRegSet
  reservedRegs : TCGRegSet
  callIargRegs : List Reg
  callOargRegs : List Reg
  callStackReg : Reg
  callStackOffset : Nat
  stackAlign : Nat
  frameReg : Reg
  frameStart : Nat
  frameEnd : Nat
  constraints : TCGOpcode → OpConstraints
  callConstraint : TCGArgConstraint

/-- `sizeof(tcg_target_long)`. -/
def targetLongSize : Nat := 4

def staticCallArgsSize : Nat := 128

inductive ValType where
  | dead
  | reg
  | mem
  | const
  deriving DecidableEq, Repr

structure TCGTemp where
  valType : ValType
  reg : Reg
  val : TCGArg
  memReg : Reg
  memOffset : Nat
  fixedReg : Bool
  memCoherent : Bool
  memAllocated : Bool

def TCGTemp.slot (ts : TCGTemp) : Slot := (ts.memReg, ts.memOffset)

/-- Where the host finds an input of an op. -/
inductive Operand where
  | reg (reg : Reg)
  | const (value : TCGArg)
  | slot (slot : Slot)
  deriving DecidableEq, Repr

inductive HostInstr where
  | mov (dst src : Reg)
  | movi (dst : Reg) (value : TCGArg)
  | ld (dst : Reg) (slot : Slot)
  | st (src : Reg) (slot : Slot)
  | op (action : Action) (outs : List Reg) (ins : List (Option Operand))
  | label (label : TCGArg)
  deriving DecidableEq, Repr

structure TCGContext where
  temps : TCGArg → TCGTemp
  regToTemp : Reg → Option TCGArg
  currentFrameOffset : Nat
  code : List HostInstr

abbrev GenProg := Prog TCGContext Empty

namespace TCGContext

section

variable (s : TCGContext)

def emit (instr : HostInstr) : TCGContext := { s with code := s.code ++ [instr] }

def clearCode : TCGContext := { s with code := [] }

def setTemp (temp : TCGArg) (ts : TCGTemp) : TCGContext :=
  { s with temps := update s.temps temp ts }

def setReg (reg : Reg) (temp : Option TCGArg) : TCGContext :=
  { s with regToTemp := update s.regToTemp reg temp }

def setValType (temp : TCGArg) (valType : ValType) : TCGContext :=
  s.setTemp temp { s.temps temp with valType }

/-- `if (ts->val_type == TEMP_VAL_REG) s->reg_to_temp[ts->reg] = -1`. -/
def releaseReg (temp : TCGArg) : TCGContext :=
  if (s.temps temp).valType = .reg then s.setReg (s.temps temp).reg none else s

/-- The variable is dead from here on. -/
def markDead (temp : TCGArg) : TCGContext := (s.releaseReg temp).setValType temp .dead

/-- The variable is in the register. -/
def record (temp : TCGArg) (reg : Reg) (memCoherent : Bool) : TCGContext :=
  (s.setTemp temp { s.temps temp with valType := .reg, reg, memCoherent }).setReg reg (some temp)

/-- Next word boundary of the frame. -/
def frameSlot (offset : Nat) : Nat :=
  (offset + (targetLongSize - 1)) / targetLongSize * targetLongSize

/-- Give the variable the next word of the frame. -/
def placeInFrame (frameReg : Reg) (temp : TCGArg) : TCGContext :=
  { s.setTemp temp { s.temps temp with
      memReg := frameReg, memOffset := frameSlot s.currentFrameOffset, memAllocated := true } with
    currentFrameOffset := frameSlot s.currentFrameOffset + targetLongSize }

end

end TCGContext

open TCGContext

def tcgOut (instr : HostInstr) : GenProg Unit := modify (·.emit instr)

variable (target : Target) (config : TCGTemps)

/-! ## Locations -/

def tempAllocateFrame (temp : TCGArg) : GenProg Unit := do
  let s ← get
  if target.frameEnd < frameSlot s.currentFrameOffset + targetLongSize then
    abort
  else
    modify (·.placeInFrame target.frameReg temp)

def tempEnsureFrame (temp : TCGArg) : GenProg Unit := do
  let s ← get
  if (s.temps temp).memAllocated then pure () else tempAllocateFrame target temp

/-- Store the variable's register unless memory already has the value. -/
def tempSync (temp : TCGArg) (reg : Reg) : GenProg Unit := do
  let s ← get
  if (s.temps temp).memCoherent then
    pure ()
  else do
    tempEnsureFrame target temp
    let s ← get
    tcgOut (.st reg (s.temps temp).slot)

def tcgRegFree (reg : Reg) : GenProg Unit := do
  let s ← get
  match s.regToTemp reg with
  | none => pure ()
  | some temp =>
    if (s.temps temp).valType = .reg then do
      tempSync target temp reg
      modify fun s => (s.setValType temp .mem).setReg reg none
    else
      abort

/-- Allocate a register belonging to `reg1 & ~reg2`. -/
def tcgRegAlloc (reg1 reg2 : TCGRegSet) : GenProg Reg := do
  let s ← get
  match target.regAllocOrder.find?
      (fun reg => reg1 reg && !reg2 reg && (s.regToTemp reg).isNone) with
  | some reg => pure reg
  | none =>
    match target.regAllocOrder.find? (fun reg => reg1 reg && !reg2 reg) with
    | some reg => do
        tcgRegFree target reg
        pure reg
    | none => abort

def tempSaveConst (temp : TCGArg) (allocatedRegs : TCGRegSet) : GenProg Unit := do
  let reg ← tcgRegAlloc target target.availableRegs allocatedRegs
  tempEnsureFrame target temp
  let s ← get
  tcgOut (.movi reg (s.temps temp).val)
  tcgOut (.st reg (s.temps temp).slot)
  modify (·.setValType temp .mem)

def tempSave (temp : TCGArg) (allocatedRegs : TCGRegSet) : GenProg Unit := do
  let s ← get
  if (s.temps temp).fixedReg then
    pure ()
  else
    match (s.temps temp).valType with
    | .reg => tcgRegFree target (s.temps temp).reg
    | .dead => modify (·.setValType temp .mem)
    | .const => tempSaveConst target temp allocatedRegs
    | .mem => pure ()

def tempSaveAll (allocatedRegs : TCGRegSet) : List TCGArg → GenProg Unit
  | [] => pure ()
  | temp :: rest => do
      tempSave target temp allocatedRegs
      tempSaveAll allocatedRegs rest

variable (allocatedRegs : TCGRegSet)

def saveGlobals : GenProg Unit := tempSaveAll target allocatedRegs (range config.nbGlobals)

def endTemp (temp : TCGArg) : GenProg Unit :=
  if config.tempLocal temp then
    tempSave target temp allocatedRegs
  else
    modify (·.markDead temp)

/-- The loop of `tcg_reg_alloc_bb_end` over the variables that are not globals. -/
def endTemps (allocatedRegs : TCGRegSet) : List TCGArg → GenProg Unit
  | [] => pure ()
  | temp :: rest => do
      endTemp target config allocatedRegs temp
      endTemps allocatedRegs rest

def tcgRegAllocBbEnd : GenProg Unit := do
  endTemps target config allocatedRegs
    (range' config.nbGlobals (config.nbTemps - config.nbGlobals))
  saveGlobals target config allocatedRegs

/-! ## Moves -/

variable (out : TCGArg)

def tcgRegAllocMovi (val : TCGArg) : GenProg Unit := do
  let s ← get
  if (s.temps out).fixedReg then
    tcgOut (.movi (s.temps out).reg val)
  else
    modify fun s =>
      let s := s.releaseReg out
      s.setTemp out { s.temps out with valType := .const, val }

/-- The register that a move writes. -/
def movReg : GenProg Reg := do
  let s ← get
  if (s.temps out).valType = .reg then
    pure (s.temps out).reg
  else
    tcgRegAlloc target ((target.constraints .movI32).argsCt 0).regs target.reservedRegs

/-- Move between registers unless they are the same. -/
def tcgOutMovNe (dst src : Reg) : GenProg Unit :=
  if src = dst then pure () else tcgOut (.mov dst src)

/-- A move from a register that is not given up. -/
def movFromReg (out arg : TCGArg) : GenProg Unit := do
  let reg ← movReg target out
  let s ← get
  tcgOutMovNe reg (s.temps arg).reg
  modify (·.record out reg false)

def movFromMem (out arg : TCGArg) : GenProg Unit := do
  let reg ← movReg target out
  let s ← get
  tcgOut (.ld reg (s.temps arg).slot)
  modify (·.record out reg false)

/-- The move is suppressed: the output takes over the register of the dead input. -/
def movTakeOver (out arg : TCGArg) : GenProg Unit :=
  modify fun s =>
    let reg := (s.temps arg).reg
    ((s.releaseReg out).markDead arg).record out reg false

def movConst (val : TCGArg) : GenProg Unit := do
  let s ← get
  if (s.temps out).fixedReg then do
    tcgOut (.movi (s.temps out).reg val)
    modify (·.record out (s.temps out).reg false)
  else
    modify fun s =>
      let s := s.releaseReg out
      s.setTemp out { s.temps out with valType := .const, val }

def tcgRegAllocMov (out arg : TCGArg) (deadArgs : DeadArgs) : GenProg Unit := do
  let s ← get
  match (s.temps arg).valType with
  | .reg =>
    if isDeadArg deadArgs 1 && !(s.temps arg).fixedReg && !(s.temps out).fixedReg then
      movTakeOver out arg
    else
      movFromReg target out arg
  | .mem => movFromMem target out arg
  | .const => movConst out (s.temps arg).val
  | .dead => abort

/-! ## Ordinary ops -/

variable (arg : TCGArg)

/-- Bring an input into a register. -/
def loadInput (regs allocatedRegs : TCGRegSet) : GenProg Unit := do
  let s ← get
  match (s.temps arg).valType with
  | .mem => do
      let reg ← tcgRegAlloc target regs allocatedRegs
      let s ← get
      tcgOut (.ld reg (s.temps arg).slot)
      modify (·.record arg reg true)
  | .const => do
      let reg ← tcgRegAlloc target regs allocatedRegs
      let s ← get
      tcgOut (.movi reg (s.temps arg).val)
      modify (·.record arg reg false)
  | .reg => pure ()
  | .dead => abort

/-- The register of an input may be handed to the op as it is. -/
def inputStays (ts : TCGTemp) (ct : TCGArgConstraint) (isDead isOutput : Bool) : Bool :=
  (ct.aliasOutput.isNone || (if ts.fixedReg then isOutput else isDead)) && ct.regs ts.reg

def placeInput (ct : TCGArgConstraint) (isDead isOutput : Bool) (allocatedRegs : TCGRegSet) : GenProg Reg := do
  let s ← get
  if inputStays (s.temps arg) ct isDead isOutput then
    pure (s.temps arg).reg
  else do
    let reg ← tcgRegAlloc target ct.regs allocatedRegs
    let s ← get
    tcgOut (.mov reg (s.temps arg).reg)
    pure reg

def allocInput (ct : TCGArgConstraint) (isDead isOutput : Bool) (allocatedRegs : TCGRegSet) : GenProg Operand := do
  let s ← get
  if (s.temps arg).valType = .const ∧ ct.constMatch (s.temps arg).val = true then
    pure (.const (s.temps arg).val)
  else do
    loadInput target arg ct.regs allocatedRegs
    let reg ← placeInput target arg ct isDead isOutput allocatedRegs
    pure (.reg reg)

/-- `tcg_regset_set_reg` for the register of an operand. -/
def addOperand (regs : TCGRegSet) : Operand → TCGRegSet
  | .reg reg => update regs reg true
  | _ => regs

/-- The arguments of an op while registers are chosen for them: `new_args` and `const_args`. -/
abbrev NewArgs := Nat → Operand

def allocInputs (args : Nat → TCGArg) (constraints : OpConstraints) (deadArgs : DeadArgs) :
    List Nat → TCGRegSet → NewArgs → GenProg (TCGRegSet × NewArgs)
  | [], allocatedRegs, newArgs => pure (allocatedRegs, newArgs)
  | i :: rest, allocatedRegs, newArgs => do
      let ct := constraints.argsCt i
      let isOutput := match ct.aliasOutput with
        | some out => decide (args i = args out)
        | none => false
      let operand ← allocInput target (args i) ct (isDeadArg deadArgs i) isOutput allocatedRegs
      allocInputs args constraints deadArgs rest (addOperand allocatedRegs operand)
        (update newArgs i operand)

/-- Give up the registers of dead inputs. -/
def freeDeadInputs (deadArgs : DeadArgs) : Nat → List (Option TCGArg) → GenProg Unit
  | _, [] => pure ()
  | i, none :: rest => freeDeadInputs deadArgs (i + 1) rest
  | i, some arg :: rest => do
      modify fun s =>
        if isDeadArg deadArgs i && !(s.temps arg).fixedReg then s.markDead arg else s
      freeDeadInputs deadArgs (i + 1) rest

def clobberReg (reg : Reg) : GenProg Unit :=
  if target.callClobberRegs reg then tcgRegFree target reg else pure ()

def clobberRegs : List Reg → GenProg Unit
  | [] => pure ()
  | reg :: rest => do
      clobberReg target reg
      clobberRegs rest

def operandReg : Operand → Reg
  | .reg reg => reg
  | .const value => value
  | .slot slot => slot.1

def recordOutput (reg : Reg) (isDead : Bool) (s : TCGContext) : TCGContext :=
  if (s.temps out).fixedReg then s
  else if isDead then s.markDead out
  else (s.releaseReg out).record out reg false

/-- Choose the register of one output; the flag says that it has to be set in `allocated_regs`. -/
def outputReg (ct : TCGArgConstraint) (newArgs : NewArgs) (allocatedRegs : TCGRegSet) : GenProg (Reg × Bool) := do
  let s ← get
  match ct.aliasInput with
  | some input => pure (operandReg (newArgs input), true)
  | none =>
    if (s.temps out).fixedReg = true ∧ ct.regs (s.temps out).reg = true then
      pure ((s.temps out).reg, false)
    else do
      let reg ← tcgRegAlloc target ct.regs allocatedRegs
      pure (reg, true)

def allocOutputs (args : Nat → TCGArg) (constraints : OpConstraints) (deadArgs : DeadArgs) :
    List Nat → TCGRegSet → NewArgs → GenProg NewArgs
  | [], _, newArgs => pure newArgs
  | i :: rest, allocatedRegs, newArgs => do
      let (reg, chosen) ← outputReg target (args i) (constraints.argsCt i) newArgs allocatedRegs
      modify fun s =>
        if chosen then recordOutput (args i) reg (isDeadArg deadArgs i) s else s
      allocOutputs args constraints deadArgs rest
        (if chosen then update allocatedRegs reg true else allocatedRegs)
        (update newArgs i (.reg reg))

def moveFixedOutput (reg : Reg) : GenProg Unit := do
  let s ← get
  if (s.temps out).fixedReg then tcgOutMovNe (s.temps out).reg reg else pure ()

def moveFixedOutputs : List (TCGArg × Reg) → GenProg Unit
  | [] => pure ()
  | (out, reg) :: rest => do
      moveFixedOutput out reg
      moveFixedOutputs rest

/-- An op that may call a helper clobbers registers and may touch any global. -/
def clobberOp (opDef : TCGOpDef) (allocatedRegs : TCGRegSet) : GenProg Unit :=
  if opDef.callClobber then do
    clobberRegs target (range target.nbRegs)
    saveGlobals target config allocatedRegs
  else
    pure ()

/-- The part of `tcg_reg_alloc_op` between the inputs and the instruction. -/
def allocOpOutputs (opc : TCGOpcode) (outs ins : List TCGArg) (deadArgs : DeadArgs)
    (allocatedRegs : TCGRegSet) (newArgs : NewArgs) : GenProg NewArgs :=
  if (tcgOpDefs opc).bbEnd then do
    tcgRegAllocBbEnd target config allocatedRegs
    pure newArgs
  else do
    freeDeadInputs deadArgs outs.length (ins.map some)
    clobberOp target config (tcgOpDefs opc) allocatedRegs
    allocOutputs target (fun i => (outs ++ ins).getD i 0) (target.constraints opc) deadArgs
      (target.constraints opc).sortedOuts target.reservedRegs newArgs

def tcgRegAllocOp (opc : TCGOpcode) (outs ins cargs : List TCGArg) (deadArgs : DeadArgs) :
    GenProg Unit := do
  let (allocatedRegs, inArgs) ← allocInputs target (fun i => (outs ++ ins).getD i 0)
    (target.constraints opc) deadArgs (target.constraints opc).sortedIns target.reservedRegs
    (fun _ => .const 0)
  let newArgs ← allocOpOutputs target config opc outs ins deadArgs allocatedRegs inArgs
  let outRegs := (range outs.length).map fun i => operandReg (newArgs i)
  tcgOut (.op (.op opc cargs) outRegs
    ((range' outs.length ins.length).map fun i => some (newArgs i)))
  moveFixedOutputs (outs.zip outRegs)

/-! ## Calls -/

def storeCallArg (slot : Slot) : GenProg Unit := do
  let s ← get
  match (s.temps arg).valType with
  | .reg => tcgOut (.st (s.temps arg).reg slot)
  | .mem => do
      let reg ← tcgRegAlloc target target.availableRegs target.reservedRegs
      let s ← get
      tcgOut (.ld reg (s.temps arg).slot)
      tcgOut (.st reg slot)
  | .const => do
      let reg ← tcgRegAlloc target target.availableRegs target.reservedRegs
      tcgOut (.movi reg (s.temps arg).val)
      tcgOut (.st reg slot)
  | .dead => abort

/-- Arguments beyond the argument registers go to consecutive stack words. -/
def storeCallArgs : List (Option TCGArg) → Nat → GenProg Unit
  | [], _ => pure ()
  | none :: rest, offset => storeCallArgs rest (offset + targetLongSize)
  | some arg :: rest, offset => do
      storeCallArg target arg (target.callStackReg, offset)
      storeCallArgs rest (offset + targetLongSize)

def loadCallArg (reg : Reg) : GenProg Unit := do
  tcgRegFree target reg
  let s ← get
  match (s.temps arg).valType with
  | .reg => tcgOutMovNe reg (s.temps arg).reg
  | .mem => tcgOut (.ld reg (s.temps arg).slot)
  | .const => tcgOut (.movi reg (s.temps arg).val)
  | .dead => abort

/-- Load the arguments passed in registers and collect those registers. -/
def loadCallArgs : List (Option TCGArg × Reg) → TCGRegSet → GenProg TCGRegSet
  | [], allocatedRegs => pure allocatedRegs
  | (none, _) :: rest, allocatedRegs => loadCallArgs rest allocatedRegs
  | (some arg, reg) :: rest, allocatedRegs => do
      loadCallArg target arg reg
      loadCallArgs rest (update allocatedRegs reg true)

def loadFuncAddr (func : TCGArg) (allocatedRegs : TCGRegSet) : GenProg Operand := do
  let s ← get
  match (s.temps func).valType with
  | .mem => do
      let reg ← tcgRegAlloc target target.callConstraint.regs allocatedRegs
      let s ← get
      tcgOut (.ld reg (s.temps func).slot)
      pure (.reg reg)
  | .reg =>
    if target.callConstraint.regs (s.temps func).reg then
      pure (.reg (s.temps func).reg)
    else do
      let reg ← tcgRegAlloc target target.callConstraint.regs allocatedRegs
      tcgOut (.mov reg (s.temps func).reg)
      pure (.reg reg)
  | .const =>
    if target.callConstraint.constMatch (s.temps func).val then
      pure (.const (s.temps func).val)
    else do
      let reg ← tcgRegAlloc target target.callConstraint.regs allocatedRegs
      tcgOut (.movi reg (s.temps func).val)
      pure (.reg reg)
  | .dead => abort

def assignCallOutput (reg : Reg) (isDead : Bool) : GenProg Unit := do
  let s ← get
  if (s.regToTemp reg).isSome then
    abort
  else if (s.temps out).fixedReg then
    tcgOutMovNe (s.temps out).reg reg
  else
    modify (recordOutput out reg isDead)

def assignCallOutputs (deadArgs : DeadArgs) : Nat → List (TCGArg × Reg) → GenProg Unit
  | _, [] => pure ()
  | i, (out, reg) :: rest => do
      assignCallOutput out reg (isDeadArg deadArgs i)
      assignCallOutputs deadArgs (i + 1) rest

/-- Bytes of call stack needed for the arguments that are not passed in registers. -/
def callStackSize (nbParams nbRegs : Nat) : Nat :=
  ((nbParams - nbRegs) * targetLongSize + (target.stackAlign - 1)) / target.stackAlign *
    target.stackAlign

/-- Where the called function finds the argument with this index. -/
def callOperand (i : Nat) : Operand :=
  match target.callIargRegs[i]? with
  | some reg => .reg reg
  | none => .slot (target.callStackReg,
      target.callStackOffset + (i - target.callIargRegs.length) * targetLongSize)

def callOperands (params : List (Option TCGArg)) : List (Option Operand) :=
  (range params.length).map fun i => (params.getD i none).map fun _ => callOperand target i

def placeCallInputs (params : List (Option TCGArg)) (func : TCGArg) :
    GenProg (TCGRegSet × Operand) := do
  let nbRegs := min target.callIargRegs.length params.length
  storeCallArgs target (params.drop nbRegs) target.callStackOffset
  let allocatedRegs ← loadCallArgs target ((params.take nbRegs).zip target.callIargRegs)
    target.reservedRegs
  let operand ← loadFuncAddr target func allocatedRegs
  pure (addOperand allocatedRegs operand, operand)

/-- Globals are saved unless the function does not use them. -/
def saveCallGlobals (flags : CallFlags) (allocatedRegs : TCGRegSet) : GenProg Unit :=
  if flags.isConst then pure () else saveGlobals target config allocatedRegs

def tcgRegAllocCall (outs : List TCGArg) (params : List (Option TCGArg)) (func : TCGArg)
    (flags : CallFlags) (deadArgs : DeadArgs) : GenProg Unit := do
  let nbRegs := min target.callIargRegs.length params.length
  if staticCallArgsSize < callStackSize target params.length nbRegs then
    abort
  else do
    let (allocatedRegs, operand) ← placeCallInputs target params func
    freeDeadInputs deadArgs outs.length (params ++ [some func])
    clobberRegs target (range target.nbRegs)
    saveCallGlobals target config flags allocatedRegs
    tcgOut (.op (.call flags) (target.callOargRegs.take outs.length)
      (callOperands target params ++ [some operand]))
    assignCallOutputs deadArgs 0 (outs.zip target.callOargRegs)

/-! ## The code generator -/

def tcgRegAllocStart (s : TCGContext) : TCGContext :=
  { s with
    temps := fun temp =>
      let ts := s.temps temp
      if temp < config.nbGlobals then
        { ts with valType := if ts.fixedReg then .reg else .mem }
      else
        { ts with valType := .dead, memAllocated := false, fixedReg := false }
    regToTemp := fun _ => none
    currentFrameOffset := target.frameStart
    code := [] }

/-- One round of the loop of `tcg_gen_code_common`. -/
def genOp : Op → DeadArgs → GenProg Unit
  | .generic opc outs ins cargs, deadArgs =>
    match opc, outs, ins, cargs with
    | .movI32, [out], [arg], _ => tcgRegAllocMov target out arg deadArgs
    | .moviI32, [out], _, [val] => tcgRegAllocMovi out val
    | opc, outs, ins, cargs => tcgRegAllocOp target config opc outs ins cargs deadArgs
  | .call outs ins flags, deadArgs =>
    match ins.getLast? with
    | some (some func) => tcgRegAllocCall target config outs ins.dropLast func flags deadArgs
    | _ => abort
  | .discard temp, _ => modify fun s =>
    if (s.temps temp).fixedReg then s else s.markDead temp
  | .setLabel label, _ => do
      tcgRegAllocBbEnd target config target.reservedRegs
      tcgOut (.label label)
  | .debugInsnStart _, _ => pure ()
  | .nop _, _ => pure ()
  | .nopn _, _ => pure ()
  | .stop, _ => pure ()

/-- The code of every op, each with the allocator state before it.  The code of one op is collected
apart from the code of the others. -/
def tcgGenCode : List (Op × DeadArgs) → GenProg (List (TCGContext × List HostInstr))
  | [] => do
      modify clearCode
      pure []
  | (op, deadArgs) :: rest => do
      modify clearCode
      let before ← get
      genOp target config op deadArgs
      let after ← get
      let chunks ← tcgGenCode rest
      pure ((before, after.code) :: chunks)

end Qemu.Tcg
