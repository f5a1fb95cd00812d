import Mathlib

/-!
# TCG ops

The ops of `tcg/tcg-opc.h` for a host and a guest with 32-bit words, and the meaning of an op list.
Temporaries, constants and label numbers share the argument type of the source.  What an op
computes, and what guest memory is, are parameters: the meaning here fixes which variables an op
reads and writes, when temporaries are destroyed and where control goes next.
-/

namespace Qemu.Tcg

abbrev TCGArg := Nat

/-- The ops handled by the `default` case of the analysis and of the register allocator, together
with the two moves. -/
inductive TCGOpcode where
  | jmp | br
  | movI32 | moviI32 | setcondI32
  | ld8uI32 | ld8sI32 | ld16uI32 | ld16sI32 | ldI32
  | st8I32 | st16I32 | stI32
  | addI32 | subI32 | mulI32
  | divI32 | divuI32 | remI32 | remuI32 | div2I32 | divu2I32
  | andI32 | orI32 | xorI32
  | shlI32 | shrI32 | sarI32 | rotlI32 | rotrI32 | depositI32
  | brcondI32 | add2I32 | sub2I32 | brcond2I32 | mulu2I32 | setcond2I32
  | ext8sI32 | ext16sI32 | ext8uI32 | ext16uI32
  | bswap16I32 | bswap32I32 | notI32 | negI32
  | andcI32 | orcI32 | eqvI32 | nandI32 | norI32
  | exitTb | gotoTb
  | qemuLd8u | qemuLd8s | qemuLd16u | qemuLd16s | qemuLd32 | qemuLd64
  | qemuSt8 | qemuSt16 | qemuSt32 | qemuSt64
  deriving DecidableEq, Repr

/-- Argument counts and the flags `TCG_OPF_BB_END`, `TCG_OPF_CALL_CLOBBER` and
`TCG_OPF_SIDE_EFFECTS` of an op. -/
structure TCGOpDef where
  nbOargs : Nat
  nbIargs : Nat
  nbCargs : Nat
  bbEnd : Bool
  callClobber : Bool
  sideEffects : Bool
  deriving DecidableEq, Repr

variable (nbOargs nbIargs nbCargs : Nat)

/-- An op that only computes its outputs. -/
def TCGOpDef.compute : TCGOpDef := ⟨nbOargs, nbIargs, nbCargs, false, false, false⟩

def TCGOpDef.store : TCGOpDef := ⟨nbOargs, nbIargs, nbCargs, false, false, true⟩

def TCGOpDef.branch : TCGOpDef := ⟨nbOargs, nbIargs, nbCargs, true, false, true⟩

def TCGOpDef.guestAccess : TCGOpDef := ⟨nbOargs, nbIargs, nbCargs, false, true, true⟩

def tcgOpDefs : TCGOpcode → TCGOpDef
  | .jmp => .branch 0 1 0
  | .br => .branch 0 0 1
  | .movI32 => .compute 1 1 0
  | .moviI32 => .compute 1 0 1
  | .setcondI32 => .compute 1 2 1
  | .ld8uI32 | .ld8sI32 | .ld16uI32 | .ld16sI32 | .ldI32 => .compute 1 1 1
  | .st8I32 | .st16I32 | .stI32 => .store 0 2 1
  | .addI32 | .subI32 | .mulI32 => .compute 1 2 0
  | .divI32 | .divuI32 | .remI32 | .remuI32 => .compute 1 2 0
  | .div2I32 | .divu2I32 => .compute 2 3 0
  | .andI32 | .orI32 | .xorI32 => .compute 1 2 0
  | .shlI32 | .shrI32 | .sarI32 | .rotlI32 | .rotrI32 => .compute 1 2 0
  | .depositI32 => .compute 1 2 2
  | .brcondI32 => .branch 0 2 2
  | .add2I32 | .sub2I32 => .compute 2 4 0
  | .brcond2I32 => .branch 0 4 2
  | .mulu2I32 => .compute 2 2 0
  | .setcond2I32 => .compute 1 4 1
  | .ext8sI32 | .ext16sI32 | .ext8uI32 | .ext16uI32 => .compute 1 1 0
  | .bswap16I32 | .bswap32I32 | .notI32 | .negI32 => .compute 1 1 0
  | .andcI32 | .orcI32 | .eqvI32 | .nandI32 | .norI32 => .compute 1 2 0
  | .exitTb | .gotoTb => .branch 0 0 1
  | .qemuLd8u | .qemuLd8s | .qemuLd16u | .qemuLd16s | .qemuLd32 => .guestAccess 1 1 1
  | .qemuLd64 => .guestAccess 2 1 1
  | .qemuSt8 | .qemuSt16 | .qemuSt32 => .guestAccess 0 2 1
  | .qemuSt64 => .guestAccess 0 3 1

/-- An op without the side-effect flag neither ends a basic block nor touches globals. -/
theorem tcgOpDefs_of_no_sideEffects {opc : TCGOpcode}
    (no_effect : (tcgOpDefs opc).sideEffects = false) :
    (tcgOpDefs opc).bbEnd = false ∧ (tcgOpDefs opc).callClobber = false := by
  cases opc <;> first | exact ⟨rfl, rfl⟩ | exact absurd no_effect (by decide)

/-- `TCG_CALL_PURE` and `TCG_CALL_CONST`. -/
structure CallFlags where
  isPure : Bool
  isConst : Bool
  deriving DecidableEq, Repr

/-- An op with its arguments, split as its definition splits them.  A missing call input is
`TCG_CALL_DUMMY_ARG`; the address of the called function is the last input. -/
inductive Op where
  | call (outs : List TCGArg) (ins : List (Option TCGArg)) (flags : CallFlags)
  | setLabel (label : TCGArg)
  | debugInsnStart (pc : TCGArg)
  | nop (cargs : List TCGArg)
  | nopn (nbArgs : Nat)
  | discard (temp : TCGArg)
  | stop
  | generic (opc : TCGOpcode) (outs ins cargs : List TCGArg)
  deriving DecidableEq, Repr

/-- The part of `TCGContext` that says which variables are globals and which of the others are
local temporaries. -/
structure TCGTemps where
  nbGlobals : Nat
  nbTemps : Nat
  tempLocal : TCGArg → Bool

variable (temps : TCGTemps)

/-- Globals and local temporaries keep their value at the end of a basic block. -/
def TCGTemps.survives (temp : TCGArg) : Bool :=
  decide (temp < temps.nbGlobals) || temps.tempLocal temp

theorem TCGTemps.survives_of_global {temps : TCGTemps} {temp : TCGArg}
    (global : temp < temps.nbGlobals) : temps.survives temp = true := by
  simp [survives, global]

/-! ## What an op may touch -/

/-- The state an op has access to besides its own arguments.  An op that writes globals may also
raise an exception, and only an op that ends its block may branch. -/
structure Access where
  readsGlobals : Bool
  writesGlobals : Bool
  effects : Bool
  endsBlock : Bool
  deriving DecidableEq, Repr

def TCGOpDef.access (opDef : TCGOpDef) : Access where
  readsGlobals := opDef.bbEnd || opDef.callClobber
  writesGlobals := !opDef.bbEnd && opDef.callClobber
  effects := opDef.sideEffects
  endsBlock := opDef.bbEnd

def CallFlags.access (flags : CallFlags) : Access where
  readsGlobals := !flags.isConst
  writesGlobals := !flags.isConst && !flags.isPure
  effects := !flags.isPure
  endsBlock := false

/-- Values of the variables; a destroyed or discarded variable has none. -/
abbrev Values := TCGArg → Option TCGArg

inductive Next where
  | fallThrough
  | goto (label : TCGArg)
  | exit
  deriving DecidableEq, Repr

/-- What the host does for one op. -/
structure Effect (W : Type) where
  outs : List TCGArg
  globals : Values
  world : W
  next : Next

inductive Action where
  | op (opc : TCGOpcode) (cargs : List TCGArg)
  | call (flags : CallFlags)
  deriving DecidableEq, Repr

def Action.access : Action → Access
  | .op opc _ => (tcgOpDefs opc).access
  | .call flags => flags.access

/-- The meaning of ops and helpers over guest memory and devices `W`.  No effect means that the
op is undefined on these operands. -/
structure Semantics (W : Type) where
  perform : Action → List (Option TCGArg) → Values → W → Option (Effect W)

/-- A side-effecting op or call with the values of its arguments, and where it went. -/
structure Event where
  action : Action
  args : List (Option TCGArg)
  next : Next
  deriving DecidableEq, Repr

inductive Status where
  | running
  | exited
  | ranOff
  | undefined
  deriving DecidableEq, Repr

structure ExecState (W : Type) where
  pc : Nat
  values : Values
  world : W
  trace : List Event
  status : Status

/-! ## Execution -/

/-- Values of the inputs of an op; a dummy argument has no value to read. -/
def readArgs (values : Values) : List (Option TCGArg) → Option (List (Option TCGArg))
  | [] => some []
  | none :: ins => (readArgs values ins).map (none :: ·)
  | some arg :: ins =>
    match values arg with
    | none => none
    | some value => (readArgs values ins).map (some value :: ·)

def assign (values : Values) : List TCGArg → List TCGArg → Values
  | [], _ => values
  | out :: outs, [] => assign (Function.update values out none) outs []
  | out :: outs, value :: rest => assign (Function.update values out (some value)) outs rest

def globalValues (values : Values) : Values :=
  fun temp => if temp < temps.nbGlobals then values temp else none

def setGlobals (values globals : Values) : Values :=
  fun temp => if temp < temps.nbGlobals then globals temp else values temp

/-- Temporaries are destroyed at the end of a basic block. -/
def endBlock (values : Values) : Values :=
  fun temp => if temps.survives temp then values temp else none

namespace Access

def visible (access : Access) (temps : TCGTemps) (values : Values) : Values :=
  if access.readsGlobals then globalValues temps values else fun _ => none

def next (access : Access) (next : Next) : Next :=
  if access.endsBlock then next
  else if access.writesGlobals && decide (next = .exit) then .exit
  else .fallThrough

/-- Values after an op.  The op changes globals before its outputs are stored. -/
def values {W : Type} (access : Access) (temps : TCGTemps) (outs : List TCGArg)
    (effect : Effect W) (values : Values) : Values :=
  let stored := assign
    (if access.writesGlobals then setGlobals temps values effect.globals else values)
    outs effect.outs
  if access.endsBlock then endBlock temps stored else stored

end Access

def isLabel (label : TCGArg) : Op → Bool
  | .setLabel label' => decide (label' = label)
  | _ => false

def labelIndex (ops : List Op) (label : TCGArg) : Option Nat := ops.findIdx? (isLabel label)

namespace ExecState

variable {W : Type} (state : ExecState W)

def advance : ExecState W := { state with pc := state.pc + 1 }

def fail : ExecState W := { state with status := .undefined }

def follow (ops : List Op) : Next → ExecState W
  | .fallThrough => state.advance
  | .exit => { state with status := .exited }
  | .goto label =>
    match labelIndex ops label with
    | some index => { state with pc := index }
    | none => state.fail

/-- State after `effect`, before control moves on. -/
def apply (temps : TCGTemps) (action : Action) (outs : List TCGArg)
    (args : List (Option TCGArg)) (effect : Effect W) : ExecState W :=
  { state with
    values := action.access.values temps outs effect state.values
    world := if action.access.effects then effect.world else state.world
    trace := if action.access.effects then
        state.trace ++ [⟨action, args, action.access.next effect.next⟩]
      else state.trace }

end ExecState

variable {W : Type}

def performOp (temps : TCGTemps) (semantics : Semantics W) (ops : List Op) (action : Action)
    (outs : List TCGArg) (ins : List (Option TCGArg)) (state : ExecState W) : ExecState W :=
  match readArgs state.values ins with
  | none => state.fail
  | some args =>
    match semantics.perform action args (action.access.visible temps state.values)
        state.world with
    | none => state.fail
    | some effect =>
      (state.apply temps action outs args effect).follow ops
        (action.access.next effect.next)

theorem performOp_defined {temps : TCGTemps} {semantics : Semantics W} {ops : List Op}
    {action : Action} {outs : List TCGArg} {ins : List (Option TCGArg)} {state : ExecState W}
    (defined : (performOp temps semantics ops action outs ins state).status ≠ .undefined) :
    ∃ args effect, readArgs state.values ins = some args ∧
      semantics.perform action args (action.access.visible temps state.values) state.world =
        some effect ∧
      performOp temps semantics ops action outs ins state =
        (state.apply temps action outs args effect).follow ops
          (action.access.next effect.next) := by
  unfold performOp at defined ⊢
  cases read : readArgs state.values ins with
  | none => simp [read, ExecState.fail] at defined
  | some args =>
    simp only [read] at defined ⊢
    cases performed : semantics.perform action args (action.access.visible temps state.values)
        state.world with
    | none => simp [performed, ExecState.fail] at defined
    | some effect => exact ⟨args, effect, rfl, performed, rfl⟩

def execOp (temps : TCGTemps) (semantics : Semantics W) (ops : List Op) (op : Op)
    (state : ExecState W) : ExecState W :=
  match op with
  | .call outs ins flags => performOp temps semantics ops (.call flags) outs ins state
  | .setLabel _ => { state with values := endBlock temps state.values }.advance
  | .debugInsnStart _ | .nop _ | .nopn _ => state.advance
  | .discard temp => { state with values := Function.update state.values temp none }.advance
  | .stop => { state with status := .ranOff }
  | .generic opc outs ins cargs =>
    performOp temps semantics ops (.op opc cargs) outs (ins.map some) state

/-- One op of a running list; an ended run stays where it is. -/
def step (temps : TCGTemps) (semantics : Semantics W) (ops : List Op) (state : ExecState W) :
    ExecState W :=
  match state.status, ops[state.pc]? with
  | .running, some op => execOp temps semantics ops op state
  | .running, none => state.fail
  | _, _ => state

def runOps (temps : TCGTemps) (semantics : Semantics W) (ops : List Op) :
    Nat → ExecState W → ExecState W
  | 0, state => state
  | count + 1, state => step temps semantics ops (runOps temps semantics ops count state)

end Qemu.Tcg
