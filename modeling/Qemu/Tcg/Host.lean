import Qemu.Tcg.RegAlloc

/-!
# Running the generated code

The host executes moves, loads and stores exactly, and the instruction of an op does what the op
does: it reads its operands, looks at globals where they are stored, writes its output registers
and, where the op may call a helper, leaves arbitrary values in the call-clobbered registers.
-/

namespace Qemu.Tcg

structure Host (W : Type) where
  regs : Reg → TCGArg
  mem : Slot → TCGArg
  world : W
  trace : List Event

namespace Host

variable {W : Type} (host : Host W)

def setReg (reg : Reg) (value : TCGArg) : Host W :=
  { host with regs := Function.update host.regs reg value }

def setMem (slot : Slot) (value : TCGArg) : Host W :=
  { host with mem := Function.update host.mem slot value }

def setRegs (host : Host W) : List Reg → List TCGArg → Host W
  | reg :: regs, value :: values => (host.setReg reg value).setRegs regs values
  | _, _ => host

/-- Moves, loads and stores; ops are performed by `Host.perform`. -/
def move : HostInstr → Host W
  | .mov dst src => host.setReg dst (host.regs src)
  | .movi dst value => host.setReg dst value
  | .ld dst slot => host.setReg dst (host.mem slot)
  | .st src slot => host.setMem slot (host.regs src)
  | .op _ _ _ | .label _ => host

def moves (code : List HostInstr) : Host W := code.foldl move host

def operand : Operand → TCGArg
  | .reg reg => host.regs reg
  | .const value => value
  | .slot slot => host.mem slot

/-- Value of a global where other code expects it. -/
def global (ts : TCGTemp) : TCGArg :=
  if ts.fixedReg then host.regs ts.reg else host.mem ts.slot

def setGlobal (ts : TCGTemp) (value : TCGArg) : Host W :=
  if ts.fixedReg then host.setReg ts.reg value else host.setMem ts.slot value

end Host

/-- What stays fixed while generated code runs. -/
structure Machine (W : Type) where
  target : Target
  config : TCGTemps
  /-- Registers and slots of the globals. -/
  globals : TCGArg → TCGTemp
  semantics : Semantics W
  /-- Contents of a call-clobbered register after a helper may have run. -/
  junk : Host W → Reg → TCGArg

namespace Machine

variable {W : Type} (machine : Machine W)

def visible (access : Access) (host : Host W) : Values :=
  if access.readsGlobals then
    fun temp => if temp < machine.config.nbGlobals then
      some (host.global (machine.globals temp)) else none
  else fun _ => none

def clobbers : Action → Bool
  | .op opc _ => (tcgOpDefs opc).callClobber
  | .call _ => true

def clobber (action : Action) (host : Host W) : Host W :=
  if clobbers action then
    { host with regs := fun reg =>
        if machine.target.callClobberRegs reg then machine.junk host reg else host.regs reg }
  else host

def storeGlobals (values : Values) : List TCGArg → Host W → Host W
  | [], host => host
  | temp :: rest, host =>
    storeGlobals values rest
      (match values temp with
      | some value => host.setGlobal (machine.globals temp) value
      | none => host)

def apply (action : Action) (outs : List Reg) (args : List (Option TCGArg)) (effect : Effect W)
    (host : Host W) : Host W :=
  let clobbered := machine.clobber action host
  let stored := if action.access.writesGlobals then
      machine.storeGlobals effect.globals (List.range machine.config.nbGlobals) clobbered
    else clobbered
  let written := stored.setRegs outs effect.outs
  { written with
    world := if action.access.effects then effect.world else host.world
    trace := if action.access.effects then
        host.trace ++ [⟨action, args, action.access.next effect.next⟩]
      else host.trace }

def perform (action : Action) (outs : List Reg) (ins : List (Option Operand)) (host : Host W) :
    Option (Host W × Next) :=
  let args := ins.map (Option.map host.operand)
  (machine.semantics.perform action args (machine.visible action.access host) host.world).map
    fun effect => (machine.apply action outs args effect host, action.access.next effect.next)

/-- Run the code of one op.  Control leaves it where the op goes elsewhere. -/
def runCode : List HostInstr → Host W → Option (Host W × Next)
  | [], host => some (host, .fallThrough)
  | .op action outs ins :: rest, host =>
    match machine.perform action outs ins host with
    | none => none
    | some (after, .fallThrough) => runCode rest after
    | some (after, next) => some (after, next)
  | instr :: rest, host => runCode rest (host.move instr)

/-- A run of generated code; `landed` is set by a jump to the label at `pc`, which skips the code
that leads up to the label. -/
structure RunState (W : Type) where
  pc : Nat
  landed : Bool
  host : Host W
  status : Status

/-- One op's worth of generated code. -/
def step (ops : List Op) (chunks : List (TCGContext × List HostInstr)) (state : RunState W) :
    RunState W :=
  match state.status, ops[state.pc]?, chunks[state.pc]? with
  | .running, some .stop, some _ => { state with status := .ranOff }
  | .running, some _, some (_, code) =>
    if state.landed then { state with pc := state.pc + 1, landed := false }
    else
      match machine.runCode code state.host with
      | none => { state with status := .undefined }
      | some (host, .fallThrough) => { state with pc := state.pc + 1, host }
      | some (host, .exit) => { state with host, status := .exited }
      | some (host, .goto label) =>
        match labelIndex ops label with
        | some index => { state with pc := index, landed := true, host }
        | none => { state with host, status := .undefined }
  | .running, _, _ => { state with status := .undefined }
  | _, _, _ => state

def run (ops : List Op) (chunks : List (TCGContext × List HostInstr)) :
    Nat → RunState W → RunState W
  | 0, state => state
  | count + 1, state => machine.step ops chunks (run ops chunks count state)

end Machine

end Qemu.Tcg
