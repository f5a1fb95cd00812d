import Qemu.Tcg.Ops

/-!
# Liveness analysis

`tcg_liveness_analysis` walks the op list backwards with one dead bit per variable, replaces ops
whose results are not needed by nops, and records for every argument of the other ops whether its
variable is dead there.
-/

namespace Qemu.Tcg

abbrev DeadTemps := TCGArg → Bool

/-- `op_dead_args` of one op, one bit for each output and then each input. -/
abbrev DeadArgs := List Bool

def isDeadArg (deadArgs : DeadArgs) (index : Nat) : Bool := deadArgs.getD index false

/-- Width of an entry of `op_dead_args`. -/
def deadArgsBits : Nat := 16

def tcgSetNop (nbArgs : Nat) : Op := if nbArgs = 0 then .nop [] else .nopn nbArgs

variable (temps : TCGTemps)

/-- `tcg_la_bb_end`: globals and local temporaries are live, the others are dead. -/
def tcgLaBbEnd : DeadTemps := fun temp => !temps.survives temp

def globalsLive (dead : DeadTemps) : DeadTemps :=
  fun temp => if temp < temps.nbGlobals then false else dead temp

/-- Output arguments are dead before the op. -/
def markOutputs (dead : DeadTemps) : List TCGArg → DeadArgs × DeadTemps
  | [] => ([], dead)
  | arg :: args =>
    let rest := markOutputs (Function.update dead arg true) args
    (dead arg :: rest.1, rest.2)

/-- Input arguments are live before the op. -/
def markInputs (dead : DeadTemps) : List (Option TCGArg) → DeadArgs × DeadTemps
  | [] => ([], dead)
  | none :: args =>
    let rest := markInputs dead args
    (false :: rest.1, rest.2)
  | some arg :: args =>
    let rest := markInputs (Function.update dead arg false) args
    (dead arg :: rest.1, rest.2)

/-- An op as the analysis leaves it, its dead bits, and the dead variables before it. -/
structure Analysed where
  op : Op
  deadArgs : DeadArgs
  dead : DeadTemps

/-- An op that stays: `globals` updates the dead bits between outputs and inputs. -/
def keepOp (op : Op) (outs : List TCGArg) (ins : List (Option TCGArg))
    (globals : DeadTemps → DeadTemps) (dead : DeadTemps) : Analysed :=
  let outputs := markOutputs dead outs
  let inputs := markInputs (globals outputs.2) ins
  ⟨op, (outputs.1 ++ inputs.1).take deadArgsBits, inputs.2⟩

/-- Arguments of a call in the parameter buffer: the counts, outputs, inputs, flags and the
number of arguments. -/
def callNbArgs (outs : List TCGArg) (ins : List (Option TCGArg)) : Nat :=
  outs.length + ins.length + 3

def analyseCall (outs : List TCGArg) (ins : List (Option TCGArg))
    (flags : CallFlags) (dead : DeadTemps) : Analysed :=
  if flags.isPure && outs.all dead then
    ⟨tcgSetNop (callNbArgs outs ins), [], dead⟩
  else
    keepOp (.call outs ins flags) outs ins
      (if flags.isConst then id else globalsLive temps) dead

def flagsLive (opDef : TCGOpDef) (dead : DeadTemps) : DeadTemps :=
  if opDef.bbEnd then tcgLaBbEnd temps
  else if opDef.callClobber then globalsLive temps dead
  else dead

def analyseGeneric (opc : TCGOpcode) (outs ins cargs : List TCGArg) (dead : DeadTemps) : Analysed :=
  if !(tcgOpDefs opc).sideEffects && decide (outs.length ≠ 0) && outs.all dead then
    ⟨tcgSetNop (outs.length + ins.length + cargs.length), [], dead⟩
  else
    keepOp (.generic opc outs ins cargs) outs (ins.map some) (flagsLive temps (tcgOpDefs opc)) dead

def analyseOp (op : Op) (dead : DeadTemps) : Analysed :=
  match op with
  | .call outs ins flags => analyseCall temps outs ins flags dead
  | .setLabel label => ⟨.setLabel label, [], tcgLaBbEnd temps⟩
  | .discard temp => ⟨.discard temp, [], Function.update dead temp true⟩
  | .generic opc outs ins cargs => analyseGeneric temps opc outs ins cargs dead
  | .debugInsnStart pc => ⟨.debugInsnStart pc, [], dead⟩
  | .nop cargs => ⟨.nop cargs, [], dead⟩
  | .nopn nbArgs => ⟨.nopn nbArgs, [], dead⟩
  | .stop => ⟨.stop, [], dead⟩

/-- Dead variables before an op list.  Every variable is dead after the last op. -/
def deadBefore (temps : TCGTemps) : List Op → DeadTemps
  | [] => fun _ => true
  | op :: ops => (analyseOp temps op (deadBefore temps ops)).dead

/-- The ops of the analysed list with their `op_dead_args`. -/
def tcgLivenessAnalysis (temps : TCGTemps) : List Op → List (Op × DeadArgs)
  | [] => []
  | op :: ops =>
    let analysed := analyseOp temps op (deadBefore temps ops)
    (analysed.op, analysed.deadArgs) :: tcgLivenessAnalysis temps ops

/-- The op list that is left for the code generator. -/
def livenessOps (ops : List Op) : List Op := (tcgLivenessAnalysis temps ops).map Prod.fst

end Qemu.Tcg
