import Qemu.Tcg.LivenessSound

/-!
# Dead arguments

An input marked in `op_dead_args` is not read again: on every path through the analysed list its
variable is overwritten first.  With the lockstep of the two runs this is the correctness of the
liveness analysis.
-/

namespace Qemu.Tcg

variable {W : Type} {temps : TCGTemps} {semantics : Semantics W} {index : Nat} {temp : TCGArg}
variable {ops : List Op} {after : DeadTemps} {op : Op} {pc : Nat}

namespace Op

def outs : Op → List TCGArg
  | .call outs _ _ => outs
  | .generic _ outs _ _ => outs
  | .discard temp => [temp]
  | _ => []

def ins : Op → List (Option TCGArg)
  | .call _ ins _ => ins
  | .generic _ _ ins _ => ins.map some
  | _ => []

def readsGlobals : Op → Bool
  | .call _ _ flags => flags.access.readsGlobals
  | .generic opc _ _ _ => (tcgOpDefs opc).access.readsGlobals
  | _ => false

/-- The op reads the variable, as an input or because it may look at any global. -/
def Reads (temps : TCGTemps) (op : Op) (temp : TCGArg) : Prop :=
  some temp ∈ op.ins ∨ op.readsGlobals = true ∧ temp < temps.nbGlobals

/-- The op gives the variable a new value or destroys it. -/
def Overwrites (temps : TCGTemps) (op : Op) (temp : TCGArg) : Prop :=
  temp ∈ op.outs ∨ op.endsBlock = true ∧ temps.survives temp = false

def jumps : Op → Bool
  | .generic opc _ _ _ => (tcgOpDefs opc).bbEnd
  | _ => false

end Op

/-- Control may pass from the op at one index to the op at the other. -/
inductive Follows (ops : List Op) : Nat → Nat → Prop where
  | next {pc : Nat} {op : Op} (found : ops[pc]? = some op) : Follows ops pc (pc + 1)
  | jump {pc target : Nat} {op : Op} {label : TCGArg} (found : ops[pc]? = some op)
      (jumps : op.jumps = true) (labelled : labelIndex ops label = some target) :
      Follows ops pc target

/-- Some path from `pc` reads the variable before anything overwrites it. -/
inductive ReadLater (temps : TCGTemps) (ops : List Op) (temp : TCGArg) : Nat → Prop where
  | here {pc : Nat} {op : Op} (found : ops[pc]? = some op) (reads : op.Reads temps temp) :
      ReadLater temps ops temp pc
  | later {pc target : Nat} {op : Op} (found : ops[pc]? = some op)
      (keeps : ¬op.Overwrites temps temp) (follows : Follows ops pc target)
      (later : ReadLater temps ops temp target) : ReadLater temps ops temp pc

/-! ## The dead bits are sound for all paths -/

theorem reads_tcgSetNop (nbArgs : Nat) (temp : TCGArg) : ¬(tcgSetNop nbArgs).Reads temps temp := by
  unfold tcgSetNop
  split <;> simp [Op.Reads, Op.ins, Op.readsGlobals]

theorem jumps_tcgSetNop (nbArgs : Nat) : (tcgSetNop nbArgs).jumps = false := by
  unfold tcgSetNop
  split <;> rfl

/-- The dead bits before an op that stays in the list, whatever kind of op it is. -/
theorem covers_analyseOp (op : Op) (after : DeadTemps) :
    let analysed := analyseOp temps op after
    (∀ temp, analysed.op.Reads temps temp → analysed.dead temp = false) ∧
    (∀ temp, ¬analysed.op.Overwrites temps temp → after temp = false → analysed.dead temp = false) ∧
    (analysed.op.jumps = true → ∀ temp, temps.survives temp = true →
      analysed.dead temp = false) := by
  cases op with
  | call outs ins flags =>
    simp only [analyseOp, analyseCall]
    split
    · refine ⟨fun temp reads => ?_, fun _ _ live => live, fun jumps => ?_⟩
      · exact absurd reads (reads_tcgSetNop (callNbArgs outs ins) temp)
      · simp [jumps_tcgSetNop] at jumps
    · have covers := covers_keepCall temps outs ins flags (.call outs ins flags) after
      refine ⟨fun temp reads => ?_, fun temp keeps live => ?_, fun jumps => by cases jumps⟩
      · rcases reads with input | ⟨reads, global⟩
        · exact covers.inputs temp input
        · exact covers.globals reads temp global
      · exact covers.others rfl temp (fun mem => keeps (.inl mem)) live
  | generic opc outs ins cargs =>
    simp only [analyseOp, analyseGeneric]
    split
    · refine ⟨fun temp reads => ?_, fun _ _ live => live, fun jumps => ?_⟩
      · exact absurd reads (reads_tcgSetNop _ temp)
      · simp [jumps_tcgSetNop] at jumps
    · have covers := covers_keepGeneric temps opc outs (ins.map some)
        (.generic opc outs ins cargs) after
      refine ⟨fun temp reads => ?_, fun temp keeps live => ?_, fun jumps temp survives =>
        covers.block jumps temp survives⟩
      · rcases reads with input | ⟨reads, global⟩
        · exact covers.inputs temp input
        · exact covers.globals reads temp global
      · cases ends : (tcgOpDefs opc).bbEnd with
        | true =>
          refine covers.block ends temp (Bool.not_eq_false _ |>.mp fun destroyed => ?_)
          exact keeps (.inr ⟨ends, destroyed⟩)
        | false => exact covers.others ends temp (fun mem => keeps (.inl mem)) live
  | setLabel label =>
    refine ⟨fun _ reads => ?_, fun temp keeps _ => ?_, fun jumps => by cases jumps⟩
    · simp [analyseOp, Op.Reads, Op.ins, Op.readsGlobals] at reads
    · refine tcgLaBbEnd_eq_false.mpr (Bool.not_eq_false _ |>.mp fun destroyed => ?_)
      exact keeps (.inr ⟨rfl, destroyed⟩)
  | discard other =>
    refine ⟨fun _ reads => ?_, fun temp keeps live => ?_, fun jumps => by cases jumps⟩
    · simp [analyseOp, Op.Reads, Op.ins, Op.readsGlobals] at reads
    · have ne : temp ≠ other := fun same => keeps (.inl (by simp [analyseOp, Op.outs, same]))
      exact (Function.update_of_ne ne _ _).trans live
  | debugInsnStart _ | nop _ | nopn _ | stop =>
    refine ⟨fun _ reads => ?_, fun _ _ live => live, fun jumps => by cases jumps⟩
    simp [analyseOp, Op.Reads, Op.ins, Op.readsGlobals] at reads

theorem analysed_of_found (found : (livenessOps temps ops)[pc]? = some op) :
    ∃ original, ops[pc]? = some original ∧
      op = (analyseOp temps original (deadBefore temps (ops.drop (pc + 1)))).op := by
  cases original : ops[pc]? with
  | none => simp [livenessOps, getElem?_tcgLivenessAnalysis, original] at found
  | some original_op =>
    rw [getElem?_livenessOps original] at found
    exact ⟨original_op, rfl, (Option.some.inj found).symm⟩

theorem labelIndex_setLabel {label : TCGArg} (labelled : labelIndex ops label = some index) :
    ops[index]? = some (.setLabel label) := by
  obtain ⟨in_range, is_label, -⟩ := List.findIdx?_eq_some_iff_getElem.mp labelled
  rw [List.getElem?_eq_getElem in_range]
  generalize ops[index] = op at is_label
  cases op <;> simp_all [isLabel]

/-- A variable that is read later is live in the sense of the analysis. -/
theorem live_of_readLater (later : ReadLater temps (livenessOps temps ops) temp pc) :
    deadBefore temps (ops.drop pc) temp = false := by
  induction later with
  | here found reads =>
    obtain ⟨original, found', rfl⟩ := analysed_of_found found
    rw [deadBefore_drop found']
    exact (covers_analyseOp original _).1 temp reads
  | later found keeps follows _ ih =>
    obtain ⟨original, found', rfl⟩ := analysed_of_found found
    rw [deadBefore_drop found']
    cases follows with
    | next => exact (covers_analyseOp original _).2.1 temp keeps ih
    | jump found'' jumps labelled =>
      rw [found] at found''
      cases found''
      rw [labelIndex_livenessOps] at labelled
      rw [deadBefore_drop (labelIndex_setLabel labelled)] at ih
      exact (covers_analyseOp original _).2.2 jumps temp (tcgLaBbEnd_eq_false.mp ih)

/-! ## Marked inputs -/

theorem inputBit_of_keepOp {outs : List TCGArg} {ins : List (Option TCGArg)}
    {globals : DeadTemps → DeadTemps}
    (marked : isDeadArg (keepOp op outs ins globals after).deadArgs (outs.length + index) = true) :
    (markInputs (globals (markOutputs after outs).2) ins).1[index]? = some true := by
  have bit : ((markOutputs after outs).1 ++
      (markInputs (globals (markOutputs after outs).2) ins).1)[outs.length + index]? =
        some true := by
    simp only [isDeadArg, keepOp, List.getD_eq_getElem?_getD, List.getElem?_take] at marked
    split at marked
    · exact Option.getD_eq_iff.mp marked |>.resolve_right (by simp)
    · simp at marked
  rwa [List.getElem?_append_right (by simp [length_markOutputs]), length_markOutputs,
    Nat.add_sub_cancel_left] at bit

theorem dead_of_keepOp {outs : List TCGArg} {ins : List (Option TCGArg)}
    {globals : DeadTemps → DeadTemps} (input : ins[index]? = some (some temp))
    (marked : isDeadArg (keepOp op outs ins globals after).deadArgs (outs.length + index) = true) :
    globals (markOutputs after outs).2 temp = true :=
  dead_of_markInputs input (inputBit_of_keepOp marked)

theorem dead_of_globalsLive {dead : DeadTemps} (marked : globalsLive temps dead temp = true) :
    dead temp = true := by
  unfold globalsLive at marked
  split at marked
  · cases marked
  · exact marked

/-- After an op that marks an input, the input's variable is dead, unless the op itself ends its
life. -/
theorem dead_after_marked {original : Op}
    (input : (analyseOp temps original after).op.ins[index]? = some (some temp))
    (marked : isDeadArg (analyseOp temps original after).deadArgs ((analyseOp temps original after).op.outs.length + index) = true)
    (keeps : ¬(analyseOp temps original after).op.Overwrites temps temp) :
    after temp = true ∧ (analyseOp temps original after).op.jumps = false := by
  cases original with
  | call outs ins flags =>
    simp only [analyseOp, analyseCall] at input marked keeps ⊢
    split at input
    · next removable =>
      simp only [if_pos removable] at marked
      simp [isDeadArg] at marked
    · next kept =>
      simp only [if_neg kept] at marked keeps ⊢
      have dead := dead_of_keepOp input marked
      have not_mem : temp ∉ outs := fun mem => keeps (.inl mem)
      rw [← markOutputs_of_notMem after not_mem]
      refine ⟨?_, rfl⟩
      split at dead
      · exact dead
      · exact dead_of_globalsLive dead
  | generic opc outs ins cargs =>
    simp only [analyseOp, analyseGeneric] at input marked keeps ⊢
    split at input
    · next removable =>
      simp only [if_pos removable] at marked
      simp [isDeadArg] at marked
    · next kept =>
      simp only [if_neg kept] at marked keeps ⊢
      have dead := dead_of_keepOp input marked
      have not_mem : temp ∉ outs := fun mem => keeps (.inl mem)
      rw [← markOutputs_of_notMem after not_mem]
      unfold flagsLive at dead
      cases ends : (tcgOpDefs opc).bbEnd with
      | true =>
        simp only [ends, if_true, tcgLaBbEnd, Bool.not_eq_true'] at dead
        exact absurd (.inr ⟨ends, dead⟩) keeps
      | false =>
        refine ⟨?_, ends⟩
        simp only [ends, Bool.false_eq_true, if_false] at dead
        split at dead
        · exact dead_of_globalsLive dead
        · exact dead
  | setLabel _ | discard _ | debugInsnStart _ | nop _ | nopn _ | stop =>
    simp [analyseOp, isDeadArg] at marked

/-- A marked input is not read on any path before it is overwritten. -/
theorem not_readLater_of_marked {deadArgs : DeadArgs}
    (entry : (tcgLivenessAnalysis temps ops)[pc]? = some (op, deadArgs))
    (input : op.ins[index]? = some (some temp))
    (marked : isDeadArg deadArgs (op.outs.length + index) = true)
    (keeps : ¬op.Overwrites temps temp) {target : Nat}
    (follows : Follows (livenessOps temps ops) pc target) :
    ¬ReadLater temps (livenessOps temps ops) temp target := by
  intro later
  rw [getElem?_tcgLivenessAnalysis] at entry
  obtain ⟨original, found, pair⟩ := Option.map_eq_some_iff.mp entry
  obtain ⟨rfl, rfl⟩ := Prod.mk.inj pair
  obtain ⟨dead, no_jump⟩ := dead_after_marked input marked keeps
  cases follows with
  | next => simp [live_of_readLater later] at dead
  | jump found' jumps labelled =>
    rw [getElem?_livenessOps found] at found'
    cases found'
    simp [no_jump] at jumps

/-! ## Correctness of the analysis -/

def ExecState.start (values : Values) (world : W) : ExecState W := ⟨0, values, world, [], .running⟩

/-- After any number of steps of a defined run, the run of the analysed list has performed the
same side-effecting ops and calls on the same arguments and has taken the same branches; when the
list is left at the end of a basic block or by an op, the globals are the same; and a marked input
is not read again before its variable is overwritten. -/
theorem liveness_preserves_meaning (temps : TCGTemps) (semantics : Semantics W) (ops : List Op)
    (values : Values) (world : W) (count : Nat)
    (defined : (runOps temps semantics ops count (.start values world)).status ≠ .undefined) :
    let state := runOps temps semantics ops count (.start values world)
    let state' := runOps temps semantics (livenessOps temps ops) count (.start values world)
    (state'.trace = state.trace ∧ state'.world = state.world ∧ state'.pc = state.pc ∧
      state'.status = state.status ∧
      (LeftBlock ops state → ∀ temp, temp < temps.nbGlobals →
        state'.values temp = state.values temp)) ∧
    ∀ pc op deadArgs index temp,
      (tcgLivenessAnalysis temps ops)[pc]? = some (op, deadArgs) →
      op.ins[index]? = some (some temp) → isDeadArg deadArgs (op.outs.length + index) = true →
      op.Overwrites temps temp ∨
        ∀ target, Follows (livenessOps temps ops) pc target →
          ¬ReadLater temps (livenessOps temps ops) temp target := by
  have together := lockstep_runOps (.start values world) count defined
  refine ⟨⟨together.trace, together.world, together.pc, together.status, together.left⟩, ?_⟩
  intro pc op deadArgs index temp entry input marked
  by_cases overwrites : op.Overwrites temps temp
  · exact .inl overwrites
  · exact .inr fun target follows =>
    not_readLater_of_marked entry input marked overwrites follows

/-- Constants and a way out of the block. -/
def immediates : Semantics Unit where
  perform action _ _ _ :=
    match action with
    | .op .moviI32 cargs => some ⟨cargs, fun _ => none, (), .fallThrough⟩
    | .op .exitTb _ => some ⟨[], fun _ => none, (), .exit⟩
    | _ => none

def oneGlobal : TCGTemps := ⟨1, 2, fun _ => false⟩

def deadTempThenExit : List Op :=
  [.generic .moviI32 [1] [] [7], .generic .moviI32 [0] [] [5], .generic .exitTb [] [] [0], .stop]

theorem liveness_preserves_meaning_exit :
    (livenessOps oneGlobal deadTempThenExit)[0]? = some (.nopn 2) ∧
    (runOps oneGlobal immediates (livenessOps oneGlobal deadTempThenExit) 3
      (.start (fun _ => some 0) ())).values 0 = some 5 := by
  refine ⟨by decide, ?_⟩
  have preserved := liveness_preserves_meaning oneGlobal immediates deadTempThenExit
    (fun _ => some 0) () 3 (by decide)
  exact (preserved.1.2.2.2.2 (.inl (by decide)) 0 (by decide)).trans (by decide)

/-- Every variable is dead after the last op, so a list that runs off its end without ending its
last basic block loses the assignment to a global; and a call of a pure function whose result is
dead is no longer made. -/
theorem liveness_drops_global_assignment :
    let ops : List Op := [.generic .moviI32 [0] [] [5], .stop]
    (∀ count, (runOps oneGlobal immediates ops count (.start (fun _ => some 0) ())).status ≠
      .undefined) ∧
    (runOps oneGlobal immediates ops 2 (.start (fun _ => some 0) ())).status = .ranOff ∧
    (runOps oneGlobal immediates ops 2 (.start (fun _ => some 0) ())).values 0 = some 5 ∧
    (runOps oneGlobal immediates (livenessOps oneGlobal ops) 2
      (.start (fun _ => some 0) ())).values 0 = some 0 ∧
    (livenessOps oneGlobal [.call [1] [some 0] ⟨true, false⟩, .generic .exitTb [] [] [0], .stop]) =
      [.nopn 5, .generic .exitTb [] [] [0], .stop] := by
  intro ops
  have ended : ∀ count, runOps oneGlobal immediates ops (count + 2) (.start (fun _ => some 0) ()) =
      runOps oneGlobal immediates ops 2 (.start (fun _ => some 0) ()) := by
    intro count
    induction count with
    | zero => rfl
    | succ count ih => rw [Nat.succ_add, runOps, ih]; rfl
  refine ⟨fun count => ?_, by decide, by decide, by decide, by decide⟩
  rcases count with _ | _ | count
  · decide
  · decide
  · rw [ended]
    decide

end Qemu.Tcg
