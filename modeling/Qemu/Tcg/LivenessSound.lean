import Qemu.Tcg.Liveness

/-!
# The liveness analysis preserves meaning

The analysed list runs in lockstep with the original one.  At every point both runs agree on the
variables that the analysis holds live there; a removed op only writes variables outside that set.
-/

namespace Qemu.Tcg

open Function List ExecState Access CallFlags

variable {W : Type} {temps : TCGTemps} {semantics : Semantics W} {state state' : ExecState W}
variable {ins : List (Option TCGArg)} {ops : List Op} {temp : TCGArg} {outs : List TCGArg}
variable {values values' : Values} {op : Op} {pc : Nat}

/-! ## Dead bits -/

variable (dead : DeadTemps)

theorem markOutputs_of_notMem (not_mem : temp ∉ outs) :
    (markOutputs dead outs).2 temp = dead temp := by
  induction outs generalizing dead with
  | nil => rfl
  | cons out outs ih =>
    have out_ne := ne_of_not_mem_cons not_mem
    have tail := not_mem_of_not_mem_cons not_mem
    rw [markOutputs, ih _ tail, update_of_ne out_ne]

theorem markInputs_of_live (ins : List (Option TCGArg)) {dead : DeadTemps}
    (live : dead temp = false) : (markInputs dead ins).2 temp = false := by
  induction ins generalizing dead with
  | nil => exact live
  | cons arg ins ih =>
    cases arg with
    | none => exact ih live
    | some arg =>
      refine ih ?_
      by_cases same : temp = arg
      · simp [same]
      · rw [update_of_ne same, live]

theorem markInputs_of_mem (mem : some temp ∈ ins) : (markInputs dead ins).2 temp = false := by
  induction ins generalizing dead with
  | nil => simp at mem
  | cons arg ins ih =>
    rcases mem_cons.mp mem with rfl | tail
    · exact markInputs_of_live ins (by simp)
    · cases arg with
      | none => exact ih dead tail
      | some arg => exact ih _ tail

theorem length_markOutputs (outs : List TCGArg) :
    (markOutputs dead outs).1.length = outs.length := by
  induction outs generalizing dead with
  | nil => rfl
  | cons out outs ih => simp [markOutputs, ih]

/-- An input is marked only if it was dead after the op's own effect on the dead bits. -/
theorem dead_of_markInputs {temp : TCGArg} {ins : List (Option TCGArg)} {dead : DeadTemps}
    {index : Nat} (input : ins[index]? = some (some temp))
    (marked : (markInputs dead ins).1[index]? = some true) : dead temp = true := by
  induction ins generalizing dead index with
  | nil => simp at input
  | cons arg ins ih =>
    cases index with
    | zero =>
      obtain rfl : arg = some temp := by simpa using input
      simpa [markInputs] using marked
    | succ index =>
      have tail_input : ins[index]? = some (some temp) := by simpa using input
      cases arg with
      | none => exact ih tail_input (by simpa [markInputs] using marked)
      | some arg =>
        have tail_dead : update dead arg false temp = true :=
          ih tail_input (by simpa [markInputs] using marked)
        by_cases same : temp = arg
        · simp [same] at tail_dead
        · rwa [update_of_ne same] at tail_dead

theorem tcgLaBbEnd_eq_false : tcgLaBbEnd temps temp = false ↔ temps.survives temp = true := by
  simp [tcgLaBbEnd]

/-! ## Agreement on live variables -/

/-- The second valuation has the values of the first on all variables that are not dead. -/
def AgreeOn (values values' : Values) : Prop :=
  ∀ temp, dead temp = false → values' temp = values temp

theorem readArgs_congr (agree : ∀ temp, some temp ∈ ins → values' temp = values temp) :
    readArgs values' ins = readArgs values ins := by
  induction ins with
  | nil => rfl
  | cons arg ins ih =>
    have tail := ih fun temp mem => agree temp (mem_cons_of_mem _ mem)
    cases arg with
    | none => simp only [readArgs, tail]
    | some arg => simp only [readArgs, tail, agree arg mem_cons_self]

theorem assign_of_notMem (values : Values) (results : List TCGArg) (not_mem : temp ∉ outs) :
    assign values outs results temp = values temp := by
  induction outs generalizing values results with
  | nil => rfl
  | cons out outs ih =>
    have out_ne := ne_of_not_mem_cons not_mem
    have tail := not_mem_of_not_mem_cons not_mem
    cases results with
    | nil | cons result results => rw [assign, ih _ _ tail, update_of_ne out_ne]

theorem assign_congr (results : List TCGArg) (agree : temp ∉ outs → values' temp = values temp) :
    assign values' outs results temp = assign values outs results temp := by
  induction outs generalizing values values' results with
  | nil => exact agree not_mem_nil
  | cons out outs ih =>
    have updated : ∀ result, temp ∉ outs →
        update values' out result temp = update values out result temp := by
      intro result not_mem
      by_cases same : temp = out
      · simp [same]
      · rw [update_of_ne same, update_of_ne same,
          agree (not_mem_cons_of_ne_of_not_mem same not_mem)]
    cases results with
    | nil => exact ih _ (updated none)
    | cons result results => exact ih _ (updated (some result))

theorem endBlock_congr (agree : AgreeOn (tcgLaBbEnd temps) values values') :
    endBlock temps values' = endBlock temps values := by
  funext temp
  unfold endBlock
  split
  · next survives => exact agree temp (tcgLaBbEnd_eq_false.mpr survives)
  · rfl

/-- The dead bits before an op that stays protect everything the op reads and everything that is
live after it and not written by it. -/
structure Covers (temps : TCGTemps) (access : Access) (outs : List TCGArg)
    (ins : List (Option TCGArg)) (before after : DeadTemps) : Prop where
  inputs : ∀ temp, some temp ∈ ins → before temp = false
  globals : access.readsGlobals = true → ∀ temp, temp < temps.nbGlobals → before temp = false
  others : access.endsBlock = false → ∀ temp, temp ∉ outs → after temp = false →
    before temp = false
  block : access.endsBlock = true → ∀ temp, temps.survives temp = true → before temp = false

namespace Covers

variable {access : Access} {outs : List TCGArg} {ins : List (Option TCGArg)}
  {before after : DeadTemps} {values values' : Values}

section

variable (covers : Covers temps access outs ins before after)
  (agree : AgreeOn before values values')

include covers agree

theorem visible_eq : access.visible temps values' = access.visible temps values := by
  unfold visible
  split
  · next reads =>
    funext temp
    unfold globalValues
    split
    · next global => exact agree temp (covers.globals reads temp global)
    · rfl
  · rfl

/-- An op that ends its block leaves the same values everywhere. -/
theorem values_eq (ends : access.endsBlock = true) (effect : Effect W) :
    access.values temps outs effect values' = access.values temps outs effect values := by
  simp only [Access.values, ends, if_true]
  refine endBlock_congr fun temp live => assign_congr _ fun _ => ?_
  have same := agree temp (covers.block ends temp (tcgLaBbEnd_eq_false.mp live))
  split
  · simp only [setGlobals, same]
  · exact same

theorem values_agree (effect : Effect W) :
    AgreeOn after (access.values temps outs effect values)
      (access.values temps outs effect values') := by
  intro temp live
  cases ends : access.endsBlock with
  | true => rw [covers.values_eq agree ends]
  | false =>
    simp only [Access.values, ends, Bool.false_eq_true, if_false]
    refine assign_congr _ fun not_mem => ?_
    have same := agree temp (covers.others ends temp not_mem live)
    split
    · simp only [setGlobals, same]
    · exact same

theorem globals_agree (reads : access.readsGlobals = true) (effect : Effect W)
    (global : temp < temps.nbGlobals) :
    access.values temps outs effect values' temp = access.values temps outs effect values temp := by
  have same := agree temp (covers.globals reads temp global)
  have stored : assign (if access.writesGlobals then setGlobals temps values' effect.globals
        else values') outs effect.outs temp =
      assign (if access.writesGlobals then setGlobals temps values effect.globals
        else values) outs effect.outs temp := by
    refine assign_congr _ fun _ => ?_
    split
    · simp only [setGlobals, same]
    · exact same
  simp only [Access.values]
  split
  · simp only [endBlock, stored]
  · exact stored

end

end Covers

theorem covers_keepCall (temps : TCGTemps) (outs : List TCGArg) (ins : List (Option TCGArg))
    (flags : CallFlags) (op : Op) (dead : DeadTemps) :
    Covers temps flags.access outs ins
      (keepOp op outs ins (if flags.isConst then id else globalsLive temps) dead).dead dead where
  inputs _ mem := markInputs_of_mem _ mem
  globals reads temp global := by
    have not_const : flags.isConst = false := by simpa [access] using reads
    refine markInputs_of_live _ ?_
    simp [not_const, globalsLive, global]
  others _ temp not_mem live := by
    refine markInputs_of_live _ ?_
    have same := (markOutputs_of_notMem dead not_mem).trans live
    cases flags.isConst <;> simp [globalsLive, same]
  block ends := by simp [access] at ends

theorem covers_keepGeneric (temps : TCGTemps) (opc : TCGOpcode) (outs : List TCGArg)
    (ins : List (Option TCGArg)) (op : Op) (dead : DeadTemps) :
    Covers temps (tcgOpDefs opc).access outs ins
      (keepOp op outs ins (flagsLive temps (tcgOpDefs opc)) dead).dead dead where
  inputs _ mem := markInputs_of_mem _ mem
  globals reads temp global := by
    refine markInputs_of_live _ ?_
    unfold flagsLive
    cases ends : (tcgOpDefs opc).bbEnd with
    | true => simpa using tcgLaBbEnd_eq_false.mpr (TCGTemps.survives_of_global global)
    | false =>
      have clobber : (tcgOpDefs opc).callClobber = true := by
        simpa [TCGOpDef.access, ends] using reads
      simp [clobber, globalsLive, global]
  others ends temp not_mem live := by
    refine markInputs_of_live _ ?_
    have same := (markOutputs_of_notMem dead not_mem).trans live
    have no_end : (tcgOpDefs opc).bbEnd = false := ends
    simp only [flagsLive, no_end, Bool.false_eq_true, if_false]
    split
    · simp only [globalsLive, same, ite_self]
    · exact same
  block ends temp survives := by
    refine markInputs_of_live _ ?_
    have bb_end : (tcgOpDefs opc).bbEnd = true := ends
    simpa [flagsLive, bb_end] using tcgLaBbEnd_eq_false.mpr survives

/-! ## The analysed list -/

theorem getElem?_tcgLivenessAnalysis (ops : List Op) (pc : Nat) :
    (tcgLivenessAnalysis temps ops)[pc]? = ops[pc]?.map fun op =>
      let analysed := analyseOp temps op (deadBefore temps (ops.drop (pc + 1)))
      (analysed.op, analysed.deadArgs) := by
  induction ops generalizing pc with
  | nil => rfl
  | cons op ops ih =>
    cases pc with
    | zero => rfl
    | succ pc => simpa [tcgLivenessAnalysis] using ih pc

theorem getElem?_livenessOps (found : ops[pc]? = some op) :
    (livenessOps temps ops)[pc]? =
      some (analyseOp temps op (deadBefore temps (ops.drop (pc + 1)))).op := by
  simp [livenessOps, getElem?_tcgLivenessAnalysis, found]

theorem deadBefore_drop (found : ops[pc]? = some op) :
    deadBefore temps (ops.drop pc) =
      (analyseOp temps op (deadBefore temps (ops.drop (pc + 1)))).dead := by
  obtain ⟨in_range, rfl⟩ := List.getElem?_eq_some_iff.mp found
  rw [drop_eq_getElem_cons in_range, deadBefore]

theorem isLabel_tcgSetNop (label nbArgs : Nat) : isLabel label (tcgSetNop nbArgs) = false := by
  unfold tcgSetNop
  split <;> rfl

theorem isLabel_analyseOp (label : TCGArg) (op : Op) (dead : DeadTemps) :
    isLabel label (analyseOp temps op dead).op = isLabel label op := by
  cases op with
  | call outs ins flags =>
    simp only [analyseOp, analyseCall]
    split <;> rfl
  | generic opc outs ins cargs =>
    simp only [analyseOp, analyseGeneric]
    split
    · exact (isLabel_tcgSetNop label _).trans rfl
    · rfl
  | _ => rfl

theorem labelIndex_livenessOps (ops : List Op) (label : TCGArg) :
    labelIndex (livenessOps temps ops) label = labelIndex ops label := by
  unfold labelIndex livenessOps
  induction ops with
  | nil => rfl
  | cons op ops ih =>
    simp only [tcgLivenessAnalysis, map_cons, findIdx?_cons, isLabel_analyseOp, ih]

/-! ## Lockstep -/

def Op.endsBlock : Op → Bool
  | .setLabel _ => true
  | .generic opc _ _ _ => (tcgOpDefs opc).bbEnd
  | _ => false

/-- The op just before `pc` ends a basic block. -/
def AfterBlock (ops : List Op) (pc : Nat) : Prop :=
  ∃ previous op, pc = previous + 1 ∧ ops[previous]? = some op ∧ op.endsBlock = true

theorem not_afterBlock (found : ops[pc]? = some op) (no_end : op.endsBlock = false) :
    ¬AfterBlock ops (pc + 1) := by
  rintro ⟨previous, op', pc_eq, found', ends⟩
  obtain rfl : previous = pc := by omega
  rw [found] at found'
  cases found'
  simp [no_end] at ends

/-- The run has left the list by an op, or has reached its end right after a basic block. -/
def LeftBlock (ops : List Op) (state : ExecState W) : Prop :=
  state.status = .exited ∨ state.status = .ranOff ∧ AfterBlock ops state.pc

/-- A run of the original list and a run of the analysed one after the same number of steps. -/
structure Lockstep (temps : TCGTemps) (ops : List Op) (state state' : ExecState W) : Prop where
  pc : state'.pc = state.pc
  status : state'.status = state.status
  world : state'.world = state.world
  trace : state'.trace = state.trace
  live : state.status = .running →
    AgreeOn (deadBefore temps (ops.drop state.pc)) state.values state'.values
  block : state.status = .running → AfterBlock ops state.pc → state'.values = state.values
  left : LeftBlock ops state → ∀ temp, temp < temps.nbGlobals →
    state'.values temp = state.values temp

theorem Lockstep.refl (ops : List Op) (state : ExecState W) : Lockstep temps ops state state where
  pc := rfl
  status := rfl
  world := rfl
  trace := rfl
  live _ _ _ := rfl
  block _ _ := rfl
  left _ _ _ := rfl

theorem Lockstep.advance (found : ops[state.pc]? = some op) (running : state.status = .running)
    (pc : state'.pc = state.pc) (status : state'.status = state.status)
    (world : state'.world = state.world) (trace : state'.trace = state.trace)
    (live : AgreeOn (deadBefore temps (ops.drop (state.pc + 1))) state.values state'.values)
    (block : op.endsBlock = true → state'.values = state.values) :
    Lockstep temps ops state.advance state'.advance where
  pc := by simp [ExecState.advance, pc]
  status := status
  world := world
  trace := trace
  live _ := live
  block _ after := by
    cases ends : op.endsBlock with
    | true => exact block ends
    | false => exact absurd after (not_afterBlock found ends)
  left left := by
    rcases left with exited | ⟨ranOff, -⟩
    · simp [ExecState.advance, running] at exited
    · simp [ExecState.advance, running] at ranOff

theorem Action.readsGlobals_of_next {action : Action} {next : Next}
    (leaves : action.access.next next ≠ .fallThrough) : action.access.readsGlobals = true := by
  cases action with
  | op opc cargs =>
    cases ends : (tcgOpDefs opc).bbEnd <;> cases clobber : (tcgOpDefs opc).callClobber <;>
      simp_all [access, Access.next, TCGOpDef.access]
  | call flags =>
    cases const : flags.isConst <;> simp_all [access, Access.next, CallFlags.access]

theorem Access.endsBlock_of_goto {access : Access} {next : Next} {label : TCGArg}
    (jumps : access.next next = .goto label) : access.endsBlock = true := by
  unfold Access.next at jumps
  split at jumps
  · assumption
  · split at jumps <;> cases jumps

section

variable {action : Action} (together : Lockstep temps ops state state')
  (running : state.status = .running) (found : ops[state.pc]? = some op)
  (same_end : op.endsBlock = action.access.endsBlock)

include together running found same_end

/-- The original run performs an op whose results are dead, the analysed run a nop. -/
theorem Lockstep.removed (no_effect : action.access.effects = false)
    (no_write : action.access.writesGlobals = false) (no_end : action.access.endsBlock = false)
    (unchanged : deadBefore temps (ops.drop state.pc) = deadBefore temps (ops.drop (state.pc + 1)))
    (results_dead : outs.all (deadBefore temps (ops.drop (state.pc + 1))) = true)
    (defined : (performOp temps semantics ops action outs ins state).status ≠ .undefined) :
    Lockstep temps ops (performOp temps semantics ops action outs ins state)
      state'.advance := by
  have agree := together.live running
  have next_eq : ∀ next, action.access.next next = .fallThrough := by
    simp [Access.next, no_end, no_write]
  obtain ⟨args, effect, -, -, performs⟩ := performOp_defined defined
  rw [performs, next_eq]
  refine advance found running together.pc together.status ?_ ?_ ?_ ?_
  · simp [apply, no_effect, together.world]
  · simp [apply, no_effect, together.trace]
  · intro temp live
    have not_mem : temp ∉ outs := by
      intro mem
      have dead := all_eq_true.mp results_dead temp mem
      have live' : deadBefore temps (ops.drop (state.pc + 1)) temp = false := live
      simp [live'] at dead
    simp only [apply, Access.values, no_end, no_write, Bool.false_eq_true, if_false]
    rw [assign_of_notMem _ _ not_mem]
    exact agree temp (unchanged ▸ live)
  · intro ends
    simp [same_end, no_end] at ends

variable (covers : Covers temps action.access outs ins (deadBefore temps (ops.drop state.pc))
  (deadBefore temps (ops.drop (state.pc + 1))))

include covers

theorem Lockstep.follow (effect : Effect W) (args : List (Option TCGArg))
    (defined : ((state.apply temps action outs args effect).follow ops
      (action.access.next effect.next)).status ≠ .undefined) :
    Lockstep temps ops
      ((state.apply temps action outs args effect).follow ops (action.access.next effect.next))
      ((state'.apply temps action outs args effect).follow (livenessOps temps ops)
        (action.access.next effect.next)) := by
  have agree := together.live running
  have same_world : (state'.apply temps action outs args effect).world =
      (state.apply temps action outs args effect).world := by
    simp [apply, together.world]
  have same_trace : (state'.apply temps action outs args effect).trace =
      (state.apply temps action outs args effect).trace := by
    simp [apply, together.trace]
  cases next : action.access.next effect.next with
  | fallThrough =>
    refine advance found running together.pc together.status same_world same_trace
      (covers.values_agree agree effect) fun ends => ?_
    exact covers.values_eq agree (same_end ▸ ends) effect
  | exit =>
    have reads := Action.readsGlobals_of_next (by rw [next]; simp : action.access.next
      effect.next ≠ .fallThrough)
    exact
      { pc := together.pc
        status := rfl
        world := same_world
        trace := same_trace
        live := nofun
        block := nofun
        left := fun _ _ global => covers.globals_agree agree reads effect global }
  | goto label =>
    have same := covers.values_eq agree (endsBlock_of_goto next) effect
    rw [next] at defined
    simp only [ExecState.follow, labelIndex_livenessOps] at defined ⊢
    cases target : labelIndex ops label with
    | none => simp [target, fail] at defined
    | some index =>
      have same_status := together.status
      exact
        { pc := rfl
          status := same_status
          world := same_world
          trace := same_trace
          live := fun _ temp _ => congrFun same temp
          block := fun _ _ => same
          left := fun _ temp _ => congrFun same temp }

theorem Lockstep.performOp
    (defined : (performOp temps semantics ops action outs ins state).status ≠ .undefined) :
    Lockstep temps ops (performOp temps semantics ops action outs ins state)
      (performOp temps semantics (livenessOps temps ops) action outs ins state') := by
  have agree := together.live running
  obtain ⟨args, effect, read, performed, performs⟩ := performOp_defined defined
  have performs' : Tcg.performOp temps semantics (livenessOps temps ops) action outs ins state' =
      (state'.apply temps action outs args effect).follow (livenessOps temps ops)
        (action.access.next effect.next) := by
    unfold Tcg.performOp
    rw [readArgs_congr fun temp mem => agree temp (covers.inputs temp mem),
      covers.visible_eq agree, together.world]
    simp only [read, performed]
  rw [performs, performs']
  exact together.follow running found same_end covers effect args (performs ▸ defined)

end

theorem execOp_tcgSetNop (ops : List Op) (nbArgs : Nat) (state : ExecState W) :
    execOp temps semantics ops (tcgSetNop nbArgs) state = state.advance := by
  unfold tcgSetNop
  split <;> rfl

/-- One op of the list and what the analysis made of it keep the runs in lockstep. -/
theorem Lockstep.execOp (together : Lockstep temps ops state state')
    (running : state.status = .running) (found : ops[state.pc]? = some op)
    (defined : (execOp temps semantics ops op state).status ≠ .undefined) :
    Lockstep temps ops (execOp temps semantics ops op state)
      (execOp temps semantics (livenessOps temps ops)
        (analyseOp temps op (deadBefore temps (ops.drop (state.pc + 1)))).op state') := by
  have agree := together.live running
  have before : deadBefore temps (ops.drop state.pc) = _ := deadBefore_drop found
  cases op with
  | call outs ins flags =>
    simp only [analyseOp, analyseCall] at before ⊢
    split at before
    · next removable =>
      obtain ⟨is_pure, results_dead⟩ := Bool.and_eq_true_iff.mp removable
      rw [if_pos removable, execOp_tcgSetNop]
      exact together.removed running found rfl
        (by simp [Action.access, access, is_pure])
        (by simp [Action.access, access, is_pure]) rfl before results_dead defined
    · next kept =>
      rw [if_neg kept]
      refine together.performOp running found rfl ?_ defined
      rw [before]
      exact covers_keepCall temps outs ins flags _ _
  | generic opc outs ins cargs =>
    simp only [analyseOp, analyseGeneric] at before ⊢
    split at before
    · next removable =>
      obtain ⟨silent, results_dead⟩ := Bool.and_eq_true_iff.mp removable
      have no_effect : (tcgOpDefs opc).sideEffects = false := by
        simpa using (Bool.and_eq_true_iff.mp silent).1
      obtain ⟨no_end, no_clobber⟩ := tcgOpDefs_of_no_sideEffects no_effect
      rw [if_pos removable, execOp_tcgSetNop]
      exact together.removed running found rfl no_effect
        (by simp [Action.access, TCGOpDef.access, no_clobber]) no_end before results_dead defined
    · next kept =>
      rw [if_neg kept]
      refine together.performOp running found rfl ?_ defined
      rw [before]
      exact covers_keepGeneric temps opc outs _ _ _
  | setLabel label =>
    rw [before] at agree
    have same := endBlock_congr agree
    exact advance found running together.pc together.status together.world
      together.trace (fun temp _ => congrFun same temp) fun _ => same
  | discard temp =>
    refine advance found running together.pc together.status together.world
      together.trace (fun other live => ?_) nofun
    by_cases same : other = temp
    · simp [same]
    · have live' : deadBefore temps (ops.drop state.pc) other = false := by
        rw [before]
        exact (update_of_ne same _ _).trans live
      simpa [update_of_ne same] using agree other live'
  | stop =>
    exact
      { pc := together.pc
        status := rfl
        world := together.world
        trace := together.trace
        live := nofun
        block := nofun
        left := fun left temp _ => by
          rcases left with exited | ⟨-, after⟩
          · cases exited
          · exact congrFun (together.block running after) temp }
  | debugInsnStart _ | nop _ | nopn _ =>
    rw [before] at agree
    exact advance found running together.pc together.status together.world
      together.trace agree nofun

theorem step_of_ended {state : ExecState W} (ended : state.status ≠ .running) :
    step temps semantics ops state = state := by
  unfold step
  split <;> simp_all

theorem Lockstep.step (together : Lockstep temps ops state state')
    (defined : (Tcg.step temps semantics ops state).status ≠ .undefined) :
    Lockstep temps ops (Tcg.step temps semantics ops state)
      (Tcg.step temps semantics (livenessOps temps ops) state') := by
  by_cases running : state.status = .running
  · cases found : ops[state.pc]? with
    | none => simp [Tcg.step, running, found, fail] at defined
    | some op =>
      have same : (livenessOps temps ops)[state.pc]? = _ := getElem?_livenessOps found
      simp only [Tcg.step, running, found, together.status, together.pc, same] at defined ⊢
      exact together.execOp running found defined
  · rw [step_of_ended running, step_of_ended (together.status ▸ running)]
    exact together

/-- The two runs stay in lockstep as long as the original one is defined. -/
theorem lockstep_runOps (start : ExecState W) (count : Nat)
    (defined : (runOps temps semantics ops count start).status ≠ .undefined) :
    Lockstep temps ops (runOps temps semantics ops count start)
      (runOps temps semantics (livenessOps temps ops) count start) := by
  induction count with
  | zero => exact Lockstep.refl ops start
  | succ count ih =>
    refine (ih fun undefined => ?_).step defined
    rw [runOps, step_of_ended (by simp [undefined])] at defined
    exact defined undefined

end Qemu.Tcg
