import Qemu.Tcg.RunOp

/-!
# Code for one op

The dead bits that the analysis leaves allow exactly what the allocator does with them.  From this
follow, for every kind of op, the invariants of the allocator's state after the op and the effect of
its code.
-/

namespace Qemu.Tcg

open TCGContext Function List ExecState Bool Op Host

variable {W : Type} {target : Target} {config : TCGTemps} {layout : Layout target config}
variable {cargs outs ins : List TCGArg} {temp : TCGArg} {opc : TCGOpcode} {s s' : TCGContext}
  {host : Host W}

/-! ## Dead bits -/

section

variable {op : Op} {outs : List TCGArg} {ins : List (Option TCGArg)} {after : DeadTemps}
  {globals : DeadTemps → DeadTemps}

theorem getElem?_markOutputs {dead : DeadTemps} (nodup : outs.Nodup) {i : Nat} {out : TCGArg}
    (found : outs[i]? = some out) : (markOutputs dead outs).1[i]? = some (dead out) := by
  induction outs generalizing dead i with
  | nil => simp at found
  | cons first rest ih =>
    obtain ⟨not_mem, rest_nodup⟩ := nodup_cons.mp nodup
    cases i with
    | zero =>
      obtain rfl : first = out := by simpa using found
      rfl
    | succ i =>
      have tail : rest[i]? = some out := by simpa using found
      have ne : out ≠ first := fun same => not_mem (same ▸ mem_of_getElem? tail)
      have marked : (markOutputs (update dead first true) rest).1[i]? = _ :=
        ih rest_nodup tail
      rwa [update_of_ne ne] at marked

theorem isDeadArg_of_live (nodup : outs.Nodup) {i : Nat} {out : TCGArg}
    (found : outs[i]? = some out) (live : after out = false) :
    isDeadArg (keepOp op outs ins globals after).deadArgs i = false := by
  obtain ⟨bound, -⟩ := List.getElem?_eq_some_iff.mp found
  simp only [isDeadArg, keepOp, getD_eq_getElem?_getD, getElem?_take]
  split
  · rw [getElem?_append_left (by rwa [length_markOutputs]), getElem?_markOutputs nodup found, live]
    rfl
  · rfl

theorem markInputs_once {dead : DeadTemps} {i j : Nat} (input : ins[i]? = some (some temp))
    (input' : ins[j]? = some (some temp)) (marked : (markInputs dead ins).1[i]? = some true)
    (marked' : (markInputs dead ins).1[j]? = some true) : i = j := by
  have first_only : ∀ {bits : DeadTemps} {rest : List (Option TCGArg)} {k : Nat},
      rest[k]? = some (some temp) →
      (markInputs (update bits temp false) rest).1[k]? = some true → False := by
    intro bits rest k found bit
    have still_dead := dead_of_markInputs found bit
    simp at still_dead
  induction ins generalizing dead i j with
  | nil => simp at input
  | cons arg rest ih =>
    cases i with
    | zero =>
      obtain rfl : arg = some temp := by simpa using input
      cases j with
      | zero => rfl
      | succ j => exact (first_only (by simpa using input') (by simpa [markInputs] using marked')).elim
    | succ i =>
      cases j with
      | zero =>
        obtain rfl : arg = some temp := by simpa using input'
        exact (first_only (by simpa using input) (by simpa [markInputs] using marked)).elim
      | succ j =>
        cases arg
        all_goals
          exact congrArg Nat.succ (ih input input' marked marked')

theorem flaggedOnce_keepOp :
    FlaggedOnce (keepOp op outs ins globals after).deadArgs outs.length ins :=
  fun _ _ _ input input' marked marked' =>
    markInputs_once input input' (inputBit_of_keepOp marked) (inputBit_of_keepOp marked')

theorem forgets_call (config : TCGTemps) (outs : List TCGArg) (ins : List (Option TCGArg))
    (flags : CallFlags) (op : Op) (after : DeadTemps) :
    Forgets config flags.access outs after (Forgotten config false
      (keepOp op outs ins (if flags.isConst then id else globalsLive config) after).deadArgs
      outs.length ins) where
  block ends := by simp [CallFlags.access] at ends
  others _ temp forgot not_out := by
    obtain ⟨index, found, marked⟩ := forgot
    have dead := dead_of_keepOp found marked
    rw [← markOutputs_of_notMem after not_out]
    split at dead
    · exact dead
    · exact dead_of_globalsLive dead
  globals reads temp global forgot := by
    obtain ⟨index, found, marked⟩ := forgot
    have dead := dead_of_keepOp found marked
    have not_const : flags.isConst = false := by simpa [CallFlags.access] using reads
    simp [not_const, globalsLive, global] at dead

theorem forgets_generic (config : TCGTemps) (opc : TCGOpcode) (outs : List TCGArg)
    (ins : List (Option TCGArg)) (op : Op) (after : DeadTemps) :
    Forgets config (tcgOpDefs opc).access outs after (Forgotten config (tcgOpDefs opc).bbEnd
      (keepOp op outs ins (flagsLive config (tcgOpDefs opc)) after).deadArgs outs.length ins) where
  block ends temp forgot := by
    have ends : (tcgOpDefs opc).bbEnd = true := ends
    rwa [Forgotten, if_pos ends] at forgot
  others ends temp forgot not_out := by
    have ends : (tcgOpDefs opc).bbEnd = false := ends
    rw [Forgotten, ends, if_neg Bool.false_ne_true] at forgot
    obtain ⟨index, found, marked⟩ := forgot
    have dead := dead_of_keepOp found marked
    rw [← markOutputs_of_notMem after not_out]
    simp only [flagsLive, ends, false_eq_true, if_false] at dead
    split at dead
    · exact dead_of_globalsLive dead
    · exact dead
  globals reads temp global forgot := by
    cases ends : (tcgOpDefs opc).bbEnd with
    | true =>
      rw [Forgotten, if_pos ends, Perishes, TCGTemps.survives_of_global global] at forgot
      cases forgot
    | false =>
      rw [Forgotten, ends, if_neg Bool.false_ne_true] at forgot
      obtain ⟨index, found, marked⟩ := forgot
      have dead := dead_of_keepOp found marked
      have clobber : (tcgOpDefs opc).callClobber = true := by
        simpa [TCGOpDef.access, ends] using reads
      simp [flagsLive, ends, clobber, globalsLive, global] at dead

end

/-! ## Well-formed ops -/

/-- The constraint table of every op is one the allocator can work with. -/
def Target.Valid (target : Target) : Prop :=
  ∀ opc, (target.constraints opc).Valid (tcgOpDefs opc).nbOargs (tcgOpDefs opc).nbIargs

/-- The op has the arguments of its definition and different outputs. -/
def Op.WellFormed (target : Target) : Op → Prop
  | .generic opc outs ins cargs =>
    outs.length = (tcgOpDefs opc).nbOargs ∧ ins.length = (tcgOpDefs opc).nbIargs ∧
      cargs.length = (tcgOpDefs opc).nbCargs ∧ outs.Nodup
  | .call outs _ _ => outs.Nodup ∧ outs.length ≤ target.callOargRegs.length
  | _ => True

/-- Variables written by the ops up to here and not discarded since. -/
def Op.settle (op : Op) (known : TCGArg → Bool) : TCGArg → Bool :=
  match op with
  | .discard temp => Function.update known temp false
  | op => fun temp => known temp || decide (temp ∈ op.outs)

/-- Local temporaries that have been written and may still be read. -/
def Needed (config : TCGTemps) (known : TCGArg → Bool) (dead : DeadTemps) (temp : TCGArg) : Prop :=
  config.tempLocal temp = true ∧ known temp = true ∧ dead temp = false

/-- The op leaves the globals where other code expects them. -/
def Op.savesGlobals : Op → Bool
  | .call _ _ flags => !flags.isConst
  | .setLabel _ => true
  | .generic opc _ _ _ => (tcgOpDefs opc).bbEnd || (tcgOpDefs opc).callClobber
  | _ => false

/-! ## What is to be shown for an op -/

section

variable (layout : Layout target config) (ops : List Op) (final : TCGContext) (after : DeadTemps)
  (s' : TCGContext) (state state' : ExecState W) (host : Host W)

/-- Where the host is after the code of an op, given where control goes. -/
def Arrives : Next → Prop
  | .fallThrough => state'.status = .running ∧ state'.pc = state.pc + 1 ∧
      Matches final (fun temp => after temp = false) state'.values s' host
  | .exit => state'.status = .exited ∧ state'.pc = state.pc
  | .goto label => ∃ index, labelIndex ops label = some index ∧ state'.status = .running ∧
      state'.pc = index ∧ AtHome layout final state'.values host ∧
      ∀ temp, state'.values temp ≠ none → config.survives temp = true

/-- The code of the op takes the host where the op takes the list. -/
structure OpRuns (semantics : Semantics W) (junk : Host W → Reg → TCGArg) (op : Op) : Prop where
  ran : ∃ host' next, (layout.machine semantics junk).runCode s'.code host = some (host', next) ∧
    host'.world = state'.world ∧ host'.trace = state'.trace ∧
    Arrives layout ops final after s' state state' host' next
  saved : op.savesGlobals = true → ∀ temp value, temp < config.nbGlobals →
    state.values temp = some value →
    (host.beforeInstr s'.code).global (layout.globals temp) = value

end

/-- The op at hand has been translated: `op` is the original, `analysed` what the analysis made
of it. -/
structure OpDone (W : Type) (layout : Layout target config) (known : TCGArg → Bool)
    (op analysed : Op) (before after : DeadTemps) (s s' : TCGContext) : Prop where
  inv : AllocInv layout s'
  grows : Extends s s'
  backed : Backed (Needed config (op.settle known) after) s'
  runs : analysed ≠ .stop → ∀ (semantics : Semantics W) (junk : Host W → Reg → TCGArg)
    (ops : List Op) (final : TCGContext) (state : ExecState W) (host : Host W), semantics.Lawful →
    AllocInv layout final → Extends s' final →
    Matches final (fun temp => before temp = false) state.values s host →
    host.world = state.world → host.trace = state.trace → state.status = .running →
    (execOp config semantics ops analysed state).status ≠ .undefined →
    OpRuns layout ops final after s' state (execOp config semantics ops analysed state) host
      semantics junk analysed

/-- Any host will do where only the allocator's state matters. -/
def Host.blank : Host Unit := ⟨fun _ => 0, fun _ => 0, (), []⟩

theorem backed_of_steps {dead needed needed' : TCGArg → Prop} {kept : Kept} {host' : Host W}
    (steps : AllocSteps layout dead kept s host s' host') (inv : AllocInv layout s)
    (backed : Backed needed s)
    (keeps : ∀ temp, needed' temp → needed temp ∧ ¬dead temp ∨
      (s'.temps temp).valType = .reg ∨ (s'.temps temp).valType = .const) :
    Backed needed' s' := by
  have old : Backed (fun temp => needed temp ∧ ¬dead temp) s' :=
    steps.backed inv (fun _ needs => needs.2) fun temp needs => backed temp needs.1
  intro temp needs
  rcases keeps temp needs with kept | here | there
  · exact old temp kept
  · simp [here]
  · simp [there]

theorem Placed.valType {temp value : TCGArg} (placed : Placed s host temp value) :
    (s.temps temp).valType = .reg ∨ (s.temps temp).valType = .const := by
  cases placed with
  | reg here => exact .inl here
  | const there => exact .inr there

/-! ## Ops with an instruction -/

section

variable {action : Action} {forgotten : TCGArg → Prop} {outs : List TCGArg}
  {ins : List (Option TCGArg)} {deadArgs : DeadArgs} {known : TCGArg → Bool} {op : Op}
  {before after : DeadTemps}

theorem settle_of_outs (same : op.outs = outs) (not_discard : ∀ temp, op ≠ .discard temp) :
    op.settle known temp = (known temp || decide (temp ∈ outs)) := by
  subst same
  cases op with
  | discard temp => exact absurd rfl (not_discard temp)
  | _ => rfl

theorem static_of_instructs
    (instructs : Instructs Unit layout action forgotten outs ins deadArgs s s')
    (inv : AllocInv layout s)
    (accounts : Accounts config action forgotten outs ins deadArgs before after)
    (backed : Backed (Needed config known before) s) :
    AllocInv layout s' ∧ Extends s s' ∧
      Backed (Needed config (fun temp => known temp || decide (temp ∈ outs)) after) s' := by
  obtain ⟨outRegs, operands, middle, ready, finishes⟩ := instructs
  obtain ⟨host₁, ready⟩ := ready blank
  obtain ⟨host₂, steps, placed⟩ := finishes host₁
  have middle_inv := (ready.steps.inv inv).emit (.op action outRegs operands)
  refine ⟨steps.inv middle_inv, ready.steps.extends_state.trans steps.extends_state, ?_⟩
  have middle_backed : Backed (fun temp => Needed config known before temp ∧
      ¬(forgotten temp ∨ temp ∈ outs)) (middle.emit (.op action outRegs operands)) :=
    ready.steps.backed inv (fun _ needs => needs.2) fun temp needs => backed temp needs.1
  refine backed_of_steps steps middle_inv middle_backed fun temp needs => ?_
  obtain ⟨is_local, is_known, live⟩ := needs
  by_cases mem : temp ∈ outs
  · right
    obtain ⟨i, found⟩ := mem_iff_getElem?.mp mem
    have reg_lt : i < outRegs.length := by
      obtain ⟨out_lt, -⟩ := List.getElem?_eq_some_iff.mp found
      rwa [← ready.receives.length_eq]
    exact (placed i temp _ found (getElem?_eq_getElem reg_lt)
      (accounts.live_outs i temp found live)).valType
  · left
    have survives : config.survives temp = true := by simp [TCGTemps.survives, is_local]
    have was_live : before temp = false ∧ ¬forgotten temp := by
      refine accounts.keeps mem ?_
      split
      · exact survives
      · exact live
    exact ⟨⟨⟨is_local, by simpa [mem] using is_known, was_live.1⟩,
      fun dropped => dropped.elim was_live.2 mem⟩, mem⟩

theorem endBlock_survives {values : Values} (has_value : endBlock config values temp ≠ none) :
    config.survives temp = true := by
  by_contra perishes
  simp [endBlock, perishes] at has_value

theorem follow_kept (ops : List Op) (state : ExecState W) (next : Next) :
    (state.follow ops next).world = state.world ∧ (state.follow ops next).trace = state.trace := by
  cases next with
  | goto label =>
    simp only [follow]
    split <;> exact ⟨rfl, rfl⟩
  | _ => exact ⟨rfl, rfl⟩

theorem runs_of_instructs {semantics : Semantics W} (lawful : semantics.Lawful)
    (junk : Host W → Reg → TCGArg) (ops : List Op) {final : TCGContext} {state : ExecState W}
    (fresh : s.code = []) (instructs : Instructs W layout action forgotten outs ins deadArgs s s')
    (inv : AllocInv layout s) (final_inv : AllocInv layout final) (whole : Extends s' final)
    (accounts : Accounts config action forgotten outs ins deadArgs before after)
    (matched : Matches final (fun temp => before temp = false) state.values s host)
    (same_world : host.world = state.world) (same_trace : host.trace = state.trace)
    (running : state.status = .running) (saves : op.savesGlobals = action.access.readsGlobals)
    (defined : (performOp config semantics ops action outs ins state).status ≠ .undefined) :
    OpRuns layout ops final after s' state (performOp config semantics ops action outs ins state)
      host semantics junk op := by
  obtain ⟨args, effect, read, performed, performs⟩ := performOp_defined defined
  rw [performs] at defined ⊢
  obtain ⟨host', ran, world, trace, falls, leaves, at_home⟩ := run_instructs lawful junk
    fresh instructs inv final_inv whole accounts matched read (same_world ▸ performed)
  refine ⟨⟨host', action.access.next effect.next, ran, ?_, ?_, ?_⟩,
    fun saved => at_home (saves ▸ saved)⟩
  · rw [(follow_kept ..).1, world, same_world, apply]
  · rw [(follow_kept ..).2, trace, same_trace, apply]
  · cases next : action.access.next effect.next with
    | fallThrough => exact ⟨running, rfl, falls next⟩
    | exit => exact ⟨rfl, rfl⟩
    | goto label =>
      have ends := Access.endsBlock_of_goto next
      simp only [next, follow] at defined
      cases labelled : labelIndex ops label with
      | none => simp [labelled, fail] at defined
      | some index =>
        simp only [follow, labelled]
        refine ⟨index, labelled, running, rfl, leaves (by simp [next]) ends, ?_⟩
        intro temp has_value
        simp only [apply, Access.values, ends, if_true] at has_value
        exact endBlock_survives has_value

theorem done_of_instructs (fresh : s.code = []) (inv : AllocInv layout s)
    (instructs : ∀ W, Instructs W layout action forgotten outs ins deadArgs s s')
    (accounts : Accounts config action forgotten outs ins deadArgs before after)
    (backed : Backed (Needed config known before) s) (same_outs : op.outs = outs)
    (not_discard : ∀ temp, op ≠ .discard temp)
    (saves : op.savesGlobals = action.access.readsGlobals)
    (performs : ∀ (semantics : Semantics W) (ops : List Op) (state : ExecState W),
      execOp config semantics ops op state = performOp config semantics ops action outs ins state) :
    OpDone W layout known op op before after s s' := by
  obtain ⟨inv', grows, backed'⟩ :=
    static_of_instructs (instructs Unit) inv accounts backed
  refine ⟨inv', grows, fun temp needs => backed' temp ?_, ?_⟩
  · rwa [Needed, settle_of_outs same_outs not_discard] at needs
  · intro _ semantics junk ops final state host lawful final_inv whole matched world trace running
      defined
    rw [performs] at defined ⊢
    exact runs_of_instructs lawful junk ops fresh (instructs W) inv final_inv whole accounts
      matched world trace running saves defined

end

/-! ## Ops without an instruction -/

section

variable {known : TCGArg → Bool} {op : Op} {before after : DeadTemps} {dead : TCGArg → Prop}

theorem runs_of_steps {kept : Kept} {host' : Host W} (semantics : Semantics W)
    (junk : Host W → Reg → TCGArg) (ops : List Op) {final : TCGContext} {state state' : ExecState W}
    (fresh : s.code = []) (steps : AllocSteps layout dead kept s host s' host')
    (matched : Matches final (fun temp => after temp = false) state'.values s' host')
    (world : host.world = state'.world) (trace : host.trace = state'.trace)
    (running : state'.status = .running) (next_pc : state'.pc = state.pc + 1)
    (saved : op.savesGlobals = true → ∀ temp value, temp < config.nbGlobals →
      state.values temp = some value →
      (host.beforeInstr s'.code).global (layout.globals temp) = value) :
    OpRuns layout ops final after s' state state' host semantics junk op := by
  obtain ⟨same_world, same_trace⟩ := steps.world
  exact ⟨⟨host', .fallThrough, runCode_of_steps _ fresh steps, same_world.trans world,
    same_trace.trans trace, running, next_pc, matched⟩, saved⟩

theorem beforeInstr_of_steps {kept : Kept} {host' : Host W} (fresh : s.code = [])
    (steps : AllocSteps layout dead kept s host s' host') : host.beforeInstr s'.code = host' := by
  obtain ⟨code, emits⟩ := steps.emits
  rw [beforeInstr, emits.appended, fresh, nil_append, emits.effect,
    takeWhile_eq_self_iff.mpr emits.moves]

variable (fresh : s.code = []) (inv : AllocInv layout s)

include fresh inv

/-- An op that leaves the variables and the allocator alone. -/
theorem done_of_skip {analysed : Op}
    (backed : Backed (Needed config known before) s)
    (keeps : ∀ temp, after temp = false → op.settle known temp = true → known temp = true)
    (live : ∀ temp, after temp = false → before temp = false)
    (no_save : analysed.savesGlobals = false)
    (skips : analysed ≠ .stop → ∀ (semantics : Semantics W) (ops : List Op) (state : ExecState W),
      execOp config semantics ops analysed state = state.advance) :
    OpDone W layout known op analysed before after s s := by
  refine ⟨inv, Extends.refl s, fun temp needs => backed temp ⟨needs.1, keeps temp needs.2.2 needs.2.1,
    live temp needs.2.2⟩, ?_⟩
  intro not_stop semantics junk ops final state host _ _ _ matched world trace running _
  rw [skips not_stop]
  have nothing : AllocSteps layout (fun _ => False) Kept.nothing s host s host := .refl s host
  exact runs_of_steps semantics junk ops fresh nothing
    (fun temp is_live => matched temp (live temp is_live)) world trace running rfl
    (by simp [no_save])

theorem done_of_discard (backed : Backed (Needed config known (update after temp true)) s)
    (run : genOp target config (.discard temp) [] s = (.ok (), s')) :
    OpDone W layout known (.discard temp) (.discard temp) (update after temp true) after s
      s' := by
  have live : ∀ other, other ≠ temp → after other = false →
      update after temp true other = false :=
    fun other ne is_live => (update_of_ne ne _ _).trans is_live
  have steps : ∀ {W : Type} (host : Host W),
      AllocSteps layout (· = temp) Kept.nothing s host s' host := by
    intro W host
    have same : (if (s.temps temp).fixedReg then s else s.markDead temp) = s' :=
      (Prod.mk.inj run).2
    subst same
    split
    · exact .refl s host
    · next flag => exact .single (.drop rfl (inv.not_fixed (by simpa using flag)))
  have keeps : ∀ other, Needed config (settle (.discard temp) known) after other →
      Needed config known (update after temp true) other ∧ other ≠ temp := by
    rintro other ⟨is_local, is_known, is_live⟩
    have ne : other ≠ temp := by
      rintro rfl
      simp [settle] at is_known
    exact ⟨⟨is_local, by simpa [settle, ne] using is_known, live other ne is_live⟩, ne⟩
  refine ⟨(steps blank).inv inv, (steps blank).extends_state,
    backed_of_steps (steps blank) inv backed fun other needs => .inl (keeps other needs), ?_⟩
  intro _ semantics junk ops final state host _ final_inv whole matched world trace running _
  refine runs_of_steps semantics junk ops fresh (steps host) ?_ world trace running rfl
    (by simp [savesGlobals])
  intro other is_live value has_value
  have ne : other ≠ temp := by
    rintro rfl
    simp [execOp, advance] at has_value
  have old_value : state.values other = some value :=
    (update_of_ne ne _ _).symm.trans has_value
  exact (steps host).holds_of_holds inv final_inv whole ne
    (matched other (live other ne is_live) value old_value)

theorem done_of_setLabel {label : TCGArg}
    (backed : Backed (Needed config known (tcgLaBbEnd config)) s)
    (run : genOp target config (.setLabel label) [] s = (.ok (), s')) :
    OpDone W layout known (.setLabel label) (.setLabel label) (tcgLaBbEnd config) after s s' ∧
      AtBlockEnd layout s' := by
  obtain ⟨_, middle, ended, labelled⟩ := Prog.bind_eq_ok.mp run
  obtain rfl := (Prod.mk.inj labelled).2
  have steps : ∀ {W : Type} (host : Host W), ∃ host', AllocSteps layout (Perishes config)
      Kept.nothing s host (middle.emit (.label label)) host' ∧
      AtBlockEnd layout (middle.emit (.label label)) := by
    intro W host
    obtain ⟨host', steps, block_end⟩ := tcgRegAllocBbEnd_steps Kept.nothing inv
      ⟨fun _ => id, fun _ keep => absurd keep false_ne_true⟩ ended host
    exact ⟨host', steps.tail (.label label), block_end⟩
  obtain ⟨blank, static_steps, block_end⟩ := steps blank
  refine ⟨⟨static_steps.inv inv, static_steps.extends_state, ?_, ?_⟩, block_end⟩
  · refine backed_of_steps static_steps inv backed fun temp needs => .inl ?_
    obtain ⟨is_local, is_known, -⟩ := needs
    have survives : config.survives temp = true := by simp [TCGTemps.survives, is_local]
    refine ⟨⟨is_local, by simpa [settle, outs] using is_known,
      tcgLaBbEnd_eq_false.mpr survives⟩, fun perishes => ?_⟩
    simp [show config.survives temp = false from perishes] at survives
  · intro _ semantics junk ops final state host _ final_inv whole matched world trace running _
    obtain ⟨host', run_steps, -⟩ := steps host
    have survivors : Matches final (fun temp => config.survives temp = true) state.values
        (middle.emit (.label label)) host' := by
      refine run_steps.matches_of_matches inv final_inv whole (fun temp survives perishes => ?_)
        fun temp survives => matched temp (tcgLaBbEnd_eq_false.mpr survives)
      simp [show config.survives temp = false from perishes] at survives
    have home := atHome_of_matches (run_steps.inv inv) block_end survivors
    refine runs_of_steps semantics junk ops fresh run_steps ?_ world trace running rfl ?_
    · intro temp _ value has_value
      have survives : config.survives temp = true := endBlock_survives (by
        rw [show endBlock config state.values temp = some value from has_value]
        simp)
      refine survivors temp survives value ?_
      have shown : endBlock config state.values temp = some value := has_value
      rwa [endBlock, if_pos survives] at shown
    · intro _ temp value global has_value
      rw [beforeInstr_of_steps fresh run_steps]
      obtain ⟨in_reg, in_mem⟩ :=
        home temp value (TCGTemps.survives_of_global global) has_value
      unfold Host.global
      split
      · next flag => exact in_reg ⟨global, flag⟩
      · next flag =>
        have unfixed : ¬layout.Fixed temp := fun fixed => flag fixed.2
        rw [← (final_inv.home temp global unfixed).2]
        exact (in_mem unfixed).2

/-- A move: the output gets the value that the op computes, the other live variables stay. -/
theorem done_of_move {out : TCGArg} (dead : TCGArg → Prop) (plain : (tcgOpDefs opc).sideEffects = false)
    (covers : Covers config (tcgOpDefs opc).access [out] (ins.map some) before after)
    (backed : Backed (Needed config known before) s)
    (kept_alive : ∀ temp, dead temp → temp ≠ out → after temp = true)
    (moves : ∀ {W : Type} (host : Host W), ∃ host' copied,
      AllocSteps layout dead Kept.nothing s host s' host' ∧ Placed s' host' out copied ∧
      ∀ final (values : Values) args globals world (semantics : Semantics W) effect,
        semantics.Lawful → Extends s final →
        Matches final (fun temp => before temp = false) values s host →
        readArgs values (ins.map some) = some args →
        semantics.perform (.op opc cargs) args globals world = some effect →
        effect.outs = [copied]) :
    OpDone W layout known (.generic opc [out] ins cargs) (.generic opc [out] ins cargs) before after
      s s' := by
  obtain ⟨no_end, no_clobber⟩ := tcgOpDefs_of_no_sideEffects plain
  have no_end_access : (tcgOpDefs opc).access.endsBlock = false := no_end
  have was_live : ∀ temp, temp ≠ out → after temp = false → before temp = false ∧ ¬dead temp := by
    intro temp ne live
    refine ⟨covers.others no_end_access temp (by simpa using ne) live, fun dropped => ?_⟩
    simp [kept_alive temp dropped ne] at live
  obtain ⟨blank, copied, static_steps, placed, -⟩ := moves blank
  refine ⟨static_steps.inv inv, static_steps.extends_state, ?_, ?_⟩
  · refine backed_of_steps static_steps inv backed fun temp needs => ?_
    obtain ⟨is_local, is_known, is_live⟩ := needs
    by_cases same : temp = out
    · exact .inr (same ▸ placed.valType)
    · obtain ⟨live, kept⟩ := was_live temp same is_live
      refine .inl ⟨⟨is_local, ?_, live⟩, kept⟩
      simpa [settle, outs, same] using is_known
  · intro _ semantics junk ops final state host lawful final_inv whole matched world trace running
      defined
    obtain ⟨host', copied, steps, placed, computes⟩ := moves host
    obtain ⟨args, effect, read, performed, performs⟩ := performOp_defined defined
    have result := computes final state.values args _ _ semantics effect lawful
      (steps.extends_state.trans whole) matched read performed
    have no_effects : (Action.op opc cargs).access.effects = false := plain
    have no_block : (Action.op opc cargs).access.endsBlock = false := no_end
    have no_writes : (Action.op opc cargs).access.writesGlobals = false := by
      simp [Action.access, TCGOpDef.access, no_clobber]
    have next : (Action.op opc cargs).access.next effect.next = .fallThrough := by
      simp [Access.next, no_block, no_writes]
    simp only [execOp, performs, next, follow]
    refine runs_of_steps semantics junk ops fresh steps ?_ ?_ ?_ running rfl ?_
    · intro temp is_live value has_value
      simp only [advance, apply, Access.values, no_block, no_writes,
        result, assign, false_eq_true, if_false] at has_value
      by_cases same : temp = out
      · subst same
        rw [update_self] at has_value
        exact Option.some.inj has_value ▸ placed.holds final
      · rw [update_of_ne same] at has_value
        obtain ⟨live, kept⟩ := was_live temp same is_live
        exact steps.holds_of_holds inv final_inv whole kept
          (matched temp live value has_value)
    · simp [advance, apply, no_effects, world]
    · simp [advance, apply, no_effects, trace]
    · simp [savesGlobals, no_end, no_clobber]

end

/-! ## Every op -/

section

variable {known : TCGArg → Bool} {after : DeadTemps}

theorem genOp_tcgSetNop (nbArgs : Nat) (deadArgs : DeadArgs) (s : TCGContext) :
    genOp target config (tcgSetNop nbArgs) deadArgs s = (.ok (), s) := by
  unfold tcgSetNop
  split <;> rfl

theorem genOp_call_eq_ok {ins : List (Option TCGArg)} {flags : CallFlags} {deadArgs : DeadArgs}
    (run : genOp target config (.call outs ins flags) deadArgs s = (.ok (), s')) :
    ∃ func, ins.dropLast ++ [some func] = ins ∧
      tcgRegAllocCall target config outs ins.dropLast func flags deadArgs s = (.ok (), s') := by
  cases last : ins.getLast? with
  | none =>
    simp only [genOp, last] at run
    simp at run
  | some func =>
    cases func with
    | none =>
      simp only [genOp, last] at run
      simp at run
    | some func =>
      simp only [genOp, last] at run
      exact ⟨func, dropLast_append_getLast? _ last, run⟩

theorem genOp_generic {deadArgs : DeadArgs} (not_mov : opc ≠ .movI32) (not_movi : opc ≠ .moviI32) :
    genOp target config (.generic opc outs ins cargs) deadArgs =
      tcgRegAllocOp target config opc outs ins cargs deadArgs := by
  cases opc <;> first | rfl | contradiction

variable (fresh : s.code = []) (inv : AllocInv layout s)

include fresh inv

theorem done_of_removed {op : Op} {nbArgs : Nat}
    (backed : Backed (Needed config known after) s) (same_outs : op.outs = outs)
    (not_discard : ∀ temp, op ≠ .discard temp) (unused : outs.all after = true) :
    OpDone W layout known op (tcgSetNop nbArgs) after after s s := by
  refine done_of_skip fresh inv backed (fun temp live is_known => ?_) (fun _ => id) ?_ ?_
  · have not_out : temp ∉ outs := fun mem => by
      simp [all_eq_true.mp unused temp mem] at live
    rw [settle_of_outs same_outs not_discard] at is_known
    simpa [not_out] using is_known
  · unfold tcgSetNop
    split <;> rfl
  · exact fun _ semantics ops state => execOp_tcgSetNop ops nbArgs state

theorem done_of_call {ins : List (Option TCGArg)} {flags : CallFlags}
    (formed : (call outs ins flags).WellFormed target)
    (reads_known : ∀ temp, some temp ∈ ins → config.nbGlobals ≤ temp →
      config.tempLocal temp = true → known temp = true)
    (backed : Backed (Needed config known (analyseCall config outs ins flags after).dead) s)
    (run : genOp target config (analyseCall config outs ins flags after).op
      (analyseCall config outs ins flags after).deadArgs s = (.ok (), s')) :
    OpDone W layout known (.call outs ins flags) (analyseCall config outs ins flags after).op
      (analyseCall config outs ins flags after).dead after s s' := by
  unfold analyseCall at backed run ⊢
  split at run
  · next removable =>
    simp only [if_pos removable] at backed run ⊢
    obtain ⟨-, rfl⟩ := Prog.ok_inj run
    exact done_of_removed fresh inv backed rfl (by simp) (and_eq_true_iff.mp removable).2
  · next kept =>
    simp only [if_neg kept] at backed run ⊢
    have covers := covers_keepCall config outs ins flags (.call outs ins flags) after
    have forgets := forgets_call config outs ins flags (.call outs ins flags) after
    obtain ⟨func, split_ins, call_run⟩ := genOp_call_eq_ok run
    set analysed := keepOp (.call outs ins flags) outs ins
      (if flags.isConst then id else globalsLive config) after
    have covered : ∀ temp, some temp ∈ ins.dropLast ++ [some func] →
        Covered config (Needed config known analysed.dead) temp := by
      rw [split_ins]
      exact fun temp mem not_global is_local => ⟨is_local, reads_known temp mem not_global is_local,
        covers.inputs temp mem⟩
    have instructs := fun W =>
      tcgRegAllocCall_ready (W := W) inv backed covered formed.1 formed.2 call_run
    rw [split_ins] at instructs
    exact done_of_instructs fresh inv instructs ⟨covers, forgets, formed.1,
      by simp [Action.access, CallFlags.access],
      fun i out found live => isDeadArg_of_live formed.1 found live⟩ backed rfl (by simp) rfl
      fun _ _ _ => rfl

theorem done_of_kept (valid : target.Valid)
    (formed : (generic opc outs ins cargs).WellFormed target)
    (reads_known : ∀ temp, temp ∈ ins → config.nbGlobals ≤ temp →
      config.tempLocal temp = true → known temp = true) {analysed : Analysed}
    (keeps : analysed = keepOp (.generic opc outs ins cargs) outs (ins.map some)
      (flagsLive config (tcgOpDefs opc)) after)
    (backed : Backed (Needed config known analysed.dead) s)
    (run : genOp target config (.generic opc outs ins cargs) analysed.deadArgs s = (.ok (), s')) :
    OpDone W layout known (.generic opc outs ins cargs) (.generic opc outs ins cargs) analysed.dead
      after s s' := by
  obtain ⟨nb_outs, nb_ins, nb_cargs, nodup⟩ := formed
  have covers : Covers config (tcgOpDefs opc).access outs (ins.map some) analysed.dead after :=
    keeps ▸ covers_keepGeneric config opc outs (ins.map some) (.generic opc outs ins cargs) after
  have forgets : Forgets config (tcgOpDefs opc).access outs after
      (Forgotten config (tcgOpDefs opc).bbEnd analysed.deadArgs outs.length (ins.map some)) :=
    keeps ▸ forgets_generic config opc outs (ins.map some) (.generic opc outs ins cargs) after
  have covered : ∀ arg ∈ ins, Covered config (Needed config known analysed.dead) arg :=
    fun arg mem not_global is_local => ⟨is_local, reads_known arg mem not_global is_local,
      covers.inputs arg (mem_map_of_mem mem)⟩
  by_cases is_mov : opc = .movI32
  · subst is_mov
    obtain ⟨out, rfl⟩ := length_eq_one_iff.mp nb_outs
    obtain ⟨arg, rfl⟩ := length_eq_one_iff.mp nb_ins
    have flagged : isDeadArg analysed.deadArgs 1 = true →
        Forgotten config false analysed.deadArgs 1 [some arg] arg := fun marked => ⟨0, rfl, marked⟩
    let dead : TCGArg → Prop := fun temp => temp = out ∨
      temp = arg ∧ isDeadArg analysed.deadArgs 1 = true
    have unneeded : dead out := .inl rfl
    have given : isDeadArg analysed.deadArgs 1 = true → dead arg := fun marked => .inr ⟨rfl, marked⟩
    refine done_of_move fresh inv dead rfl covers backed ?_ fun host => ?_
    · rintro temp (rfl | ⟨rfl, marked⟩) ne
      · exact absurd rfl ne
      · exact forgets.others rfl temp (flagged marked) (by simpa using ne)
    · obtain ⟨host', copied, steps, placed, copies⟩ := tcgRegAllocMov_steps inv unneeded given
        (readable_of_backed inv backed (covered arg (by simp))) run host
      refine ⟨host', copied, steps, placed, ?_⟩
      intro final values args globals world semantics effect lawful whole matched read performed
      have was_live := covers.inputs arg (by simp)
      cases has_value : values arg with
      | none => simp [readArgs, has_value] at read
      | some value =>
        obtain rfl : [some value] = args := by simpa [readArgs, has_value] using read
        rw [copies final value whole (matched arg was_live value has_value)]
        exact lawful.mov cargs value globals world effect performed
  · by_cases is_movi : opc = .moviI32
    · subst is_movi
      obtain ⟨out, rfl⟩ := length_eq_one_iff.mp nb_outs
      obtain ⟨val, rfl⟩ := length_eq_one_iff.mp nb_cargs
      refine done_of_move fresh inv (Eq out) rfl covers backed
        (fun temp same ne => absurd same.symm ne) fun host => ?_
      obtain ⟨host', steps, placed⟩ := tcgRegAllocMovi_steps inv rfl run host
      exact ⟨host', val, steps, placed, fun _ _ args globals world semantics effect lawful _ _ _
        performed => lawful.movi val args globals world effect performed⟩
    · rw [genOp_generic is_mov is_movi] at run
      have no_outs : (tcgOpDefs opc).bbEnd = true → outs = [] := fun ends =>
        eq_nil_of_length_eq_zero (nb_outs.trans (bbEnd_no_outs ends).1)
      have table := valid opc
      rw [← nb_outs, ← nb_ins] at table
      have instructs := fun W => tcgRegAllocOp_ready (W := W) inv backed covered nb_outs.symm table
        nodup (keeps ▸ flaggedOnce_keepOp) run
      exact done_of_instructs fresh inv instructs ⟨covers, forgets, nodup, no_outs,
        fun i out found live => keeps ▸ isDeadArg_of_live nodup found live⟩ backed rfl (by simp) rfl
        fun _ _ _ => rfl

/-- What the allocator does with an op of the analysed list. -/
theorem genOp_done {op : Op} (valid : target.Valid) (formed : op.WellFormed target)
    (reads_known : ∀ temp, some temp ∈ op.ins → config.nbGlobals ≤ temp →
      config.tempLocal temp = true → known temp = true)
    (backed : Backed (Needed config known (analyseOp config op after).dead) s)
    (run : genOp target config (analyseOp config op after).op (analyseOp config op after).deadArgs s =
      (.ok (), s')) :
    OpDone W layout known op (analyseOp config op after).op (analyseOp config op after).dead after s
        s' ∧
      ∀ label, op = .setLabel label → AtBlockEnd layout s' := by
  cases op with
  | call outs ins flags => exact ⟨done_of_call fresh inv formed reads_known backed run, by simp⟩
  | generic opc outs ins cargs =>
    refine ⟨?_, by simp⟩
    simp only [analyseOp, analyseGeneric] at backed run ⊢
    split at run
    · next removable =>
      simp only [if_pos removable] at backed run ⊢
      rw [genOp_tcgSetNop] at run
      obtain ⟨-, rfl⟩ := Prog.ok_inj run
      exact done_of_removed fresh inv backed rfl (by simp) (and_eq_true_iff.mp removable).2
    · next kept =>
      simp only [if_neg kept] at backed run ⊢
      exact done_of_kept fresh inv valid formed
        (fun temp mem => reads_known temp (mem_map_of_mem mem)) rfl backed run
  | setLabel label =>
    obtain ⟨done, block_end⟩ := done_of_setLabel fresh inv backed run
    exact ⟨done, fun _ _ => block_end⟩
  | discard temp => exact ⟨done_of_discard fresh inv backed run, by simp⟩
  | debugInsnStart pc | nop cargs | nopn nbArgs =>
    obtain ⟨-, rfl⟩ := Prog.ok_inj run
    exact ⟨done_of_skip fresh inv backed (by simp [settle, outs]) (fun _ => id) rfl
      fun _ _ _ _ => rfl, by simp⟩
  | stop =>
    obtain ⟨-, rfl⟩ := Prog.ok_inj run
    exact ⟨done_of_skip fresh inv backed (by simp [settle, outs]) (fun _ => id) rfl
      fun not_stop => absurd rfl not_stop, by simp⟩

end

end Qemu.Tcg
