import Qemu.Tcg.GenOp

/-!
# The generated code simulates the op list

Each op's code starts where the code of the op before it ends, both in the list and in the
allocator's state.  The state at a label is the same for every way to reach it, which lets the run
of the code follow the run of the list across jumps.
-/

namespace Qemu.Tcg

open TCGContext Prog List Machine.RunState Tcg Nat

variable {op : Op}

section

variable {W : Type} {target : Target} {config : TCGTemps} {layout : Layout target config}
  {ops : List Op} {chunks : List (TCGContext × List HostInstr)} {final s : TCGContext}

/-! ## Op lists -/

/-- Variables written by the ops of a list and not discarded since. -/
def settled (ops : List Op) : TCGArg → Bool :=
  ops.foldl (fun known op => op.settle known) fun _ => false

theorem settled_take_succ {pc : Nat} (found : ops[pc]? = some op) :
    settled (ops.take (pc + 1)) = op.settle (settled (ops.take pc)) := by
  rw [take_add_one, found, settled, foldl_append]
  rfl

/-- The ops have the arguments of their definitions, and a local temporary is written, in the order
of the list, before it is read. -/
structure OpsWellFormed (target : Target) (config : TCGTemps) (ops : List Op) : Prop where
  formed : ∀ (pc : Nat) (op : Op), ops[pc]? = some op → op.WellFormed target
  reads : ∀ (pc : Nat) (op : Op) temp, ops[pc]? = some op → some temp ∈ op.ins → config.nbGlobals ≤ temp →
    config.tempLocal temp = true → settled (ops.take pc) temp = true

theorem length_tcgLivenessAnalysis (config : TCGTemps) (ops : List Op) :
    (tcgLivenessAnalysis config ops).length = ops.length := by
  induction ops with
  | nil => rfl
  | cons op ops ih => simp [tcgLivenessAnalysis, ih]

theorem analyseOp_ne_stop (not_stop : op ≠ .stop) (dead : DeadTemps) :
    (analyseOp config op dead).op ≠ .stop := by
  have nop_ne : ∀ nbArgs, tcgSetNop nbArgs ≠ .stop := by
    intro nbArgs
    unfold tcgSetNop
    split <;> simp
  cases op with
  | call outs ins flags =>
    simp only [analyseOp, analyseCall]
    split
    · exact nop_ne (callNbArgs outs ins)
    · simp [keepOp]
  | generic opc outs ins cargs =>
    simp only [analyseOp, analyseGeneric]
    split
    · exact nop_ne (outs.length + ins.length + cargs.length)
    · simp [keepOp]
  | stop => exact absurd rfl not_stop
  | _ => simp [analyseOp]

/-! ## The allocator's state between ops -/

/-- The state of the allocator before the op with this index. -/
def contextAt (chunks : List (TCGContext × List HostInstr)) (final : TCGContext) (pc : Nat) :
    TCGContext :=
  (chunks[pc]?.map Prod.fst).getD final

theorem genOp_of_tcgGenCode {list : List (Op × DeadArgs)}
    (run : tcgGenCode target config list s = (.ok chunks, final)) :
    contextAt chunks final 0 = s.clearCode ∧ chunks.length = list.length ∧
      ∀ pc op deadArgs, list[pc]? = some (op, deadArgs) →
        ∃ after, genOp target config op deadArgs (contextAt chunks final pc) = (.ok (), after) ∧
          chunks[pc]? = some (contextAt chunks final pc, after.code) ∧
          contextAt chunks final (pc + 1) = after.clearCode := by
  induction list generalizing s chunks with
  | nil =>
    obtain ⟨rfl, rfl⟩ : [] = chunks ∧ s.clearCode = final := by
      simpa [tcgGenCode, modify_bind] using run
    exact ⟨rfl, rfl, fun _ _ _ found => by simp at found⟩
  | cons entry rest ih =>
    obtain ⟨first, bits⟩ := entry
    simp only [tcgGenCode, modify_bind, get_bind] at run
    obtain ⟨_, after, gen_run, run⟩ := bind_eq_ok.mp run
    simp only [get_bind] at run
    obtain ⟨rest_chunks, last, rest_run, run⟩ := bind_eq_ok.mp run
    obtain ⟨rfl, rfl⟩ : (s.clearCode, after.code) :: rest_chunks = chunks ∧ last = final := by
      simpa using run
    obtain ⟨next, same_length, rest_gen⟩ := ih rest_run
    refine ⟨rfl, by simp [same_length], fun pc op deadArgs found => ?_⟩
    cases pc with
    | zero =>
      obtain ⟨rfl, rfl⟩ : first = op ∧ bits = deadArgs := by simpa using found
      exact ⟨after, gen_run, rfl, next⟩
    | succ pc => exact rest_gen pc op deadArgs (by simpa using found)

theorem AllocInv.clearCode (inv : AllocInv layout s) : AllocInv layout s.clearCode := { inv with }

/-- The globals are declared as the layout says. -/
def Layout.Declares (layout : Layout target config) (s : TCGContext) : Prop :=
  ∀ temp, temp < config.nbGlobals → s.temps temp = layout.globals temp

theorem tcgRegAllocStart_inv (declares : layout.Declares s) :
    AllocInv layout (tcgRegAllocStart target config s) := by
  constructor
  all_goals
    simp only [tcgRegAllocStart]
    grind [Layout.Fixed, Layout.Declares, TCGTemp.slot, layout.home_allocated, TCGTemps.survives]

/-- Everything that the allocation of a whole list establishes about the states between ops. -/
structure Allocated (layout : Layout target config) (ops : List Op)
    (chunks : List (TCGContext × List HostInstr)) (final : TCGContext) (pc : Nat) : Prop where
  inv : AllocInv layout (contextAt chunks final pc)
  fresh : (contextAt chunks final pc).code = []
  backed : Backed (Needed config (settled (ops.take pc)) (deadBefore config (ops.drop pc)))
    (contextAt chunks final pc)

/-! ## Simulation -/

/-- The op before which the allocator's state describes the host: a jump enters a block after its
label. -/
def Machine.RunState.entry (run : Machine.RunState W) : Nat :=
  if run.landed then run.pc + 1 else run.pc

/-- The run of the code is where the run of the list is, and has its values. -/
structure Simulates (layout : Layout target config) (ops : List Op)
    (chunks : List (TCGContext × List HostInstr)) (final : TCGContext) (state : ExecState W)
    (run : Machine.RunState W) : Prop where
  pc : run.pc = state.pc
  status : run.status = state.status
  world : run.host.world = state.world
  trace : run.host.trace = state.trace
  placed : state.status = .running →
    Matches final (fun temp => deadBefore config (ops.drop run.entry) temp = false) state.values
      (contextAt chunks final run.entry) run.host
  landed : state.status = .running → run.landed = true →
    (∃ label, ops[state.pc]? = some (.setLabel label)) ∧ AtHome layout final state.values run.host ∧
      ∀ temp, state.values temp ≠ none → config.survives temp = true

theorem labelIndex_eq_some {label : TCGArg} {index : Nat} (found : labelIndex ops label = some index) :
    ops[index]? = some (.setLabel label) := by
  obtain ⟨bound, is_label, -⟩ := findIdx?_eq_some_iff_getElem.mp found
  rw [getElem?_eq_getElem bound]
  cases op : ops[index] with
  | setLabel label' =>
    rw [op] at is_label
    rw [of_decide_eq_true is_label]
  | _ =>
    rw [op] at is_label
    cases is_label

namespace Machine

variable (machine : Machine W)

theorem step_of_ended {run : RunState W} (ended : run.status ≠ .running) :
    machine.step ops chunks run = run := by
  unfold step
  split <;> simp_all

theorem step_of_entered {run : RunState W} {context : TCGContext} {code : List HostInstr}
    {host : Host W} {next : Next} (running : run.status = .running) (found : ops[run.pc]? = some op)
    (not_stop : op ≠ .stop) (chunk : chunks[run.pc]? = some (context, code))
    (entered : run.landed = false) (ran : machine.runCode code run.host = some (host, next)) :
    machine.step ops chunks run =
      match next with
      | .fallThrough => { run with pc := run.pc + 1, host }
      | .exit => { run with host, status := .exited }
      | .goto label =>
        match labelIndex ops label with
        | some index => { run with pc := index, landed := true, host }
        | none => { run with host, status := .undefined } := by
  cases op with
  | stop => exact absurd rfl not_stop
  | _ => cases next <;> simp only [step, running, found, chunk, entered, ran] <;> rfl

end Machine

/-- The code starts with the globals in place and with no other variable in use. -/
structure Starts (layout : Layout target config) (values : Values) (world : W) (host : Host W) :
    Prop where
  world : host.world = world
  trace : host.trace = []
  globals : ∀ temp value, values temp = some value →
    temp < config.nbGlobals ∧ host.global (layout.globals temp) = value

def Machine.RunState.start (host : Host W) : Machine.RunState W := ⟨0, false, host, .running⟩

section

variable {pc : Nat} (valid : target.Valid) (formed : OpsWellFormed target config ops)
  (declares : layout.Declares s)
  (run : tcgGenCode target config (tcgLivenessAnalysis config ops)
    (tcgRegAllocStart target config s) = (.ok chunks, final))

include run in
theorem length_chunks : chunks.length = ops.length := by
  rw [(genOp_of_tcgGenCode run).2.1, length_tcgLivenessAnalysis]

include run in
theorem contextAt_length : contextAt chunks final ops.length = final := by
  rw [← length_chunks run]
  simp [contextAt]

include valid formed run in
theorem opDone_of_allocated (W : Type) (found : ops[pc]? = some op)
    (allocated : Allocated layout ops chunks final pc) :
    ∃ after, chunks[pc]? = some (contextAt chunks final pc, after.code) ∧
      contextAt chunks final (pc + 1) = after.clearCode ∧
      OpDone W layout (settled (ops.take pc)) op
        (analyseOp config op (deadBefore config (ops.drop (pc + 1)))).op
        (deadBefore config (ops.drop pc)) (deadBefore config (ops.drop (pc + 1)))
        (contextAt chunks final pc) after ∧
      ∀ label, op = .setLabel label → AtBlockEnd layout after := by
  have entry : (tcgLivenessAnalysis config ops)[pc]? = some
      ((analyseOp config op (deadBefore config (ops.drop (pc + 1)))).op,
        (analyseOp config op (deadBefore config (ops.drop (pc + 1)))).deadArgs) := by
    rw [getElem?_tcgLivenessAnalysis, found]
    rfl
  obtain ⟨after, gen_run, chunk, next⟩ := (genOp_of_tcgGenCode run).2.2 pc _ _ entry
  have backed := allocated.backed
  rw [deadBefore_drop found] at backed ⊢
  exact ⟨after, chunk, next, genOp_done allocated.fresh allocated.inv valid
    (formed.formed pc op found) (formed.reads pc op · found) backed gen_run⟩

include valid formed run in
theorem allocated_succ (found : ops[pc]? = some op)
    (allocated : Allocated layout ops chunks final pc) :
    Allocated layout ops chunks final (pc + 1) ∧
      Extends (contextAt chunks final pc) (contextAt chunks final (pc + 1)) := by
  obtain ⟨after, -, next, done, -⟩ := opDone_of_allocated valid formed run Unit found allocated
  rw [next]
  refine ⟨⟨next ▸ done.inv.clearCode, next ▸ rfl, ?_⟩, done.grows⟩
  rw [settled_take_succ found, next]
  exact done.backed

include valid formed declares run

theorem allocated_at (in_list : pc ≤ ops.length) : Allocated layout ops chunks final pc := by
  induction pc with
  | zero =>
    have start := (genOp_of_tcgGenCode run).1
    refine ⟨start ▸ (tcgRegAllocStart_inv declares).clearCode, start ▸ rfl, ?_⟩
    rintro temp ⟨-, known, -⟩
    simp [settled] at known
  | succ pc ih =>
    have found := getElem?_eq_getElem (lt_of_succ_le in_list)
    exact (allocated_succ valid formed run found (ih (le_of_succ_le in_list))).1

theorem extends_final (in_list : pc ≤ ops.length) : Extends (contextAt chunks final pc) final := by
  have tail : ∀ rest pc, pc + rest = ops.length → Extends (contextAt chunks final pc) final := by
    intro rest
    induction rest with
    | zero =>
      rintro pc len
      rw [Nat.add_zero] at len
      rw [len, contextAt_length run]
      exact Extends.refl final
    | succ rest ih =>
      intro pc len
      have found := getElem?_eq_getElem (show pc < ops.length by omega)
      have here := allocated_at valid formed declares run (show pc ≤ ops.length by omega)
      exact (allocated_succ valid formed run found here).2.trans (ih (pc + 1) (by omega))
  exact tail (ops.length - pc) pc (by omega)

theorem final_inv : AllocInv layout final := by
  have last := (allocated_at valid formed declares run (le_refl ops.length)).inv
  rwa [contextAt_length run] at last

variable {semantics : Semantics W} (lawful : semantics.Lawful) (junk : Host W → Reg → TCGArg)
  {state : ExecState W} {runState : Machine.RunState W}

/-- A jump that has landed on a label goes on with the op after it. -/
theorem Simulates.step_landed (sim : Simulates layout ops chunks final state runState)
    (running : state.status = .running) (landed : runState.landed = true) :
    Simulates layout ops chunks final
      (step config semantics (livenessOps config ops) state)
      ((layout.machine semantics junk).step (livenessOps config ops) chunks runState) := by
  obtain ⟨⟨label, found⟩, home, ended⟩ := sim.landed running landed
  have analysed : (livenessOps config ops)[state.pc]? = some (.setLabel label) :=
    getElem?_livenessOps found
  obtain ⟨in_list, -⟩ := List.getElem?_eq_some_iff.mp found
  obtain ⟨after, chunk, -⟩ := opDone_of_allocated valid formed run W found
    (allocated_at valid formed declares run in_list.le)
  have stays : endBlock config state.values = state.values := by
    funext temp
    unfold endBlock
    split
    · rfl
    · next perishes =>
      by_contra has_value
      exact perishes (ended temp (symm has_value))
  have at_label : (livenessOps config ops)[runState.pc]? = some (.setLabel label) :=
    sim.pc ▸ analysed
  rw [← sim.pc] at chunk
  have moves : (layout.machine semantics junk).step (livenessOps config ops) chunks runState =
      { runState with pc := runState.pc + 1, landed := false } := by
    simp [Machine.step, sim.status.trans running, at_label, chunk, landed]
  rw [moves]
  simp only [step, running, analysed, execOp, stays, ExecState.advance]
  have placed := sim.placed running
  simp only [entry, landed, if_true] at placed
  exact ⟨congrArg (· + 1) sim.pc, sim.status.trans running, sim.world, sim.trace, fun _ => placed,
    by simp⟩

include lawful in
theorem opRuns_of_simulates (sim : Simulates layout ops chunks final state runState)
    (running : state.status = .running) (entered : runState.landed = false)
    (found : ops[state.pc]? = some op) (not_stop : op ≠ .stop)
    (defined : (step config semantics (livenessOps config ops) state).status ≠ .undefined) :
    ∃ after, chunks[state.pc]? = some (contextAt chunks final state.pc, after.code) ∧
      contextAt chunks final (state.pc + 1) = after.clearCode ∧
      OpRuns layout (livenessOps config ops) final (deadBefore config (ops.drop (state.pc + 1)))
        after state (step config semantics (livenessOps config ops) state) runState.host
        semantics junk (analyseOp config op (deadBefore config (ops.drop (state.pc + 1)))).op := by
  have analysed : (livenessOps config ops)[state.pc]? = _ := getElem?_livenessOps found
  obtain ⟨in_list, -⟩ := List.getElem?_eq_some_iff.mp found
  obtain ⟨after, chunk, next, done, -⟩ := opDone_of_allocated valid formed run W found
    (allocated_at valid formed declares run in_list.le)
  refine ⟨after, chunk, next, ?_⟩
  have stepped : step config semantics (livenessOps config ops) state =
      execOp config semantics (livenessOps config ops)
        (analyseOp config op (deadBefore config (ops.drop (state.pc + 1)))).op state := by
    simp only [step, running, analysed]
  have whole : Extends after.clearCode final :=
    next ▸ extends_final valid formed declares run (succ_le_of_lt in_list)
  rw [stepped] at defined ⊢
  have matched := sim.placed running
  simp only [entry, entered, sim.pc, Bool.false_eq_true, if_false] at matched
  exact done.runs (analyseOp_ne_stop not_stop _) semantics junk (livenessOps config ops) final state runState.host lawful
    (final_inv valid formed declares run) whole matched sim.world sim.trace running defined

include lawful in
theorem Simulates.step_entered (sim : Simulates layout ops chunks final state runState)
    (running : state.status = .running) (entered : runState.landed = false)
    (defined : (step config semantics (livenessOps config ops) state).status ≠ .undefined) :
    Simulates layout ops chunks final
      (step config semantics (livenessOps config ops) state)
      ((layout.machine semantics junk).step (livenessOps config ops) chunks runState) := by
  cases found : ops[state.pc]? with
  | none =>
    have missing : (livenessOps config ops)[state.pc]? = none := by
      simp [livenessOps, getElem?_tcgLivenessAnalysis, found]
    simp [step, running, missing, ExecState.fail] at defined
  | some op =>
    have analysed : (livenessOps config ops)[state.pc]? = _ := getElem?_livenessOps found
    by_cases is_stop : op = .stop
    · subst is_stop
      obtain ⟨in_list, -⟩ := List.getElem?_eq_some_iff.mp found
      obtain ⟨after, chunk, -⟩ := opDone_of_allocated valid formed run W found
        (allocated_at valid formed declares run in_list.le)
      have ends : (livenessOps config ops)[state.pc]? = some .stop := analysed
      have stepped : (layout.machine semantics junk).step (livenessOps config ops) chunks runState =
          { runState with status := .ranOff } := by
        simp [Machine.step, sim.status, running, sim.pc, ends, chunk]
      rw [stepped]
      simp only [step, running, ends, execOp]
      exact ⟨sim.pc, rfl, sim.world, sim.trace, by simp, by simp⟩
    · obtain ⟨after, chunk, next_context, runs⟩ := opRuns_of_simulates valid formed declares run
        lawful junk sim running entered found is_stop defined
      obtain ⟨host', next, ran, same_world, same_trace, arrives⟩ := runs.ran
      have at_op : (livenessOps config ops)[runState.pc]? = _ := sim.pc ▸ analysed
      rw [Machine.step_of_entered (layout.machine semantics junk) (sim.status.trans running) at_op
        (analyseOp_ne_stop is_stop _) (sim.pc ▸ chunk) entered ran]
      cases next with
      | fallThrough =>
        obtain ⟨still_running, next_pc, matched⟩ := arrives
        refine ⟨(congrArg (· + 1) sim.pc).trans next_pc.symm, ?_, same_world, same_trace,
          fun _ => ?_, fun _ again => ?_⟩
        · rw [still_running, ← running, ← sim.status]
        · simp only [entry, entered, sim.pc, Bool.false_eq_true, if_false]
          rw [next_context]
          exact matched.of_temps rfl
        · simp [entered] at again
      | exit =>
        obtain ⟨exited, same_pc⟩ := arrives
        exact ⟨sim.pc.trans same_pc.symm, exited.symm, same_world, same_trace,
          fun again => absurd (exited.symm.trans again) (by simp),
          fun again => absurd (exited.symm.trans again) (by simp)⟩
      | goto label =>
        obtain ⟨index, is_index, still_running, next_pc, home, ended⟩ := arrives
        simp only [is_index]
        have label_found : ops[index]? = some (.setLabel label) :=
          labelIndex_eq_some (labelIndex_livenessOps ops label ▸ is_index)
        obtain ⟨in_list, -⟩ := List.getElem?_eq_some_iff.mp label_found
        obtain ⟨label_after, -, label_next, label_done, block_end⟩ :=
          opDone_of_allocated valid formed run W label_found
            (allocated_at valid formed declares run in_list.le)
        refine ⟨next_pc.symm, ?_, same_world, same_trace, fun _ => ?_, fun _ _ => ?_⟩
        · rw [still_running, ← running, ← sim.status]
        · simp only [entry, if_true]
          rw [label_next]
          exact (home.matches label_done.inv (block_end label rfl) ended).of_temps rfl
        · exact ⟨⟨label, next_pc ▸ label_found⟩, home, ended⟩

include lawful in
theorem Simulates.step (sim : Simulates layout ops chunks final state runState)
    (defined : (step config semantics (livenessOps config ops) state).status ≠ .undefined) :
    Simulates layout ops chunks final
      (step config semantics (livenessOps config ops) state)
      ((layout.machine semantics junk).step (livenessOps config ops) chunks runState) := by
  by_cases running : state.status = .running
  · cases landed : runState.landed with
    | true => exact sim.step_landed valid formed declares run junk running landed
    | false => exact sim.step_entered valid formed declares run lawful junk running landed defined
  · rw [step_of_ended running, Machine.step_of_ended _ (sim.status ▸ running)]
    exact sim

variable {values : Values} {world : W} {host : Host W} (starts : Starts layout values world host)

include starts in
theorem simulates_start :
    Simulates layout ops chunks final (.start values world) (.start host) where
  pc := rfl
  status := rfl
  world := starts.world
  trace := starts.trace
  placed _ := by
    intro temp _ value has_value
    obtain ⟨global, in_place⟩ := starts.globals temp value has_value
    have context : contextAt chunks final 0 = (tcgRegAllocStart target config s).clearCode :=
      (genOp_of_tcgGenCode run).1
    have declared := declares temp global
    have recorded : (contextAt chunks final 0).temps temp =
        { layout.globals temp with
          valType := if (layout.globals temp).fixedReg then .reg else .mem } := by
      rw [context]
      simp [clearCode, tcgRegAllocStart, global, declared]
    have whole := (extends_final valid formed declares run (zero_le ops.length)) temp
    change Holds final (contextAt chunks final 0) host temp value
    unfold Host.global at in_place
    cases fixed : (layout.globals temp).fixedReg with
    | true =>
      rw [if_pos fixed] at in_place
      constructor <;> simp [recorded, fixed, in_place]
    | false =>
      rw [if_neg (by simp [fixed])] at in_place
      have own_word := layout.home_allocated temp global fixed
      obtain ⟨allocated, same⟩ := whole (by simpa [recorded] using own_word)
      have slot_eq : (final.temps temp).slot = (layout.globals temp).slot := by
        rw [same, recorded]
        rfl
      constructor <;> simp [recorded, fixed, allocated, slot_eq, in_place]
  landed _ landed := by cases landed

include lawful starts in
theorem simulates_run (count : Nat)
    (defined : (runOps config semantics (livenessOps config ops) count
      (.start values world)).status ≠ .undefined) :
    Simulates layout ops chunks final
      (runOps config semantics (livenessOps config ops) count (.start values world))
      ((layout.machine semantics junk).run (livenessOps config ops) chunks count (.start host)) := by
  induction count with
  | zero => exact simulates_start valid formed declares run starts
  | succ count ih =>
    refine (ih fun undefined => ?_).step valid formed declares run lawful junk defined
    rw [runOps, step_of_ended (by simp [undefined])] at defined
    exact defined undefined

include lawful starts in
/-- While the run of the list before liveness analysis is defined, the generated code goes the same
way with the same effects, and the place of every variable still needed holds its value there. -/
theorem tcgGenCode_preserves (count : Nat)
    (defined : (runOps config semantics ops count (.start values world)).status ≠ .undefined) :
    let state := runOps config semantics ops count (.start values world)
    let runState :=
      (layout.machine semantics junk).run (livenessOps config ops) chunks count (.start host)
    (runState.pc = state.pc ∧ runState.status = state.status ∧
      runState.host.world = state.world ∧ runState.host.trace = state.trace) ∧
    (state.status = .running → runState.landed = false →
      Matches final (fun temp => deadBefore config (ops.drop state.pc) temp = false) state.values
        (contextAt chunks final state.pc) runState.host) := by
  intro state runState
  have together := lockstep_runOps (.start values world) count defined
  have sim := simulates_run valid formed declares run lawful junk starts count
    (together.status ▸ defined)
  refine ⟨⟨sim.pc.trans together.pc, sim.status.trans together.status,
    sim.world.trans together.world, sim.trace.trans together.trace⟩, ?_⟩
  intro running entered temp live value has_value
  have here : runState.entry = state.pc := by
    rw [entry, entered]
    exact sim.pc.trans together.pc
  have placed := sim.placed (together.status.trans running)
  rw [here] at placed
  -- The two runs agree on the variables that are still read.
  exact placed temp live value ((together.live running temp live).trans has_value)

end

/-! ## What the allocator promises -/

/-- The location that the allocator has recorded for the variable holds the value. -/
def Located (s : TCGContext) (host : Host W) (temp value : TCGArg) : Prop :=
  let ts := s.temps temp
  match ts.valType with
  | .reg => host.regs ts.reg = value ∧
      (ts.fixedReg = false → ts.memCoherent = true → host.mem ts.slot = value)
  | .mem => ts.memAllocated = true ∧ host.mem ts.slot = value
  | .const => ts.val = value
  | .dead => False

theorem Holds.located {host : Host W} {temp value : TCGArg} (held : Holds final s host temp value)
    (whole : Extends s final)
    (owned : (s.temps temp).valType = .mem → (s.temps temp).memAllocated = true) :
    Located s host temp value := by
  cases place : (s.temps temp).valType with
  | reg =>
    simp only [Located, place]
    exact ⟨held.reg place, held.coherent place⟩
  | mem =>
    obtain ⟨-, same⟩ := whole temp (owned place)
    simp only [Located, place]
    exact ⟨owned place, same ▸ (held.mem place).2⟩
  | const => simpa only [Located, place] using held.const place
  | dead => exact absurd place held.alive

def CheckRegs (s : TCGContext) : Prop :=
  (∀ reg temp, s.regToTemp reg = some temp →
    (s.temps temp).valType = .reg ∧ (s.temps temp).reg = reg) ∧
  ∀ temp, (s.temps temp).valType = .reg → (s.temps temp).fixedReg = false →
    s.regToTemp (s.temps temp).reg = some temp

section

variable {semantics : Semantics W} {values : Values} {world : W} {host : Host W}

/-- While the run of the list is defined, the generated code goes the same way with the same
effects; the recorded location of every live variable holds its value, where a local temporary has
been written earlier in the list; `check_regs` succeeds between any two ops; and the globals are
where other code expects them at the end of a basic block and at every op that may look at them. -/
theorem regAlloc_simulates (valid : target.Valid) (formed : OpsWellFormed target config ops)
    (declares : layout.Declares s)
    (run : tcgGenCode target config (tcgLivenessAnalysis config ops)
      (tcgRegAllocStart target config s) = (.ok chunks, final))
    (lawful : semantics.Lawful) (junk : Host W → Reg → TCGArg)
    (starts : Starts layout values world host) (count : Nat)
    (defined : (runOps config semantics (livenessOps config ops) count
      (.start values world)).status ≠ .undefined) :
    let state := runOps config semantics (livenessOps config ops) count (.start values world)
    let runState :=
      (layout.machine semantics junk).run (livenessOps config ops) chunks count (.start host)
    (runState.pc = state.pc ∧ runState.status = state.status ∧
      runState.host.world = state.world ∧ runState.host.trace = state.trace) ∧
    (state.status = .running → ∀ temp value,
      deadBefore config (ops.drop runState.entry) temp = false → state.values temp = some value →
      (config.nbGlobals ≤ temp → config.tempLocal temp = true →
        settled (ops.take runState.entry) temp = true) →
      Located (contextAt chunks final runState.entry) runState.host temp value) ∧
    (∀ pc, pc ≤ ops.length → CheckRegs (contextAt chunks final pc)) ∧
    (state.status = .running → ∀ temp value, temp < config.nbGlobals →
      state.values temp = some value →
      (runState.landed = true → runState.host.global (layout.globals temp) = value) ∧
      ∀ op context code, runState.landed = false →
        (livenessOps config ops)[state.pc]? = some op → op.savesGlobals = true →
        chunks[state.pc]? = some (context, code) →
        (step config semantics (livenessOps config ops) state).status ≠ .undefined →
        (runState.host.beforeInstr code).global (layout.globals temp) = value) := by
  intro state runState
  have sim : Simulates layout ops chunks final state runState :=
    simulates_run valid formed declares run lawful junk starts count defined
  refine ⟨⟨sim.pc, sim.status, sim.world, sim.trace⟩, ?_, ?_, ?_⟩
  · intro running temp value live has_value written
    have in_list : runState.entry ≤ ops.length := by
      by_contra outside
      rw [drop_eq_nil_of_le (by omega)] at live
      cases live
    have here := allocated_at valid formed declares run in_list
    refine (sim.placed running temp live value has_value).located
      (extends_final valid formed declares run in_list) fun in_mem => ?_
    rcases lt_or_ge temp config.nbGlobals with global | not_global
    · exact (here.inv.home temp global (here.inv.not_fixed_of_valType (by simp [in_mem]))).1
    · cases is_local : config.tempLocal temp with
      | true => exact (here.backed temp ⟨is_local, written not_global is_local, live⟩).2 in_mem
      | false =>
        refine here.inv.spilled temp ?_ in_mem
        simp [TCGTemps.survives, is_local, not_lt.mpr not_global]
  · intro pc in_list
    exact (allocated_at valid formed declares run in_list).inv.check_regs
  · intro running temp value global has_value
    refine ⟨fun landed => ?_, ?_⟩
    · obtain ⟨-, home, -⟩ := sim.landed running landed
      have survives := TCGTemps.survives_of_global global
      obtain ⟨in_reg, in_mem⟩ := home temp value survives has_value
      have last := final_inv valid formed declares run
      by_cases fixed : layout.Fixed temp
      · rw [Host.global, if_pos fixed.2, in_reg fixed]
      · have not_flag : ¬(layout.globals temp).fixedReg = true := fun flag => fixed ⟨global, flag⟩
        rw [Host.global, if_neg not_flag, ← (last.home temp global fixed).2, (in_mem fixed).2]
    · intro op context code entered found saves chunk defined_next
      cases original : ops[state.pc]? with
      | none => simp [livenessOps, getElem?_tcgLivenessAnalysis, original] at found
      | some source =>
        have analysed : (livenessOps config ops)[state.pc]? = _ := getElem?_livenessOps original
        obtain rfl := Option.some.inj (analysed.symm.trans found)
        have not_stop : source ≠ .stop := by
          rintro rfl
          cases saves
        obtain ⟨after, own_chunk, -, runs⟩ := opRuns_of_simulates valid formed declares run lawful
          junk sim running entered original not_stop defined_next
        obtain ⟨-, rfl⟩ := Prod.mk.inj (Option.some.inj (own_chunk.symm.trans chunk))
        exact runs.saved saves temp value global has_value

end

end

/-! ## A small host -/

namespace SmallHost

def anyReg : TCGArgConstraint := ⟨fun reg => decide (reg < 3), none, none, fun _ => false⟩

/-- Constraints that tie no arguments together. -/
def untied (opc : TCGOpcode) : OpConstraints where
  argsCt _ := anyReg
  sortedOuts := List.range (tcgOpDefs opc).nbOargs
  sortedIns := List.range' (tcgOpDefs opc).nbOargs (tcgOpDefs opc).nbIargs

variable (constraints : TCGOpcode → OpConstraints)

/-- Three registers to allocate and one that points to the globals, the frame and the stack. -/
def target : Target where
  nbRegs := 4
  regAllocOrder := [0, 1, 2]
  availableRegs reg := decide (reg < 3)
  callClobberRegs reg := decide (reg < 2)
  reservedRegs reg := decide (reg = 3)
  callIargRegs := [0]
  callOargRegs := [0]
  callStackReg := 3
  callStackOffset := 128
  stackAlign := 16
  frameReg := 3
  frameStart := 64
  frameEnd := 128
  constraints := constraints
  callConstraint := anyReg

/-- One global, two temporaries and a local temporary. -/
def config : TCGTemps := ⟨1, 4, fun temp => decide (temp = 3)⟩

def globals (_ : TCGArg) : TCGTemp := ⟨.mem, 0, 0, 3, 0, false, false, true⟩

def layout : Layout (target constraints) config where
  globals := globals
  local_lt temp is_local := by
    have same : temp = 3 := by simpa [config] using is_local
    simp [same, config]
  fixed_reserved _ _ fixed := by cases fixed
  fixed_injective _ _ _ _ fixed := by cases fixed
  reserved_preserved _ _ fixed := by cases fixed
  iargs_nodup := by simp [target]
  iargs_clobbered := by simp [target]
  iargs_unreserved := by simp [target]
  oargs_nodup := by simp [target]
  oargs_clobbered := by simp [target]
  oargs_unreserved := by simp [target]
  clobbered_lt reg clobbered := by
    have small : reg < 2 := by simpa [target] using clobbered
    have four : (target constraints).nbRegs = 4 := rfl
    exact four ▸ lt_of_lt_of_le small (by decide)
  stackAlign_pos := by simp [target]
  home_allocated _ _ _ := rfl
  home_injective temp other is_global other_global _ _ _ := by
    exact (lt_one_iff.mp is_global).trans (lt_one_iff.mp other_global).symm
  home_not_frame _ _ _ in_frame := by
    have above : 64 ≤ 0 := in_frame.2.1
    omega
  home_not_stack _ _ _ in_stack := by
    have above : 128 ≤ 0 := in_stack.2.1
    omega
  frame_not_stack slot in_frame in_stack := by
    have below : slot.2 + 4 ≤ 128 := in_frame.2.2
    have above : 128 ≤ slot.2 := in_stack.2.1
    omega

def semantics : Semantics Unit where
  perform action args globals _ :=
    match action, args with
    | .op .moviI32 cargs, _ => some ⟨cargs, globals, (), .fallThrough⟩
    | .op .movI32 _, [some value] => some ⟨[value], globals, (), .fallThrough⟩
    | .op .mulu2I32 _, [some left, some right] =>
      some ⟨[left * right % 2 ^ 32, left * right / 2 ^ 32], globals, (), .fallThrough⟩
    | .op .br [label], _ => some ⟨[], globals, (), .goto label⟩
    | .op .exitTb _, _ => some ⟨[], globals, (), .exit⟩
    | .call _, _ => some ⟨[], globals, (), .fallThrough⟩
    | _, _ => none

theorem semantics_lawful : semantics.Lawful where
  mov cargs value globals world effect performed := by
    obtain rfl := Option.some.inj performed
    rfl
  movi value args globals world effect performed := by
    obtain rfl := Option.some.inj performed
    rfl
  refines action args globals globals' world effect more performed := by
    simp only [semantics] at performed ⊢
    split at performed
    all_goals
      cases performed
      try exact ⟨_, rfl, rfl, rfl, rfl, more⟩

theorem untied_valid : (target untied).Valid := by
  intro opc
  refine ⟨Perm.refl _, Perm.refl _, ?_, ?_, ?_⟩
  · intro i _ input tied
    cases tied
  · intro input tied
    cases tied
  · exact pairwise_of_forall nofun

/-- The state in which the variables have been declared. -/
def declared : TCGContext := ⟨globals, fun _ => none, 0, []⟩

section

variable (ops : List Op)

/-- Generated code and the state after it. -/
def generate : Outcome Empty (List (TCGContext × List HostInstr)) × TCGContext :=
  tcgGenCode (target constraints) config (tcgLivenessAnalysis config ops)
    (tcgRegAllocStart (target constraints) config declared)

def code : List (TCGContext × List HostInstr) :=
  match (generate constraints ops).1 with
  | .ok chunks => chunks
  | _ => []

/-- The variables before an op, as the allocator has recorded them. -/
def context (pc : Nat) : TCGContext :=
  contextAt (code constraints ops) (generate constraints ops).2 pc

def values : Values := fun temp => if temp = 0 then some 0 else none

def list (count : Nat) : ExecState Unit :=
  runOps config semantics (livenessOps config ops) count (.start values ())

def run (count : Nat) : Machine.RunState Unit :=
  ((layout constraints).machine semantics fun _ _ => 99).run (livenessOps config ops)
    (code constraints ops) count (.start Host.blank)

/-- A local temporary is copied to the global, and a function is called. -/
def copyThenCall (flags : CallFlags) : List Op :=
  [.generic .moviI32 [1] [] [7], .generic .moviI32 [3] [] [5], .generic .movI32 [0] [3] [],
    .call [] [some 1] flags, .generic .exitTb [] [] [0], .stop]

/-- Host state when the instruction of the op at hand is reached. -/
def atInstr (count : Nat) : Host Unit :=
  let runState := run constraints ops count
  runState.host.beforeInstr ((code constraints ops)[runState.pc]?.getD (declared, [])).2

end

theorem starts_blank : Starts (layout untied) values () Host.blank where
  world := rfl
  trace := rfl
  globals temp value has_value := by
    unfold values at has_value
    split at has_value
    · next is_zero =>
      obtain rfl := Option.some.inj has_value
      exact ⟨is_zero ▸ Nat.one_pos, rfl⟩
    · cases has_value

theorem copyThenCall_wellFormed (flags : CallFlags) :
    OpsWellFormed (target untied) config (copyThenCall flags) where
  formed pc op found := by
    have mem := mem_of_getElem? found
    simp only [copyThenCall, mem_cons, not_mem_nil, or_false] at mem
    rcases mem with rfl | rfl | rfl | rfl | rfl | rfl <;> simp [Op.WellFormed, tcgOpDefs] <;> decide
  reads pc op temp found reads not_global is_local := by
    obtain rfl : temp = 3 := by simpa [config] using is_local
    match pc with
    | 0 | 1 | 3 | 4 | 5 =>
      obtain rfl := Option.some.inj found
      simp [Op.ins] at reads
    | 2 => rfl
    | pc + 6 => cases found

end SmallHost

open SmallHost in
theorem regAlloc_simulates_call :
    let ops := copyThenCall ⟨false, false⟩
    (run untied ops 3).pc = 3 ∧ (list ops 3).values 0 = some 5 ∧
    Located (context untied ops 3) (run untied ops 3).host 0 5 ∧
    (atInstr untied ops 3).global (globals 0) = 5 := by
  intro ops
  have declares : (layout untied).Declares declared := fun _ _ => rfl
  have generated : generate untied ops = (.ok (code untied ops), (generate untied ops).2) := rfl
  obtain ⟨⟨same_pc, -⟩, located, -, saved⟩ := regAlloc_simulates untied_valid
    (copyThenCall_wellFormed ⟨false, false⟩) declares generated semantics_lawful (fun _ _ => 99)
    starts_blank 3 (by decide)
  exact ⟨same_pc, rfl, located rfl 0 5 rfl rfl nofun,
    (saved rfl 0 5 Nat.one_pos rfl).2 _ _ _ rfl rfl rfl rfl (by decide)⟩

open SmallHost in
theorem tcgGenCode_preserves_call :
    let ops := copyThenCall ⟨false, false⟩
    (run untied ops 3).status = .running ∧
    Holds (generate untied ops).2 (context untied ops 3) (run untied ops 3).host 0 5 := by
  intro ops
  obtain ⟨⟨-, same, -⟩, placed⟩ := tcgGenCode_preserves untied_valid
    (copyThenCall_wellFormed ⟨false, false⟩) (fun _ _ => rfl)
    (show generate untied ops = (.ok (code untied ops), _) from rfl) semantics_lawful
    (fun _ _ => 99) starts_blank 3 (by decide)
  exact ⟨same, placed rfl rfl 0 rfl 5 rfl⟩

namespace SmallHost

/-- The block that writes the local temporary comes after the block that reads it. -/
def readBlockFirst : List Op :=
  [.generic .br [] [] [1], .setLabel 0, .generic .movI32 [0] [3] [], .generic .exitTb [] [] [0],
    .setLabel 1, .generic .moviI32 [3] [] [5], .generic .br [] [] [0], .stop]

/-- Constraints for `mulu2_i32` only. -/
def onlyMulu2 (argsCt : Nat → TCGArgConstraint) (opc : TCGOpcode) : OpConstraints :=
  if opc = .mulu2I32 then { untied opc with argsCt } else untied opc

/-- The low word in register 0, the high word in the register of the first factor. -/
def lowFixedHighTied : Nat → TCGArgConstraint
  | 0 => { anyReg with regs := fun reg => decide (reg = 0) }
  | 1 => { anyReg with aliasInput := some 2 }
  | 2 => { anyReg with aliasOutput := some 1 }
  | _ => anyReg

/-- The low word in the place of the first factor, which may be a constant. -/
def lowTiedToConst : Nat → TCGArgConstraint
  | 0 => { anyReg with aliasInput := some 2 }
  | 2 => { anyReg with aliasOutput := some 0, constMatch := fun _ => true }
  | _ => anyReg

def multiply (outs : List TCGArg) (factor : TCGArg) : List Op :=
  [.generic .moviI32 [1] [] [factor], .generic .moviI32 [2] [] [7],
    .generic .mulu2I32 outs [1, 2] [], .call [] [some 1, some 2] ⟨false, false⟩,
    .generic .exitTb [] [] [0], .stop]

end SmallHost

open SmallHost in
/-- A function that does not use globals is called with a global out of place; a local temporary
written later in the list is sought where it never was; an output that is tied to an input shares
the register of an output that was placed before it, or takes a constant for a register; and the
second mention of an output makes the allocator forget it. -/
theorem regAlloc_departs :
    ((run untied (copyThenCall ⟨false, true⟩) 3).pc = 3 ∧
      (list (copyThenCall ⟨false, true⟩) 3).values 0 = some 5 ∧
      (atInstr untied (copyThenCall ⟨false, true⟩) 3).mem (globals 0).slot = 0) ∧
    ((run untied readBlockFirst 5).pc = 2 ∧ (list readBlockFirst 5).values 3 = some 5 ∧
      deadBefore config (readBlockFirst.drop 2) 3 = false ∧
      ¬Located (context untied readBlockFirst 2) (run untied readBlockFirst 5).host 3 5 ∧
      (list readBlockFirst 6).values 0 = some 5 ∧
      ¬Located (context untied readBlockFirst 3) (run untied readBlockFirst 6).host 0 5) ∧
    ((run (onlyMulu2 lowFixedHighTied) (multiply [1, 2] 6) 3).pc = 3 ∧
      (list (multiply [1, 2] 6) 3).values 1 = some 42 ∧
      deadBefore config ((multiply [1, 2] 6).drop 3) 1 = false ∧
      ¬Located (context (onlyMulu2 lowFixedHighTied) (multiply [1, 2] 6) 3)
        (run (onlyMulu2 lowFixedHighTied) (multiply [1, 2] 6) 3).host 1 42 ∧
      ¬CheckRegs (context (onlyMulu2 lowFixedHighTied) (multiply [1, 2] 6) 3)) ∧
    ((run (onlyMulu2 lowTiedToConst) (multiply [1, 3] 0) 3).pc = 3 ∧
      (list (multiply [1, 3] 0) 3).values 2 = some 7 ∧
      deadBefore config ((multiply [1, 3] 0).drop 3) 2 = false ∧
      ¬Located (context (onlyMulu2 lowTiedToConst) (multiply [1, 3] 0) 3)
        (run (onlyMulu2 lowTiedToConst) (multiply [1, 3] 0) 3).host 2 7) ∧
    ((run untied (multiply [3, 3] 6) 3).pc = 3 ∧ (list (multiply [3, 3] 6) 3).values 3 = some 0 ∧
      deadBefore config ((multiply [3, 3] 6).drop 3) 3 = false ∧
      ¬Located (context untied (multiply [3, 3] 6) 3) (run untied (multiply [3, 3] 6) 3).host 3 0) := by
  refine ⟨⟨rfl, rfl, rfl⟩, ⟨rfl, rfl, rfl, ?_, rfl, ?_⟩, ⟨rfl, rfl, rfl, ?_, ?_⟩,
    ⟨rfl, rfl, rfl, ?_⟩, rfl, rfl, rfl, ?_⟩
  · exact fun located => absurd (And.left located) nofun
  · exact fun located => absurd (And.left located) (by decide)
  · exact fun located => absurd (And.left located) (by decide)
  · exact fun checked => absurd (checked.2 1 rfl rfl) (by decide)
  · exact fun located => absurd (And.left located) (by decide)
  · exact fun located => located

end Qemu.Tcg
