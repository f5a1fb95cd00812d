import Qemu.Tcg.DeadArgs
import Qemu.Tcg.Perform

/-!
# Running the code of one op

The code that the allocator emits for an op brings the host from a state that matches the variables
before the op to one that matches them after it, and does to the outside world what the op does.
-/

namespace Qemu.Tcg

open TCGContext Function List

variable {W : Type} {target : Target} {config : TCGTemps} {layout : Layout target config}
  {dead : TCGArg → Prop} {kept : Kept} {s s' : TCGContext} {host host' : Host W}

/-! ## Running emitted code -/

theorem runCode_append (machine : Machine W) {code : List HostInstr}
    (moves : ∀ instr ∈ code, instr.isMove = true) (rest : List HostInstr) (host : Host W) :
    machine.runCode (code ++ rest) host = machine.runCode rest (host.moves code) := by
  induction code generalizing host with
  | nil => rfl
  | cons instr code ih =>
    have tail := ih (fun other mem => moves other (mem_cons_of_mem _ mem)) (host.move instr)
    have first := moves instr mem_cons_self
    cases instr with
    | op => simp [HostInstr.isMove] at first
    | _ => exact tail

theorem runCode_of_steps (machine : Machine W) (fresh : s.code = [])
    (steps : AllocSteps layout dead kept s host s' host') :
    machine.runCode s'.code host = some (host', .fallThrough) := by
  obtain ⟨code, emits⟩ := steps.emits
  have whole := runCode_append machine emits.moves [] host
  rw [append_nil] at whole
  rw [emits.appended, fresh, nil_append, whole, emits.effect]
  rfl

/-- The host when the instruction of an op is reached, or at the end of the code without one. -/
def Host.beforeInstr (host : Host W) (code : List HostInstr) : Host W :=
  host.moves (code.takeWhile HostInstr.isMove)

/-! ## Ops with an instruction -/

/-- Survivors of a basic block are where every block looks for them. -/
def AtHome (layout : Layout target config) (final : TCGContext) (values : Values) (host : Host W) :
    Prop :=
  ∀ temp value, config.survives temp = true → values temp = some value →
    (layout.Fixed temp → host.regs (layout.globals temp).reg = value) ∧
    (¬layout.Fixed temp →
      (final.temps temp).memAllocated = true ∧ host.mem (final.temps temp).slot = value)

theorem atHome_of_matches {final : TCGContext} {values : Values} (inv : AllocInv layout s)
    (block_end : AtBlockEnd layout s)
    (matched : Matches final (fun temp => config.survives temp = true) values s host) :
    AtHome layout final values host := by
  intro temp value survives has_value
  have held := matched temp survives value has_value
  refine ⟨fun fixed => ?_, fun unfixed => held.mem (block_end temp survives unfixed)⟩
  obtain ⟨here, same_reg⟩ := inv.fixed_reg temp fixed
  exact same_reg ▸ held.reg here

theorem AtHome.matches {final : TCGContext} {values : Values} {live : TCGArg → Prop}
    (home : AtHome layout final values host) (inv : AllocInv layout s)
    (block_end : AtBlockEnd layout s)
    (ended : ∀ temp, values temp ≠ none → config.survives temp = true) :
    Matches final live values s host := by
  intro temp _ value has_value
  have survives := ended temp (by simp [has_value])
  obtain ⟨in_reg, in_mem⟩ := home temp value survives has_value
  by_cases fixed : layout.Fixed temp
  · obtain ⟨here, same_reg⟩ := inv.fixed_reg temp fixed
    exact (Placed.reg here (.inl ((inv.fixed_iff temp).mpr fixed))
      (same_reg ▸ in_reg fixed)).holds final
  · have there := block_end temp survives fixed
    exact ⟨by simp [there], by simp [there], fun _ => in_mem fixed, by simp [there],
      by simp [there]⟩

section

variable {action : Action} {forgotten : TCGArg → Prop} {outs : List TCGArg}
  {ins : List (Option TCGArg)} {deadArgs : DeadArgs} {final : TCGContext}
  {before after : DeadTemps} {values : Values} {semantics : Semantics W} {effect : Effect W}
  {args : List (Option TCGArg)}

theorem assign_of_nodup {results : List TCGArg} (nodup : outs.Nodup) {out value : TCGArg}
    (mem : out ∈ outs) (has_value : assign values outs results out = some value) :
    ∃ i : Nat, outs[i]? = some out ∧ results[i]? = some value := by
  induction outs generalizing values results with
  | nil => simp at mem
  | cons first rest ih =>
    obtain ⟨not_mem, rest_nodup⟩ := nodup_cons.mp nodup
    cases results with
    | nil =>
      rcases mem_cons.mp mem with rfl | tail
      · rw [assign, assign_of_notMem _ _ not_mem, update_self] at has_value
        simp at has_value
      · obtain ⟨i, found, given⟩ := ih rest_nodup tail has_value
        simp at given
    | cons result results =>
      rcases mem_cons.mp mem with rfl | tail
      · rw [assign, assign_of_notMem _ _ not_mem, update_self] at has_value
        exact ⟨0, rfl, has_value⟩
      · obtain ⟨i, found, given⟩ := ih rest_nodup tail has_value
        exact ⟨i + 1, by simpa using found, by simpa using given⟩

variable (config action forgotten outs ins deadArgs before after) in
/-- What the analysis says about the variables around an op. -/
structure Accounts : Prop where
  covers : Covers config action.access outs ins before after
  forgets : Forgets config action.access outs after forgotten
  nodup : outs.Nodup
  no_outs : action.access.endsBlock = true → outs = []
  live_outs : ∀ i out, outs[i]? = some out → after out = false → isDeadArg deadArgs i = false

section

variable (accounts : Accounts config action forgotten outs ins deadArgs before after)

include accounts

theorem Accounts.keeps {temp : TCGArg} (not_out : temp ∉ outs)
    (needs : if action.access.endsBlock then config.survives temp = true else after temp = false) :
    before temp = false ∧ ¬forgotten temp := by
  split at needs
  · next ends =>
    exact ⟨accounts.covers.block ends temp needs, fun forgot => by
      simp [accounts.forgets.block ends temp forgot] at needs⟩
  · next ends =>
    have ends := Bool.eq_false_iff.mpr ends
    exact ⟨accounts.covers.others ends temp not_out needs, fun forgot => by
      simp [accounts.forgets.others ends temp forgot not_out] at needs⟩

/-- What is needed after an op was needed before it or is one of its outputs. -/
theorem Accounts.needs {temp : TCGArg} (live : after temp = false) (not_out : temp ∉ outs)
    (has_value : action.access.values config outs effect values temp ≠ none) :
    before temp = false ∧ ¬forgotten temp := by
  refine accounts.keeps not_out ?_
  split
  · next ends =>
    by_contra perishes
    simp [Access.values, ends, endBlock, perishes] at has_value
  · exact live

end

theorem values_out (no_outs : action.access.endsBlock = true → outs = []) {temp : TCGArg}
    (mem : temp ∈ outs) :
    action.access.values config outs effect values temp =
      assign (if action.access.writesGlobals then setGlobals config values effect.globals
        else values) outs effect.outs temp := by
  cases ends : action.access.endsBlock with
  | true => simp [no_outs ends] at mem
  | false => simp [Access.values, ends]

/-- The code of an op with an instruction does what the op does. -/
theorem run_instructs (lawful : semantics.Lawful) (junk : Host W → Reg → TCGArg)
    (fresh : s.code = []) (instructs : Instructs W layout action forgotten outs ins deadArgs s s')
    (inv : AllocInv layout s) (final_inv : AllocInv layout final) (whole : Extends s' final)
    (accounts : Accounts config action forgotten outs ins deadArgs before after)
    (matched : Matches final (fun temp => before temp = false) values s host)
    (read : readArgs values ins = some args)
    (performed : semantics.perform action args (action.access.visible config values) host.world =
      some effect) :
    ∃ host', (layout.machine semantics junk).runCode s'.code host =
        some (host', action.access.next effect.next) ∧
      host'.world = (if action.access.effects then effect.world else host.world) ∧
      host'.trace = (if action.access.effects then
        host.trace ++ [⟨action, args, action.access.next effect.next⟩] else host.trace) ∧
      (action.access.next effect.next = .fallThrough →
        Matches final (fun temp => after temp = false)
          (action.access.values config outs effect values) s' host') ∧
      (action.access.next effect.next ≠ .fallThrough → action.access.endsBlock = true →
        AtHome layout final (action.access.values config outs effect values) host') ∧
      (action.access.readsGlobals = true → ∀ temp value, temp < config.nbGlobals →
        values temp = some value →
        (host.beforeInstr s'.code).global (layout.globals temp) = value) := by
  obtain ⟨outRegs, operands, middle, ready, finishes⟩ := instructs
  obtain ⟨host₁, ready⟩ := ready host
  obtain ⟨setup, setup_emits⟩ := ready.steps.emits
  have middle_code : middle.code = setup := by rw [setup_emits.appended, fresh, nil_append]
  have middle_inv := ready.steps.inv inv
  have finish_ext : Extends middle s' := by
    obtain ⟨host', steps, -⟩ := finishes host
    exact steps.extends_state
  have middle_whole := finish_ext.trans whole
  obtain ⟨host₂, performs, world, trace, rest_matches, outs_in_regs⟩ :=
    perform_ready junk ready final_inv middle_whole matched accounts.covers accounts.forgets inv
      lawful read performed
  obtain ⟨host₃, steps, placed⟩ := finishes host₂
  obtain ⟨post, post_emits⟩ := steps.emits
  have code_eq : s'.code = setup ++ .op action outRegs operands :: post := by
    rw [post_emits.appended]
    simp [emit, middle_code]
  have run_setup := runCode_append (layout.machine semantics junk) setup_emits.moves
    (.op action outRegs operands :: post) host
  rw [← setup_emits.effect] at run_setup
  have at_home : action.access.readsGlobals = true → ∀ temp value, temp < config.nbGlobals →
      values temp = some value →
      (host.beforeInstr s'.code).global (layout.globals temp) = value := by
    intro reads temp value global has_value
    have visible : action.access.visible config values temp = some value := by
      simp [Access.visible, reads, globalValues, global, has_value]
    have seen := visible_refines junk ready final_inv middle_whole matched accounts.covers
      accounts.forgets semantics visible
    rw [Host.beforeInstr, code_eq, takeWhile_append_of_pos setup_emits.moves,
      takeWhile_cons_of_neg (by simp [HostInstr.isMove]), append_nil, ← setup_emits.effect]
    simpa [Machine.visible, reads, Layout.machine, global] using seen
  by_cases falls : action.access.next effect.next = .fallThrough
  · refine ⟨host₃, ?_, ?_, ?_, fun _ => ?_, fun leaves => absurd falls leaves, at_home⟩
    · rw [code_eq, run_setup, Machine.runCode, performs, falls]
      simp only
      have run_post := runCode_append (layout.machine semantics junk) post_emits.moves [] host₂
      rw [append_nil] at run_post
      rw [run_post, ← post_emits.effect]
      rfl
    · rw [steps.world.1, world]
    · rw [steps.world.2, trace]
    · intro temp live value has_value
      by_cases mem : temp ∈ outs
      · rw [values_out accounts.no_outs mem] at has_value
        obtain ⟨i, found, given⟩ := assign_of_nodup accounts.nodup mem has_value
        have reg_lt : i < outRegs.length := by
          obtain ⟨out_lt, -⟩ := List.getElem?_eq_some_iff.mp found
          rwa [← ready.receives.length_eq]
        have found_reg := getElem?_eq_getElem reg_lt
        have delivered := placed i temp _ found found_reg (accounts.live_outs i temp found live)
        rw [outs_in_regs i _ value found_reg given] at delivered
        exact delivered.holds final
      · have rest : Matches final (fun temp => after temp = false ∧ temp ∉ outs)
            (action.access.values config outs effect values)
            (middle.emit (.op action outRegs operands)) host₂ :=
          (rest_matches (fun temp => after temp = false) fun _ => accounts.needs).of_temps rfl
        exact steps.matches_of_matches (middle_inv.emit _) final_inv whole
          (fun other kept => kept.2) rest temp ⟨live, mem⟩ value has_value
  · refine ⟨host₂, ?_, world, trace, fun equal => absurd equal falls, fun _ ends => ?_, at_home⟩
    · rw [code_eq, run_setup, Machine.runCode, performs]
      cases next : action.access.next effect.next with
      | fallThrough => exact absurd next falls
      | goto label | exit => rfl
    · have rest := rest_matches (fun temp => config.survives temp = true)
        fun temp survives not_out _ => accounts.keeps not_out (by rwa [if_pos ends])
      refine atHome_of_matches middle_inv (ready.blockEnd ends) fun temp survives => ?_
      exact rest temp ⟨survives, by simp [accounts.no_outs ends]⟩

end

end Qemu.Tcg
