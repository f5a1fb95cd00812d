import Qemu.Tcg.AllocCall
import Qemu.Tcg.LivenessSound

/-!
# Effect of an instruction

When the instruction of an op runs in the state the allocator has prepared for it, it sees the
values that the op sees, and afterwards the recorded locations hold the values after the op.
-/

namespace Qemu.Tcg

open TCGContext Function List Machine Host Option Layout

variable {W : Type} {target : Target} {config : TCGTemps} {layout : Layout target config}
variable {temp value : TCGArg} {reg : Reg} {ts : TCGTemp}
  {s s' : TCGContext} {host : Host W}

variable {values : Values} {slot : Slot}

/-! ## Laws of the ops -/

/-- The second effect is the first one with more known about the globals. -/
structure Effect.Refines (effect effect' : Effect W) : Prop where
  outs : effect'.outs = effect.outs
  world : effect'.world = effect.world
  next : effect'.next = effect.next
  globals : ∀ temp value, effect.globals temp = some value → effect'.globals temp = some value

/-- Moves copy their input, and no op depends on a global that has no value. -/
structure Semantics.Lawful (semantics : Semantics W) : Prop where
  mov : ∀ cargs value globals world effect,
    semantics.perform (.op .movI32 cargs) [some value] globals world = some effect →
      effect.outs = [value]
  movi : ∀ value args globals world effect,
    semantics.perform (.op .moviI32 [value]) args globals world = some effect →
      effect.outs = [value]
  refines : ∀ action args globals globals' world effect,
    (∀ temp value, globals temp = some value → globals' temp = some value) →
    semantics.perform action args globals world = some effect →
      ∃ effect', semantics.perform action args globals' world = some effect' ∧
        effect.Refines effect'

/-- The machine on which the generated code runs. -/
def Layout.machine (layout : Layout target config) (semantics : Semantics W)
    (junk : Host W → Reg → TCGArg) : Machine W :=
  ⟨target, config, layout.globals, semantics, junk⟩

/-! ## Registers and memory after an instruction -/

namespace Host

theorem regs_setRegs_of_notMem {regs : List Reg} {values : List TCGArg} (not_mem : reg ∉ regs) :
    (host.setRegs regs values).regs reg = host.regs reg := by
  induction regs generalizing host values with
  | nil => rfl
  | cons first rest ih =>
    cases values with
    | nil => rfl
    | cons value values =>
      rw [setRegs, ih (not_mem_of_not_mem_cons not_mem)]
      exact update_of_ne (ne_of_not_mem_cons not_mem) _ _

theorem regs_setRegs {regs : List Reg} {values : List TCGArg} (nodup : regs.Nodup) {i : Nat}
    {value : TCGArg} (found : regs[i]? = some reg) (given : values[i]? = some value) :
    (host.setRegs regs values).regs reg = value := by
  induction regs generalizing host values i with
  | nil => simp at found
  | cons first rest ih =>
    obtain ⟨not_mem, rest_nodup⟩ := nodup_cons.mp nodup
    cases values with
    | nil => simp at given
    | cons head values =>
      cases i with
      | zero =>
        obtain rfl : first = reg := by simpa using found
        obtain rfl : head = value := by simpa using given
        rw [setRegs, regs_setRegs_of_notMem not_mem]
        simp [setReg]
      | succ i => exact ih rest_nodup (by simpa using found) (by simpa using given)

@[simp] theorem mem_setRegs (regs : List Reg) (values : List TCGArg) :
    (host.setRegs regs values).mem = host.mem := by
  induction regs generalizing host values with
  | nil => rfl
  | cons first rest ih =>
    cases values with
    | nil => rfl
    | cons value values => exact ih _

theorem regs_setGlobal_of_ne (value : TCGArg) (ne : ts.fixedReg = true → reg ≠ ts.reg) :
    (host.setGlobal ts value).regs reg = host.regs reg := by
  unfold setGlobal
  by_cases flag : ts.fixedReg = true
  · rw [if_pos flag]
    exact update_of_ne (ne flag) _ _
  · rw [if_neg flag]
    rfl

theorem mem_setGlobal_of_ne (value : TCGArg) (ne : ts.fixedReg = false → slot ≠ ts.slot) :
    (host.setGlobal ts value).mem slot = host.mem slot := by
  unfold setGlobal
  by_cases flag : ts.fixedReg = true
  · rw [if_pos flag]
    rfl
  · rw [if_neg flag]
    exact update_of_ne (ne (by simpa using flag)) _ _

@[simp] theorem global_setGlobal (host : Host W) (ts : TCGTemp) (value : TCGArg) :
    (host.setGlobal ts value).global ts = value := by
  by_cases flag : ts.fixedReg = true <;> simp [setGlobal, global, flag, setReg, setMem]

theorem global_congr {host' : Host W}
    (regs : ts.fixedReg = true → host'.regs ts.reg = host.regs ts.reg)
    (mem : ts.fixedReg = false → host'.mem ts.slot = host.mem ts.slot) :
    host'.global ts = host.global ts := by
  unfold global
  split
  · next flag => exact regs flag
  · next flag => exact mem (by simpa using flag)

end Host

namespace Layout

variable (layout) (semantics : Semantics W) (junk : Host W → Reg → TCGArg)

theorem regs_storeGlobals_of_ne {temps : List TCGArg} {reg : Reg}
    (apart : ∀ temp ∈ temps, (layout.globals temp).fixedReg = true →
      reg ≠ (layout.globals temp).reg) :
    ((layout.machine semantics junk).storeGlobals values temps host).regs reg = host.regs reg := by
  induction temps generalizing host with
  | nil => rfl
  | cons temp rest ih =>
    rw [storeGlobals, ih fun other mem => apart other (mem_cons_of_mem _ mem)]
    cases values temp with
    | none => rfl
    | some value => exact regs_setGlobal_of_ne value (apart temp mem_cons_self)

theorem mem_storeGlobals_of_ne {temps : List TCGArg}
    (apart : ∀ temp ∈ temps, (layout.globals temp).fixedReg = false →
      slot ≠ (layout.globals temp).slot) :
    ((layout.machine semantics junk).storeGlobals values temps host).mem slot = host.mem slot := by
  induction temps generalizing host with
  | nil => rfl
  | cons temp rest ih =>
    rw [storeGlobals, ih fun other mem => apart other (mem_cons_of_mem _ mem)]
    cases values temp with
    | none => rfl
    | some value => exact mem_setGlobal_of_ne value (apart temp mem_cons_self)

theorem global_storeGlobals (host : Host W) {temps : List TCGArg}
    (globals : ∀ other ∈ temps, other < config.nbGlobals) (nodup : temps.Nodup)
    (mem : temp ∈ temps) (has_value : values temp = some value) :
    ((layout.machine semantics junk).storeGlobals values temps host).global
      (layout.globals temp) = value := by
  induction temps generalizing host with
  | nil => simp at mem
  | cons first rest ih =>
    obtain ⟨not_mem, rest_nodup⟩ := nodup_cons.mp nodup
    have rest_globals : ∀ other ∈ rest, other < config.nbGlobals :=
      fun other mem => globals other (mem_cons_of_mem _ mem)
    rw [storeGlobals]
    rcases mem_cons.mp mem with rfl | tail
    · have global := globals temp mem_cons_self
      have ne : ∀ other ∈ rest, temp ≠ other := fun other other_mem same =>
        not_mem (same ▸ other_mem)
      rw [has_value]
      refine (global_congr (fun flag => ?_) fun flag => ?_).trans
        (global_setGlobal host (layout.globals temp) value)
      · exact layout.regs_storeGlobals_of_ne semantics junk fun other other_mem flag' same =>
        ne other other_mem (layout.fixed_injective temp other global
          (rest_globals other other_mem) flag flag' same)
      · exact layout.mem_storeGlobals_of_ne semantics junk fun other other_mem flag' same =>
        ne other other_mem (layout.home_injective temp other global
          (rest_globals other other_mem) flag flag' same)
    · exact ih _ rest_globals rest_nodup tail

end Layout

/-! ## What the instruction sees -/

theorem operands_eq_args {final sₘ : TCGContext} {hostₘ : Host W} {live : TCGArg → Prop}
    {ins : List (Option TCGArg)} {operands : List (Option Operand)} {args : List (Option TCGArg)}
    (final_inv : AllocInv layout final) (whole : Extends sₘ final)
    (matched : Matches final live values s host) (needed : ∀ arg, some arg ∈ ins → live arg)
    (carries : Forall₂ (CarriesArg layout s host sₘ hostₘ) ins operands)
    (read : readArgs values ins = some args) : operands.map (Option.map hostₘ.operand) = args := by
  induction carries generalizing args with
  | nil => exact some.inj read
  | @cons arg operand ins operands first rest ih =>
    have tail : ∀ rest_args, readArgs values ins = some rest_args →
        operands.map (Option.map hostₘ.operand) = rest_args := fun rest_args =>
      ih fun arg mem => needed arg (mem_cons_of_mem _ mem)
    cases arg with
    | none =>
      cases operand with
      | some => exact first.elim
      | none =>
        obtain ⟨rest_args, rest_read, rfl⟩ := map_eq_some_iff.mp read
        rw [map_cons, tail rest_args rest_read]
        rfl
    | some arg =>
      cases operand with
      | none => exact first.elim
      | some operand =>
        cases has_value : values arg with
        | none => simp [readArgs, has_value] at read
        | some value =>
          simp only [readArgs, has_value] at read
          obtain ⟨rest_args, rest_read, rfl⟩ := map_eq_some_iff.mp read
          have carried := first final live values value final_inv whole (fun _ _ => id)
            matched (needed arg mem_cons_self) has_value
          rw [map_cons, tail rest_args rest_read, map_some, carried]

theorem operand_home (host : Host W) (temp : TCGArg) :
    host.operand (layout.home temp) = host.global (layout.globals temp) := by
  unfold home global
  split <;> rfl

/-- What the allocator may have forgotten by the time the instruction is emitted. -/
structure Forgets (config : TCGTemps) (access : Access) (outs : List TCGArg) (after : DeadTemps)
    (forgotten : TCGArg → Prop) : Prop where
  block : access.endsBlock = true → ∀ temp, forgotten temp → config.survives temp = false
  others : access.endsBlock = false → ∀ temp, forgotten temp → temp ∉ outs → after temp = true
  globals : access.readsGlobals = true → ∀ temp, temp < config.nbGlobals → ¬forgotten temp

section

variable {action : Action} {forgotten : TCGArg → Prop} {outs : List TCGArg}
  {ins : List (Option TCGArg)} {outRegs : List Reg} {operands : List (Option Operand)}
  {final sₘ : TCGContext} {hostₘ : Host W} {before after : DeadTemps} {values : Values}
  {semantics : Semantics W} {effect effect' : Effect W} {args : List (Option TCGArg)}
  {live : TCGArg → Prop}

/-- A variable that is not an output is in none of the registers that receive outputs. -/
theorem reg_notMem_outRegs {temp : TCGArg} (inv : AllocInv layout s)
    (receives : Forall₂ (OutReg layout s) outs outRegs) (here : (s.temps temp).valType = .reg)
    (not_out : temp ∉ outs) : (s.temps temp).reg ∉ outRegs := by
  intro mem
  obtain ⟨i, found⟩ := mem_iff_getElem?.mp mem
  obtain ⟨reg_lt, reg_eq⟩ := List.getElem?_eq_some_iff.mp found
  have out_lt : i < outs.length := receives.length_eq ▸ reg_lt
  have kind := (forall₂_iff_get.mp receives).2 i out_lt reg_lt
  simp only [get_eq_getElem, reg_eq] at kind
  have ne : temp ≠ outs[i] := fun same => not_out (same ▸ getElem_mem out_lt)
  by_cases fixed : layout.Fixed temp
  · have same_reg := (inv.fixed_reg temp fixed).2
    rcases kind with ⟨out_fixed, same⟩ | ⟨unfixed_reg, -⟩
    · refine ne (layout.fixed_injective _ _ fixed.1 out_fixed.1 fixed.2 out_fixed.2 ?_)
      rw [← same_reg, same]
    · exact unfixed_reg ⟨temp, fixed, same_reg.symm⟩
  · obtain ⟨owner, unreserved⟩ := inv.reg_of_temp temp here fixed
    rcases kind with ⟨out_fixed, same⟩ | ⟨-, only⟩
    · exact not_fixedReg unreserved ⟨_, out_fixed, same.symm⟩
    · exact ne (only temp owner)

section

variable (layout : Layout target config) (semantics : Semantics W)
  (junk : Host W → Reg → TCGArg)

theorem apply_regs_of_notMem (not_mem : reg ∉ outRegs)
    (spared : clobbers action = true → target.callClobberRegs reg = false)
    (apart : action.access.writesGlobals = true → ¬layout.FixedReg reg) :
    ((layout.machine semantics junk).apply action outRegs args effect host).regs reg =
      host.regs reg := by
  have clobbered : ((layout.machine semantics junk).clobber action host).regs reg =
      host.regs reg := by
    unfold clobber
    split
    · next clobbers => simp [machine, spared clobbers]
    · rfl
  rw [apply]
  rw [regs_setRegs_of_notMem not_mem, ← clobbered]
  split
  · next writes =>
    refine layout.regs_storeGlobals_of_ne semantics junk fun temp mem flag same => ?_
    exact apart writes ⟨temp, ⟨mem_range.mp mem, flag⟩, same.symm⟩
  · rfl

theorem apply_mem_of_ne (apart : action.access.writesGlobals = true → ∀ temp, temp < config.nbGlobals →
      (layout.globals temp).fixedReg = false → slot ≠ (layout.globals temp).slot) :
    ((layout.machine semantics junk).apply action outRegs args effect host).mem slot =
      host.mem slot := by
  have clobbered : ((layout.machine semantics junk).clobber action host).mem = host.mem := by
    unfold clobber
    split <;> rfl
  rw [apply]
  simp only [mem_setRegs]
  rw [← clobbered]
  split
  · next writes =>
    exact layout.mem_storeGlobals_of_ne semantics junk fun temp mem =>
      apart writes temp (mem_range.mp mem)
  · rfl

theorem apply_global (args : List (Option TCGArg)) (host : Host W)
    (global : temp < config.nbGlobals) (writes : action.access.writesGlobals = true)
    (has_value : effect.globals temp = some value)
    (not_mem : (layout.globals temp).fixedReg = true → (layout.globals temp).reg ∉ outRegs) :
    ((layout.machine semantics junk).apply action outRegs args effect host).global
      (layout.globals temp) = value := by
  have stored := layout.global_storeGlobals semantics junk
    ((layout.machine semantics junk).clobber action host) (fun _ => mem_range.mp) nodup_range (mem_range.mpr global) has_value
  refine (global_congr (fun flag => ?_) fun flag => ?_).trans stored
  · rw [apply]
    simp only [writes, if_true]
    exact regs_setRegs_of_notMem (not_mem flag)
  · rw [apply]
    simp only [writes, if_true, mem_setRegs]
    rfl

end

theorem Action.readsGlobals_of_writes {action : Action}
    (writes : action.access.writesGlobals = true) : action.access.readsGlobals = true := by
  cases action with
  | op opc cargs =>
    simp only [access, TCGOpDef.access, Bool.and_eq_true] at writes ⊢
    simp [writes.2]
  | call flags =>
    simp only [access, CallFlags.access, Bool.and_eq_true] at writes ⊢
    exact writes.1

theorem moves_world (host : Host W) (code : List HostInstr) :
    (host.moves code).world = host.world ∧ (host.moves code).trace = host.trace := by
  induction code generalizing host with
  | nil => exact ⟨rfl, rfl⟩
  | cons instr code ih =>
    have first : (host.move instr).world = host.world ∧
        (host.move instr).trace = host.trace := by
      cases instr <;> exact ⟨rfl, rfl⟩
    obtain ⟨world, trace⟩ := ih (host.move instr)
    exact ⟨world.trans first.1, trace.trans first.2⟩

theorem AllocSteps.world {dead : TCGArg → Prop} {kept : Kept} {host' : Host W}
    (steps : AllocSteps layout dead kept s host s' host') :
    host'.world = host.world ∧ host'.trace = host.trace := by
  obtain ⟨code, emits⟩ := steps.emits
  rw [emits.effect]
  exact moves_world host code

/-! ## The locations afterwards -/

section

variable (junk : Host W → Reg → TCGArg)
  (ready : Ready layout action forgotten outs ins s host outRegs operands sₘ hostₘ)
  (final_inv : AllocInv layout final) (whole : Extends sₘ final)
  (matched : Matches final (fun temp => before temp = false) values s host)

include ready final_inv whole matched

/-- A variable that is not an output has its new value where the allocator says it is. -/
theorem matches_apply (inv : AllocInv layout s)
    (needs : ∀ temp, live temp → temp ∉ outs →
      action.access.values config outs effect values temp ≠ none →
      before temp = false ∧ ¬forgotten temp)
    (refines : effect.Refines effect') :
    Matches final (fun temp => live temp ∧ temp ∉ outs)
      (action.access.values config outs effect values) sₘ
      ((layout.machine semantics junk).apply action outRegs args effect' hostₘ) := by
  rintro temp ⟨is_live, not_out⟩ value has_value
  have inv_m := ready.steps.inv inv
  obtain ⟨was_live, kept⟩ := needs temp is_live not_out (by simp [has_value])
  have stored : (if action.access.writesGlobals then setGlobals config values effect.globals
      else values) temp = some value := by
    refine (assign_of_notMem _ effect.outs not_out).symm.trans ?_
    unfold Access.values at has_value
    split at has_value
    · unfold endBlock at has_value
      split at has_value
      · exact has_value
      · simp at has_value
    · exact has_value
  by_cases changed : action.access.writesGlobals = true ∧ temp < config.nbGlobals
  · obtain ⟨writes, global⟩ := changed
    have new_value : effect'.globals temp = some value := by
      refine refines.globals temp value ?_
      simpa [writes, setGlobals, global] using stored
    have not_received : (layout.globals temp).fixedReg = true →
        (layout.globals temp).reg ∉ outRegs := by
      intro flag
      obtain ⟨here, same_reg⟩ := inv_m.fixed_reg temp ⟨global, flag⟩
      exact same_reg ▸ reg_notMem_outRegs inv_m ready.receives here not_out
    have at_home := apply_global layout semantics junk args hostₘ global writes
      new_value not_received
    by_cases fixed : layout.Fixed temp
    · obtain ⟨here, same_reg⟩ := inv_m.fixed_reg temp fixed
      rw [Host.global, if_pos fixed.2, ← same_reg] at at_home
      exact (Placed.reg here (.inl ((inv_m.fixed_iff temp).mpr fixed)) at_home).holds final
    · have flag : ¬(layout.globals temp).fixedReg = true := fun flag => fixed ⟨global, flag⟩
      have there := ready.saved (Action.readsGlobals_of_writes writes) temp global fixed not_out
      obtain ⟨allocated, home⟩ := final_inv.home temp global fixed
      rw [Host.global, if_neg flag, ← home] at at_home
      exact ⟨by simp [there], by simp [there], fun _ => ⟨allocated, at_home⟩, by simp [there],
        by simp [there]⟩
  · have old_value : values temp = some value := by
      split at stored
      · next writes =>
        have not_global : ¬temp < config.nbGlobals := fun global => changed ⟨writes, global⟩
        simpa [setGlobals, not_global] using stored
      · exact stored
    have held : Holds final sₘ hostₘ temp value :=
      ready.steps.holds_of_holds inv final_inv whole (fun forgot => forgot.elim kept not_out)
        (matched temp was_live value old_value)
    have not_fixed_if_written : action.access.writesGlobals = true → ¬layout.Fixed temp :=
      fun writes fixed => changed ⟨writes, fixed.1⟩
    refine held.frame inv_m whole rfl (fun here => ?_) fun unfixed allocated => ?_
    · refine apply_regs_of_notMem layout semantics junk
        (reg_notMem_outRegs inv_m ready.receives here not_out) (fun clobbers => ?_) fun writes => ?_
      · by_cases fixed : layout.Fixed temp
        · rw [(inv_m.fixed_reg temp fixed).2]
          exact layout.reserved_preserved temp fixed.1 fixed.2
        · have owner := (inv_m.reg_of_temp temp here fixed).1
          cases clobbered : target.callClobberRegs (sₘ.temps temp).reg with
          | false => rfl
          | true => exact absurd (ready.spared clobbers _ temp clobbered owner) not_out
      · exact not_fixedReg (inv_m.reg_of_temp temp here (not_fixed_if_written writes)).2
    · refine apply_mem_of_ne layout semantics junk fun writes other global flag same => ?_
      have other_unfixed : ¬layout.Fixed other := fun fixed => by simp [fixed.2] at flag
      obtain ⟨other_allocated, home⟩ := final_inv.home other global other_unfixed
      have equal := final_inv.slot_injective unfixed other_unfixed allocated other_allocated
        (same.trans home.symm)
      exact changed ⟨writes, equal ▸ global⟩

variable (covers : Covers config action.access outs ins before after)
  (forgets : Forgets config action.access outs after forgotten)

include covers forgets

theorem visible_refines (semantics : Semantics W)
    (has_value : action.access.visible config values temp = some value) :
    (layout.machine semantics junk).visible action.access hostₘ temp = some value := by
  unfold Access.visible at has_value
  split at has_value
  · next reads =>
    unfold globalValues at has_value
    split at has_value
    · next global =>
      have at_home := ready.globals reads temp global final (· = temp) values value final_inv
        whole (fun _ same => same ▸ forgets.globals reads temp global)
        (fun other same => same ▸ matched temp (covers.globals reads temp global)) rfl has_value
      rw [operand_home] at at_home
      simp [visible, reads, machine, global, at_home]
    · simp at has_value
  · simp at has_value

theorem perform_ready (inv : AllocInv layout s) (lawful : semantics.Lawful)
    (read : readArgs values ins = some args)
    (performed : semantics.perform action args (action.access.visible config values) host.world =
      some effect) :
    ∃ host', (layout.machine semantics junk).perform action outRegs operands hostₘ =
        some (host', action.access.next effect.next) ∧
      host'.world = (if action.access.effects then effect.world else host.world) ∧
      host'.trace = (if action.access.effects then
        host.trace ++ [⟨action, args, action.access.next effect.next⟩] else host.trace) ∧
      (∀ live : TCGArg → Prop, (∀ temp, live temp → temp ∉ outs →
          action.access.values config outs effect values temp ≠ none →
          before temp = false ∧ ¬forgotten temp) →
        Matches final (fun temp => live temp ∧ temp ∉ outs)
          (action.access.values config outs effect values) sₘ host') ∧
      ∀ (i : Nat) reg value, outRegs[i]? = some reg → effect.outs[i]? = some value →
        host'.regs reg = value := by
  obtain ⟨same_world, same_trace⟩ := ready.steps.world
  have same_args := operands_eq_args final_inv whole matched covers.inputs ready.carries read
  obtain ⟨effect', performed', refines⟩ := lawful.refines _ _ _ _ _ _
    (fun temp value => visible_refines junk ready final_inv whole matched covers forgets semantics)
    performed
  have same_next : action.access.next effect'.next = action.access.next effect.next := by
    rw [refines.next]
  refine ⟨(layout.machine semantics junk).apply action outRegs args effect' hostₘ, ?_, ?_, ?_,
    fun live needs => matches_apply junk ready final_inv whole matched inv needs refines,
    fun i reg value found given => ?_⟩
  · rw [perform, same_args, same_world]
    simp only [machine] at performed' ⊢
    rw [performed', map_some, same_next]
  · simp only [apply, refines.world, same_world]
  · simp only [apply, same_trace, same_next]
  · exact regs_setRegs ready.nodup found (refines.outs ▸ given)

end

end

end Qemu.Tcg
