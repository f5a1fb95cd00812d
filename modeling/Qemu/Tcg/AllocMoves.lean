import Qemu.Tcg.AllocOutputs

/-!
# Moves

`tcg_reg_alloc_mov` and `tcg_reg_alloc_movi` do not always emit code: a constant is only recorded,
and a move from a dead input hands over its register.  In every case the output ends up with the
value of the input.
-/

namespace Qemu.Tcg

open TCGContext Prog Function Kept AllocSteps

variable {W : Type} {target : Target} {config : TCGTemps} {layout : Layout target config}
  {dead : TCGArg → Prop} {s s' s'' : TCGContext} {host host' : Host W} {out arg : TCGArg} {reg : Reg}

/-- No operand has to survive. -/
def Kept.nothing : Kept := ⟨fun _ => false, fun _ => false⟩

theorem AllocSteps.forget {dead' : TCGArg → Prop} {kept : Kept}
    (steps : AllocSteps layout dead kept s host s' host')
    (more_dead : ∀ temp, dead temp → dead' temp) :
    AllocSteps layout dead' nothing s host s' host' :=
  steps.mono more_dead (fun _ keep => absurd keep Bool.false_ne_true)
    fun _ keep => absurd keep Bool.false_ne_true

/-- The variable has the value in a register that is newer than memory, or as a constant. -/
inductive Placed (s : TCGContext) (host : Host W) (temp value : TCGArg) : Prop where
  | reg (here : (s.temps temp).valType = .reg)
      (newer : (s.temps temp).fixedReg = true ∨ (s.temps temp).memCoherent = false)
      (holds : host.regs (s.temps temp).reg = value)
  | const (there : (s.temps temp).valType = .const) (holds : (s.temps temp).val = value)

theorem Placed.holds {temp value : TCGArg} (placed : Placed s host temp value)
    (final : TCGContext) : Holds final s host temp value := by
  cases placed with
  | reg here newer holds =>
    refine ⟨fun _ => holds, fun _ unfixed coherent => ?_, ?_, ?_, ?_⟩
    · simp [unfixed, coherent] at newer
    all_goals simp [here]
  | const there holds => exact ⟨by simp [there], by simp [there], by simp [there],
      fun _ => holds, by simp [there]⟩

/-! ## The register of the output -/

/-- A register that a move to the variable may write: its own, or a free one. -/
inductive MovReg (layout : Layout target config) (s : TCGContext) (out : TCGArg) : Reg → Prop where
  | own (here : (s.temps out).valType = .reg) : MovReg layout s out (s.temps out).reg
  | free {reg : Reg} (outside : (s.temps out).valType ≠ .reg) (free : s.regToTemp reg = none)
      (unreserved : target.reservedRegs reg = false) : MovReg layout s out reg

theorem movReg_stores (dead : TCGArg → Prop) (kept : Kept) (inv : AllocInv layout s)
    (run : movReg target out s = (.ok reg, s')) (host : Host W) :
    ∃ host', Stores layout dead kept s host s' host' ∧ MovReg layout s' out reg := by
  simp only [movReg, get_bind] at run
  split at run
  · next here =>
    obtain ⟨rfl, rfl⟩ := ok_inj run
    exact ⟨host, Stores.refl s host, .own here⟩
  · next outside =>
    obtain ⟨host', stores, free, -, -, -, unreserved⟩ :=
      tcgRegAlloc_stores dead kept inv (fun _ => id) run host
    refine ⟨host', stores, .free ?_ free unreserved⟩
    rwa [stores.stays out outside]

theorem record_of_markDead (place : MovReg layout s out reg) (coherent : Bool) :
    (s.markDead out).record out reg coherent = s.record out reg coherent := by
  rw [record_markDead]
  cases place with
  | own here => simp [releaseReg, here, record, setReg, setTemp]
  | free outside => simp [releaseReg, outside]

theorem emit_markDead (instr : HostInstr) :
    (s.emit instr).markDead out = (s.markDead out).emit instr := by
  unfold markDead releaseReg
  by_cases here : (s.temps out).valType = .reg <;>
    simp [emit, here, setValType, setTemp, setReg]

section

variable (place : MovReg layout s out reg)

include place

theorem MovReg.emit (instr : HostInstr) : MovReg layout (s.emit instr) out reg := by
  cases place with
  | own here => exact .own (s := s.emit instr) here
  | free outside free unreserved => exact .free outside free unreserved

theorem MovReg.dropped (inv : AllocInv layout s)
    (unfixed : ¬layout.Fixed out) :
    (s.markDead out).regToTemp reg = none ∧ target.reservedRegs reg = false := by
  cases place with
  | own here =>
    obtain ⟨owner, unreserved⟩ := inv.reg_of_temp out here unfixed
    exact ⟨by rw [regToTemp_markDead inv unfixed, if_pos owner], unreserved⟩
  | free _ free unreserved => exact ⟨by simp [regToTemp_markDead inv unfixed, free], unreserved⟩

theorem MovReg.fixed (inv : AllocInv layout s)
    (fixed : layout.Fixed out) : reg = (s.temps out).reg := by
  cases place with
  | own => rfl
  | free outside => exact absurd (inv.fixed_reg out fixed).1 outside

end

/-- The output is recorded in a register that already has its value. -/
theorem record_steps (inv : AllocInv layout s) (unneeded : dead out)
    (place : MovReg layout s out reg) (host : Host W) :
    AllocSteps layout dead nothing s host (s.record out reg false) host := by
  by_cases fixed : layout.Fixed out
  · rw [place.fixed inv fixed]
    exact .single (.recordFixed fixed)
  · obtain ⟨free, unreserved⟩ := place.dropped inv fixed
    rw [← record_of_markDead place]
    exact (single (.drop unneeded fixed)).tail
      (.bind unneeded (valType_markDead out) free unreserved)

/-- The output is computed into a register and recorded there. -/
theorem emit_record_steps {instr : HostInstr} (inv : AllocInv layout s) (unneeded : dead out)
    (place : MovReg layout s out reg) (writes : instr.writes = some reg) (host : Host W) :
    AllocSteps layout dead nothing s host ((s.emit instr).record out reg false)
      (host.move instr) := by
  by_cases fixed : layout.Fixed out
  · have same := place.fixed inv fixed
    subst same
    exact (single (.writeFixed fixed unneeded writes rfl)).tail
      (.recordFixed (s := s.emit instr) fixed)
  · obtain ⟨free, unreserved⟩ := place.dropped inv fixed
    rw [← record_of_markDead (place.emit instr), emit_markDead]
    exact ((single (.drop unneeded fixed)).tail
      (.scratch writes free (Layout.not_fixedReg unreserved) rfl)).tail
      (.bind unneeded (valType_markDead out) free unreserved)

theorem placed_record {value : TCGArg} (holds : host.regs reg = value) :
    Placed (s.record out reg false) host out value := by
  refine .reg ?_ (.inr ?_) ?_
  all_goals simp only [record, setReg, setTemp, update_self]
  exact holds

/-! ## Moves from each kind of location -/

theorem movFromReg_steps (inv : AllocInv layout s) (unneeded : dead out)
    (run : movFromReg target out arg s = (.ok (), s')) (host : Host W) :
    ∃ host', AllocSteps layout dead nothing s host s' host' ∧
      Placed s' host' out (host.regs (s.temps arg).reg) := by
  obtain ⟨reg, middle, chosen, finished⟩ := bind_eq_ok.mp run
  obtain ⟨host₁, stores, place⟩ := movReg_stores dead nothing inv chosen host
  have middle_inv := stores.steps.inv inv
  have same : host₁.regs (middle.temps arg).reg = host.regs (s.temps arg).reg := by
    rw [stores.regs, stores.spilled.reg]
  rw [get_bind] at finished
  obtain ⟨_, after, moved, recorded⟩ := bind_eq_ok.mp finished
  obtain rfl := (Prod.mk.inj recorded).2
  unfold tcgOutMovNe at moved
  split at moved
  · next same_reg =>
    obtain ⟨-, rfl⟩ := ok_inj moved
    exact ⟨host₁, stores.steps.trans (record_steps middle_inv unneeded place host₁),
      placed_record (by rw [← same, same_reg])⟩
  · obtain rfl := (Prod.mk.inj moved).2
    refine ⟨_, stores.steps.trans (emit_record_steps middle_inv unneeded place rfl host₁),
      placed_record ?_⟩
    simp [Host.move, Host.setReg, same]

theorem movFromMem_steps (inv : AllocInv layout s) (unneeded : dead out)
    (there : (s.temps arg).valType = .mem) (allocated : (s.temps arg).memAllocated = true)
    (run : movFromMem target out arg s = (.ok (), s')) (host : Host W) :
    ∃ host', AllocSteps layout dead nothing s host s' host' ∧
      Placed s' host' out (host.mem (s.temps arg).slot) := by
  obtain ⟨reg, middle, chosen, finished⟩ := bind_eq_ok.mp run
  obtain ⟨host₁, stores, place⟩ := movReg_stores dead nothing inv chosen host
  have unfixed : ¬layout.Fixed arg := inv.not_fixed_of_valType (by simp [there])
  have same : host₁.mem (middle.temps arg).slot = host.mem (s.temps arg).slot := by
    rw [(stores.steps.extends_state arg allocated).2]
    exact stores.words arg unfixed allocated (by simp [there])
  obtain rfl := (Prod.mk.inj finished).2
  refine ⟨_, stores.steps.trans (emit_record_steps (stores.steps.inv inv) unneeded place rfl host₁),
    placed_record ?_⟩
  simp [Host.move, Host.setReg, same]

theorem setConst_steps (unneeded : dead out) (unfixed : ¬layout.Fixed out)
    (val : TCGArg) (host : Host W) :
    let after := (s.releaseReg out).setTemp out
      { (s.releaseReg out).temps out with valType := .const, val }
    AllocSteps layout dead nothing s host after host ∧ Placed after host out val := by
  refine ⟨?_, .const ?_ ?_⟩
  · simpa [markDead, setValType, setTemp] using
      (single (.drop unneeded unfixed)).tail
        (.setConst val unneeded (valType_markDead out))
  all_goals simp [setTemp]

section

variable (inv : AllocInv layout s) (unneeded : dead out)

include inv unneeded

theorem tcgRegAllocMovi_steps {val : TCGArg} (run : tcgRegAllocMovi out val s = (.ok (), s'))
    (host : Host W) :
    ∃ host', AllocSteps layout dead nothing s host s' host' ∧ Placed s' host' out val := by
  simp only [tcgRegAllocMovi, get_bind] at run
  split at run
  · next flag =>
    have fixed := (inv.fixed_iff out).mp flag
    obtain rfl := (Prod.mk.inj run).2
    refine ⟨_, .single (.writeFixed fixed unneeded rfl rfl), .reg (inv.fixed_reg out fixed).1
      (.inl flag) ?_⟩
    simp [Host.move, Host.setReg, emit]
  · next flag =>
    obtain rfl := (Prod.mk.inj run).2
    exact ⟨host, setConst_steps unneeded (inv.not_fixed (by simpa using flag)) val host⟩

theorem movConst_steps {val : TCGArg} (run : movConst out val s = (.ok (), s')) (host : Host W) :
    ∃ host', AllocSteps layout dead nothing s host s' host' ∧ Placed s' host' out val := by
  simp only [movConst, get_bind] at run
  split at run
  · next flag =>
    have fixed := (inv.fixed_iff out).mp flag
    obtain rfl := (Prod.mk.inj run).2
    refine ⟨_, emit_record_steps inv unneeded (.own (inv.fixed_reg out fixed).1) rfl host,
      placed_record ?_⟩
    simp [Host.move, Host.setReg]
  · next flag =>
    obtain rfl := (Prod.mk.inj run).2
    exact ⟨host, setConst_steps unneeded (inv.not_fixed (by simpa using flag)) val host⟩

/-- The output takes over the register of an input that is not needed any more. -/
theorem movTakeOver_steps (arg_unneeded : dead arg) (unfixed : ¬layout.Fixed out)
    (arg_unfixed : ¬layout.Fixed arg) (here : (s.temps arg).valType = .reg) (host : Host W) :
    let after := ((s.releaseReg out).markDead arg).record out (s.temps arg).reg false
    AllocSteps layout dead nothing s host after host ∧
      Placed after host out (host.regs (s.temps arg).reg) := by
  obtain ⟨owner, unreserved⟩ := inv.reg_of_temp arg here arg_unfixed
  refine ⟨?_, placed_record rfl⟩
  by_cases same : arg = out
  · subst same
    have idem : ((s.releaseReg arg).markDead arg).record arg (s.temps arg).reg false =
        s.record arg (s.temps arg).reg false := by
      simp [markDead, releaseReg, here, record, setReg, setTemp, setValType]
    rw [idem]
    exact record_steps inv unneeded (.own here) host
  · have swap : ((s.releaseReg out).markDead arg).record out (s.temps arg).reg false =
        ((s.markDead out).markDead arg).record out (s.temps arg).reg false := by
      have ne : out ≠ arg := fun equal => same equal.symm
      unfold markDead releaseReg
      by_cases out_here : (s.temps out).valType = .reg
      all_goals
        simp [out_here, here, record, setReg, setTemp, setValType,
          update_of_ne same, update_of_ne ne]
        rw [update_comm ne]
        simp
    rw [swap]
    have dropped := inv.markDead unfixed
    have arg_owner : (s.markDead out).regToTemp (s.temps arg).reg = some arg := by
      rw [regToTemp_markDead inv unfixed, owner, if_neg fun equal => same (Option.some.inj equal)]
    have out_gone : (((s.markDead out).markDead arg).temps out).valType = .dead := by
      rw [temps_markDead_of_ne fun equal => same equal.symm]
      exact valType_markDead out
    have freed := (regToTemp_markDead dropped arg_unfixed (s.temps arg).reg).trans (if_pos arg_owner)
    exact ((single (.drop unneeded unfixed)).tail (.drop arg_unneeded arg_unfixed)).tail
      (.bind unneeded out_gone freed unreserved)

theorem tcgRegAllocMov_steps {deadArgs : DeadArgs} (given : isDeadArg deadArgs 1 = true → dead arg)
    (readable : Readable s arg) (run : tcgRegAllocMov target out arg deadArgs s = (.ok (), s'))
    (host : Host W) :
    ∃ host' copied, AllocSteps layout dead nothing s host s' host' ∧
      Placed s' host' out copied ∧
      ∀ final value, Extends s final → Holds final s host arg value → copied = value := by
  simp only [tcgRegAllocMov, get_bind] at run
  cases place : (s.temps arg).valType with
  | reg =>
    simp only [place] at run
    split at run
    · next dying =>
      simp only [Bool.and_eq_true, Bool.not_eq_true'] at dying
      obtain rfl := (Prod.mk.inj run).2
      obtain ⟨steps, placed⟩ := movTakeOver_steps inv unneeded (given dying.1.1)
        (inv.not_fixed dying.2) (inv.not_fixed dying.1.2) place host
      exact ⟨host, _, steps, placed, fun final value _ held => held.reg place⟩
    · obtain ⟨host', steps, placed⟩ := movFromReg_steps inv unneeded run host
      exact ⟨host', _, steps, placed, fun final value _ held => held.reg place⟩
  | mem =>
    simp only [place] at run
    obtain ⟨host', steps, placed⟩ :=
      movFromMem_steps inv unneeded place (readable place) run host
    refine ⟨host', _, steps, placed, fun final value whole held => ?_⟩
    rw [← (whole arg (readable place)).2]
    exact (held.mem place).2
  | const =>
    simp only [place] at run
    obtain ⟨host', steps, placed⟩ := movConst_steps inv unneeded run host
    exact ⟨host', _, steps, placed, fun final value _ held => held.const place⟩
  | dead =>
    simp only [place] at run
    simp at run

end

end Qemu.Tcg
