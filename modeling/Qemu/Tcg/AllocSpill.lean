import Qemu.Tcg.AllocStep

/-!
# Freeing registers and saving variables

The functions of the allocator that move variables from registers to memory, as sequences of
allocator steps.  They only clear entries of `reg_to_temp`, and a variable they touch ends up in
memory.
-/

namespace Qemu.Tcg

open TCGContext Prog Function List Bool TCGTemps

variable {W : Type} {target : Target} {config : TCGTemps} {layout : Layout target config}
variable {allocatedRegs : TCGRegSet} {temp : TCGArg} {reg : Reg}
  {dead : TCGArg → Prop} {kept : Kept} {s s' s'' : TCGContext}

/-- Registers are only freed, and variables only move to memory. -/
structure Spilled (config : TCGTemps) (s s' : TCGContext) : Prop where
  valType : ∀ temp, (s'.temps temp).valType = (s.temps temp).valType ∨
    (s'.temps temp).valType = .mem
  reg : ∀ temp, (s'.temps temp).reg = (s.temps temp).reg
  val : ∀ temp, (s'.temps temp).val = (s.temps temp).val
  fixedReg : ∀ temp, (s'.temps temp).fixedReg = (s.temps temp).fixedReg
  memCoherent : ∀ temp, (s'.temps temp).memCoherent = (s.temps temp).memCoherent
  free : ∀ reg, s.regToTemp reg = none → s'.regToTemp reg = none
  gone : ∀ temp, config.survives temp = false → (s.temps temp).valType = .dead →
    (s'.temps temp).valType = .dead

namespace Spilled

theorem refl (s : TCGContext) : Spilled config s s :=
  ⟨fun _ => .inl rfl, fun _ => rfl, fun _ => rfl, fun _ => rfl, fun _ => rfl, fun _ => id,
    fun _ _ => id⟩

theorem trans (first : Spilled config s s') (second : Spilled config s' s'') :
    Spilled config s s'' where
  valType temp := by
    rcases second.valType temp with same | moved
    · rw [same]
      exact first.valType temp
    · exact .inr moved
  reg temp := (second.reg temp).trans (first.reg temp)
  val temp := (second.val temp).trans (first.val temp)
  fixedReg temp := (second.fixedReg temp).trans (first.fixedReg temp)
  memCoherent temp := (second.memCoherent temp).trans (first.memCoherent temp)
  free reg free := second.free reg (first.free reg free)
  gone temp perishes gone := second.gone temp perishes (first.gone temp perishes gone)

theorem mem (spilled : Spilled config s s') (there : (s.temps temp).valType = .mem) :
    (s'.temps temp).valType = .mem := by
  rcases spilled.valType temp with same | moved
  · rw [same, there]
  · exact moved

theorem emit (instr : HostInstr) : Spilled config s (s.emit instr) :=
  ⟨fun _ => .inl rfl, fun _ => rfl, fun _ => rfl, fun _ => rfl, fun _ => rfl, fun _ => id,
    fun _ _ => id⟩

theorem placeInFrame (frameReg : Reg) (temp : TCGArg) :
    Spilled config s (s.placeInFrame frameReg temp) := by
  constructor
  all_goals
    simp only [TCGContext.placeInFrame, setTemp, update_apply]
    grind

theorem setMem (temp : TCGArg)
    (survives : (s.temps temp).valType = .dead → config.survives temp = true) :
    Spilled config s (s.setValType temp .mem) := by
  constructor
  all_goals
    simp only [setValType, setTemp, update_apply]
    grind

theorem setReg (reg : Reg) : Spilled config s (s.setReg reg none) := by
  constructor
  all_goals
    simp only [TCGContext.setReg, update_apply]
    grind

end Spilled

/-- A run of the allocator that stores registers and does not change them. -/
structure Stores (layout : Layout target config) (dead : TCGArg → Prop) (kept : Kept)
    (s : TCGContext) (host : Host W) (s' : TCGContext) (host' : Host W) : Prop where
  steps : AllocSteps layout dead kept s host s' host'
  regs : host'.regs = host.regs
  spilled : Spilled config s s'
  stays : ∀ temp, (s.temps temp).valType ≠ .reg → (s'.temps temp).valType = (s.temps temp).valType
  /-- A variable that is not spilled keeps its word of memory. -/
  words : ∀ temp, ¬layout.Fixed temp → (s.temps temp).memAllocated = true →
    ((s.temps temp).valType = .reg → (s'.temps temp).valType = .reg) →
    host'.mem (s.temps temp).slot = host.mem (s.temps temp).slot

theorem Stores.refl (s : TCGContext) (host : Host W) : Stores layout dead kept s host s host :=
  ⟨.refl s host, rfl, Spilled.refl s, fun _ _ => rfl, fun _ _ _ _ => rfl⟩

theorem Stores.trans {host host' host'' : Host W} (first : Stores layout dead kept s host s' host')
    (second : Stores layout dead kept s' host' s'' host'') :
    Stores layout dead kept s host s'' host'' where
  steps := first.steps.trans second.steps
  regs := second.regs.trans first.regs
  spilled := first.spilled.trans second.spilled
  stays temp outside := by
    have same := first.stays temp outside
    rw [← same]
    exact second.stays temp (same ▸ outside)
  words temp unfixed placed staying := by
    obtain ⟨placed', same_slot⟩ := first.steps.extends_state temp placed
    have staying' : (s.temps temp).valType = .reg → (s'.temps temp).valType = .reg := by
      intro here
      rcases second.spilled.valType temp with same | moved
      · rw [← same, staying here]
      · exact absurd (staying here) (by simp [moved])
    have back : (s'.temps temp).valType = .reg → (s.temps temp).valType = .reg := by
      intro here
      by_contra outside
      rw [first.stays temp outside] at here
      exact outside here
    rw [← same_slot, second.words temp unfixed placed' fun here => staying (back here), same_slot]
    exact first.words temp unfixed placed staying'

variable (dead kept)

theorem tempEnsureFrame_stores (unfixed : ¬layout.Fixed temp)
    (run : tempEnsureFrame target temp s = (.ok (), s')) (host : Host W) :
    Stores layout dead kept s host s' host ∧ (s'.temps temp).memAllocated = true ∧
      (∀ other, (s'.temps other).valType = (s.temps other).valType) ∧
      s'.regToTemp = s.regToTemp := by
  simp only [tempEnsureFrame, get_bind] at run
  split at run
  · next placed =>
    obtain ⟨-, rfl⟩ := ok_inj run
    exact ⟨Stores.refl s host, placed, fun _ => rfl, rfl⟩
  · next homeless =>
    simp only [tempAllocateFrame, get_bind] at run
    split at run
    · simp at run
    · obtain rfl := (Prod.mk.inj run).2
      have same_type : ∀ other, ((s.placeInFrame target.frameReg temp).temps other).valType =
          (s.temps other).valType := by
        intro other
        simp only [placeInFrame, setTemp, update_apply]
        split <;> simp_all
      refine ⟨⟨.single (.placeInFrame (by simpa using homeless) unfixed (by omega)), rfl,
        .placeInFrame _ _, fun other _ => same_type other, fun _ _ _ _ => rfl⟩, ?_, same_type, rfl⟩
      simp only [placeInFrame, setTemp, update_self]

theorem setReg_setMem_stays {temp other : TCGArg} (here : (s.temps temp).valType = .reg)
    (outside : (s.temps other).valType ≠ .reg) :
    (((s.setValType temp .mem).setReg reg none).temps other).valType =
      (s.temps other).valType := by
  have ne : other ≠ temp := by
    rintro rfl
    exact outside here
  simp only [setValType, setReg, setTemp, update_of_ne ne]

theorem tcgRegFree_stores (inv : AllocInv layout s) (unfixed_reg : ¬layout.FixedReg reg)
    (run : tcgRegFree target reg s = (.ok (), s')) (host : Host W) :
    ∃ host', Stores layout dead kept s host s' host' ∧ s'.regToTemp reg = none ∧
      (∀ other, other ≠ reg → s'.regToTemp other = s.regToTemp other) ∧
      ∀ temp, s.regToTemp reg = some temp → (s'.temps temp).valType = .mem := by
  simp only [tcgRegFree, get_bind] at run
  cases owner : s.regToTemp reg with
  | none =>
    simp only [owner] at run
    obtain ⟨-, rfl⟩ := ok_inj run
    exact ⟨host, Stores.refl s host, owner, fun _ _ => rfl, nofun⟩
  | some temp =>
    obtain ⟨here, same_reg⟩ := inv.temp_of_reg reg temp owner
    have unfixed : ¬layout.Fixed temp := fun fixed =>
      unfixed_reg ⟨temp, fixed, by rw [← (inv.fixed_reg temp fixed).2, same_reg]⟩
    simp only [owner, here, if_true] at run
    obtain ⟨_, middle, synced, finished⟩ := bind_eq_ok.mp run
    obtain rfl := (Prod.mk.inj finished).2
    have freed : ((middle.setValType temp .mem).setReg reg none).regToTemp reg = none := by
      simp [setReg]
    have moved : (((middle.setValType temp .mem).setReg reg none).temps temp).valType = .mem := by
      simp [setReg, setValType, setTemp]
    simp only [tempSync, get_bind] at synced
    split at synced
    · next coherent =>
      obtain ⟨-, rfl⟩ := ok_inj synced
      refine ⟨host, ⟨.single (.spillCoherent unfixed here same_reg coherent), rfl, ?_, ?_,
        fun _ _ _ _ => rfl⟩, freed, fun other ne => update_of_ne ne _ _, ?_⟩
      · exact (Spilled.setMem temp (by simp [here])).trans (.setReg reg)
      · exact fun other outside => setReg_setMem_stays here outside
      · rintro _ ⟨⟩
        exact moved
    · obtain ⟨_, placed_state, ensured, stored⟩ := bind_eq_ok.mp synced
      obtain ⟨stores, placed, same_type, same_regs⟩ :=
        tempEnsureFrame_stores dead kept unfixed ensured host
      obtain rfl := (Prod.mk.inj stored).2
      have here' : (placed_state.temps temp).valType = .reg := by rw [same_type, here]
      have same_reg' : (placed_state.temps temp).reg = reg := by
        rw [stores.spilled.reg, same_reg]
      have emitted : Spilled config placed_state
          (placed_state.emit (.st reg (placed_state.temps temp).slot)) := .emit _
      refine ⟨_, stores.trans ⟨.single (.spill unfixed here' same_reg' placed), rfl, ?_, ?_, ?_⟩,
        freed, fun other ne => (update_of_ne ne _ _).trans (congrFun same_regs other), ?_⟩
      · exact (emitted.trans (.setMem temp (by simp [emit, here']))).trans (.setReg reg)
      · intro other outside
        have here'' : ((placed_state.emit (.st reg (placed_state.temps temp).slot)).temps
          temp).valType = .reg := here'
        exact setReg_setMem_stays here'' outside
      · intro other other_unfixed other_placed staying
        have ne : other ≠ temp := by
          rintro rfl
          simp [moved, here'] at staying
        refine update_of_ne (fun same_slot => ne ?_) _ _
        exact (stores.steps.inv inv).slot_injective other_unfixed unfixed other_placed placed
          same_slot
      · rintro _ ⟨⟩
        exact moved

/-- `tcg_reg_alloc` returns a free register of the first set that is not in the second. -/
theorem tcgRegAlloc_stores (inv : AllocInv layout s) {reg1 reg2 : TCGRegSet}
    (reserved : ∀ other, target.reservedRegs other = true → reg2 other = true)
    (run : tcgRegAlloc target reg1 reg2 s = (.ok reg, s')) (host : Host W) :
    ∃ host', Stores layout dead kept s host s' host' ∧ s'.regToTemp reg = none ∧
      (∀ other, other ≠ reg → s'.regToTemp other = s.regToTemp other) ∧
      reg1 reg = true ∧ reg2 reg = false ∧ target.reservedRegs reg = false := by
  have unreserved : ∀ {other}, reg2 other = false → target.reservedRegs other = false := by
    intro other not_in
    exact eq_false_of_imp (reserved other) not_in
  simp only [tcgRegAlloc, get_bind] at run
  cases found : target.regAllocOrder.find?
      fun other => reg1 other && !reg2 other && (s.regToTemp other).isNone with
  | some candidate =>
    simp only [found] at run
    obtain ⟨rfl, rfl⟩ := ok_inj run
    have chosen := find?_some found
    simp only [and_eq_true, not_eq_true', Option.isNone_iff_eq_none] at chosen
    exact ⟨host, Stores.refl s host, chosen.2, fun _ _ => rfl, chosen.1.1, chosen.1.2,
      unreserved chosen.1.2⟩
  | none =>
    simp only [found] at run
    cases taken : target.regAllocOrder.find? fun other => reg1 other && !reg2 other with
    | some candidate =>
      simp only [taken] at run
      obtain ⟨_, middle, freed, finished⟩ := bind_eq_ok.mp run
      obtain ⟨rfl, rfl⟩ := ok_inj finished
      have chosen := find?_some taken
      simp only [and_eq_true, not_eq_true'] at chosen
      obtain ⟨host', stores, free, others, -⟩ :=
        tcgRegFree_stores dead kept inv (Layout.not_fixedReg (unreserved chosen.2)) freed host
      exact ⟨host', stores, free, others, chosen.1, chosen.2, unreserved chosen.2⟩
    | none =>
      simp only [taken] at run
      simp at run

/-! ## Saving variables -/

variable {dead kept}

/-- A run of the allocator that may also use registers outside of a set for constants. -/
structure Saves (layout : Layout target config) (dead : TCGArg → Prop) (kept : Kept)
    (s : TCGContext) (host : Host W) (s' : TCGContext) (host' : Host W) : Prop where
  steps : AllocSteps layout dead kept s host s' host'
  spilled : Spilled config s s'

theorem Saves.refl (s : TCGContext) (host : Host W) : Saves layout dead kept s host s host :=
  ⟨.refl s host, Spilled.refl s⟩

theorem Saves.trans {host host' host'' : Host W} (first : Saves layout dead kept s host s' host')
    (second : Saves layout dead kept s' host' s'' host'') :
    Saves layout dead kept s host s'' host'' :=
  ⟨first.steps.trans second.steps, first.spilled.trans second.spilled⟩

theorem Stores.saves {host host' : Host W} (stores : Stores layout dead kept s host s' host') :
    Saves layout dead kept s host s' host' :=
  ⟨stores.steps, stores.spilled⟩

/-- Registers that are reserved or hold operands count as allocated. -/
structure Guards (target : Target) (kept : Kept) (allocatedRegs : TCGRegSet) : Prop where
  reserved : ∀ reg, target.reservedRegs reg = true → allocatedRegs reg = true
  protects : ∀ reg, kept.regs reg = true → allocatedRegs reg = true

theorem Guards.unused (guards : Guards target kept allocatedRegs)
    (unused : allocatedRegs reg = false) : kept.regs reg = false :=
  eq_false_of_imp (guards.protects reg) unused

variable (dead kept)

section

variable (inv : AllocInv layout s) (guards : Guards target kept allocatedRegs)

include inv guards

theorem tempSaveConst_saves (there : (s.temps temp).valType = .const)
    (run : tempSaveConst target temp allocatedRegs s = (.ok (), s')) (host : Host W) :
    ∃ host', Saves layout dead kept s host s' host' ∧ (s'.temps temp).valType = .mem := by
  have unfixed : ¬layout.Fixed temp := inv.not_fixed_of_valType (by simp [there])
  obtain ⟨reg, freed_state, allocated, rest⟩ := bind_eq_ok.mp run
  obtain ⟨host₁, stores, free, -, -, unused, unreserved⟩ :=
    tcgRegAlloc_stores dead kept inv guards.reserved allocated host
  obtain ⟨_, placed_state, ensured, finished⟩ := bind_eq_ok.mp rest
  obtain ⟨placing, placed, same_type, same_regs⟩ :=
    tempEnsureFrame_stores dead kept unfixed ensured host₁
  have before := stores.trans placing
  have there' : (placed_state.temps temp).valType = .const :=
    (before.stays temp (by simp [there])).trans there
  have free' : placed_state.regToTemp reg = none := by rw [same_regs, free]
  obtain rfl := (Prod.mk.inj finished).2
  have emitted : Spilled config placed_state
      ((placed_state.emit (.movi reg (placed_state.temps temp).val)).emit
        (.st reg (placed_state.temps temp).slot)) := (Spilled.emit _).trans (.emit _)
  refine ⟨_, before.saves.trans ⟨.single (.saveConst there' placed free'
    (Layout.not_fixedReg unreserved) (guards.unused unused)), ?_⟩, ?_⟩
  · exact emitted.trans (.setMem temp (by simp [emit, there']))
  · simp [setValType, setTemp]

/-- `temp_save` leaves a variable without a fixed register in memory. -/
theorem tempSave_saves (survives : config.survives temp = true)
    (run : tempSave target temp allocatedRegs s = (.ok (), s')) (host : Host W) :
    ∃ host', Saves layout dead kept s host s' host' ∧
      (¬layout.Fixed temp → (s'.temps temp).valType = .mem) := by
  simp only [tempSave, get_bind] at run
  split at run
  · next fixed =>
    obtain ⟨-, rfl⟩ := ok_inj run
    exact ⟨host, Saves.refl s host, fun unfixed => absurd ((inv.fixed_iff temp).mp fixed) unfixed⟩
  · next unfixed =>
    have unfixed : ¬layout.Fixed temp := inv.not_fixed (by simpa using unfixed)
    cases place : (s.temps temp).valType with
    | reg =>
      simp only [place] at run
      obtain ⟨owner, unreserved⟩ := inv.reg_of_temp temp place unfixed
      obtain ⟨host', stores, -, -, moved⟩ :=
        tcgRegFree_stores dead kept inv (Layout.not_fixedReg unreserved) run host
      exact ⟨host', stores.saves, fun _ => moved temp owner⟩
    | dead =>
      simp only [place] at run
      obtain rfl := (Prod.mk.inj run).2
      refine ⟨host, ⟨.single (.revive place survives), .setMem temp fun _ => survives⟩,
        fun _ => ?_⟩
      simp [setValType, setTemp]
    | const =>
      simp only [place] at run
      obtain ⟨host', saves, moved⟩ :=
        tempSaveConst_saves dead kept inv guards place run host
      exact ⟨host', saves, fun _ => moved⟩
    | mem =>
      simp only [place] at run
      obtain ⟨-, rfl⟩ := ok_inj run
      exact ⟨host, Saves.refl s host, fun _ => place⟩

theorem tempSaveAll_saves {temps : List TCGArg}
    (survive : ∀ temp ∈ temps, config.survives temp = true)
    (run : tempSaveAll target allocatedRegs temps s = (.ok (), s')) (host : Host W) :
    ∃ host', Saves layout dead kept s host s' host' ∧
      ∀ temp ∈ temps, ¬layout.Fixed temp → (s'.temps temp).valType = .mem := by
  induction temps generalizing s host with
  | nil =>
    obtain ⟨-, rfl⟩ := ok_inj run
    exact ⟨host, Saves.refl s host, nofun⟩
  | cons temp rest ih =>
    obtain ⟨_, middle, saved, remaining⟩ := bind_eq_ok.mp run
    obtain ⟨host₁, first, moved⟩ := tempSave_saves dead kept inv guards
      (survive temp mem_cons_self) saved host
    obtain ⟨host₂, second, all_moved⟩ := ih (first.steps.inv inv)
      (fun other mem => survive other (mem_cons_of_mem _ mem)) remaining host₁
    refine ⟨host₂, first.trans second, fun other mem unfixed => ?_⟩
    rcases mem_cons.mp mem with rfl | tail
    · exact second.spilled.mem (moved unfixed)
    · exact all_moved other tail unfixed

/-- `save_globals` leaves every global at its canonical location. -/
theorem saveGlobals_saves
    (run : saveGlobals target config allocatedRegs s = (.ok (), s')) (host : Host W) :
    ∃ host', Saves layout dead kept s host s' host' ∧
      ∀ temp, temp < config.nbGlobals → ¬layout.Fixed temp → (s'.temps temp).valType = .mem := by
  obtain ⟨host', saves, moved⟩ := tempSaveAll_saves dead kept inv guards
    (fun temp mem => survives_of_global (mem_range.mp mem)) run host
  exact ⟨host', saves, fun temp global => moved temp (mem_range.mpr global)⟩

/-- Variables that do not survive the end of a basic block. -/
def Perishes (config : TCGTemps) (temp : TCGArg) : Prop := config.survives temp = false

theorem endTemps_steps {temps : List TCGArg} (not_global : ∀ temp ∈ temps, config.nbGlobals ≤ temp)
    (run : endTemps target config allocatedRegs temps s = (.ok (), s')) (host : Host W) :
    ∃ host', AllocSteps layout (Perishes config) kept s host s' host' ∧
      (∀ temp, config.survives temp = true → (s.temps temp).valType = .mem →
        (s'.temps temp).valType = .mem) ∧
      ∀ temp ∈ temps, config.tempLocal temp = true → (s'.temps temp).valType = .mem := by
  induction temps generalizing s host with
  | nil =>
    obtain ⟨-, rfl⟩ := ok_inj run
    exact ⟨host, .refl s host, fun _ _ => id, nofun⟩
  | cons temp rest ih =>
    have bound := not_global temp mem_cons_self
    have unfixed : ¬layout.Fixed temp := fun fixed => absurd fixed.1 (Nat.not_lt.mpr bound)
    obtain ⟨_, middle, ended, remaining⟩ := bind_eq_ok.mp run
    have first : ∃ host₁, AllocSteps layout (Perishes config) kept s host middle host₁ ∧
        (∀ other, config.survives other = true → (s.temps other).valType = .mem →
          (middle.temps other).valType = .mem) ∧
        (config.tempLocal temp = true → (middle.temps temp).valType = .mem) := by
      unfold endTemp at ended
      split at ended
      · next is_local =>
        have survives : config.survives temp = true := by simp [survives, is_local]
        obtain ⟨host₁, saves, moved⟩ := tempSave_saves (Perishes config) kept inv guards
          survives ended host
        exact ⟨host₁, saves.steps, fun _ _ => saves.spilled.mem, fun _ => moved unfixed⟩
      · next not_local =>
        obtain rfl : s.markDead temp = middle := (Prod.mk.inj ended).2
        have perishes : Perishes config temp := by
          simp [Perishes, survives, not_local, bound]
        refine ⟨host, .single (.drop perishes unfixed), fun other survives there => ?_,
          fun is_local => absurd is_local not_local⟩
        have ne : other ≠ temp := by
          rintro rfl
          simp [show config.survives other = false from perishes] at survives
        unfold markDead releaseReg
        split <;>
          simp only [setValType, setReg, setTemp, update_of_ne ne, there]
    obtain ⟨host₁, steps, kept_mem, moved⟩ := first
    obtain ⟨host₂, steps', kept_mem', moved'⟩ := ih (steps.inv inv)
      (fun other mem => not_global other (mem_cons_of_mem _ mem)) remaining host₁
    refine ⟨host₂, steps.trans steps', fun other survives there =>
      kept_mem' other survives (kept_mem other survives there), fun other mem is_local => ?_⟩
    rcases mem_cons.mp mem with rfl | tail
    · exact kept_mem' other (by simp [survives, is_local]) (moved is_local)
    · exact moved' other tail is_local

/-- State of the allocator at the end of a basic block. -/
def AtBlockEnd (layout : Layout target config) (s : TCGContext) : Prop :=
  ∀ temp, config.survives temp = true → ¬layout.Fixed temp → (s.temps temp).valType = .mem

/-- `tcg_reg_alloc_bb_end` leaves globals and local temporaries in memory. -/
theorem tcgRegAllocBbEnd_steps
    (run : tcgRegAllocBbEnd target config allocatedRegs s = (.ok (), s')) (host : Host W) :
    ∃ host', AllocSteps layout (Perishes config) kept s host s' host' ∧ AtBlockEnd layout s' := by
  obtain ⟨_, middle, ended, saved⟩ := bind_eq_ok.mp run
  obtain ⟨host₁, steps, -, locals⟩ := endTemps_steps kept inv guards
    (fun temp mem => (mem_range'_1.mp mem).1) ended host
  obtain ⟨host₂, saves, globals⟩ := saveGlobals_saves (Perishes config) kept (steps.inv inv)
    guards saved host₁
  refine ⟨host₂, steps.trans saves.steps, fun temp survives unfixed => ?_⟩
  rcases Nat.lt_or_ge temp config.nbGlobals with global | not_global
  · exact globals temp global unfixed
  · have is_local : config.tempLocal temp = true := by
      simpa [TCGTemps.survives, Nat.not_lt.mpr not_global] using survives
    have bound := layout.local_lt temp is_local
    have reach : config.nbTemps ≤ config.nbGlobals + (config.nbTemps - config.nbGlobals) := by
      omega
    exact saves.spilled.mem (locals temp
      (mem_range'_1.mpr ⟨not_global, Nat.lt_of_lt_of_le bound reach⟩) is_local)

end

theorem clobberRegs_stores {regs : List Reg} (inv : AllocInv layout s)
    (run : clobberRegs target regs s = (.ok (), s')) (host : Host W) :
    ∃ host', Stores layout dead kept s host s' host' ∧
      ∀ reg ∈ regs, target.callClobberRegs reg = true → s'.regToTemp reg = none := by
  induction regs generalizing s host with
  | nil =>
    obtain ⟨-, rfl⟩ := ok_inj run
    exact ⟨host, Stores.refl s host, nofun⟩
  | cons reg rest ih =>
    obtain ⟨_, middle, freed, remaining⟩ := bind_eq_ok.mp run
    have first : ∃ host₁, Stores layout dead kept s host middle host₁ ∧
        (target.callClobberRegs reg = true → middle.regToTemp reg = none) := by
      unfold clobberReg at freed
      split at freed
      · next clobbered =>
        obtain ⟨host₁, stores, free, -⟩ := tcgRegFree_stores dead kept inv
          (Layout.not_fixedReg_of_clobbered clobbered) freed host
        exact ⟨host₁, stores, fun _ => free⟩
      · next spared =>
        obtain ⟨-, rfl⟩ := ok_inj freed
        exact ⟨host, Stores.refl s host, fun clobbered => absurd clobbered spared⟩
    obtain ⟨host₁, stores, free⟩ := first
    obtain ⟨host₂, stores', all_free⟩ := ih (stores.steps.inv inv) remaining host₁
    refine ⟨host₂, stores.trans stores', fun other mem clobbered => ?_⟩
    rcases mem_cons.mp mem with rfl | tail
    · exact stores'.spilled.free other (free clobbered)
    · exact all_free other tail clobbered

theorem clobberRegs_free (inv : AllocInv layout s)
    (run : clobberRegs target (range target.nbRegs) s = (.ok (), s')) (host : Host W) :
    ∃ host', Stores layout dead kept s host s' host' ∧
      ∀ reg, target.callClobberRegs reg = true → s'.regToTemp reg = none := by
  obtain ⟨host', stores, free⟩ := clobberRegs_stores dead kept inv run host
  exact ⟨host', stores, fun reg clobbered =>
    free reg (mem_range.mpr (layout.clobbered_lt reg clobbered)) clobbered⟩

end Qemu.Tcg
