import Qemu.Tcg.AllocInv

/-!
# Steps of the register allocator

Everything the allocator does between two ops is a sequence of the steps below.  Each step changes
the allocator's state and, through the instruction it emits, the state of the host that will run
the code.  A step may forget a variable only if the variable is dead, and it leaves alone the
registers and call-argument words that already hold operands.
-/

namespace Qemu.Tcg

open TCGContext Function List HostInstr

variable {W : Type} {target : Target} {config : TCGTemps} {reg : Reg}

def HostInstr.writes : HostInstr → Option Reg
  | .mov dst _ | .movi dst _ | .ld dst _ => some dst
  | _ => none

/-- Operands that have to survive: registers and words of the call stack. -/
structure Kept where
  regs : TCGRegSet
  words : Slot → Bool

variable (layout : Layout target config) (dead : TCGArg → Prop) (kept : Kept)

/-- One step of the allocator together with its effect on the host. -/
inductive AllocStep : TCGContext → Host W → TCGContext → Host W → Prop where
  | placeInFrame {s : TCGContext} {host : Host W} {temp : TCGArg}
      (homeless : (s.temps temp).memAllocated = false) (unfixed : ¬layout.Fixed temp)
      (fits : frameSlot s.currentFrameOffset + targetLongSize ≤ target.frameEnd) :
      AllocStep s host (s.placeInFrame target.frameReg temp) host
  | spillCoherent {s : TCGContext} {host : Host W} {temp : TCGArg} {reg : Reg}
      (unfixed : ¬layout.Fixed temp) (here : (s.temps temp).valType = .reg)
      (same_reg : (s.temps temp).reg = reg) (coherent : (s.temps temp).memCoherent = true) :
      AllocStep s host ((s.setValType temp .mem).setReg reg none) host
  | spill {s : TCGContext} {host : Host W} {temp : TCGArg} {reg : Reg}
      (unfixed : ¬layout.Fixed temp) (here : (s.temps temp).valType = .reg)
      (same_reg : (s.temps temp).reg = reg) (placed : (s.temps temp).memAllocated = true) :
      AllocStep s host
        (((s.emit (.st reg (s.temps temp).slot)).setValType temp .mem).setReg reg none)
        (host.move (.st reg (s.temps temp).slot))
  | scratch {s : TCGContext} {host : Host W} {instr : HostInstr} {reg : Reg}
      (writes : instr.writes = some reg) (free : s.regToTemp reg = none)
      (unfixed : ¬layout.FixedReg reg) (unused : kept.regs reg = false) :
      AllocStep s host (s.emit instr) (host.move instr)
  | load {s : TCGContext} {host : Host W} {temp : TCGArg} {reg : Reg}
      (there : (s.temps temp).valType = .mem) (placed : (s.temps temp).memAllocated = true)
      (free : s.regToTemp reg = none) (unreserved : target.reservedRegs reg = false)
      (unused : kept.regs reg = false) :
      AllocStep s host ((s.emit (.ld reg (s.temps temp).slot)).record temp reg true)
        (host.move (.ld reg (s.temps temp).slot))
  | loadConst {s : TCGContext} {host : Host W} {temp : TCGArg} {reg : Reg}
      (there : (s.temps temp).valType = .const) (free : s.regToTemp reg = none)
      (unreserved : target.reservedRegs reg = false) (unused : kept.regs reg = false) :
      AllocStep s host ((s.emit (.movi reg (s.temps temp).val)).record temp reg false)
        (host.move (.movi reg (s.temps temp).val))
  | saveConst {s : TCGContext} {host : Host W} {temp : TCGArg} {reg : Reg}
      (there : (s.temps temp).valType = .const) (placed : (s.temps temp).memAllocated = true)
      (free : s.regToTemp reg = none) (unfixed : ¬layout.FixedReg reg)
      (unused : kept.regs reg = false) :
      AllocStep s host
        (((s.emit (.movi reg (s.temps temp).val)).emit (.st reg (s.temps temp).slot)).setValType
          temp .mem)
        ((host.move (.movi reg (s.temps temp).val)).move (.st reg (s.temps temp).slot))
  | revive {s : TCGContext} {host : Host W} {temp : TCGArg}
      (gone : (s.temps temp).valType = .dead) (survives : config.survives temp = true) :
      AllocStep s host (s.setValType temp .mem) host
  | drop {s : TCGContext} {host : Host W} {temp : TCGArg} (unneeded : dead temp)
      (unfixed : ¬layout.Fixed temp) : AllocStep s host (s.markDead temp) host
  | bind {s : TCGContext} {host : Host W} {temp : TCGArg} {reg : Reg} (unneeded : dead temp)
      (gone : (s.temps temp).valType = .dead) (free : s.regToTemp reg = none)
      (unreserved : target.reservedRegs reg = false) :
      AllocStep s host (s.record temp reg false) host
  | setConst {s : TCGContext} {host : Host W} {temp : TCGArg} (val : TCGArg) (unneeded : dead temp)
      (gone : (s.temps temp).valType = .dead) :
      AllocStep s host (s.setTemp temp { s.temps temp with valType := .const, val }) host
  | storeArg {s : TCGContext} {host : Host W} (reg : Reg) {slot : Slot}
      (in_stack : target.InCallStack slot) (unused : kept.words slot = false) :
      AllocStep s host (s.emit (.st reg slot)) (host.move (.st reg slot))
  | writeFixed {s : TCGContext} {host : Host W} {temp : TCGArg} {instr : HostInstr}
      (fixed : layout.Fixed temp) (unneeded : dead temp)
      (writes : instr.writes = some (s.temps temp).reg)
      (unused : kept.regs (s.temps temp).reg = false) :
      AllocStep s host (s.emit instr) (host.move instr)
  | recordFixed {s : TCGContext} {host : Host W} {temp : TCGArg} (fixed : layout.Fixed temp) :
      AllocStep s host (s.record temp (s.temps temp).reg false) host
  | label {s : TCGContext} {host : Host W} (name : TCGArg) :
      AllocStep s host (s.emit (.label name)) host

variable {layout dead kept} {s s' : TCGContext} {host host' : Host W}

namespace AllocStep

theorem inv (step : AllocStep layout dead kept s host s' host') (inv : AllocInv layout s) :
    AllocInv layout s' := by
  cases step with
  | placeInFrame homeless unfixed fits =>
    refine inv.placeInFrame (Nat.not_lt.mp fun global => ?_) fits
    simp [(inv.home _ global unfixed).1] at homeless
  | spillCoherent unfixed here same_reg coherent =>
    exact inv.leaveReg unfixed here same_reg nofun fun _ => inv.coherent _ here unfixed coherent
  | spill unfixed here same_reg placed =>
    exact (inv.emit _).leaveReg unfixed here same_reg nofun fun _ => placed
  | scratch | storeArg | writeFixed | label => exact inv.emit _
  | load there placed free unreserved unused =>
    exact (inv.emit _).enterReg (by simp [emit, there]) free unreserved fun _ => placed
  | loadConst there free unreserved unused =>
    exact (inv.emit _).enterReg (by simp [emit, there]) free unreserved nofun
  | saveConst there placed free unfixed unused =>
    exact ((inv.emit _).emit _).moveOutside (by simp [emit, there]) nofun fun _ => .inr placed
  | revive gone survives =>
    exact inv.moveOutside (by simp [gone]) nofun fun _ => .inl survives
  | drop unneeded unfixed => exact inv.markDead unfixed
  | bind unneeded gone free unreserved => exact inv.enterReg (by simp [gone]) free unreserved nofun
  | setConst val unneeded gone => exact inv.moveOutside (by simp [gone]) nofun nofun
  | recordFixed fixed => exact inv.recordFixed fixed

end AllocStep

/-! ## Memory words are never given up -/

/-- Every word of memory that a variable has in the first state it has in the second one. -/
def Extends (s s' : TCGContext) : Prop :=
  ∀ temp, (s.temps temp).memAllocated = true →
    (s'.temps temp).memAllocated = true ∧ (s'.temps temp).slot = (s.temps temp).slot

theorem Extends.refl (s : TCGContext) : Extends s s := fun _ allocated => ⟨allocated, rfl⟩

theorem Extends.trans {s₁ s₂ s₃ : TCGContext} (first : Extends s₁ s₂) (second : Extends s₂ s₃) :
    Extends s₁ s₃ := by
  intro temp allocated
  obtain ⟨allocated', same⟩ := first temp allocated
  obtain ⟨allocated'', same'⟩ := second temp allocated'
  exact ⟨allocated'', same'.trans same⟩

theorem extends_setTemp {temp : TCGArg} {ts : TCGTemp}
    (allocated : ts.memAllocated = (s.temps temp).memAllocated)
    (same : ts.slot = (s.temps temp).slot) : Extends s (s.setTemp temp ts) := by
  intro other other_allocated
  by_cases is_temp : other = temp
  · subst is_temp
    simp only [setTemp, update_self]
    exact ⟨allocated.trans other_allocated, same⟩
  · simp only [setTemp, update_of_ne is_temp]
    exact ⟨other_allocated, trivial⟩

theorem extends_markDead (temp : TCGArg) : Extends s (s.markDead temp) := by
  have released : Extends s (s.releaseReg temp) := by
    unfold releaseReg
    split <;> exact Extends.refl s
  exact released.trans (extends_setTemp rfl rfl)

theorem AllocStep.extends_state (step : AllocStep layout dead kept s host s' host') :
    Extends s s' := by
  cases step with
  | @placeInFrame temp homeless unfixed fits =>
    intro other allocated
    have ne : other ≠ temp := by
      rintro rfl
      simp [homeless] at allocated
    simp only [TCGContext.placeInFrame, setTemp, update_of_ne ne]
    exact ⟨allocated, trivial⟩
  | spillCoherent | revive | setConst => exact extends_setTemp rfl rfl
  | spill | load | loadConst | saveConst | bind | recordFixed =>
    exact extends_setTemp (s := s) rfl rfl
  | scratch | storeArg | writeFixed | label => exact Extends.refl s
  | drop => exact extends_markDead _

/-! ## Recorded locations hold the values -/

/-- The location recorded for the variable holds the value.  A variable in memory has the word that
`final`, the state after the whole list, records for it. -/
structure Holds (final s : TCGContext) (host : Host W) (temp : TCGArg) (value : TCGArg) : Prop where
  reg : (s.temps temp).valType = .reg → host.regs (s.temps temp).reg = value
  coherent : (s.temps temp).valType = .reg → (s.temps temp).fixedReg = false →
    (s.temps temp).memCoherent = true → host.mem (s.temps temp).slot = value
  mem : (s.temps temp).valType = .mem →
    (final.temps temp).memAllocated = true ∧ host.mem (final.temps temp).slot = value
  const : (s.temps temp).valType = .const → (s.temps temp).val = value
  alive : (s.temps temp).valType ≠ .dead

/-- Every live variable with a value is where the allocator says it is. -/
def Matches (final : TCGContext) (live : TCGArg → Prop) (values : Values) (s : TCGContext)
    (host : Host W) : Prop :=
  ∀ temp, live temp → ∀ value, values temp = some value → Holds final s host temp value

theorem Matches.of_temps {final : TCGContext} {live : TCGArg → Prop} {values : Values}
    (matched : Matches final live values s host) (same : s'.temps = s.temps) :
    Matches final live values s' host := by
  intro temp is_live value has_value
  obtain ⟨reg, coherent, mem, const, alive⟩ := matched temp is_live value has_value
  constructor
  all_goals rwa [same]

theorem move_regs_of_writes {instr : HostInstr} {reg other : Reg} (writes : instr.writes = some reg)
    (ne : other ≠ reg) : (host.move instr).regs other = host.regs other := by
  cases instr <;> simp_all [HostInstr.writes, Host.move, Host.setReg]

theorem move_mem_of_writes {instr : HostInstr} (writes : instr.writes = some reg) :
    (host.move instr).mem = host.mem := by
  cases instr <;> simp_all [HostInstr.writes, Host.move, Host.setReg]

variable {final : TCGContext} {live : TCGArg → Prop} {values : Values}

theorem AllocInv.reg_ne_of_free (inv : AllocInv layout s) {temp : TCGArg}
    (here : (s.temps temp).valType = .reg) (free : s.regToTemp reg = none)
    (unfixed : ¬layout.FixedReg reg) : (s.temps temp).reg ≠ reg := by
  rintro rfl
  by_cases fixed : layout.Fixed temp
  · exact unfixed ⟨temp, fixed, (inv.fixed_reg temp fixed).2.symm⟩
  · simp [(inv.reg_of_temp temp here fixed).1] at free

/-- A variable keeps its value if its record, its register and its word of memory are kept. -/
theorem Holds.frame {temp value : TCGArg} (held : Holds final s host temp value)
    (inv : AllocInv layout s) (whole : Extends s final) (same : s'.temps temp = s.temps temp)
    (regs : (s.temps temp).valType = .reg →
      host'.regs (s.temps temp).reg = host.regs (s.temps temp).reg)
    (mem : ¬layout.Fixed temp → (final.temps temp).memAllocated = true →
      host'.mem (final.temps temp).slot = host.mem (final.temps temp).slot) :
    Holds final s' host' temp value := by
  constructor
  all_goals rw [same]
  · exact fun here => (regs here).trans (held.reg here)
  · intro here flag coherent
    have unfixed := inv.not_fixed flag
    obtain ⟨allocated, same_slot⟩ := whole temp (inv.coherent temp here unfixed coherent)
    rw [← same_slot, mem unfixed allocated, same_slot]
    exact held.coherent here flag coherent
  · intro there
    have unfixed : ¬layout.Fixed temp := inv.not_fixed_of_valType (by simp [there])
    obtain ⟨allocated, holds⟩ := held.mem there
    exact ⟨allocated, (mem unfixed allocated).trans holds⟩
  · exact held.const
  · exact held.alive

/-- Writing the word of one variable leaves the words of the others alone. -/
theorem final_slot_ne (final_inv : AllocInv layout final) (whole : Extends s final)
    {temp other : TCGArg} (ne : other ≠ temp) (temp_unfixed : ¬layout.Fixed temp)
    (placed : (s.temps temp).memAllocated = true) (other_unfixed : ¬layout.Fixed other)
    (other_placed : (final.temps other).memAllocated = true) :
    (final.temps other).slot ≠ (s.temps temp).slot := by
  obtain ⟨final_placed, same⟩ := whole temp placed
  rw [← same]
  exact fun equal =>
    ne (final_inv.slot_injective other_unfixed temp_unfixed other_placed final_placed equal)

namespace AllocStep

section

variable (step : AllocStep layout dead kept s host s' host')

include step

/-- The value of a live variable stays where it is recorded. -/
theorem holds_of_holds (inv : AllocInv layout s) (final_inv : AllocInv layout final)
    (extends_final : Extends s' final) {other value : TCGArg} (alive : ¬dead other)
    (held : Holds final s host other value) : Holds final s' host' other value := by
  have whole := step.extends_state.trans extends_final
  have is_other : ∀ {temp}, dead temp → other ≠ temp := fun unneeded same => alive (same ▸ unneeded)
  have same_host {after : TCGContext} (same : after.temps other = s.temps other) :
      Holds final after host other value :=
    held.frame inv whole same (fun _ => rfl) fun _ _ => rfl
  cases step with
  | @placeInFrame temp homeless unfixed fits =>
    by_cases is_temp : other = temp
    · subst is_temp
      have outside : (s.temps other).valType = .reg → (s.temps other).memCoherent = false := by
        intro here
        exact eq_false_of_imp (inv.coherent other here unfixed) homeless
      constructor
      all_goals simp only [TCGContext.placeInFrame, setTemp, update_self]
      · exact held.reg
      · intro here _ coherent
        simp [outside here] at coherent
      · exact held.mem
      · exact held.const
      · exact held.alive
    · exact same_host (update_of_ne is_temp _ _)
  | @spillCoherent temp reg unfixed here same_reg coherent =>
    by_cases is_temp : other = temp
    · subst is_temp
      have placed := whole other (inv.coherent other here unfixed coherent)
      have flag := inv.fixedReg_eq_false unfixed
      constructor
      all_goals simp [setValType, setReg, setTemp]
      exact ⟨placed.1, placed.2 ▸ held.coherent here flag coherent⟩
    · exact same_host (update_of_ne is_temp _ _)
  | @spill temp reg unfixed here same_reg placed =>
    by_cases is_temp : other = temp
    · subst is_temp
      obtain ⟨final_placed, same⟩ := whole other placed
      constructor
      all_goals simp [setValType, setReg, setTemp]
      refine ⟨final_placed, ?_⟩
      simpa [Host.move, Host.setMem, same, ← same_reg] using held.reg here
    · refine held.frame inv whole (update_of_ne is_temp _ _) (fun _ => rfl)
        fun other_unfixed other_placed => update_of_ne ?_ _ _
      exact final_slot_ne final_inv whole is_temp unfixed placed other_unfixed other_placed
  | @scratch instr reg writes free unfixed unused =>
    refine held.frame inv whole rfl (fun here => ?_) fun _ _ => ?_
    · exact move_regs_of_writes writes (inv.reg_ne_of_free here free unfixed)
    · rw [move_mem_of_writes writes]
  | @load temp reg there placed free unreserved unused =>
    by_cases is_temp : other = temp
    · subst is_temp
      obtain ⟨final_placed, holds⟩ := held.mem there
      have same := (whole other placed).2
      rw [same] at holds
      constructor
      all_goals simp [record, setReg, setTemp, emit, Host.move, Host.setReg]
      · exact holds
      · exact fun _ => holds
    · refine held.frame inv whole (update_of_ne is_temp _ _) (fun here => ?_) fun _ _ => rfl
      exact update_of_ne (inv.reg_ne_of_free here free (Layout.not_fixedReg unreserved)) _ _
  | @loadConst temp reg there free unreserved unused =>
    by_cases is_temp : other = temp
    · subst is_temp
      constructor
      all_goals simp [record, setReg, setTemp, emit, Host.move, Host.setReg]
      exact held.const there
    · refine held.frame inv whole (update_of_ne is_temp _ _) (fun here => ?_) fun _ _ => rfl
      exact update_of_ne (inv.reg_ne_of_free here free (Layout.not_fixedReg unreserved)) _ _
  | @saveConst temp reg there placed free unfixed unused =>
    have temp_unfixed : ¬layout.Fixed temp := inv.not_fixed_of_valType (by simp [there])
    by_cases is_temp : other = temp
    · subst is_temp
      obtain ⟨final_placed, same⟩ := whole other placed
      constructor
      all_goals simp [setValType, setTemp]
      refine ⟨final_placed, ?_⟩
      simpa [Host.move, Host.setMem, Host.setReg, same] using held.const there
    · refine held.frame inv whole (update_of_ne is_temp _ _) (fun here => update_of_ne ?_ _ _)
        fun other_unfixed other_placed => update_of_ne ?_ _ _
      · exact inv.reg_ne_of_free here free unfixed
      · exact final_slot_ne final_inv whole is_temp temp_unfixed placed other_unfixed other_placed
  | @revive temp gone survives =>
    refine same_host (update_of_ne ?_ _ _)
    rintro rfl
    exact held.alive gone
  | @drop temp unneeded unfixed =>
    refine same_host ?_
    unfold markDead releaseReg
    split <;> exact update_of_ne (is_other unneeded) _ _
  | @bind temp reg unneeded | @setConst temp val unneeded =>
    exact same_host (update_of_ne (is_other unneeded) _ _)
  | @storeArg reg slot in_stack unused =>
    refine held.frame inv whole rfl (fun _ => rfl) fun other_unfixed other_placed => ?_
    refine update_of_ne ?_ _ _
    rintro same
    exact final_inv.slot_not_stack other_unfixed other_placed (same ▸ in_stack)
  | @writeFixed temp instr fixed unneeded writes unused =>
    have is_temp := is_other unneeded
    refine held.frame inv whole rfl (fun here => ?_) fun _ _ => ?_
    · refine move_regs_of_writes writes fun same => is_temp ?_
      have temp_reg := (inv.fixed_reg temp fixed).2
      by_cases other_fixed : layout.Fixed other
      · refine layout.fixed_injective other temp other_fixed.1 fixed.1 other_fixed.2 fixed.2 ?_
        rw [← (inv.fixed_reg other other_fixed).2, same, temp_reg]
      · refine absurd ⟨temp, fixed, ?_⟩
          (Layout.not_fixedReg (inv.reg_of_temp other here other_fixed).2)
        rw [same, temp_reg]
    · rw [move_mem_of_writes writes]
  | @recordFixed temp fixed =>
    by_cases is_temp : other = temp
    · subst is_temp
      have here := (inv.fixed_reg other fixed).1
      constructor
      all_goals simp [record, setReg, setTemp]
      exact held.reg here
    · exact same_host (update_of_ne is_temp _ _)
  | label => exact same_host rfl

theorem kept_regs {reg : Reg} (keep : kept.regs reg = true) : host'.regs reg = host.regs reg := by
  have ne : ∀ {other}, kept.regs other = false → reg ≠ other := by
    rintro other unused rfl
    simp [keep] at unused
  cases step with
  | scratch writes _ _ unused | writeFixed _ _ writes unused =>
    exact move_regs_of_writes writes (ne unused)
  | load _ _ _ _ unused | loadConst _ _ _ unused | saveConst _ _ _ _ unused =>
    exact update_of_ne (ne unused) _ _
  | _ => rfl

theorem kept_words (inv : AllocInv layout s) {slot : Slot} (in_stack : target.InCallStack slot)
    (keep : kept.words slot = true) : host'.mem slot = host.mem slot := by
  cases step with
  | spill unfixed _ _ placed =>
    refine update_of_ne ?_ _ _
    rintro rfl
    exact inv.slot_not_stack unfixed placed in_stack
  | saveConst there placed =>
    refine update_of_ne ?_ _ _
    rintro rfl
    exact inv.slot_not_stack (inv.not_fixed_of_valType (by simp [there])) placed in_stack
  | storeArg reg _ unused =>
    refine update_of_ne ?_ _ _
    rintro rfl
    simp [keep] at unused
  | scratch writes | writeFixed _ _ writes => rw [move_mem_of_writes writes]
  | _ => rfl

/-- The step keeps fewer operands and may forget more variables. -/
theorem mono {dead' : TCGArg → Prop} {kept' : Kept} (more_dead : ∀ temp, dead temp → dead' temp)
    (fewer_regs : ∀ reg, kept'.regs reg = true → kept.regs reg = true)
    (fewer_words : ∀ slot, kept'.words slot = true → kept.words slot = true) :
    AllocStep layout dead' kept' s host s' host' := by
  have free_reg : ∀ {reg}, kept.regs reg = false → kept'.regs reg = false := by
    intro reg unused
    exact eq_false_of_imp (fewer_regs reg) unused
  have free_word : ∀ {slot}, kept.words slot = false → kept'.words slot = false := by
    intro slot unused
    exact eq_false_of_imp (fewer_words slot) unused
  cases step with
  | placeInFrame | spillCoherent | spill | revive => constructor <;> assumption
  | scratch writes free unfixed unused => exact .scratch writes free unfixed (free_reg unused)
  | load there placed free unreserved unused =>
    exact .load there placed free unreserved (free_reg unused)
  | loadConst there free unreserved unused =>
    exact .loadConst there free unreserved (free_reg unused)
  | saveConst there placed free unfixed unused =>
    exact .saveConst there placed free unfixed (free_reg unused)
  | drop unneeded unfixed => exact .drop (more_dead _ unneeded) unfixed
  | bind unneeded gone free unreserved => exact .bind (more_dead _ unneeded) gone free unreserved
  | setConst val unneeded gone => exact .setConst val (more_dead _ unneeded) gone
  | storeArg reg in_stack unused => exact .storeArg reg in_stack (free_word unused)
  | writeFixed fixed unneeded writes unused =>
    exact .writeFixed fixed (more_dead _ unneeded) writes (free_reg unused)
  | recordFixed fixed => exact .recordFixed fixed
  | label name => exact .label name

end

end AllocStep

/-- The variables are not forgotten, and those in memory have a word of their own. -/
def Backed (needed : TCGArg → Prop) (s : TCGContext) : Prop :=
  ∀ temp, needed temp → (s.temps temp).valType ≠ .dead ∧
    ((s.temps temp).valType = .mem → (s.temps temp).memAllocated = true)

/-- A local that is read is needed. -/
abbrev Covered (config : TCGTemps) (needed : TCGArg → Prop) (arg : TCGArg) : Prop :=
  config.nbGlobals ≤ arg → config.tempLocal arg = true → needed arg

theorem AllocStep.any_host (step : AllocStep layout dead kept s host s' host') (host₁ : Host W) :
    ∃ host₂, AllocStep layout dead kept s host₁ s' host₂ := by
  cases step with
  | storeArg reg in_stack unused => exact ⟨_, .storeArg reg in_stack unused⟩
  | writeFixed fixed unneeded writes unused => exact ⟨_, .writeFixed fixed unneeded writes unused⟩
  | recordFixed fixed => exact ⟨_, .recordFixed fixed⟩
  | label name => exact ⟨_, .label name⟩
  | _ => exact ⟨_, by constructor <;> assumption⟩

/-- A host on which the variable holds a value shows that the value is not lost. -/
theorem AllocStep.backed {needed : TCGArg → Prop}
    (step : AllocStep layout dead kept s host s' host') (inv : AllocInv layout s)
    (kept_alive : ∀ temp, needed temp → ¬dead temp) (backed : Backed needed s) :
    Backed needed s' := by
  intro temp is_needed
  obtain ⟨alive, placed⟩ := backed temp is_needed
  obtain ⟨host₂, step⟩ := step.any_host
    ⟨fun _ => (s.temps temp).val, fun _ => (s.temps temp).val, host.world, host.trace⟩
  have held := step.holds_of_holds inv (step.inv inv) (Extends.refl s')
    (kept_alive temp is_needed) ⟨fun _ => rfl, fun _ _ _ => rfl,
      fun there => ⟨(step.extends_state temp (placed there)).1, rfl⟩, fun _ => rfl, alive⟩
  exact ⟨held.alive, fun there => (held.mem there).1⟩

def HostInstr.isMove : HostInstr → Bool
  | .op _ _ _ => false
  | _ => true

/-- The code appended between two states and its effect on the host. -/
structure Emits (s : TCGContext) (host : Host W) (s' : TCGContext) (host' : Host W)
    (code : List HostInstr) : Prop where
  moves : ∀ instr ∈ code, instr.isMove = true
  appended : s'.code = s.code ++ code
  effect : host' = host.moves code

theorem isMove_of_writes {instr : HostInstr} (writes : instr.writes = some reg) :
    instr.isMove = true := by
  cases instr <;> simp_all [HostInstr.writes, HostInstr.isMove]

theorem AllocStep.emits (step : AllocStep layout dead kept s host s' host') :
    ∃ code, Emits s host s' host' code := by
  have silent : ∀ {after : TCGContext}, after.code = s.code → Emits s host after host [] := by
    intro after same
    exact ⟨nofun, by simp [same], rfl⟩
  have single : ∀ {after : TCGContext} {instr : HostInstr}, instr.isMove = true →
      after.code = s.code ++ [instr] → Emits s host after (host.move instr) [instr] := by
    intro after instr is_move appended
    exact ⟨by simpa using is_move, appended, rfl⟩
  cases step with
  | drop => exact ⟨[], silent (by unfold markDead releaseReg; split <;> rfl)⟩
  | scratch writes | writeFixed _ _ writes => exact ⟨_, single (isMove_of_writes writes) rfl⟩
  | spill | load | loadConst | storeArg => exact ⟨_, single rfl rfl⟩
  | label name => exact ⟨[.label name], by simp [isMove], rfl, rfl⟩
  | @saveConst temp reg =>
    exact ⟨[.movi reg (s.temps temp).val, .st reg (s.temps temp).slot],
      by simp [isMove], by simp [emit, setValType, setTemp], rfl⟩
  | _ => exact ⟨[], silent rfl⟩

/-! ## Sequences of steps -/

inductive AllocSteps (layout : Layout target config) (dead : TCGArg → Prop) (kept : Kept) :
    TCGContext → Host W → TCGContext → Host W → Prop where
  | refl (s : TCGContext) (host : Host W) : AllocSteps layout dead kept s host s host
  | tail {s₁ s₂ s₃ : TCGContext} {host₁ host₂ host₃ : Host W}
      (steps : AllocSteps layout dead kept s₁ host₁ s₂ host₂)
      (step : AllocStep layout dead kept s₂ host₂ s₃ host₃) :
      AllocSteps layout dead kept s₁ host₁ s₃ host₃

namespace AllocSteps

theorem single (step : AllocStep layout dead kept s host s' host') :
    AllocSteps layout dead kept s host s' host' :=
  (refl s host).tail step

theorem trans {s₁ s₂ s₃ : TCGContext} {host₁ host₂ host₃ : Host W}
    (first : AllocSteps layout dead kept s₁ host₁ s₂ host₂)
    (second : AllocSteps layout dead kept s₂ host₂ s₃ host₃) :
    AllocSteps layout dead kept s₁ host₁ s₃ host₃ := by
  induction second with
  | refl => exact first
  | tail _ step ih => exact (ih first).tail step

section

variable (steps : AllocSteps layout dead kept s host s' host')

include steps

theorem mono {dead' : TCGArg → Prop} {kept' : Kept} (more_dead : ∀ temp, dead temp → dead' temp)
    (fewer_regs : ∀ reg, kept'.regs reg = true → kept.regs reg = true)
    (fewer_words : ∀ slot, kept'.words slot = true → kept.words slot = true) :
    AllocSteps layout dead' kept' s host s' host' := by
  induction steps with
  | refl => exact .refl _ _
  | tail _ step ih => exact ih.tail (step.mono more_dead fewer_regs fewer_words)

theorem inv (inv : AllocInv layout s) : AllocInv layout s' := by
  induction steps with
  | refl => exact inv
  | tail _ step ih => exact step.inv ih

theorem extends_state : Extends s s' := by
  induction steps with
  | refl => exact Extends.refl _
  | tail _ step ih => exact ih.trans step.extends_state

theorem holds_of_holds (inv : AllocInv layout s) (final_inv : AllocInv layout final)
    (extends_final : Extends s' final) {temp value : TCGArg} (alive : ¬dead temp)
    (held : Holds final s host temp value) : Holds final s' host' temp value := by
  induction steps with
  | refl => exact held
  | tail steps step ih =>
    exact step.holds_of_holds (steps.inv inv) final_inv extends_final alive
      (ih (step.extends_state.trans extends_final) held)

theorem matches_of_matches (inv : AllocInv layout s) (final_inv : AllocInv layout final)
    (extends_final : Extends s' final) (needed : ∀ temp, live temp → ¬dead temp)
    (before : Matches final live values s host) : Matches final live values s' host' :=
  fun temp is_live value has_value => steps.holds_of_holds inv final_inv extends_final
    (needed temp is_live) (before temp is_live value has_value)

theorem backed {needed : TCGArg → Prop} (inv : AllocInv layout s)
    (kept_alive : ∀ temp, needed temp → ¬dead temp) (backed : Backed needed s) : Backed needed s' := by
  induction steps with
  | refl => exact backed
  | tail steps step ih => exact step.backed (steps.inv inv) kept_alive ih

theorem kept_regs (keep : kept.regs reg = true) : host'.regs reg = host.regs reg := by
  induction steps with
  | refl => rfl
  | tail _ step ih => exact (step.kept_regs keep).trans ih

theorem kept_words (inv : AllocInv layout s) {slot : Slot} (in_stack : target.InCallStack slot)
    (keep : kept.words slot = true) : host'.mem slot = host.mem slot := by
  induction steps with
  | refl => rfl
  | tail steps step ih =>
    exact (step.kept_words (steps.inv inv) in_stack keep).trans ih

theorem emits : ∃ code, Emits s host s' host' code := by
  induction steps with
  | refl => exact ⟨[], nofun, by simp, rfl⟩
  | tail _ step ih =>
    obtain ⟨first, before⟩ := ih
    obtain ⟨second, after⟩ := step.emits
    refine ⟨first ++ second, ?_, ?_, ?_⟩
    · intro instr mem
      rcases mem_append.mp mem with mem | mem
      · exact before.moves instr mem
      · exact after.moves instr mem
    · rw [after.appended, before.appended, append_assoc]
    · rw [after.effect, before.effect, Host.moves, Host.moves, Host.moves, foldl_append]

end

end AllocSteps

end Qemu.Tcg
