import Qemu.Tcg.Host

/-!
# Invariant of the register allocator

`reg_to_temp` and the `reg` fields of the variables are inverse to each other, fixed registers are
never handed out, and no two variables share a word of memory.  The elementary changes of the
allocator's state are listed here once with the conditions under which they keep the invariant.
-/

namespace Qemu.Tcg

open TCGContext Function TCGTemp

variable {temp : TCGArg} {reg : Reg}

theorem eq_false_of_imp {a b : Bool} (imp : b = true → a = true) (absent : a = false) : b = false :=
  eq_false_of_ne_true fun present => by simp [imp present] at absent

/-! ## Memory and register layout -/

def Target.InFrame (target : Target) (slot : Slot) : Prop :=
  slot.1 = target.frameReg ∧ target.frameStart ≤ slot.2 ∧ slot.2 + targetLongSize ≤ target.frameEnd

/-- Words of the area for call arguments. -/
def Target.InCallStack (target : Target) (slot : Slot) : Prop :=
  slot.1 = target.callStackReg ∧ target.callStackOffset ≤ slot.2 ∧
    slot.2 < target.callStackOffset + staticCallArgsSize

/-- Registers and memory words of the globals, chosen apart from each other and from the memory the
generated code uses for itself. -/
structure Layout (target : Target) (config : TCGTemps) where
  globals : TCGArg → TCGTemp
  local_lt : ∀ temp, config.tempLocal temp = true → temp < config.nbTemps
  fixed_reserved : ∀ temp, temp < config.nbGlobals → (globals temp).fixedReg = true →
    target.reservedRegs (globals temp).reg = true
  fixed_injective : ∀ temp other, temp < config.nbGlobals → other < config.nbGlobals →
    (globals temp).fixedReg = true → (globals other).fixedReg = true →
    (globals temp).reg = (globals other).reg → temp = other
  reserved_preserved : ∀ temp, temp < config.nbGlobals → (globals temp).fixedReg = true →
    target.callClobberRegs (globals temp).reg = false
  iargs_nodup : target.callIargRegs.Nodup
  iargs_clobbered : ∀ reg ∈ target.callIargRegs, target.callClobberRegs reg = true
  iargs_unreserved : ∀ reg ∈ target.callIargRegs, target.reservedRegs reg = false
  oargs_nodup : target.callOargRegs.Nodup
  oargs_clobbered : ∀ reg ∈ target.callOargRegs, target.callClobberRegs reg = true
  oargs_unreserved : ∀ reg ∈ target.callOargRegs, target.reservedRegs reg = false
  clobbered_lt : ∀ reg, target.callClobberRegs reg = true → reg < target.nbRegs
  stackAlign_pos : 0 < target.stackAlign
  home_allocated : ∀ temp, temp < config.nbGlobals → (globals temp).fixedReg = false →
    (globals temp).memAllocated = true
  home_injective : ∀ temp other, temp < config.nbGlobals → other < config.nbGlobals →
    (globals temp).fixedReg = false → (globals other).fixedReg = false →
    (globals temp).slot = (globals other).slot → temp = other
  home_not_frame : ∀ temp, temp < config.nbGlobals → (globals temp).fixedReg = false →
    ¬target.InFrame (globals temp).slot
  home_not_stack : ∀ temp, temp < config.nbGlobals → (globals temp).fixedReg = false →
    ¬target.InCallStack (globals temp).slot
  frame_not_stack : ∀ slot, target.InFrame slot → ¬target.InCallStack slot

variable {target : Target} {config : TCGTemps} (layout : Layout target config)

namespace Layout

/-- The variable lives in a host register of its own. -/
def Fixed (temp : TCGArg) : Prop := temp < config.nbGlobals ∧ (layout.globals temp).fixedReg = true

def FixedReg (reg : Reg) : Prop := ∃ temp, layout.Fixed temp ∧ (layout.globals temp).reg = reg

variable {layout}

theorem flag_eq_false (global : temp < config.nbGlobals) (unfixed : ¬layout.Fixed temp) :
    (layout.globals temp).fixedReg = false :=
  eq_false_of_ne_true fun flag => unfixed ⟨global, flag⟩

theorem FixedReg.reserved (fixed : layout.FixedReg reg) : target.reservedRegs reg = true := by
  obtain ⟨temp, ⟨global, is_fixed⟩, rfl⟩ := fixed
  exact layout.fixed_reserved temp global is_fixed

theorem not_fixedReg (unreserved : target.reservedRegs reg = false) : ¬layout.FixedReg reg := by
  intro fixed
  simp [fixed.reserved] at unreserved

theorem not_fixedReg_of_clobbered (clobbered : target.callClobberRegs reg = true) :
    ¬layout.FixedReg reg := by
  rintro ⟨temp, ⟨global, is_fixed⟩, rfl⟩
  simp [layout.reserved_preserved temp global is_fixed] at clobbered

end Layout

/-! ## The invariant -/

/-- What holds of the allocator's state between any two of its actions. -/
structure AllocInv (s : TCGContext) : Prop where
  fixed_iff : ∀ temp, (s.temps temp).fixedReg = true ↔ layout.Fixed temp
  fixed_reg : ∀ temp, layout.Fixed temp →
    (s.temps temp).valType = .reg ∧ (s.temps temp).reg = (layout.globals temp).reg
  home : ∀ temp, temp < config.nbGlobals → ¬layout.Fixed temp →
    (s.temps temp).memAllocated = true ∧ (s.temps temp).slot = (layout.globals temp).slot
  temp_of_reg : ∀ reg temp, s.regToTemp reg = some temp →
    (s.temps temp).valType = .reg ∧ (s.temps temp).reg = reg
  reg_of_temp : ∀ temp, (s.temps temp).valType = .reg → ¬layout.Fixed temp →
    s.regToTemp (s.temps temp).reg = some temp ∧ target.reservedRegs (s.temps temp).reg = false
  frame : ∀ temp, config.nbGlobals ≤ temp → (s.temps temp).memAllocated = true →
    target.InFrame (s.temps temp).slot ∧
      (s.temps temp).memOffset + targetLongSize ≤ s.currentFrameOffset
  frame_injective : ∀ temp other, config.nbGlobals ≤ temp → config.nbGlobals ≤ other →
    (s.temps temp).memAllocated = true → (s.temps other).memAllocated = true →
    (s.temps temp).slot = (s.temps other).slot → temp = other
  frame_start : target.frameStart ≤ s.currentFrameOffset
  coherent : ∀ temp, (s.temps temp).valType = .reg → ¬layout.Fixed temp →
    (s.temps temp).memCoherent = true → (s.temps temp).memAllocated = true
  spilled : ∀ temp, config.survives temp = false → (s.temps temp).valType = .mem →
    (s.temps temp).memAllocated = true

variable {layout} {s : TCGContext}

namespace AllocInv

section

variable (inv : AllocInv layout s)

include inv

theorem check_regs :
    (∀ reg temp, s.regToTemp reg = some temp →
      (s.temps temp).valType = .reg ∧ (s.temps temp).reg = reg) ∧
    ∀ temp, (s.temps temp).valType = .reg → (s.temps temp).fixedReg = false →
      s.regToTemp (s.temps temp).reg = some temp := by
  refine ⟨inv.temp_of_reg, fun temp is_reg not_fixed => (inv.reg_of_temp temp is_reg ?_).1⟩
  intro fixed
  simp [(inv.fixed_iff temp).mpr fixed] at not_fixed

theorem not_fixed (unfixed : (s.temps temp).fixedReg = false) : ¬layout.Fixed temp := by
  intro fixed
  simp [(inv.fixed_iff temp).mpr fixed] at unfixed

theorem fixedReg_eq_false (unfixed : ¬layout.Fixed temp) : (s.temps temp).fixedReg = false :=
  eq_false_of_ne_true (mt (inv.fixed_iff temp).mp unfixed)

theorem not_fixed_of_valType (elsewhere : (s.temps temp).valType ≠ .reg) : ¬layout.Fixed temp :=
  fun fixed => elsewhere (inv.fixed_reg temp fixed).1

theorem slot_injective {temp other : TCGArg} (temp_unfixed : ¬layout.Fixed temp)
    (other_unfixed : ¬layout.Fixed other) (temp_allocated : (s.temps temp).memAllocated = true)
    (other_allocated : (s.temps other).memAllocated = true)
    (same : (s.temps temp).slot = (s.temps other).slot) : temp = other := by
  rcases Nat.lt_or_ge temp config.nbGlobals with temp_global | temp_local
  · have temp_home := (inv.home temp temp_global temp_unfixed).2
    have temp_flag := Layout.flag_eq_false temp_global temp_unfixed
    rcases Nat.lt_or_ge other config.nbGlobals with other_global | other_local
    · rw [temp_home, (inv.home other other_global other_unfixed).2] at same
      exact layout.home_injective temp other temp_global other_global temp_flag
        (Layout.flag_eq_false other_global other_unfixed) same
    · rw [temp_home] at same
      exact absurd (same ▸ (inv.frame other other_local other_allocated).1)
        (layout.home_not_frame temp temp_global temp_flag)
  · rcases Nat.lt_or_ge other config.nbGlobals with other_global | other_local
    · rw [(inv.home other other_global other_unfixed).2] at same
      exact absurd (same ▸ (inv.frame temp temp_local temp_allocated).1)
        (layout.home_not_frame other other_global (Layout.flag_eq_false other_global other_unfixed))
    · exact inv.frame_injective temp other temp_local other_local temp_allocated
        other_allocated same

theorem slot_not_stack (unfixed : ¬layout.Fixed temp)
    (allocated : (s.temps temp).memAllocated = true) : ¬target.InCallStack (s.temps temp).slot := by
  rcases Nat.lt_or_ge temp config.nbGlobals with global | temp_local
  · rw [(inv.home temp global unfixed).2]
    exact layout.home_not_stack temp global (Layout.flag_eq_false global unfixed)
  · exact layout.frame_not_stack _ (inv.frame temp temp_local allocated).1

end

/-! ## Elementary changes -/

theorem emit (inv : AllocInv layout s) (instr : HostInstr) : AllocInv layout (s.emit instr) :=
  { inv with }

theorem le_frameSlot (offset : Nat) : offset ≤ frameSlot offset := by
  unfold frameSlot targetLongSize
  omega

section

variable (inv : AllocInv layout s)

include inv

theorem placeInFrame (temp_local : config.nbGlobals ≤ temp)
    (fits : frameSlot s.currentFrameOffset + targetLongSize ≤ target.frameEnd) :
    AllocInv layout (s.placeInFrame target.frameReg temp) := by
  have grows := le_frameSlot s.currentFrameOffset
  constructor
  all_goals
    simp only [TCGContext.placeInFrame, setTemp, update_apply]
    grind [AllocInv, Target.InFrame, slot, targetLongSize]

/-- A variable that is in no register changes to another place that is no register. -/
theorem moveOutside {valType : ValType} {val : TCGArg} (outside : (s.temps temp).valType ≠ .reg)
    (stays_outside : valType ≠ .reg)
    (backed : valType = .mem → config.survives temp = true ∨ (s.temps temp).memAllocated = true) :
    AllocInv layout (s.setTemp temp { s.temps temp with valType, val }) := by
  constructor
  all_goals
    simp only [setTemp, update_apply]
    grind [AllocInv, slot]

theorem leaveReg {reg : Reg} {valType : ValType}
    (unfixed : ¬layout.Fixed temp) (here : (s.temps temp).valType = .reg)
    (same_reg : (s.temps temp).reg = reg) (stays_outside : valType ≠ .reg)
    (backed : valType = .mem → (s.temps temp).memAllocated = true) :
    AllocInv layout ((s.setValType temp valType).setReg reg none) := by
  constructor
  all_goals
    simp only [setValType, setReg, setTemp, update_apply]
    grind [AllocInv, slot]

theorem enterReg {memCoherent : Bool} (outside : (s.temps temp).valType ≠ .reg)
    (free : s.regToTemp reg = none) (unreserved : target.reservedRegs reg = false)
    (backed : memCoherent = true → (s.temps temp).memAllocated = true) :
    AllocInv layout (s.record temp reg memCoherent) := by
  constructor
  all_goals
    simp only [record, setReg, setTemp, update_apply]
    grind [AllocInv, slot]

theorem markDead (unfixed : ¬layout.Fixed temp) : AllocInv layout (s.markDead temp) := by
  unfold TCGContext.markDead releaseReg
  split
  · next here => exact inv.leaveReg unfixed here rfl nofun nofun
  · next outside =>
    have moved : AllocInv layout (s.setTemp temp { s.temps temp with valType := .dead }) :=
      inv.moveOutside outside nofun nofun
    exact moved

theorem recordFixed {memCoherent : Bool} (fixed : layout.Fixed temp) :
    AllocInv layout (s.record temp (s.temps temp).reg memCoherent) := by
  have reserved : target.reservedRegs (s.temps temp).reg = true :=
    Layout.FixedReg.reserved ⟨temp, fixed, (inv.fixed_reg temp fixed).2.symm⟩
  constructor
  all_goals
    simp only [record, setReg, setTemp, update_apply]
    grind [AllocInv, slot]

end

end AllocInv

end Qemu.Tcg
