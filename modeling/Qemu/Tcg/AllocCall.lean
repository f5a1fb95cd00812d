import Qemu.Tcg.AllocOp

/-!
# Calls

`tcg_reg_alloc_call` stores the arguments that do not fit into registers on the call stack, loads
the argument registers and the function address, frees the registers the callee may destroy, and
saves the globals unless the callee promises not to look at them.
-/

namespace Qemu.Tcg

open TCGContext Prog Function List Kept Nat Layout Extends
open Host hiding setReg

variable {W : Type} {target : Target} {config : TCGTemps} {layout : Layout target config}
variable {allocatedRegs : TCGRegSet} {needed : TCGArg → Prop}
  {dead : TCGArg → Prop} {kept : Kept} {s s' s'' : TCGContext} {host host' host'' : Host W}
  {arg : TCGArg}

/-! ## Reading a variable -/

theorem carries_slot (there : (s.temps arg).valType = .mem)
    (placed : (s.temps arg).memAllocated = true) :
    Carries layout dead s host s host arg (.slot (s.temps arg).slot) := by
  intro final live values value _ whole _ before is_live has_value
  rw [← (whole arg placed).2]
  exact ((before arg is_live value has_value).mem there).2

theorem Stores.slot_eq (stores : Stores layout dead kept s host s' host') (inv : AllocInv layout s)
    (there : (s.temps arg).valType = .mem) (placed : (s.temps arg).memAllocated = true) :
    host'.mem (s'.temps arg).slot = host.mem (s.temps arg).slot := by
  have unfixed : ¬layout.Fixed arg := inv.not_fixed_of_valType (by simp [there])
  rw [(stores.steps.extends_state arg placed).2]
  exact stores.words arg unfixed placed (by simp [there])

/-! ## Arguments on the stack -/

/-- Words of the call stack below an offset are in use. -/
def Kept.below (target : Target) (offset : Nat) : Kept :=
  ⟨fun _ => false, fun slot => decide (slot.1 = target.callStackReg ∧ slot.2 < offset)⟩

theorem storeCallArg_steps (dead : TCGArg → Prop) (kept : Kept) {slot : Slot}
    (inv : AllocInv layout s) (readable : Readable s arg) (in_stack : target.InCallStack slot)
    (unused : kept.words slot = false) (no_regs : ∀ reg, kept.regs reg = false)
    (run : storeCallArg target arg slot s = (.ok (), s')) (host : Host W) :
    ∃ host', AllocSteps layout dead kept s host s' host' ∧
      Carries layout dead s host s' host' arg (.slot slot) := by
  simp only [storeCallArg, get_bind] at run
  cases place : (s.temps arg).valType with
  | reg =>
    simp only [place] at run
    obtain rfl := (Prod.mk.inj run).2
    refine ⟨_, .single (.storeArg _ in_stack unused), (carries_reg place).keep (refl s) ?_⟩
    simp [operand, move, setMem]
  | mem | const =>
    simp only [place] at run
    obtain ⟨reg, middle, allocated, finished⟩ := bind_eq_ok.mp run
    obtain ⟨host₁, stores, free, -, -, -, unreserved⟩ :=
      tcgRegAlloc_stores dead kept inv (fun _ => id) allocated host
    obtain rfl := (Prod.mk.inj finished).2
    have loaded (instr : HostInstr) (writes : instr.writes = some reg) :
        AllocStep layout dead kept middle host₁ (middle.emit instr) (host₁.move instr) :=
      .scratch writes free (not_fixedReg unreserved) (no_regs reg)
    refine ⟨_, (stores.steps.tail (loaded _ rfl)).tail (.storeArg reg in_stack unused), ?_⟩
    first
    | refine (carries_slot place (readable place)).keep stores.steps.extends_state ?_
      simp [operand, move, setMem, Host.setReg, stores.slot_eq inv place (readable place)]
    | refine (carries_const place).keep stores.steps.extends_state ?_
      simp [operand, move, setMem, Host.setReg]
  | dead =>
    simp only [place] at run
    simp at run

theorem storeCallArgs_steps {params : List (Option TCGArg)} {offset : Nat} (inv : AllocInv layout s)
    (backed : Backed needed s) (kept_alive : ∀ temp, needed temp → ¬dead temp)
    (covered : ∀ arg, some arg ∈ params → Covered config needed arg)
    (lower : target.callStackOffset ≤ offset)
    (upper : offset + params.length * targetLongSize ≤ target.callStackOffset + staticCallArgsSize)
    (run : storeCallArgs target params offset s = (.ok (), s')) (host : Host W) :
    ∃ host', AllocSteps layout dead (below target offset) s host s' host' ∧
      ∀ i arg, params[i]? = some (some arg) → Carries layout dead s host s' host' arg
        (.slot (target.callStackReg, offset + i * targetLongSize)) := by
  induction params generalizing s host offset with
  | nil =>
    obtain ⟨-, rfl⟩ := ok_inj run
    exact ⟨host, .refl s host, by simp⟩
  | cons first rest ih =>
    have size : 0 < targetLongSize := by decide
    rw [length_cons, Nat.add_mul, Nat.one_mul] at upper
    have rest_covered : ∀ arg, some arg ∈ rest → Covered config needed arg :=
      fun arg mem => covered arg (mem_cons_of_mem _ mem)
    have weaker : ∀ slot, (below target offset).words slot = true →
        (below target (offset + targetLongSize)).words slot = true := by
      intro slot used
      simp only [below, decide_eq_true_eq] at used ⊢
      exact ⟨used.1, by omega⟩
    cases first with
    | none =>
      obtain ⟨host', steps, carries⟩ := ih inv backed rest_covered (by omega) (by omega) run host
      refine ⟨host', steps.mono (fun _ => id) (fun _ => id) weaker, fun i arg found => ?_⟩
      cases i with
      | zero => simp at found
      | succ i =>
        have carried := carries i arg (by simpa using found)
        rwa [Nat.add_assoc, Nat.add_comm targetLongSize, ← Nat.succ_mul] at carried
    | some first =>
      obtain ⟨_, middle, stored, remaining⟩ := bind_eq_ok.mp run
      have in_stack : target.InCallStack (target.callStackReg, offset) :=
        ⟨rfl, lower, by omega⟩
      obtain ⟨host₁, steps, carries⟩ := storeCallArg_steps dead (below target offset) inv
        (readable_of_backed inv backed (covered first mem_cons_self)) in_stack
        (by simp [below]) (fun _ => rfl) stored host
      obtain ⟨host₂, steps', carries'⟩ := ih (steps.inv inv)
        (steps.backed inv kept_alive backed) rest_covered (by omega) (by omega) remaining host₁
      refine ⟨host₂, steps.trans (steps'.mono (fun _ => id) (fun _ => id) weaker),
        fun i arg found => ?_⟩
      cases i with
      | zero =>
        obtain rfl : first = arg := by simpa using found
        exact carries.keep steps'.extends_state (steps'.kept_words (steps.inv inv) in_stack
          (by simp [below, size]))
      | succ i =>
        have carried := carries' i arg (by simpa using found)
        rw [Nat.add_assoc, Nat.add_comm targetLongSize, ← Nat.succ_mul] at carried
        exact carried.of_steps inv steps steps'.extends_state

/-! ## Arguments in registers -/

/-- Registers are in use; so are all words of the call stack. -/
def Kept.loaded (allocatedRegs : TCGRegSet) : Kept := ⟨allocatedRegs, fun _ => true⟩

section

variable (inv : AllocInv layout s) (backed : Backed needed s)
  (kept_alive : ∀ temp, needed temp → ¬dead temp)

include inv backed kept_alive

theorem loadCallArg_steps {reg : Reg} (covered : Covered config needed arg)
    (unfixed : ¬layout.FixedReg reg) (unused : allocatedRegs reg = false)
    (run : loadCallArg target arg reg s = (.ok (), s')) (host : Host W) :
    ∃ host', AllocSteps layout dead (Kept.loaded allocatedRegs) s host s' host' ∧
      Carries layout dead s host s' host' arg (.reg reg) := by
  obtain ⟨_, middle, freed, loaded⟩ := bind_eq_ok.mp run
  obtain ⟨host₁, stores, free, -, -⟩ :=
    tcgRegFree_stores dead (Kept.loaded allocatedRegs) inv unfixed freed host
  have middle_inv := stores.steps.inv inv
  have readable : Readable middle arg :=
    readable_of_backed middle_inv (stores.steps.backed inv kept_alive backed) covered
  have written : ∀ instr, instr.writes = some reg → AllocSteps layout dead
      (Kept.loaded allocatedRegs) s host (middle.emit instr) (host₁.move instr) :=
    fun instr writes => stores.steps.tail (.scratch writes free unfixed unused)
  have carried : ∀ {operand : Operand}, Carries layout dead middle host₁ middle host₁ arg operand →
      Carries layout dead s host middle host₁ arg operand :=
    fun carries => carries.of_steps inv stores.steps (refl middle)
  simp only [get_bind] at loaded
  cases place : (middle.temps arg).valType with
  | reg =>
    simp only [place, tcgOutMovNe] at loaded
    split at loaded
    · next same =>
      obtain ⟨-, rfl⟩ := ok_inj loaded
      exact ⟨host₁, stores.steps, same ▸ carried (carries_reg place)⟩
    · obtain rfl := (Prod.mk.inj loaded).2
      refine ⟨_, written _ rfl, (carried (carries_reg place)).keep (refl middle) ?_⟩
      simp [operand, move, Host.setReg]
  | mem =>
    simp only [place] at loaded
    obtain rfl := (Prod.mk.inj loaded).2
    refine ⟨_, written _ rfl,
      (carried (carries_slot place (readable place))).keep (refl middle) ?_⟩
    simp [operand, move, Host.setReg]
  | const =>
    simp only [place] at loaded
    obtain rfl := (Prod.mk.inj loaded).2
    refine ⟨_, written _ rfl, (carried (carries_const place)).keep (refl middle) ?_⟩
    simp [operand, move, Host.setReg]
  | dead =>
    simp only [place] at loaded
    simp at loaded

theorem loadCallArgs_steps {pairs : List (Option TCGArg × Reg)}
    {allocatedRegs allocatedRegs' : TCGRegSet}
    (covered : ∀ pair ∈ pairs, ∀ arg, pair.1 = some arg → Covered config needed arg)
    (unfixed : ∀ pair ∈ pairs, ¬layout.FixedReg pair.2)
    (unused : ∀ pair ∈ pairs, allocatedRegs pair.2 = false) (distinct : (pairs.map Prod.snd).Nodup)
    (run : loadCallArgs target pairs allocatedRegs s = (.ok allocatedRegs', s')) (host : Host W) :
    ∃ host', AllocSteps layout dead (loaded allocatedRegs) s host s' host' ∧
      (∀ reg, allocatedRegs reg = true → allocatedRegs' reg = true) ∧
      ∀ (i : Nat) arg reg, pairs[i]? = some (some arg, reg) → allocatedRegs' reg = true ∧
        Carries layout dead s host s' host' arg (.reg reg) := by
  induction pairs generalizing s host allocatedRegs with
  | nil =>
    obtain ⟨rfl, rfl⟩ := ok_inj run
    exact ⟨host, .refl s host, fun _ => id, by simp⟩
  | cons pair rest ih =>
    obtain ⟨first, reg⟩ := pair
    rw [map_cons, nodup_cons] at distinct
    have rest_covered := fun pair mem => covered pair (mem_cons_of_mem _ mem)
    have rest_unfixed : ∀ pair ∈ rest, ¬layout.FixedReg pair.2 :=
      fun pair mem => unfixed pair (mem_cons_of_mem _ mem)
    have rest_unused : ∀ pair ∈ rest, allocatedRegs pair.2 = false :=
      fun pair mem => unused pair (mem_cons_of_mem _ mem)
    cases first with
    | none =>
      obtain ⟨host', steps, grows, carries⟩ := ih inv backed rest_covered rest_unfixed
        rest_unused distinct.2 run host
      refine ⟨host', steps, grows, fun i arg other found => ?_⟩
      cases i with
      | zero => simp at found
      | succ i => exact carries i arg other (by simpa using found)
    | some first =>
      obtain ⟨_, middle, loaded, remaining⟩ := bind_eq_ok.mp run
      obtain ⟨host₁, steps, carries⟩ := loadCallArg_steps inv backed kept_alive
        (covered _ mem_cons_self first rfl) (unfixed _ mem_cons_self)
        (unused _ mem_cons_self) loaded host
      have grows_reg : ∀ other, allocatedRegs other = true →
          update allocatedRegs reg true other = true := by
        intro other mem
        by_cases same : other = reg
        · simp [same]
        · rwa [update_of_ne same]
      have still_unused : ∀ pair ∈ rest,
          update allocatedRegs reg true pair.2 = false := by
        intro pair mem
        have ne : pair.2 ≠ reg := fun same => distinct.1 (mem_map.mpr ⟨pair, mem, same⟩)
        rw [update_of_ne ne]
        exact rest_unused pair mem
      obtain ⟨host₂, steps', grows, carries'⟩ := ih (steps.inv inv)
        (steps.backed inv kept_alive backed) rest_covered rest_unfixed still_unused distinct.2
        remaining host₁
      refine ⟨host₂, steps.trans (steps'.mono (fun _ => id) grows_reg fun _ => id),
        fun other mem => grows other (grows_reg other mem), fun i arg other found => ?_⟩
      cases i with
      | zero =>
        obtain ⟨rfl, rfl⟩ : first = arg ∧ reg = other := by simpa using found
        have now : update allocatedRegs reg true reg = true :=
          update_self ..
        exact ⟨grows reg now, carries.keep steps'.extends_state (steps'.kept_regs now)⟩
      | succ i =>
        obtain ⟨mem, carried⟩ := carries' i arg other (by simpa using found)
        exact ⟨mem, carried.of_steps inv steps steps'.extends_state⟩

end

/-! ## The function address -/

theorem loadFuncAddr_steps (dead : TCGArg → Prop) {func : TCGArg} {operand : Operand}
    (inv : AllocInv layout s) (readable : Readable s func)
    (reserved : ∀ reg, target.reservedRegs reg = true → allocatedRegs reg = true)
    (run : loadFuncAddr target func allocatedRegs s = (.ok operand, s')) (host : Host W) :
    ∃ host', AllocSteps layout dead (loaded allocatedRegs) s host s' host' ∧
      Carries layout dead s host s' host' func operand ∧
      InSet (addOperand allocatedRegs operand) operand := by
  have load : ∀ {instr : HostInstr} {reg : Reg} {middle : TCGContext} {source : Operand},
      instr.writes = some reg →
      tcgRegAlloc target target.callConstraint.regs allocatedRegs s = (.ok reg, middle) →
      Carries layout dead s host s host func source →
      (∀ host₁, Stores layout dead (loaded allocatedRegs) s host middle host₁ →
        (host₁.move instr).regs reg = host.operand source) →
      ∃ host', AllocSteps layout dead (loaded allocatedRegs) s host (middle.emit instr) host' ∧
        Carries layout dead s host (middle.emit instr) host' func (.reg reg) ∧
        InSet (addOperand allocatedRegs (.reg reg)) (.reg reg) := by
    intro instr reg middle source writes allocated carries effect
    obtain ⟨host₁, stores, free, -, -, unused, unreserved⟩ :=
      tcgRegAlloc_stores dead (loaded allocatedRegs) inv reserved allocated host
    refine ⟨_, stores.steps.tail (.scratch writes free (not_fixedReg unreserved) unused),
      carries.keep stores.steps.extends_state (effect host₁ stores), ?_⟩
    simp [InSet, addOperand]
  simp only [loadFuncAddr, get_bind] at run
  cases place : (s.temps func).valType with
  | mem =>
    simp only [place] at run
    obtain ⟨reg, middle, allocated, finished⟩ := bind_eq_ok.mp run
    obtain ⟨rfl, rfl⟩ := ok_inj finished
    refine load rfl allocated (carries_slot place (readable place)) fun host₁ stores => ?_
    simp [move, Host.setReg, operand, stores.slot_eq inv place (readable place)]
  | reg =>
    simp only [place] at run
    split at run
    · obtain ⟨rfl, rfl⟩ := ok_inj run
      exact ⟨host, .refl s host, carries_reg place, by simp [InSet, addOperand]⟩
    · obtain ⟨reg, middle, allocated, finished⟩ := bind_eq_ok.mp run
      obtain ⟨rfl, rfl⟩ := ok_inj finished
      refine load rfl allocated (carries_reg place) fun host₁ stores => ?_
      simp [move, Host.setReg, operand, stores.regs]
  | const =>
    simp only [place] at run
    split at run
    · obtain ⟨rfl, rfl⟩ := ok_inj run
      exact ⟨host, .refl s host, carries_const place, trivial⟩
    · obtain ⟨reg, middle, allocated, finished⟩ := bind_eq_ok.mp run
      obtain ⟨rfl, rfl⟩ := ok_inj finished
      refine load rfl allocated (carries_const place) fun host₁ stores => ?_
      simp [move, Host.setReg, operand]
  | dead =>
    simp only [place] at run
    simp at run

/-! ## All inputs -/

/-- An operand that survives as long as the registers in the set do. -/
def CallOperand (target : Target) (allocatedRegs : TCGRegSet) : Operand → Prop
  | .reg reg => allocatedRegs reg = true
  | .const _ => True
  | .slot slot => target.InCallStack slot

theorem AllocSteps.callOperand_eq {operand : Operand}
    (steps : AllocSteps layout dead (loaded allocatedRegs) s host s' host')
    (inv : AllocInv layout s) (held : CallOperand target allocatedRegs operand) :
    host'.operand operand = host.operand operand := by
  cases operand with
  | reg reg => exact steps.kept_regs held
  | const value => rfl
  | slot slot => exact steps.kept_words inv held rfl

/-- The argument is in an operand that survives. -/
def HeldArg (layout : Layout target config) (s : TCGContext) (host : Host W)
    (allocatedRegs : TCGRegSet) (s' : TCGContext) (host' : Host W) (arg : Option TCGArg)
    (operand : Option Operand) : Prop :=
  CarriesArg layout s host s' host' arg operand ∧
    ∀ place, operand = some place → CallOperand target allocatedRegs place

theorem HeldArg.keep {arg : Option TCGArg} {operand : Option Operand}
    (held : HeldArg layout s host allocatedRegs s' host' arg operand) (inv : AllocInv layout s')
    (steps : AllocSteps layout dead (loaded allocatedRegs) s' host' s'' host'') :
    CarriesArg layout s host s'' host'' arg operand := by
  obtain ⟨carries, survives⟩ := held
  cases arg with
  | none => cases operand with
    | none => trivial
    | some place => exact carries.elim
  | some arg => cases operand with
    | none => exact carries.elim
    | some place =>
      exact Carries.keep carries steps.extends_state
        (steps.callOperand_eq inv (survives place rfl))

theorem callStackSize_bound {nbParams nbRegs : Nat} (align : 0 < target.stackAlign)
    (fits : ¬staticCallArgsSize < callStackSize target nbParams nbRegs) :
    (nbParams - nbRegs) * targetLongSize ≤ staticCallArgsSize := by
  refine Nat.le_trans ?_ (Nat.not_lt.mp fits)
  unfold callStackSize
  generalize (nbParams - nbRegs) * targetLongSize = size
  have division := div_add_mod (size + (target.stackAlign - 1)) target.stackAlign
  have remainder := mod_lt (size + (target.stackAlign - 1)) align
  rw [Nat.mul_comm] at division
  omega

theorem nodup_map_snd_zip {α β : Type} (left : List α) {right : List β} (nodup : right.Nodup) :
    ((left.zip right).map Prod.snd).Nodup := by
  rw [zip_eq_zip_take_min, map_snd_zip (by simp)]
  exact nodup.sublist (take_sublist _ _)

section

variable {needed : TCGArg → Prop} {params : List (Option TCGArg)} {func : TCGArg}
  {allocatedRegs : TCGRegSet} {operand : Operand}

theorem placeCallInputs_steps (inv : AllocInv layout s) (backed : Backed needed s)
    (covered : ∀ arg, some arg ∈ params ++ [some func] → Covered config needed arg)
    (fits : ¬staticCallArgsSize <
      callStackSize target params.length (min target.callIargRegs.length params.length))
    (run : placeCallInputs target params func s = (.ok (allocatedRegs, operand), s'))
    (host : Host W) :
    ∃ host', AllocSteps layout (fun _ => False) nothing s host s' host' ∧
      (∀ reg, target.reservedRegs reg = true → allocatedRegs reg = true) ∧
      Forall₂ (HeldArg layout s host allocatedRegs s' host') (params ++ [some func])
        (callOperands target params ++ [some operand]) := by
  have covered_param := fun arg mem => covered arg (mem_append_left _ mem)
  have bound := callStackSize_bound layout.stackAlign_pos fits
  obtain ⟨_, s₁, stored, rest⟩ := bind_eq_ok.mp run
  obtain ⟨loadedRegs, s₂, loaded, rest⟩ := bind_eq_ok.mp rest
  obtain ⟨operand', s₃, called, finished⟩ := bind_eq_ok.mp rest
  obtain ⟨same, rfl⟩ := Prod.mk.inj finished
  obtain ⟨rfl, rfl⟩ := Prod.mk.inj (Outcome.ok.inj same)
  obtain ⟨host₁, steps₁, on_stack⟩ := storeCallArgs_steps inv backed
    (fun _ _ => id) (fun arg mem => covered_param arg (mem_of_mem_drop mem)) (Nat.le_refl _)
    (by rw [length_drop]; omega) stored host
  have inv₁ := steps₁.inv inv
  have backed₁ := steps₁.backed inv (fun _ _ => id) backed
  obtain ⟨host₂, steps₂, grows, in_regs⟩ := loadCallArgs_steps inv₁ backed₁ (fun _ _ => id)
    (fun pair mem arg same => covered_param arg (same ▸ mem_of_mem_take (of_mem_zip mem).1))
    (fun pair mem => not_fixedReg_of_clobbered (layout.iargs_clobbered _ (of_mem_zip mem).2))
    (fun pair mem => layout.iargs_unreserved _ (of_mem_zip mem).2)
    (nodup_map_snd_zip _ layout.iargs_nodup) loaded host₁
  have inv₂ := steps₂.inv inv₁
  have backed₂ := steps₂.backed inv₁ (fun _ _ => id) backed₁
  obtain ⟨host₃, steps₃, func_carries, func_set⟩ := loadFuncAddr_steps (fun _ => False) inv₂
    (readable_of_backed inv₂ backed₂ (covered func (by simp))) grows called host₂
  have to_last := steps₂.extends_state.trans steps₃.extends_state
  have held : ∀ i arg, params[i]? = some (some arg) →
      Carries layout (fun _ => False) s host s₃ host₃ arg (callOperand target i) ∧
        CallOperand target (addOperand loadedRegs operand') (callOperand target i) := by
    intro i arg found
    obtain ⟨param_lt, -⟩ := List.getElem?_eq_some_iff.mp found
    unfold callOperand
    cases place : target.callIargRegs[i]? with
    | some reg =>
      obtain ⟨iarg_lt, -⟩ := List.getElem?_eq_some_iff.mp place
      obtain ⟨mem, carries⟩ := in_regs i arg reg (getElem?_zip_eq_some.mpr
        ⟨by rwa [getElem?_take_of_lt (by omega)], place⟩)
      refine ⟨(carries.of_steps inv steps₁ steps₂.extends_state).keep steps₃.extends_state
        (steps₃.kept_regs mem), addOperand_grows operand' mem⟩
    | none =>
      have iarg_le := getElem?_eq_none_iff.mp place
      rw [Nat.min_eq_left (by omega)] at on_stack bound
      have carries := on_stack (i - target.callIargRegs.length) arg (by
        rwa [getElem?_drop, Nat.add_sub_cancel' iarg_le])
      have in_stack : target.InCallStack (target.callStackReg,
          target.callStackOffset + (i - target.callIargRegs.length) * targetLongSize) := by
        refine ⟨rfl, le_add_right _ _, ?_⟩
        have smaller : (i - target.callIargRegs.length + 1) * targetLongSize ≤
            (params.length - target.callIargRegs.length) * targetLongSize :=
          mul_le_mul_right _ (by omega)
        rw [Nat.add_mul, Nat.one_mul] at smaller
        have size : 0 < targetLongSize := by decide
        omega
      refine ⟨carries.keep to_last ?_, in_stack⟩
      exact (steps₃.kept_words inv₂ in_stack rfl).trans (steps₂.kept_words inv₁ in_stack rfl)
  refine ⟨host₃, ((steps₁.forget fun _ => id).trans (steps₂.forget fun _ => id)).trans
    (steps₃.forget fun _ => id), fun reg mem => addOperand_grows operand' (grows reg mem), ?_⟩
  refine rel_append ?_ (.cons ⟨?_, ?_⟩ .nil)
  · unfold callOperands
    rw [forall₂_map_right_iff, range_eq_range']
    refine forall₂_range' fun i arg found => ?_
    rw [Nat.zero_add, getD_eq_getElem?_getD, found, Option.getD_some]
    cases arg with
    | none => exact ⟨trivial, nofun⟩
    | some arg =>
      obtain ⟨carries, survives⟩ := held i arg found
      exact ⟨carries, fun place same => Option.some.inj same ▸ survives⟩
  · exact (func_carries.of_steps inv₁ steps₂ steps₃.extends_state).of_steps inv steps₁ to_last
  · rintro place ⟨⟩
    cases operand' with
    | reg reg => exact func_set
    | const value => trivial
    | slot slot => exact func_set.elim

end

/-! ## Outputs -/

theorem assignCallOutput_steps {out : TCGArg} {reg : Reg} {isDead : Bool} (inv : AllocInv layout s)
    (unneeded : dead out) (unreserved : target.reservedRegs reg = false)
    (run : assignCallOutput out reg isDead s = (.ok (), s')) (host : Host W) :
    ∃ host', AllocSteps layout dead nothing s host s' host' ∧
      (isDead = false → Placed s' host' out (host.regs reg)) ∧
      (∀ temp, temp ≠ out → s'.temps temp = s.temps temp) ∧
      ∀ other, (layout.Fixed out → other ≠ (layout.globals out).reg) →
        host'.regs other = host.regs other := by
  simp only [assignCallOutput, get_bind] at run
  split at run
  · simp at run
  · next owned =>
    have free : s.regToTemp reg = none := by simpa using owned
    split at run
    · next flag =>
      have fixed := (inv.fixed_iff out).mp flag
      obtain ⟨here, same_reg⟩ := inv.fixed_reg out fixed
      have move_run : moveFixedOutput out reg s = (.ok (), s') := by
        simp only [moveFixedOutput, get_bind, flag, if_true]
        exact run
      obtain ⟨host', steps, temps, written, others⟩ :=
        moveFixedOutput_steps inv unneeded move_run host
      refine ⟨host', steps, fun _ => .reg ?_ (.inl ?_) ?_, fun temp _ => by rw [temps], others⟩
      · rw [temps, here]
      · rw [temps, flag]
      · rw [temps, same_reg]
        exact written fixed
    · next flag =>
      have unfixed : ¬layout.Fixed out := inv.not_fixed (by simpa using flag)
      obtain rfl := (Prod.mk.inj run).2
      obtain ⟨steps, place, -, -⟩ :=
        recordOutput_place isDead inv nothing unneeded free unreserved host
      refine ⟨host, steps, ?_, fun temp ne => temps_recordOutput_of_ne ne _ _, fun _ _ => rfl⟩
      rintro rfl
      cases place with
      | direct fixed | moved fixed => exact absurd fixed unfixed
      | unused _ _ is_dead => simp at is_dead
      | placed _ _ _ owner =>
        obtain ⟨here, same_reg⟩ := (steps.inv inv).temp_of_reg reg out owner
        exact .reg here (.inr (memCoherent_recordOutput reg (by simpa using flag)))
          (by rw [same_reg])

theorem assignCallOutputs_steps {deadArgs : DeadArgs} {start : Nat} {pairs : List (TCGArg × Reg)}
    (inv : AllocInv layout s) (unneeded : ∀ pair ∈ pairs, dead pair.1)
    (distinct : (pairs.map Prod.fst).Nodup)
    (unreserved : ∀ pair ∈ pairs, target.reservedRegs pair.2 = false)
    (run : assignCallOutputs deadArgs start pairs s = (.ok (), s')) (host : Host W) :
    ∃ host', AllocSteps layout dead nothing s host s' host' ∧
      (∀ (i : Nat) out reg, pairs[i]? = some (out, reg) → isDeadArg deadArgs (start + i) = false →
        Placed s' host' out (host.regs reg)) ∧
      (∀ temp, temp ∉ pairs.map Prod.fst → s'.temps temp = s.temps temp) ∧
      ∀ other, (∀ pair ∈ pairs, layout.Fixed pair.1 → other ≠ (layout.globals pair.1).reg) →
        host'.regs other = host.regs other := by
  induction pairs generalizing s host start with
  | nil =>
    obtain ⟨-, rfl⟩ := ok_inj run
    exact ⟨host, .refl s host, by simp, fun _ _ => rfl, fun _ _ => rfl⟩
  | cons pair rest ih =>
    obtain ⟨out, reg⟩ := pair
    obtain ⟨_, middle, first, remaining⟩ := bind_eq_ok.mp run
    rw [map_cons, nodup_cons] at distinct
    obtain ⟨host₁, steps, placed, temps, others⟩ := assignCallOutput_steps inv
      (unneeded _ mem_cons_self) (unreserved _ mem_cons_self) first host
    have middle_inv := steps.inv inv
    obtain ⟨host₂, steps', placed', temps', others'⟩ := ih middle_inv
      (fun pair mem => unneeded pair (mem_cons_of_mem _ mem)) distinct.2
      (fun pair mem => unreserved pair (mem_cons_of_mem _ mem)) remaining host₁
    have unfixed_of_mem : ∀ pair ∈ (out, reg) :: rest, ∀ temp, layout.Fixed temp →
        pair.2 ≠ (layout.globals temp).reg := by
      intro pair mem temp fixed same
      exact not_fixedReg (unreserved pair mem) ⟨temp, fixed, same.symm⟩
    refine ⟨host₂, steps.trans steps', fun i out' reg' found is_live => ?_, fun temp not_mem => ?_,
      fun other ne => ?_⟩
    · cases i with
      | zero =>
        obtain ⟨rfl, rfl⟩ : out = out' ∧ reg = reg' := by simpa using found
        have same_temp := temps' out distinct.1
        cases placed is_live with
        | const there holds => exact .const (by rw [same_temp, there]) (by rw [same_temp, holds])
        | reg here newer holds =>
          refine .reg (by rw [same_temp, here]) (by rwa [same_temp]) ?_
          rw [same_temp, ← holds]
          refine others' _ fun pair mem fixed same => ?_
          by_cases out_fixed : layout.Fixed out
          · rw [(middle_inv.fixed_reg out out_fixed).2] at same
            have equal := layout.fixed_injective out pair.1 out_fixed.1 fixed.1 out_fixed.2
              fixed.2 same
            exact distinct.1 (mem_map.mpr ⟨pair, mem, equal.symm⟩)
          · exact not_fixedReg (middle_inv.reg_of_temp out here out_fixed).2
              ⟨pair.1, fixed, same.symm⟩
      | succ i =>
        have later := placed' i out' reg' (by simpa using found)
          (by rwa [Nat.add_assoc, Nat.add_comm 1])
        rwa [others reg' (unfixed_of_mem _ (mem_of_getElem? found) out)] at later
    · rw [temps' temp (not_mem_of_not_mem_cons not_mem)]
      exact temps temp (ne_of_not_mem_cons not_mem)
    · rw [others' other fun pair mem => ne pair (mem_cons_of_mem _ mem)]
      exact others other (ne _ mem_cons_self)

/-! ## The call instruction -/

section

variable {needed : TCGArg → Prop} {outs : List TCGArg} {params : List (Option TCGArg)}
  {func : TCGArg} {flags : CallFlags} {deadArgs : DeadArgs}

theorem saveCallGlobals_saves (dead : TCGArg → Prop) (kept : Kept) (inv : AllocInv layout s)
    (guards : Guards target kept allocatedRegs)
    (run : saveCallGlobals target config flags allocatedRegs s = (.ok (), s')) (host : Host W) :
    ∃ host', Saves layout dead kept s host s' host' ∧
      (flags.isConst = false → GlobalsSaved layout s') := by
  unfold saveCallGlobals at run
  split at run
  · next is_const =>
    obtain ⟨-, rfl⟩ := ok_inj run
    exact ⟨host, Saves.refl s host, fun not_const => by simp [is_const] at not_const⟩
  · obtain ⟨host', saves, globals⟩ := saveGlobals_saves dead kept inv guards run host
    exact ⟨host', saves, fun _ => globals⟩

/-- `tcg_reg_alloc_call` emits the call with its arguments in place and nothing in the registers
that the callee may destroy. -/
theorem tcgRegAllocCall_ready (inv : AllocInv layout s) (backed : Backed needed s)
    (covered : ∀ arg, some arg ∈ params ++ [some func] → Covered config needed arg)
    (nodup : outs.Nodup) (enough : outs.length ≤ target.callOargRegs.length)
    (run : tcgRegAllocCall target config outs params func flags deadArgs s = (.ok (), s')) :
    Instructs W layout (.call flags)
      (Forgotten config false deadArgs outs.length (params ++ [some func])) outs
      (params ++ [some func]) deadArgs s s' := by
  unfold tcgRegAllocCall at run
  split at run
  · simp at run
  · next fits =>
    obtain ⟨⟨allocatedRegs, operand⟩, s₁, place_run, rest⟩ := bind_eq_ok.mp run
    obtain ⟨_, s₂, free_run, rest⟩ := bind_eq_ok.mp rest
    obtain ⟨_, s₃, clobber_run, rest⟩ := bind_eq_ok.mp rest
    obtain ⟨_, s₄, save_run, rest⟩ := bind_eq_ok.mp rest
    obtain ⟨_, emitted, emit_run, assign_run⟩ := bind_eq_ok.mp rest
    obtain rfl := (Prod.mk.inj emit_run).2
    have ready : ∀ host : Host W, ∃ host₄, Ready layout (.call flags)
        (Flagged deadArgs outs.length (params ++ [some func])) outs (params ++ [some func]) s host
        (target.callOargRegs.take outs.length) (callOperands target params ++ [some operand]) s₄
        host₄ := by
      intro host
      obtain ⟨host₁, placing, reserved, held⟩ :=
        placeCallInputs_steps inv backed covered fits place_run host
      have inv₁ := placing.inv inv
      obtain ⟨freeing, -⟩ := freeDeadInputs_steps (loaded allocatedRegs) inv₁ free_run host₁
      have inv₂ := freeing.inv inv₁
      obtain ⟨host₃, stores, free⟩ := clobberRegs_free
        (Flagged deadArgs outs.length (params ++ [some func])) (loaded allocatedRegs) inv₂
        clobber_run host₁
      have inv₃ := stores.steps.inv inv₂
      obtain ⟨host₄, saves, saved⟩ := saveCallGlobals_saves
        (Flagged deadArgs outs.length (params ++ [some func])) (loaded allocatedRegs) inv₃
        ⟨reserved, fun _ => id⟩ save_run host₃
      have steps := (freeing.trans stores.steps).trans saves.steps
      have all_steps := (placing.forget fun _ => False.elim).trans (steps.forget fun _ => id)
      have still_free := fun reg clobbered => saves.spilled.free reg (free reg clobbered)
      refine ⟨host₄, all_steps.forget fun _ => .inl, held.imp fun _ _ arg => arg.keep inv₁ steps,
        fun reads temp global => ?_, fun reads temp global unfixed _ => ?_, ?_, ?_,
        layout.oargs_nodup.sublist (take_sublist _ _), nofun⟩
      · exact carries_home_of_mem global all_steps inv
          (saved (by simpa [Action.access, CallFlags.access] using reads) temp global)
      · exact saved (by simpa [Action.access, CallFlags.access] using reads) temp global unfixed
      · intro _ reg temp clobbered owner
        simp [still_free reg clobbered] at owner
      · refine forall₂_iff_get.mpr
          ⟨by rw [length_take, Nat.min_eq_left enough], fun i out_lt reg_lt => .inr ?_⟩
        have mem : (target.callOargRegs.take outs.length).get ⟨i, reg_lt⟩ ∈
            target.callOargRegs := mem_of_mem_take (get_mem _ _)
        have clobbered := layout.oargs_clobbered _ mem
        refine ⟨not_fixedReg_of_clobbered clobbered, fun temp owner => ?_⟩
        rw [still_free _ clobbered] at owner
        exact absurd owner (by simp)
    refine ⟨target.callOargRegs.take outs.length, callOperands target params ++ [some operand], s₄,
      fun host => ?_, fun host => ?_⟩
    · exact ready host
    · obtain ⟨host₄, is_ready⟩ := ready host
      obtain ⟨host', steps, placed, -, -⟩ := assignCallOutputs_steps
        ((is_ready.steps.inv inv).emit _)
        (fun pair mem => show pair.1 ∈ outs from (of_mem_zip mem).1)
        (by rw [map_fst_zip enough]; exact nodup)
        (fun pair mem => layout.oargs_unreserved _ (of_mem_zip mem).2) assign_run host
      refine ⟨host', steps, fun i out reg found found_reg is_live => ?_⟩
      obtain ⟨bound, -⟩ := List.getElem?_eq_some_iff.mp found
      rw [getElem?_take_of_lt bound] at found_reg
      exact placed i out reg (getElem?_zip_eq_some.mpr ⟨found, found_reg⟩)
        (by rwa [Nat.zero_add])

end

end Qemu.Tcg
