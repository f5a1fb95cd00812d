import Qemu.Tcg.AllocMoves

/-!
# Ordinary ops

What is known when `tcg_reg_alloc_op` emits the instruction of an op: the operands carry the values
of the inputs, the globals are at home if the op may look at them, and every output has a register
in which nothing else is kept.
-/

namespace Qemu.Tcg

open TCGContext Prog List Nat

variable {W : Type} {target : Target} {config : TCGTemps} {layout : Layout target config}
variable {out : TCGArg} {i : Nat} {reg : Reg}
  {dead : TCGArg → Prop} {kept : Kept} {s s' s'' : TCGContext} {host host' host'' : Host W}

/-! ## The state in front of an instruction -/

section

variable (layout : Layout target config)

/-- Where other code expects a global. -/
def Layout.home (temp : TCGArg) : Operand :=
  if (layout.globals temp).fixedReg then .reg (layout.globals temp).reg
  else .slot (layout.globals temp).slot

/-- The operand carries the value of the argument; a dummy argument has no operand. -/
def CarriesArg (s : TCGContext) (host : Host W) (s' : TCGContext)
    (host' : Host W) : Option TCGArg → Option Operand → Prop
  | none, none => True
  | some arg, some operand => Carries layout (fun _ => False) s host s' host' arg operand
  | _, _ => False

/-- The register receives the output and holds no other variable. -/
def OutReg (s : TCGContext) (out : TCGArg) (reg : Reg) : Prop :=
  layout.Fixed out ∧ reg = (layout.globals out).reg ∨
    ¬layout.FixedReg reg ∧ ∀ temp, s.regToTemp reg = some temp → temp = out

end

/-- Variables that need not be kept up to the instruction. -/
def Forgotten (config : TCGTemps) (endsBlock : Bool) (deadArgs : DeadArgs) (start : Nat)
    (ins : List (Option TCGArg)) (temp : TCGArg) : Prop :=
  if endsBlock then Perishes config temp else Flagged deadArgs start ins temp

structure Ready (layout : Layout target config) (action : Action) (forgotten : TCGArg → Prop)
    (outs : List TCGArg) (ins : List (Option TCGArg)) (s : TCGContext) (host : Host W)
    (outRegs : List Reg) (operands : List (Option Operand)) (s' : TCGContext) (host' : Host W) :
    Prop where
  steps : AllocSteps layout (fun temp => forgotten temp ∨ temp ∈ outs) Kept.nothing s host s' host'
  carries : List.Forall₂ (CarriesArg layout s host s' host') ins operands
  globals : action.access.readsGlobals = true → ∀ temp, temp < config.nbGlobals →
    Carries layout forgotten s host s' host' temp (layout.home temp)
  saved : action.access.readsGlobals = true → ∀ temp, temp < config.nbGlobals →
    ¬layout.Fixed temp → temp ∉ outs → (s'.temps temp).valType = .mem
  spared : Machine.clobbers action = true → ∀ reg temp, target.callClobberRegs reg = true →
    s'.regToTemp reg = some temp → temp ∈ outs
  receives : List.Forall₂ (OutReg layout s') outs outRegs
  nodup : outRegs.Nodup
  blockEnd : action.access.endsBlock = true → AtBlockEnd layout s'

/-- What is emitted after the instruction brings the outputs to their places. -/
def Finishes (W : Type) (layout : Layout target config) (deadArgs : DeadArgs) (outs : List TCGArg)
    (outRegs : List Reg) (s s' : TCGContext) : Prop :=
  ∀ host : Host W, ∃ host', AllocSteps layout (· ∈ outs) Kept.nothing s host s' host' ∧
    ∀ i out reg, outs[i]? = some out → outRegs[i]? = some reg → isDeadArg deadArgs i = false →
      Placed s' host' out (host.regs reg)

/-- The allocator prepares, emits and completes one instruction. -/
def Instructs (W : Type) (layout : Layout target config) (action : Action)
    (forgotten : TCGArg → Prop) (outs : List TCGArg) (ins : List (Option TCGArg))
    (deadArgs : DeadArgs) (s s' : TCGContext) : Prop :=
  ∃ outRegs operands middle,
    (∀ host : Host W, ∃ host', Ready layout action forgotten outs ins s host outRegs operands middle
      host') ∧
    Finishes W layout deadArgs outs outRegs (middle.emit (.op action outRegs operands)) s'

theorem carries_home_of_mem {temp : TCGArg} (global : temp < config.nbGlobals)
    (steps : AllocSteps layout dead kept s host s' host') (inv : AllocInv layout s)
    (saved : ¬layout.Fixed temp → (s'.temps temp).valType = .mem) :
    Carries layout dead s host s' host' temp (layout.home temp) := by
  intro final live values value final_inv whole needed before is_live has_value
  have held := steps.matches_of_matches inv final_inv whole needed before temp is_live value
    has_value
  by_cases fixed : layout.Fixed temp
  · obtain ⟨here, same_reg⟩ := (steps.inv inv).fixed_reg temp fixed
    rw [Layout.home, if_pos fixed.2, ← same_reg]
    exact held.reg here
  · have flag : ¬(layout.globals temp).fixedReg = true := fun flag => fixed ⟨global, flag⟩
    rw [Layout.home, if_neg flag, ← (final_inv.home temp global fixed).2]
    exact (held.mem (saved fixed)).2

/-! ## Constraint tables -/

/-- What the allocator relies on in a constraint table for an op with this many outputs and
inputs. -/
structure OpConstraints.Valid (constraints : OpConstraints) (nbOuts nbIns : Nat) : Prop where
  outs_perm : constraints.sortedOuts.Perm (List.range nbOuts)
  ins_perm : constraints.sortedIns.Perm (List.range' nbOuts nbIns)
  tied : ∀ i, i < nbOuts → ∀ input, (constraints.argsCt i).aliasInput = some input →
    nbOuts ≤ input ∧ input < nbOuts + nbIns ∧ (constraints.argsCt input).aliasOutput = some i
  tied_in_reg : ∀ input, (constraints.argsCt input).aliasOutput.isSome = true →
    ∀ value, (constraints.argsCt input).constMatch value = false
  tied_first : constraints.sortedOuts.Pairwise fun i j =>
    (constraints.argsCt j).aliasInput.isSome = true →
      (constraints.argsCt i).aliasInput.isSome = true

namespace OpConstraints.Valid

variable {constraints : OpConstraints} {nbOuts nbIns : Nat}

theorem mem_outs (valid : constraints.Valid nbOuts nbIns) :
    i ∈ constraints.sortedOuts ↔ i < nbOuts :=
  valid.outs_perm.mem_iff.trans mem_range

theorem mem_ins (valid : constraints.Valid nbOuts nbIns) :
    i ∈ constraints.sortedIns ↔ nbOuts ≤ i ∧ i < nbOuts + nbIns :=
  valid.ins_perm.mem_iff.trans mem_range'_1

end OpConstraints.Valid

/-- An input is marked dead at one of its occurrences only. -/
def FlaggedOnce (deadArgs : DeadArgs) (start : Nat) (ins : List (Option TCGArg)) : Prop :=
  ∀ i j temp, ins[i]? = some (some temp) → ins[j]? = some (some temp) →
    isDeadArg deadArgs (start + i) = true → isDeadArg deadArgs (start + j) = true → i = j

/-! ## Tied registers -/

section

variable {words : Slot → Bool} {args : Nat → TCGArg} {constraints : OpConstraints}
  {deadArgs : DeadArgs} {indices : List Nat} {allocatedRegs' : TCGRegSet} {newArgs : NewArgs}

section

variable
  (done : InputsDone layout dead words args constraints deadArgs indices target.reservedRegs s host allocatedRegs' newArgs s' host')

include done

/-- After dead inputs have been given up, a tied input leaves its register to the output. -/
theorem InputsDone.tiedReg {i input : Nat} {flagged : TCGArg → Prop}
    (inv : AllocInv layout s') (mem : input ∈ indices)
    (tied : (constraints.argsCt input).aliasOutput = some i)
    (dying : isDeadArg deadArgs input = true → flagged (args input))
    (still_free : ∀ reg, s'.regToTemp reg = none → s''.regToTemp reg = none)
    (freed : ∀ reg temp, s'.regToTemp reg = some temp → flagged temp → ¬layout.Fixed temp →
      s''.regToTemp reg = none) :
    TiedReg layout s'' target.reservedRegs (args i) (newArgs input) := by
  have place := done.place input mem
  have unused := done.unused input mem
  have is_tied : (constraints.argsCt input).aliasOutput.isSome = true := by simp [tied]
  generalize newArgs input = operand at place unused
  cases place with
  | const value untied => simp [is_tied] at untied
  | @fresh reg free unfixed =>
    have unreserved := unused reg rfl free unfixed
    exact ⟨reg, rfl, .inl ⟨still_free reg free, unreserved, unreserved⟩⟩
  | @owned reg owner unfixed given =>
    obtain ⟨here, rfl⟩ := inv.temp_of_reg reg _ owner
    have unreserved := (inv.reg_of_temp _ here unfixed).2
    exact ⟨_, rfl, .inl ⟨freed _ _ owner (dying (given is_tied)) unfixed, unreserved, unreserved⟩⟩
  | fixed fixed given =>
    have same : args input = args i := by simpa [tiedToSelf, tied] using given is_tied
    exact ⟨_, rfl, .inr (same ▸ ⟨fixed, rfl⟩)⟩

theorem InputsDone.tied_distinct {input input' : Nat} (mem : input ∈ indices)
    (mem' : input' ∈ indices)
    (once : args input = args input' → isDeadArg deadArgs input = true → isDeadArg deadArgs input' = true → input = input')
    (tied : (constraints.argsCt input).aliasOutput.isSome = true)
    (tied' : (constraints.argsCt input').aliasOutput.isSome = true)
    (same : newArgs input = .reg reg) (same' : newArgs input' = .reg reg)
    (unfixed_reg : ¬layout.FixedReg reg) : input = input' := by
  have place := done.place input mem
  have place' := done.place input' mem'
  rw [same] at place
  rw [same'] at place'
  cases place with
  | fixed fixed => exact absurd ⟨_, fixed, rfl⟩ unfixed_reg
  | fresh free => exact done.distinct input mem input' mem' reg same same' free unfixed_reg
  | owned owner unfixed given =>
    cases place' with
    | fixed fixed => exact absurd ⟨_, fixed, rfl⟩ unfixed_reg
    | fresh free => simp [owner] at free
    | owned owner' unfixed' given' =>
      have same_arg : args input = args input' := Option.some.inj (owner.symm.trans owner')
      exact once same_arg (given tied) (given' tied')

end

end

/-! ## Fixed outputs -/

theorem moveFixedOutput_steps (inv : AllocInv layout s) (unneeded : dead out)
    (run : moveFixedOutput out reg s = (.ok (), s')) (host : Host W) :
    ∃ host', AllocSteps layout dead Kept.nothing s host s' host' ∧ s'.temps = s.temps ∧
      (layout.Fixed out → host'.regs (layout.globals out).reg = host.regs reg) ∧
      ∀ other, (layout.Fixed out → other ≠ (layout.globals out).reg) →
        host'.regs other = host.regs other := by
  simp only [moveFixedOutput, get_bind] at run
  split at run
  · next flag =>
    have fixed := (inv.fixed_iff out).mp flag
    have same_reg := (inv.fixed_reg out fixed).2
    unfold tcgOutMovNe at run
    split at run
    · next same =>
      obtain ⟨-, rfl⟩ := ok_inj run
      exact ⟨host, .refl s host, rfl, fun _ => by rw [← same_reg, same], fun _ _ => rfl⟩
    · obtain rfl := (Prod.mk.inj run).2
      refine ⟨_, .single (.writeFixed fixed unneeded rfl rfl), rfl, fun _ => ?_, fun other ne => ?_⟩
      · simp [Host.move, Host.setReg, same_reg]
      · exact Function.update_of_ne (same_reg ▸ ne fixed) _ _
  · next flag =>
    obtain ⟨-, rfl⟩ := ok_inj run
    exact ⟨host, .refl s host, rfl, fun fixed => absurd ((inv.fixed_iff out).mpr fixed) flag,
      fun _ _ => rfl⟩

/-- Outputs that live in fixed registers are copied there; no other register changes. -/
theorem moveFixedOutputs_steps {pairs : List (TCGArg × Reg)} (inv : AllocInv layout s)
    (unneeded : ∀ pair ∈ pairs, dead pair.1) (distinct : (pairs.map Prod.fst).Nodup)
    (apart : ∀ pair ∈ pairs, layout.FixedReg pair.2 →
      layout.Fixed pair.1 ∧ pair.2 = (layout.globals pair.1).reg)
    (run : moveFixedOutputs pairs s = (.ok (), s')) (host : Host W) :
    ∃ host', AllocSteps layout dead Kept.nothing s host s' host' ∧ s'.temps = s.temps ∧
      (∀ pair ∈ pairs, layout.Fixed pair.1 →
        host'.regs (layout.globals pair.1).reg = host.regs pair.2) ∧
      ∀ other, (∀ pair ∈ pairs, layout.Fixed pair.1 → other ≠ (layout.globals pair.1).reg) →
        host'.regs other = host.regs other := by
  induction pairs generalizing s host with
  | nil =>
    obtain ⟨-, rfl⟩ := ok_inj run
    exact ⟨host, .refl s host, rfl, nofun, fun _ _ => rfl⟩
  | cons pair rest ih =>
    obtain ⟨out, reg⟩ := pair
    obtain ⟨_, middle, first, remaining⟩ := bind_eq_ok.mp run
    rw [map_cons, nodup_cons] at distinct
    obtain ⟨host₁, steps, temps, written, others⟩ :=
      moveFixedOutput_steps inv (unneeded _ mem_cons_self) first host
    obtain ⟨host₂, steps', temps', written', others'⟩ := ih (steps.inv inv)
      (fun pair mem => unneeded pair (mem_cons_of_mem _ mem)) distinct.2
      (fun pair mem => apart pair (mem_cons_of_mem _ mem)) remaining host₁
    have ne_of_mem : ∀ pair ∈ rest, layout.Fixed out → layout.Fixed pair.1 →
        (layout.globals out).reg ≠ (layout.globals pair.1).reg := by
      intro pair mem fixed fixed' same
      have equal := layout.fixed_injective out pair.1 fixed.1 fixed'.1 fixed.2 fixed'.2 same
      exact distinct.1 (mem_map.mpr ⟨pair, mem, equal.symm⟩)
    refine ⟨host₂, steps.trans steps', temps'.trans temps, fun pair mem fixed => ?_,
      fun other ne => ?_⟩
    · rcases mem_cons.mp mem with rfl | tail
      · rw [others' _ fun pair tail fixed' => ne_of_mem pair tail fixed fixed', written fixed]
      · rw [written' pair tail fixed]
        refine others pair.2 fun out_fixed same => ?_
        have own := apart pair (mem_cons_of_mem _ tail) ⟨out, out_fixed, same.symm⟩
        exact ne_of_mem pair tail out_fixed own.1 (same.symm.trans own.2)
    · rw [others' other fun pair tail => ne pair (mem_cons_of_mem _ tail)]
      exact others other (ne _ mem_cons_self)

/-! ## The instruction -/

theorem bbEnd_no_outs {opc : TCGOpcode} (ends : (tcgOpDefs opc).bbEnd = true) :
    (tcgOpDefs opc).nbOargs = 0 ∧ (tcgOpDefs opc).callClobber = false := by
  cases opc <;> first | exact ⟨rfl, rfl⟩ | exact absurd ends (by decide)

theorem forall₂_range' {α : Type} {rel : α → Nat → Prop} {list : List α} {start : Nat}
    (related : ∀ index element, list[index]? = some element → rel element (start + index)) :
    Forall₂ rel list (range' start list.length) := by
  refine forall₂_iff_get.mpr ⟨length_range'.symm, fun index small _ => ?_⟩
  simpa using related index list[index] (getElem?_eq_getElem small)

/-- Arguments of an op by their index: outputs first, then inputs. -/
def opArgs (outs ins : List TCGArg) (i : Nat) : TCGArg := (outs ++ ins).getD i 0

theorem opArgs_out {outs ins : List TCGArg} (found : outs[i]? = some out) :
    opArgs outs ins i = out := by
  obtain ⟨bound, -⟩ := List.getElem?_eq_some_iff.mp found
  rw [opArgs, getD_eq_getElem?_getD, getElem?_append_left bound, found, Option.getD_some]

theorem opArgs_mem {outs ins : List TCGArg} (bound : i < outs.length) :
    opArgs outs ins i ∈ outs := by
  rw [opArgs_out (getElem?_eq_getElem bound)]
  exact getElem_mem bound

theorem opArgs_in (outs : List TCGArg) {ins : List TCGArg} {arg : TCGArg}
    (found : ins[i]? = some arg) : opArgs outs ins (outs.length + i) = arg := by
  rw [opArgs, getD_eq_getElem?_getD, getElem?_append_right (le_add_right _ _),
    Nat.add_sub_cancel_left, found, Option.getD_some]

theorem exists_input {outs ins : List TCGArg} (lower : outs.length ≤ i)
    (upper : i < outs.length + ins.length) :
    ∃ k arg, i = outs.length + k ∧ ins[k]? = some arg ∧ opArgs outs ins i = arg := by
  have bound : i - outs.length < ins.length := by omega
  refine ⟨i - outs.length, ins[i - outs.length], by omega, getElem?_eq_getElem bound, ?_⟩
  have same := opArgs_in outs (getElem?_eq_getElem bound)
  rwa [Nat.add_sub_cancel' lower] at same

theorem OutputPlace.fixed_of_fixedReg {isDead : Bool} (place : OutputPlace layout s out isDead reg)
    (fixed_reg : layout.FixedReg reg) : layout.Fixed out ∧ reg = (layout.globals out).reg := by
  cases place with
  | direct fixed => exact ⟨fixed, rfl⟩
  | moved _ unfixed_reg | unused _ unfixed_reg | placed _ unfixed_reg =>
    exact absurd fixed_reg unfixed_reg

theorem OutputPlace.outReg {out : TCGArg} {isDead : Bool}
    (place : OutputPlace layout s out isDead reg) : OutReg layout s out reg := by
  cases place with
  | direct fixed => exact .inl ⟨fixed, rfl⟩
  | moved _ unfixed_reg free | unused _ unfixed_reg _ free =>
    exact .inr ⟨unfixed_reg, by simp [free]⟩
  | placed _ unfixed_reg _ owner => exact .inr ⟨unfixed_reg, by simp [owner]⟩

section

variable {opc : TCGOpcode} {constraints : OpConstraints} {outs ins cargs : List TCGArg}
  {deadArgs : DeadArgs} {needed : TCGArg → Prop} {allocatedRegs : TCGRegSet} {inArgs newArgs : NewArgs}

theorem forall₂_carries (outs : List TCGArg) {operandOf : NewArgs}
    (carries : ∀ i arg, ins[i]? = some arg →
      Carries layout (fun _ => False) s host s' host' arg (operandOf (outs.length + i))) :
    Forall₂ (CarriesArg layout s host s' host') (ins.map some)
      ((range' outs.length ins.length).map fun i => some (operandOf i)) := by
  rw [forall₂_map_left_iff, forall₂_map_right_iff]
  exact forall₂_range' carries

theorem ready_of_bbEnd (ends : (tcgOpDefs opc).bbEnd = true) (inv : AllocInv layout s)
    (valid : constraints.Valid 0 ins.length)
    (done : InputsDone layout (fun _ => False) (fun _ => false) (opArgs [] ins)
      constraints deadArgs constraints.sortedIns target.reservedRegs s
      host allocatedRegs inArgs s' host')
    (run : tcgRegAllocBbEnd target config allocatedRegs s' = (.ok (), s'')) :
    ∃ host'', Ready layout (.op opc cargs)
      (Forgotten config (tcgOpDefs opc).bbEnd deadArgs 0 (ins.map some)) [] (ins.map some) s host
      [] ((range' 0 ins.length).map fun i => some (inArgs i)) s'' host'' := by
  obtain ⟨host'', steps, block_end⟩ := tcgRegAllocBbEnd_steps ⟨allocatedRegs, fun _ => false⟩
    (done.steps.inv inv) ⟨done.grows, fun _ => id⟩ run host'
  have perishes : ∀ temp, Perishes config temp →
      Forgotten config (tcgOpDefs opc).bbEnd deadArgs 0 (ins.map some) temp := by
    intro temp perishes
    rwa [Forgotten, if_pos ends]
  have all_steps := (done.steps.forget fun _ => False.elim).trans (steps.forget perishes)
  have whole := steps.extends_state
  refine ⟨host'', ⟨all_steps.forget fun _ => .inl, ?_, ?_, ?_, ?_, .nil,
    nodup_nil, fun _ => block_end⟩⟩
  · refine forall₂_carries [] fun i arg found => ?_
    obtain ⟨bound, -⟩ := List.getElem?_eq_some_iff.mp found
    have mem : ([] : List TCGArg).length + i ∈ constraints.sortedIns :=
      valid.mem_ins.mpr ⟨zero_le _, by simpa using bound⟩
    have carries := (done.carries _ mem).keep whole (steps.operand_eq (done.in_set _ mem))
    rwa [opArgs_in [] found] at carries
  · exact fun _ temp global => carries_home_of_mem global all_steps inv fun unfixed =>
    block_end temp (TCGTemps.survives_of_global global) unfixed
  · exact fun _ temp global unfixed _ =>
    block_end temp (TCGTemps.survives_of_global global) unfixed
  · intro clobbers
    simp [Machine.clobbers, (bbEnd_no_outs ends).2] at clobbers

variable {s₁ s₂ s₃ s₄ : TCGContext} {host₁ : Host W}

/-- Where the outputs of an op are when its instruction is emitted. -/
structure OutputsPlaced (layout : Layout target config) (outs : List TCGArg) (deadArgs : DeadArgs)
    (newArgs : NewArgs) (s : TCGContext) : Prop where
  place : ∀ i out, outs[i]? = some out → ∃ reg, newArgs i = .reg reg ∧
    OutputPlace layout s out (isDeadArg deadArgs i) reg
  newer : ∀ i out, outs[i]? = some out → ¬layout.Fixed out → isDeadArg deadArgs i = false →
    (s.temps out).memCoherent = false

section

variable (inv : AllocInv layout s)
  (valid : constraints.Valid outs.length ins.length) (nodup : outs.Nodup)
  (once : FlaggedOnce deadArgs outs.length (ins.map some))
  (done : InputsDone layout (fun _ => False) (fun _ => false) (opArgs outs ins)
    constraints deadArgs constraints.sortedIns target.reservedRegs s
    host allocatedRegs inArgs s₁ host₁)
  (run : allocOutputs target (opArgs outs ins) constraints deadArgs
    constraints.sortedOuts target.reservedRegs inArgs s₃ = (.ok newArgs, s₄))

include inv valid nodup once done run

/-- Registers for the outputs after the inputs have been placed. -/
theorem outputs_of_inputs (inv₃ : AllocInv layout s₃)
    (still_free : ∀ reg, s₁.regToTemp reg = none → s₃.regToTemp reg = none)
    (freed : ∀ reg temp, s₁.regToTemp reg = some temp →
      Flagged deadArgs outs.length (ins.map some) temp → ¬layout.Fixed temp →
      s₃.regToTemp reg = none) (host₃ : Host W) :
    ∃ host₄, OutputsDone layout (· ∈ outs) Kept.nothing (opArgs outs ins) deadArgs
      constraints.sortedOuts target.reservedRegs s₃ host₃ newArgs s₄ host₄ := by
  have input_of_tied : ∀ i ∈ constraints.sortedOuts, ∀ input,
      (constraints.argsCt i).aliasInput = some input →
      input ∈ constraints.sortedIns ∧
        input ∉ constraints.sortedOuts ∧
        (constraints.argsCt input).aliasOutput = some i := by
    intro i mem input tied_to
    obtain ⟨lower, upper, tied⟩ := valid.tied i (valid.mem_outs.mp mem) input tied_to
    exact ⟨valid.mem_ins.mpr ⟨lower, upper⟩,
      fun mem' => absurd (valid.mem_outs.mp mem') (Nat.not_lt.mpr lower), tied⟩
  have flagged_of_dead : ∀ input ∈ constraints.sortedIns,
      isDeadArg deadArgs input = true →
      Flagged deadArgs outs.length (ins.map some) (opArgs outs ins input) := by
    intro input mem is_dead
    obtain ⟨lower, upper⟩ := valid.mem_ins.mp mem
    obtain ⟨k, arg, rfl, found, same⟩ := exists_input lower upper
    exact ⟨k, by simp [found, same], is_dead⟩
  refine allocOutputs_done Kept.nothing inv₃ ⟨fun i mem => ?_,
    valid.outs_perm.nodup_iff.mpr nodup_range, fun i mem j mem' same => ?_, fun _ => id,
    fun i mem input tied_to => ?_, fun i mem j mem' input input' reg tied_to tied_to' => ?_,
    valid.tied_first⟩ run host₃
  · exact opArgs_mem (valid.mem_outs.mp mem)
  · rw [opArgs_out (getElem?_eq_getElem (valid.mem_outs.mp mem)),
      opArgs_out (getElem?_eq_getElem (valid.mem_outs.mp mem'))] at same
    exact nodup.getElem_inj_iff.mp same
  · obtain ⟨mem_ins, not_out, tied⟩ := input_of_tied i mem input tied_to
    exact ⟨not_out, done.tiedReg (done.steps.inv inv) mem_ins tied
      (flagged_of_dead input mem_ins) still_free freed⟩
  · intro same same' unfixed
    obtain ⟨mem_ins, -, tied⟩ := input_of_tied i mem input tied_to
    obtain ⟨mem_ins', -, tied'⟩ := input_of_tied j mem' input' tied_to'
    have once' : opArgs outs ins input = opArgs outs ins input' →
        isDeadArg deadArgs input = true → isDeadArg deadArgs input' = true → input = input' := by
      intro same_arg is_dead is_dead'
      obtain ⟨lower, upper⟩ := valid.mem_ins.mp mem_ins
      obtain ⟨k, arg, rfl, found, arg_eq⟩ := exists_input lower upper
      obtain ⟨lower', upper'⟩ := valid.mem_ins.mp mem_ins'
      obtain ⟨k', arg', rfl, found', arg_eq'⟩ := exists_input lower' upper'
      rw [arg_eq, arg_eq'] at same_arg
      subst same_arg
      rw [once k k' arg (by simp [found]) (by simp [found']) is_dead is_dead']
    have equal := done.tied_distinct mem_ins mem_ins' once' (by simp [tied]) (by simp [tied'])
      same same' unfixed
    subst equal
    exact Option.some.inj (tied.symm.trans tied')

/-- The registers that the instruction writes. -/
abbrev outputRegs (newArgs : NewArgs) (count : Nat) : List Reg :=
  (List.range count).map fun i => operandReg (newArgs i)

theorem ready_of_outputs (cargs : List TCGArg) (continues : (tcgOpDefs opc).bbEnd = false)
    (free_run : freeDeadInputs deadArgs outs.length (ins.map some) s₁ = (.ok (), s₂))
    (clobber_run : clobberOp target config (tcgOpDefs opc) allocatedRegs s₂ = (.ok (), s₃)) :
    ∃ host₄, Ready layout (.op opc cargs)
        (Forgotten config (tcgOpDefs opc).bbEnd deadArgs outs.length (ins.map some)) outs
        (ins.map some) s host (outputRegs newArgs outs.length)
        ((range' outs.length ins.length).map fun i => some (newArgs i)) s₄ host₄ ∧
      OutputsPlaced layout outs deadArgs newArgs s₄ := by
  have inv₁ := done.steps.inv inv
  obtain ⟨free_steps, keeps, freed, -⟩ :=
    freeDeadInputs_steps ⟨allocatedRegs, fun _ => false⟩ inv₁ free_run host₁
  have inv₂ := free_steps.inv inv₁
  obtain ⟨host₃, saves, prepared⟩ :=
    clobberOp_saves (Flagged deadArgs outs.length (ins.map some)) ⟨allocatedRegs, fun _ => false⟩
      inv₂ ⟨done.grows, fun _ => id⟩ clobber_run host₁
  have inv₃ := saves.steps.inv inv₂
  have to_clobber := free_steps.trans saves.steps
  obtain ⟨host₄, outputs⟩ := outputs_of_inputs inv valid nodup once done run inv₃
    (fun reg free => saves.spilled.free reg ((keeps reg).elim id (·.trans free)))
    (fun reg temp owner flagged unfixed => saves.spilled.free reg (freed reg temp owner flagged unfixed))
    host₃
  have forgotten : ∀ temp, Flagged deadArgs outs.length (ins.map some) temp →
      Forgotten config (tcgOpDefs opc).bbEnd deadArgs outs.length (ins.map some) temp := by
    intro temp flagged
    rwa [Forgotten, continues, if_neg Bool.false_ne_true]
  have before_outputs := (done.steps.forget fun _ => False.elim).trans (to_clobber.forget forgotten)
  have place : ∀ i out, outs[i]? = some out → ∃ reg, newArgs i = .reg reg ∧
      OutputPlace layout s₄ out (isDeadArg deadArgs i) reg := by
    intro i out found
    obtain ⟨bound, -⟩ := List.getElem?_eq_some_iff.mp found
    have placed := outputs.place i (valid.mem_outs.mpr bound)
    rwa [opArgs_out found] at placed
  have at_home : (Action.op opc cargs).access.readsGlobals = true → ∀ temp,
      temp < config.nbGlobals → ¬layout.Fixed temp → (s₃.temps temp).valType = .mem := fun reads =>
    (prepared (by simpa [Action.access, TCGOpDef.access, continues] using reads)).1
  refine ⟨host₄, ⟨?_, ?_, ?_, ?_, ?_, ?_, ?_, ?_⟩, place, ?_⟩
  · exact (before_outputs.forget fun _ => .inl).trans (outputs.steps.forget fun _ => .inr)
  · refine forall₂_carries outs fun i arg found => ?_
    obtain ⟨bound, -⟩ := List.getElem?_eq_some_iff.mp found
    have mem : outs.length + i ∈ constraints.sortedIns :=
      valid.mem_ins.mpr ⟨Nat.le_add_right _ _, Nat.add_lt_add_left bound _⟩
    have not_out : outs.length + i ∉ constraints.sortedOuts := fun mem' =>
      absurd (valid.mem_outs.mp mem') (Nat.not_lt.mpr (Nat.le_add_right _ _))
    have carries := (done.carries _ mem).keep to_clobber.extends_state
      (to_clobber.operand_eq (done.in_set _ mem))
    rw [allocOutputs_others run not_out]
    rw [opArgs_in outs found] at carries
    refine carries.keep outputs.steps.extends_state ?_
    have in_set := done.in_set _ mem
    generalize inArgs (outs.length + i) = operand at in_set
    cases operand with
    | reg reg => exact congrFun outputs.regs reg
    | const value => rfl
    | slot slot => exact in_set.elim
  · intro reads temp global
    have saved := at_home reads temp global
    have carries := carries_home_of_mem global before_outputs inv saved
    refine carries.keep outputs.steps.extends_state ?_
    by_cases fixed : layout.Fixed temp
    · rw [Layout.home, if_pos fixed.2]
      exact congrFun outputs.regs _
    · have flag : ¬(layout.globals temp).fixedReg = true := fun flag => fixed ⟨global, flag⟩
      obtain ⟨allocated, home⟩ := inv₃.home temp global fixed
      rw [Layout.home, if_neg flag, ← home]
      refine outputs.words temp fixed allocated fun reg owner => ?_
      exact absurd (inv₃.temp_of_reg reg temp owner).1 (by simp [saved fixed])
  · intro reads temp global unfixed not_out
    have not_written : ¬∃ i ∈ constraints.sortedOuts, opArgs outs ins i = temp := by
      rintro ⟨i, mem, rfl⟩
      exact not_out (opArgs_mem (valid.mem_outs.mp mem))
    rcases (outputs.others temp not_written).1 with same | moved
    · rw [same, at_home reads temp global unfixed]
    · exact moved
  · intro clobbers reg temp clobbered owner
    rcases outputs.origin reg temp owner with old | ⟨i, mem, same⟩
    · simp [(prepared clobbers).2 reg clobbered] at old
    · exact same ▸ opArgs_mem (valid.mem_outs.mp mem)
  · rw [forall₂_map_right_iff, range_eq_range']
    refine forall₂_range' fun i out found => ?_
    obtain ⟨reg, operand, placed⟩ := place i out found
    rw [Nat.zero_add, operand]
    exact placed.outReg
  · refine Nodup.map_on (fun i mem j mem' same => ?_) nodup_range
    obtain ⟨reg, operand, placed⟩ := place i _ (getElem?_eq_getElem (mem_range.mp mem))
    obtain ⟨reg', operand', placed'⟩ :=
      place j _ (getElem?_eq_getElem (mem_range.mp mem'))
    obtain rfl : reg = reg' := by simpa [operand, operand', operandReg] using same
    by_cases fixed_reg : layout.FixedReg reg
    · obtain ⟨fixed, same_reg⟩ := placed.fixed_of_fixedReg fixed_reg
      obtain ⟨fixed', same_reg'⟩ := placed'.fixed_of_fixedReg fixed_reg
      refine nodup.getElem_inj_iff.mp (layout.fixed_injective _ _ fixed.1 fixed'.1 fixed.2 fixed'.2 ?_)
      rw [← same_reg, same_reg']
    · exact outputs.distinct i (valid.mem_outs.mpr (mem_range.mp mem)) j
        (valid.mem_outs.mpr (mem_range.mp mem')) reg operand operand' fixed_reg
  · intro ends
    simp [Action.access, TCGOpDef.access, continues] at ends
  · intro i out found unfixed is_live
    obtain ⟨bound, -⟩ := List.getElem?_eq_some_iff.mp found
    have newer := outputs.newer i (valid.mem_outs.mpr bound)
    rw [opArgs_out found] at newer
    exact newer unfixed is_live

end

theorem finishes_of_placed (inv : AllocInv layout s) (nodup : outs.Nodup)
    (placed : OutputsPlaced layout outs deadArgs newArgs s)
    (run : moveFixedOutputs (outs.zip (outputRegs newArgs outs.length)) s = (.ok (), s')) :
    Finishes W layout deadArgs outs (outputRegs newArgs outs.length) s s' := by
  intro host
  have reg_at : ∀ {i out reg}, outs[i]? = some out →
      (outputRegs newArgs outs.length)[i]? = some reg →
      newArgs i = .reg reg ∧ OutputPlace layout s out (isDeadArg deadArgs i) reg := by
    intro i out reg found found_reg
    obtain ⟨bound, -⟩ := List.getElem?_eq_some_iff.mp found
    obtain ⟨reg', operand, place⟩ := placed.place i out found
    obtain rfl : reg' = reg := by
      simpa [getElem?_range bound, operand, operandReg] using found_reg
    exact ⟨operand, place⟩
  have place_of_mem : ∀ pair ∈ outs.zip (outputRegs newArgs outs.length),
      ∃ i, outs[i]? = some pair.1 ∧ OutputPlace layout s pair.1 (isDeadArg deadArgs i) pair.2 := by
    intro pair mem
    obtain ⟨i, found⟩ := mem_iff_getElem?.mp mem
    obtain ⟨found_out, found_reg⟩ := getElem?_zip_eq_some.mp found
    exact ⟨i, found_out, (reg_at found_out found_reg).2⟩
  obtain ⟨host', steps, temps, written, others⟩ := moveFixedOutputs_steps inv
    (fun pair mem => show pair.1 ∈ outs from (of_mem_zip mem).1) (by simpa [map_fst_zip] using nodup)
    (fun pair mem fixed_reg => by
      obtain ⟨i, -, place⟩ := place_of_mem pair mem
      exact place.fixed_of_fixedReg fixed_reg) run host
  refine ⟨host', steps, fun i out reg found found_reg is_live => ?_⟩
  obtain ⟨-, place⟩ := reg_at found found_reg
  have mem : (out, reg) ∈ outs.zip (outputRegs newArgs outs.length) :=
    mem_iff_getElem?.mpr ⟨i, getElem?_zip_eq_some.mpr ⟨found, found_reg⟩⟩
  have of_fixed : layout.Fixed out → Placed s' host' out (host.regs reg) := by
    intro fixed
    obtain ⟨here, same_reg⟩ := inv.fixed_reg out fixed
    refine .reg ?_ (.inl ?_) ?_
    · rw [temps, here]
    · rw [temps]
      exact (inv.fixed_iff out).mpr fixed
    · rw [temps, same_reg]
      exact written _ mem fixed
  cases place with
  | direct fixed | moved fixed => exact of_fixed fixed
  | unused _ _ is_dead => simp [is_live] at is_dead
  | placed unfixed unfixed_reg _ owner =>
    obtain ⟨here, same_reg⟩ := inv.temp_of_reg reg out owner
    refine .reg ?_ (.inr ?_) ?_
    · rw [temps, here]
    · rw [temps]
      exact placed.newer i out found unfixed is_live
    · rw [temps, same_reg]
      refine others reg fun pair _ fixed same => unfixed_reg ⟨pair.1, fixed, same.symm⟩

/-- `tcg_reg_alloc_op` emits the instruction with its operands in place. -/
theorem tcgRegAllocOp_ready (inv : AllocInv layout s) (backed : Backed needed s)
    (covered : ∀ arg ∈ ins, Covered config needed arg)
    (arity : (tcgOpDefs opc).nbOargs = outs.length)
    (valid : (target.constraints opc).Valid outs.length ins.length) (nodup : outs.Nodup)
    (once : FlaggedOnce deadArgs outs.length (ins.map some))
    (run : tcgRegAllocOp target config opc outs ins cargs deadArgs s = (.ok (), s')) :
    Instructs W layout (.op opc cargs)
      (Forgotten config (tcgOpDefs opc).bbEnd deadArgs outs.length (ins.map some)) outs
      (ins.map some) deadArgs s s' := by
  obtain ⟨⟨allocatedRegs, inArgs⟩, s₁, inputs_run, rest⟩ := bind_eq_ok.mp run
  obtain ⟨newArgs, s₄, outputs_run, rest⟩ := bind_eq_ok.mp rest
  obtain ⟨_, emitted, emit_run, move_run⟩ := bind_eq_ok.mp rest
  obtain rfl := (Prod.mk.inj emit_run).2
  have inputs_done : ∀ host : Host W, ∃ host₁, InputsDone layout (fun _ => False) (fun _ => false)
      (opArgs outs ins) (target.constraints opc) deadArgs (target.constraints opc).sortedIns
      target.reservedRegs s host allocatedRegs inArgs s₁ host₁ := by
    intro host
    refine allocInputs_done (fun _ => False) (fun _ => false) inv backed (fun _ _ => id)
      (fun i mem => ?_) (fun i mem => valid.tied_in_reg i)
      (valid.ins_perm.nodup_iff.mpr nodup_range') (fun _ => id) inputs_run host
    obtain ⟨lower, upper⟩ := valid.mem_ins.mp mem
    obtain ⟨k, arg, -, found, same⟩ := exists_input lower upper
    have covers := covered arg (mem_of_getElem? found)
    rwa [show (outs ++ ins).getD i 0 = arg from same]
  unfold allocOpOutputs at outputs_run
  split at outputs_run
  · next ends =>
    obtain rfl : outs = [] := eq_nil_of_length_eq_zero (arity ▸ (bbEnd_no_outs ends).1)
    obtain ⟨_, blocked, block_run, finished⟩ := bind_eq_ok.mp outputs_run
    obtain ⟨rfl, rfl⟩ := ok_inj finished
    obtain ⟨-, rfl⟩ := ok_inj move_run
    refine ⟨_, _, _, fun host => ?_, fun host => ⟨host, .refl _ host, nofun⟩⟩
    obtain ⟨host₁, done⟩ := inputs_done host
    exact ready_of_bbEnd ends inv valid done block_run
  · next continues =>
    have continues : (tcgOpDefs opc).bbEnd = false := by simpa using continues
    obtain ⟨_, s₂, free_run, rest⟩ := bind_eq_ok.mp outputs_run
    obtain ⟨_, s₃, clobber_run, alloc_run⟩ := bind_eq_ok.mp rest
    refine ⟨outputRegs newArgs outs.length,
      (range' outs.length ins.length).map fun i => some (newArgs i), s₄,
      fun host => ?_, fun host => ?_⟩
    all_goals
      obtain ⟨host₁, done⟩ := inputs_done host
      obtain ⟨host₄, ready, placed⟩ := ready_of_outputs inv valid nodup once done alloc_run
        cargs continues free_run clobber_run
    · exact ⟨host₄, ready⟩
    · have inv₄ := (ready.steps.inv inv).emit
      exact finishes_of_placed (inv₄ _) nodup ⟨fun i out found => by
        obtain ⟨reg, operand, place⟩ := placed.place i out found
        exact ⟨reg, operand, place.keep fun _ => rfl⟩, placed.newer⟩ move_run host

end

end Qemu.Tcg
