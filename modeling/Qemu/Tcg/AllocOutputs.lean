import Qemu.Tcg.AllocInputs

/-!
# Outputs of an op

After the inputs are placed, dead inputs give up their registers, a possible helper call is
prepared and every output gets a register of its own: the register of the input it is tied to, its
fixed register, or a free one.
-/

namespace Qemu.Tcg

open TCGContext Prog Function List

variable {W : Type} {target : Target} {config : TCGTemps} {layout : Layout target config}
variable {deadArgs : DeadArgs} {allocatedRegs : TCGRegSet} {reg : Reg} {temp : TCGArg}
variable {out : TCGArg}
  {dead : TCGArg → Prop} {kept : Kept} {s s' s'' : TCGContext} {host host' host'' : Host W}

/-! ## Forgetting variables -/

/-- A variable that is forgotten gives up its register. -/
theorem regToTemp_markDead (inv : AllocInv layout s) (unfixed : ¬layout.Fixed temp) (reg : Reg) :
    (s.markDead temp).regToTemp reg =
      if s.regToTemp reg = some temp then none else s.regToTemp reg := by
  unfold markDead releaseReg
  split
  · next here =>
    have owner := (inv.reg_of_temp temp here unfixed).1
    by_cases same : reg = (s.temps temp).reg
    · simp [setValType, setTemp, setReg, same, owner]
    · rw [if_neg fun own => same (inv.temp_of_reg reg temp own).2.symm]
      exact update_of_ne same _ _
  · next outside => rw [if_neg fun own => outside (inv.temp_of_reg reg temp own).1]; rfl

theorem valType_markDead (temp : TCGArg) : ((s.markDead temp).temps temp).valType = .dead := by
  unfold markDead releaseReg
  split <;> simp [setValType, setTemp]

theorem temps_markDead_of_ne {temp other : TCGArg} (ne : other ≠ temp) :
    (s.markDead temp).temps other = s.temps other := by
  unfold markDead releaseReg
  split <;> simp only [setValType, setTemp, setReg, update_of_ne ne]

theorem record_markDead (temp : TCGArg) (reg : Reg) (coherent : Bool) :
    (s.markDead temp).record temp reg coherent = (s.releaseReg temp).record temp reg coherent := by
  unfold markDead releaseReg
  split <;> simp [setValType, setTemp, setReg, record, update_idem]

/-- Some input of the op is the variable and is marked dead. -/
def Flagged (deadArgs : DeadArgs) (start : Nat) (ins : List (Option TCGArg)) (temp : TCGArg) :
    Prop :=
  ∃ index, ins[index]? = some (some temp) ∧ isDeadArg deadArgs (start + index) = true

theorem Flagged.cons {start : Nat} {ins : List (Option TCGArg)} {first : Option TCGArg}
    (flagged : Flagged deadArgs (start + 1) ins temp) :
    Flagged deadArgs start (first :: ins) temp := by
  obtain ⟨index, found, marked⟩ := flagged
  exact ⟨index + 1, by simpa using found, by rwa [Nat.add_assoc, Nat.add_comm 1] at marked⟩

theorem freeDeadInputs_steps {start : Nat} {ins : List (Option TCGArg)} (kept : Kept)
    (inv : AllocInv layout s) (run : freeDeadInputs deadArgs start ins s = (.ok (), s'))
    (host : Host W) :
    AllocSteps layout (Flagged deadArgs start ins) kept s host s' host ∧
      (∀ reg, s'.regToTemp reg = none ∨ s'.regToTemp reg = s.regToTemp reg) ∧
      (∀ reg temp, s.regToTemp reg = some temp → Flagged deadArgs start ins temp →
        ¬layout.Fixed temp → s'.regToTemp reg = none) ∧
      ∀ temp, ¬Flagged deadArgs start ins temp → s'.temps temp = s.temps temp := by
  induction ins generalizing s start with
  | nil =>
    obtain ⟨-, rfl⟩ := ok_inj run
    refine ⟨.refl s host, fun _ => .inr rfl, ?_, fun _ _ => rfl⟩
    rintro reg temp _ ⟨index, found, -⟩
    simp at found
  | cons arg rest ih =>
    obtain ⟨middle, steps, keeps, frees, others, remaining⟩ : ∃ middle,
        AllocSteps layout (Flagged deadArgs start (arg :: rest)) kept s host middle host ∧
        (∀ reg, middle.regToTemp reg = none ∨ middle.regToTemp reg = s.regToTemp reg) ∧
        (∀ reg temp, arg = some temp → s.regToTemp reg = some temp →
          isDeadArg deadArgs start = true → ¬layout.Fixed temp → middle.regToTemp reg = none) ∧
        (∀ temp, ¬Flagged deadArgs start (arg :: rest) temp → middle.temps temp = s.temps temp) ∧
        freeDeadInputs deadArgs (start + 1) rest middle = (.ok (), s') := by
      cases arg with
      | none =>
        exact ⟨s, .refl _ host, fun _ => .inr rfl, nofun, fun _ _ => rfl, run⟩
      | some arg =>
        obtain ⟨_, middle, first, remaining⟩ := bind_eq_ok.mp run
        have same := (Prod.mk.inj first).2
        simp only at same
        split at same
        · next dying =>
          obtain ⟨is_dead, not_fixed⟩ := Bool.and_eq_true_iff.mp dying
          have unfixed : ¬layout.Fixed arg := inv.not_fixed (by simpa using not_fixed)
          have flagged : Flagged deadArgs start (some arg :: rest) arg := ⟨0, rfl, is_dead⟩
          subst same
          refine ⟨_, .single (.drop flagged unfixed), fun reg => ?_, fun reg temp same owner _ _ => ?_,
            fun temp not_flagged => ?_, remaining⟩
          · rw [regToTemp_markDead inv unfixed]
            split
            · exact .inl rfl
            · exact .inr rfl
          · obtain rfl := Option.some.inj same
            rw [regToTemp_markDead inv unfixed, if_pos owner]
          · refine temps_markDead_of_ne ?_
            rintro rfl
            exact not_flagged flagged
        · next staying =>
          subst same
          refine ⟨_, .refl _ host, fun _ => .inr rfl, ?_, fun _ _ => rfl, remaining⟩
          rintro reg _ ⟨⟩ _ is_dead unfixed
          simp [is_dead, inv.fixedReg_eq_false unfixed] at staying
    obtain ⟨steps', keeps', freed', others'⟩ := ih (steps.inv inv) remaining
    have gone : ∀ reg, middle.regToTemp reg = none → s'.regToTemp reg = none := fun reg gone =>
      (keeps' reg).elim id (·.trans gone)
    refine ⟨steps.trans (steps'.mono (fun _ => Flagged.cons) (fun _ => id) fun _ => id),
      fun reg => ?_, ?_, fun temp not_flagged =>
      (others' temp fun flagged => not_flagged flagged.cons).trans (others temp not_flagged)⟩
    · exact (keeps reg).elim (fun free => .inl (gone reg free)) fun same => same ▸ keeps' reg
    rintro reg temp owner ⟨index, found, marked⟩ unfixed
    cases index with
    | zero =>
      exact gone reg (frees reg temp (by simpa using found) owner (by simpa using marked) unfixed)
    | succ index =>
      rcases keeps reg with free | same
      · exact gone reg free
      · refine freed' reg temp (same.trans owner) ⟨index, by simpa using found, ?_⟩ unfixed
        rwa [Nat.add_assoc, Nat.add_comm 1]

/-! ## Preparing for a helper -/

/-- Globals are at their canonical location. -/
def GlobalsSaved (layout : Layout target config) (s : TCGContext) : Prop :=
  ∀ temp, temp < config.nbGlobals → ¬layout.Fixed temp → (s.temps temp).valType = .mem

variable (dead kept)

theorem clobberOp_saves {opDef : TCGOpDef} (inv : AllocInv layout s)
    (guards : Guards target kept allocatedRegs)
    (run : clobberOp target config opDef allocatedRegs s = (.ok (), s')) (host : Host W) :
    ∃ host', Saves layout dead kept s host s' host' ∧
      (opDef.callClobber = true → GlobalsSaved layout s' ∧
        ∀ reg, target.callClobberRegs reg = true → s'.regToTemp reg = none) := by
  unfold clobberOp at run
  split at run
  · obtain ⟨_, middle, clobbered, saved⟩ := bind_eq_ok.mp run
    obtain ⟨host₁, stores, free⟩ := clobberRegs_free dead kept inv clobbered host
    obtain ⟨host₂, saves, globals⟩ := saveGlobals_saves dead kept (stores.steps.inv inv) guards
      saved host₁
    exact ⟨host₂, stores.saves.trans saves, fun _ => ⟨globals, fun reg clobbers =>
      saves.spilled.free reg (free reg clobbers)⟩⟩
  · next spared =>
    obtain ⟨-, rfl⟩ := ok_inj run
    exact ⟨host, Saves.refl s host, fun clobbers => absurd clobbers spared⟩

/-! ## Registers for outputs -/

variable {dead kept}

/-- The register chosen for an output. -/
inductive OutputPlace (layout : Layout target config) (s : TCGContext) (out : TCGArg)
    (isDead : Bool) : Reg → Prop where
  | direct (fixed : layout.Fixed out) :
      OutputPlace layout s out isDead (layout.globals out).reg
  | moved {reg : Reg} (fixed : layout.Fixed out) (unfixed_reg : ¬layout.FixedReg reg)
      (free : s.regToTemp reg = none) : OutputPlace layout s out isDead reg
  | unused {reg : Reg} (unfixed : ¬layout.Fixed out) (unfixed_reg : ¬layout.FixedReg reg)
      (is_dead : isDead = true) (free : s.regToTemp reg = none) :
      OutputPlace layout s out isDead reg
  | placed {reg : Reg} (unfixed : ¬layout.Fixed out) (unfixed_reg : ¬layout.FixedReg reg)
      (is_live : isDead = false) (owner : s.regToTemp reg = some out) :
      OutputPlace layout s out isDead reg

theorem OutputPlace.keep {isDead : Bool} (place : OutputPlace layout s out isDead reg)
    (same : ¬layout.FixedReg reg → s'.regToTemp reg = s.regToTemp reg) :
    OutputPlace layout s' out isDead reg := by
  cases place with
  | direct fixed => exact .direct fixed
  | moved fixed unfixed_reg free => exact .moved fixed unfixed_reg ((same unfixed_reg).trans free)
  | unused unfixed unfixed_reg is_dead free =>
    exact .unused unfixed unfixed_reg is_dead ((same unfixed_reg).trans free)
  | placed unfixed unfixed_reg is_live owner =>
    exact .placed unfixed unfixed_reg is_live ((same unfixed_reg).trans owner)

theorem recordOutput_place (isDead : Bool) (inv : AllocInv layout s) (kept : Kept)
    (unneeded : dead out) (free : s.regToTemp reg = none)
    (unreserved : target.reservedRegs reg = false) (host : Host W) :
    AllocSteps layout dead kept s host (recordOutput out reg isDead s) host ∧
      OutputPlace layout (recordOutput out reg isDead s) out isDead reg ∧
      (∀ other, other ≠ reg → s.regToTemp other ≠ some out →
        (recordOutput out reg isDead s).regToTemp other = s.regToTemp other) ∧
      ∀ other temp, (recordOutput out reg isDead s).regToTemp other = some temp →
        s.regToTemp other = some temp ∨ temp = out ∧ other = reg := by
  have unfixed_reg : ¬layout.FixedReg reg := Layout.not_fixedReg unreserved
  unfold recordOutput
  split
  · next fixed =>
    exact ⟨.refl s host, .moved ((inv.fixed_iff out).mp fixed) unfixed_reg free,
      fun _ _ _ => rfl, fun _ _ => .inl⟩
  · next flag =>
    have unfixed : ¬layout.Fixed out := inv.not_fixed (by simpa using flag)
    have dropped : AllocStep layout dead kept s host (s.markDead out) host :=
      .drop unneeded unfixed
    have owners := regToTemp_markDead inv unfixed
    have still_free : (s.markDead out).regToTemp reg = none := by simp [owners, free]
    have origin : ∀ other temp, (s.markDead out).regToTemp other = some temp →
        s.regToTemp other = some temp := by
      intro other temp owner
      rw [owners] at owner
      split at owner
      · cases owner
      · exact owner
    split
    · next is_dead =>
      exact ⟨.single dropped, .unused unfixed unfixed_reg is_dead still_free,
        fun other _ not_owner => (owners other).trans (if_neg not_owner),
        fun other temp owner => .inl (origin other temp owner)⟩
    · next is_live =>
      rw [← record_markDead]
      refine ⟨(AllocSteps.single dropped).tail
        (.bind unneeded (valType_markDead out) still_free unreserved),
        .placed unfixed unfixed_reg (by simpa using is_live) ?_, fun other ne not_owner => ?_,
        fun other temp owner => ?_⟩
      · simp [record, setReg]
      · exact (update_of_ne ne _ _).trans ((owners other).trans (if_neg not_owner))
      · by_cases same : other = reg
        · subst same
          refine .inr ⟨?_, rfl⟩
          simpa [record, setReg, eq_comm] using owner
        · refine .inl (origin other temp ?_)
          exact (update_of_ne same _ _).symm.trans owner

/-- Only the outputs may enter registers; other variables at most move to memory. -/
def OthersKept (isOut : TCGArg → Prop) (s s' : TCGContext) : Prop :=
  ∀ temp, ¬isOut temp → ((s'.temps temp).valType = (s.temps temp).valType ∨
      (s'.temps temp).valType = .mem) ∧
    (s'.temps temp).memCoherent = (s.temps temp).memCoherent

theorem OthersKept.trans {isOut isOut' : TCGArg → Prop} (first : OthersKept isOut s s')
    (second : OthersKept isOut' s' s'') :
    OthersKept (fun temp => isOut temp ∨ isOut' temp) s s'' := by
  intro temp not_out
  obtain ⟨type, coherent⟩ := first temp fun is_out => not_out (.inl is_out)
  obtain ⟨type', coherent'⟩ := second temp fun is_out => not_out (.inr is_out)
  refine ⟨?_, coherent'.trans coherent⟩
  rcases type' with same | moved
  · rwa [same]
  · exact .inr moved

theorem temps_recordOutput_of_ne {out temp : TCGArg} (ne : temp ≠ out) (reg : Reg) (isDead : Bool) : (recordOutput out reg isDead s).temps temp = s.temps temp := by
  unfold recordOutput
  split
  · rfl
  · split
    · exact temps_markDead_of_ne ne
    · rw [← record_markDead]
      exact (update_of_ne ne _ _).trans (temps_markDead_of_ne ne)

theorem memCoherent_recordOutput (reg : Reg) (unfixed : (s.temps out).fixedReg = false) :
    ((recordOutput out reg false s).temps out).memCoherent = false := by
  simp [recordOutput, unfixed, record, setReg, setTemp]

/-- Registers for the outputs with the given indices. -/
structure OutputsDone (layout : Layout target config) (dead : TCGArg → Prop) (kept : Kept)
    (args : Nat → TCGArg) (deadArgs : DeadArgs) (indices : List Nat) (allocatedRegs : TCGRegSet)
    (s : TCGContext) (host : Host W) (newArgs : NewArgs) (s' : TCGContext) (host' : Host W) :
    Prop where
  steps : AllocSteps layout dead kept s host s' host'
  regs : host'.regs = host.regs
  owners : ∀ reg, allocatedRegs reg = true → (∀ i ∈ indices, s.regToTemp reg ≠ some (args i)) →
    s'.regToTemp reg = s.regToTemp reg
  place : ∀ i ∈ indices, ∃ reg, newArgs i = .reg reg ∧
    OutputPlace layout s' (args i) (isDeadArg deadArgs i) reg
  unused : ∀ i ∈ indices, ∀ reg, newArgs i = .reg reg → ¬layout.FixedReg reg →
    allocatedRegs reg = false
  distinct : ∀ i ∈ indices, ∀ j ∈ indices, ∀ reg, newArgs i = .reg reg → newArgs j = .reg reg →
    ¬layout.FixedReg reg → i = j
  others : OthersKept (fun temp => ∃ i ∈ indices, args i = temp) s s'
  newer : ∀ i ∈ indices, ¬layout.Fixed (args i) → isDeadArg deadArgs i = false →
    (s'.temps (args i)).memCoherent = false
  /-- Only outputs enter registers. -/
  origin : ∀ reg temp, s'.regToTemp reg = some temp →
    s.regToTemp reg = some temp ∨ ∃ i ∈ indices, args i = temp
  /-- Words of variables that are in no register that may be freed are not written. -/
  words : ∀ temp, ¬layout.Fixed temp → (s.temps temp).memAllocated = true →
    (∀ reg, s.regToTemp reg = some temp → allocatedRegs reg = true) →
    host'.mem (s.temps temp).slot = host.mem (s.temps temp).slot

/-- The register of the input that an output is tied to can be taken over. -/
def TiedReg (layout : Layout target config) (s : TCGContext) (allocatedRegs : TCGRegSet)
    (out : TCGArg) (operand : Operand) : Prop :=
  ∃ reg, operand = .reg reg ∧
    (s.regToTemp reg = none ∧ target.reservedRegs reg = false ∧ allocatedRegs reg = false ∨
      layout.Fixed out ∧ reg = (layout.globals out).reg)

section

variable (kept) {allocatedRegs : TCGRegSet} {newArgs newArgs' : NewArgs}
  (reserved : ∀ reg, target.reservedRegs reg = true → allocatedRegs reg = true)

include reserved

/-- An output goes to its fixed register, or to a register that is free after some are stored. -/
theorem outputReg_cases (dead : TCGArg → Prop) {ct : TCGArgConstraint} {chosen : Bool}
    (inv : AllocInv layout s)
    (tied : ∀ input, ct.aliasInput = some input → TiedReg layout s allocatedRegs out (newArgs input))
    (run : outputReg target out ct newArgs allocatedRegs s = (.ok (reg, chosen), s'))
    (host : Host W) :
    (s' = s ∧ layout.Fixed out ∧ reg = (layout.globals out).reg) ∨
      chosen = true ∧ allocatedRegs reg = false ∧ target.reservedRegs reg = false ∧
        s'.regToTemp reg = none ∧
        (∀ other, other ≠ reg → s'.regToTemp other = s.regToTemp other) ∧
        ∃ host', Stores layout dead kept s host s' host' := by
  simp only [outputReg, get_bind] at run
  cases alias_input : ct.aliasInput with
  | some input =>
    simp only [alias_input] at run
    obtain ⟨same, rfl⟩ := ok_inj run
    obtain ⟨reg_eq, rfl⟩ := Prod.mk.inj same
    obtain ⟨tied_reg, operand, kind⟩ := tied input alias_input
    obtain rfl : tied_reg = reg := by simpa [operand, operandReg] using reg_eq
    rcases kind with ⟨free, unreserved, unused⟩ | ⟨fixed, rfl⟩
    · exact .inr ⟨rfl, unused, unreserved, free, fun _ _ => rfl, host, .refl s host⟩
    · exact .inl ⟨rfl, fixed, rfl⟩
  | none =>
    simp only [alias_input] at run
    split at run
    · next own =>
      obtain ⟨same, rfl⟩ := ok_inj run
      obtain ⟨rfl, rfl⟩ := Prod.mk.inj same
      have fixed := (inv.fixed_iff out).mp own.1
      exact .inl ⟨rfl, fixed, (inv.fixed_reg out fixed).2⟩
    · obtain ⟨fresh, middle, allocated, finished⟩ := bind_eq_ok.mp run
      obtain ⟨same, rfl⟩ := ok_inj finished
      obtain ⟨rfl, rfl⟩ := Prod.mk.inj same
      obtain ⟨host₁, stores, free, others, -, unused, unreserved⟩ :=
        tcgRegAlloc_stores dead kept inv reserved allocated host
      exact .inr ⟨rfl, unused, unreserved, free, others, host₁, stores⟩

theorem outputReg_place {ct : TCGArgConstraint} {isDead : Bool} {chosen : Bool}
    (inv : AllocInv layout s) (unneeded : dead out)
    (tied : ∀ input, ct.aliasInput = some input → TiedReg layout s allocatedRegs out (newArgs input))
    (run : outputReg target out ct newArgs allocatedRegs s = (.ok (reg, chosen), s'))
    (host : Host W) :
    let after := if chosen then recordOutput out reg isDead s' else s'
    ∃ host', AllocSteps layout dead kept s host after host' ∧ host'.regs = host.regs ∧
      OutputPlace layout after out isDead reg ∧
      (¬layout.FixedReg reg → chosen = true ∧ allocatedRegs reg = false) ∧
      (∀ other, allocatedRegs other = true → s.regToTemp other ≠ some out →
        after.regToTemp other = s.regToTemp other) ∧
      (∀ other, other ≠ reg → s.regToTemp other = none → after.regToTemp other = none) ∧
      OthersKept (· = out) s after ∧
      (¬layout.Fixed out → isDead = false → (after.temps out).memCoherent = false) ∧
      (∀ other temp, after.regToTemp other = some temp →
        s.regToTemp other = some temp ∨ temp = out ∧ other = reg ∧ ¬layout.FixedReg reg) ∧
      ∀ temp, ¬layout.Fixed temp → (s.temps temp).memAllocated = true →
        (∀ other, s.regToTemp other = some temp → allocatedRegs other = true) →
        host'.mem (s.temps temp).slot = host.mem (s.temps temp).slot := by
  rcases outputReg_cases kept reserved dead inv tied run host with
    ⟨rfl, fixed, rfl⟩ | ⟨rfl, unused, unreserved, free, others, host₁, stores⟩
  · have unchanged :
        (if chosen then recordOutput out (layout.globals out).reg isDead s' else s') = s' := by
      simp [recordOutput, (inv.fixed_iff out).mpr fixed]
    rw [unchanged]
    exact ⟨host, .refl s' host, rfl, .direct fixed,
      fun unfixed => absurd ⟨out, fixed, rfl⟩ unfixed, fun _ _ _ => rfl, fun _ _ => id,
      fun _ _ => ⟨.inl rfl, rfl⟩, fun unfixed => absurd fixed unfixed, fun _ _ => .inl,
      fun _ _ _ _ => rfl⟩
  · have middle_inv := stores.steps.inv inv
    obtain ⟨steps, place, others', origin⟩ :=
      recordOutput_place isDead middle_inv kept unneeded free unreserved host₁
    have ne : ∀ other, allocatedRegs other = true → other ≠ reg := by
      rintro other mem rfl
      simp [mem] at unused
    refine ⟨host₁, stores.steps.trans steps, stores.regs, place, fun _ => ⟨rfl, unused⟩,
      fun other mem not_owner => ?_, fun other other_ne is_free => ?_, fun temp ne => ?_, ?_,
      fun other temp owner => ?_, fun temp unfixed placed in_use => ?_⟩
    · have same_owner := others other (ne other mem)
      exact (others' other (ne other mem) (by rwa [same_owner])).trans same_owner
    · have same_owner := (others other other_ne).trans is_free
      exact (others' other other_ne (by simp [same_owner])).trans same_owner
    · rw [if_pos rfl, temps_recordOutput_of_ne ne]
      exact ⟨stores.spilled.valType temp, stores.spilled.memCoherent temp⟩
    · rintro unfixed rfl
      exact memCoherent_recordOutput reg (middle_inv.fixedReg_eq_false unfixed)
    · rcases origin other temp owner with old | ⟨rfl, rfl⟩
      · have other_ne : other ≠ reg := by
          rintro rfl
          simp [free] at old
        exact .inl ((others other other_ne).symm.trans old)
      · exact .inr ⟨rfl, rfl, Layout.not_fixedReg unreserved⟩
    · refine stores.words temp unfixed placed fun here => ?_
      have owner := (inv.reg_of_temp temp here unfixed).1
      have same_owner := others _ (ne _ (in_use _ owner))
      exact (middle_inv.temp_of_reg _ temp (same_owner.trans owner)).1

end

section

variable {args : Nat → TCGArg} {constraints : OpConstraints} {indices : List Nat}
  {newArgs newArgs' : NewArgs}

theorem allocOutputs_others
    (run : allocOutputs target args constraints deadArgs indices allocatedRegs newArgs s = (.ok newArgs', s'))
    {i : Nat} (not_mem : i ∉ indices) : newArgs' i = newArgs i := by
  induction indices generalizing s newArgs allocatedRegs with
  | nil => rw [(ok_inj run).1]
  | cons first rest ih =>
    obtain ⟨⟨reg, chosen⟩, middle, -, remaining⟩ := bind_eq_ok.mp run
    rw [ih remaining (not_mem_of_not_mem_cons not_mem)]
    exact update_of_ne (ne_of_not_mem_cons not_mem) _ _

/-- What is asked of the outputs with the given indices: they are different variables, and those
that are tied to an input come first and can take over its register. -/
structure OutputsReady (layout : Layout target config) (dead : TCGArg → Prop) (args : Nat → TCGArg)
    (constraints : OpConstraints) (indices : List Nat) (allocatedRegs : TCGRegSet)
    (newArgs : NewArgs) (s : TCGContext) : Prop where
  unneeded : ∀ i ∈ indices, dead (args i)
  nodup : indices.Nodup
  outs_distinct : ∀ i ∈ indices, ∀ j ∈ indices, args i = args j → i = j
  reserved : ∀ reg, target.reservedRegs reg = true → allocatedRegs reg = true
  tied : ∀ i ∈ indices, ∀ input, (constraints.argsCt i).aliasInput = some input →
    input ∉ indices ∧ TiedReg layout s allocatedRegs (args i) (newArgs input)
  tied_distinct : ∀ i ∈ indices, ∀ j ∈ indices, ∀ input input' reg,
    (constraints.argsCt i).aliasInput = some input →
    (constraints.argsCt j).aliasInput = some input' →
    newArgs input = .reg reg → newArgs input' = .reg reg → ¬layout.FixedReg reg → i = j
  order : indices.Pairwise fun i j => (constraints.argsCt j).aliasInput.isSome = true →
    (constraints.argsCt i).aliasInput.isSome = true

theorem OutputsReady.tail {i : Nat} {rest : List Nat} {chosen : Bool} {allocated' : TCGRegSet}
    (ready : OutputsReady layout dead args constraints (i :: rest) allocatedRegs newArgs s)
    (chose : outputReg target (args i) (constraints.argsCt i) newArgs allocatedRegs s =
      (.ok (reg, chosen), s'))
    (grows : ∀ other, allocatedRegs other = true → allocated' other = true)
    (keeps_free : ∀ other, other ≠ reg → allocatedRegs other = false → allocated' other = false)
    (still_free : ∀ other, other ≠ reg → s.regToTemp other = none → s''.regToTemp other = none) :
    OutputsReady layout dead args constraints rest allocated' (update newArgs i (.reg reg)) s'' := by
  obtain ⟨not_mem, rest_nodup⟩ := nodup_cons.mp ready.nodup
  obtain ⟨first_order, rest_order⟩ := pairwise_cons.mp ready.order
  have same_arg : ∀ j ∈ rest, ∀ input, (constraints.argsCt j).aliasInput = some input →
      update newArgs i (.reg reg) input = newArgs input := fun j mem input tied_to =>
    update_of_ne (ne_of_not_mem_cons (ready.tied j (mem_cons_of_mem _ mem) input tied_to).1) _ _
  refine ⟨fun j mem => ready.unneeded j (mem_cons_of_mem _ mem), rest_nodup,
    fun j mem k mem' => ready.outs_distinct j (mem_cons_of_mem _ mem) k (mem_cons_of_mem _ mem'),
    fun other mem => grows other (ready.reserved other mem), ?_, ?_, rest_order⟩
  · intro j mem input tied_to
    obtain ⟨input_not_mem, tied_reg, operand, kind⟩ :=
      ready.tied j (mem_cons_of_mem _ mem) input tied_to
    refine ⟨not_mem_of_not_mem_cons input_not_mem, tied_reg,
      (same_arg j mem input tied_to).trans operand, ?_⟩
    rcases kind with ⟨free, unreserved, unused⟩ | fixed
    · have ne : tied_reg ≠ reg := by
        rintro rfl
        obtain ⟨first_input, first_tied⟩ := Option.isSome_iff_exists.mp
          (first_order j mem (by simp [tied_to]))
        obtain ⟨-, first_reg, first_operand, -⟩ :=
          ready.tied i mem_cons_self first_input first_tied
        have taken : first_reg = tied_reg := by
          simp only [outputReg, get_bind, first_tied] at chose
          simpa [first_operand, operandReg] using (Prod.mk.inj (ok_inj chose).1).1
        subst taken
        have same := ready.tied_distinct i mem_cons_self j (mem_cons_of_mem _ mem)
          first_input input first_reg first_tied tied_to first_operand operand
          (Layout.not_fixedReg unreserved)
        exact not_mem (same ▸ mem)
      exact .inl ⟨still_free tied_reg ne free, unreserved, keeps_free tied_reg ne unused⟩
    · exact .inr fixed
  · intro j mem k mem' input input' other tied_to tied_to' same same' unfixed
    rw [same_arg j mem input tied_to] at same
    rw [same_arg k mem' input' tied_to'] at same'
    exact ready.tied_distinct j (mem_cons_of_mem _ mem) k (mem_cons_of_mem _ mem') input
      input' other tied_to tied_to' same same' unfixed

theorem allocOutputs_done (kept : Kept) (inv : AllocInv layout s)
    (ready : OutputsReady layout dead args constraints indices allocatedRegs newArgs s)
    (run : allocOutputs target args constraints deadArgs indices allocatedRegs newArgs s = (.ok newArgs', s'))
    (host : Host W) :
    ∃ host', OutputsDone layout dead kept args deadArgs indices allocatedRegs s host newArgs' s'
      host' := by
  induction indices generalizing s newArgs allocatedRegs host with
  | nil =>
    obtain ⟨-, rfl⟩ := Prod.mk.inj run
    exact ⟨host, .refl s host, rfl, fun _ _ _ => rfl, by simp, by simp, by simp,
      fun _ _ => ⟨.inl rfl, rfl⟩, by simp, fun _ _ => .inl, fun _ _ _ _ => rfl⟩
  | cons i rest ih =>
    obtain ⟨⟨reg, chosen⟩, middle, chose, remaining⟩ := bind_eq_ok.mp run
    obtain ⟨_, recorded, noted, remaining⟩ := bind_eq_ok.mp remaining
    obtain rfl := (Prod.mk.inj noted).2
    have not_mem := (nodup_cons.mp ready.nodup).1
    obtain ⟨host₁, steps, regs, place, fresh, owners, still_free, others, newer, origin, words⟩ :=
      outputReg_place kept ready.reserved inv (ready.unneeded i mem_cons_self)
        (fun input tied_to => (ready.tied i mem_cons_self input tied_to).2) chose host
    set after := if chosen then recordOutput (args i) reg (isDeadArg deadArgs i) middle
      else middle
    set allocated' := if chosen then update allocatedRegs reg true else allocatedRegs
    have grows : ∀ other, allocatedRegs other = true → allocated' other = true := by
      intro other mem
      simp only [allocated']
      split
      · by_cases same : other = reg
        · simp [same]
        · rwa [update_of_ne same]
      · exact mem
    have covers : ¬layout.FixedReg reg → allocated' reg = true := by
      intro unfixed
      simp [allocated', (fresh unfixed).1]
    have keeps_free : ∀ other, other ≠ reg → allocatedRegs other = false →
        allocated' other = false := by
      intro other ne unused
      simp only [allocated']
      split
      · rwa [update_of_ne ne]
      · exact unused
    have head_ne : ∀ j ∈ rest, args j ≠ args i := by
      intro j mem same
      have := ready.outs_distinct j (mem_cons_of_mem _ mem) i mem_cons_self same
      exact not_mem (this ▸ mem)
    obtain ⟨host₂, later⟩ := ih (steps.inv inv) (ready.tail chose grows keeps_free still_free)
      remaining host₁
    have head_arg : newArgs' i = .reg reg :=
      (allocOutputs_others remaining not_mem).trans (update_self ..)
    have head_owner : ¬layout.FixedReg reg → s'.regToTemp reg = after.regToTemp reg := by
      intro unfixed
      refine later.owners reg (covers unfixed) fun j mem owner => ?_
      cases place with
      | direct fixed => exact unfixed ⟨args i, fixed, rfl⟩
      | moved _ _ free | unused _ _ _ free => simp [owner] at free
      | placed _ _ _ owner' =>
        rw [owner] at owner'
        exact head_ne j mem (Option.some.inj owner')
    have rest_ne : ∀ j ∈ rest, ∀ other, newArgs' i = .reg other → newArgs' j = .reg other →
        ¬layout.FixedReg other → False := by
      intro j mem other same same' unfixed
      rw [head_arg] at same
      obtain rfl : reg = other := Operand.reg.inj same
      have unused := later.unused j mem reg same' unfixed
      simp [covers unfixed] at unused
    refine ⟨host₂, steps.trans later.steps, later.regs.trans regs, ?_, ?_, ?_, ?_, ?_, ?_, ?_, ?_⟩
    · intro other mem not_owned
      have same := owners other mem (not_owned i mem_cons_self)
      refine (later.owners other (grows other mem) fun j mem' => ?_).trans same
      rw [same]
      exact not_owned j (mem_cons_of_mem _ mem')
    · exact forall_mem_cons.mpr ⟨⟨reg, head_arg, place.keep head_owner⟩, later.place⟩
    · intro j mem other same unfixed
      rcases mem_cons.mp mem with rfl | tail
      · rw [head_arg] at same
        obtain rfl : reg = other := Operand.reg.inj same
        exact (fresh unfixed).2
      · exact eq_false_of_imp (grows other) (later.unused j tail other same unfixed)
    · intro j mem k mem' other same same' unfixed
      rcases mem_cons.mp mem with rfl | tail
      · rcases mem_cons.mp mem' with rfl | tail'
        · rfl
        · exact (rest_ne k tail' other same same' unfixed).elim
      · rcases mem_cons.mp mem' with rfl | tail'
        · exact (rest_ne j tail other same' same unfixed).elim
        · exact later.distinct j tail k tail' other same same' unfixed
    · intro temp not_out
      refine others.trans later.others temp ?_
      rintro (rfl | ⟨j, mem, same⟩)
      · exact not_out ⟨i, mem_cons_self, rfl⟩
      · exact not_out ⟨j, mem_cons_of_mem _ mem, same⟩
    · intro j mem unfixed is_live
      rcases mem_cons.mp mem with rfl | tail
      · refine (later.others (args j) ?_).2.trans (newer unfixed is_live)
        rintro ⟨k, tail, same⟩
        exact head_ne k tail same
      · exact later.newer j tail unfixed is_live
    · intro other temp owner
      rcases later.origin other temp owner with before | ⟨j, mem, same⟩
      · rcases origin other temp before with old | ⟨same, -⟩
        · exact .inl old
        · exact .inr ⟨i, mem_cons_self, same.symm⟩
      · exact .inr ⟨j, mem_cons_of_mem _ mem, same⟩
    · intro temp unfixed placed in_use
      obtain ⟨placed', same_slot⟩ := steps.extends_state temp placed
      have in_use' : ∀ other, after.regToTemp other = some temp → allocated' other = true := by
        intro other owner
        rcases origin other temp owner with old | ⟨-, rfl, unfixed_reg⟩
        · exact grows other (in_use other old)
        · exact covers unfixed_reg
      rw [← same_slot, later.words temp unfixed placed' in_use', same_slot]
      exact words temp unfixed placed in_use

end

end Qemu.Tcg
