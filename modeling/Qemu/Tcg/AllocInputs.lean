import Qemu.Tcg.AllocSpill

/-!
# Inputs of an op

`tcg_reg_alloc_op` brings every input into a register or accepts it as a constant.  The operands
carry the values the variables had before, and an operand register that is tied to an output is
either free or belongs to an input that dies here.
-/

namespace Qemu.Tcg

open TCGContext Prog Function List

variable {W : Type} {target : Target} {config : TCGTemps} {layout : Layout target config}
variable {operand : Operand} {arg : TCGArg} {regs : TCGRegSet}
  {dead : TCGArg → Prop} {kept : Kept} {s s' s'' : TCGContext} {host host' host'' : Host W}

variable {isOutput isDead : Bool} {ct : TCGArgConstraint}

/-- In the second state the operand has the value that the variable has in the first one. -/
def Carries (layout : Layout target config) (dead : TCGArg → Prop) (s : TCGContext) (host : Host W)
    (s' : TCGContext) (host' : Host W) (arg : TCGArg) (operand : Operand) : Prop :=
  ∀ final live values value, AllocInv layout final → Extends s' final →
    (∀ temp, live temp → ¬dead temp) → Matches final live values s host → live arg →
    values arg = some value → host'.operand operand = value

theorem Carries.of_steps {arg : TCGArg} {operand : Operand} (inv : AllocInv layout s)
    (steps : AllocSteps layout dead kept s host s' host')
    (carries : Carries layout dead s' host' s'' host'' arg operand) (extends_state : Extends s' s'') :
    Carries layout dead s host s'' host'' arg operand := by
  intro final live values value final_inv whole needed before is_live has_value
  exact carries final live values value final_inv whole needed
    (steps.matches_of_matches inv final_inv (extends_state.trans whole) needed before)
    is_live has_value

theorem Carries.keep {operand' : Operand} (carries : Carries layout dead s host s' host' arg operand)
    (extends_state : Extends s' s'') (same : host''.operand operand' = host'.operand operand) :
    Carries layout dead s host s'' host'' arg operand' := by
  intro final live values value final_inv whole needed before is_live has_value
  rw [same]
  exact carries final live values value final_inv (extends_state.trans whole) needed before
    is_live has_value

theorem carries_reg (here : (s.temps arg).valType = .reg) :
    Carries layout dead s host s host arg (.reg (s.temps arg).reg) := by
  intro final live values value _ _ _ before is_live has_value
  exact (before arg is_live value has_value).reg here

theorem carries_const (there : (s.temps arg).valType = .const) :
    Carries layout dead s host s host arg (.const (s.temps arg).val) := by
  intro final live values value _ _ _ before is_live has_value
  exact (before arg is_live value has_value).const there

/-- The operand is a constant or a register of the set. -/
def InSet (regs : TCGRegSet) : Operand → Prop
  | .reg reg => regs reg = true
  | .const _ => True
  | .slot _ => False

theorem AllocSteps.operand_eq (steps : AllocSteps layout dead kept s host s' host')
    (in_set : InSet kept.regs operand) : host'.operand operand = host.operand operand := by
  cases operand with
  | reg reg => exact steps.kept_regs in_set
  | const value => rfl
  | slot slot => exact in_set.elim

/-- The registers of the set have the same owner in both states. -/
def SameOwners (regs : TCGRegSet) (s s' : TCGContext) : Prop :=
  ∀ reg, regs reg = true → s'.regToTemp reg = s.regToTemp reg

theorem SameOwners.trans (first : SameOwners regs s s') (second : SameOwners regs s' s'') :
    SameOwners regs s s'' :=
  fun reg mem => (second reg mem).trans (first reg mem)

/-! ## One input -/

section

variable (dead kept) {allocatedRegs : TCGRegSet}
  (guards : Guards target kept allocatedRegs)

include guards

theorem loadInput_steps (inv : AllocInv layout s)
    (placed : (s.temps arg).valType = .mem → (s.temps arg).memAllocated = true)
    (run : loadInput target arg regs allocatedRegs s = (.ok (), s')) (host : Host W) :
    ∃ host', AllocSteps layout dead kept s host s' host' ∧ (s'.temps arg).valType = .reg ∧
      SameOwners allocatedRegs s s' := by
  have ne_of_unused : ∀ {reg other}, allocatedRegs other = false → allocatedRegs reg = true →
      reg ≠ other := by
    rintro reg other unused mem rfl
    simp [mem] at unused
  simp only [loadInput, get_bind] at run
  cases place : (s.temps arg).valType with
  | mem | const =>
    simp only [place] at run
    obtain ⟨reg, middle, allocated, finished⟩ := bind_eq_ok.mp run
    obtain ⟨host₁, stores, free, others, -, unused, unfixed⟩ :=
      tcgRegAlloc_stores dead kept inv guards.reserved allocated host
    obtain rfl := (Prod.mk.inj finished).2
    have there := (stores.stays arg (by simp [place])).trans place
    refine ⟨?_, stores.steps.tail ?load, ?inReg, fun other mem => ?owner⟩
    case load =>
      first
      | exact .load there (stores.steps.extends_state arg (placed place)).1 free unfixed
          (guards.unused unused)
      | exact .loadConst there free unfixed (guards.unused unused)
    case inReg => simp [record, setReg, setTemp]
    case owner =>
      have ne := ne_of_unused unused mem
      exact (update_of_ne ne _ _).trans (others other ne)
  | reg =>
    simp only [place] at run
    obtain ⟨-, rfl⟩ := ok_inj run
    exact ⟨host, .refl s host, place, fun _ _ => rfl⟩
  | dead =>
    simp only [place] at run
    simp at run

end

/-- What is known about the operand of an input.  `tied` says that the constraint ties the input
to an output. -/
inductive InputPlace (layout : Layout target config) (s : TCGContext) (arg : TCGArg)
    (tied isDead isOutput : Bool) : Operand → Prop where
  | const (value : TCGArg) (untied : tied = false) :
      InputPlace layout s arg tied isDead isOutput (.const value)
  | fresh {reg : Reg} (free : s.regToTemp reg = none) (unfixed : ¬layout.FixedReg reg) :
      InputPlace layout s arg tied isDead isOutput (.reg reg)
  | owned {reg : Reg} (owner : s.regToTemp reg = some arg) (unfixed : ¬layout.Fixed arg)
      (given : tied = true → isDead = true) :
      InputPlace layout s arg tied isDead isOutput (.reg reg)
  | fixed (fixed : layout.Fixed arg) (given : tied = true → isOutput = true) :
      InputPlace layout s arg tied isDead isOutput (.reg (layout.globals arg).reg)

theorem InputPlace.keep {tied : Bool} (place : InputPlace layout s arg tied isDead isOutput operand)
    (in_set : InSet regs operand) (same : SameOwners regs s s') :
    InputPlace layout s' arg tied isDead isOutput operand := by
  cases place with
  | const value untied => exact .const value untied
  | fresh free unfixed => exact .fresh ((same _ in_set).trans free) unfixed
  | owned owner unfixed given => exact .owned ((same _ in_set).trans owner) unfixed given
  | fixed fixed given => exact .fixed fixed given

/-- The input needs no copy only if the op may use up its register. -/
theorem inputStays_given {ts : TCGTemp} (stays : inputStays ts ct isDead isOutput = true)
    (tied : ct.aliasOutput.isSome = true) :
    (ts.fixedReg = true → isOutput = true) ∧ (ts.fixedReg = false → isDead = true) := by
  have not_none : ct.aliasOutput.isNone = false := by
    cases output : ct.aliasOutput with
    | none => simp [output] at tied
    | some => rfl
  simp only [inputStays, not_none, Bool.and_eq_true] at stays
  cases fixed : ts.fixedReg with
  | true | false => simpa [fixed] using stays.1

/-- One input of an op is processed. -/
structure InputDone (layout : Layout target config) (dead : TCGArg → Prop) (kept : Kept)
    (allocatedRegs : TCGRegSet) (s : TCGContext) (host : Host W) (s' : TCGContext)
    (host' : Host W) (arg : TCGArg) (tied isDead isOutput : Bool) (operand : Operand) : Prop where
  steps : AllocSteps layout dead kept s host s' host'
  owners : SameOwners allocatedRegs s s'
  place : InputPlace layout s' arg tied isDead isOutput operand
  carries : Carries layout dead s host s' host' arg operand
  /-- A free operand register was not in use before. -/
  unused : ∀ reg, operand = .reg reg → s'.regToTemp reg = none → ¬layout.FixedReg reg →
    allocatedRegs reg = false

section

variable (dead kept) {allocatedRegs : TCGRegSet}
  (guards : Guards target kept allocatedRegs)

include guards

theorem placeInput_done {arg : TCGArg} {reg : Reg} (inv : AllocInv layout s)
    (here : (s.temps arg).valType = .reg)
    (run : placeInput target arg ct isDead isOutput allocatedRegs s = (.ok reg, s'))
    (host : Host W) :
    ∃ host', InputDone layout dead kept allocatedRegs s host s' host' arg ct.aliasOutput.isSome
      isDead isOutput (.reg reg) := by
  simp only [placeInput, get_bind] at run
  split at run
  · next stays =>
    obtain ⟨rfl, rfl⟩ := ok_inj run
    by_cases fixed : layout.Fixed arg
    · have fixed_reg := (inv.fixed_reg arg fixed).2
      refine ⟨host, .refl s host, fun _ _ => rfl, ?_, carries_reg here,
        fun other same free unfixed => ?_⟩
      · rw [fixed_reg]
        exact .fixed fixed fun tied =>
          (inputStays_given stays tied).1 ((inv.fixed_iff arg).mpr fixed)
      · obtain rfl : (s.temps arg).reg = other := Operand.reg.inj same
        exact absurd ⟨arg, fixed, fixed_reg.symm⟩ unfixed
    · have owner := (inv.reg_of_temp arg here fixed).1
      refine ⟨host, .refl s host, fun _ _ => rfl, .owned owner fixed fun tied =>
        (inputStays_given stays tied).2 (inv.fixedReg_eq_false fixed), carries_reg here,
        fun other same free _ => ?_⟩
      obtain rfl : (s.temps arg).reg = other := Operand.reg.inj same
      simp [owner] at free
  · obtain ⟨fresh, middle, allocated, finished⟩ := bind_eq_ok.mp run
    obtain ⟨host₁, stores, free, others, -, unused, unreserved⟩ :=
      tcgRegAlloc_stores dead kept inv guards.reserved allocated host
    have unfixed : ¬layout.FixedReg fresh := Layout.not_fixedReg unreserved
    obtain ⟨rfl, rfl⟩ := ok_inj finished
    have moved : AllocStep layout dead kept middle host₁
        (middle.emit (.mov fresh (middle.temps arg).reg))
        (host₁.move (.mov fresh (middle.temps arg).reg)) :=
      .scratch rfl free unfixed (guards.unused unused)
    refine ⟨_, stores.steps.tail moved, fun other mem => ?_, .fresh free unfixed, ?_,
      fun other same _ _ => Operand.reg.inj same ▸ unused⟩
    · refine others other ?_
      rintro rfl
      simp [mem] at unused
    · intro final live values value _ _ _ before is_live has_value
      have held := (before arg is_live value has_value).reg here
      simp only [Host.operand, Host.move, Host.setReg, update_self]
      rw [stores.regs, stores.spilled.reg, held]

theorem allocInput_done (inv : AllocInv layout s)
    (placed : (s.temps arg).valType = .mem → (s.temps arg).memAllocated = true)
    (tied_in_reg : ct.aliasOutput.isSome = true → ∀ value, ct.constMatch value = false)
    (run : allocInput target arg ct isDead isOutput allocatedRegs s = (.ok operand, s'))
    (host : Host W) :
    ∃ host', InputDone layout dead kept allocatedRegs s host s' host' arg ct.aliasOutput.isSome
      isDead isOutput operand := by
  simp only [allocInput, get_bind] at run
  split at run
  · next accepted =>
    obtain ⟨rfl, rfl⟩ := ok_inj run
    refine ⟨host, .refl s host, fun _ _ => rfl, .const _ ?_, carries_const accepted.1, nofun⟩
    exact eq_false_of_ne_true fun tied => by simp [tied_in_reg tied] at accepted
  · obtain ⟨_, loaded, load_run, rest⟩ := bind_eq_ok.mp run
    obtain ⟨reg, after, place_run, finished⟩ := bind_eq_ok.mp rest
    obtain ⟨rfl, rfl⟩ := ok_inj finished
    obtain ⟨host₁, steps, here, owners⟩ :=
      loadInput_steps dead kept guards inv placed load_run host
    obtain ⟨host₂, done⟩ := placeInput_done dead kept guards (steps.inv inv) here
      place_run host₁
    exact ⟨host₂, steps.trans done.steps, owners.trans done.owners, done.place,
      done.carries.of_steps inv steps done.steps.extends_state, done.unused⟩

end

/-! ## All inputs -/

/-- The argument may be read: it has a word of memory if it is in memory. -/
def Readable (s : TCGContext) (arg : TCGArg) : Prop :=
  (s.temps arg).valType = .mem → (s.temps arg).memAllocated = true

/-- Every variable that may be read, given that the local temporaries in `needed` are backed. -/
theorem readable_of_backed {needed : TCGArg → Prop} (inv : AllocInv layout s)
    (backed : Backed needed s) (covered : Covered config needed arg) : Readable s arg := by
  intro there
  have unfixed : ¬layout.Fixed arg := inv.not_fixed_of_valType (by simp [there])
  rcases Nat.lt_or_ge arg config.nbGlobals with global | not_global
  · exact (inv.home arg global unfixed).1
  · cases is_local : config.tempLocal arg with
    | true => exact (backed arg (covered not_global is_local)).2 there
    | false =>
      refine inv.spilled arg ?_ there
      simp [TCGTemps.survives, is_local, Nat.not_lt.mpr not_global]

/-- Whether the output tied to an input is the same variable. -/
def tiedToSelf (args : Nat → TCGArg) (ct : TCGArgConstraint) (i : Nat) : Bool :=
  match ct.aliasOutput with
  | some out => decide (args i = args out)
  | none => false

/-- The inputs with the given indices are processed. -/
structure InputsDone (layout : Layout target config) (dead : TCGArg → Prop) (words : Slot → Bool)
    (args : Nat → TCGArg) (constraints : OpConstraints) (deadArgs : DeadArgs) (indices : List Nat)
    (allocatedRegs : TCGRegSet) (s : TCGContext) (host : Host W) (allocatedRegs' : TCGRegSet)
    (newArgs : NewArgs) (s' : TCGContext) (host' : Host W) : Prop where
  steps : AllocSteps layout dead ⟨allocatedRegs, words⟩ s host s' host'
  grows : ∀ reg, allocatedRegs reg = true → allocatedRegs' reg = true
  owners : SameOwners allocatedRegs s s'
  in_set : ∀ i ∈ indices, InSet allocatedRegs' (newArgs i)
  place : ∀ i ∈ indices, InputPlace layout s' (args i)
    (constraints.argsCt i).aliasOutput.isSome (isDeadArg deadArgs i)
    (tiedToSelf args (constraints.argsCt i) i) (newArgs i)
  carries : ∀ i ∈ indices, Carries layout dead s host s' host' (args i) (newArgs i)
  unused : ∀ i ∈ indices, ∀ reg, newArgs i = .reg reg → s'.regToTemp reg = none →
    ¬layout.FixedReg reg → allocatedRegs reg = false
  distinct : ∀ i ∈ indices, ∀ j ∈ indices, ∀ reg, newArgs i = .reg reg → newArgs j = .reg reg →
    s'.regToTemp reg = none → ¬layout.FixedReg reg → i = j

theorem addOperand_grows (operand : Operand) {reg : Reg} (mem : regs reg = true) :
    addOperand regs operand reg = true := by
  cases operand with
  | reg other =>
    by_cases same : reg = other
    · simp [addOperand, same]
    · simp [addOperand, update_of_ne same, mem]
  | const _ | slot _ => exact mem

theorem InSet.mono {regs regs' : TCGRegSet} (in_set : InSet regs operand)
    (grows : ∀ reg, regs reg = true → regs' reg = true) : InSet regs' operand := by
  cases operand with
  | reg reg => exact grows reg in_set
  | const _ => trivial
  | slot _ => exact in_set

variable (dead) (words : Slot → Bool) {args : Nat → TCGArg} {constraints : OpConstraints}
  {deadArgs : DeadArgs} {indices : List Nat} {newArgs newArgs' : NewArgs}
  {allocatedRegs allocatedRegs' : TCGRegSet} {needed : TCGArg → Prop}

theorem allocInputs_others (run : allocInputs target args constraints deadArgs indices allocatedRegs
      newArgs s = (.ok (allocatedRegs', newArgs'), s')) {i : Nat} (not_mem : i ∉ indices) :
    newArgs' i = newArgs i := by
  induction indices generalizing s newArgs allocatedRegs with
  | nil =>
    obtain ⟨same, -⟩ := Prod.mk.inj run
    obtain ⟨-, rfl⟩ := Prod.mk.inj (Outcome.ok.inj same)
    rfl
  | cons first rest ih =>
    obtain ⟨operand, middle, -, remaining⟩ := bind_eq_ok.mp run
    rw [ih remaining (not_mem_of_not_mem_cons not_mem)]
    exact update_of_ne (ne_of_not_mem_cons not_mem) _ _

theorem allocInputs_done (inv : AllocInv layout s) (backed : Backed needed s)
    (kept_alive : ∀ temp, needed temp → ¬dead temp)
    (covered : ∀ i ∈ indices, config.nbGlobals ≤ args i → config.tempLocal (args i) = true →
      needed (args i))
    (tied_in_reg : ∀ i ∈ indices, (constraints.argsCt i).aliasOutput.isSome = true →
      ∀ value, (constraints.argsCt i).constMatch value = false)
    (nodup : indices.Nodup)
    (reserved : ∀ reg, target.reservedRegs reg = true → allocatedRegs reg = true)
    (run : allocInputs target args constraints deadArgs indices allocatedRegs newArgs s =
      (.ok (allocatedRegs', newArgs'), s')) (host : Host W) :
    ∃ host', InputsDone layout dead words args constraints deadArgs indices allocatedRegs s host
      allocatedRegs' newArgs' s' host' := by
  induction indices generalizing s newArgs allocatedRegs host with
  | nil =>
    obtain ⟨same, rfl⟩ := Prod.mk.inj run
    obtain ⟨rfl, rfl⟩ := Prod.mk.inj (Outcome.ok.inj same)
    exact ⟨host, .refl s host, fun _ => id, fun _ _ => rfl, by simp, by simp, by simp, by simp,
      by simp⟩
  | cons i rest ih =>
    obtain ⟨operand, middle, first, remaining⟩ := bind_eq_ok.mp run
    obtain ⟨not_mem, rest_nodup⟩ := nodup_cons.mp nodup
    obtain ⟨host₁, done⟩ := allocInput_done dead ⟨allocatedRegs, words⟩ ⟨reserved, fun _ => id⟩ inv
      (readable_of_backed inv backed (covered i mem_cons_self))
      (tied_in_reg i mem_cons_self) first host
    have middle_inv := done.steps.inv inv
    obtain ⟨host₂, later⟩ := ih middle_inv (done.steps.backed inv kept_alive backed)
      (fun j mem => covered j (mem_cons_of_mem _ mem))
      (fun j mem => tied_in_reg j (mem_cons_of_mem _ mem)) rest_nodup
      (fun reg mem => addOperand_grows operand (reserved reg mem)) remaining host₁
    have head_arg : newArgs' i = operand :=
      (allocInputs_others remaining not_mem).trans (update_self ..)
    have in_now : InSet (addOperand allocatedRegs operand) operand := by
      cases done.place <;> simp [InSet, addOperand]
    have head_in : InSet allocatedRegs' (newArgs' i) := by
      rw [head_arg]
      exact in_now.mono later.grows
    have rest_owners : SameOwners allocatedRegs middle s' :=
      fun reg mem => later.owners reg (addOperand_grows operand mem)
    have later_ext := later.steps.extends_state
    have head_unused : ∀ reg, newArgs' i = .reg reg → s'.regToTemp reg = none →
        ¬layout.FixedReg reg → allocatedRegs reg = false := by
      intro reg same free unfixed
      rw [head_arg] at same
      subst same
      exact done.unused reg rfl ((later.owners reg in_now).symm.trans free) unfixed
    have rest_new : ∀ j ∈ rest, ∀ reg, newArgs' i = .reg reg → newArgs' j = .reg reg →
        s'.regToTemp reg = none → ¬layout.FixedReg reg → False := by
      intro j mem reg same_i same_j free unfixed
      have unused := later.unused j mem reg same_j free unfixed
      rw [head_arg] at same_i
      subst same_i
      simp [addOperand] at unused
    refine ⟨host₂, ?_, fun reg mem => later.grows reg (addOperand_grows operand mem),
      done.owners.trans rest_owners, ?_, ?_, ?_, ?_, ?_⟩
    · exact done.steps.trans (later.steps.mono (fun _ => id)
        (fun reg mem => addOperand_grows operand mem) fun _ => id)
    · exact forall_mem_cons.mpr ⟨head_in, later.in_set⟩
    · refine forall_mem_cons.mpr ⟨?_, later.place⟩
      rw [head_arg]
      exact done.place.keep in_now later.owners
    · intro j mem
      rcases mem_cons.mp mem with rfl | tail
      · rw [head_arg]
        exact done.carries.keep later_ext (later.steps.operand_eq in_now)
      · exact (later.carries j tail).of_steps inv done.steps later_ext
    · intro j mem reg same free unfixed
      rcases mem_cons.mp mem with rfl | tail
      · exact head_unused reg same free unfixed
      · exact eq_false_of_imp (addOperand_grows operand)
          (later.unused j tail reg same free unfixed)
    · intro j mem k mem' reg same_j same_k free unfixed
      rcases mem_cons.mp mem with rfl | tail
      · rcases mem_cons.mp mem' with rfl | tail'
        · rfl
        · exact (rest_new k tail' reg same_j same_k free unfixed).elim
      · rcases mem_cons.mp mem' with rfl | tail'
        · exact (rest_new j tail reg same_k same_j free unfixed).elim
        · exact later.distinct j tail k tail' reg same_j same_k free unfixed

end Qemu.Tcg
