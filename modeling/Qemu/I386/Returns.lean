import Qemu.I386.FarTransfer

/-!
# Far returns

What a completed `RET` or `IRET` has done to the privilege level, the flags and the data segments,
and when the protected flags survive it.
-/

namespace Qemu.I386

open CPUX86State Prog Function

variable {seg : SegReg}

variable {newCs newEflags spMask sp newEip addend : BitVec 32}

section

variable {M : Type} {s : CPUX86State M}

/-- The registers that a return to an outer level checks. -/
def dataSegs : List SegReg := [rES, rDS, rFS, rGS]

/-- The content of a data segment register after the check. -/
def CPUX86State.validated (s : CPUX86State M) (seg : SegReg) (cpl : BitVec 2) : SegmentCache :=
  if validSegment (seg == rFS || seg == rGS) (s.segs seg) cpl then s.segs seg else ⟨0, 0, 0, 0⟩

namespace CPUX86State

section

variable (s : CPUX86State M)

@[simp] theorem validateSeg_cpl (seg : SegReg) (cpl : BitVec 2) :
    (s.validateSeg seg cpl).cpl = s.cpl := by
  unfold validateSeg
  split <;> rfl

@[simp] theorem validateSeg_eflags (seg : SegReg) (cpl : BitVec 2) :
    (s.validateSeg seg cpl).eflags = s.eflags := by
  unfold validateSeg
  split <;> rfl

theorem validateSeg_self (seg : SegReg) (cpl : BitVec 2) :
    (s.validateSeg seg cpl).segs seg = s.validated seg cpl := by
  unfold validateSeg validated
  split
  · rfl
  · exact update_self ..

variable (cpl : BitVec 2)

theorem validateSeg_of_ne {seg other : SegReg} (ne : other ≠ seg) :
    (s.validateSeg seg cpl).segs other = s.segs other := by
  unfold validateSeg
  split
  · rfl
  · exact update_of_ne ne ..

theorem validated_congr {s t : CPUX86State M} (same : t.segs seg = s.segs seg) :
    t.validated seg cpl = s.validated seg cpl := by
  rw [validated, validated, same]

theorem validateSegs_of_not_mem (other : seg ∉ dataSegs) :
    (s.validateSegs cpl).segs seg = s.segs seg := by
  simp only [dataSegs, List.mem_cons, List.not_mem_nil, or_false, not_or] at other
  obtain ⟨es, ds, fs, gs⟩ := other
  rw [validateSegs, validateSeg_of_ne _ cpl gs, validateSeg_of_ne _ cpl fs,
    validateSeg_of_ne _ cpl ds, validateSeg_of_ne _ cpl es]

theorem validateSegs_of_mem (data : seg ∈ dataSegs) :
    (s.validateSegs cpl).segs seg = s.validated seg cpl := by
  have earlier {t : CPUX86State M} {seg other : SegReg} (ne : other ≠ seg) :
      (t.validateSeg seg cpl).validated other cpl = t.validated other cpl :=
    validated_congr cpl (t.validateSeg_of_ne cpl ne)
  simp only [dataSegs, List.mem_cons, List.not_mem_nil, or_false] at data
  rcases data with rfl | rfl | rfl | rfl
  all_goals
    simp (disch := decide) only [validateSegs, validateSeg_of_ne, validateSeg_self, earlier]

@[simp] theorem validateSegs_cpl : (s.validateSegs cpl).cpl = s.cpl := by
  simp [validateSegs]

@[simp] theorem validateSegs_eflags : (s.validateSegs cpl).eflags = s.eflags := by
  simp [validateSegs]

end

end CPUX86State

/-! ## The effect of a return -/

/-- The effect of a return to `newCs` that has completed. -/
structure Returned (s s' : CPUX86State M) (newCs : BitVec 32) : Prop where
  level : ¬ rplOf newCs < s.cpl
  cpl : s'.cpl = rplOf newCs
  cs : (s'.segs rCS).selector = newCs
  data : rplOf newCs ≠ s.cpl → ∀ seg ∈ dataSegs, s'.segs seg = s.validated seg (rplOf newCs)

/-- The flags that a return leaves. -/
def CPUX86State.returnedEflags (s : CPUX86State M) (shift isIret : Bool) (newEflags : BitVec 32) :
    BitVec 32 :=
  if isIret then (s.loadEflags newEflags (s.iretMask shift s.cpl)).eflags else s.eflags

theorem ensures_finishReturn {shift isIret : Bool} {t : CPUX86State M}
    (flags : t.eflags = s.eflags) (returned : Returned s t newCs) :
    Ensures (finishReturn shift isIret s.cpl sp spMask newEip newEflags) t fun _ s' =>
      s'.eflags = s.returnedEflags shift isIret newEflags ∧ Returned s s' newCs := by
  cases isIret
  · exact ensures_pure.mpr ⟨flags, { returned with }⟩
  · refine ensures_modify.mpr ⟨?_, { returned with }⟩
    simp [returnedEflags, loadEflags, CPUX86State.iretMask, iopl, flags]

/-- The effect of a return to virtual-8086 mode that has completed. -/
structure EnteredVm86 (s' : CPUX86State M) (newCs : BitVec 32) : Prop where
  vm : has s'.eflags vmMask = true
  cpl : s'.cpl = 3
  cs : (s'.segs rCS).selector = newCs &&& 0xffff
  data : ∀ seg ∈ dataSegs, (s'.segs seg).flags = 0

theorem enteredVm86 (s : CPUX86State M) {frame : Vm86Frame} (vm : has frame.eflags vmMask = true) :
    EnteredVm86 (s.enterVm86 frame) frame.cs := by
  constructor
  · have loaded : (s.enterVm86 frame).eflags = (s.loadEflags frame.eflags vm86Mask).eflags := rfl
    have masked : vm86Mask.getLsbD 17 = true := by decide
    rw [has_vmMask] at vm
    rw [loaded, has_vmMask]
    simp only [loadEflags, BitVec.getLsbD_or, BitVec.getLsbD_and, vm, masked]
    simp
  · rfl
  · simp (disch := decide) only [enterVm86, loadSegVm,
      setCpl_segs, loadSegCache_segs, update_of_ne,
      update_self, BitVec.and_assoc, BitVec.and_self]
  · intro seg member
    simp only [dataSegs, List.mem_cons, List.not_mem_nil, or_false] at member
    rcases member with rfl | rfl | rfl | rfl
    all_goals
      simp (disch := decide) only [enterVm86, loadSegVm,
        loadSegCache_segs, update_of_ne, update_self]

/-! ## The protected flags -/

/-- The flags that only privileged code may change. -/
structure FlagsKept (s s' : CPUX86State M) : Prop where
  iopl : s'.eflags &&& ioplMask = s.eflags &&& ioplMask
  vm : s'.eflags &&& vmMask = s.eflags &&& vmMask
  interrupt : s.iopl < s.cpl → s'.eflags &&& ifMask = s.eflags &&& ifMask

theorem iretMask_and_iopl : ∀ shift mayIf, iretMask shift false mayIf &&& ioplMask = 0 := by
  decide

theorem iretMask_and_vm : ∀ shift mayIopl mayIf, iretMask shift mayIopl mayIf &&& vmMask = 0 := by
  decide

theorem iretMask_and_if : ∀ shift mayIopl, iretMask shift mayIopl false &&& ifMask = 0 := by
  decide

theorem flagsKept_returnedEflags {s' : CPUX86State M} {shift isIret : Bool} (user : s.cpl ≠ 0)
    (flags : s'.eflags = s.returnedEflags shift isIret newEflags) : FlagsKept s s' := by
  cases isIret with
  | false =>
    have same : s'.eflags = s.eflags := flags
    exact ⟨by rw [same], by rw [same], fun _ => by rw [same]⟩
  | true =>
    constructor
    · rw [flags]
      have masked : s.iretMask shift s.cpl &&& ioplMask = 0 := by
        rw [CPUX86State.iretMask, beq_false_of_ne user]
        exact iretMask_and_iopl _ _
      exact s.loadEflags_and masked (by decide)
    · rw [flags]
      exact s.loadEflags_and (iretMask_and_vm _ _ _) (by decide)
    · intro above
      rw [flags]
      have masked : s.iretMask shift s.cpl &&& ifMask = 0 := by
        have notBelow : s.cpl.ule s.iopl = false := by
          simpa [BitVec.ule, BitVec.lt_def] using above
        rw [CPUX86State.iretMask, notBelow]
        exact iretMask_and_if _ _
      exact s.loadEflags_and masked (by decide)

end

/-! ## The return to a selector -/

section

variable {M : Type} [KernelMemory M] {s : CPUX86State M}

theorem ensures_returnTarget {cpl : BitVec 2} {post : Descriptor → CPUX86State M → Prop}
    (found : ∀ d, ¬ rplOf newCs < cpl → post d s) :
    Ensures (returnTarget newCs cpl) s post := by
  simp only [returnTarget, ensures_bind, ensures_throwIf, ensures_loadSegmentOr,
    ensures_pure, ensures_ite]
  intro _ d _ _ level
  exact ⟨fun _ _ _ => found d level, fun _ _ _ => found d level⟩

theorem ensures_returnStack {newSs : BitVec 32} {rpl : BitVec 2}
    {post : Descriptor → CPUX86State M → Prop} (found : ∀ d, post d s) :
    Ensures (returnStack newSs rpl) s post := by
  simp only [returnStack, ensures_bind, ensures_throwIf, ensures_loadSegmentOr, ensures_pure]
  intro _ _ d _ _ _ _
  exact found d

/-- The state in which a return to an outer level sets the stack pointer. -/
theorem ensures_returnOuter {shift : Bool} {ssp : BitVec 32} {d : Descriptor}
    (level : ¬ rplOf newCs < s.cpl) :
    Ensures (returnOuter shift ssp spMask sp newCs addend d) s fun _ s' =>
      s'.eflags = s.eflags ∧ Returned s s' newCs := by
  simp only [returnOuter, ensures_bind, ensures_pop, ensures_modify, ensures_pure]
  intro newEsp _ newSs _
  refine ensures_returnStack fun ssd => ⟨by simp, level, by simp, ?_, ?_⟩
  · rw [validateSegs_of_not_mem _ _ (by decide), setCpl_segs, loadSegCache_segs, update_self]
    rfl
  · intro _ seg member
    rw [validateSegs_of_mem _ _ member]
    refine validated_congr _ ?_
    have notCs : seg ≠ rCS := fun eq => absurd (eq ▸ member) (by decide)
    have notSs : seg ≠ rSS := fun eq => absurd (eq ▸ member) (by decide)
    simp only [setCpl_segs, loadSegCache_segs, update_of_ne notCs, update_of_ne notSs]

theorem ensures_returnToSelector {shift isIret : Bool} {ssp : BitVec 32} :
    Ensures (returnToSelector shift isIret addend ssp spMask sp newEip newCs newEflags) s
      fun _ s' => s'.eflags = s.returnedEflags shift isIret newEflags ∧ Returned s s' newCs := by
  simp only [returnToSelector, ensures_bind, ensures_get]
  refine ensures_returnTarget fun d level => ensures_ite.mpr ⟨fun same => ?_, fun _ => ?_⟩
  · refine ensures_finishReturn (by simp) ⟨level, ?_, ?_, fun outer => absurd same outer⟩
    · simpa using same.symm
    · simp [Descriptor.cache]
  · rw [ensures_bind]
    refine (ensures_returnOuter level).mono fun stack t outer => ?_
    exact ensures_finishReturn outer.1 outer.2

/-! ## Returns from user code -/

inductive FarReturn where
  | lret (shift : Bool) (addend : BitVec 32)
  | iret (shift : Bool) (nextEip : BitVec 32)

def FarReturn.shift : FarReturn → Bool
  | .lret shift _ => shift
  | .iret shift _ => shift

def FarReturn.isIret : FarReturn → Bool
  | .lret _ _ => false
  | .iret _ _ => true

def FarReturn.run : FarReturn → Exec M Unit
  | .lret shift addend => helperLretProtected shift addend
  | .iret shift nextEip => helperIretProtected shift nextEip

/-- The nested-task flag makes `IRET` a task switch. -/
def FarReturn.switchesTask (s : CPUX86State M) : FarReturn → Bool
  | .lret _ _ => false
  | .iret _ _ => has s.eflags ntMask

/-- A slot of the stack, counted from the top. -/
def CPUX86State.stackSlot (s : CPUX86State M) (shift : Bool) (n : Nat) :
    Except X86Exception (BitVec 32) :=
  s.loadSized shift ((s.segs rSS).base +
    ((s.esp + BitVec.ofNat 32 n * slot shift) &&& getSpMask (s.segs rSS).flags))

/-- A 32-bit `IRET` to flags with the virtual-8086 bit. -/
def FarReturn.ToVm86 (s : CPUX86State M) : FarReturn → Prop
  | .lret _ _ => False
  | .iret shift _ => shift = true ∧ ∃ eflags, s.stackSlot true 2 = .ok eflags ∧
      has eflags vmMask = true

theorem ensures_returnToVm86 {ssp : BitVec 32} (vm : has newEflags vmMask = true) :
    Ensures (returnToVm86 ssp spMask sp newEip newCs newEflags) s fun _ s' =>
      EnteredVm86 s' newCs := by
  simp only [returnToVm86, ensures_bind, ensures_pop, ensures_modify]
  intro newEsp _ newSs _ newEs _ newDs _ newFs _ newGs _
  exact enteredVm86 s vm

theorem FarReturn.toVm86_iff (r : FarReturn) : r.ToVm86 s ↔
    r.shift = true ∧ r.isIret = true ∧ ∃ eflags, s.stackSlot r.shift 2 = .ok eflags ∧
      has eflags vmMask = true := by
  cases r with
  | lret shift addend => simp [ToVm86, isIret]
  | iret shift nextEip =>
    cases shift with
    | false => simp [ToVm86, shift]
    | true => simp [ToVm86, shift, isIret]

/-- Where a return has gone, in terms of the values on the stack. -/
inductive ReturnedFar (s s' : CPUX86State M) (shift isIret : Bool) (cs : BitVec 32) : Prop where
  | toVm86 (long : shift = true) (iret : isIret = true) {eflags : BitVec 32}
      (popped : s.stackSlot shift 2 = .ok eflags) (vm : has eflags vmMask = true)
      (entered : EnteredVm86 s' (cs &&& 0xffff))
  | toSelector (eflags : BitVec 32)
      (popped : isIret = true → s.stackSlot shift 2 = .ok eflags ∧
        ¬ (shift = true ∧ has eflags vmMask = true))
      (flags : s'.eflags = s.returnedEflags shift isIret eflags)
      (returned : Returned s s' (popSelector shift cs))

theorem ensures_helperRetProtected {shift isIret : Bool} :
    Ensures (helperRetProtected shift isIret addend) s fun _ s' =>
      ∃ cs, s.stackSlot shift 1 = .ok cs ∧ ReturnedFar s s' shift isIret cs := by
  simp only [helperRetProtected, ensures_bind, ensures_get, ensures_pop]
  intro newEip _ cs csPopped
  have csSlot : s.stackSlot shift 1 = .ok cs := by
    rw [stackSlot, show BitVec.ofNat 32 1 = 1#32 from rfl, BitVec.one_mul]
    exact csPopped
  refine ensures_ite.mpr ⟨fun iret => ?_, fun notIret => ?_⟩
  · rw [ensures_bind, ensures_pop]
    intro eflags eflagsPopped
    have eflagsSlot : s.stackSlot shift 2 = .ok eflags := by
      rw [stackSlot, BitVec.two_mul, ← BitVec.add_assoc]
      exact eflagsPopped
    refine ensures_ite.mpr ⟨fun toVm86 => ?_, fun toSelector => ?_⟩
    · obtain ⟨long, vm⟩ := Bool.and_eq_true_iff.mp toVm86
      refine (ensures_returnToVm86 vm).mono fun _ s' entered => ⟨cs, csSlot, ?_⟩
      rw [popSelector, if_pos long] at entered
      exact .toVm86 long iret eflagsSlot vm entered
    · refine ensures_returnToSelector.mono fun _ s' result => ⟨cs, csSlot, ?_⟩
      refine .toSelector eflags (fun _ => ⟨eflagsSlot, ?_⟩) ?_ result.2
      · exact fun both => toSelector (Bool.and_eq_true_iff.mpr both)
      · rw [iret]
        exact result.1
  · refine ensures_returnToSelector.mono fun _ s' result => ⟨cs, csSlot, ?_⟩
    refine .toSelector 0 (fun iret => absurd iret notIret) ?_ result.2
    rw [Bool.not_eq_true] at notIret
    rw [notIret]
    exact result.1

theorem ensures_farReturn {r : FarReturn} (noTask : r.switchesTask s = false) :
    Ensures r.run s fun _ s' =>
      ∃ cs, s.stackSlot r.shift 1 = .ok cs ∧ ReturnedFar s s' r.shift r.isIret cs := by
  cases r with
  | lret shift addend => exact ensures_helperRetProtected
  | iret shift nextEip =>
    have clear : ¬ has s.eflags ntMask = true := Bool.eq_false_iff.mp noTask
    simp only [FarReturn.run, helperIretProtected, ensures_bind, ensures_get,
      if_neg clear, ensures_modify]
    refine ensures_helperRetProtected.mono fun _ t result => ?_
    obtain ⟨cs, popped, returned⟩ := result
    refine ⟨cs, popped, ?_⟩
    cases returned with
    | toVm86 long iret eflagsPopped vm entered =>
      exact .toVm86 long iret eflagsPopped vm { entered with }
    | toSelector eflags eflagsPopped flags returned =>
      exact .toSelector eflags eflagsPopped flags { returned with }

/-- A far return of user code keeps the protected flags, unless it is a 32-bit `IRET` to flags with
the virtual-8086 bit. -/
theorem farReturn_keeps_flags_iff {s' : CPUX86State M} (r : FarReturn)
    (vm : has s.eflags vmMask = false) (user : s.cpl ≠ 0) (noTask : r.switchesTask s = false)
    (run : r.run s = (.ok (), s')) : FlagsKept s s' ↔ ¬ r.ToVm86 s := by
  obtain ⟨cs, _, returned⟩ := ensures_farReturn noTask () s' run
  cases returned with
  | toVm86 long iret popped set entered =>
    refine iff_of_false (fun kept => ?_) (not_not.mpr ?_)
    · have changed : has s'.eflags vmMask = has s.eflags vmMask :=
        congrArg (· != 0) kept.vm
      rw [entered.vm, vm] at changed
      cases changed
    · exact r.toVm86_iff.mpr ⟨long, iret, _, popped, set⟩
  | toSelector eflags popped flags _ =>
    refine iff_of_true (flagsKept_returnedEflags user flags) fun toVm86 => ?_
    obtain ⟨long, iret, found, slot, set⟩ := r.toVm86_iff.mp toVm86
    obtain ⟨same, notVm⟩ := popped iret
    rw [slot, Except.ok.injEq] at same
    exact notVm ⟨long, same ▸ set⟩

end

/-! ### Two returns in ring 3 -/

namespace RingThree

def segment (flags : BitVec 32) : SegmentCache := ⟨0x0b, 0, 0xffffffff, flags⟩

/-- Ring 3 with a flat stack at zero, the descriptor table at `0x100` and the task state segment at
`0x200`. -/
def state (mem : LinearMemory) : CPUX86State LinearMemory where
  regs _ := 0
  eip := 0
  eflags := 2
  ccOp := 1
  ccSrc := 0
  ccDst := 0
  df := 1
  hflags := ⟨3, true, true, false, false⟩
  nmiMasked := false
  segs _ := segment 0x00c0f300
  ldt := ⟨0, 0, 0, 0⟩
  tr := ⟨0x28, 0x200, 103, 0x8900⟩
  gdt := ⟨0, 0x100, 0x1f, 0⟩
  idt := ⟨0, 0, 0, 0⟩
  cr0 := 1
  cr3 := 0
  dr7 := 0
  mem

/-- A far return to the same level: an instruction pointer and the selector `0x0b`. -/
def returnFrame : LinearMemory := .ofLongs [(0, 0x40), (4, 0x0b), (0x108, 0xffff), (0x10c, 0xcffb00)]

/-- An interrupt return with the virtual-8086 bit in its flags. -/
def vm86Frame : LinearMemory := .ofLongs [(8, 0x00023202)]

end RingThree

open RingThree in
theorem farReturn_keeps_flags_lret :
    ∃ s', (FarReturn.lret true 0).run (state returnFrame) = (.ok (), s') ∧
      FlagsKept (state returnFrame) s' := by
  obtain ⟨s', run⟩ : ∃ s', (FarReturn.lret true 0).run (state returnFrame) = (.ok (), s') :=
    ⟨_, rfl⟩
  refine ⟨s', run, ?_⟩
  exact (farReturn_keeps_flags_iff (.lret true 0) (by decide) (by decide) rfl run).mpr id

open RingThree in
theorem iret_enters_vm86 :
    has (state vm86Frame).eflags vmMask = false ∧ (state vm86Frame).cpl = 3 ∧
      (state vm86Frame).iopl = 0 ∧ has (state vm86Frame).eflags ntMask = false ∧
      ∃ s', helperIretProtected true 0 (state vm86Frame) = (.ok (), s') ∧
        has s'.eflags vmMask = true ∧ s'.iopl = 3 ∧ has s'.eflags ifMask = true ∧
        ¬ FlagsKept (state vm86Frame) s' := by
  refine ⟨by decide, by decide, by decide, by decide, _, rfl, by decide, by decide, by decide, ?_⟩
  exact fun kept => absurd kept.vm (by decide)

end Qemu.I386
