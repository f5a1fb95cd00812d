import Qemu.I386.Returns

/-!
# Privilege levels of far transfers

Every completed far transfer outside virtual-8086 mode, and the way in which it may change the
privilege level.
-/

namespace Qemu.I386

open BitVec Prog CPUX86State Function List
open BitVec (ofNat lt_irrefl not_lt)

variable {gate : Descriptor} {d ssd : Descriptor}

/-! ## Selectors -/

theorem rplOf_or (high : BitVec 32) (low : BitVec 2) (clear : rplOf high = 0) :
    rplOf (high ||| low.setWidth 32) = low := by
  rw [rplOf, setWidth_or]
  rw [rplOf] at clear
  rw [clear]
  simp

theorem rplOf_and_of_clear (selector mask : BitVec 32) (clear : rplOf mask = 0) :
    rplOf (selector &&& mask) = 0 := by
  rw [rplOf, setWidth_and]
  rw [rplOf] at clear
  rw [clear]
  simp

@[simp] theorem rplOf_withRpl (selector : BitVec 32) (cpl : BitVec 2) :
    rplOf (withRpl selector cpl) = cpl :=
  rplOf_or _ _ (rplOf_and_of_clear _ _ (by decide))

@[simp] theorem rplOf_replaceRpl (selector : BitVec 32) (dpl : BitVec 2) :
    rplOf (replaceRpl selector dpl) = dpl :=
  rplOf_or _ _ (rplOf_and_of_clear _ _ (by decide))

theorem replaceRpl_rplOf (selector : BitVec 32) : replaceRpl selector (rplOf selector) = selector := by
  apply eq_of_getLsbD_eq
  intro i small
  have low : (3 : BitVec 32).getLsbD i = decide (i < 2) := by
    rw [show (3 : BitVec 32) = (allOnes 2).setWidth 32 from rfl, getLsbD_setWidth, getLsbD_allOnes]
    simp [small]
  simp only [replaceRpl, rplOf, getLsbD_or, getLsbD_and, getLsbD_not, getLsbD_setWidth, small, low]
  by_cases below : i < 2 <;> simp [below, small]

theorem rplOf_popSelector (shift : Bool) (val : BitVec 32) :
    rplOf (popSelector shift val) = rplOf val := by
  cases shift with
  | false => rfl
  | true =>
    change (val &&& 0xffff).setWidth 2 = val.setWidth 2
    rw [setWidth_and]
    have ones : (0xffff : BitVec 32).setWidth 2 = allOnes 2 := by decide
    rw [ones, and_allOnes]

theorem setEsp_masked (old val spMask : BitVec 32) :
    ((old &&& ~~~spMask) ||| (val &&& spMask)) &&& spMask = val &&& spMask := by
  apply eq_of_getLsbD_eq
  intro i small
  simp only [getLsbD_or, getLsbD_and, getLsbD_not]
  cases spMask.getLsbD i <;> simp

section

variable {M : Type} [KernelMemory M] {s : CPUX86State M}

/-! ## Transfers -/

/-- A far transfer of control. -/
inductive Transfer where
  | ljmp (newCs newEip nextEipAddend : BitVec 32)
  | lcall (newCs newEip : BitVec 32) (shift : Bool) (nextEipAddend : BitVec 32)
  | ret (r : FarReturn)
  | interrupt (intno : BitVec 32) (isInt : Bool) (errorCode nextEip : BitVec 32) (isHw : Bool)

namespace Transfer

def run : Transfer → Exec M Unit
  | ljmp newCs newEip nextEipAddend => helperLjmpProtected newCs newEip nextEipAddend
  | lcall newCs newEip shift nextEipAddend => helperLcallProtected newCs newEip shift nextEipAddend
  | ret r => r.run
  | interrupt intno isInt errorCode nextEip isHw =>
    doInterruptProtected intno isInt errorCode nextEip isHw

def SwitchesTask (s : CPUX86State M) : Transfer → Prop
  | ljmp newCs _ _ | lcall newCs _ _ _ =>
    ∃ d, s.loadSegment newCs = .ok (some d) ∧ has d.e2 descS = false ∧ d.isTask = true
  | ret r => r.switchesTask s = true
  | interrupt intno _ _ _ _ =>
    ∃ gate, s.descriptorAt (s.idt.base + intno * 8) = .ok gate ∧ gate.type5 = 5

def Through (s : CPUX86State M) (gate : Descriptor) : Transfer → Prop
  | lcall newCs _ _ _ =>
    s.loadSegment newCs = .ok (some gate) ∧ has gate.e2 descS = false ∧ gate.isCallGate = true
  | interrupt intno _ _ _ _ =>
    s.descriptorAt (s.idt.base + intno * 8) = .ok gate ∧ gate.isInterruptGate = true
  | _ => False

/-- The number of stack slots that a transfer through a gate to an inner level uses. -/
def frameSlots (gate : Descriptor) : Transfer → Nat
  | lcall _ _ _ _ => 4 + (gate.e2 &&& 0x1f).toNat
  | interrupt intno isInt _ _ isHw => 5 + (pushesErrorCode intno isInt isHw).toNat
  | _ => 0

def isReturn : Transfer → Bool
  | ret _ => true
  | _ => false

end Transfer

/-- A register caches a data or non-conforming code segment of a more privileged level. -/
structure Exposes (cache : SegmentCache) (cpl : BitVec 2) : Prop where
  segment : has cache.flags descS = true
  nonConforming : ¬ (has cache.flags descCS = true ∧ has cache.flags descC = true)
  inner : cache.flags.extractLsb' 13 2 < cpl

/-- The stack is the one that the task state segment holds for the new level, below a frame of
`bytes` bytes. -/
structure StackFromTss (s s' : CPUX86State M) (bytes : BitVec 32) : Prop where
  loaded : ∃ ss esp, s.tssStack s'.cpl = .ok (ss, esp) ∧ (s'.segs rSS).selector = ss ∧
    s'.esp &&& getSpMask (s'.segs rSS).flags =
      (esp - bytes) &&& getSpMask (s'.segs rSS).flags

/-- What a transfer may do to the privilege level. -/
structure PrivilegeKept (s s' : CPUX86State M) (t : Transfer) : Prop where
  gained : s'.cpl < s.cpl → ∃ gate d, t.Through s gate ∧
    s.loadSegment (gate.e1 >>> 16) = .ok (some d) ∧ d.isCode = true ∧ d.conforming = false ∧
    d.dpl = s'.cpl ∧
    StackFromTss s s' (ofNat 32 (t.frameSlots gate) * slot (is386 gate.e2))
  cs : rplOf (s'.segs rCS).selector = s'.cpl
  data : t.isReturn = true → s.cpl < s'.cpl → ∀ seg ∈ dataSegs, ¬ Exposes (s'.segs seg) s'.cpl

/-- The inputs on which a transfer breaks the rules: a call gate to a conforming segment of an inner
level, a return to virtual-8086 mode with a code segment whose low bits are not 3, and a return to
an outer level with a null selector in `FS` or `GS` over the cache of an inner segment. -/
def Transfer.Leaks (s : CPUX86State M) (t : Transfer) : Prop :=
  match t with
  | .lcall _ _ _ _ => ∃ gate d, t.Through s gate ∧
      s.loadSegment (gate.e1 >>> 16) = .ok (some d) ∧ d.conforming = true ∧ d.dpl < s.cpl
  | .ret r => ∃ cs, s.stackSlot r.shift 1 = .ok cs ∧
      ((r.ToVm86 s ∧ rplOf cs ≠ 3) ∨
        (¬ r.ToVm86 s ∧ s.cpl < rplOf cs ∧ ∃ seg ∈ [rFS, rGS],
          (s.segs seg).selector &&& 0xfffc = 0 ∧ Exposes (s.segs seg) (rplOf cs)))
  | _ => False

/-! ## Jumps and direct calls -/

/-- The privilege level stays and is the one of the code segment selector. -/
structure SameLevel (s s' : CPUX86State M) : Prop where
  cpl : s'.cpl = s.cpl
  cs : rplOf (s'.segs rCS).selector = s.cpl

theorem SameLevel.privilegeKept {s' : CPUX86State M} {t : Transfer} (same : SameLevel s s') :
    PrivilegeKept s s' t := by
  refine ⟨fun gained => ?_, same.cs.trans same.cpl.symm, fun _ outer => ?_⟩
  · rw [same.cpl] at gained
    exact absurd gained (lt_irrefl _)
  · rw [same.cpl] at outer
    exact absurd outer (lt_irrefl _)

omit [KernelMemory M] in
theorem ensures_checkDirect {d : Descriptor} {newCs : BitVec 32} {cpl : BitVec 2}
    {post : Unit → CPUX86State M → Prop} (checked : post () s) :
    Prog.Ensures (checkDirect d newCs cpl) s post := by
  simp only [checkDirect, ensures_bind, ensures_throwIf, ensures_ite]
  exact fun _ => ⟨fun _ _ _ => checked, fun _ _ _ _ => checked⟩

theorem ensures_ljmpGate {newCs : BitVec 32} :
    Ensures (ljmpGate gate newCs s.cpl) s fun _ s' => SameLevel s s' := by
  simp only [ljmpGate, ensures_bind, ensures_throwIf, ensures_loadSegmentOr, ensures_modify]
  intro _ _ d _ _ _ _ _
  refine ⟨rfl, ?_⟩
  simp [Descriptor.cache]

theorem ensures_ljmp {newCs newEip nextEipAddend : BitVec 32}
    (noTask : ¬ (Transfer.ljmp newCs newEip nextEipAddend).SwitchesTask s) :
    Ensures (helperLjmpProtected newCs newEip nextEipAddend) s fun _ s' => SameLevel s s' := by
  simp only [helperLjmpProtected, ensures_bind, ensures_throwIf, ensures_loadSegmentOr, ensures_get]
  intro _ d found
  refine ensures_ite.mpr ⟨fun _ => ?_, fun system => ensures_ite.mpr
    ⟨fun task => ?_, fun _ => ensures_ite.mpr ⟨fun _ => ensures_ljmpGate, fun _ => ?_⟩⟩⟩
  · simp only [ensures_bind, ensures_throwIf, ensures_modify]
    refine ensures_checkDirect fun _ => ⟨rfl, ?_⟩
    simp [Descriptor.cache]
  · exact absurd ⟨d, found, Bool.eq_false_iff.mpr system, task⟩ noTask
  · exact ensures_throw

/-! ## Gates -/

theorem ensures_gateTarget {selector : BitVec 32} {cpl : BitVec 2}
    {post : Descriptor → CPUX86State M → Prop}
    (found : ∀ d, s.loadSegment selector = .ok (some d) → d.isCode = true → ¬ cpl < d.dpl →
      post d s) :
    Ensures (gateTarget selector cpl) s post := by
  simp only [gateTarget, ensures_bind, ensures_throwIf, ensures_loadSegmentOr, ensures_pure]
  intro _ d loaded code level _
  exact found d loaded (by simpa using code) level

theorem ensures_innerStack {dpl : BitVec 2}
    {post : BitVec 32 × BitVec 32 × Descriptor → CPUX86State M → Prop}
    (found : ∀ ss sp ssd, s.tssStack dpl = .ok (ss, sp) → rplOf ss = dpl → post (ss, sp, ssd) s) :
    Ensures (innerStack dpl) s post := by
  have fromTss : ∀ {after : BitVec 32 × BitVec 32 → CPUX86State M → Prop},
      (∀ stack, s.tssStack dpl = .ok stack → after stack s) →
      Ensures (getSsEspFromTss dpl) s after := by
    intro after read
    simp only [getSsEspFromTss, ensures_bind, ensures_get, ensures_ite,
      ensures_throwIf, ensures_inspect]
    exact ⟨fun _ => ensures_abort, fun _ => ⟨fun _ => ensures_abort, fun _ _ => read⟩⟩
  simp only [innerStack, ensures_bind]
  refine fromTss fun stack loaded => ?_
  simp only [ensures_throwIf, ensures_loadSegmentOr, ensures_pure]
  intro _ rpl ssd _ _ _ _
  exact found stack.1 stack.2 ssd loaded (not_not.mp rpl)

theorem ensures_copyParams {shift : Bool} {oldSsp oldSpMask oldEsp ssp spMask : BitVec 32} {n : Nat}
    {sp : BitVec 32} {post : BitVec 32 → CPUX86State M → Prop}
    (copied : ∀ mem, post (sp - ofNat 32 n * slot shift) (s.setMem mem)) :
    Ensures (copyParams shift oldSsp oldSpMask oldEsp ssp spMask n sp) s post := by
  induction n generalizing sp s with
  | zero =>
    rw [copyParams, ensures_pure]
    simpa using copied s.mem
  | succ n ih =>
    simp only [copyParams, ensures_bind, ensures_load]
    refine fun _ _ => ensures_push fun mem => ih fun mem' => ?_
    rw [sub_slots]
    exact copied mem'

/-- The state after a gate to an inner level, with the stack and the code segment loaded. -/
structure InnerLevel (s s' : CPUX86State M) (d : Descriptor) (bytes : BitVec 32) : Prop where
  cpl : s'.cpl = d.dpl
  cs : rplOf (s'.segs rCS).selector = d.dpl
  stack : StackFromTss s s' bytes

theorem InnerLevel.privilegeKept {s' : CPUX86State M} {t : Transfer} {gate d : Descriptor}
    (through : t.Through s gate) (target : s.loadSegment (gate.e1 >>> 16) = .ok (some d))
    (code : d.isCode = true) (nonConforming : d.conforming = false)
    (inner : InnerLevel s s' d (ofNat 32 (t.frameSlots gate) * slot (is386 gate.e2)))
    (notReturn : t.isReturn = false) : PrivilegeKept s s' t where
  gained _ := ⟨gate, d, through, target, code, nonConforming, inner.cpl.symm, inner.stack⟩
  cs := inner.cs.trans inner.cpl.symm
  data ret := absurd ret (by simp [notReturn])

/-- An inner level is entered by loading its stack and its code segment, in whatever order the
registers are set. -/
theorem innerLevel_of_loaded {s' : CPUX86State M} {ss sp bytes : BitVec 32} (old val : BitVec 32)
    (tss : s.tssStack d.dpl = .ok (ss, sp)) (rpl : rplOf ss = d.dpl) (cpl : s'.cpl = d.dpl)
    (code : rplOf (s'.segs rCS).selector = d.dpl)
    (stack : s'.segs rSS = ssd.cache (replaceRpl ss d.dpl))
    (pointer : s'.esp = (old &&& ~~~getSpMask ssd.e2) ||| (val &&& getSpMask ssd.e2))
    (pushed : val = sp - bytes) : InnerLevel s s' d bytes := by
  refine ⟨cpl, code, ⟨ss, sp, ?_, ?_, ?_⟩⟩
  · rw [cpl]
    exact tss
  · rw [stack, ← rpl]
    exact replaceRpl_rplOf ss
  · rw [stack, pointer, pushed]
    exact setEsp_masked ..

theorem innerLevel_entered {ss sp val bytes selector offset : BitVec 32} {isTrap : Bool} (mem : M)
    (tss : s.tssStack d.dpl = .ok (ss, sp)) (rpl : rplOf ss = d.dpl) (pushed : val = sp - bytes) :
    let stacked := (s.setMem mem).loadSegCache rSS (ssd.cache (replaceRpl ss d.dpl))
    InnerLevel s (stacked.enterGate selector offset d val (getSpMask ssd.e2)) d bytes ∧
      InnerLevel s (stacked.enterInterrupt isTrap selector offset d d.dpl val (getSpMask ssd.e2)) d
        bytes := by
  constructor <;>
    exact innerLevel_of_loaded s.esp val tss rpl rfl (rplOf_replaceRpl ..) rfl (setEsp_esp ..) pushed

/-! ### Call gates -/

/-- A call through a gate goes to an inner level with a new stack, or takes the level of the target
as it is. -/
theorem ensures_lcallGate {newCs nextEip : BitVec 32} :
    Ensures (lcallGate gate newCs nextEip) s fun _ s' =>
      ∃ d, s.loadSegment (gate.e1 >>> 16) = .ok (some d) ∧ d.isCode = true ∧ ¬ s.cpl < d.dpl ∧
        s'.cpl = d.dpl ∧ rplOf (s'.segs rCS).selector = d.dpl ∧
        (d.conforming = false ∧ d.dpl < s.cpl → InnerLevel s s' d
          (ofNat 32 (4 + (gate.e2 &&& 0x1f).toNat) * slot (is386 gate.e2))) := by
  simp only [lcallGate, ensures_bind, ensures_get, ensures_throwIf]
  intro _ _
  refine ensures_gateTarget fun d found code level => ensures_ite.mpr
    ⟨fun inner => ?_, fun same => ?_⟩
  · simp only [ensures_bind]
    refine ensures_innerStack fun ss sp ssd tss rpl => ?_
    refine ensures_pushAll fun mem => ensures_copyParams fun mem' => ensures_pushAll fun mem'' => ?_
    rw [ensures_modify]
    refine ⟨d, found, code, level, rfl, rplOf_replaceRpl .., fun _ => ?_⟩
    refine (@innerLevel_entered _ _ _ _ _ _ _ _ _ _ _ false mem'' tss rpl ?_).1
    simp only [length_cons, length_nil, sub_sub, ← add_mul, ← ofNat_add]
    congr 3
    omega
  · simp only [ensures_bind]
    refine ensures_pushAll fun mem => ensures_modify.mpr ⟨d, found, code, level, rfl,
      rplOf_replaceRpl .., fun inner => absurd inner same⟩

theorem ensures_lcall {newCs newEip : BitVec 32} {shift : Bool} {nextEipAddend : BitVec 32}
    (noTask : ¬ (Transfer.lcall newCs newEip shift nextEipAddend).SwitchesTask s) :
    Ensures (helperLcallProtected newCs newEip shift nextEipAddend) s fun _ s' =>
      PrivilegeKept s s' (.lcall newCs newEip shift nextEipAddend) ↔
        ¬ (Transfer.lcall newCs newEip shift nextEipAddend).Leaks s := by
  simp only [helperLcallProtected, ensures_bind, ensures_throwIf, ensures_loadSegmentOr,
    ensures_get]
  intro _ gate found
  have noLeak : has gate.e2 descS = true →
      ¬ (Transfer.lcall newCs newEip shift nextEipAddend).Leaks s := by
    rintro segment ⟨other, d, ⟨loaded, system, _⟩, _⟩
    obtain rfl : gate = other := by simpa [found] using loaded
    cases segment.symm.trans system
  refine ensures_ite.mpr ⟨fun segment => ?_, fun system => ensures_ite.mpr
    ⟨fun task => ?_, fun _ => ensures_ite.mpr ⟨fun isGate => ?_, fun _ => ?_⟩⟩⟩
  · simp only [ensures_bind, ensures_throwIf, ensures_modify]
    refine ensures_checkDirect (ensures_pushAll fun mem _ => iff_of_true
      (SameLevel.privilegeKept ⟨rfl, ?_⟩) (noLeak segment))
    simp [Descriptor.cache, setMem, cpl]
  · exact absurd ⟨gate, found, Bool.eq_false_iff.mpr system, task⟩ noTask
  · refine ensures_lcallGate.mono fun _ s' result => ?_
    obtain ⟨d, target, code, level, cpl, cs, inner⟩ := result
    have through : (Transfer.lcall newCs newEip shift nextEipAddend).Through s gate :=
      ⟨found, Bool.eq_false_iff.mpr system, isGate⟩
    have only : ∀ {gate' d' : Descriptor},
        (Transfer.lcall newCs newEip shift nextEipAddend).Through s gate' →
        s.loadSegment (gate'.e1 >>> 16) = .ok (some d') → d' = d := by
      intro gate' d' through' target'
      obtain rfl : gate' = gate := by simpa [found] using through'.1.symm
      simpa [target] using target'.symm
    by_cases below : d.dpl < s.cpl
    · cases conforming : d.conforming with
      | false =>
        refine iff_of_true ((inner ⟨conforming, below⟩).privilegeKept through target code
          conforming rfl) ?_
        rintro ⟨gate', d', through', target', conforming', _⟩
        rw [only through' target', conforming] at conforming'
        cases conforming'
      | true =>
        refine iff_of_false (fun kept => ?_) (not_not.mpr ⟨gate, d, through, target, conforming,
          below⟩)
        obtain ⟨gate', d', through', target', _, nonConforming, _⟩ :=
          kept.gained (by rw [cpl]; exact below)
        rw [only through' target', conforming] at nonConforming
        cases nonConforming
    · have same : d.dpl = s.cpl :=
        BitVec.le_antisymm (not_lt.mp level) (not_lt.mp below)
      refine iff_of_true (SameLevel.privilegeKept ⟨cpl.trans same, cs.trans same⟩) ?_
      rintro ⟨gate', d', through', target', _, below'⟩
      rw [only through' target'] at below'
      exact below below'
  · exact ensures_throw

/-! ### Interrupt and trap gates -/

theorem ensures_interruptGate {intno : BitVec 32} {isInt : Bool} {oldEip : BitVec 32}
    {errors : List (BitVec 32)} (vm : has s.eflags vmMask = false) :
    Ensures (interruptGate gate intno isInt oldEip errors) s fun _ s' =>
      SameLevel s s' ∨ ∃ d, s.loadSegment (gate.e1 >>> 16) = .ok (some d) ∧ d.isCode = true ∧
        d.conforming = false ∧ InnerLevel s s' d
          (ofNat 32 (5 + errors.length) * slot (is386 gate.e2)) := by
  simp only [interruptGate, ensures_bind, ensures_get, ensures_throwIf, vm]
  intro _ _
  refine ensures_gateTarget fun d found code level => ensures_ite.mpr
    ⟨fun inner => ?_, fun _ => ensures_ite.mpr ⟨fun same => ?_, fun _ => ?_⟩⟩
  · simp only [ensures_bind]
    refine ensures_innerStack fun ss sp ssd tss rpl => ?_
    refine ensures_pushAll fun mem => ?_
    rw [if_neg Bool.false_ne_true]
    simp only [ensures_modify]
    refine Or.inr ⟨d, found, code, inner.1, (innerLevel_entered mem tss rpl ?_).2⟩
    simp only [Bool.false_eq_true, if_false, nil_append, length_append, length_cons,
      length_nil]
    congr 3
    omega
  · simp only [ensures_bind, ensures_throwIf]
    refine fun _ => ensures_pushAll fun mem => ensures_modify.mpr (Or.inl ⟨rfl, ?_⟩)
    exact rplOf_replaceRpl ..
  · exact ensures_throw

theorem ensures_interrupt {intno : BitVec 32} {isInt : Bool} {errorCode nextEip : BitVec 32}
    {isHw : Bool} (vm : has s.eflags vmMask = false)
    (noTask : ¬ (Transfer.interrupt intno isInt errorCode nextEip isHw).SwitchesTask s) :
    Ensures (doInterruptProtected intno isInt errorCode nextEip isHw) s fun _ s' =>
      PrivilegeKept s s' (.interrupt intno isInt errorCode nextEip isHw) := by
  simp only [doInterruptProtected, ensures_bind, ensures_get, ensures_throwIf, ensures_inspect]
  intro _ gate found
  refine ensures_ite.mpr ⟨fun task => absurd ⟨gate, found, task⟩ noTask, fun _ =>
    ensures_ite.mpr ⟨fun isGate => ?_, fun _ => ensures_throw⟩⟩
  refine (ensures_interruptGate vm).mono fun _ s' result => ?_
  rcases result with same | ⟨d, target, code, nonConforming, inner⟩
  · exact same.privilegeKept
  · refine InnerLevel.privilegeKept ⟨found, isGate⟩ target code nonConforming ?_ rfl
    have slots : (if pushesErrorCode intno isInt isHw then [errorCode] else []).length =
        (pushesErrorCode intno isInt isHw).toNat := by
      cases pushesErrorCode intno isInt isHw <;> rfl
    rw [slots] at inner
    exact inner

/-! ## Returns -/

theorem ne_of_inner {inner outer : BitVec 2} (lt : inner < outer) : outer ≠ inner :=
  fun same => lt_irrefl _ (same ▸ lt)

omit [KernelMemory M] in
/-- After the check only a null selector in `FS` or `GS` can hide an inner segment. -/
theorem exposes_validated_iff {seg : SegReg} {cpl : BitVec 2} :
    Exposes (s.validated seg cpl) cpl ↔ (seg = rFS ∨ seg = rGS) ∧
      (s.segs seg).selector &&& 0xfffc = 0 ∧ Exposes (s.segs seg) cpl := by
  have null : ¬ Exposes ⟨0, 0, 0, 0⟩ cpl := fun exposed => absurd exposed.segment (by decide)
  have fsGs : (seg == rFS || seg == rGS) = true ↔ seg = rFS ∨ seg = rGS := by simp
  rw [validated]
  by_cases hidden : ((seg == rFS || seg == rGS) && (s.segs seg).selector &&& 0xfffc == 0) = true
  · rw [validSegment, hidden, Bool.true_or, Bool.true_or, if_pos rfl]
    obtain ⟨isFsGs, selector⟩ := Bool.and_eq_true_iff.mp hidden
    exact ⟨fun exposed => ⟨fsGs.mp isFsGs, beq_iff_eq.mp selector, exposed⟩, fun all => all.2.2⟩
  · refine iff_of_false ?_ fun all => hidden (Bool.and_eq_true_iff.mpr
      ⟨fsGs.mpr all.1, beq_iff_eq.mpr all.2.1⟩)
    split
    · next valid =>
      intro exposed
      rw [validSegment, Bool.eq_false_iff.mpr hidden, Bool.false_or, Bool.or_eq_true,
        Bool.and_eq_true] at valid
      rcases valid with conforming | outer
      · exact exposed.nonConforming conforming
      · have notInner : ¬ (s.segs seg).flags.extractLsb' 13 2 < cpl := by
          simpa [BitVec.ult, BitVec.lt_def] using outer
        exact notInner exposed.inner
    · exact null

theorem ensures_return {r : FarReturn} (noTask : ¬ (Transfer.ret r).SwitchesTask s) :
    Ensures r.run s fun _ s' =>
      PrivilegeKept s s' (.ret r) ↔ ¬ (Transfer.ret r).Leaks s := by
  refine (ensures_farReturn (Bool.eq_false_iff.mpr noTask)).mono fun _ s' result => ?_
  obtain ⟨cs, popped, returned⟩ := result
  have leaks : (Transfer.ret r).Leaks s ↔ (r.ToVm86 s ∧ rplOf cs ≠ 3) ∨
      (¬ r.ToVm86 s ∧ s.cpl < rplOf cs ∧ ∃ seg ∈ [rFS, rGS],
        (s.segs seg).selector &&& 0xfffc = 0 ∧ Exposes (s.segs seg) (rplOf cs)) := by
    constructor
    · rintro ⟨other, found, leak⟩
      obtain rfl : cs = other := by simpa [popped] using found
      exact leak
    · exact fun leak => ⟨cs, popped, leak⟩
  rw [leaks]
  cases returned with
  | toVm86 long iret eflags vm entered =>
    have toVm86 : r.ToVm86 s := r.toVm86_iff.mpr ⟨long, iret, _, eflags, vm⟩
    have rpl : rplOf (s'.segs rCS).selector = rplOf cs := by
      rw [entered.cs]
      exact (rplOf_popSelector true _).trans (rplOf_popSelector true cs)
    constructor
    · rintro kept (⟨_, wrong⟩ | ⟨notVm86, _⟩)
      · exact wrong (rpl.symm.trans (kept.cs.trans entered.cpl))
      · exact notVm86 toVm86
    · intro noLeak
      have three : rplOf cs = 3 := by
        by_contra wrong
        exact noLeak (Or.inl ⟨toVm86, wrong⟩)
      refine ⟨fun gained => ?_, (rpl.trans three).trans entered.cpl.symm, fun _ _ seg member => ?_⟩
      · rw [entered.cpl] at gained
        exact absurd gained (not_lt.mpr (le_def.mpr (by
          simp
          omega)))
      · intro exposed
        have segment := exposed.segment
        rw [entered.data seg member] at segment
        cases segment
  | toSelector eflags eflagsPopped flags returned =>
    have notVm86 : ¬ r.ToVm86 s := by
      intro toVm86
      obtain ⟨long, iret, found, slot, set⟩ := r.toVm86_iff.mp toVm86
      obtain ⟨same, notVm⟩ := eflagsPopped iret
      rw [slot, Except.ok.injEq] at same
      exact notVm ⟨long, same ▸ set⟩
    obtain ⟨level, cpl, selector, data⟩ := returned
    rw [rplOf_popSelector] at level cpl data
    have rpl : rplOf (s'.segs rCS).selector = s'.cpl := by
      rw [selector, cpl, rplOf_popSelector]
    constructor
    · rintro kept (⟨toVm86, _⟩ | ⟨_, outer, seg, member, null, exposed⟩)
      · exact notVm86 toVm86
      · have isData : seg ∈ dataSegs := by
          simp only [mem_cons, not_mem_nil, or_false] at member
          rcases member with rfl | rfl <;> decide
        refine kept.data rfl (by rw [cpl]; exact outer) seg isData ?_
        rw [data (ne_of_inner outer) seg isData, cpl]
        exact exposes_validated_iff.mpr ⟨by simpa using member, null, exposed⟩
    · intro noLeak
      refine ⟨fun gained => absurd (cpl ▸ gained) level, rpl, fun _ outer seg member exposed => ?_⟩
      rw [cpl] at outer
      rw [data (ne_of_inner outer) seg member, cpl] at exposed
      obtain ⟨fsGs, null, hidden⟩ := exposes_validated_iff.mp exposed
      exact noLeak (Or.inr ⟨notVm86, outer, seg, by simpa using fsGs, null, hidden⟩)

/-- Outside virtual-8086 mode a far transfer that is not a task switch gains privilege only through
a gate to non-conforming code, with the stack of the new level, and leaves no inner segment behind,
except on the inputs of `Leaks`. -/
theorem transfer_privilege_iff {s' : CPUX86State M} (t : Transfer)
    (vm : has s.eflags vmMask = false) (noTask : ¬ t.SwitchesTask s)
    (run : t.run s = (.ok (), s')) : PrivilegeKept s s' t ↔ ¬ t.Leaks s := by
  cases t with
  | ljmp newCs newEip nextEipAddend =>
    exact iff_of_true (ensures_ljmp noTask () s' run).privilegeKept id
  | lcall newCs newEip shift nextEipAddend => exact ensures_lcall noTask () s' run
  | ret r => exact ensures_return noTask () s' run
  | interrupt intno isInt errorCode nextEip isHw =>
    exact iff_of_true (ensures_interrupt vm noTask () s' run) id

end

namespace RingThree

/-- A call gate for ring 3 to the selector `0x10`, a code segment of ring 0 with the given flags, a
stack segment of ring 0, and its entry in the task state segment. -/
def gateTables (codeFlags : BitVec 32) : LinearMemory :=
  .ofLongs [(0x108, 0x00100040), (0x10c, 0x0000ec00), (0x110, 0xffff), (0x114, codeFlags),
    (0x118, 0xffff), (0x11c, 0x00cf9200), (0x204, 0x400), (0x208, 0x18)]

/-- A non-conforming code segment. -/
def innerGate : CPUX86State LinearMemory := state (gateTables 0x00cf9a00)

/-- A conforming code segment. -/
def conformingGate : CPUX86State LinearMemory := state (gateTables 0x00cf9e00)

def callGate : Transfer := .lcall 0x0b 0 true 7

theorem callGate_unique {s : CPUX86State LinearMemory}
    (loaded : s.loadSegment 0x0b = .ok (some ⟨0x00100040, 0x0000ec00⟩))
    (found : s.loadSegment 0x0b = .ok (some gate)) : gate = ⟨0x00100040, 0x0000ec00⟩ := by
  rw [loaded] at found
  simpa using found.symm

theorem callGate_noTask {s : CPUX86State LinearMemory}
    (loaded : s.loadSegment 0x0b = .ok (some ⟨0x00100040, 0x0000ec00⟩)) :
    ¬ callGate.SwitchesTask s := by
  rintro ⟨d, found, _, task⟩
  rw [callGate_unique loaded found] at task
  cases task

end RingThree

open RingThree in
theorem transfer_privilege_inner :
    ∃ s', callGate.run innerGate = (.ok (), s') ∧ s'.cpl = 0 ∧
      PrivilegeKept innerGate s' callGate := by
  refine ⟨_, rfl, by decide, ?_⟩
  refine (transfer_privilege_iff callGate (by decide) (callGate_noTask rfl) rfl).mpr ?_
  rintro ⟨gate, d, ⟨found, _⟩, target, conforming, _⟩
  rw [callGate_unique rfl found] at target
  have code : innerGate.loadSegment (0x00100040#32 >>> 16) = .ok (some ⟨0xffff, 0x00cf9a00⟩) := rfl
  obtain rfl : ⟨0xffff, 0x00cf9a00⟩ = d := Option.some.inj (Except.ok.inj (code.symm.trans target))
  cases conforming

open RingThree in
theorem call_gate_to_conforming_code :
    conformingGate.cpl = 3 ∧ has conformingGate.eflags vmMask = false ∧
      ¬ callGate.SwitchesTask conformingGate ∧
      ∃ s', callGate.run conformingGate = (.ok (), s') ∧ s'.cpl = 0 ∧
        s'.segs rSS = conformingGate.segs rSS ∧ ¬ PrivilegeKept conformingGate s' callGate := by
  refine ⟨by decide, by decide, callGate_noTask rfl, _, rfl, by decide, rfl, fun kept => ?_⟩
  obtain ⟨gate, d, ⟨found, _⟩, target, _, nonConforming, _⟩ := kept.gained (by decide)
  rw [callGate_unique rfl found] at target
  have code : conformingGate.loadSegment (0x00100040#32 >>> 16) = .ok (some ⟨0xffff, 0x00cf9e00⟩) := rfl
  obtain rfl : ⟨0xffff, 0x00cf9e00⟩ = d := Option.some.inj (Except.ok.inj (code.symm.trans target))
  cases nonConforming

end Qemu.I386
