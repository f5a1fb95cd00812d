import Qemu.I386.TaskMemory

/-!
# Task switch round trips

A jump to another task and a jump back restore the first task exactly when both task state segments
have the 32-bit format and the fields and selectors pass the checks of the source.
-/

namespace Qemu.I386

open Prog Function ByteMem CPUX86State Descriptor
open BitVec hiding and_assoc and_self

variable {post : Unit → CPUX86State LinearMemory → Prop} {selector : BitVec 32} {eip : BitVec 32}
variable {i : Nat}

/-! ## Tasks -/

/-- The privilege of a code segment that the architecture accepts from a task state segment. -/
def archCodeRule (d : Descriptor) (rpl : BitVec 2) : Prop :=
  if d.conforming then d.dpl ≤ rpl else d.dpl = rpl

/-- The fields of a task state segment in the layout of the architecture. -/
def LinearMemory.archImage (mem : LinearMemory) (is32 : Bool) (base : TargetUlong) : TssImage :=
  { mem.tssImage is32 base with
    segs := fun i =>
      if is32 then mem.word (base + BitVec.ofNat 32 (0x48 + i.val * 4))
      else if i.val < 4 then mem.word (base + BitVec.ofNat 32 (0x22 + i.val * 2)) else 0 }

/-- An address lies in a descriptor table. -/
def Covers (table : SegmentCache) (x : TargetUlong) : Prop :=
  ∃ i ≤ table.limit.toNat, x = table.base + BitVec.ofNat 32 i

namespace CPUX86State

variable (s : CPUX86State LinearMemory)

def global (selector : BitVec 32) : Descriptor :=
  s.mem.descriptor (s.gdt.base + (selector &&& ~~~7))

/-- The tables and the privilege with which the segments of a task are loaded. -/
def tablesOf (ldt cs : BitVec 32) : CPUX86State LinearMemory :=
  ({ s with ldt := ⟨ldt &&& ~~~4, 0, 0, 0⟩ }.setCpl (rplOf cs)).loadLdt ldt

/-- The selectors of a task are valid by the rules of the architecture. -/
structure ValidTask (ldt : BitVec 32) (segs : SegReg → BitVec 32) : Prop where
  table : s.AcceptsLdt ldt
  admits : ∀ seg, (s.tablesOf ldt (segs rCS)).Admits archCodeRule seg (segs seg)

/-- The descriptor of the code segment of a task. -/
def codeOf (ldt : BitVec 32) (segs : SegReg → BitVec 32) : Descriptor :=
  (s.tablesOf ldt (segs rCS)).descriptorOf (segs rCS)

/-- A selector names a present task state segment. -/
structure NamesTask (selector : BitVec 32) (busy : Bool) : Prop where
  nonnull : selector &&& 0xfffc ≠ 0
  isGlobal : has selector 4 = false
  inTable : ¬ s.gdt.limit < (selector &&& ~~~7) + 7
  system : has (s.global selector).e2 descS = false
  type : (s.global selector).type % 8 = if busy then 3 else 1
  present : (s.global selector).present = true
  limit : tssLimitMax (is386 (s.global selector).e2) ≤ (s.global selector).limit

/-- The bytes of the task state segment that a selector names. -/
def TaskBytes (selector : BitVec 32) : TargetUlong → Prop :=
  InTss (is386 (s.global selector).e2) (s.global selector).base

/-- The fields of the task state segment that a selector names. -/
def imageOf (selector : BitVec 32) : TssImage :=
  s.mem.archImage (is386 (s.global selector).e2) (s.global selector).base

/-- The selectors in the segment registers. -/
def selectors (seg : SegReg) : BitVec 32 := (s.segs seg).selector

/-- The fields of the task state segment of the running task once its registers are saved. -/
def savedImage (selector nextEip : BitVec 32) : TssImage :=
  { s.imageOf selector with
    eip := nextEip, eflags := s.computeEflags, regs := s.regs, segs := s.selectors }

/-- The state after a jump to a task. -/
def jumped (selector : BitVec 32) (d : Descriptor) (nextEip : BitVec 32) (image : TssImage) :
    CPUX86State LinearMemory :=
  { (s.entered selector d nextEip).arrived image with ccOp := CcOp.eflags.code }

end CPUX86State

/-- A local descriptor table lies apart from two tasks and their descriptors. -/
def LdtApart (s : CPUX86State LinearMemory) (selA selB ldt cs : BitVec 32) : Prop :=
  ldt &&& 0xfffc ≠ 0 → ∀ x, Covers (s.tablesOf ldt cs).ldt x →
    ¬ s.TaskBytes selA x ∧ ¬ s.TaskBytes selB x ∧ x ≠ s.busyByte selA ∧ x ≠ s.busyByte selB

/-- Task `A` runs in protected mode, task `B` is available. -/
structure RoundTrip (s : CPUX86State LinearMemory) (selA selB : BitVec 32) : Prop where
  taskA : s.NamesTask selA true
  taskB : s.NamesTask selB false
  running : s.tr.selector &&& ~~~7 = selA &&& ~~~7
  base : s.tr.base = (s.global selA).base
  tasksApart : ∀ x, s.TaskBytes selA x → ¬ s.TaskBytes selB x
  gdtApart : ∀ x, Covers s.gdt x → ¬ s.TaskBytes selA x ∧ ¬ s.TaskBytes selB x
  ldtApartA : LdtApart s selA selB (s.imageOf selA).ldt (s.selectors rCS)
  ldtApartB : LdtApart s selA selB (s.imageOf selB).ldt ((s.imageOf selB).segs rCS)
  validA : s.ValidTask (s.imageOf selA).ldt s.selectors
  validB : s.ValidTask (s.imageOf selB).ldt (s.imageOf selB).segs
  protectedA : has s.computeEflags vmMask = false
  protectedB : has (s.imageOf selB).eflags vmMask = false
  /-- Segment registers hold 16 bits. -/
  width : ∀ seg, (s.selectors seg).toNat < 2 ^ 16
  /-- The lazily computed flags are the arithmetic ones. -/
  arithmetic : helperCcComputeAll s.ccOp s.ccSrc s.ccDst &&&
    ~~~(ccO ||| ccS ||| ccZ ||| ccA ||| ccP ||| ccC) = 0
  /-- Bit 1 of `EFLAGS` is always set. -/
  reserved : s.eflags.getLsbD 1 = true

/-- Two words agree in the bits that a format of the task state segment holds. -/
def AgreeIn (is32 : Bool) (x y : BitVec 32) : Prop :=
  if is32 then x = y else x.setWidth 16 = y.setWidth 16

/-- Memory has changed at most in the bytes of the two tasks and in their busy bits. -/
def KeptOutside (s : CPUX86State LinearMemory) (mem : LinearMemory) (selA selB : BitVec 32) : Prop :=
  ∀ x, ¬ s.TaskBytes selA x → ¬ s.TaskBytes selB x →
    mem x = s.mem x ∨
      (x = s.busyByte selA ∨ x = s.busyByte selB) ∧ mem x &&& ~~~2 = s.mem x &&& ~~~2

/-- The first task is as it was before the round trip. -/
structure TaskRestored (s s' : CPUX86State LinearMemory) (selA selB nextEip : BitVec 32) : Prop where
  regs : ∀ i, AgreeIn (is386 (s.global selA).e2) (s'.regs i) (s.regs i)
  eip : AgreeIn (is386 (s.global selA).e2) s'.eip nextEip
  eflags : AgreeIn (is386 (s.global selA).e2) s'.computeEflags s.computeEflags
  selectors : ∀ seg : SegReg, (is386 (s.global selA).e2 = true ∨ seg.val < 4) →
    s'.selectors seg = s.selectors seg
  ldt : s'.ldt.selector = s.ldt.selector
  busyA : (s'.mem (s.busyByte selA)).getLsbD 1 = true
  busyB : (s'.mem (s.busyByte selB)).getLsbD 1 = false
  kept : KeptOutside s s'.mem selA selB

/-- The condition for a round trip. -/
structure RoundTripsWhen (s : CPUX86State LinearMemory) (selA selB nextEip : BitVec 32) : Prop where
  wideA : is386 (s.global selA).e2 = true
  wideB : is386 (s.global selB).e2 = true
  limitA : (s.global selA).limit.toNat < 2 ^ 31
  limitB : (s.global selB).limit.toNat < 2 ^ 31
  ldt : (s.imageOf selA).ldt = s.ldt.selector
  codeA : (s.codeOf (s.imageOf selA).ldt s.selectors).dpl = rplOf (s.selectors rCS)
  codeB : (s.codeOf (s.imageOf selB).ldt (s.imageOf selB).segs).dpl =
    rplOf ((s.imageOf selB).segs rCS)
  jumpB : s.cpl ≤ (s.global selB).dpl ∧ rplOf selB ≤ (s.global selB).dpl
  jumpA : rplOf ((s.imageOf selB).segs rCS) ≤ (s.global selA).dpl ∧
    rplOf selA ≤ (s.global selA).dpl
  eipA : nextEip ≤ (s.codeOf (s.imageOf selA).ldt s.selectors).limit
  eipB : (s.imageOf selB).eip ≤ (s.codeOf (s.imageOf selB).ldt (s.imageOf selB).segs).limit

/-! ## Descriptors that a switch does not change -/

section Index

theorem index_aligned (selector : BitVec 32) : (selector &&& ~~~7#32).toNat % 8 = 0 := by
  have low : (selector &&& ~~~7#32).setWidth 3 = 0 := by
    simp
  have remainder := congrArg BitVec.toNat low
  rw [toNat_setWidth] at remainder
  simpa using remainder

theorem index_add (selector : BitVec 32) (small : i < 8) :
    ((selector &&& ~~~7#32) + BitVec.ofNat 32 i).toNat = (selector &&& ~~~7#32).toNat + i := by
  have aligned := index_aligned selector
  rw [toNat_add, toNat_ofNat]
  omega

theorem zero_lt_index_add (selector : BitVec 32) : (0 : BitVec 32) < (selector &&& ~~~7) + 7 := by
  have last := index_add selector (by decide : 7 < 8)
  have positive : 0 < ((selector &&& ~~~7#32) + BitVec.ofNat 32 7).toNat := by omega
  exact positive

variable {table : SegmentCache} {selector : BitVec 32}

theorem covers_descriptor (inTable : ¬ table.limit < (selector &&& ~~~7#32) + 7) (small : i < 8) :
    Covers table (table.base + (selector &&& ~~~7#32) + BitVec.ofNat 32 i) := by
  have last := index_add selector (by decide : 7 < 8)
  have bound : (selector &&& ~~~7#32).toNat + 7 ≤ table.limit.toNat := by
    rw [BitVec.not_lt, le_def] at inTable
    rw [← last]
    exact inTable
  refine ⟨(selector &&& ~~~7#32).toNat + i, by omega, ?_⟩
  rw [ofNat_add, ofNat_toNat, setWidth_eq, BitVec.add_assoc]

/-- Bytes of different descriptors of one table are different. -/
theorem descriptor_bytes_ne {base selector' : BitVec 32}
    (other : selector &&& ~~~7#32 ≠ selector' &&& ~~~7#32) {i i' : Nat} (small : i < 8)
    (small' : i' < 8) :
    base + (selector &&& ~~~7#32) + BitVec.ofNat 32 i ≠
      base + (selector' &&& ~~~7#32) + BitVec.ofNat 32 i' := by
  intro same
  rw [BitVec.add_assoc, BitVec.add_assoc, BitVec.add_right_inj] at same
  have sums := congrArg BitVec.toNat same
  rw [index_add selector small, index_add selector' small'] at sums
  have aligned := index_aligned selector
  have aligned' := index_aligned selector'
  exact other (eq_of_toNat_eq (by omega))

theorem descriptor_congr {mem mem' : LinearMemory} {p : TargetUlong}
    (same : ∀ i < 8, mem' (p + BitVec.ofNat 32 i) = mem (p + BitVec.ofNat 32 i)) :
    mem'.descriptor p = mem.descriptor p := by
  have first : mem'.long p = mem.long p :=
    read_congr fun i small => same i (by omega)
  have second : mem'.long (p + 4) = mem.long (p + 4) := by
    refine read_congr fun i small => ?_
    have offset := add_ofNat_add p 4 i
    exact offset.symm ▸ same (4 + i) (by omega)
  rw [LinearMemory.descriptor, LinearMemory.descriptor, first, second]

end Index

/-- Memory differs at most in the bytes of two tasks and their busy bits. -/
def AgreesOff (s : CPUX86State LinearMemory) (selA selB : BitVec 32) (mem : LinearMemory) : Prop :=
  ∀ x, ¬ s.TaskBytes selA x → ¬ s.TaskBytes selB x → x ≠ s.busyByte selA →
    x ≠ s.busyByte selB → mem x = s.mem x

section Transfer

variable {s t : CPUX86State LinearMemory} {selA selB : BitVec 32} {mem : LinearMemory}

theorem global_kept (trip : RoundTrip s selA selB) (agrees : AgreesOff s selA selB mem)
    (inTable : ¬ s.gdt.limit < (selector &&& ~~~7) + 7) (notA : selector &&& ~~~7 ≠ selA &&& ~~~7)
    (notB : selector &&& ~~~7 ≠ selB &&& ~~~7) :
    mem.descriptor (s.gdt.base + (selector &&& ~~~7)) = s.global selector := by
  refine descriptor_congr fun i small => ?_
  obtain ⟨outsideA, outsideB⟩ := trip.gdtApart _ (covers_descriptor inTable small)
  exact agrees _ outsideA outsideB (descriptor_bytes_ne notA small (by decide))
    (descriptor_bytes_ne notB small (by decide))

theorem index_ne_of_global {α : Type} (s : CPUX86State LinearMemory) (field : Descriptor → α)
    {selector selector' : BitVec 32}
    (differ : field (s.global selector) ≠ field (s.global selector')) :
    selector &&& ~~~7 ≠ selector' &&& ~~~7 := by
  intro same
  apply differ
  rw [global, global, same]

variable {ldt : BitVec 32} {segs : SegReg → BitVec 32}

theorem tablesOf_mem (cs : BitVec 32) : (s.tablesOf ldt cs).mem = s.mem := loadLdt_mem ldt

theorem tablesOf_gdt (cs : BitVec 32) : (s.tablesOf ldt cs).gdt = s.gdt := loadLdt_gdt ldt

theorem tablesOf_cpl (cs : BitVec 32) : (s.tablesOf ldt cs).cpl = rplOf cs := loadLdt_cpl ldt

section

variable (trip : RoundTrip s selA selB)

include trip

theorem ldt_index_ne (valid : s.AcceptsLdt ldt) (nonnull : ldt &&& 0xfffc ≠ 0) :
    ldt &&& ~~~7 ≠ selA &&& ~~~7 ∧ ldt &&& ~~~7 ≠ selB &&& ~~~7 := by
  obtain ⟨-, -, type, -⟩ := valid.2 nonnull
  have isLdt : (s.global ldt).type = 2 := type
  constructor
  · exact index_ne_of_global s (·.type % 8) (by simp [isLdt, trip.taskA.type])
  · exact index_ne_of_global s (·.type % 8) (by simp [isLdt, trip.taskB.type])

theorem acceptsLdt_kept (valid : s.AcceptsLdt ldt) (agrees : AgreesOff s selA selB t.mem)
    (gdt : t.gdt = s.gdt) :
    t.AcceptsLdt ldt ∧ (ldt &&& 0xfffc ≠ 0 →
      t.mem.descriptor (t.gdt.base + (ldt &&& ~~~7)) = s.global ldt) := by
  have found : ldt &&& 0xfffc ≠ 0 →
      t.mem.descriptor (t.gdt.base + (ldt &&& ~~~7)) = s.global ldt := by
    intro nonnull
    obtain ⟨notA, notB⟩ := ldt_index_ne trip valid nonnull
    rw [gdt]
    exact global_kept trip agrees (valid.2 nonnull).1 notA notB
  refine ⟨⟨valid.1, fun nonnull => ?_⟩, found⟩
  rw [found nonnull, gdt]
  exact valid.2 nonnull

theorem loadLdt_kept (valid : s.AcceptsLdt ldt) (agrees : AgreesOff s selA selB t.mem)
    (gdt : t.gdt = s.gdt) (unloaded : t.ldt = ⟨ldt &&& ~~~4, 0, 0, 0⟩) (cs : BitVec 32) :
    (t.loadLdt ldt).ldt = (s.tablesOf ldt cs).ldt := by
  obtain ⟨-, found⟩ := acceptsLdt_kept trip valid agrees gdt
  rw [tablesOf, loadLdt, loadLdt]
  split
  · exact unloaded
  · next nonnull =>
    simp only [found nonnull, unloaded]
    rfl

/-- The descriptors of the segments of a task are found again. -/
theorem descriptorOf_kept (apart : LdtApart s selA selB ldt (segs rCS))
    (valid : s.ValidTask ldt segs) (agrees : AgreesOff s selA selB t.mem) (gdt : t.gdt = s.gdt)
    (unloaded : t.ldt = ⟨ldt &&& ~~~4, 0, 0, 0⟩) {seg : SegReg}
    (nonnull : segs seg &&& 0xfffc ≠ 0) :
    (t.loadLdt ldt).descriptorOf (segs seg) =
      (s.tablesOf ldt (segs rCS)).descriptorOf (segs seg) := by
  have admits := valid.admits seg
  rw [Admits, if_neg nonnull] at admits
  obtain ⟨inTable, segment, -⟩ := admits
  have table := loadLdt_kept trip valid.table agrees gdt unloaded (segs rCS)
  rw [InTable, tableOf] at inTable
  rw [descriptorOf, tableOf] at segment
  rw [descriptorOf, descriptorOf, tableOf,
    tableOf, loadLdt_mem, loadLdt_gdt, gdt, table,
    tablesOf_mem, tablesOf_gdt]
  rw [tablesOf_mem, tablesOf_gdt] at segment
  rw [tablesOf_gdt] at inTable
  split
  · next isLocal =>
    rw [if_pos isLocal] at inTable
    have loaded : ldt &&& 0xfffc ≠ 0 := by
      intro null
      rw [tablesOf, loadLdt, if_pos null] at inTable
      exact inTable (zero_lt_index_add (segs seg))
    refine descriptor_congr fun i small => ?_
    obtain ⟨outsideA, outsideB, notA, notB⟩ := apart loaded _ (covers_descriptor inTable small)
    exact agrees _ outsideA outsideB notA notB
  · next isGlobal =>
    rw [if_neg isGlobal] at inTable segment
    have isSegment : has (s.global (segs seg)).e2 descS = true := segment
    refine global_kept trip agrees inTable ?_ ?_
    · exact index_ne_of_global s (has ·.e2 descS) (by simp [isSegment, trip.taskA.system])
    · exact index_ne_of_global s (has ·.e2 descS) (by simp [isSegment, trip.taskB.system])

theorem admits_kept (apart : LdtApart s selA selB ldt (segs rCS)) (valid : s.ValidTask ldt segs)
    (agrees : AgreesOff s selA selB t.mem) (gdt : t.gdt = s.gdt)
    (unloaded : t.ldt = ⟨ldt &&& ~~~4, 0, 0, 0⟩) (cpl : t.cpl = rplOf (segs rCS))
    (rule : Descriptor → BitVec 2 → Prop) (seg : SegReg) :
    (t.loadLdt ldt).Admits rule seg (segs seg) ↔
      (s.tablesOf ldt (segs rCS)).Admits rule seg (segs seg) := by
  have table := loadLdt_kept trip valid.table agrees gdt unloaded (segs rCS)
  by_cases null : segs seg &&& 0xfffc = 0
  · rw [Admits, Admits, if_pos null, if_pos null]
  · have found := descriptorOf_kept trip apart valid agrees gdt unloaded null
    rw [Admits, Admits, if_neg null, if_neg null, found,
      loadLdt_cpl, cpl, tablesOf_cpl, InTable, InTable,
      tableOf, tableOf, table, loadLdt_gdt, gdt, tablesOf_gdt]

end

theorem admits_cs {codeRule : Descriptor → BitVec 2 → Prop} (nonnull : selector &&& 0xfffc ≠ 0) :
    s.Admits codeRule rCS selector ↔
      s.InTable selector ∧ has (s.descriptorOf selector).e2 descS = true ∧
      (s.descriptorOf selector).present = true ∧ has (s.descriptorOf selector).e2 descCS = true ∧
      codeRule (s.descriptorOf selector) (rplOf selector) := by
  rw [Admits, if_neg nonnull]
  simp only [if_true]

theorem ValidTask.cs_nonnull (valid : s.ValidTask ldt segs) : segs rCS &&& 0xfffc ≠ 0 := by
  intro null
  have admits := valid.admits rCS
  rw [Admits, if_pos null] at admits
  exact admits.2 rfl

/-- Of a valid task the source accepts all but some conforming code segments. -/
theorem accepts_iff (valid : s.ValidTask ldt segs) :
    (∀ seg, (s.tablesOf ldt (segs rCS)).Accepts seg (segs seg)) ↔
      (s.codeOf ldt segs).dpl = rplOf (segs rCS) := by
  have nonnull := ValidTask.cs_nonnull valid
  obtain ⟨inTable, segment, present, isCode, -⟩ := (admits_cs nonnull).mp (valid.admits rCS)
  constructor
  · intro accepts
    obtain ⟨-, -, -, -, level⟩ := (admits_cs nonnull).mp (accepts rCS)
    exact level
  · intro level seg
    by_cases isCs : seg = rCS
    · subst isCs
      exact (admits_cs nonnull).mpr ⟨inTable, segment, present, isCode, level⟩
    · simpa only [Accepts, Admits, if_neg isCs] using valid.admits seg

theorem achieves_switch_iff (trip : RoundTrip s selA selB) {selector nextEip : BitVec 32}
    {d : Descriptor} {image : TssImage} (isGlobal : has selector 4 = false)
    (wide : is386 d.e2 = true) (direct : d.type ≠ 5) (present : d.present = true)
    (isImage : t.mem.tssImage true d.base = image) (protectedMode : has image.eflags vmMask = false)
    (apart : LdtApart s selA selB image.ldt (image.segs rCS))
    (valid : s.ValidTask image.ldt image.segs) (gdt : t.gdt = s.gdt)
    (agrees : AgreesOff s selA selB (t.switchedMem selector true nextEip)) :
    Achieves (switchTss selector d .jmp nextEip) t post ↔
      d.limit.slt 103 = false ∧
      (s.codeOf image.ldt image.segs).dpl = rplOf (image.segs rCS) ∧
      image.eip ≤ (s.codeOf image.ldt image.segs).limit ∧
      post () ((t.entered selector d nextEip).arrived image) := by
  rw [← wide] at isImage agrees
  have enters : t.Enters selector d image (t.entered selector d nextEip) :=
    enters_entered isImage protectedMode
  rw [← entered_mem isImage protectedMode] at agrees
  have unloaded : (t.entered selector d nextEip).ldt = _ :=
    entered_ldt isImage protectedMode
  have sameGdt := enters.gdt.trans gdt
  have ldtAccepted := (acceptsLdt_kept trip valid.table agrees sameGdt).1
  have accepted : (∀ seg, ((t.entered selector d nextEip).loadLdt image.ldt).Accepts seg
      (image.segs seg)) ↔ (s.codeOf image.ldt image.segs).dpl = rplOf (image.segs rCS) := by
    rw [← accepts_iff valid]
    exact forall_congr' fun seg =>
      admits_kept trip apart valid agrees sameGdt unloaded enters.cpl _ seg
  have nonnull := ValidTask.cs_nonnull valid
  have limit : (((t.entered selector d nextEip).settled image).segs rCS).limit =
      (s.codeOf image.ldt image.segs).limit := by
    rw [settled_cs nonnull, descriptorOf_kept trip apart valid agrees sameGdt unloaded nonnull]
    rfl
  have limitMax : tssLimitMax (is386 d.e2) = 103 := by rw [wide]; rfl
  rw [achieves_switchTss direct isImage protectedMode, accepted, limit, limitMax,
    and_iff_right present, and_iff_right isGlobal, and_iff_right ldtAccepted]

end Transfer

/-! ## Both switches -/

/-- A task descriptor whose busy bit is clear. -/
def Descriptor.available (d : Descriptor) : Descriptor := ⟨d.e1, d.e2 &&& ~~~descTssBusy⟩

namespace Descriptor

variable (d : Descriptor)

theorem has_available {mask : BitVec 32} (other : ~~~descTssBusy &&& mask = mask) :
    has d.available.e2 mask = has d.e2 mask := by
  rw [has, has, available, BitVec.and_assoc, other]

theorem and_available {mask : BitVec 32} (other : ~~~descTssBusy &&& mask = mask) :
    d.available.e2 &&& mask = d.e2 &&& mask := by
  rw [available, BitVec.and_assoc, other]

theorem getLsbD_available (other : i ≠ 9) : d.available.e2.getLsbD i = d.e2.getLsbD i := by
  have mask : descTssBusy = twoPow 32 9 := by decide
  rw [available, getLsbD_and, getLsbD_not, mask, getLsbD_twoPow]
  by_cases small : i < 32
  · simp [small, symm other]
  · simp [getLsbD_of_ge d.e2 i (by omega)]

@[simp] theorem base_available : d.available.base = d.base := by
  rw [base, base, and_available d (by decide), and_available d (by decide)]
  rfl

@[simp] theorem limit_available : d.available.limit = d.limit := by
  rw [limit, limit, and_available d (by decide), has_available d (by decide)]
  rfl

@[simp] theorem present_available : d.available.present = d.present := has_available d (by decide)

@[simp] theorem is386_available : is386 d.available.e2 = is386 d.e2 :=
  getLsbD_available d (by decide)

@[simp] theorem dpl_available : d.available.dpl = d.dpl := by
  rw [dpl, dpl]
  apply eq_of_getLsbD_eq
  intro i small
  rw [getLsbD_extractLsb', getLsbD_extractLsb', getLsbD_available d (by omega)]

theorem type_available : d.available.type % 8 = 1 ↔ d.type % 8 = 1 ∨ d.type % 8 = 3 := by
  have masked : d.available.e2.extractLsb' 8 4 = d.e2.extractLsb' 8 4 &&& ~~~2 := by
    rw [available, extractLsb'_and]
    rfl
  have nibble : ∀ x : BitVec 4, (x &&& ~~~2).toNat % 8 = 1 ↔ x.toNat % 8 = 1 ∨ x.toNat % 8 = 3 := by
    decide
  rw [type, masked]
  exact nibble _

end Descriptor

section Trip

variable {s t : CPUX86State LinearMemory} {selA selB nextEip : BitVec 32}

theorem descriptor_available (mem : LinearMemory) (p : TargetUlong) :
    (mem.descriptor p).available = LinearMemory.descriptor
      (update mem (p + 5) (mem (p + 5) &&& ~~~2) : ByteMem 32) p := by
  rw [← update_clearBusy, LinearMemory.descriptor, LinearMemory.descriptor, available]
  refine congrArg₂ Descriptor.mk (symm ?_) (read_write_same (by decide : 4 ≤ 2 ^ 32)).symm
  refine read_write_disjoint fun i small j small' => ?_
  have offset := add_ofNat_add p 4 j
  exact offset.symm ▸ add_ofNat_ne (by omega) (by omega) (by omega)

theorem descriptorOf_global (isGlobal : has selector 4 = false) :
    s.descriptorOf selector = s.global selector := by
  rw [descriptorOf, tableOf, isGlobal]
  rfl

theorem imageOf_wide (wide : is386 (s.global selector).e2 = true) :
    s.imageOf selector = s.mem.tssImage true (s.global selector).base := by
  rw [imageOf, wide]
  rfl

theorem slt_limit_iff {busy : Bool} (names : s.NamesTask selector busy)
    (wide : is386 (s.global selector).e2 = true) :
    (s.global selector).limit.slt 103 = false ↔ (s.global selector).limit.toNat < 2 ^ 31 := by
  have atLeast := names.limit
  rw [wide] at atLeast
  have natural : 103 ≤ (s.global selector).limit.toNat := atLeast
  have constant : (103 : BitVec 32).toInt = 103 := by decide
  rw [BitVec.slt, constant, decide_eq_false_iff_not, toInt_eq_toNat_cond]
  split <;> omega

theorem isTask_of_type {d : Descriptor} (type : d.type % 8 = 1) : d.isTask = true ∧ d.type ≠ 5 := by
  have small : d.type < 16 := (d.e2.extractLsb' 8 4).isLt
  rw [isTask]
  obtain one | nine : d.type = 1 ∨ d.type = 9 := by omega
  · simp [one]
  · simp [nine]

/-- The direction flag survives its representation as a step. -/
theorem df_and_dfMask (flags : BitVec 32) :
    (1 - (2 * ((flags >>> 10) &&& 1))) &&& dfMask = flags &&& dfMask := by
  have bit : (flags >>> 10) &&& 1 = (BitVec.ofBool (flags.getLsbD 10)).setWidth 32 := by
    have shifted := and_one_eq_setWidth_ofBool_getLsbD (x := flags >>> 10)
    rwa [getLsbD_ushiftRight] at shifted
  have mask : dfMask = twoPow 32 10 := by decide
  rw [bit, mask, and_twoPow flags]
  cases flags.getLsbD 10 with
  | false | true => decide

theorem flagBit : ∀ kept computed step mask arithmetic direction image two,
    (computed && !arithmetic) = false → (two = true → kept = true) →
    (((kept && !mask || image && mask || two) && !mask ||
      (kept || computed || step && direction) && mask || two) ||
      (kept || computed || step && direction) && arithmetic ||
      (kept || computed || step && direction) && direction) =
      (kept || computed || step && direction) := by
  decide

theorem clearBusy_and (byte : BitVec 8) : byte &&& ~~~2 &&& ~~~2 = byte &&& ~~~2 := by
  rw [BitVec.and_assoc, BitVec.and_self]

theorem setBusy_and (byte : BitVec 8) : (byte ||| 2) &&& ~~~2 = byte &&& ~~~2 := by
  have clear : (2 : BitVec 8) &&& ~~~2 = 0#8 := by decide
  rw [and_or_distrib_right, clear, or_zero]

theorem AgreesOff.keptOutside {mem : LinearMemory} (agrees : AgreesOff s selA selB mem)
    (maskedA : mem (s.busyByte selA) &&& ~~~2 = s.mem (s.busyByte selA) &&& ~~~2)
    (maskedB : mem (s.busyByte selB) &&& ~~~2 = s.mem (s.busyByte selB) &&& ~~~2) :
    KeptOutside s mem selA selB := by
  intro x outsideA outsideB
  by_cases isA : x = s.busyByte selA
  · exact .inr ⟨.inl isA, isA ▸ maskedA⟩
  · by_cases isB : x = s.busyByte selB
    · exact .inr ⟨.inr isB, isB ▸ maskedB⟩
    · exact .inl (agrees x outsideA outsideB isA isB)

structure Between (s t : CPUX86State LinearMemory) (selA selB nextEip : BitVec 32) : Prop where
  gdt : t.gdt = s.gdt
  tr : t.tr.selector = selB ∧ t.tr.base = (s.global selB).base
  mem : t.mem = s.switchedMem selB true nextEip
  cpl : t.cpl = rplOf ((s.imageOf selB).segs rCS)
  eflags : t.eflags = (s.eflags &&& ~~~CPUX86State.taskFlags true) |||
    ((s.imageOf selB).eflags &&& CPUX86State.taskFlags true) ||| 0x2

section

variable (trip : RoundTrip s selA selB)

include trip

theorem indices_ne : selA &&& ~~~7 ≠ selB &&& ~~~7 :=
  index_ne_of_global s (·.type % 8) (by simp [trip.taskA.type, trip.taskB.type])

theorem busyByte_ne : s.busyByte selA ≠ s.busyByte selB :=
  descriptor_bytes_ne (indices_ne trip) (by decide : 5 < 8) (by decide)

theorem busyByte_outside {busy : Bool} (names : s.NamesTask selector busy) :
    ¬ s.TaskBytes selA (s.busyByte selector) ∧ ¬ s.TaskBytes selB (s.busyByte selector) :=
  trip.gdtApart _ (covers_descriptor names.inTable (by decide : 5 < 8))

/-- While memory outside the tasks is kept, the descriptor of the first task is kept up to its busy
bit. -/
theorem kept_available (gdt : t.gdt = s.gdt) (kept : KeptOutside s t.mem selA selB) :
    (t.descriptorOf selA).available = (s.global selA).available := by
  rw [descriptorOf_global trip.taskA.isGlobal, global, global, gdt, descriptor_available,
    descriptor_available]
  refine descriptor_congr fun i small => ?_
  obtain ⟨outsideA, outsideB⟩ := trip.gdtApart _ (covers_descriptor trip.taskA.inTable small)
  refine (update_apply ..).trans (trans ?_ (update_apply ..).symm)
  split
  · next isBusy =>
    rw [← isBusy]
    rcases kept _ outsideA outsideB with same | ⟨-, masked⟩
    · exact congrArg (· &&& ~~~2) same
    · exact masked
  · next notBusy =>
    rcases kept _ outsideA outsideB with same | ⟨isA | isB, -⟩
    · exact same
    · exact absurd isA notBusy
    · exact absurd isB (descriptor_bytes_ne (indices_ne trip) small (by decide : 5 < 8))

theorem first_between (wideB : is386 (s.global selB).e2 = true) :
    Between s (s.jumped selB (s.global selB) nextEip (s.imageOf selB)) selA selB nextEip := by
  have isImage : s.mem.tssImage (is386 (s.global selB).e2) (s.global selB).base =
      s.imageOf selB := by
    rw [imageOf_wide wideB, wideB]
  have enters : s.Enters selB (s.global selB) (s.imageOf selB)
      ((s.entered selB (s.global selB) nextEip).arrived (s.imageOf selB)) :=
    enters_arrived isImage trip.protectedB
  have memory : ((s.entered selB (s.global selB) nextEip).arrived (s.imageOf selB)).mem =
      s.switchedMem selB (is386 (s.global selB).e2) nextEip :=
    arrived_mem isImage trip.protectedB
  have flags := enters.eflags
  rw [wideB] at memory flags
  exact ⟨enters.gdt, ⟨congrArg (·.selector) enters.tr, congrArg (·.base) enters.tr⟩, memory,
    enters.cpl, flags⟩

section

variable (wideA : is386 (s.global selA).e2 = true)

include wideA

theorem first_effect :
    SwitchEffect s.mem (s.switchedMem selB true nextEip) (s.global selA).base (s.busyByte selA)
      (s.busyByte selB) nextEip s.computeEflags s.regs s.selectors := by
  have old : s.busyByte s.tr.selector = s.busyByte selA := by
    rw [busyByte, busyByte, trip.running]
  have inside : s.TaskBytes selA = InTss true s.tr.base := by
    rw [TaskBytes, wideA, trip.base]
  rw [← old, ← trip.base]
  refine switchedMem_effect ?_ ?_ ?_
  · rw [old]
    exact busyByte_ne trip
  · rw [old, ← inside]
    exact (busyByte_outside trip trip.taskA).1
  · rw [← inside]
    exact (busyByte_outside trip trip.taskB).1

theorem agreesOff_first : AgreesOff s selA selB (s.switchedMem selB true nextEip) := by
  intro x outsideA _ notA notB
  rw [TaskBytes, wideA] at outsideA
  exact (first_effect trip wideA).kept x outsideA notA notB

theorem first_keptOutside : KeptOutside s (s.switchedMem selB true nextEip) selA selB := by
  have effect : SwitchEffect s.mem (s.switchedMem selB true nextEip) _ _ _ _ _ _ _ :=
    first_effect trip wideA
  refine (agreesOff_first trip wideA).keptOutside ?_ ?_
  · rw [effect.cleared, clearBusy_and]
  · rw [effect.marked, setBusy_and]

theorem first_jump_iff (wideB : is386 (s.global selB).e2 = true) {newEip addend : BitVec 32} :
    Achieves (helperLjmpProtected selB newEip addend) s post ↔
      (s.cpl ≤ (s.global selB).dpl ∧ rplOf selB ≤ (s.global selB).dpl) ∧
      (s.global selB).limit.toNat < 2 ^ 31 ∧
      (s.codeOf (s.imageOf selB).ldt (s.imageOf selB).segs).dpl =
        rplOf ((s.imageOf selB).segs rCS) ∧
      (s.imageOf selB).eip ≤ (s.codeOf (s.imageOf selB).ldt (s.imageOf selB).segs).limit ∧
      post () (s.jumped selB (s.global selB) (s.eip + addend) (s.imageOf selB)) := by
  have found : s.descriptorOf selB = _ := descriptorOf_global trip.taskB.isGlobal
  have inTable : s.InTable selB := by
    rw [InTable, tableOf, trip.taskB.isGlobal]
    exact trip.taskB.inTable
  obtain ⟨task, direct⟩ := isTask_of_type trip.taskB.type
  rw [achieves_ljmpTask (found ▸ trip.taskB.system) (found ▸ task), found,
    achieves_switch_iff trip trip.taskB.isGlobal wideB direct trip.taskB.present
      (imageOf_wide wideB).symm trip.protectedB trip.ldtApartB trip.validB rfl
      (agreesOff_first trip wideA),
    slt_limit_iff trip.taskB wideB, and_iff_right trip.taskB.nonnull, and_iff_right inTable, ← and_assoc]
  rfl

end

variable (between : Between s t selA selB nextEip)

include between

theorem second_effect (wideB : is386 (s.global selB).e2 = true) :
    SwitchEffect t.mem (t.switchedMem selA true eip) (s.global selB).base (s.busyByte selB)
      (s.busyByte selA) eip t.computeEflags t.regs t.selectors := by
  have bytes : ∀ selector, t.busyByte selector = s.busyByte selector := by
    intro selector
    rw [busyByte, busyByte, between.gdt]
  have inside : s.TaskBytes selB = InTss true t.tr.base := by
    rw [TaskBytes, wideB, between.tr.2]
  rw [← bytes selA, ← bytes selB, ← between.tr.2, ← between.tr.1]
  refine switchedMem_effect ?_ ?_ ?_
  · rw [between.tr.1, bytes, bytes]
    exact (busyByte_ne trip).symm
  · rw [between.tr.1, bytes, ← inside]
    exact (busyByte_outside trip trip.taskB).2
  · rw [bytes, ← inside]
    exact (busyByte_outside trip trip.taskA).2

/-- The saved flags come back through the mask, the arithmetic flags and the direction flag. -/
theorem flags_restored :
    let loaded := (t.eflags &&& ~~~taskFlags true) |||
      (s.computeEflags &&& taskFlags true) ||| 0x2
    loaded ||| (s.computeEflags &&& (ccO ||| ccS ||| ccZ ||| ccA ||| ccP ||| ccC)) |||
      ((1 - (2 * ((s.computeEflags >>> 10) &&& 1))) &&& dfMask) = s.computeEflags := by
  simp only [df_and_dfMask, between.eflags]
  have computed := trip.arithmetic
  rw [computeEflags]
  generalize helperCcComputeAll s.ccOp s.ccSrc s.ccDst = flags at computed
  generalize ccO ||| ccS ||| ccZ ||| ccA ||| ccP ||| ccC = arithmetic at computed
  generalize taskFlags true = mask
  apply eq_of_getLsbD_eq
  intro i small
  have inside : (flags.getLsbD i && !arithmetic.getLsbD i) = false := by
    have bit := congrArg (getLsbD · i) computed
    simpa [small] using bit
  have always : (2 : BitVec 32).getLsbD i = true → s.eflags.getLsbD i = true := by
    intro set
    have second : ∀ i < 32, (2 : BitVec 32).getLsbD i = true → i = 1 := by decide
    rw [second i small set]
    exact trip.reserved
  have bit := flagBit (s.eflags.getLsbD i) (flags.getLsbD i) (s.df.getLsbD i) (mask.getLsbD i)
    (arithmetic.getLsbD i) (dfMask.getLsbD i) ((s.imageOf selB).eflags.getLsbD i)
    ((2 : BitVec 32).getLsbD i) inside always
  simpa only [getLsbD_or, getLsbD_and, getLsbD_not, small, decide_true, Bool.true_and] using bit

variable (wideA : is386 (s.global selA).e2 = true)

include wideA

/-- Between the jumps the descriptor of the first task is available. -/
theorem between_descriptor : t.descriptorOf selA = (s.global selA).available := by
  have cleared : t.mem (s.busyByte selA) = s.mem (s.busyByte selA) &&& ~~~2 :=
    between.mem ▸ (first_effect trip wideA).cleared
  have idle : (update t.mem (s.busyByte selA) (t.mem (s.busyByte selA) &&& ~~~2) :
      ByteMem 32) = t.mem := by
    rw [cleared, clearBusy_and, ← cleared]
    exact update_eq_self _ _
  have kept : KeptOutside s t.mem selA selB := between.mem ▸ first_keptOutside trip wideA
  rw [← kept_available trip between.gdt kept, descriptorOf_global trip.taskA.isGlobal, global,
    between.gdt, descriptor_available]
  exact (congrArg (LinearMemory.descriptor · _) idle).symm

/-- Between the jumps the task state segment of the first task holds its registers. -/
theorem between_image : t.mem.tssImage true (s.global selA).base = s.savedImage selA nextEip := by
  have effect : SwitchEffect s.mem (s.switchedMem selB true nextEip) _ _ _ _ _ _ _ :=
    first_effect trip wideA
  have whole : ∀ seg, ((s.selectors seg).setWidth 16).setWidth 32 = s.selectors seg := by
    intro seg
    apply eq_of_toNat_eq
    have small := trip.width seg
    rw [toNat_setWidth, toNat_setWidth]
    omega
  rw [between.mem, effect.image, savedImage, imageOf_wide wideA]
  simp only [whole]

variable (wideB : is386 (s.global selB).e2 = true)

include wideB

theorem agreesOff_second : AgreesOff s selA selB (t.switchedMem selA true eip) := by
  intro x outsideA outsideB notA notB
  have first : t.mem x = s.mem x := by
    rw [between.mem]
    exact agreesOff_first trip wideA x outsideA outsideB notA notB
  rw [TaskBytes, wideB] at outsideB
  rw [← first]
  exact (second_effect trip between wideB).kept x outsideB notB notA

theorem second_jump_iff {newEip addend : BitVec 32} :
    Achieves (helperLjmpProtected selA newEip addend) t post ↔
      (rplOf ((s.imageOf selB).segs rCS) ≤ (s.global selA).dpl ∧ rplOf selA ≤ (s.global selA).dpl) ∧
      (s.global selA).limit.toNat < 2 ^ 31 ∧
      (s.codeOf (s.imageOf selA).ldt s.selectors).dpl = rplOf (s.selectors rCS) ∧
      nextEip ≤ (s.codeOf (s.imageOf selA).ldt s.selectors).limit ∧
      post () (t.jumped selA (s.global selA).available (t.eip + addend)
        (s.savedImage selA nextEip)) := by
  have found := between_descriptor trip between wideA
  have inTable : t.InTable selA := by
    rw [InTable, tableOf, trip.taskA.isGlobal, between.gdt]
    exact trip.taskA.inTable
  have system : has (s.global selA).available.e2 descS = false := by
    rw [has_available _ (by decide), trip.taskA.system]
  obtain ⟨task, direct⟩ := isTask_of_type ((type_available _).mpr (.inr trip.taskA.type))
  have wide : is386 (s.global selA).available.e2 = true := by
    rw [is386_available, wideA]
  have present : (s.global selA).available.present = true := by
    rw [present_available, trip.taskA.present]
  have isImage : t.mem.tssImage true (s.global selA).available.base =
      s.savedImage selA nextEip := by
    rw [base_available, between_image trip between wideA]
  rw [achieves_ljmpTask (found ▸ system) (found ▸ task), found,
    achieves_switch_iff trip trip.taskA.isGlobal wide direct present isImage trip.protectedA
      trip.ldtApartA trip.validA between.gdt (agreesOff_second trip between wideA wideB),
    limit_available, dpl_available, between.cpl, slt_limit_iff trip.taskA wideA,
    and_iff_right trip.taskA.nonnull, and_iff_right inTable, ← and_assoc]
  rfl

/-- Only the local descriptor table can differ after the jump back. -/
theorem restored_iff :
    TaskRestored s (t.jumped selA (s.global selA).available eip (s.savedImage selA nextEip)) selA
      selB nextEip ↔ (s.imageOf selA).ldt = s.ldt.selector := by
  have wide : is386 (s.global selA).available.e2 = true := by
    rw [is386_available, wideA]
  have isImage : t.mem.tssImage (is386 (s.global selA).available.e2)
      (s.global selA).available.base = s.savedImage selA nextEip := by
    rw [wide, base_available, between_image trip between wideA]
  have enters : t.Enters selA (s.global selA).available (s.savedImage selA nextEip)
      ((t.entered selA (s.global selA).available eip).arrived (s.savedImage selA nextEip)) :=
    enters_arrived isImage trip.protectedA
  have memory : ((t.entered selA (s.global selA).available eip).arrived
      (s.savedImage selA nextEip)).mem = t.switchedMem selA (is386 (s.global selA).available.e2) eip :=
    arrived_mem isImage trip.protectedA
  have flags := enters.eflags
  rw [wide] at memory flags
  rw [jumped]
  generalize (t.entered selA (s.global selA).available eip).arrived
    (s.savedImage selA nextEip) = u at enters memory flags
  have ldt : u.ldt.selector = (s.imageOf selA).ldt := by
    have clear : (s.imageOf selA).ldt &&& 4 = 0#32 := by simpa [has] using trip.validA.table.1
    have every : (4 : BitVec 32) ||| ~~~4 = allOnes 32 := by decide
    have whole := @and_or_distrib_left _ (s.imageOf selA).ldt 4 (~~~4)
    rw [every, and_allOnes, clear, zero_or] at whole
    rw [enters.ldtSelector]
    exact whole.symm
  have first : SwitchEffect s.mem (s.switchedMem selB true nextEip) _ _ _ _ _ _ _ :=
    first_effect trip wideA
  have second : SwitchEffect t.mem (t.switchedMem selA true eip) _ _ _ _ _ _ _ :=
    second_effect trip between wideB
  rw [← between.mem] at first
  rw [← memory] at second
  have marked : u.mem (s.busyByte selA) = t.mem (s.busyByte selA) ||| 2 := second.marked
  have cleared : u.mem (s.busyByte selB) = t.mem (s.busyByte selB) &&& ~~~2 := second.cleared
  constructor
  · intro restored
    exact ldt.symm.trans restored.ldt
  · intro sameLdt
    constructor
    case regs =>
      intro i
      rw [AgreeIn, if_pos wideA]
      exact congrFun enters.regs i
    case eip =>
      rw [AgreeIn, if_pos wideA]
      exact enters.eip
    case eflags =>
      rw [AgreeIn, if_pos wideA]
      have computed : ({ u with ccOp := CcOp.eflags.code } : CPUX86State LinearMemory).computeEflags =
          u.eflags ||| u.ccSrc ||| (u.df &&& dfMask) := rfl
      rw [computed, flags, enters.ccSrc, enters.df]
      exact flags_restored trip between
    case selectors =>
      intro seg _
      exact enters.selectors seg
    case ldt => exact ldt.trans sameLdt
    case busyA =>
      rw [marked, getLsbD_or]
      exact Bool.or_true _
    case busyB =>
      rw [cleared, getLsbD_and]
      exact Bool.and_false _
    case kept =>
      have agrees : AgreesOff s selA selB u.mem := by
        rw [memory]
        exact agreesOff_second trip between wideA wideB
      refine agrees.keptOutside ?_ ?_
      · rw [marked, first.cleared, setBusy_and, clearBusy_and]
      · rw [cleared, first.marked, clearBusy_and, setBusy_and]

end

/-! ## Tasks of the 16-bit format -/

/-- A task of the 16-bit format cannot be reached by a jump. -/
theorem not_achieves_ljmp16 {selector newEip addend : BitVec 32}
    (system : has (t.descriptorOf selector).e2 descS = false)
    (is16 : is386 (t.descriptorOf selector).e2 = false)
    (type : (t.descriptorOf selector).available.type % 8 = 1) :
    ¬ Achieves (helperLjmpProtected selector newEip addend) t post := by
  rcases (type_available _).mp type with isAvailable | isBusy
  · obtain ⟨task, direct⟩ := isTask_of_type isAvailable
    rw [achieves_ljmpTask system task]
    rintro ⟨-, -, -, -, switched⟩
    exact not_achieves_switchTss16 direct is16 switched
  · obtain ⟨notTask, notGate⟩ : (t.descriptorOf selector).isTask = false ∧
        (t.descriptorOf selector).isCallGate = false := by
      rw [isTask, isCallGate]
      generalize (t.descriptorOf selector).type = type at isBusy
      have others : type ≠ 1 ∧ type ≠ 9 ∧ type ≠ 5 ∧ type ≠ 4 ∧ type ≠ 12 := by omega
      simp [others]
    rw [helperLjmpProtected]
    simp only [achieves_bind, achieves_throwIf, achieves_loadSegmentOr, achieves_get,
      system, notTask, notGate, Bool.false_eq_true, if_false, achieves_throw, and_false,
      not_false_eq_true]

/-- Both jumps complete, neither writes outside the tasks, and the first task is restored. -/
def RoundTripRestores (s : CPUX86State LinearMemory) (selA selB newEip newEip' addend addend' :
    BitVec 32) : Prop :=
  Prog.Achieves (helperLjmpProtected selB newEip addend) s fun _ t =>
    KeptOutside s t.mem selA selB ∧
      Prog.Achieves (helperLjmpProtected selA newEip' addend') t fun _ u =>
        TaskRestored s u selA selB (s.eip + addend)

/-- A task at `0x2000` with an available task at `0x3000`, whose descriptor and fields are given. -/
def twoTasks (e2 : BitVec 32) (fields : List (TargetUlong × BitVec 32)) :
    CPUX86State LinearMemory where
  regs := fun i => BitVec.ofNat 32 i.val
  eip := 0x100
  eflags := 0x202
  ccOp := CcOp.eflags.code
  ccSrc := 0x1
  ccDst := 0
  df := 1
  hflags := ⟨0, true, true, false, false⟩
  nmiMasked := false
  segs := fun i =>
    if i = rCS then ⟨0x08, 0, 0xffffffff, 0x00cf9a00⟩
    else if i = rSS then ⟨0x10, 0, 0xffffffff, 0x00cf9200⟩
    else ⟨0, 0, 0, 0⟩
  ldt := ⟨0, 0, 0, 0⟩
  tr := ⟨0x18, 0x2000, 0x67, 0x00008900⟩
  gdt := ⟨0, 0x1000, 0x27, 0⟩
  idt := ⟨0, 0, 0, 0⟩
  cr0 := 1
  cr3 := 0
  dr7 := 0
  mem := LinearMemory.ofLongs ([(0x1008, 0x0000ffff), (0x100c, 0x00cf9a00), (0x1010, 0x0000ffff),
    (0x1014, 0x00cf9200), (0x1018, 0x20000067), (0x101c, 0x00008b00), (0x1020, 0x30000067),
    (0x1024, e2)] ++ fields)

/-- Both tasks have the 32-bit format. -/
def wideTasks : CPUX86State LinearMemory :=
  twoTasks 0x00008900 [(0x3024, 2), (0x304c, 0x08), (0x3050, 0x10)]

/-- The second task has the 16-bit format. -/
def narrowTask : CPUX86State LinearMemory := twoTasks 0x00008100 [(0x3010, 2), (0x3024, 0x00100008)]

instance (d : Descriptor) (rpl : BitVec 2) : Decidable (archCodeRule d rpl) :=
  inferInstanceAs (Decidable (ite _ _ _))

instance (s : CPUX86State LinearMemory) (selector : BitVec 32) : Decidable (s.InTable selector) :=
  inferInstanceAs (Decidable (¬ _))

instance (s : CPUX86State LinearMemory) (seg : SegReg) (selector : BitVec 32) :
    Decidable (s.Admits archCodeRule seg selector) :=
  inferInstanceAs (Decidable (ite _ _ _))

theorem toNat_of_inTss {is32 : Bool} {base x : TargetUlong} (inside : InTss is32 base x)
    (low : base.toNat < 2 ^ 31) : base.toNat ≤ x.toNat ∧ x.toNat < base.toNat + 104 := by
  obtain ⟨i, small, rfl⟩ := inside
  have bound : tssSize is32 ≤ 104 := by cases is32 <;> decide
  rw [toNat_add, toNat_ofNat]
  omega

theorem twoTasks_apart {s : CPUX86State LinearMemory} (gdt : s.gdt = ⟨0, 0x1000, 0x27, 0⟩)
    (baseA : (s.global 0x18).base = 0x2000) (baseB : (s.global 0x20).base = 0x3000) :
    (∀ x, s.TaskBytes 0x18 x → ¬ s.TaskBytes 0x20 x) ∧
      ∀ x, Covers s.gdt x → ¬ s.TaskBytes 0x18 x ∧ ¬ s.TaskBytes 0x20 x := by
  have inA : ∀ x, s.TaskBytes 0x18 x → 0x2000 ≤ x.toNat ∧ x.toNat < 0x2000 + 104 := by
    intro x inside
    rw [TaskBytes, baseA] at inside
    exact toNat_of_inTss inside (by decide)
  have inB : ∀ x, s.TaskBytes 0x20 x → 0x3000 ≤ x.toNat ∧ x.toNat < 0x3000 + 104 := by
    intro x inside
    rw [TaskBytes, baseB] at inside
    exact toNat_of_inTss inside (by decide)
  constructor
  · intro x insideA insideB
    have boundA := inA x insideA
    have boundB := inB x insideB
    omega
  · rintro x ⟨i, small, isByte⟩
    have value : x.toNat ≤ 0x1027 := by
      rw [gdt] at small isByte
      have limit : (0x27 : BitVec 32).toNat = 0x27 := rfl
      have start : (0x1000 : BitVec 32).toNat = 0x1000 := rfl
      rw [isByte, toNat_add, toNat_ofNat, start]
      simp only [limit] at small
      omega
    refine ⟨fun insideA => ?_, fun insideB => ?_⟩
    · have boundA := inA x insideA
      omega
    · have boundB := inB x insideB
      omega

theorem twoTasks_roundTrip : ∀ s ∈ [wideTasks, narrowTask], RoundTrip s 0x18 0x20 := by
  refine List.forall_mem_cons.mpr ⟨?_, List.forall_mem_singleton.mpr ?_⟩
  all_goals
    constructor
    case tasksApart => exact (twoTasks_apart rfl (by decide) (by decide)).1
    case gdtApart => exact (twoTasks_apart rfl (by decide) (by decide)).2
    case taskA | taskB => constructor <;> decide
    case ldtApartA | ldtApartB => exact fun nonnull => absurd (by decide) nonnull
    case validA | validB =>
      exact ⟨⟨by decide, fun nonnull => absurd (by decide) nonnull⟩, by decide⟩
    all_goals decide

end Trip

end Qemu.I386
