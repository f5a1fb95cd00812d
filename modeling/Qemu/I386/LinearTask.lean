import Qemu.I386.FarTransfer

/-!
# Task switches over linear memory

When no access faults, a task switch is a sequence of checks and a function on states.
-/

namespace Qemu.I386

open Prog Function ByteMem List CPUX86State
open BitVec (ofNat not_lt)

variable {post : Unit → CPUX86State LinearMemory → Prop} {selector : BitVec 32} {seg : SegReg}
variable {ι : Type}

variable {nextEip tssSelector : BitVec 32}

/-! ## Memory -/

namespace LinearMemory

variable (mem : LinearMemory) (addr : TargetUlong)

def long : BitVec 32 := ByteMem.read 4 mem addr

def word : BitVec 32 := (ByteMem.read 2 mem addr).setWidth 32

def descriptor : Descriptor := ⟨mem.long addr, mem.long (addr + 4)⟩

/-- A long or a word is replaced. -/
def set (shift : Bool) (addr : TargetUlong) (val : BitVec 32) : LinearMemory :=
  if shift then ByteMem.write 4 mem addr val else ByteMem.write 2 mem addr (val.setWidth 16)

/-- A long is changed. -/
def update (f : BitVec 32 → BitVec 32) : LinearMemory := mem.set true addr (f (mem.long addr))

/-- Writes at the addresses of a list of indices. -/
def setAll {ι : Type} (shift : Bool) (addr : ι → TargetUlong) (val : ι → BitVec 32)
    (list : List ι) : LinearMemory :=
  list.foldl (fun mem i => mem.set shift (addr i) (val i)) mem

/-- The fields of a task state segment, as `switch_tss` reads them. -/
def tssImage (is32 : Bool) (base : TargetUlong) : TssImage :=
  if is32 then {
    cr3 := mem.long (base + 0x1c)
    eip := mem.long (base + 0x20)
    eflags := mem.long (base + 0x24)
    regs := fun i => mem.long (base + ofNat 32 (0x28 + i.val * 4))
    segs := fun i => mem.word (base + ofNat 32 (0x48 + i.val * 4))
    ldt := mem.word (base + 0x60) }
  else {
    cr3 := 0
    eip := mem.word (base + 0x0e)
    eflags := mem.word (base + 0x10)
    regs := fun i => mem.word (base + ofNat 32 (0x12 + i.val * 2)) ||| 0xffff0000
    segs := fun i => if i.val < 4 then mem.word (base + ofNat 32 (0x22 + i.val * 4)) else 0
    ldt := mem.word (base + 0x2a) }

/-- The registers that `switch_tss` saves. -/
def saveTask (is32 : Bool) (base nextEip eflags : BitVec 32) (regs : Fin 8 → BitVec 32)
    (selectors : SegReg → BitVec 32) : LinearMemory :=
  let mem := mem.set is32 (base + if is32 then 0x20 else 0x0e) nextEip
  let mem := mem.set is32 (base + if is32 then 0x24 else 0x10) eflags
  let mem := mem.setAll is32
    (fun i : Fin 8 => base + ofNat 32 (if is32 then 0x28 + i.val * 4 else 0x12 + i.val * 2))
    regs (List.finRange 8)
  mem.setAll false
    (fun i : SegReg => base + ofNat 32 (if is32 then 0x48 + i.val * 4 else 0x22 + i.val * 4))
    selectors ((List.finRange 6).take (if is32 then 6 else 4))

theorem write_self : write 1 mem addr (mem addr) = mem := by
  funext x
  by_cases here : x = addr
  · subst here
    have same : write 1 mem x (mem x) (x + ofNat 32 0) = _ :=
      write_inside (by decide : 0 < 1) (by decide)
    simpa using same
  · refine write_outside ?_
    intro i small
    obtain rfl : i = 0 := by omega
    simpa using here

end LinearMemory

/-! ## Accesses -/

namespace CPUX86State

variable (s : CPUX86State LinearMemory)

def tableOf (selector : BitVec 32) : SegmentCache := if has selector 0x4 then s.ldt else s.gdt

/-- The descriptor of a selector lies in its table. -/
def InTable (selector : BitVec 32) : Prop := ¬ (s.tableOf selector).limit < (selector &&& ~~~7) + 7

def descriptorOf (selector : BitVec 32) : Descriptor :=
  s.mem.descriptor ((s.tableOf selector).base + (selector &&& ~~~7))

end CPUX86State

section Accesses

variable {s : CPUX86State LinearMemory}

theorem achieves_loadSegmentOr {missing : X86Exception}
    {post : Descriptor → CPUX86State LinearMemory → Prop} :
    Achieves (loadSegmentOr selector missing) s post ↔
      s.InTable selector ∧ post (s.descriptorOf selector) s := by
  by_cases outside : (s.tableOf selector).limit < (selector &&& ~~~7) + 7
  · have none : s.loadSegment selector = .ok none := if_pos outside
    refine iff_of_false ?_ fun both => both.1 outside
    rintro ⟨d, after, run, -⟩
    simp only [loadSegmentOr, inspect, none] at run
    cases run
  · have found : s.loadSegment selector = .ok (some (s.descriptorOf selector)) := if_neg outside
    have run : (loadSegmentOr selector missing : Exec LinearMemory Descriptor) s =
        (.ok (s.descriptorOf selector), s) := by
      simp only [loadSegmentOr, inspect, found]
      rfl
    exact (achieves_of_ok run).trans (and_iff_right outside).symm

theorem achieves_store {shift : Bool} {addr : TargetUlong} {val : BitVec 32} :
    Achieves (store shift addr val) s post ↔ post () (s.setMem (s.mem.set shift addr val)) := by
  cases shift with
  | false | true => exact achieves_of_ok rfl

theorem achieves_updateDescriptor {update : BitVec 32 → BitVec 32} :
    Achieves (updateDescriptor selector update) s post ↔
      post () (s.setMem (s.mem.update (s.gdt.base + (selector &&& ~~~7) + 4) update)) :=
  achieves_of_ok rfl

/-- Reading two bytes and writing them back changes nothing. -/
theorem achieves_touches {first last : TargetUlong} :
    (Achieves (touch first) s fun writeFirst t =>
      Achieves (touch last) t fun writeLast t =>
        Achieves writeFirst t fun _ t => Achieves writeLast t post) ↔ post () s := by
  have touched : ∀ addr (post : Exec LinearMemory Unit → CPUX86State LinearMemory → Prop),
      Achieves (touch addr) s post ↔
        post (storeWith fun mem => KernelMemory.stb mem addr (s.mem addr)) s :=
    fun _ _ => achieves_of_ok rfl
  have written : ∀ addr (post : Unit → CPUX86State LinearMemory → Prop),
      Achieves (storeWith fun mem => KernelMemory.stb mem addr (s.mem addr)) s post ↔
        post () s := by
    intro addr post
    refine achieves_of_ok ?_
    have same : s.setMem (write 1 s.mem addr (s.mem addr)) = s := by
      rw [s.mem.write_self addr]
      rfl
    exact congrArg (Prod.mk (Outcome.ok ())) same
  rw [touched, touched, written, written]

theorem readAll_ok {n : Nat} (f : Fin n → BitVec 32) :
    readAll n (fun i => (.ok (f i) : Except X86Exception (BitVec 32))) = .ok f := by
  induction n with
  | zero =>
    refine congrArg Except.ok ?_
    funext i
    exact i.elim0
  | succ n ih =>
    rw [readAll, ih]
    exact congrArg Except.ok (Fin.cons_self_tail f)

theorem readTss32_eq (base : TargetUlong) : s.readTss32 base = .ok (s.mem.tssImage true base) := by
  have regs := readAll_ok fun i : Fin 8 => s.mem.long (base + ofNat 32 (0x28 + i.val * 4))
  have segs := readAll_ok fun i : SegReg => s.mem.word (base + ofNat 32 (0x48 + i.val * 4))
  have long : ∀ addr, s.loadSized true addr = .ok (s.mem.long addr) := fun _ => rfl
  have word : ∀ addr, s.loadSized false addr = .ok (s.mem.word addr) := fun _ => rfl
  simp only [readTss32, long, word]
  rw [regs, segs]
  rfl

theorem readTss16_eq (base : TargetUlong) : s.readTss16 base = .ok (s.mem.tssImage false base) := by
  have regs := readAll_ok fun i : Fin 8 => s.mem.word (base + ofNat 32 (0x12 + i.val * 2))
  have segs := readAll_ok fun i : Fin 4 => s.mem.word (base + ofNat 32 (0x22 + i.val * 4))
  have word : ∀ addr, s.loadSized false addr = .ok (s.mem.word addr) := fun _ => rfl
  simp only [readTss16, word]
  rw [regs, segs]
  rfl

theorem foldl_setMem (shift : Bool) (addr : ι → TargetUlong) (val : ι → BitVec 32) (list : List ι) :
    list.foldl (fun s i => s.setMem (s.mem.set shift (addr i) (val i))) s =
      s.setMem (s.mem.setAll shift addr val list) := by
  induction list generalizing s with
  | nil => rfl
  | cons i rest ih =>
    rw [foldl_cons, ih]
    rfl

theorem achieves_stores {shift : Bool} {addr : ι → TargetUlong} {val : ι → BitVec 32}
    {list : List ι} :
    Achieves (forEach (fun i => store shift (addr i) (val i)) list) s post ↔
      post () (s.setMem (s.mem.setAll shift addr val list)) := by
  have step : ∀ i (s : CPUX86State LinearMemory) (post : Unit → CPUX86State LinearMemory → Prop),
      Achieves (store shift (addr i) (val i)) s post ↔
        True ∧ post () (s.setMem (s.mem.set shift (addr i) (val i))) :=
    fun _ _ _ => achieves_store.trans (iff_of_eq (true_and _)).symm
  rw [achieves_forEach step fun _ _ _ => Iff.rfl, foldl_setMem]
  exact and_iff_right fun _ _ => trivial

theorem achieves_saveState {is32 : Bool} {eflags : BitVec 32} :
    Achieves (saveState is32 nextEip eflags) s post ↔
      post () (s.setMem (s.mem.saveTask is32 s.tr.base nextEip eflags s.regs
        fun i => (s.segs i).selector)) := by
  rw [saveState, achieves_bind, achieves_get]
  simp only [achieves_bind, achieves_store, achieves_stores, setMem_setMem]
  rfl

/-! ## Segments of the new task -/

namespace CPUX86State

section

variable (s : CPUX86State LinearMemory)

/-- A selector can be loaded from a task state segment, with a rule for the privilege of the code
segment. -/
def Admits (codeRule : Descriptor → BitVec 2 → Prop) (seg : SegReg)
    (selector : BitVec 32) : Prop :=
  if selector &&& 0xfffc = 0 then seg ≠ rSS ∧ seg ≠ rCS
  else
    let d := s.descriptorOf selector
    s.InTable selector ∧ has d.e2 descS = true ∧ d.present = true ∧
      (if seg = rCS then has d.e2 descCS = true ∧ codeRule d (rplOf selector)
      else if seg = rSS then
        has d.e2 descCS = false ∧ has d.e2 descW = true ∧ d.dpl = s.cpl ∧ d.dpl = rplOf selector
      else
        (has d.e2 descCS = true → has d.e2 descR = true) ∧
          (d.type < 12 → s.cpl ≤ d.dpl ∧ rplOf selector ≤ d.dpl))

/-- The checks of `tss_load_seg`. -/
def Accepts : SegReg → BitVec 32 → Prop := s.Admits fun d rpl => d.dpl = rpl

/-- The effect of `tss_load_seg`. -/
def loadTaskSeg (seg : SegReg) (selector : BitVec 32) : CPUX86State LinearMemory :=
  if selector &&& 0xfffc = 0 then s
  else s.loadSegCache seg ((s.descriptorOf selector).cache selector)

end

end CPUX86State

theorem achieves_tssLoadSeg :
    Achieves (tssLoadSeg seg selector) s post ↔
      s.Accepts seg selector ∧ post () (s.loadTaskSeg seg selector) := by
  rw [tssLoadSeg]
  simp only [Accepts, Admits, loadTaskSeg]
  by_cases null : selector &&& 0xfffc = 0
  · rw [if_neg (by simpa using null), if_pos null, if_pos null, achieves_throwIf, not_or]
  · rw [if_pos null, if_neg null, if_neg null, achieves_bind, achieves_loadSegmentOr]
    by_cases isCs : seg = rCS
    · simp only [isCs, if_true, achieves_bind, achieves_throwIf, achieves_get,
        achieves_modify, Bool.not_eq_false, ne_eq, not_not]
      constructor
      · rintro ⟨inTable, segment, code, level, -, present, holds⟩
        exact ⟨⟨inTable, segment, present, code, level⟩, holds⟩
      · rintro ⟨⟨inTable, segment, present, code, level⟩, holds⟩
        refine ⟨inTable, segment, code, level, ?_, present, holds⟩
        rintro ⟨-, higher⟩
        exact BitVec.lt_irrefl _ (level ▸ higher)
    · by_cases isSs : seg = rSS
      · simp only [isSs, if_true, if_neg (by decide : ¬ rSS = rCS), achieves_bind,
          achieves_throwIf, achieves_get, achieves_modify, Bool.not_eq_false, ne_eq,
          not_or, not_not, Bool.not_eq_true]
        constructor
        · rintro ⟨inTable, segment, ⟨data, writable⟩, ⟨cpl, rpl⟩, present, holds⟩
          exact ⟨⟨inTable, segment, present, data, writable, cpl, rpl⟩, holds⟩
        · rintro ⟨⟨inTable, segment, present, data, writable, cpl, rpl⟩, holds⟩
          exact ⟨inTable, segment, ⟨data, writable⟩, ⟨cpl, rpl⟩, present, holds⟩
      · simp only [if_neg isCs, if_neg isSs, achieves_bind, achieves_throwIf,
          achieves_get, achieves_modify, Bool.not_eq_false, not_and, not_or,
          not_lt]
        constructor
        · rintro ⟨inTable, segment, readable, rights, present, holds⟩
          exact ⟨⟨inTable, segment, present, readable, rights⟩, holds⟩
        · rintro ⟨⟨inTable, segment, present, readable, rights⟩, holds⟩
          exact ⟨inTable, segment, readable, rights, present, holds⟩

namespace CPUX86State

/-- The checks of the new local descriptor table. -/
def AcceptsLdt (s : CPUX86State LinearMemory) (newLdt : BitVec 32) : Prop :=
  has newLdt 4 = false ∧ (newLdt &&& 0xfffc ≠ 0 →
    let d := s.mem.descriptor (s.gdt.base + (newLdt &&& ~~~7))
    ¬ s.gdt.limit < (newLdt &&& ~~~7) + 7 ∧ has d.e2 descS = false ∧ d.type = 2 ∧ d.present = true)

/-- The local descriptor table of the new task. -/
def loadLdt (s : CPUX86State LinearMemory) (newLdt : BitVec 32) : CPUX86State LinearMemory :=
  if newLdt &&& 0xfffc = 0 then s
  else { s with ldt := (s.mem.descriptor (s.gdt.base + (newLdt &&& ~~~7))).cache s.ldt.selector }

end CPUX86State

theorem achieves_loadTaskLdt {newLdt : BitVec 32} :
    Achieves (loadTaskLdt newLdt) s post ↔
      s.AcceptsLdt newLdt ∧ post () (s.loadLdt newLdt) := by
  rw [loadTaskLdt]
  simp only [AcceptsLdt, loadLdt]
  by_cases null : newLdt &&& 0xfffc = 0
  · simp only [null, ne_eq, not_true, if_true, if_false, achieves_bind,
      achieves_throwIf, achieves_pure, false_implies, and_true, Bool.not_eq_true]
  · have inspect : ∀ (post : Descriptor → CPUX86State LinearMemory → Prop),
        Achieves (inspect fun s => s.descriptorAt (s.gdt.base + (newLdt &&& ~~~7))) s post ↔
          post (s.mem.descriptor (s.gdt.base + (newLdt &&& ~~~7))) s :=
      fun post => achieves_of_ok rfl
    simp only [null, ne_eq, not_false_eq_true, if_true, if_false, achieves_bind,
      achieves_throwIf, achieves_get, inspect, achieves_modify, Bool.not_eq_true,
      Bool.not_eq_false, not_or, not_not, true_implies]
    constructor
    · rintro ⟨global, inTable, ⟨system, type⟩, present, holds⟩
      exact ⟨⟨global, inTable, system, type, present⟩, holds⟩
    · rintro ⟨⟨global, inTable, system, type, present⟩, holds⟩
      exact ⟨global, inTable, ⟨system, type⟩, present, holds⟩

/-! ## The switch -/

/-- The order in which the segments of the new task are loaded. -/
def taskSegs : List SegReg := [rCS, rSS, rES, rDS, rFS, rGS]

theorem mem_taskSegs : ∀ seg, seg ∈ taskSegs := by decide

namespace CPUX86State

section

variable (s : CPUX86State LinearMemory)

/-- Memory after a switch by a jump: the old task is not busy and saved, the new one is busy. -/
def switchedMem (tssSelector : BitVec 32) (is32 : Bool) (nextEip : BitVec 32) : LinearMemory :=
  let mem := s.mem.update (s.gdt.base + (s.tr.selector &&& ~~~7) + 4) (· &&& ~~~descTssBusy)
  let mem := mem.saveTask is32 s.tr.base nextEip s.computeEflags s.regs
    fun i => (s.segs i).selector
  mem.update (s.gdt.base + (tssSelector &&& ~~~7) + 4) (· ||| descTssBusy)

/-- The state in which the segments of the new task are checked. -/
def entered (tssSelector : BitVec 32) (d : Descriptor) (nextEip : BitVec 32) : CPUX86State LinearMemory :=
  let image := s.mem.tssImage (is386 d.e2) d.base
  ((s.setMem (s.switchedMem tssSelector (is386 d.e2) nextEip)).loadTask tssSelector d
    (is386 d.e2) image)

/-- The state after the segments of the new task were loaded. -/
def settled (image : TssImage) : CPUX86State LinearMemory :=
  taskSegs.foldl (fun s seg => s.loadTaskSeg seg (image.segs seg)) (s.loadLdt image.ldt)

/-- The state in which the new task starts. -/
def arrived (image : TssImage) : CPUX86State LinearMemory :=
  { s.settled image with dr7 := (s.settled image).dr7 &&& ~~~0x55 }

end

end CPUX86State

theorem achieves_loadTaskSegs {image : TssImage} :
    Achieves (loadTaskSegs image) s post ↔
      (∀ seg, s.Accepts seg (image.segs seg)) ∧
        post () (taskSegs.foldl (fun s seg => s.loadTaskSeg seg (image.segs seg)) s) := by
  -- segment loads do not change what the other loads look at
  rw [loadTaskSegs, achieves_forEach (fun _ _ _ => achieves_tssLoadSeg)
    fun _ _ _ => by rw [loadTaskSeg]; split <;> exact Iff.rfl]
  exact and_congr_left fun _ => ⟨fun all seg => all seg (mem_taskSegs seg), fun all seg _ => all seg⟩

theorem achieves_switchTss {d : Descriptor} {image : TssImage} (direct : d.type ≠ 5)
    (isImage : s.mem.tssImage (is386 d.e2) d.base = image)
    (protectedMode : has image.eflags vmMask = false) :
    Achieves (switchTss tssSelector d .jmp nextEip) s post ↔
      d.present = true ∧ has tssSelector 4 = false ∧
      d.limit.slt (tssLimitMax (is386 d.e2)) = false ∧
      (s.entered tssSelector d nextEip).AcceptsLdt image.ldt ∧
      (∀ seg, ((s.entered tssSelector d nextEip).loadLdt image.ldt).Accepts seg (image.segs seg)) ∧
      image.eip ≤ (((s.entered tssSelector d nextEip).settled image).segs rCS).limit ∧
      post () ((s.entered tssSelector d nextEip).arrived image) := by
  have descriptor : ∀ post,
      Achieves (tssDescriptor tssSelector d) s post ↔ post (tssSelector, d) s := by
    intro post
    rw [tssDescriptor, if_neg direct]
    exact achieves_pure
  have read : ∀ post,
      Achieves (inspect fun s =>
        if is386 d.e2 then s.readTss32 d.base else s.readTss16 d.base) s post ↔ post image s := by
    intro post
    refine achieves_of_ok ?_
    rw [inspect]
    cases is32 : is386 d.e2 with
    | false => simp only [Bool.false_eq_true, if_false, readTss16_eq, ← isImage, is32]
    | true => simp only [if_true, readTss32_eq, ← isImage, is32]
  rw [switchTss, achieves_bind, descriptor]
  simp only [achieves_bind, achieves_throwIf, achieves_get, read, achieves_touches,
    reduceCtorEq, or_false, if_true, if_false, achieves_updateDescriptor, achieves_saveState,
    achieves_loadTaskLdt, protectedMode, achieves_loadTaskSegs, achieves_modify, not_or,
    Bool.not_eq_false, Bool.not_eq_true, not_lt, and_assoc]
  rw [entered, isImage]
  rfl

/-- In the 16-bit format the stack segment and the local descriptor table are read from the same
place, so no such task can be entered. -/
theorem not_achieves_switchTss16 {d : Descriptor} (direct : d.type ≠ 5)
    (is16 : is386 d.e2 = false) :
    ¬ Achieves (switchTss tssSelector d .jmp nextEip) s post := by
  have protectedMode : has (s.mem.tssImage (is386 d.e2) d.base).eflags vmMask = false := by
    rw [is16, has_vmMask]
    change ((read 2 s.mem (d.base + 0x10)).setWidth 32).getLsbD 17 = false
    rw [BitVec.getLsbD_setWidth, BitVec.getLsbD_of_ge _ _ (by decide), Bool.and_false]
  have sameField : (s.mem.tssImage (is386 d.e2) d.base).segs rSS =
      (s.mem.tssImage (is386 d.e2) d.base).ldt := by
    rw [is16]
    rfl
  rw [achieves_switchTss direct rfl protectedMode]
  rintro ⟨-, -, -, ldt, segs, -⟩
  have stack := segs rSS
  rw [sameField] at stack
  rw [Accepts, Admits] at stack
  split at stack
  · exact stack.1 rfl
  · next nonnull =>
    obtain ⟨-, segment, -⟩ := stack
    obtain ⟨-, system, -⟩ := ldt.2 nonnull
    rw [descriptorOf, tableOf, loadLdt, if_neg nonnull,
      if_neg (by rw [ldt.1]; decide)] at segment
    rw [system] at segment
    cases segment

end Accesses

/-! ## The new state -/

namespace CPUX86State

def taskFlags (is32 : Bool) : BitVec 32 :=
  let mask := tfMask ||| acMask ||| idMask ||| ifMask ||| ioplMask ||| vmMask ||| rfMask ||| ntMask
  if is32 then mask else mask &&& 0xffff

/-- Only segment caches and hidden flags other than the privilege level differ. -/
structure SegsOnly (s t : CPUX86State LinearMemory) : Prop where
  rest : { t with segs := s.segs, hflags := s.hflags } = s
  cpl : t.cpl = s.cpl

namespace SegsOnly

variable {s t u : CPUX86State LinearMemory}

theorem refl (s : CPUX86State LinearMemory) : SegsOnly s s := ⟨rfl, rfl⟩

theorem trans (first : SegsOnly s t) (second : SegsOnly t u) : SegsOnly s u := by
  refine ⟨?_, second.cpl.trans first.cpl⟩
  have step := congrArg (fun v => { v with segs := s.segs, hflags := s.hflags }) second.rest
  exact step.trans first.rest

theorem loadSegCache (s : CPUX86State LinearMemory) (seg : SegReg) (cache : SegmentCache) :
    SegsOnly s (s.loadSegCache seg cache) := ⟨rfl, rfl⟩

theorem loadTaskSeg (s : CPUX86State LinearMemory) (seg : SegReg) (selector : BitVec 32) :
    SegsOnly s (s.loadTaskSeg seg selector) := by
  rw [CPUX86State.loadTaskSeg]
  split
  · exact refl s
  · exact loadSegCache ..

theorem foldl {step : CPUX86State LinearMemory → ι → CPUX86State LinearMemory}
    (each : ∀ s i, SegsOnly s (step s i)) (list : List ι) (s : CPUX86State LinearMemory) :
    SegsOnly s (list.foldl step s) := by
  induction list generalizing s with
  | nil => exact refl s
  | cons i rest ih => exact (each s i).trans (ih (step s i))

end SegsOnly

theorem foldl_loadSegCache_segs (cache : SegReg → SegmentCache) (list : List SegReg)
    (s : CPUX86State LinearMemory) (member : seg ∈ list ∨ s.segs seg = cache seg) :
    (list.foldl (fun s i => s.loadSegCache i (cache i)) s).segs seg = cache seg := by
  induction list generalizing s with
  | nil => exact member.resolve_left (not_mem_nil)
  | cons i rest ih =>
    apply ih
    rw [loadSegCache_segs]
    by_cases here : seg = i
    · right
      rw [here, update_self]
    · rw [update_of_ne here]
      exact member.imp_left fun inList => (mem_cons.mp inList).resolve_left here

/-- What a task switch makes of a state. -/
structure Enters (s : CPUX86State LinearMemory) (tssSelector : BitVec 32) (d : Descriptor)
    (image : TssImage) (t : CPUX86State LinearMemory) : Prop where
  gdt : t.gdt = s.gdt
  tr : t.tr = ⟨tssSelector, d.base, d.limit, d.e2 &&& ~~~descTssBusy⟩
  regs : t.regs = image.regs
  eip : t.eip = image.eip
  eflags : t.eflags = (s.eflags &&& ~~~taskFlags (is386 d.e2)) |||
    (image.eflags &&& taskFlags (is386 d.e2)) ||| 0x2
  ccSrc : t.ccSrc = image.eflags &&& (ccO ||| ccS ||| ccZ ||| ccA ||| ccP ||| ccC)
  df : t.df = 1 - (2 * ((image.eflags >>> 10) &&& 1))
  cpl : t.cpl = rplOf (image.segs rCS)
  selectors : ∀ seg, (t.segs seg).selector = image.segs seg
  ldtSelector : t.ldt.selector = image.ldt &&& ~~~4

variable {s : CPUX86State LinearMemory} {tssSelector nextEip : BitVec 32} {d : Descriptor}
  {image : TssImage}

def loadRegs (s : CPUX86State LinearMemory) (tssSelector : BitVec 32) (d : Descriptor)
    (image : TssImage) : CPUX86State LinearMemory :=
  let s := { s with
    cr0 := s.cr0 ||| cr0TS
    hflags := { s.hflags with ts := true }
    tr := ⟨tssSelector, d.base, d.limit, d.e2 &&& ~~~descTssBusy⟩ }
  let s :=
    if is386 d.e2 ∧ has s.cr0 cr0PG = true then { s with cr3 := image.cr3 } else s
  let s := { s with eip := image.eip }.loadEflags image.eflags (taskFlags (is386 d.e2))
  { s with regs := image.regs }.setCpl (rplOf (image.segs rCS))

theorem loadTask_eq (protectedMode : has image.eflags vmMask = false) :
    s.loadTask tssSelector d (is386 d.e2) image =
      { (finRange 6).foldl (fun s i => s.loadSegCache i ⟨image.segs i, 0, 0, 0⟩)
          (s.loadRegs tssSelector d image) with ldt := ⟨image.ldt &&& ~~~4, 0, 0, 0⟩ } := by
  simp only [loadTask, protectedMode, Bool.false_eq_true, if_false, loadRegs]
  split <;> rfl

theorem loadRegs_frame :
    let t := s.loadRegs tssSelector d image
    t.mem = s.mem ∧ t.gdt = s.gdt ∧
      t.tr = ⟨tssSelector, d.base, d.limit, d.e2 &&& ~~~descTssBusy⟩ ∧
      t.eflags = (s.eflags &&& ~~~taskFlags (is386 d.e2)) |||
        (image.eflags &&& taskFlags (is386 d.e2)) ||| 0x2 := by
  simp only [loadRegs]
  split <;> exact ⟨rfl, rfl, rfl, rfl⟩

theorem enters_loadTask (protectedMode : has image.eflags vmMask = false) :
    s.Enters tssSelector d image (s.loadTask tssSelector d (is386 d.e2) image) := by
  rw [loadTask_eq protectedMode]
  have only := SegsOnly.foldl (fun s i => SegsOnly.loadSegCache s i ⟨image.segs i, 0, 0, 0⟩)
    (finRange 6) (s.loadRegs tssSelector d image)
  have loaded : ∀ seg, _ := fun seg => foldl_loadSegCache_segs (fun i => ⟨image.segs i, 0, 0, 0⟩)
    (finRange 6) (s.loadRegs tssSelector d image) (.inl (mem_finRange seg))
  generalize (finRange 6).foldl (fun s i => s.loadSegCache i ⟨image.segs i, 0, 0, 0⟩)
    (s.loadRegs tssSelector d image) = t at only loaded
  have kept := only.rest
  constructor
  case gdt => exact (congrArg (·.gdt) kept).trans loadRegs_frame.2.1
  case tr => exact (congrArg (·.tr) kept).trans loadRegs_frame.2.2.1
  case regs => exact congrArg (·.regs) kept
  case eip => exact congrArg (·.eip) kept
  case eflags => exact (congrArg (·.eflags) kept).trans loadRegs_frame.2.2.2
  case ccSrc => exact congrArg (·.ccSrc) kept
  case df => exact congrArg (·.df) kept
  case cpl => exact only.cpl
  case selectors => exact fun seg => congrArg SegmentCache.selector (loaded seg)
  case ldtSelector => rfl

theorem loadTask_mem (protectedMode : has image.eflags vmMask = false) :
    (s.loadTask tssSelector d (is386 d.e2) image).mem = s.mem := by
  rw [loadTask_eq protectedMode]
  have only := SegsOnly.foldl (fun s i => SegsOnly.loadSegCache s i ⟨image.segs i, 0, 0, 0⟩)
    (finRange 6) (s.loadRegs tssSelector d image)
  exact (congrArg (·.mem) only.rest).trans loadRegs_frame.1

namespace Enters

variable {t : CPUX86State LinearMemory}

section

variable (enters : s.Enters tssSelector d image t)

include enters

theorem loadLdt (newLdt : BitVec 32) : s.Enters tssSelector d image (t.loadLdt newLdt) := by
  rw [CPUX86State.loadLdt]
  split
  · exact enters
  · exact { enters with }

theorem loadTaskSeg (seg : SegReg) :
    s.Enters tssSelector d image (t.loadTaskSeg seg (image.segs seg)) := by
  rw [CPUX86State.loadTaskSeg]
  split
  · exact enters
  · refine { enters with selectors := fun seg' => ?_ }
    rw [loadSegCache_segs]
    by_cases here : seg' = seg
    · rw [here, update_self]
      rfl
    · rw [update_of_ne here]
      exact enters.selectors seg'

theorem settled : s.Enters tssSelector d image (t.settled image) := by
  rw [CPUX86State.settled]
  have start := enters.loadLdt image.ldt
  generalize t.loadLdt image.ldt = u at start
  induction taskSegs generalizing u with
  | nil => exact start
  | cons seg rest ih => exact ih _ (start.loadTaskSeg seg)

end

end Enters

theorem loadLdt_mem (newLdt : BitVec 32) : (s.loadLdt newLdt).mem = s.mem := by
  rw [loadLdt]
  split <;> rfl

theorem loadLdt_gdt (newLdt : BitVec 32) : (s.loadLdt newLdt).gdt = s.gdt := by
  rw [loadLdt]
  split <;> rfl

theorem loadLdt_cpl (newLdt : BitVec 32) : (s.loadLdt newLdt).cpl = s.cpl := by
  rw [loadLdt]
  split <;> rfl

theorem settled_mem : (s.settled image).mem = s.mem := by
  have only := SegsOnly.foldl (fun s seg => SegsOnly.loadTaskSeg s seg (image.segs seg)) taskSegs
    (s.loadLdt image.ldt)
  exact (congrArg (·.mem) only.rest).trans (loadLdt_mem image.ldt)

section

variable (isImage : s.mem.tssImage (is386 d.e2) d.base = image)
  (protectedMode : has image.eflags vmMask = false)

include isImage protectedMode

theorem enters_entered : s.Enters tssSelector d image (s.entered tssSelector d nextEip) := by
  rw [entered, isImage]
  exact { enters_loadTask protectedMode with }

theorem enters_arrived :
    s.Enters tssSelector d image ((s.entered tssSelector d nextEip).arrived image) :=
  { (enters_entered isImage protectedMode).settled with }

theorem entered_mem :
    (s.entered tssSelector d nextEip).mem = s.switchedMem tssSelector (is386 d.e2) nextEip := by
  rw [entered, isImage, loadTask_mem protectedMode]
  rfl

theorem entered_ldt : (s.entered tssSelector d nextEip).ldt = ⟨image.ldt &&& ~~~4, 0, 0, 0⟩ := by
  rw [entered, isImage, loadTask_eq protectedMode]

theorem arrived_mem :
    ((s.entered tssSelector d nextEip).arrived image).mem =
      s.switchedMem tssSelector (is386 d.e2) nextEip :=
  settled_mem.trans (entered_mem isImage protectedMode)

end

theorem foldl_loadTaskSeg_other (list : List SegReg) (absent : seg ∉ list)
    (s : CPUX86State LinearMemory) :
    (list.foldl (fun s seg => s.loadTaskSeg seg (image.segs seg)) s).segs seg = s.segs seg := by
  induction list generalizing s with
  | nil => rfl
  | cons first rest ih =>
    rw [mem_cons, not_or] at absent
    obtain ⟨other, later⟩ := absent
    rw [foldl_cons, ih later, loadTaskSeg]
    split
    · rfl
    · rw [loadSegCache_segs, update_of_ne other]

/-- The code segment is loaded first, and nothing else is loaded into its register. -/
theorem settled_cs (nonnull : image.segs rCS &&& 0xfffc ≠ 0) :
    ((s.settled image).segs rCS) =
      ((s.loadLdt image.ldt).descriptorOf (image.segs rCS)).cache (image.segs rCS) := by
  rw [settled, taskSegs, foldl_cons, foldl_loadTaskSeg_other _ (by decide), loadTaskSeg,
    if_neg nonnull, loadSegCache_segs, update_self]

end CPUX86State

/-! ## Far jumps to a task -/

theorem achieves_ljmpTask {s : CPUX86State LinearMemory} {newCs newEip addend : BitVec 32}
    (system : has (s.descriptorOf newCs).e2 descS = false)
    (task : (s.descriptorOf newCs).isTask = true) :
    Achieves (helperLjmpProtected newCs newEip addend) s post ↔
      newCs &&& 0xfffc ≠ 0 ∧ s.InTable newCs ∧ s.cpl ≤ (s.descriptorOf newCs).dpl ∧
      rplOf newCs ≤ (s.descriptorOf newCs).dpl ∧
      Achieves (switchTss newCs (s.descriptorOf newCs) .jmp (s.eip + addend)) s fun _ t =>
        post () { t with ccOp := CcOp.eflags.code } := by
  rw [helperLjmpProtected]
  simp only [achieves_bind, achieves_throwIf, achieves_loadSegmentOr, achieves_get,
    system, task, Bool.false_eq_true, if_false, if_true, achieves_modify, not_or,
    not_lt, and_assoc, ne_eq]

end Qemu.I386
