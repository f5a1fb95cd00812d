import Qemu.I386.Segment

/-!
# Task switches

`switch_tss` and `tss_load_seg` of `target-i386/op_helper.c`.
-/

namespace Qemu.I386

open Prog

/-- `SWITCH_TSS_JMP`, `SWITCH_TSS_IRET` and `SWITCH_TSS_CALL`. -/
inductive SwitchSource where
  | jmp
  | iret
  | call
  deriving DecidableEq, Repr

/-- What is read from the new task state segment. -/
structure TssImage where
  cr3 : BitVec 32
  eip : BitVec 32
  eflags : BitVec 32
  regs : Fin 8 → BitVec 32
  segs : SegReg → BitVec 32
  ldt : BitVec 32

/-- The first fault of a list of reads, or all their results. -/
def readAll {ε α : Type} : (n : Nat) → (Fin n → Except ε α) → Except ε (Fin n → α)
  | 0, _ => .ok nofun
  | n + 1, reads => do
      let first ← reads 0
      let rest ← readAll n fun i => reads i.succ
      pure (Fin.cons first rest)

section

variable {M : Type} [KernelMemory M]

namespace CPUX86State

/-- The 32-bit format of a task state segment. -/
def readTss32 (s : CPUX86State M) (base : TargetUlong) : Except X86Exception TssImage := do
  let cr3 ← s.loadSized true (base + 0x1c)
  let eip ← s.loadSized true (base + 0x20)
  let eflags ← s.loadSized true (base + 0x24)
  let regs ← readAll 8 fun i => s.loadSized true (base + BitVec.ofNat 32 (0x28 + i.val * 4))
  let segs ← readAll 6 fun i => s.loadSized false (base + BitVec.ofNat 32 (0x48 + i.val * 4))
  let ldt ← s.loadSized false (base + 0x60)
  let _ ← s.loadSized true (base + 0x64)
  pure { cr3, eip, eflags, regs, segs, ldt }

/-- The 16-bit format, with the offsets of the source. -/
def readTss16 (s : CPUX86State M) (base : TargetUlong) : Except X86Exception TssImage := do
  let eip ← s.loadSized false (base + 0x0e)
  let eflags ← s.loadSized false (base + 0x10)
  let regs ← readAll 8 fun i => s.loadSized false (base + BitVec.ofNat 32 (0x12 + i.val * 2))
  let segs ← readAll 4 fun i => s.loadSized false (base + BitVec.ofNat 32 (0x22 + i.val * 4))
  let ldt ← s.loadSized false (base + 0x2a)
  pure {
    cr3 := 0, eip, eflags, ldt
    regs := fun i => regs i ||| 0xffff0000
    segs := fun i => if in4 : i.val < 4 then segs ⟨i.val, in4⟩ else 0 }

end CPUX86State

def tssLoadSeg (segReg : SegReg) (selector : BitVec 32) : Exec M Unit := do
  let invalid := selectorError .tss selector
  if selector &&& 0xfffc ≠ 0 then
    let d ← loadSegmentOr selector invalid
    throwIf (has d.e2 descS = false) invalid
    let s ← get
    let rpl := rplOf selector
    if segReg = rCS then
      throwIf (has d.e2 descCS = false) invalid
      throwIf (d.dpl ≠ rpl) invalid
      throwIf (d.conforming = true ∧ rpl < d.dpl) invalid
    else if segReg = rSS then
      throwIf (has d.e2 descCS = true ∨ has d.e2 descW = false) invalid
      throwIf (d.dpl ≠ s.cpl ∨ d.dpl ≠ rpl) invalid
    else
      throwIf (has d.e2 descCS = true ∧ has d.e2 descR = false) invalid
      throwIf (d.type < 12 ∧ (d.dpl < s.cpl ∨ d.dpl < rpl)) invalid
    throwIf (d.present = false) (selectorError .noseg selector)
    modify fun s => s.loadSegCache segReg (d.cache selector)
  else
    throwIf (segReg = rSS ∨ segReg = rCS) invalid

/-- The selector and the descriptor of the new task, through a task gate if there is one. -/
def tssDescriptor (tssSelector : BitVec 32) (d : Descriptor) : Exec M (BitVec 32 × Descriptor) := do
  if d.type = 5 then
    throwIf (d.present = false) (selectorError .noseg tssSelector)
    let tssSelector := d.e1 >>> 16
    throwIf (has tssSelector 4 = true) (selectorError .tss tssSelector)
    let d ← loadSegmentOr tssSelector (selectorError .gpf tssSelector)
    throwIf (has d.e2 descS = true) (selectorError .gpf tssSelector)
    throwIf (d.type % 8 ≠ 1) (selectorError .gpf tssSelector)
    pure (tssSelector, d)
  else pure (tssSelector, d)

def tssLimitMax (is32 : Bool) : BitVec 32 := if is32 then 103 else 43

/-- `type & 8`: the 386 form of a task state segment or a gate. -/
def is386 (e2 : BitVec 32) : Bool := e2.getLsbD 11

/-- A byte is read and written back, so that a fault comes before the first change. -/
def touch (addr : TargetUlong) : Exec M (Exec M Unit) := do
  let val ← inspect fun s => KernelMemory.ldub s.mem addr
  pure (storeWith fun mem => KernelMemory.stb mem addr val)

/-- Change the second word of a descriptor of the global table. -/
def updateDescriptor (selector : BitVec 32) (update : BitVec 32 → BitVec 32) : Exec M Unit := do
  let s ← get
  let ptr := s.gdt.base + (selector &&& ~~~7)
  let e2 ← load true (ptr + 4)
  store true (ptr + 4) (update e2)

/-- Save the registers in the old task state segment, in the format of the new one. -/
def saveState (is32 : Bool) (nextEip oldEflags : BitVec 32) : Exec M Unit := do
  let s ← get
  let base := s.tr.base
  store is32 (base + if is32 then 0x20 else 0x0e) nextEip
  store is32 (base + if is32 then 0x24 else 0x10) oldEflags
  forEach (fun i : Fin 8 =>
    store is32 (base + BitVec.ofNat 32 (if is32 then 0x28 + i.val * 4 else 0x12 + i.val * 2))
      (s.regs i)) (List.finRange 8)
  forEach (fun i : SegReg =>
    store false (base + BitVec.ofNat 32 (if is32 then 0x48 + i.val * 4 else 0x22 + i.val * 4))
      (s.segs i).selector) ((List.finRange 6).take (if is32 then 6 else 4))

namespace CPUX86State

/-- The registers of the new task, with selectors that are not checked yet. -/
def loadTask (s : CPUX86State M) (tssSelector : BitVec 32) (d : Descriptor) (is32 : Bool)
    (image : TssImage) : CPUX86State M :=
  let s := { s with
    cr0 := s.cr0 ||| cr0TS
    hflags := { s.hflags with ts := true }
    tr := ⟨tssSelector, d.base, d.limit, d.e2 &&& ~~~descTssBusy⟩ }
  let s :=
    if is32 ∧ has s.cr0 cr0PG = true then
      { s with cr3 := image.cr3, mem := KernelMemory.updateCr3 s.mem image.cr3 }
    else s
  let mask := tfMask ||| acMask ||| idMask ||| ifMask ||| ioplMask ||| vmMask ||| rfMask ||| ntMask
  let s := { s with eip := image.eip }.loadEflags image.eflags
    (if is32 then mask else mask &&& 0xffff)
  let s := { s with regs := image.regs }
  let s :=
    if has image.eflags vmMask then
      ((List.finRange 6).foldl (fun s i => s.loadSegVm i (image.segs i)) s).setCpl 3
    else
      (List.finRange 6).foldl (fun s i => s.loadSegCache i ⟨image.segs i, 0, 0, 0⟩)
        (s.setCpl (rplOf (image.segs rCS)))
  { s with ldt := ⟨image.ldt &&& ~~~4, 0, 0, 0⟩ }

end CPUX86State

/-- Load the local descriptor table of the new task. -/
def loadTaskLdt (newLdt : BitVec 32) : Exec M Unit := do
  let invalid := selectorError .tss newLdt
  throwIf (has newLdt 4 = true) invalid
  if newLdt &&& 0xfffc ≠ 0 then
    let s ← get
    let index := newLdt &&& ~~~7
    throwIf (s.gdt.limit < index + 7) invalid
    let d ← inspect fun s => s.descriptorAt (s.gdt.base + index)
    throwIf (has d.e2 descS = true ∨ d.type ≠ 2) invalid
    throwIf (d.present = false) invalid
    modify fun s => { s with ldt := d.cache s.ldt.selector }

def loadTaskSegs (image : TssImage) : Exec M Unit :=
  forEach (fun seg => tssLoadSeg seg (image.segs seg)) [rCS, rSS, rES, rDS, rFS, rGS]

def switchTss (tssSelector : BitVec 32) (d : Descriptor) (source : SwitchSource)
    (nextEip : BitVec 32) : Exec M Unit := do
  let (tssSelector, d) ← tssDescriptor tssSelector d
  throwIf (d.present = false) (selectorError .noseg tssSelector)
  let is32 := is386 d.e2
  throwIf (has tssSelector 4 = true ∨ d.limit.slt (tssLimitMax is32) = true)
    (selectorError .tss tssSelector)
  let s ← get
  let image ← inspect fun s => if is32 then s.readTss32 d.base else s.readTss16 d.base
  let writeFirst ← touch s.tr.base
  let writeLast ← touch (s.tr.base + tssLimitMax (is386 s.tr.flags))
  writeFirst
  writeLast
  if source = .jmp ∨ source = .iret then
    updateDescriptor s.tr.selector (· &&& ~~~descTssBusy)
  let oldEflags := if source = .iret then s.computeEflags &&& ~~~ntMask else s.computeEflags
  saveState is32 nextEip oldEflags
  if source = .call then store false d.base s.tr.selector
  let image :=
    if source = .call then { image with eflags := image.eflags ||| ntMask } else image
  if source = .jmp ∨ source = .call then
    updateDescriptor tssSelector (· ||| descTssBusy)
  modify fun s => s.loadTask tssSelector d is32 image
  loadTaskLdt image.ldt
  if has image.eflags vmMask = false then loadTaskSegs image
  let s ← get
  throwIf ((s.segs rCS).limit < image.eip) ⟨.gpf, 0⟩
  modify fun s => { s with dr7 := s.dr7 &&& ~~~0x55 }

end

end Qemu.I386
