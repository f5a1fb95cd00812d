import Qemu.I386.TaskSwitch

/-!
# Far control transfers

Protected-mode far jumps, calls and returns and the delivery of interrupts, from
`target-i386/op_helper.c`.
-/

namespace Qemu.I386

open Prog

section

variable {M : Type} [KernelMemory M] (d : Descriptor)

/-- The descriptor types of an available task state segment and of a task gate. -/
def Descriptor.isTask : Bool := d.type == 1 || d.type == 9 || d.type == 5

/-- The descriptor types of a 286 and a 386 call gate. -/
def Descriptor.isCallGate : Bool := d.type == 4 || d.type == 12

/-- `(e2 >> DESC_TYPE_SHIFT) & 0x1f`. -/
def Descriptor.type5 : Nat := (d.e2.extractLsb' 8 5).toNat

/-- The descriptor types of 286 and 386 interrupt and trap gates. -/
def Descriptor.isInterruptGate : Bool :=
  d.type5 == 6 || d.type5 == 7 || d.type5 == 14 || d.type5 == 15

/-- The limit of privilege for a direct transfer to a code segment. -/
def checkDirect (newCs : BitVec 32) (cpl : BitVec 2) : Exec M Unit := do
  let invalid := selectorError .gpf newCs
  throwIf (has d.e2 descCS = false) invalid
  if d.conforming then throwIf (cpl < d.dpl) invalid
  else do
    throwIf (cpl < rplOf newCs) invalid
    throwIf (d.dpl ≠ cpl) invalid
  throwIf (d.present = false) (selectorError .noseg newCs)

/-- `(selector & 0xfffc) | cpl`. -/
def withRpl (selector : BitVec 32) (cpl : BitVec 2) : BitVec 32 :=
  (selector &&& 0xfffc) ||| cpl.setWidth 32

/-- `(selector & ~3) | dpl`. -/
def replaceRpl (selector : BitVec 32) (dpl : BitVec 2) : BitVec 32 :=
  (selector &&& ~~~3) ||| dpl.setWidth 32

/-- The jump through a call gate. -/
def ljmpGate (gate : Descriptor) (newCs : BitVec 32) (cpl : BitVec 2) : Exec M Unit := do
  throwIf (gate.dpl < cpl ∨ gate.dpl < rplOf newCs) (selectorError .gpf newCs)
  throwIf (gate.present = false) (selectorError .noseg newCs)
  let gateCs := gate.e1 >>> 16
  let invalid := selectorError .gpf gateCs
  let newEip := (gate.e1 &&& 0xffff) ||| (if gate.type = 12 then gate.e2 &&& 0xffff0000 else 0)
  let d ← loadSegmentOr gateCs invalid
  throwIf (d.isCode = false) invalid
  throwIf ((d.conforming = true ∧ cpl < d.dpl) ∨ (d.conforming = false ∧ d.dpl ≠ cpl)) invalid
  throwIf (d.present = false) invalid
  throwIf (d.limit < newEip) ⟨.gpf, 0⟩
  modify fun s => { s.loadSegCache rCS (d.cache (withRpl gateCs cpl)) with eip := newEip }

def helperLjmpProtected (newCs newEip nextEipAddend : BitVec 32) : Exec M Unit := do
  let invalid := selectorError .gpf newCs
  throwIf (newCs &&& 0xfffc = 0) ⟨.gpf, 0⟩
  let d ← loadSegmentOr newCs invalid
  let s ← get
  if has d.e2 descS then
    checkDirect d newCs s.cpl
    throwIf (d.limit < newEip ∧ has d.e2 descL = false) invalid
    modify fun s => { s.loadSegCache rCS (d.cache (withRpl newCs s.cpl)) with eip := newEip }
  else if d.isTask then
    throwIf (d.dpl < s.cpl ∨ d.dpl < rplOf newCs) invalid
    switchTss newCs d .jmp (s.eip + nextEipAddend)
    modify fun s => { s with ccOp := CcOp.eflags.code }
  else if d.isCallGate then ljmpGate d newCs s.cpl
  else throw invalid

variable (shift : Bool)

/-- Offset of the stack of a level in the task state segment. -/
def tssStackIndex (dpl : BitVec 2) : BitVec 32 := (dpl.setWidth 32 * 4 + 2) <<< shift.toNat

variable (s : CPUX86State M)

/-- The stack segment and the stack pointer of a level in the task state segment. -/
def CPUX86State.tssStack (dpl : BitVec 2) :
    Except X86Exception (BitVec 32 × BitVec 32) := do
  let shift := is386 s.tr.flags
  let index := tssStackIndex shift dpl
  let esp ← s.loadSized shift (s.tr.base + index)
  let ss ← s.loadSized false (s.tr.base + index + slot shift)
  pure (ss, esp)

/-- `get_ss_esp_from_tss`; the process aborts if there is no task. -/
def getSsEspFromTss (dpl : BitVec 2) : Exec M (BitVec 32 × BitVec 32) := do
  let s ← get
  if has s.tr.flags descP = false then abort
  else if s.tr.flags.extractLsb' 8 3 ≠ 1 then abort
  else
    let shift := is386 s.tr.flags
    throwIf (s.tr.limit < tssStackIndex shift dpl + (4 <<< shift.toNat) - 1)
      (selectorError .tss s.tr.selector)
    inspect fun s => s.tssStack dpl

/-- The checks of the stack segment of an inner level. -/
def innerStack (dpl : BitVec 2) : Exec M (BitVec 32 × BitVec 32 × Descriptor) := do
  let (ss, sp) ← getSsEspFromTss dpl
  let invalid := selectorError .tss ss
  throwIf (ss &&& 0xfffc = 0) invalid
  throwIf (rplOf ss ≠ dpl) invalid
  let d ← loadSegmentOr ss invalid
  throwIf (d.dpl ≠ dpl) invalid
  throwIf (d.isStack = false) invalid
  throwIf (d.present = false) invalid
  pure (ss, sp, d)

/-- The code segment that a gate leads to. -/
def gateTarget (selector : BitVec 32) (cpl : BitVec 2) : Exec M Descriptor := do
  let invalid := selectorError .gpf selector
  throwIf (selector &&& 0xfffc = 0) ⟨.gpf, 0⟩
  let d ← loadSegmentOr selector invalid
  throwIf (d.isCode = false) invalid
  throwIf (cpl < d.dpl) invalid
  throwIf (d.present = false) (selectorError .noseg selector)
  pure d

/-- The parameters of a call, the last one first. -/
def copyParams (shift : Bool) (oldSsp oldSpMask oldEsp ssp spMask : BitVec 32) :
    Nat → BitVec 32 → Exec M (BitVec 32)
  | 0, sp => pure sp
  | i + 1, sp => do
      let val ← load shift (oldSsp + ((oldEsp + BitVec.ofNat 32 i * slot shift) &&& oldSpMask))
      let sp ← push shift ssp spMask sp val
      copyParams shift oldSsp oldSpMask oldEsp ssp spMask i sp

/-- The new code segment, privilege and stack pointer after a call gate. -/
def CPUX86State.enterGate (selector offset : BitVec 32) (d : Descriptor) (sp spMask : BitVec 32) : CPUX86State M :=
  let s := s.loadSegCache rCS (d.cache (replaceRpl selector d.dpl))
  { (s.setCpl d.dpl).setEsp sp spMask with eip := offset }

/-- The call through a call gate. -/
def lcallGate (gate : Descriptor) (newCs nextEip : BitVec 32) : Exec M Unit := do
  let s ← get
  let shift := is386 gate.e2
  throwIf (gate.dpl < s.cpl ∨ gate.dpl < rplOf newCs) (selectorError .gpf newCs)
  throwIf (gate.present = false) (selectorError .noseg newCs)
  let selector := gate.e1 >>> 16
  let offset := (gate.e2 &&& 0xffff0000) ||| (gate.e1 &&& 0x0000ffff)
  let paramCount := (gate.e2 &&& 0x1f).toNat
  let d ← gateTarget selector s.cpl
  let oldSpMask := getSpMask (s.segs rSS).flags
  let oldSsp := (s.segs rSS).base
  if d.conforming = false ∧ d.dpl < s.cpl then
    let (ss, sp, ssd) ← innerStack d.dpl
    let spMask := getSpMask ssd.e2
    let sp ← pushAll shift ssd.base spMask [(s.segs rSS).selector, s.esp] sp
    let sp ← copyParams shift oldSsp oldSpMask s.esp ssd.base spMask paramCount sp
    let sp ← pushAll shift ssd.base spMask [(s.segs rCS).selector, nextEip] sp
    modify fun s =>
      (s.loadSegCache rSS (ssd.cache (replaceRpl ss d.dpl))).enterGate selector offset d sp spMask
  else
    let sp ← pushAll shift oldSsp oldSpMask [(s.segs rCS).selector, nextEip] s.esp
    modify fun s => s.enterGate selector offset d sp oldSpMask

def helperLcallProtected (newCs newEip : BitVec 32) (shift : Bool) (nextEipAddend : BitVec 32) :
    Exec M Unit := do
  let invalid := selectorError .gpf newCs
  let s ← get
  let nextEip := s.eip + nextEipAddend
  throwIf (newCs &&& 0xfffc = 0) ⟨.gpf, 0⟩
  let d ← loadSegmentOr newCs invalid
  if has d.e2 descS then
    checkDirect d newCs s.cpl
    let spMask := getSpMask (s.segs rSS).flags
    let sp ← pushAll shift (s.segs rSS).base spMask [(s.segs rCS).selector, nextEip] s.esp
    throwIf (d.limit < newEip) invalid
    modify fun s =>
      { (s.setEsp sp spMask).loadSegCache rCS (d.cache (withRpl newCs s.cpl)) with eip := newEip }
  else if d.isTask then
    throwIf (d.dpl < s.cpl ∨ d.dpl < rplOf newCs) invalid
    switchTss newCs d .call nextEip
    modify fun s => { s with ccOp := CcOp.eflags.code }
  else if d.isCallGate then lcallGate d newCs nextEip
  else throw invalid

/-! ## Returns -/

/-- The segment that `validate_seg` leaves in a register at an outer level. -/
def validSegment (isFsGs : Bool) (cache : SegmentCache) (cpl : BitVec 2) : Bool :=
  (isFsGs && cache.selector &&& 0xfffc == 0) ||
    (has cache.flags descCS && has cache.flags descC) ||
    !(cache.flags.extractLsb' 13 2).ult cpl

def CPUX86State.validateSeg (seg : SegReg) (cpl : BitVec 2) : CPUX86State M :=
  if validSegment (seg == rFS || seg == rGS) (s.segs seg) cpl then s
  else s.loadSegCache seg ⟨0, 0, 0, 0⟩

/-- All the registers that `validate_seg` is called for. -/
def CPUX86State.validateSegs (cpl : BitVec 2) : CPUX86State M :=
  (((s.validateSeg rES cpl).validateSeg rDS cpl).validateSeg rFS cpl).validateSeg rGS cpl

/-- The flags that `IRET` changes, with or without the privileged ones. -/
def iretMask (shift mayIopl mayIf : Bool) : BitVec 32 :=
  let mask := tfMask ||| acMask ||| idMask ||| rfMask ||| ntMask
  let mask := if mayIopl then mask ||| ioplMask else mask
  let mask := if mayIf then mask ||| ifMask else mask
  if shift then mask else mask &&& 0xffff

/-- The flags that `IRET` changes at a privilege level. -/
def CPUX86State.iretMask (shift : Bool) (cpl : BitVec 2) : BitVec 32 :=
  I386.iretMask shift (cpl == 0) (cpl.ule s.iopl)

/-- The flags that a return to virtual-8086 mode changes. -/
def vm86Mask : BitVec 32 :=
  tfMask ||| acMask ||| idMask ||| ifMask ||| ioplMask ||| vmMask ||| ntMask ||| vifMask ||| vipMask

/-- The values that a return to virtual-8086 mode pops. -/
structure Vm86Frame where
  eip : BitVec 32
  cs : BitVec 32
  eflags : BitVec 32
  esp : BitVec 32
  ss : BitVec 32
  es : BitVec 32
  ds : BitVec 32
  fs : BitVec 32
  gs : BitVec 32

/-- The processor state after a return to virtual-8086 mode. -/
def CPUX86State.enterVm86 (frame : Vm86Frame) : CPUX86State M :=
  let s := s.loadEflags frame.eflags vm86Mask
  let s := (s.loadSegVm rCS (frame.cs &&& 0xffff)).setCpl 3
  let s := s.loadSegVm rSS (frame.ss &&& 0xffff)
  let s := s.loadSegVm rES (frame.es &&& 0xffff)
  let s := s.loadSegVm rDS (frame.ds &&& 0xffff)
  let s := s.loadSegVm rFS (frame.fs &&& 0xffff)
  let s := s.loadSegVm rGS (frame.gs &&& 0xffff)
  { s with eip := frame.eip &&& 0xffff, regs := Function.update s.regs rESP frame.esp }

def returnToVm86 (ssp spMask sp eip cs eflags : BitVec 32) : Exec M Unit := do
  let (esp, sp) ← pop true ssp spMask sp
  let (ss, sp) ← pop true ssp spMask sp
  let (es, sp) ← pop true ssp spMask sp
  let (ds, sp) ← pop true ssp spMask sp
  let (fs, sp) ← pop true ssp spMask sp
  let (gs, _) ← pop true ssp spMask sp
  modify fun s => s.enterVm86 { eip, cs, eflags, esp, ss, es, ds, fs, gs }

/-- The code segment of a return. -/
def returnTarget (newCs : BitVec 32) (cpl : BitVec 2) : Exec M Descriptor := do
  let invalid := selectorError .gpf newCs
  throwIf (newCs &&& 0xfffc = 0) invalid
  let d ← loadSegmentOr newCs invalid
  throwIf (d.isCode = false) invalid
  let rpl := rplOf newCs
  throwIf (rpl < cpl) invalid
  if d.conforming then throwIf (rpl < d.dpl) invalid else throwIf (d.dpl ≠ rpl) invalid
  throwIf (d.present = false) (selectorError .noseg newCs)
  pure d

/-- The stack segment of a return to an outer level. -/
def returnStack (newSs : BitVec 32) (rpl : BitVec 2) : Exec M Descriptor := do
  let invalid := selectorError .gpf newSs
  throwIf (newSs &&& 0xfffc = 0) ⟨.gpf, 0⟩
  throwIf (rplOf newSs ≠ rpl) invalid
  let d ← loadSegmentOr newSs invalid
  throwIf (d.isStack = false) invalid
  throwIf (d.dpl ≠ rpl) invalid
  throwIf (d.present = false) (selectorError .noseg newSs)
  pure d

/-- A selector in a stack slot. -/
def popSelector (val : BitVec 32) : BitVec 32 := if shift then val &&& 0xffff else val

/-- The part of a return that changes the privilege level. -/
def returnOuter (ssp spMask sp newCs addend : BitVec 32) (d : Descriptor) :
    Exec M (BitVec 32 × BitVec 32) := do
  let rpl := rplOf newCs
  let (newEsp, sp) ← pop shift ssp spMask sp
  let (newSs, _) ← pop shift ssp spMask sp
  let newSs := popSelector shift newSs
  let ssd ← returnStack newSs rpl
  modify fun s =>
    (((s.loadSegCache rSS (ssd.cache newSs)).loadSegCache rCS (d.cache newCs)).setCpl
      rpl).validateSegs rpl
  pure (newEsp + addend, getSpMask ssd.e2)

/-- The stack pointer, the instruction pointer and the flags after a return. -/
def finishReturn (shift isIret : Bool) (cpl : BitVec 2) (sp spMask newEip newEflags : BitVec 32) :
    Exec M Unit := do
  modify fun s => { s.setEsp sp spMask with eip := newEip }
  if isIret then modify fun s => s.loadEflags newEflags (s.iretMask shift cpl)

def returnToSelector (shift isIret : Bool) (addend ssp spMask sp newEip newCs newEflags : BitVec 32) :
    Exec M Unit := do
  let s ← get
  let d ← returnTarget newCs s.cpl
  let sp := sp + addend
  if rplOf newCs = s.cpl then
    modify fun s => s.loadSegCache rCS (d.cache newCs)
    finishReturn shift isIret s.cpl sp spMask newEip newEflags
  else
    let (sp, spMask) ← returnOuter shift ssp spMask sp newCs addend d
    finishReturn shift isIret s.cpl sp spMask newEip newEflags

def helperRetProtected (shift isIret : Bool) (addend : BitVec 32) : Exec M Unit := do
  let s ← get
  let spMask := getSpMask (s.segs rSS).flags
  let ssp := (s.segs rSS).base
  let (newEip, sp) ← pop shift ssp spMask s.esp
  let (newCs, sp) ← pop shift ssp spMask sp
  let newCs := popSelector shift newCs
  if isIret then
    let (newEflags, sp) ← pop shift ssp spMask sp
    if shift && has newEflags vmMask then returnToVm86 ssp spMask sp newEip newCs newEflags
    else returnToSelector shift true addend ssp spMask sp newEip newCs newEflags
  else returnToSelector shift false addend ssp spMask sp newEip newCs 0

def helperIretProtected (nextEip : BitVec 32) : Exec M Unit := do
  let s ← get
  if has s.eflags ntMask then
    let tssSelector ← load false (s.tr.base + 0)
    let invalid := selectorError .tss tssSelector
    throwIf (has tssSelector 4 = true) invalid
    let d ← loadSegmentOr tssSelector invalid
    throwIf (d.e2 >>> 8 &&& 0x17 ≠ 3) invalid
    switchTss tssSelector d .iret nextEip
  else helperRetProtected shift true 0
  modify fun s => { s with nmiMasked := false }

def helperLretProtected (addend : BitVec 32) : Exec M Unit := helperRetProtected shift false addend

/-! ## Interrupts -/

def exeptionHasErrorCode (intno : BitVec 32) : Bool :=
  intno == 8 || intno == 10 || intno == 11 || intno == 12 || intno == 13 || intno == 14 ||
    intno == 17

def pushesErrorCode (intno : BitVec 32) (isInt isHw : Bool) : Bool :=
  !isInt && !isHw && exeptionHasErrorCode intno

/-- The error code on the stack of a task that handles an interrupt. -/
def pushTaskError (errorCode : BitVec 32) : Exec M Unit := do
  let s ← get
  let shift := is386 s.tr.flags
  let mask := getSpMask (s.segs rSS).flags
  let esp := (s.esp - slot shift) &&& mask
  store shift ((s.segs rSS).base + esp) errorCode
  modify fun s => s.setEsp esp mask

/-- The flags, code segment and privilege after an interrupt or trap gate. -/
def CPUX86State.enterInterrupt (isTrap : Bool) (selector offset : BitVec 32)
    (d : Descriptor) (dpl : BitVec 2) (esp spMask : BitVec 32) : CPUX86State M :=
  let s := ((s.setEsp esp spMask).loadSegCache rCS (d.cache (replaceRpl selector dpl))).setCpl dpl
  let eflags := if isTrap then s.eflags else s.eflags &&& ~~~ifMask
  { s with
    eip := offset
    eflags := eflags &&& ~~~(tfMask ||| vmMask ||| rfMask ||| ntMask) }

/-- Delivery through an interrupt or trap gate. -/
def interruptGate (gate : Descriptor) (intno : BitVec 32) (isInt : Bool) (oldEip : BitVec 32)
    (errors : List (BitVec 32)) : Exec M Unit := do
  let s ← get
  let shift := is386 gate.e2
  let isTrap := gate.e2.getLsbD 8
  let vm := has s.eflags vmMask
  throwIf (isInt = true ∧ gate.dpl < s.cpl) ⟨.gpf, intno * 8 + 2⟩
  throwIf (gate.present = false) ⟨.noseg, intno * 8 + 2⟩
  let selector := gate.e1 >>> 16
  let offset := (gate.e2 &&& 0xffff0000) ||| (gate.e1 &&& 0x0000ffff)
  let d ← gateTarget selector s.cpl
  let frame := [s.computeEflags, (s.segs rCS).selector, oldEip] ++ errors
  if d.conforming = false ∧ d.dpl < s.cpl then
    let (ss, esp, ssd) ← innerStack d.dpl
    let spMask := getSpMask ssd.e2
    let data := [rGS, rFS, rDS, rES]
    let saved := (if vm then data.map fun seg => (s.segs seg).selector else []) ++
      [(s.segs rSS).selector, s.esp] ++ frame
    let esp ← pushAll shift ssd.base spMask saved esp
    if vm then
      modify fun s =>
        [rES, rDS, rFS, rGS].foldl (fun s seg => s.loadSegCache seg ⟨0, 0, 0, 0⟩) s
    modify fun s =>
      (s.loadSegCache rSS (ssd.cache (replaceRpl ss d.dpl))).enterInterrupt isTrap selector offset d
        d.dpl esp spMask
  else if d.conforming = true ∨ d.dpl = s.cpl then
    throwIf (vm = true) (selectorError .gpf selector)
    let spMask := getSpMask (s.segs rSS).flags
    let esp ← pushAll shift (s.segs rSS).base spMask frame s.esp
    modify fun t => t.enterInterrupt isTrap selector offset d s.cpl esp spMask
  else throw (selectorError .gpf selector)

def doInterruptProtected (intno : BitVec 32) (isInt : Bool) (errorCode nextEip : BitVec 32)
    (isHw : Bool) : Exec M Unit := do
  let s ← get
  let hasErrorCode := pushesErrorCode intno isInt isHw
  let oldEip := if isInt then nextEip else s.eip
  let invalid : X86Exception := ⟨.gpf, intno * 8 + 2⟩
  throwIf (s.idt.limit < intno * 8 + 7) invalid
  let gate ← inspect fun s => s.descriptorAt (s.idt.base + intno * 8)
  if gate.type5 = 5 then
    throwIf (gate.present = false) ⟨.noseg, intno * 8 + 2⟩
    switchTss (intno * 8) gate .call oldEip
    if hasErrorCode then pushTaskError errorCode
  else if gate.isInterruptGate then
    interruptGate gate intno isInt oldEip (if hasErrorCode then [errorCode] else [])
  else throw invalid

end

end Qemu.I386
