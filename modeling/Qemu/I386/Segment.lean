import Qemu.Lib.Bytes
import Qemu.Lib.Prog
import Qemu.I386.Flags

/-!
# Segments

The processor state that `target-i386/op_helper.c` works on in protected mode, the descriptor
tables, the segment caches and the stack accesses, for the 32-bit target.  Memory is accessed with
supervisor rights at linear addresses; an access may fault.
-/

namespace Qemu.I386

open Prog BitVec ByteMem

variable {shift : Bool}

/-- The exceptions that the functions below raise themselves, and page faults. -/
inductive Excp where
  | tss
  | noseg
  | stack
  | gpf
  | page
  deriving DecidableEq, Repr

structure X86Exception where
  index : Excp
  errorCode : BitVec 32
  deriving DecidableEq, Repr

/-- Memory as `ldl_kernel`, `stl_kernel` and their siblings see it. -/
class KernelMemory (M : Type) where
  ldub : M → TargetUlong → Except X86Exception (BitVec 8)
  lduw : M → TargetUlong → Except X86Exception (BitVec 16)
  ldl : M → TargetUlong → Except X86Exception (BitVec 32)
  stb : M → TargetUlong → BitVec 8 → Except X86Exception M
  stw : M → TargetUlong → BitVec 16 → Except X86Exception M
  stl : M → TargetUlong → BitVec 32 → Except X86Exception M
  /-- Change of the page directory. -/
  updateCr3 : M → TargetUlong → M

structure SegmentCache where
  selector : BitVec 32
  base : TargetUlong
  limit : BitVec 32
  flags : BitVec 32
  deriving DecidableEq, Repr

/-- The hidden flags that segment loads and privilege changes write. -/
structure HFlags where
  cpl : BitVec 2
  cs32 : Bool
  ss32 : Bool
  addseg : Bool
  ts : Bool
  deriving DecidableEq, Repr

abbrev SegReg := Fin 6

abbrev rES : SegReg := 0
abbrev rCS : SegReg := 1
abbrev rSS : SegReg := 2
abbrev rDS : SegReg := 3
abbrev rFS : SegReg := 4
abbrev rGS : SegReg := 5

local instance neZeroEight : NeZero 8 := ⟨by decide⟩

abbrev rESP : Fin 8 := 4

structure CPUX86State (M : Type) where
  regs : Fin 8 → TargetUlong
  eip : TargetUlong
  eflags : BitVec 32
  ccOp : BitVec 32
  ccSrc : TargetUlong
  ccDst : TargetUlong
  df : BitVec 32
  hflags : HFlags
  /-- `HF2_NMI_MASK` of `hflags2`. -/
  nmiMasked : Bool
  segs : SegReg → SegmentCache
  ldt : SegmentCache
  tr : SegmentCache
  gdt : SegmentCache
  idt : SegmentCache
  cr0 : TargetUlong
  cr3 : TargetUlong
  dr7 : TargetUlong
  mem : M

abbrev Exec (M α : Type) := Prog (CPUX86State M) X86Exception α

/-! ## Masks -/

def descG : BitVec 32 := 1 <<< 23
def descB : BitVec 32 := 1 <<< 22
def descL : BitVec 32 := 1 <<< 21
def descP : BitVec 32 := 1 <<< 15
def descS : BitVec 32 := 1 <<< 12
def descCS : BitVec 32 := 1 <<< 11
def descC : BitVec 32 := 1 <<< 10
def descR : BitVec 32 := 1 <<< 9
def descW : BitVec 32 := 1 <<< 9
def descTssBusy : BitVec 32 := 1 <<< 9

def tfMask : BitVec 32 := 0x00000100
def ifMask : BitVec 32 := 0x00000200
def dfMask : BitVec 32 := 0x00000400
def ioplMask : BitVec 32 := 0x00003000
def ntMask : BitVec 32 := 0x00004000
def rfMask : BitVec 32 := 0x00010000
def vmMask : BitVec 32 := 0x00020000
def acMask : BitVec 32 := 0x00040000
def vifMask : BitVec 32 := 0x00080000
def vipMask : BitVec 32 := 0x00100000
def idMask : BitVec 32 := 0x00200000

def cr0PE : TargetUlong := 1 <<< 0
def cr0TS : TargetUlong := 1 <<< 3
def cr0PG : TargetUlong := 1 <<< 31

/-- Whether some bit of a mask is set. -/
def has (word mask : BitVec 32) : Bool := word &&& mask != 0

theorem has_twoPow (word : BitVec 32) {i : Nat} (small : i < 32) :
    has word (twoPow 32 i) = word.getLsbD i := by
  rw [has, and_twoPow]
  cases word.getLsbD i with
  | false => rfl
  | true =>
    have nonzero : twoPow 32 i ≠ 0 := fun zero => by
      have bit := congrArg (getLsbD · i) zero
      simp [small] at bit
    simpa using nonzero

theorem has_vmMask (word : BitVec 32) : has word vmMask = word.getLsbD 17 := by
  have bit : vmMask = twoPow 32 17 := by decide
  rw [bit, has_twoPow word (by decide)]

/-- The two words of a descriptor. -/
structure Descriptor where
  e1 : BitVec 32
  e2 : BitVec 32
  deriving DecidableEq, Repr

namespace Descriptor

variable (d : Descriptor)

/-- `(e2 >> DESC_DPL_SHIFT) & 3`. -/
def dpl : BitVec 2 := d.e2.extractLsb' 13 2

/-- `(e2 >> DESC_TYPE_SHIFT) & 0xf`. -/
def type : Nat := (d.e2.extractLsb' 8 4).toNat

/-- `get_seg_limit`. -/
def limit : BitVec 32 :=
  let limit := (d.e1 &&& 0xffff) ||| (d.e2 &&& 0x000f0000)
  if has d.e2 descG then (limit <<< 12) ||| 0xfff else limit

/-- `get_seg_base`. -/
def base : BitVec 32 := (d.e1 >>> 16) ||| ((d.e2 &&& 0xff) <<< 16) ||| (d.e2 &&& 0xff000000)

def cache (selector : BitVec 32) : SegmentCache where
  selector
  base := d.base
  limit := d.limit
  flags := d.e2

def isCode : Bool := has d.e2 descS && has d.e2 descCS

/-- A writable data segment. -/
def isStack : Bool := has d.e2 descS && !has d.e2 descCS && has d.e2 descW

def present : Bool := has d.e2 descP

def conforming : Bool := has d.e2 descC

end Descriptor

/-- `selector & 3`. -/
def rplOf (selector : BitVec 32) : BitVec 2 := selector.setWidth 2

def selectorError (index : Excp) (selector : BitVec 32) : X86Exception :=
  ⟨index, selector &&& 0xfffc⟩

def getSpMask (e2 : BitVec 32) : BitVec 32 := if has e2 descB then 0xffffffff else 0xffff

/-! ## Registers -/

namespace CPUX86State

variable {M : Type} (s : CPUX86State M)

def cpl : BitVec 2 := s.hflags.cpl

def esp : TargetUlong := s.regs rESP

/-- `(env->eflags >> IOPL_SHIFT) & 3`. -/
def iopl : BitVec 2 := s.eflags.extractLsb' 12 2

def computeEflags : BitVec 32 :=
  s.eflags ||| helperCcComputeAll s.ccOp s.ccSrc s.ccDst ||| (s.df &&& dfMask)

def loadEflags (eflags updateMask : BitVec 32) : CPUX86State M :=
  { s with
    ccSrc := eflags &&& (ccO ||| ccS ||| ccZ ||| ccA ||| ccP ||| ccC)
    df := 1 - (2 * ((eflags >>> 10) &&& 1))
    eflags := (s.eflags &&& ~~~updateMask) ||| (eflags &&& updateMask) ||| 0x2 }

variable (seg : SegReg) (cache : SegmentCache)

def loadSegCache : CPUX86State M :=
  let segs := Function.update s.segs seg cache
  let cs32 := if seg = rCS then has (segs rCS).flags descB else s.hflags.cs32
  { s with
    segs
    hflags := { s.hflags with
      cs32
      ss32 := has (segs rSS).flags descB
      addseg :=
        if !has s.cr0 cr0PE || has s.eflags vmMask || !cs32 then true
        else (segs rDS).base ||| (segs rES).base ||| (segs rSS).base != 0 } }

def loadSegVm (selector : BitVec 32) : CPUX86State M :=
  let selector := selector &&& 0xffff
  s.loadSegCache seg ⟨selector, selector <<< 4, 0xffff, 0⟩

variable (cpl : BitVec 2)

def setCpl : CPUX86State M := { s with hflags := { s.hflags with cpl } }

def setEsp (val spMask : BitVec 32) : CPUX86State M :=
  { s with regs := Function.update s.regs rESP ((s.esp &&& ~~~spMask) ||| (val &&& spMask)) }

def setMem (mem : M) : CPUX86State M := { s with mem }

@[simp] theorem setMem_setMem (mem mem' : M) : (s.setMem mem).setMem mem' = s.setMem mem' := rfl

@[simp] theorem setMem_mem : s.setMem s.mem = s := rfl

@[simp] theorem loadSegCache_segs :
    (s.loadSegCache seg cache).segs = Function.update s.segs seg cache := rfl

@[simp] theorem loadSegCache_cpl : (s.loadSegCache seg cache).cpl = s.cpl := rfl

@[simp] theorem loadSegCache_eflags : (s.loadSegCache seg cache).eflags = s.eflags := rfl

@[simp] theorem setCpl_cpl : (s.setCpl cpl).cpl = cpl := rfl

@[simp] theorem setCpl_segs : (s.setCpl cpl).segs = s.segs := rfl

@[simp] theorem setCpl_eflags : (s.setCpl cpl).eflags = s.eflags := rfl

@[simp] theorem setEsp_eflags (val spMask : BitVec 32) :
    (s.setEsp val spMask).eflags = s.eflags := rfl

@[simp] theorem setEsp_esp (val spMask : BitVec 32) :
    (s.setEsp val spMask).esp = (s.esp &&& ~~~spMask) ||| (val &&& spMask) :=
  Function.update_self rESP _ s.regs

theorem loadEflags_and {eflags mask kept : BitVec 32} (outside : mask &&& kept = 0)
    (reserved : (2 : BitVec 32) &&& kept = 0) :
    (s.loadEflags eflags mask).eflags &&& kept = s.eflags &&& kept := by
  have clear : ∀ {word : BitVec 32}, word &&& kept = 0 → ∀ i, kept.getLsbD i = true →
      word.getLsbD i = false := fun {word} none i set => by
    have bit := congrArg (getLsbD · i) none
    simpa [set] using bit
  apply eq_of_getLsbD_eq
  intro i small
  cases set : kept.getLsbD i with
  | false => simp [set]
  | true =>
    simp only [loadEflags, getLsbD_and, getLsbD_or, getLsbD_not, set,
      clear outside i set, clear reserved i set]
    simp [small]

end CPUX86State

/-! ## Memory accesses -/

section Access

variable {M : Type} [KernelMemory M]

namespace CPUX86State

/-- A load of a word or a long, extended to 32 bits. -/
def loadSized (s : CPUX86State M) (shift : Bool) (addr : TargetUlong) :
    Except X86Exception (BitVec 32) :=
  if shift then KernelMemory.ldl s.mem addr
  else (KernelMemory.lduw s.mem addr).map (·.setWidth 32)

def descriptorAt (s : CPUX86State M) (addr : TargetUlong) : Except X86Exception Descriptor := do
  let e1 ← KernelMemory.ldl s.mem addr
  let e2 ← KernelMemory.ldl s.mem (addr + 4)
  pure ⟨e1, e2⟩

/-- `load_segment`: there is no descriptor beyond the limit of the table. -/
def loadSegment (s : CPUX86State M) (selector : BitVec 32) :
    Except X86Exception (Option Descriptor) :=
  let dt := if has selector 0x4 then s.ldt else s.gdt
  let index := selector &&& ~~~7
  if dt.limit < index + 7 then .ok none
  else (s.descriptorAt (dt.base + index)).map some

end CPUX86State

/-- A descriptor that has to exist. -/
def loadSegmentOr (selector : BitVec 32) (missing : X86Exception) : Exec M Descriptor :=
  Prog.inspect fun s => do
    match ← s.loadSegment selector with
    | some d => pure d
    | none => throw missing

def load (shift : Bool) (addr : TargetUlong) : Exec M (BitVec 32) :=
  Prog.inspect fun s => s.loadSized shift addr

/-- A store with the outcome that memory gives it. -/
def storeWith (store : M → Except X86Exception M) : Exec M Unit := fun s =>
  match store s.mem with
  | .ok mem => (.ok (), s.setMem mem)
  | .error fault => (.error fault, s)

def store (shift : Bool) (addr : TargetUlong) (val : BitVec 32) : Exec M Unit :=
  storeWith fun mem =>
    if shift then KernelMemory.stl mem addr val else KernelMemory.stw mem addr (val.setWidth 16)

/-- Bytes of a stack slot. -/
def slot (shift : Bool) : BitVec 32 := if shift then 4 else 2

/-- `PUSHL` and `PUSHW`; the result is the new stack pointer. -/
def push (shift : Bool) (ssp spMask sp val : BitVec 32) : Exec M (BitVec 32) := do
  let sp := sp - slot shift
  store shift (ssp + (sp &&& spMask)) val
  pure sp

def pushAll (shift : Bool) (ssp spMask : BitVec 32) : List (BitVec 32) → BitVec 32 →
    Exec M (BitVec 32)
  | [], sp => pure sp
  | val :: rest, sp => do
      let sp ← push shift ssp spMask sp val
      pushAll shift ssp spMask rest sp

/-- `POPL` and `POPW`; the result is the value and the new stack pointer. -/
def pop (shift : Bool) (ssp spMask sp : BitVec 32) : Exec M (BitVec 32 × BitVec 32) := do
  let val ← load shift (ssp + (sp &&& spMask))
  pure (val, sp + slot shift)

/-! ### What a completed access has done -/

variable {s : CPUX86State M} {post : BitVec 32 → CPUX86State M → Prop}

theorem ensures_load {addr : TargetUlong} :
    Ensures (load shift addr) s post ↔
      ∀ val, s.loadSized shift addr = .ok val → post val s :=
  ensures_inspect

theorem ensures_loadSegmentOr {selector : BitVec 32} {missing : X86Exception}
    {post : Descriptor → CPUX86State M → Prop} :
    Ensures (loadSegmentOr selector missing) s post ↔
      ∀ d, s.loadSegment selector = .ok (some d) → post d s := by
  refine ensures_inspect.trans (forall_congr' fun d => ?_)
  match s.loadSegment selector with
  | .ok (some found) =>
    refine imp_congr_left ?_
    change Except.ok found = Except.ok d ↔ Except.ok (some found) = Except.ok (some d)
    simp only [Except.ok.injEq, Option.some.injEq]
  | .ok none => exact iff_of_true nofun nofun
  | .error fault => exact iff_of_true nofun nofun

theorem ensures_store {addr : TargetUlong} {val : BitVec 32} {post : Unit → CPUX86State M → Prop}
    (stored : ∀ mem, post () (s.setMem mem)) : Ensures (store shift addr val) s post := by
  intro value after run
  rw [store, storeWith] at run
  split at run
  · next mem _ =>
    obtain rfl : s.setMem mem = after := by simpa using run
    exact stored mem
  · simp at run

theorem ensures_push {ssp spMask sp val : BitVec 32}
    (pushed : ∀ mem, post (sp - slot shift) (s.setMem mem)) :
    Ensures (push shift ssp spMask sp val) s post := by
  rw [push, ensures_bind]
  exact ensures_store fun mem => ensures_pure.mpr (pushed mem)

theorem sub_slots (shift : Bool) (sp : BitVec 32) (n : Nat) :
    sp - slot shift - BitVec.ofNat 32 n * slot shift =
      sp - BitVec.ofNat 32 (n + 1) * slot shift := by
  rw [ofNat_add, add_mul, BitVec.one_mul, BitVec.add_comm, sub_sub]

theorem ensures_pushAll {ssp spMask : BitVec 32} {vals : List (BitVec 32)} {sp : BitVec 32}
    (pushed : ∀ mem, post (sp - BitVec.ofNat 32 vals.length * slot shift) (s.setMem mem)) :
    Ensures (pushAll shift ssp spMask vals sp) s post := by
  induction vals generalizing sp s with
  | nil =>
    rw [pushAll, ensures_pure]
    simpa using pushed s.mem
  | cons val rest ih =>
    rw [pushAll, ensures_bind]
    refine ensures_push fun mem => ih fun mem' => ?_
    rw [sub_slots]
    exact pushed mem'

theorem ensures_pop {ssp spMask sp : BitVec 32}
    {post : BitVec 32 × BitVec 32 → CPUX86State M → Prop} :
    Ensures (pop shift ssp spMask sp) s post ↔
      ∀ val, s.loadSized shift (ssp + (sp &&& spMask)) = .ok val →
        post (val, sp + slot shift) s := by
  rw [pop, ensures_bind, ensures_load]
  exact forall_congr' fun val => forall_congr' fun _ => ensures_pure

end Access

/-! ## Memory without faults -/

/-- All linear addresses are mapped, by any page directory to the same bytes. -/
def LinearMemory := ByteMem 32

instance : KernelMemory LinearMemory where
  ldub mem addr := .ok (mem addr)
  lduw mem addr := .ok (read 2 mem addr)
  ldl mem addr := .ok (read 4 mem addr)
  stb mem addr val := .ok (write 1 mem addr val)
  stw mem addr val := .ok (write 2 mem addr val)
  stl mem addr val := .ok (write 4 mem addr val)
  updateCr3 mem _ := mem

/-- A memory with the given longs and zeros elsewhere. -/
def LinearMemory.ofLongs (longs : List (TargetUlong × BitVec 32)) : LinearMemory :=
  longs.foldl (fun mem entry => write 4 mem entry.1 entry.2) fun _ => 0

end Qemu.I386
