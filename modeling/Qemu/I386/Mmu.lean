import Qemu.Lib.Bytes
import Qemu.Lib.Prog

/-!
# The page walk

`cpu_x86_handle_mmu_fault` of `target-i386/helper.c` for the 32-bit target, whose linear addresses
have 32 and physical addresses 64 bits.  Physical memory is RAM; the walk also logs the addresses of
the entries it reads.
-/

namespace Qemu.I386

open Prog

/-- `is_write1`. -/
inductive AccessKind where
  | read
  | write
  | fetch
  deriving DecidableEq, Repr

def AccessKind.isWrite : AccessKind → Bool
  | write => true
  | _ => false

structure Prot where
  read : Bool
  write : Bool
  exec : Bool
  deriving DecidableEq, Repr

/-- The arguments of `tlb_set_page`. -/
structure TlbPage where
  vaddr : BitVec 32
  paddr : BitVec 64
  prot : Prot
  isUser : Bool
  size : BitVec 32
  deriving DecidableEq, Repr

structure MmuState where
  cr0 : BitVec 32
  cr2 : BitVec 32
  cr3 : BitVec 32
  cr4 : BitVec 32
  efer : BitVec 64
  /-- The A20 gate is open. -/
  a20 : Bool
  interceptExceptions : BitVec 32
  vmVmcb : BitVec 64
  errorCode : BitVec 32
  mem : ByteMem 64
  /-- Addresses of the entries that were read. -/
  reads : List (BitVec 64)
  /-- Calls of `tlb_set_page`. -/
  tlb : List TlbPage

/-- The walk; its error is the error code before the bits that describe the access. -/
abbrev Walk (α : Type) := Prog MmuState (BitVec 32) α

/-! ## Bits -/

def pgPresent : Nat := 0
def pgRw : Nat := 1
def pgUser : Nat := 2
def pgAccessed : Nat := 5
def pgDirty : Nat := 6
def pgPse : Nat := 7
def pgNx : Nat := 63

/-- A page-table entry with one bit set. -/
def pgMask (bit : Nat) : BitVec 64 := BitVec.twoPow 64 bit

def pgErrorP : BitVec 32 := 0x01
def pgErrorW : BitVec 32 := 0x02
def pgErrorU : BitVec 32 := 0x04
def pgErrorRsvd : BitVec 32 := 0x08
def pgErrorID : BitVec 32 := 0x10

def physAddrMask : BitVec 64 := 0xffffff000

namespace MmuState

variable (s : MmuState)

def paging : Bool := s.cr0.getLsbD 31

def wp : Bool := s.cr0.getLsbD 16

def pse : Bool := s.cr4.getLsbD 4

def pae : Bool := s.cr4.getLsbD 5

def nxe : Bool := s.efer.getLsbD 11

/-- `a20_mask`, extended to the width of the value it is applied to. -/
def a20Mask (w : Nat) : BitVec w := if s.a20 then BitVec.allOnes w else ~~~BitVec.twoPow w 20

def interceptsPageFault : Bool := s.interceptExceptions.getLsbD 14

end MmuState

/-! ## Entries -/

def ldqPhys (addr : BitVec 64) : Walk (BitVec 64) := fun s =>
  (.ok (ByteMem.read 8 s.mem addr), { s with reads := s.reads ++ [addr] })

/-- `ldl_phys`; the value is extended with zeros. -/
def ldlPhys (addr : BitVec 64) : Walk (BitVec 64) := fun s =>
  (.ok ((ByteMem.read 4 s.mem addr).setWidth 64), { s with reads := s.reads ++ [addr] })

def stlPhysNotdirty (addr : BitVec 64) (val : BitVec 32) : Walk Unit :=
  modify fun s => { s with mem := ByteMem.write 4 s.mem addr val }

/-- Set the accessed bit and, for a write, the dirty bit of an entry. -/
def setAccessed (isWrite : Bool) (addr entry : BitVec 64) : Walk (BitVec 64) :=
  let isDirty := isWrite && !entry.getLsbD pgDirty
  if !entry.getLsbD pgAccessed || isDirty then do
    let entry := entry ||| pgMask pgAccessed ||| (if isDirty then pgMask pgDirty else 0)
    stlPhysNotdirty addr (entry.setWidth 32)
    pure entry
  else pure entry

/-- The checks before `do_fault_protect`, with the combined rights `ptep`. -/
def protects (s : MmuState) (access : AccessKind) (isUser : Bool) (ptep : BitVec 64) : Bool :=
  (ptep.getLsbD pgNx && access == .fetch) ||
    if isUser then
      !ptep.getLsbD pgUser || (access.isWrite && !ptep.getLsbD pgRw)
    else s.wp && access.isWrite && !ptep.getLsbD pgRw

/-- The result of a walk. -/
structure Leaf where
  pte : BitVec 64
  ptep : BitVec 64
  virtAddr : BitVec 32
  pageSize : BitVec 32

def checkEntry (entry : BitVec 64) : Walk Unit := do
  let s ← get
  throwIf (entry.getLsbD pgPresent = false) 0
  throwIf (s.nxe = false ∧ entry.getLsbD pgNx = true) pgErrorRsvd

/-! ## The formats -/

section

variable (addr : BitVec 32) (access : AccessKind) (isUser : Bool)

def walkPaeTable (pde ptep : BitVec 64) : Walk Leaf := do
  let s ← get
  let pteAddr : BitVec 32 := (((pde &&& physAddrMask) +
    (((addr >>> 12) &&& 0x1ff) <<< 3).setWidth 64) &&& s.a20Mask 64).setWidth 32
  let pte ← ldqPhys (pteAddr.setWidth 64)
  checkEntry pte
  let ptep := (ptep &&& (pte ^^^ pgMask pgNx)) ^^^ pgMask pgNx
  throwIf (protects s access isUser ptep = true) pgErrorP
  let pte ← setAccessed access.isWrite (pteAddr.setWidth 64) pte
  pure ⟨pte &&& (physAddrMask ||| 0xfff), ptep, addr &&& ~~~0xfff, 4096⟩

/-- PAE: a table of four pointers, a directory and a table. -/
def walkPae : Walk Leaf := do
  let s ← get
  let pdpeAddr : BitVec 32 := ((s.cr3 &&& ~~~0x1f#32) + ((addr >>> 27) &&& 0x18)) &&& s.a20Mask 32
  let pdpe ← ldqPhys (pdpeAddr.setWidth 64)
  throwIf (pdpe.getLsbD pgPresent = false) 0
  let ptep := pgMask pgNx ||| pgMask pgUser ||| pgMask pgRw
  let pdeAddr : BitVec 32 := (((pdpe &&& physAddrMask) +
    (((addr >>> 21) &&& 0x1ff) <<< 3).setWidth 64) &&& s.a20Mask 64).setWidth 32
  let pde ← ldqPhys (pdeAddr.setWidth 64)
  checkEntry pde
  let ptep := ptep &&& (pde ^^^ pgMask pgNx)
  if pde.getLsbD pgPse then
    let ptep := ptep ^^^ pgMask pgNx
    throwIf (protects s access isUser ptep = true) pgErrorP
    let pde ← setAccessed access.isWrite (pdeAddr.setWidth 64) pde
    pure ⟨pde &&& ((physAddrMask &&& ~~~0x1fffff) ||| 0xfff), ptep, addr &&& ~~~0x1fffff, 0x200000⟩
  else
    let pde ← setAccessed false (pdeAddr.setWidth 64) pde
    walkPaeTable addr access isUser pde ptep

/-- The last level of a two-level walk. -/
def walk32Table (pde : BitVec 64) : Walk Leaf := do
  let s ← get
  let pteAddr : BitVec 32 := ((pde.setWidth 32 &&& ~~~0xfff#32) + ((addr >>> 10) &&& 0xffc)) &&& s.a20Mask 32
  let pte ← ldlPhys (pteAddr.setWidth 64)
  throwIf (pte.getLsbD pgPresent = false) 0
  let ptep := pte &&& pde
  throwIf (protects s access isUser ptep = true) pgErrorP
  let pte ← setAccessed access.isWrite (pteAddr.setWidth 64) pte
  pure ⟨pte, ptep, addr &&& ~~~0xfff, 4096⟩

/-- A directory with tables or pages of four megabytes. -/
def walk32 : Walk Leaf := do
  let s ← get
  let pdeAddr : BitVec 32 := ((s.cr3 &&& ~~~0xfff#32) + ((addr >>> 20) &&& 0xffc)) &&& s.a20Mask 32
  let pde ← ldlPhys (pdeAddr.setWidth 64)
  throwIf (pde.getLsbD pgPresent = false) 0
  if pde.getLsbD pgPse && s.pse then
    throwIf (protects s access isUser pde = true) pgErrorP
    let pde ← setAccessed access.isWrite (pdeAddr.setWidth 64) pde
    let pte := pde &&& 0xffc00fff
    pure ⟨pte, pte, addr &&& ~~~0x3fffff, 0x400000⟩
  else
    let pde ← setAccessed false (pdeAddr.setWidth 64) pde
    walk32Table addr access isUser pde

end

/-! ## Mapping and faults -/

/-- The protection of a page in the TLB. -/
def leafProt (s : MmuState) (isUser : Bool) (leaf : Leaf) : Prot where
  read := true
  exec := !leaf.ptep.getLsbD pgNx
  write := leaf.pte.getLsbD pgDirty &&
    if isUser then leaf.ptep.getLsbD pgRw else !s.wp || leaf.ptep.getLsbD pgRw

def doMapping (addr : BitVec 32) (isUser : Bool) (prot : Prot) (leaf : Leaf) (s : MmuState) :
    MmuState :=
  let pte := leaf.pte &&& s.a20Mask 64
  let pageOffset := (addr &&& ~~~0xfff) &&& (leaf.pageSize - 1)
  let page := {
    vaddr := leaf.virtAddr + pageOffset
    paddr := (pte &&& ~~~0xfff) + pageOffset.setWidth 64
    prot, isUser, size := leaf.pageSize }
  { s with tlb := s.tlb ++ [page] }

def doFault (addr : BitVec 32) (access : AccessKind) (isUser : Bool) (code : BitVec 32)
    (s : MmuState) : MmuState :=
  let code := code ||| (if access.isWrite then pgErrorW else 0) |||
    (if isUser then pgErrorU else 0) |||
    (if access == .fetch && s.nxe && s.pae then pgErrorID else 0)
  let s :=
    if s.interceptsPageFault then
      { s with mem := ByteMem.write 8 s.mem (s.vmVmcb + 0x80) (addr.setWidth 64) }
    else { s with cr2 := addr }
  { s with errorCode := code }

/-- `cpu_x86_handle_mmu_fault`; the result is whether a page fault is raised. -/
def cpuX86HandleMmuFault (addr : BitVec 32) (access : AccessKind) (isUser : Bool) : Walk Bool := do
  let s ← get
  if s.paging = false then
    let leaf : Leaf := ⟨addr.setWidth 64, 0, addr &&& ~~~0xfff, 4096⟩
    modify (doMapping addr isUser ⟨true, true, true⟩ leaf)
    pure false
  else
    match ← attempt (if s.pae then walkPae addr access isUser else walk32 addr access isUser)
      with
    | .ok leaf =>
      modify (doMapping addr isUser (leafProt s isUser leaf) leaf)
      pure false
    | .error code =>
      modify (doFault addr access isUser code)
      pure true

end Qemu.I386
