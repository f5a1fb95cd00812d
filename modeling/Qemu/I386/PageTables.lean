import Qemu.I386.Mmu

/-!
# Page tables

The architecture's view of a translation: the path of entries from `CR3` to a page, the rights that
the entries give together, the page they designate and the bits that an access sets in them.
-/

namespace Qemu.I386

/-- An entry on the path. -/
structure Level where
  addr : BitVec 64
  entry : BitVec 64
  /-- The entry is in a directory or a table; the four pointers of PAE carry no rights. -/
  rights : Bool
  deriving DecidableEq, Repr

namespace Level

def present (l : Level) : Bool := l.entry.getLsbD pgPresent

/-- The entry is present and has its `NX` bit set while that bit is reserved. -/
def reserved (s : MmuState) (l : Level) : Bool := l.present && !s.nxe && l.entry.getLsbD pgNx

/-- The walk can go on with the entry. -/
def usable (s : MmuState) (l : Level) : Bool := l.present && !l.reserved s

/-- An entry of eight bytes. -/
def quad (s : MmuState) (addr : BitVec 64) (rights : Bool) : Level :=
  ⟨addr, ByteMem.read 8 s.mem addr, rights⟩

/-- An entry of four bytes. -/
def long (s : MmuState) (addr : BitVec 64) : Level :=
  ⟨addr, (ByteMem.read 4 s.mem addr).setWidth 64, true⟩

end Level

namespace MmuState

variable (s : MmuState) (addr : BitVec 32)

/-! ## Paths -/

/-- The pointer for one gigabyte. -/
def pointerLevel : Level :=
  .quad s ((((s.cr3 &&& ~~~0x1f#32) + ((addr >>> 27) &&& 0x18)) &&& s.a20Mask 32).setWidth 64) false

/-- The entry of a directory or table of eight-byte entries. -/
def quadAddr (entry : BitVec 64) (index : BitVec 32) : BitVec 64 :=
  ((entry &&& physAddrMask) + (index <<< 3).setWidth 64) &&& s.a20Mask 64

/-- The PAE path, where `reach` is the address at which an entry is looked up and `halts` says that
a pointer ends the walk. -/
def paePath (reach : BitVec 64 → BitVec 64) (halts : Level → Bool) : List Level :=
  let pointer := s.pointerLevel addr
  if halts pointer then [pointer]
  else
    let directory := Level.quad s (reach (s.quadAddr pointer.entry ((addr >>> 21) &&& 0x1ff))) true
    if !directory.usable s || directory.entry.getLsbD pgPse then [pointer, directory]
    else
      [pointer, directory,
        Level.quad s (reach (s.quadAddr directory.entry ((addr >>> 12) &&& 0x1ff))) true]

/-- The two-level path. -/
def longPath : List Level :=
  let directory := Level.long s
    ((((s.cr3 &&& ~~~0xfff#32) + ((addr >>> 20) &&& 0xffc)) &&& s.a20Mask 32).setWidth 64)
  if !directory.present || (directory.entry.getLsbD pgPse && s.pse) then [directory]
  else
    [directory, Level.long s ((((directory.entry.setWidth 32 &&& ~~~0xfff#32) +
      ((addr >>> 10) &&& 0xffc)) &&& s.a20Mask 32).setWidth 64)]

/-- The entries that a translation visits, up to the first one it cannot use. -/
def path : List Level :=
  if s.pae then s.paePath addr id fun l => !l.usable s else s.longPath addr

end MmuState

/-! ## Rights -/

section Rights

variable (path : List Level)

def pathUser : Bool := (path.filter (·.rights)).all (·.entry.getLsbD pgUser)

def pathRw : Bool := (path.filter (·.rights)).all (·.entry.getLsbD pgRw)

def pathNx : Bool := (path.filter (·.rights)).any (·.entry.getLsbD pgNx)

/-- What the combined bits of the path permit. -/
def pathProt (s : MmuState) (isUser : Bool) : Prot where
  read := !isUser || pathUser path
  write := if isUser then pathUser path && pathRw path else !s.wp || pathRw path
  exec := (!isUser || pathUser path) && !pathNx path

end Rights

/-- The right that an access needs. -/
def Prot.allows (prot : Prot) : AccessKind → Bool
  | .read => prot.read
  | .write => prot.write
  | .fetch => prot.exec

/-- One protection grants no more than another. -/
structure Prot.AtMost (prot bound : Prot) : Prop where
  read : prot.read = true → bound.read = true
  write : prot.write = true → bound.write = true
  exec : prot.exec = true → bound.exec = true

/-! ## Pages -/

/-- The logarithm of the page size. -/
def pageShift (s : MmuState) (path : List Level) : Nat :=
  if s.pae then if path.length = 2 then 21 else 12 else if path.length = 1 then 22 else 12

def leafEntry (path : List Level) : Level := path.getLastD ⟨0, 0, false⟩

/-- The four-kilobyte page of an address that the last entry designates. -/
def designatedPage (s : MmuState) (path : List Level) (addr : BitVec 32) : BitVec 64 :=
  let low : BitVec 64 := BitVec.ofNat 64 (2 ^ pageShift s path - 1)
  (((leafEntry path).entry &&& physAddrMask &&& ~~~low) |||
    ((addr &&& ~~~0xfff#32).setWidth 64 &&& low)) &&& s.a20Mask 64

/-- Memory with the accessed bits of a path set. -/
def markAccessed (path : List Level) (mem : ByteMem 64) : ByteMem 64 :=
  (path.filter (·.rights)).foldl (fun mem l => mem.orByte l.addr 0x20) mem

/-- Memory after an access: accessed bits, and the dirty bit of the last entry for a write. -/
def markPath (path : List Level) (isWrite : Bool) (mem : ByteMem 64) : ByteMem 64 :=
  if isWrite then (markAccessed path mem).orByte (leafEntry path).addr 0x40
  else markAccessed path mem

/-! ## The walk of the architecture -/

/-- The page that a successful access puts into the TLB, and the memory it leaves. -/
structure MapsPage (s s' : MmuState) (addr : BitVec 32) (access : AccessKind) (isUser : Bool) :
    Prop where
  tlb : ∃ page, s'.tlb = s.tlb ++ [page] ∧ page.vaddr = addr &&& ~~~0xfff#32 ∧
    page.isUser = isUser ∧
    (s.paging = false → page.paddr = (addr &&& ~~~0xfff#32).setWidth 64 &&& s.a20Mask 64) ∧
    (s.paging = true → page.paddr = designatedPage s (s.path addr) addr ∧
      page.size.toNat = 2 ^ pageShift s (s.path addr) ∧
      page.prot.AtMost (pathProt (s.path addr) s isUser) ∧
      (page.prot.write = true → (s'.mem (leafEntry (s.path addr)).addr).getLsbD pgDirty = true))
  mem : s'.mem = if s.paging then markPath (s.path addr) access.isWrite s.mem else s.mem

/-- What a page fault reports. -/
structure Faults (s s' : MmuState) (addr : BitVec 32) (access : AccessKind) (isUser : Bool) :
    Prop where
  cr2 : s'.cr2 = addr
  tlb : s'.tlb = s.tlb
  errorP : s'.errorCode.getLsbD 0 = false ↔ ∃ l ∈ s.path addr, l.present = false
  errorW : s'.errorCode.getLsbD 1 = access.isWrite
  errorU : s'.errorCode.getLsbD 2 = isUser
  errorRsvd : s'.errorCode.getLsbD 3 = true ↔ ∃ l ∈ s.path addr, l.reserved s = true
  errorID : s'.errorCode.getLsbD 4 = (access == .fetch && s.nxe && s.pae)

/-- The path lets the access through. -/
def Translates (s : MmuState) (addr : BitVec 32) (access : AccessKind) (isUser : Bool) : Prop :=
  (∀ l ∈ s.path addr, l.usable s = true) ∧ (pathProt (s.path addr) s isUser).allows access = true

/-- A walk that does what the architecture says: it reads the entries of the path, and maps a page or
raises a fault as they tell. -/
structure ArchWalk (s s' : MmuState) (addr : BitVec 32) (access : AccessKind) (isUser raised : Bool) :
    Prop where
  result : raised = false ↔ s.paging = false ∨ Translates s addr access isUser
  reads : s'.reads = s.reads ++ if s.paging then (s.path addr).map (·.addr) else []
  maps : raised = false → MapsPage s s' addr access isUser
  faults : raised = true → Faults s s' addr access isUser

end Qemu.I386
