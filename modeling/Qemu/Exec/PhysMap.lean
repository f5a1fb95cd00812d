import Qemu.Exec.TbTables

/-!
# The physical memory map

Every physical page has a descriptor in a three-level table.  The low bits of its `phys_offset` say
what the page is: RAM, ROM, a set of I/O handlers, or a sub-page, which has a set of handlers for
every byte.  `cpu_register_physical_memory_log` writes the descriptors and `cpu_physical_memory_rw`
reads them.

Physical addresses have `TARGET_PHYS_ADDR_SPACE_BITS = 36` bits; they and RAM offsets are natural
numbers here.
-/

namespace Qemu.Exec

open Function

/-- `IO_MEM_ROM`; `IO_MEM_RAM` is 0. -/
def ioMemRom : Nat := 8

def ioMemUnassigned : Nat := 16

/-- `addr & TARGET_PAGE_MASK`. -/
def pageMask (addr : Nat) : Nat := addr - addr % targetPageSize

/-- The bit `IO_MEM_ROMD` of a `phys_offset`. -/
def isRomd (pd : Nat) : Bool := pd.testBit 0

/-- The bit `IO_MEM_SUBPAGE` of a `phys_offset`. -/
def isSubpage (pd : Nat) : Bool := pd.testBit 1

/-- The handlers a `phys_offset` names, `(pd >> IO_MEM_SHIFT) & (IO_MEM_NB_ENTRIES - 1)`. -/
def ioIndex (pd : Nat) : Nat := (pd >>> 3) % 512

structure PhysPageDesc where
  physOffset : Nat
  regionOffset : Nat
  deriving DecidableEq

/-- `l1_phys_map`: 16 tables of 1024 tables of 1024 descriptors. -/
abbrev PhysTable := Nat → Option (Nat → Option (Nat → PhysPageDesc))

structure Subpage where
  subIoIndex : Nat → Nat
  regionOffset : Nat → Nat

/-- The descriptors, `io_mem_used`, and the sub-pages that the handlers of an index stand for. -/
structure PhysState where
  l1PhysMap : PhysTable
  ioMemUsed : Nat → Bool
  subpages : Nat → Option Subpage

/-! ## Descriptors -/

def physPageFind (table : PhysTable) (index : Nat) : Option PhysPageDesc :=
  (table (index / 2 ^ 20 % 16)).bind fun middle =>
    (middle (index / 2 ^ 10 % 1024)).map fun leaf => leaf (index % 1024)

/-- The leaf for `index`, fresh if there is none. -/
def physLeaf (table : PhysTable) (index : Nat) : Nat → PhysPageDesc :=
  ((table (index / 2 ^ 20 % 16)).bind fun middle => middle (index / 2 ^ 10 % 1024)).getD
    fun i => { physOffset := ioMemUnassigned, regionOffset := (index + i) * targetPageSize }

/-- `phys_page_find_alloc` with `alloc` set, followed by a store to the descriptor. -/
def physPageSet (table : PhysTable) (index : Nat) (desc : PhysPageDesc) : PhysTable :=
  let middle := (table (index / 2 ^ 20 % 16)).getD fun _ => none
  update table (index / 2 ^ 20 % 16) (some
    (update middle (index / 2 ^ 10 % 1024) (some
      (update (physLeaf table index) (index % 1024) desc))))

/-! ## Sub-pages -/

def subpageRegister (mmio : Subpage) (start last memory regionOffset : Nat) : Subpage :=
  if targetPageSize ≤ start ∨ targetPageSize ≤ last then mmio
  else
    let memory := if memory % targetPageSize = 0 then ioMemUnassigned else memory
    { subIoIndex := fun i => if start ≤ i ∧ i ≤ last then ioIndex memory else mmio.subIoIndex i
      regionOffset := fun i =>
        if start ≤ i ∧ i ≤ last then regionOffset else mmio.regionOffset i }

/-- `get_free_io_mem_idx`: the first of the 512 indices that is not in use. -/
def getFreeIoMemIdx (s : PhysState) : Option Nat := (List.range 512).find? fun i => !s.ioMemUsed i

/-- `subpage_init`: a sub-page in which every byte is `orig_memory`, and the `phys_offset` for it.
Without a free index the offset is `-1`. -/
def subpageInit (origMemory regionOffset : Nat) (s : PhysState) : Nat × Subpage × PhysState :=
  let mmio := subpageRegister ⟨fun _ => 0, fun _ => 0⟩ 0 (targetPageSize - 1) origMemory regionOffset
  match getFreeIoMemIdx s with
  | none => (2 ^ 64 - 1, mmio, s)
  | some index =>
    (index * 8 + 2, mmio,
      { s with
        ioMemUsed := update s.ioMemUsed index true
        subpages := update s.subpages index (some mmio) })

/-! ## Registration -/

/-- The arguments of `cpu_register_physical_memory_log`. -/
structure Registration where
  startAddr : Nat
  size : Nat
  physOffset : Nat
  regionOffset : Nat
  deriving DecidableEq

/-- Whether the offset of a page of memory advances from page to page. -/
def advances (physOffset : Nat) : Bool := physOffset % targetPageSize ≤ ioMemRom ∨ isRomd physOffset

/-- `CHECK_SUBPAGE`: the first and the last byte of the page that are registered, and whether these
are not all. -/
def checkSubpage (addr startAddr origSize : Nat) : Nat × Nat × Bool :=
  let first := if startAddr < addr then 0 else startAddr % targetPageSize
  let last := if targetPageSize ≤ startAddr + origSize - addr then targetPageSize - 1
    else (startAddr + origSize - 1) % targetPageSize
  (first, last, 0 < first ∨ last < targetPageSize - 1)

/-- Store a sub-page under the index its `phys_offset` names. -/
def storeSubpage (physOffset : Nat) (mmio : Subpage) (s : PhysState) : PhysState :=
  if (s.subpages (ioIndex physOffset)).isSome then
    { s with subpages := update s.subpages (ioIndex physOffset) (some mmio) }
  else s

def storeDesc (index : Nat) (desc : PhysPageDesc) (s : PhysState) : PhysState :=
  { s with l1PhysMap := physPageSet s.l1PhysMap index desc }

/-- A page that is assigned and only partly covered: the rest keeps what it was. -/
def registerInSubpage (index first last physOffset regionOffset : Nat) (desc : PhysPageDesc)
    (s : PhysState) : PhysState :=
  if isSubpage desc.physOffset then
    match s.subpages (ioIndex desc.physOffset) with
    | none => s
    | some mmio =>
      let s := storeSubpage desc.physOffset
        (subpageRegister mmio first last physOffset regionOffset) s
      storeDesc index { desc with regionOffset := 0 } s
  else
    let (pd, mmio, s) := subpageInit desc.physOffset desc.regionOffset s
    let s := storeSubpage pd (subpageRegister mmio first last physOffset regionOffset) s
    storeDesc index ⟨pd, 0⟩ s

/-- One round of the loop of `cpu_register_physical_memory_log`. -/
def registerPage (reg : Registration) (addr physOffset regionOffset : Nat) (s : PhysState) :
    PhysState :=
  let index := addr / targetPageSize
  let (first, last, needSubpage) := checkSubpage addr reg.startAddr reg.size
  let unassigned : PhysState :=
    let s := storeDesc index ⟨physOffset, regionOffset⟩ s
    if advances physOffset = false ∧ needSubpage = true then
      let (pd, mmio, s) := subpageInit ioMemUnassigned (pageMask addr) s
      let s := storeSubpage pd (subpageRegister mmio first last physOffset regionOffset) s
      storeDesc index ⟨pd, 0⟩ s
    else s
  match physPageFind s.l1PhysMap index with
  | none => unassigned
  | some desc =>
    if desc.physOffset = ioMemUnassigned then unassigned
    else if needSubpage then
      registerInSubpage index first last physOffset regionOffset desc s
    else storeDesc index { desc with physOffset := physOffset } s

/-- The loop of `cpu_register_physical_memory_log` over so many pages. -/
def registerPages (reg : Registration) : Nat → Nat → Nat → Nat → PhysState → PhysState
  | 0, _, _, _, s => s
  | pages + 1, addr, physOffset, regionOffset, s =>
    registerPages reg pages (addr + targetPageSize)
      (if advances physOffset then physOffset + targetPageSize else physOffset)
      (regionOffset + targetPageSize) (registerPage reg addr physOffset regionOffset s)

def cpuRegisterPhysicalMemoryLog (reg : Registration) : Prog PhysState Empty Unit :=
  if reg.size = 0 then Prog.abort
  else
    let regionOffset :=
      if reg.physOffset = ioMemUnassigned then reg.startAddr else reg.regionOffset
    let size := pageMask (reg.size + targetPageSize - 1)
    Prog.modify (registerPages reg (size / targetPageSize) reg.startAddr reg.physOffset
      (pageMask regionOffset))

/-! ## Access -/

/-- What an access gets to.  The handlers of `IO_MEM_ROM` and `IO_MEM_UNASSIGNED` are the
`unassigned_mem` functions, which ignore the address. -/
inductive Reached where
  | ram (offset : Nat)
  | io (index addr : Nat)
  | unassigned
  deriving DecidableEq

def handlers (index addr : Nat) : Reached :=
  if index = ioIndex ioMemRom ∨ index = ioIndex ioMemUnassigned then .unassigned else .io index addr

/-- Call the handlers of an index; those of a sub-page, `subpage_readlen` and `subpage_writelen`,
pass the call on. -/
def ioMem (s : PhysState) (index addr : Nat) : Reached :=
  match s.subpages index with
  | none => handlers index addr
  | some mmio =>
    let i := addr % targetPageSize
    handlers (mmio.subIoIndex i) (addr + mmio.regionOffset i)

variable (desc : Option PhysPageDesc)

/-- The `phys_offset` of a page, if it has a descriptor. -/
def pageOffset : Nat :=
  match desc with
  | none => ioMemUnassigned
  | some desc => desc.physOffset

/-- The address an I/O handler is called with. -/
def ioAddr (addr : Nat) : Nat :=
  match desc with
  | none => addr
  | some desc => addr % targetPageSize + desc.regionOffset

/-- Whether `cpu_physical_memory_rw` calls I/O handlers for the page. -/
def isIo (pd : Nat) (isWrite : Bool) : Bool :=
  if isWrite then pd % targetPageSize ≠ 0
  else ioMemRom < pd % targetPageSize ∧ isRomd pd = false

/-- What `cpu_physical_memory_rw` gets to at an address. -/
def reach (s : PhysState) (isWrite : Bool) (addr : Nat) : Reached :=
  let desc := physPageFind s.l1PhysMap (addr / targetPageSize)
  if isIo (pageOffset desc) isWrite then
    ioMem s (ioIndex (pageOffset desc)) (ioAddr desc addr)
  else .ram (pageMask (pageOffset desc) + addr % targetPageSize)

/-- How many bytes `cpu_physical_memory_rw` handles at once. -/
def rwLength (isWrite : Bool) (addr len : Nat) : Nat :=
  let l := min (targetPageSize - addr % targetPageSize) len
  if isIo (pageOffset desc) isWrite then
    if 4 ≤ l ∧ ioAddr desc addr % 4 = 0 then 4
    else if 2 ≤ l ∧ ioAddr desc addr % 2 = 0 then 2
    else 1
  else l

/-- One access of `cpu_physical_memory_rw`. -/
structure Access where
  addr : Nat
  length : Nat
  reached : Reached
  deriving DecidableEq

/-- The accesses that the loop of `cpu_physical_memory_rw` makes; each handles at least a byte. -/
def rwAccesses (s : PhysState) (isWrite : Bool) : Nat → Nat → Nat → List Access
  | 0, _, _ => []
  | fuel + 1, addr, len =>
    if len = 0 then []
    else
      let l := rwLength (physPageFind s.l1PhysMap (addr / targetPageSize)) isWrite addr len
      ⟨addr, l, reach s isWrite addr⟩ :: rwAccesses s isWrite fuel (addr + l) (len - l)

/-- `cpu_physical_memory_rw` without the data. -/
def cpuPhysicalMemoryRw (s : PhysState) (isWrite : Bool) (addr len : Nat) : List Access :=
  rwAccesses s isWrite len addr len

end Qemu.Exec
