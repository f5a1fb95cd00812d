import Qemu.Lib.Prog
import Qemu.Lib.Wire

/-!
# Live migration of RAM

The outgoing side sends the pages whose migration dirty bit is set, in a circular walk over the
RAM blocks that each call of `ram_save_block` resumes where the previous one stopped.  A page record
names its block only if it is not the block of the previous record.  The incoming side reads one
section for each call of `ram_save_live`.  A null pointer that is dereferenced aborts.
-/

namespace Qemu.Migration

open Prog

open Wire (be Feed)

def targetPageSize : Nat := 4096

/-- The identification of a block, without its terminating zero. -/
abbrev Idstr := List (BitVec 8)

/-- `RAMBlock`; its memory is found under its identification. -/
structure RAMBlock where
  idstr : Idstr
  offset : Nat
  length : Nat
  deriving DecidableEq

/-- The bytes behind `block->host`. -/
abbrev HostMemory := Idstr → Nat → BitVec 8

def ramSaveFlagCompress : Nat := 0x02
def ramSaveFlagMemSize : Nat := 0x04
def ramSaveFlagPage : Nat := 0x08
def ramSaveFlagEos : Nat := 0x10
def ramSaveFlagContinue : Nat := 0x20

/-- Follow a pointer. -/
def deref {σ ε α : Type} : Option α → Prog σ ε α
  | none => abort
  | some value => pure value

def qlistNext : List RAMBlock → RAMBlock → Option RAMBlock
  | [], _ => none
  | first :: rest, block => if first = block then rest.head? else qlistNext rest block

def pageOffsets (block : RAMBlock) : List Nat :=
  (List.range ((block.length + (targetPageSize - 1)) / targetPageSize)).map (targetPageSize * ·)

variable (blocks : List RAMBlock)

def ramBytesTotal : Nat := (blocks.map RAMBlock.length).sum

/-- `qemu_get_ram_ptr` moves the block that holds an address to the start of the list. -/
def moveToFront (block : RAMBlock) : List RAMBlock := block :: blocks.erase block

/-- The block that holds an address of the RAM address space. -/
def findBlock (addr : Nat) : Option RAMBlock :=
  blocks.find? fun block => decide (block.offset ≤ addr ∧ addr < block.offset + block.length)

section Outgoing

/-- The outgoing side. -/
structure Outgoing where
  blocks : List RAMBlock
  host : HostMemory
  /-- `ram_list.phys_dirty` -/
  physDirty : Nat → BitVec 8
  lastBlock : Option RAMBlock
  lastOffset : Nat
  bytesTransferred : Nat
  inMigration : Bool
  /-- What has been written to the file. -/
  file : List (BitVec 8)

def migrationDirtyFlag : BitVec 8 := 0x08

variable (physDirty : Nat → BitVec 8)

/-- `cpu_physical_memory_get_dirty` for the migration flag -/
def getDirty (addr : Nat) : Bool := physDirty (addr / targetPageSize) &&& migrationDirtyFlag != 0

/-- `cpu_physical_memory_reset_dirty` for the migration flag of one page -/
def resetDirty (addr : Nat) : Nat → BitVec 8 :=
  Function.update physDirty (addr / targetPageSize)
    (physDirty (addr / targetPageSize) &&& ~~~migrationDirtyFlag)

/-- `cpu_physical_memory_set_dirty` -/
def setDirty (addr : Nat) : Nat → BitVec 8 := Function.update physDirty (addr / targetPageSize) 0xff

/-- A word of a page on a little-endian host. -/
def wordAt (page : Nat → BitVec 8) (i : Nat) : BitVec 32 :=
  page (4 * i + 3) ++ page (4 * i + 2) ++ page (4 * i + 1) ++ page (4 * i)

def isDupPage (page : Nat → BitVec 8) (ch : BitVec 8) : Bool :=
  (List.range (targetPageSize / 4)).all fun i =>
    wordAt page i == (ch ++ ch ++ ch ++ ch : BitVec 32)

def pageAt (host : HostMemory) (block : RAMBlock) (offset : Nat) : Nat → BitVec 8 :=
  fun i => host block.idstr (offset + i)

def wireName (block : RAMBlock) : List (BitVec 8) :=
  BitVec.ofNat 8 block.idstr.length :: block.idstr

def pageRecord (host : HostMemory) (block : RAMBlock) (offset : Nat) (cont : Bool) :
    List (BitVec 8) :=
  let page := pageAt host block offset
  let contFlag := if cont then ramSaveFlagContinue else 0
  let name := if cont then [] else wireName block
  if isDupPage page (page 0) then
    be 8 (offset ||| contFlag ||| ramSaveFlagCompress) ++ name ++ [page 0]
  else
    be 8 (offset ||| contFlag ||| ramSaveFlagPage) ++ name ++ (List.range targetPageSize).map page

/-- `bytes_sent` for a page. -/
def bytesSent (host : HostMemory) (block : RAMBlock) (offset : Nat) : Nat :=
  let page := pageAt host block offset
  if isDupPage page (page 0) then 1 else targetPageSize

/-- The page after a page, in the circular order of the list. -/
def advance (block : RAMBlock) (offset : Nat) : Option (RAMBlock × Nat) :=
  if block.length ≤ offset + targetPageSize then
    ((qlistNext blocks block).or blocks.head?).map fun next => (next, 0)
  else some (block, offset + targetPageSize)

/-- The loop of `ram_save_block` up to its `break`: the position it stops at, and whether there is a
dirty page there. -/
def scan : Nat → RAMBlock → Nat → Prog Outgoing Empty (RAMBlock × Nat × Bool)
  | 0, _, _ => hang
  | fuel + 1, block, offset => do
      let s ← get
      if getDirty s.physDirty (block.offset + offset) then pure (block, offset, true)
      else do
        let next ← deref (advance s.blocks block offset)
        let last ← deref s.lastBlock
        if next.1.offset + next.2 ≠ last.offset + s.lastOffset then scan fuel next.1 next.2
        else pure (next.1, next.2, false)

/-- Clear the dirty bit of a page and write its record. -/
def Outgoing.sendPage (s : Outgoing) (block : RAMBlock) (offset : Nat) : Outgoing :=
  { s with
    physDirty := resetDirty s.physDirty (block.offset + offset)
    file := s.file ++ pageRecord s.host block offset (decide (some block = s.lastBlock)) }

/-- Remember where the walk has stopped. -/
def Outgoing.stopAt (s : Outgoing) (block : RAMBlock) (offset : Nat) : Outgoing :=
  { s with lastBlock := some block, lastOffset := offset }

/-- The number of pages of all blocks. -/
def pageCount : Nat := (blocks.map fun block => (pageOffsets block).length).sum

def ramSaveBlock : Prog Outgoing Empty Nat := do
  let s ← get
  let block ← deref (s.lastBlock.or s.blocks.head?)
  let stop ← scan (pageCount s.blocks + 1) block s.lastOffset
  if stop.2.2 then do
    modify fun s => (s.sendPage stop.1 stop.2.1).stopAt stop.1 stop.2.1
    pure (bytesSent s.host stop.1 stop.2.1)
  else do
    modify fun s => s.stopAt stop.1 stop.2.1
    pure 0

/-- Add to `bytes_transferred`. -/
def Outgoing.transfer (s : Outgoing) (count : Nat) : Outgoing :=
  { s with bytesTransferred := s.bytesTransferred + count }

/-- Send pages until `qemu_file_rate_limit` objects or no page is left; `limit` gives the answers of
`qemu_file_rate_limit`. -/
def sendLimited (limit : Nat → Bool) : Nat → Nat → Prog Outgoing Empty Unit
  | 0, _ => hang
  | fuel + 1, k =>
    if limit k then pure ()
    else do
      let sent ← ramSaveBlock
      modify fun s => s.transfer sent
      if sent = 0 then pure () else sendLimited limit fuel (k + 1)

/-- Send all remaining pages regardless of the rate limit. -/
def flush : Nat → Prog Outgoing Empty Unit
  | 0 => hang
  | fuel + 1 => do
      let sent ← ramSaveBlock
      if sent = 0 then pure ()
      else do
        modify fun s => s.transfer sent
        flush fuel

def sortRamList : List RAMBlock := blocks.insertionSort fun a b => a.offset ≤ b.offset

/-- Set the dirty bit of a page unless it is set. -/
def markPage (addr : Nat) : Nat → BitVec 8 :=
  if getDirty physDirty addr then physDirty else setDirty physDirty addr

def markAll : Nat → BitVec 8 :=
  blocks.foldl
    (fun bits block =>
      (pageOffsets block).foldl (fun bits offset => markPage bits (block.offset + offset)) bits)
    physDirty

/-- The list of blocks that opens the stream. -/
def blockList : List (BitVec 8) :=
  be 8 (ramBytesTotal blocks ||| ramSaveFlagMemSize) ++
    blocks.flatMap fun block => wireName block ++ be 8 block.length

/-- The first part of stage 1. -/
def Outgoing.start (s : Outgoing) : Outgoing :=
  { s with
    blocks := sortRamList s.blocks
    physDirty := markAll (sortRamList s.blocks) s.physDirty
    lastBlock := none
    lastOffset := 0
    bytesTransferred := 0
    inMigration := true
    file := s.file ++ blockList (sortRamList s.blocks) }

def setDirtyTracking (enable : Bool) : Prog Outgoing Empty Unit :=
  modify fun s => { s with inMigration := enable }

/-- Write to the file. -/
def putBytes (bytes : List (BitVec 8)) : Prog Outgoing Empty Unit :=
  modify fun s => { s with file := s.file ++ bytes }

/-- The part of `ram_save_live` that stage 3 adds. -/
def finish : Prog Outgoing Empty Unit := do
  let s ← get
  flush (pageCount s.blocks + 1)
  setDirtyTracking false

/-- `ram_save_live`, apart from its estimate of the remaining time.  There is no accelerator whose
dirty bitmap `cpu_physical_sync_dirty_bitmap` would have to fetch. -/
def ramSaveLive (stage : Int) (limit : Nat → Bool) : Prog Outgoing Empty Unit :=
  if stage < 0 then setDirtyTracking false
  else do
    modify fun s => if stage = 1 then s.start else s
    let s ← get
    sendLimited limit (pageCount s.blocks + 1) 0
    if stage = 3 then finish else pure ()
    putBytes (be 8 ramSaveFlagEos)

end Outgoing

section Incoming

/-- The codes that `ram_load` returns. -/
inductive LoadError where
  | eInval
  | eIo
  deriving DecidableEq

/-- The incoming side. -/
structure Incoming where
  blocks : List RAMBlock
  host : HostMemory
  /-- The static `block` of `host_from_stream_offset`. -/
  block : Option RAMBlock
  file : Feed
  /-- What is left in the array `id` from earlier calls. -/
  stale : List (BitVec 8)

abbrev Load (α : Type) := Prog Incoming LoadError α

def fetch {α : Type} (read : Feed → α × Feed) : Load α := fun r =>
  (.ok (read r.file).1, { r with file := (read r.file).2 })

def qemuGetByte : Load (BitVec 8) := fetch Feed.byte

def qemuGetBuffer (size : Nat) : Load (List (BitVec 8)) := fetch (Feed.bytes size)

/-- The range of `ram_addr_t` on a host with 32-bit pointers. -/
def ramAddrRange : Nat := 2 ^ 32

/-- `qemu_get_be64`, stored in a `ram_addr_t`. -/
def getRamAddr : Load Nat := do
  let value ← fetch (Feed.be 8)
  pure (value % ramAddrRange)

/-- A length byte and a string of this length, read as a C string; what a stream that breaks off
does not deliver is whatever the array held before. -/
def getIdstr : Load Idstr := do
  let len ← qemuGetByte
  let id ← qemuGetBuffer len.toNat
  let r ← get
  pure (((id ++ r.stale.drop id.length).take len.toNat).takeWhile (· != 0))

/-- `host_from_stream_offset`: the block and the offset that the returned pointer stands for. -/
def hostFromStreamOffset (offset flags : Nat) : Load (Option (RAMBlock × Nat)) :=
  if flags &&& ramSaveFlagContinue ≠ 0 then do
    let r ← get
    pure (r.block.map fun block => (block, offset))
  else do
    let id ← getIdstr
    modify fun r => { r with block := r.blocks.find? fun block => decide (block.idstr = id) }
    let r ← get
    pure (r.block.map fun block => (block, offset))

def qemuGetRamPtr (addr : Nat) : Load (RAMBlock × Nat) := do
  let r ← get
  let block ← deref (findBlock r.blocks addr)
  modify fun r => { r with blocks := moveToFront r.blocks block }
  pure (block, addr - block.offset)

variable (versionId : Int)

def pageTarget (addr flags : Nat) : Load (Option (RAMBlock × Nat)) :=
  if versionId = 3 then do
    let target ← qemuGetRamPtr addr
    pure (some target)
  else hostFromStreamOffset addr flags

def storeBytes (host : HostMemory) (target : RAMBlock × Nat) (bytes : List (BitVec 8)) :
    HostMemory := fun id offset =>
  if id = target.1.idstr ∧ target.2 ≤ offset then
    bytes[offset - target.2]?.getD (host id offset)
  else host id offset

/-- The loop that compares the list of blocks in the stream with the machine's. -/
def syncBlocks : Nat → Nat → Load Unit
  | 0, _ => hang
  | fuel + 1, totalRamBytes =>
    if totalRamBytes = 0 then pure ()
    else do
      let id ← getIdstr
      let length ← getRamAddr
      let r ← get
      match r.blocks.find? fun block => decide (block.idstr = id) with
      | none => throw .eInval
      | some block =>
        if block.length ≠ length then throw .eInval
        else syncBlocks fuel ((totalRamBytes + (ramAddrRange - length)) % ramAddrRange)

/-- The branch for `RAM_SAVE_FLAG_MEM_SIZE`. -/
def loadMemSize (addr : Nat) : Load Unit := do
  let r ← get
  if versionId = 3 then
    if addr ≠ ramBytesTotal r.blocks then throw .eInval else pure ()
  else syncBlocks (r.file.rest.length + 1) addr

/-- Store what the stream has delivered of a page; nothing is stored at a null pointer unless there
is something to store. -/
def storePage (host : Option (RAMBlock × Nat)) (page : List (BitVec 8)) : Load Unit :=
  match host with
  | some target => modify fun r => { r with host := storeBytes r.host target page }
  | none => if page = [] then pure () else abort

/-- The branches for the two kinds of page record. -/
def loadPage (addr flags : Nat) : Load Unit :=
  if flags &&& ramSaveFlagCompress ≠ 0 then do
    let host ← pageTarget versionId addr flags
    match host with
    | none => throw .eInval
    | some target => do
        let ch ← qemuGetByte
        modify fun r =>
          { r with host := storeBytes r.host target (List.replicate targetPageSize ch) }
  else if flags &&& ramSaveFlagPage ≠ 0 then do
    let host ← pageTarget versionId addr flags
    let page ← qemuGetBuffer targetPageSize
    storePage host page
  else pure ()

/-- One round of the loop of `ram_load`; the result tells whether it was the last. -/
def loadRecord : Load Bool := do
  let word ← getRamAddr
  let flags := word % targetPageSize
  let addr := word - flags
  if flags &&& ramSaveFlagMemSize ≠ 0 then loadMemSize versionId addr else pure ()
  loadPage versionId addr flags
  let r ← get
  if r.file.failed then throw .eIo else pure (flags &&& ramSaveFlagEos ≠ 0)

/-- The loop of `ram_load`. -/
def loadRecords (versionId : Int) : Nat → Load Unit
  | 0 => hang
  | fuel + 1 => do
      let last ← loadRecord versionId
      if last then pure () else loadRecords versionId fuel

def ramLoad : Load Unit :=
  if versionId < 3 ∨ 4 < versionId then throw .eInval
  else do
    let r ← get
    loadRecords versionId (r.file.rest.length + 1)

end Incoming

end Qemu.Migration
