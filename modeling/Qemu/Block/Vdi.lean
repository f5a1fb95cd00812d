import Qemu.Lib.Disk

/-!
# VDI images

This file embeds the asynchronous requests of `block/vdi.c`.  A request is a chain of callbacks
which share a `VdiAIOCB`; each callback submits the next operation on the file or completes the
request.  The memory of a request is modelled in one piece, as `vdi_aio_setup` arranges it.
-/

namespace Qemu.Block.Vdi

open Disk

def unallocated : Nat := 2 ^ 32 - 1

/-- `s->block_sectors`; `vdi_open` accepts only blocks of 1 MiB. -/
def blockSectors : Nat := 2048

abbrev Sector := Fin 512 → UInt8

def zeroSector : Sector := fun _ => 0

/-- `VdiHeader`: the fields that are used, and the header as it was stored at creation. -/
structure VdiHeader where
  offsetData : Nat
  diskSize : Nat
  blocksInImage : Nat
  blocksAllocated : Nat
  stored : Sector

/-- `BDRVVdiState`, with `bs->file` in sectors. -/
structure BDRVVdiState where
  file : Nat → Sector
  bmap : List Nat
  bmapSector : Nat
  header : VdiHeader

structure VdiAIOCB where
  sectorNum : Nat
  /-- The memory of the request, in sectors. -/
  mem : Nat → Sector
  /-- How far `buf` has been moved into it. -/
  buf : Nat
  /-- Sectors that remain, those of the current operation included. -/
  nbSectors : Nat
  /-- Sectors of the current operation. -/
  nSectors : Nat
  bmapFirst : Nat
  bmapLast : Nat
  /-- Buffer for a new block. -/
  blockBuffer : Option (Nat → Sector)
  headerModified : Bool

/-- What a callback does last. -/
inductive Callback where
  /-- The request is over; its own callback gets `ret`. -/
  | completed (ret : Int) (acb : VdiAIOCB)
  /-- An operation on the file, or a bottom half, will call back. -/
  | submitted (acb : VdiAIOCB)
  /-- An assertion failed. -/
  | aborted

variable (s : BDRVVdiState)

def BDRVVdiState.entry (blockIndex : Nat) : Nat := s.bmap.getD blockIndex unallocated

def BDRVVdiState.dataSector : Nat := s.header.offsetData / 512

/-- `bs->total_sectors`; an odd disk size is rounded up. -/
def BDRVVdiState.totalSectors : Nat := (s.header.diskSize + 511) / 512

/-- A dynamic image created by `vdi_create` and opened by `vdi_open`; nothing is known of the text of
the header, nor of sectors behind the end of the file. -/
def vdiCreate (bytes : Nat) (stored : Sector) (file : Nat → Sector) : BDRVVdiState :=
  let blocks := (bytes + 2 ^ 20 - 1) / 2 ^ 20 % 2 ^ 32
  let bmapSize := (blocks * 4 + 511) / 512 * 512
  { file
    bmap := List.replicate blocks unallocated
    bmapSector := 1
    header :=
      { offsetData := (0x200 + bmapSize) % 2 ^ 32
        diskSize := bytes
        blocksInImage := blocks
        blocksAllocated := 0
        stored } }

def vdiAioSetup (sectorNum nbSectors : Nat) (mem : Nat → Sector) : VdiAIOCB where
  sectorNum := sectorNum
  mem := mem
  buf := 0
  nbSectors := nbSectors
  nSectors := 0
  bmapFirst := unallocated
  bmapLast := unallocated
  blockBuffer := none
  headerModified := false

variable (acb : VdiAIOCB)

def vdiAioReadCb (ret : Int) : Callback :=
  if ret < 0 then .completed ret acb
  else
    let nbSectors := acb.nbSectors - acb.nSectors
    if nbSectors = 0 then .completed 0 acb
    else
      let sectorNum := acb.sectorNum + acb.nSectors
      let buf := acb.buf + acb.nSectors
      let sectorInBlock := sectorNum % blockSectors
      let nSectors := min (blockSectors - sectorInBlock) nbSectors
      let bmapEntry := s.entry (sectorNum / blockSectors)
      let offset := s.dataSector + bmapEntry * blockSectors + sectorInBlock
      let source : Nat → Sector :=
        if bmapEntry = unallocated then fun _ => zeroSector else fun i => s.file (offset + i)
      .submitted { acb with nbSectors, sectorNum, buf, nSectors,
                            mem := patch acb.mem buf nSectors source }

/-- The header as it is written back. -/
def headerSector (header : VdiHeader) : Sector := fun i =>
  if 388 ≤ i.val ∧ i.val < 392 then UInt8.ofNat (header.blocksAllocated / 256 ^ (i.val - 388))
  else header.stored i

/-- Sector `k` of the block map, with its little-endian entries. -/
def bmapSectorContent (bmap : List Nat) (k : Nat) : Sector := fun i =>
  UInt8.ofNat (bmap.getD (k * 128 + i.val / 4) 0 / 256 ^ (i.val % 4))

/-- Write sectors to `bs->file`. -/
def BDRVVdiState.writeFile (offset count : Nat) (source : Nat → Sector) : BDRVVdiState :=
  { s with file := patch s.file offset count source }

/-- The part of `vdi_aio_write_cb` after the last data sector: the header, the changed part of the
block map, and completion. -/
def finishWrite : BDRVVdiState × Callback :=
  if acb.headerModified then
    if acb.bmapFirst = unallocated then (s, .aborted)
    else
      (s.writeFile 0 1 fun _ => headerSector s.header,
        .submitted { acb with nSectors := 0, headerModified := false })
  else if acb.bmapFirst ≠ unallocated then
    let bmapFirst := acb.bmapFirst / 128
    let nSectors := acb.bmapLast / 128 - bmapFirst + 1
    (s.writeFile (s.bmapSector + bmapFirst) nSectors
        fun k => bmapSectorContent s.bmap (bmapFirst + k),
      .submitted { acb with nSectors := 0, blockBuffer := none, bmapFirst := unallocated })
  else (s, .completed 0 { acb with nSectors := 0 })

/-- The part of `vdi_aio_write_cb` which allocates a block for the sectors to be written. -/
def allocateBlock (blockIndex sectorInBlock : Nat) : BDRVVdiState × Callback :=
  let bmapEntry := s.header.blocksAllocated
  let s := { s with
    bmap := s.bmap.set blockIndex bmapEntry
    header := { s.header with blocksAllocated := (bmapEntry + 1) % 2 ^ 32 } }
  let offset := s.dataSector + bmapEntry * blockSectors
  let fresh := acb.blockBuffer.isNone
  let block := patch (acb.blockBuffer.getD fun _ => zeroSector) sectorInBlock acb.nSectors
    fun i => acb.mem (acb.buf + i)
  if fresh && acb.headerModified then (s, .aborted)
  else
    (s.writeFile offset blockSectors block,
      .submitted { acb with
        blockBuffer := some block
        bmapFirst := if fresh then blockIndex else acb.bmapFirst
        headerModified := fresh || acb.headerModified
        bmapLast := blockIndex })

def vdiAioWriteCb (ret : Int) : BDRVVdiState × Callback :=
  if ret < 0 then (s, .completed ret acb)
  else
    let acb := { acb with
      nbSectors := acb.nbSectors - acb.nSectors
      sectorNum := acb.sectorNum + acb.nSectors
      buf := acb.buf + acb.nSectors }
    if acb.nbSectors = 0 then finishWrite s acb
    else
      let blockIndex := acb.sectorNum / blockSectors
      let sectorInBlock := acb.sectorNum % blockSectors
      let nSectors := min (blockSectors - sectorInBlock) acb.nbSectors
      let acb := { acb with nSectors }
      let bmapEntry := s.entry blockIndex
      if bmapEntry = unallocated then allocateBlock s acb blockIndex sectorInBlock
      else
        let offset := s.dataSector + bmapEntry * blockSectors + sectorInBlock
        (s.writeFile offset nSectors fun i => acb.mem (acb.buf + i), .submitted acb)

/-- Call `vdi_aio_read_cb` until the request completes, every operation having succeeded. -/
def readLoop (s : BDRVVdiState) : Nat → VdiAIOCB → Option VdiAIOCB
  | 0, _ => none
  | fuel + 1, acb =>
    match vdiAioReadCb s acb 0 with
    | .completed _ acb => some acb
    | .submitted acb => readLoop s fuel acb
    | .aborted => none

/-- Call `vdi_aio_write_cb` until the request completes, every operation having succeeded. -/
def writeLoop : Nat → BDRVVdiState → VdiAIOCB → Option BDRVVdiState
  | 0, _, _ => none
  | fuel + 1, s, acb =>
    match vdiAioWriteCb s acb 0 with
    | (s, .completed _ _) => some s
    | (s, .submitted acb) => writeLoop fuel s acb
    | (_, .aborted) => none

/-- A request from the guest. -/
inductive Request where
  | read (sectorNum nbSectors : Nat)
  | write (sectorNum nbSectors : Nat) (data : Nat → Sector)

/-- The request lies on the disk, as `bdrv_check_request` demands. -/
def Request.OnDisk (totalSectors : Nat) : Request → Prop
  | .read sectorNum nbSectors | .write sectorNum nbSectors _ =>
    sectorNum + nbSectors ≤ totalSectors

/-- `vdi_aio_readv` and `vdi_aio_writev`, run to completion: the image afterwards and the sectors
read.  The memory of a read holds `junk` before.  Each callback but the last three gets on by a
sector, which bounds their number. -/
def perform (junk : Nat → Sector) (s : BDRVVdiState) : Request →
    Option (BDRVVdiState × List Sector)
  | .read sectorNum nbSectors => do
      let acb ← readLoop s (nbSectors + 4) (vdiAioSetup sectorNum nbSectors junk)
      return (s, (List.range nbSectors).map acb.mem)
  | .write sectorNum nbSectors data => do
      let s ← writeLoop (nbSectors + 4) s (vdiAioSetup sectorNum nbSectors data)
      return (s, [])

end Qemu.Block.Vdi
