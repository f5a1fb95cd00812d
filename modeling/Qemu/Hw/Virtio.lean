import Qemu.Lib.Prog

/-!
# Virtqueues

Two functions of the virtio transport walk the descriptor chains that a guest makes available:
`virtqueue_pop` collects the buffers of the next chain, and `virtqueue_avail_bytes` looks ahead and
tells whether the available chains offer enough room.  Guest memory is read through its loads and
does not change during a call.  Every `exit(1)` is an error that carries its report.
-/

namespace Qemu.Hw.Virtio

open Prog

/-- `target_phys_addr_t` of the PC targets. -/
abbrev Addr := BitVec 64

/-- The guest's memory as the transport sees it: typed loads, and whether `cpu_physical_memory_map`
maps a whole range for reading or for writing. -/
structure GuestMemory where
  ldq : Addr → BitVec 64
  ldl : Addr → BitVec 32
  lduw : Addr → BitVec 16
  /-- The range is mapped in full: address, length and `is_write`. -/
  maps : Addr → BitVec 32 → Bool → Bool

structure VRing where
  num : Nat
  desc : Addr
  avail : Addr
  used : Addr
  deriving DecidableEq

/-- `VirtQueue`, with the event index feature of its device and the stores made to the used ring. -/
structure VirtQueue where
  vring : VRing
  lastAvailIdx : BitVec 16
  notification : Bool
  inuse : Int
  eventIdx : Bool
  stores : List (Addr × BitVec 16)
  deriving DecidableEq

/-- An address and a length, as `in_addr` and `in_sg` or `out_addr` and `out_sg` hold them. -/
structure Segment where
  addr : Addr
  len : BitVec 32
  deriving DecidableEq

structure VirtQueueElement where
  index : Nat
  inSg : List Segment
  outSg : List Segment
  deriving DecidableEq

/-- Size of the arrays of a `VirtQueueElement`. -/
def virtqueueMaxSize : Nat := 1024

/-- `sizeof(VRingDesc)` -/
def descSize : Nat := 16

/-- A call on a queue; an error is the report made before `exit(1)`. -/
abbrev Call (α : Type) := Prog VirtQueue String α

section Ring

variable (mem : GuestMemory)

section

variable (descPa : Addr) (i : Nat)

def vringDescAddr : BitVec 64 := mem.ldq (descPa + BitVec.ofNat 64 (descSize * i))

def vringDescLen : BitVec 32 := mem.ldl (descPa + BitVec.ofNat 64 (descSize * i + 8))

def vringDescFlags : BitVec 16 := mem.lduw (descPa + BitVec.ofNat 64 (descSize * i + 12))

def vringDescNext : BitVec 16 := mem.lduw (descPa + BitVec.ofNat 64 (descSize * i + 14))

/-- `VRING_DESC_F_NEXT` is set. -/
def chained : Bool := (vringDescFlags mem descPa i).getLsbD 0

/-- `VRING_DESC_F_WRITE` is set: the device writes this buffer. -/
def writable : Bool := (vringDescFlags mem descPa i).getLsbD 1

def indirect : Bool := (vringDescFlags mem descPa i).getLsbD 2

def vringAvailIdx (vring : VRing) : BitVec 16 := mem.lduw (vring.avail + 2)

def vringAvailRing (vring : VRing) (i : Nat) : BitVec 16 :=
  mem.lduw (vring.avail + BitVec.ofNat 64 (4 + 2 * i))

def vringAvailEvent (value : BitVec 16) (vq : VirtQueue) : VirtQueue :=
  if vq.notification then
    { vq with
      stores := (vq.vring.used + BitVec.ofNat 64 (4 + 8 * vq.vring.num), value) :: vq.stores }
  else vq

def virtqueueNumHeads (vring : VRing) (idx : Nat) : Call Nat :=
  let numHeads := (vringAvailIdx mem vring - BitVec.ofNat 16 idx).toNat
  if vring.num < numHeads then
    throw ("Guest moved used index from " ++ toString idx ++ " to " ++
      toString (vringAvailIdx mem vring).toNat)
  else pure numHeads

def virtqueueGetHead (vring : VRing) (idx : Nat) : Call Nat :=
  let head := (vringAvailRing mem vring (idx % vring.num)).toNat
  if vring.num ≤ head then
    throw ("Guest says index " ++ toString head ++ " is available")
  else pure head

def virtqueueNextDesc (i max : Nat) : Call Nat :=
  if chained mem descPa i then
    if max ≤ (vringDescNext mem descPa i).toNat then
      throw ("Desc next is " ++ toString (vringDescNext mem descPa i).toNat)
    else pure (vringDescNext mem descPa i).toNat
  else pure max

end

end Ring

section AvailBytes

variable (mem : GuestMemory)

structure Totals where
  inTotal : BitVec 32
  outTotal : BitVec 32

/-- The byte counts of one descriptor in `virtqueue_avail_bytes`: the new totals, and whether the
function returns 1 here. -/
def account (descPa : Addr) (i : Nat) (inBytes outBytes : Int) (totals : Totals) : Totals × Bool :=
  if writable mem descPa i then
    if 0 < inBytes then
      let inTotal := totals.inTotal + vringDescLen mem descPa i
      ({ totals with inTotal := inTotal }, decide (inBytes ≤ inTotal.toInt))
    else (totals, false)
  else
    if 0 < outBytes then
      let outTotal := totals.outTotal + vringDescLen mem descPa i
      ({ totals with outTotal := outTotal }, decide (outBytes ≤ outTotal.toInt))
    else (totals, false)

/-- The inner loop of `virtqueue_avail_bytes`; `none` stands for its `return 1`. -/
def availChain (descPa : Addr) (max : Nat) (inBytes outBytes : Int) :
    Nat → Nat → Nat → Totals → Call (Option (Nat × Totals))
  | 0, _, _, _ => hang
  | fuel + 1, i, numBufs, totals =>
    if max < numBufs + 1 then throw "Looped descriptor"
    else
      match account mem descPa i inBytes outBytes totals with
      | (_, true) => pure none
      | (totals, false) => do
          let next ← virtqueueNextDesc mem descPa i max
          if next = max then pure (some (numBufs + 1, totals))
          else availChain descPa max inBytes outBytes fuel next (numBufs + 1) totals

/-- A descriptor table and the entry a walk over it starts with. -/
structure Table where
  descPa : Addr
  max : Nat
  start : Nat

/-- The table that `virtqueue_avail_bytes` walks for a chain.  It clears `i` before it reads the
address of an indirect table, so this address is that of descriptor 0. -/
def availTable (vring : VRing) (head : Nat) : Table :=
  if indirect mem vring.desc head then
    ⟨vringDescAddr mem vring.desc 0, (vringDescLen mem vring.desc head).toNat / descSize, 0⟩
  else ⟨vring.desc, vring.num, head⟩

/-- The checks made before an indirect table is entered. -/
def enterTable (vring : VRing) (head totalBufs : Nat) : Call Unit :=
  if indirect mem vring.desc head then
    if (vringDescLen mem vring.desc head).toNat % descSize ≠ 0 then
      throw "Invalid size for indirect buffer table"
    else if vring.num ≤ totalBufs then throw "Looped descriptor"
    else pure ()
  else pure ()

/-- The outer loop of `virtqueue_avail_bytes`. -/
def availHeads (vring : VRing) (inBytes outBytes : Int) :
    Nat → Nat → Nat → Totals → Call Nat
  | 0, _, _, _ => hang
  | fuel + 1, idx, totalBufs, totals => do
      let numHeads ← virtqueueNumHeads mem vring idx
      if numHeads = 0 then pure 0
      else do
        let head ← virtqueueGetHead mem vring idx
        enterTable mem vring head totalBufs
        let table := availTable mem vring head
        let walked ← availChain mem table.descPa table.max inBytes outBytes (table.max + 1)
          table.start (if indirect mem vring.desc head then 0 else totalBufs) totals
        match walked with
        | none => pure 1
        | some (numBufs, totals) =>
          availHeads vring inBytes outBytes fuel (idx + 1)
            (if indirect mem vring.desc head then totalBufs + 1 else numBufs) totals

def virtqueueAvailBytes (inBytes outBytes : Int) : Call Nat := do
  let vq ← get
  availHeads mem vq.vring inBytes outBytes (2 ^ 16) vq.lastAvailIdx.toNat 0 ⟨0, 0⟩

end AvailBytes

section Pop

variable (mem : GuestMemory)

def collectDesc (descPa : Addr) (i : Nat) (elem : VirtQueueElement) : Call VirtQueueElement :=
  let segment : Segment := ⟨vringDescAddr mem descPa i, vringDescLen mem descPa i⟩
  if writable mem descPa i then
    if virtqueueMaxSize ≤ elem.inSg.length then
      throw "Too many write descriptors in indirect table"
    else pure { elem with inSg := elem.inSg ++ [segment] }
  else
    if virtqueueMaxSize ≤ elem.outSg.length then
      throw "Too many read descriptors in indirect table"
    else pure { elem with outSg := elem.outSg ++ [segment] }

/-- The loop of `virtqueue_pop` that collects the descriptors of a chain. -/
def collect (descPa : Addr) (max : Nat) : Nat → Nat → VirtQueueElement → Call VirtQueueElement
  | 0, _, _ => hang
  | fuel + 1, i, elem => do
      let elem ← collectDesc mem descPa i elem
      if max < elem.inSg.length + elem.outSg.length then throw "Looped descriptor"
      else do
        let next ← virtqueueNextDesc mem descPa i max
        if next = max then pure elem else collect descPa max fuel next elem

def virtqueueMapSg (sg : List Segment) (isWrite : Bool) : Call Unit :=
  if sg.all fun segment => mem.maps segment.addr segment.len isWrite then pure ()
  else throw "virtio: trying to map MMIO memory"

/-- The table that `virtqueue_pop` walks for a chain. -/
def popTable (vring : VRing) (head : Nat) : Table :=
  if indirect mem vring.desc head then
    ⟨vringDescAddr mem vring.desc head, (vringDescLen mem vring.desc head).toNat / descSize, 0⟩
  else ⟨vring.desc, vring.num, head⟩

/-- The part of `virtqueue_pop` that starts with the switch to an indirect table. -/
def popChain (vring : VRing) (head : Nat) : Call VirtQueueElement :=
  if indirect mem vring.desc head ∧ (vringDescLen mem vring.desc head).toNat % descSize ≠ 0 then
    throw "Invalid size for indirect buffer table"
  else do
    let table := popTable mem vring head
    let elem ← collect mem table.descPa table.max (table.max + 1) table.start ⟨head, [], []⟩
    virtqueueMapSg mem elem.inSg true
    virtqueueMapSg mem elem.outSg false
    pure elem

/-- Take the next head, and publish how far the ring has been read. -/
def takeHead (vq : VirtQueue) : VirtQueue :=
  let taken := { vq with lastAvailIdx := vq.lastAvailIdx + 1 }
  if vq.eventIdx then vringAvailEvent (vringAvailIdx mem vq.vring) taken else taken

/-- `virtqueue_pop`; `none` stands for its `return 0`. -/
def virtqueuePop : Call (Option VirtQueueElement) := do
  let vq ← get
  let numHeads ← virtqueueNumHeads mem vq.vring vq.lastAvailIdx.toNat
  if numHeads = 0 then pure none
  else do
    let head ← virtqueueGetHead mem vq.vring vq.lastAvailIdx.toNat
    modify (takeHead mem)
    let elem ← popChain mem vq.vring head
    modify fun vq => { vq with inuse := vq.inuse + 1 }
    pure (some elem)

/-- Successive calls of `virtqueue_pop`, up to the one that finds the ring empty, return the
elements. -/
inductive Pops : VirtQueue → List VirtQueueElement → Prop where
  | empty {vq after : VirtQueue} (run : virtqueuePop mem vq = (.ok none, after)) : Pops vq []
  | more {vq after : VirtQueue} {elem : VirtQueueElement} {rest : List VirtQueueElement}
      (run : virtqueuePop mem vq = (.ok (some elem), after)) (others : Pops after rest) :
      Pops vq (elem :: rest)

end Pop

end Qemu.Hw.Virtio
