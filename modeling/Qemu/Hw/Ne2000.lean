import Qemu.Lib.Prog

/-!
# The NE2000 network card

The card has 48 KiB of memory.  `ne2000_receive` copies a packet into a ring of 256-byte pages
between two registers, and the guest moves data through the remote-DMA port.  Every access to the
card's memory is recorded in the ghost component `touched`.
-/

namespace Qemu.Hw

open Prog List

/-- `NE2000_MEM_SIZE`, which is also `NE2000_PMEM_END`. -/
def ne2000MemSize : Nat := 48 * 1024

def ne2000PmemStart : Nat := 16 * 1024

structure Ne2000State where
  cmd : BitVec 8
  start : Nat
  stop : Nat
  boundary : BitVec 8
  tsr : BitVec 8
  tpsr : BitVec 8
  tcnt : Nat
  rcnt : Nat
  rsar : Nat
  rsr : BitVec 8
  rxcr : BitVec 8
  isr : BitVec 8
  dcfg : BitVec 8
  imr : BitVec 8
  phys : Nat → BitVec 8
  curpag : BitVec 8
  mult : Nat → BitVec 8
  macaddr : Nat → BitVec 8
  irq : Bool
  mem : Nat → BitVec 8
  sent : List (List (BitVec 8))
  touched : List Nat

abbrev Ne2000Prog := Prog Ne2000State Empty

def hasBits (value mask : BitVec 8) : Bool := value &&& mask ≠ 0

/-- Read `s->mem[i]`. -/
def ne2000Load (i : Nat) : Ne2000Prog (BitVec 8) := fun s =>
  (.ok (s.mem i), { s with touched := s.touched ++ [i] })

/-- Write `s->mem[i]`. -/
def ne2000Store (i : Nat) (value : BitVec 8) : Ne2000Prog Unit :=
  modify fun s =>
    { s with mem := Function.update s.mem i value, touched := s.touched ++ [i] }

/-- `memcpy` to `s->mem + index`. -/
def ne2000StoreAll : Nat → List (BitVec 8) → Ne2000Prog Unit
  | _, [] => pure ()
  | index, value :: rest => do
      ne2000Store index value
      ne2000StoreAll (index + 1) rest

variable (s : Ne2000State)

def ne2000UpdateIrq : Ne2000State := { s with irq := (s.isr &&& s.imr) &&& 0x7f ≠ 0 }

/-- `ne2000_reset`: the station address, twice each byte. -/
def ne2000Reset : Ne2000State :=
  let prom := fun i => if i < 6 then s.macaddr i
    else if i = 14 ∨ i = 15 then 0x57 else s.mem i
  { s with isr := 0x80, mem := fun i => if i < 32 then prom (i / 2) else s.mem i }

/-! ## Reception -/

/-- One bit of the checksum of `compute_mcast_idx`. -/
def mcastBit (state : BitVec 32 × BitVec 8) : BitVec 32 × BitVec 8 :=
  let carry := state.1.msb ^^ state.2.getLsbD 0
  let crc := state.1 <<< 1
  (if carry then (crc ^^^ 0x04c11db6) ||| 1 else crc, state.2 >>> 1)

variable (buf : List (BitVec 8))

def computeMcastIdx : Nat :=
  let crc := (range 6).foldl (fun crc i =>
    ((range 8).foldl (fun state _ => mcastBit state) (crc, buf.getD i 0)).1) 0xffffffff
  (crc >>> 26).toNat

def ne2000BufferFull : Bool :=
  let index := s.curpag.toNat * 256
  let boundary := s.boundary.toNat * 256
  let avail : Int :=
    if index < boundary then boundary - index
    else ((s.stop : Int) - s.start - (index - boundary)).bmod (2 ^ 32)
  avail < 1514 + 4

/-- Compare bytes of the card's memory with bytes of the packet, up to the first that differ. -/
def ne2000Match : List (Nat × BitVec 8) → Ne2000Prog Bool
  | [] => pure true
  | (i, value) :: rest => do
      let own ← ne2000Load i
      if own = value then ne2000Match rest else pure false

/-- The address filter of `ne2000_receive`. -/
def ne2000Wants : Ne2000Prog Bool := do
  let s ← get
  if hasBits s.rxcr 0x10 then pure true
  else if ∀ i < 6, buf.getD i 0 = 0xff then pure (hasBits s.rxcr 0x04)
  else if hasBits (buf.getD 0 0) 0x01 then
    if hasBits s.rxcr 0x08 then
      let mcastIdx := computeMcastIdx buf
      pure ((s.mult (mcastIdx / 8)).getLsbD (mcastIdx % 8))
    else pure false
  else ne2000Match ((range 6).map fun i => (2 * i, buf.getD i 0))

/-- The copy loop of `ne2000_receive`. -/
def ne2000Copy : Nat → List (BitVec 8) → Nat → Ne2000Prog Unit
  | 0, _, _ => hang
  | fuel + 1, buf, index =>
    if buf = [] then pure ()
    else do
      let s ← get
      let avail := if index ≤ s.stop then s.stop - index else 0
      let len := min buf.length avail
      ne2000StoreAll index (buf.take len)
      ne2000Copy fuel (buf.drop len)
        (if index + len = s.stop then s.start else index + len)

/-- A packet is filled up to `MIN_BUF_SIZE`. -/
def ne2000Pad : List (BitVec 8) := buf ++ replicate (60 - buf.length) 0

/-- The address of the next packet, with 4 bytes for the checksum. -/
def ne2000Next (totalLen : Nat) : Nat :=
  let ahead := s.curpag.toNat * 256 + (totalLen + 4 + 255) / 256 * 256
  if s.stop ≤ ahead then (((ahead : Int) - (s.stop - s.start)) % 2 ^ 32).toNat else ahead

/-- The receive status of a packet. -/
def ne2000Rsr : BitVec 8 :=
  if hasBits (buf.getD 0 0) 0x01 then 0x01 ||| 0x20 else 0x01

/-- The part of `ne2000_receive` that stores the packet. -/
def ne2000Enter (fuel : Nat) (buf : List (BitVec 8)) : Ne2000Prog Unit := do
  let s ← get
  let index := s.curpag.toNat * 256
  let totalLen := buf.length + 4
  let next := ne2000Next s totalLen
  modify fun s => { s with rsr := ne2000Rsr buf }
  ne2000StoreAll index [ne2000Rsr buf, BitVec.ofNat 8 (next / 256), BitVec.ofNat 8 totalLen,
    BitVec.ofNat 8 (totalLen / 256)]
  ne2000Copy fuel buf (index + 4)
  modify fun s => ne2000UpdateIrq
    { s with curpag := BitVec.ofNat 8 (next / 256), isr := s.isr ||| 0x01 }

/-- `ne2000_receive`; `fuel` bounds the rounds of the copy loop. -/
def ne2000Receive (fuel : Nat) (buf : List (BitVec 8)) : Ne2000Prog Int := do
  let s ← get
  if hasBits s.cmd 0x01 ∨ ne2000BufferFull s then pure (-1)
  else do
    let wanted ← ne2000Wants buf
    if wanted then ne2000Enter fuel (ne2000Pad buf)
    pure buf.length

/-! ## Ports -/

/-- A command that starts a transmission sends the packet if it lies in the packet memory. -/
def ne2000Transmit : Ne2000State :=
  let page := s.tpsr.toNat * 256
  let index := if ne2000MemSize ≤ page then page - 32 * 1024 else page
  let sent := if index + s.tcnt ≤ ne2000MemSize
    then s.sent ++ [(range s.tcnt).map fun i => s.mem (index + i)] else s.sent
  ne2000UpdateIrq { s with
    sent := sent, tsr := 0x01, isr := s.isr ||| 0x02, cmd := s.cmd &&& ~~~ 0x04#8 }

/-- A write to the command register. -/
def ne2000Command (val : BitVec 8) (s : Ne2000State) : Ne2000State :=
  let s := { s with cmd := val }
  if hasBits val 0x01 then s
  else
    let s := { s with isr := s.isr &&& ~~~ 0x80#8 }
    let s := if hasBits val 0x18 ∧ s.rcnt = 0 then
      ne2000UpdateIrq { s with isr := s.isr ||| 0x40 } else s
    if hasBits val 0x04 then ne2000Transmit s else s

def ne2000IoportWrite (addr : Nat) (val : BitVec 8) (s : Ne2000State) : Ne2000State :=
  if addr % 16 = 0 then ne2000Command val s
  else
    match s.cmd.toNat / 64 * 16 + addr % 16 with
    | 0x01 => { s with start := val.toNat * 256 }
    | 0x02 => { s with stop := val.toNat * 256 }
    | 0x03 => { s with boundary := val }
    | 0x0f => ne2000UpdateIrq { s with imr := val }
    | 0x04 => { s with tpsr := val }
    | 0x05 => { s with tcnt := s.tcnt / 256 % 256 * 256 + val.toNat }
    | 0x06 => { s with tcnt := s.tcnt % 256 + val.toNat * 256 }
    | 0x08 => { s with rsar := s.rsar / 256 % 256 * 256 + val.toNat }
    | 0x09 => { s with rsar := s.rsar % 256 + val.toNat * 256 }
    | 0x0a => { s with rcnt := s.rcnt / 256 % 256 * 256 + val.toNat }
    | 0x0b => { s with rcnt := s.rcnt % 256 + val.toNat * 256 }
    | 0x0c => { s with rxcr := val }
    | 0x0e => { s with dcfg := val }
    | 0x07 => ne2000UpdateIrq { s with isr := s.isr &&& ~~~ (val &&& 0x7f) }
    | 0x17 => { s with curpag := val }
    | offset =>
      if 0x11 ≤ offset ∧ offset ≤ 0x16 then
        { s with phys := Function.update s.phys (offset - 0x11) val }
      else if 0x18 ≤ offset ∧ offset ≤ 0x1f then
        { s with mult := Function.update s.mult (offset - 0x18) val }
      else s

/-- The addresses that the remote-DMA accessors let through. -/
def ne2000Admits (addr : Nat) : Bool := addr < 32 ∨ (ne2000PmemStart ≤ addr ∧ addr < ne2000MemSize)

/-- The accessors for one, two and four bytes: `ne2000_mem_writeb`, `ne2000_mem_writew` and
`ne2000_mem_writel`.  The wide ones clear the lowest bit of the address only. -/
def ne2000MemWrite (width addr : Nat) (val : BitVec 32) : Ne2000Prog Unit :=
  let addr := if width = 1 then addr else addr - addr % 2
  if ne2000Admits addr then
    ne2000StoreAll addr ((range width).map fun i => (val >>> (8 * i)).setWidth 8)
  else pure ()

/-- Read so many bytes from `s->mem + index`, the lowest first. -/
def ne2000LoadAll : Nat → Nat → Ne2000Prog (List (BitVec 8))
  | _, 0 => pure []
  | index, count + 1 => do
      let first ← ne2000Load index
      let rest ← ne2000LoadAll (index + 1) count
      pure (first :: rest)

/-- `ne2000_mem_readb`, `ne2000_mem_readw` and `ne2000_mem_readl`. -/
def ne2000MemRead (width addr : Nat) : Ne2000Prog (List (BitVec 8)) :=
  let addr := if width = 1 then addr else addr - addr % 2
  if ne2000Admits addr then ne2000LoadAll addr width else pure (replicate width 0xff)

def ne2000DmaUpdate (len : Nat) (s : Ne2000State) : Ne2000State :=
  let rsar := (s.rsar + len) % 2 ^ 32
  let s := { s with rsar := if rsar = s.stop then s.start else rsar }
  if s.rcnt ≤ len then ne2000UpdateIrq { s with rcnt := 0, isr := s.isr ||| 0x40 }
  else { s with rcnt := s.rcnt - len }

/-- The width of an access to the data port that is not 32 bits wide. -/
def ne2000Width : Nat := if hasBits s.dcfg 0x01 then 2 else 1

def ne2000AsicWrite (width : Ne2000State → Nat) (val : BitVec 32) : Ne2000Prog Unit := do
  let s ← get
  if s.rcnt = 0 then pure ()
  else do
    ne2000MemWrite (width s) s.rsar val
    modify (ne2000DmaUpdate (width s))

def ne2000AsicRead (width : Ne2000State → Nat) : Ne2000Prog (List (BitVec 8)) := do
  let s ← get
  let value ← ne2000MemRead (width s) s.rsar
  modify (ne2000DmaUpdate (width s))
  pure value

/-- What can happen to the card. -/
inductive Ne2000Op where
  | ioportWrite (addr : Nat) (val : BitVec 8)
  | asicWrite (val : BitVec 32)
  | asicRead
  | asicWritel (val : BitVec 32)
  | asicReadl
  | reset
  | receive (buf : List (BitVec 8))

def Ne2000Op.run (fuel : Nat) : Ne2000Op → Ne2000Prog Unit
  | .ioportWrite addr val => modify (ne2000IoportWrite addr val)
  | .asicWrite val => ne2000AsicWrite ne2000Width val
  | .asicRead => do
      let _ ← ne2000AsicRead ne2000Width
      pure ()
  | .asicWritel val => ne2000AsicWrite (fun _ => 4) val
  | .asicReadl => do
      let _ ← ne2000AsicRead fun _ => 4
      pure ()
  | .reset => modify ne2000Reset
  | .receive buf => do
      let _ ← ne2000Receive fuel buf
      pure ()

end Qemu.Hw
