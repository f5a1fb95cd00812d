import Mathlib

/-!
# Transfers of the ISA DMA controllers

`DMA_read_memory` and `DMA_write_memory` of `hw/dma.c`.  For a channel that counts down they access a
block below the programmed address and reverse the caller's buffer in place, after the access and
with a loop that has lost half of the bytes when it reads them.
-/

namespace Qemu.Hw.Dma

open List
open BitVec (ofNat)

/-- `struct dma_regs`, with the address that `init_chan` has set. -/
structure DmaRegs where
  now : BitVec 32
  mode : BitVec 8
  page : BitVec 8
  pageh : BitVec 8

/-- `dma_controllers`. -/
abbrev DmaControllers := Bool → Fin 4 → DmaRegs

def channel (d : DmaControllers) (nchan : Fin 8) : DmaRegs :=
  d (3 < nchan) ⟨nchan.val % 4, Nat.mod_lt _ (by decide)⟩

variable {r : DmaRegs} {pos : Nat}

/-- The programmed page and address. -/
def DmaRegs.addr (r : DmaRegs) : BitVec 64 :=
  ((((r.pageh &&& 0x7f).setWidth 32 <<< 24) ||| (r.page.setWidth 32 <<< 16)) ||| r.now).signExtend 64

/-- The channel counts down. -/
def DmaRegs.down (r : DmaRegs) : Bool := r.mode &&& 0x20 != 0

abbrev Memory := BitVec 64 → UInt8

def cpuPhysicalMemoryRead (mem : Memory) (addr : BitVec 64) (len : Nat) : List UInt8 :=
  (range len).map fun i => mem (addr + ofNat 64 i)

def cpuPhysicalMemoryWrite (mem : Memory) (addr : BitVec 64) (buf : List UInt8) : Memory :=
  fun x => buf.getD (x - addr).toNat (mem x)

/-- The loop over the buffer, of `rounds` rounds. -/
def reverseLoop (rounds : Nat) (p : List UInt8) : List UInt8 :=
  (range rounds).foldl (fun p i => p.set i (p.getD (p.length - i - 1) 0)) p

def dmaReadMemory (r : DmaRegs) (mem : Memory) (pos len : Nat) : List UInt8 :=
  if r.down then
    reverseLoop (len / 2)
      (cpuPhysicalMemoryRead mem (r.addr - ofNat 64 pos - ofNat 64 len) len)
  else cpuPhysicalMemoryRead mem (r.addr + ofNat 64 pos) len

/-- `DMA_write_memory`: the memory and the caller's buffer afterwards. -/
def dmaWriteMemory (r : DmaRegs) (mem : Memory) (buf : List UInt8) (pos : Nat) :
    Memory × List UInt8 :=
  if r.down then
    (cpuPhysicalMemoryWrite mem (r.addr - ofNat 64 pos - ofNat 64 buf.length) buf,
      reverseLoop buf.length buf)
  else (cpuPhysicalMemoryWrite mem (r.addr + ofNat 64 pos) buf, buf)

/-- The address of byte `i` of a transfer. -/
def DmaRegs.byteAddr (r : DmaRegs) (pos i : Nat) : BitVec 64 :=
  if r.down then r.addr - ofNat 64 pos - ofNat 64 i
  else r.addr + ofNat 64 pos + ofNat 64 i

/-- The bytes are stored in the order of the channel, are read back, and the buffer is kept. -/
structure Moves (r : DmaRegs) (mem : Memory) (buf : List UInt8) (pos : Nat) : Prop where
  readBack : dmaReadMemory r (dmaWriteMemory r mem buf pos).1 pos buf.length = buf
  kept : (dmaWriteMemory r mem buf pos).2 = buf
  stored : ∀ i, ∀ _ : i < buf.length, (dmaWriteMemory r mem buf pos).1 (r.byteAddr pos i) = buf[i]

theorem write_inside {mem : Memory} {addr : BitVec 64} {buf : List UInt8} {i : Nat}
    (fits : buf.length < 2 ^ 31) (inside : i < buf.length) :
    cpuPhysicalMemoryWrite mem addr buf (addr + ofNat 64 i) = buf[i] := by
  have offset : (addr + ofNat 64 i - addr).toNat = i := by
    rw [BitVec.add_comm, BitVec.add_sub_cancel, BitVec.toNat_ofNat]
    omega
  rw [cpuPhysicalMemoryWrite, offset, getD_eq_getElem _ _ inside]

theorem moves_up {mem : Memory} {buf : List UInt8} (up : r.down = false)
    (fits : buf.length < 2 ^ 31) : Moves r mem buf pos := by
  have written : dmaWriteMemory r mem buf pos =
      (cpuPhysicalMemoryWrite mem (r.addr + ofNat 64 pos) buf, buf) := by
    rw [dmaWriteMemory, up, if_neg Bool.false_ne_true]
  constructor
  · rw [written, dmaReadMemory, up, if_neg Bool.false_ne_true]
    refine ext_getElem (by simp [cpuPhysicalMemoryRead]) fun i _ inside => ?_
    simp only [cpuPhysicalMemoryRead, getElem_map, getElem_range, write_inside fits inside]
  · rw [written]
  · intro i inside
    rw [written, DmaRegs.byteAddr, up, if_neg Bool.false_ne_true]
    exact write_inside fits inside

/-- The block of a transfer that counts down ends below its first address. -/
theorem not_moves_down {len : Nat} (down : r.down = true) (positive : 0 < len)
    (fits : len < 2 ^ 31) : ¬Moves r (fun _ => 0) (replicate len 1) pos := by
  intro moves
  have offset (x : BitVec 64) : (x - ofNat 64 0 - (x - ofNat 64 len)).toNat = len := by
    simp only [BitVec.toNat_sub, BitVec.toNat_ofNat]
    omega
  have first := moves.stored 0 (by simpa using positive)
  rw [dmaWriteMemory, if_pos down, DmaRegs.byteAddr, if_pos down, getElem_replicate] at first
  simp only [cpuPhysicalMemoryWrite, length_replicate, offset] at first
  rw [getD_eq_default _ _ (by simp)] at first
  cases first

/-- The transfers of a channel are right for all data exactly if it counts up or nothing is
transferred. -/
theorem dma_moves_iff (d : DmaControllers) (nchan : Fin 8) (pos len : Nat) (fits : len < 2 ^ 31) :
    (∀ mem buf, buf.length = len → Moves (channel d nchan) mem buf pos) ↔
      (channel d nchan).down = false ∨ len = 0 := by
  constructor
  · intro moves
    by_contra neither
    rw [not_or, Bool.not_eq_false] at neither
    exact not_moves_down neither.1 (Nat.pos_of_ne_zero neither.2) fits
      (moves _ _ (length_replicate ..))
  · rintro (up | rfl) mem buf length
    · exact moves_up up (length ▸ fits)
    · obtain rfl := length_eq_zero_iff.mp length
      cases down : (channel d nchan).down with
      | false => exact moves_up down fits
      | true => exact ⟨by simp [dmaReadMemory, down, cpuPhysicalMemoryRead, reverseLoop],
          by simp [dmaWriteMemory, down, reverseLoop], nofun⟩

/-- Channel 2 at `0x10020`. -/
def floppy (mode : BitVec 8) : DmaControllers := fun _ _ => ⟨0x20, mode, 1, 0⟩

theorem dma_moves_floppy : 512 < 2 ^ 31 ∧
    ∀ mem buf, buf.length = 512 → Moves (channel (floppy 0x46) 2) mem buf 0 :=
  ⟨by decide, (dma_moves_iff (floppy 0x46) 2 0 512 (by decide)).mpr (.inl (by decide))⟩

theorem counting_down_reverses :
    let r := channel (floppy 0x66) 2
    let (mem, buf) := dmaWriteMemory r (fun _ => 0) [1, 2] 0
    (mem 0x1001e, mem 0x1001f, mem 0x10020) = (1, 2, 0) ∧ buf = [2, 2] ∧
      dmaReadMemory r mem 0 2 = [2, 2] := by
  decide

end Qemu.Hw.Dma
