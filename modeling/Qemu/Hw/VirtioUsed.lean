import Qemu.Hw.Virtio

/-!
# Completed virtqueue elements

`virtqueue_fill` unmaps the buffers of an element and enters it in the used ring, and
`virtqueue_flush` publishes the entries.  The room left for a buffer is an unsigned difference, and
wraps around in the buffers that lie behind the last byte.
-/

namespace Qemu.Hw.Virtio

open List
open BitVec (ofNat toNat_ofNat)

/-- A call of `cpu_physical_memory_unmap` with the length that was accessed. -/
structure Unmap where
  segment : Segment
  isWrite : Bool
  accessLen : BitVec 32

/-- The index of the used ring and the stores to its slots: the slot, the id and the length. -/
structure UsedRing where
  idx : BitVec 16
  entries : List (Nat × Nat × BitVec 32)

/-- The first loop of `virtqueue_fill`. -/
def unmapIn (len : BitVec 32) : BitVec 32 → List Segment → List Unmap
  | _, [] => []
  | offset, segment :: rest =>
    let size := if len - offset < segment.len then len - offset else segment.len
    ⟨segment, true, size⟩ :: unmapIn len (offset + segment.len) rest

def virtqueueFill (num : Nat) (elem : VirtQueueElement) (len idx : BitVec 32) (used : UsedRing) :
    List Unmap × UsedRing :=
  let slot := (idx + used.idx.setWidth 32).toNat % num
  (unmapIn len 0 elem.inSg ++ elem.outSg.map fun segment => ⟨segment, false, segment.len⟩,
    { used with entries := used.entries ++ [(slot, elem.index, len)] })

def virtqueueFlush (count : BitVec 32) (used : UsedRing) : UsedRing :=
  { used with idx := used.idx + count.setWidth 16 }

/-- Elements with the lengths that the device wrote. -/
abbrev Batch := List (VirtQueueElement × BitVec 32)

/-- The elements are filled from index `start` on. -/
def fillFrom (num : Nat) : Nat → Batch → UsedRing → UsedRing
  | _, [], used => used
  | start, (elem, len) :: rest, used =>
    fillFrom num (start + 1) rest (virtqueueFill num elem len (ofNat 32 start) used).2

/-- A batch is filled and flushed. -/
def complete (num : Nat) (used : UsedRing) (batch : Batch) : UsedRing :=
  virtqueueFlush (ofNat 32 batch.length) (fillFrom num 0 batch used)

/-- How much of the first `len` bytes falls into each buffer. -/
def shares : Nat → List Segment → List Nat
  | _, [] => []
  | len, segment :: rest => min len segment.len.toNat :: shares (len - segment.len.toNat) rest

/-- Each buffer is unmapped with the bytes of it that the device wrote or could read. -/
abbrev Exact (num : Nat) (elem : VirtQueueElement) (len idx : BitVec 32) (used : UsedRing) : Prop :=
  (virtqueueFill num elem len idx used).1.map (·.accessLen.toNat) =
    shares len.toNat elem.inSg ++ elem.outSg.map (·.len.toNat)

/-- The entry of the element at position `j` from an index on. -/
def entryAt (num idx j : Nat) (e : VirtQueueElement × BitVec 32) : Nat × Nat × BitVec 32 :=
  ((idx + j) % num, e.1.index, e.2)

theorem size_iff (len segmentLen : BitVec 32) (offset : Nat) :
    (if len - ofNat 32 offset < segmentLen then len - ofNat 32 offset
      else segmentLen).toNat = min (len.toNat - offset) segmentLen.toNat ↔
      (len.toNat < offset → segmentLen = 0 ∨ offset % 2 ^ 32 = len.toNat) := by
  have zero : segmentLen = 0 ↔ segmentLen.toNat = 0 := BitVec.toNat_eq
  simp only [zero, apply_ite BitVec.toNat, BitVec.lt_def, BitVec.toNat_sub, toNat_ofNat]
  split <;> omega

/-- The unmapped lengths are exact unless the whole of a buffer lies behind the last byte. -/
theorem unmapIn_iff (len : BitVec 32) (offset : Nat) (sg : List Segment) :
    (unmapIn len (ofNat 32 offset) sg).map (·.accessLen.toNat) =
        shares (len.toNat - offset) sg ↔
      ∀ i segment, sg[i]? = some segment →
        let before := offset + ((sg.take i).map (·.len.toNat)).sum
        len.toNat < before → segment.len = 0 ∨ before % 2 ^ 32 = len.toNat := by
  induction sg generalizing offset with
  | nil => simp [unmapIn, shares]
  | cons segment rest ih =>
    have next : ofNat 32 offset + segment.len =
        ofNat 32 (offset + segment.len.toNat) := by
      rw [BitVec.ofNat_add, BitVec.ofNat_toNat, BitVec.setWidth_eq]
    rw [unmapIn, shares, map_cons, cons.injEq, next, Nat.sub_sub, ih, size_iff]
    constructor
    · rintro ⟨first, others⟩ i
      cases i with
      | zero => simpa using first
      | succ i => simpa [add_assoc] using others i
    · intro all
      exact ⟨by simpa using all 0, fun i => by simpa [add_assoc] using all (i + 1)⟩

section Ring

variable {num : Nat} (divides : num ∣ 2 ^ 16)

include divides

theorem fillFrom_entries (start : Nat) (batch : Batch) (used : UsedRing) :
    fillFrom num start batch used = { used with
      entries := used.entries ++ batch.mapIdx (entryAt num (used.idx.toNat + start)) } := by
  induction batch generalizing start used with
  | nil => simp [fillFrom]
  | cons first rest ih =>
    have slot : (ofNat 32 start + used.idx.setWidth 32).toNat % num =
        (used.idx.toNat + start) % num := by
      have wide : num ∣ 2 ^ 32 := divides.trans (by decide)
      simp only [BitVec.toNat_add, toNat_ofNat, BitVec.toNat_setWidth, ← Nat.add_mod,
        Nat.mod_mod_of_dvd _ wide, add_comm]
    have shifted : (fun j => entryAt num (used.idx.toNat + start) (j + 1)) =
        entryAt num (used.idx.toNat + (start + 1)) := by
      funext j e
      rw [entryAt, entryAt, add_assoc, add_assoc, add_assoc, add_comm j]
    rw [fillFrom, ih, virtqueueFill, slot, mapIdx_cons, shifted, append_assoc]
    rfl

/-- Batches are entered in consecutive slots, also where the index wraps around. -/
theorem complete_entries (used : UsedRing) (batches : List Batch) :
    (batches.foldl (complete num) used).entries =
      used.entries ++ batches.flatten.mapIdx (entryAt num used.idx.toNat) := by
  induction batches generalizing used with
  | nil => simp
  | cons batch rest ih =>
    have wrapped : entryAt num (used.idx + (ofNat 32 batch.length).setWidth 16).toNat =
        fun j => entryAt num used.idx.toNat (j + batch.length) := by
      funext j e
      simp only [entryAt, BitVec.toNat_add, BitVec.toNat_setWidth, toNat_ofNat,
        Nat.mod_mod_of_dvd _ (by decide : 2 ^ 16 ∣ 2 ^ 32), Nat.add_mod_mod]
      rw [Nat.add_mod, Nat.mod_mod_of_dvd _ divides, ← Nat.add_mod, add_assoc,
        add_comm batch.length]
    rw [foldl_cons, ih, complete, fillFrom_entries divides, virtqueueFlush, wrapped, flatten_cons,
      mapIdx_append, append_assoc]
    rfl

end Ring

/-- An element is unmapped exactly if no buffer with room lies behind the last byte, unless the
offset has come back to this byte.  Its entry takes the next slot of the used ring. -/
theorem completion_iff (num : Nat) (elem : VirtQueueElement) (len idx : BitVec 32)
    (used : UsedRing) :
    (Exact num elem len idx used ↔ ∀ i segment, elem.inSg[i]? = some segment →
      let before := ((elem.inSg.take i).map (·.len.toNat)).sum
      len.toNat < before → segment.len = 0 ∨ before % 2 ^ 32 = len.toNat) ∧
    (num ∣ 2 ^ 16 → ∀ batches : List Batch, (batches.foldl (complete num) used).entries =
      used.entries ++ batches.flatten.mapIdx (entryAt num used.idx.toNat)) := by
  refine ⟨?_, fun divides => complete_entries divides used⟩
  have unmaps := unmapIn_iff len 0 elem.inSg
  simp only [zero_add] at unmaps
  rw [← unmaps, Exact, virtqueueFill, map_append, map_map]
  exact append_left_inj _

theorem completion_wraps :
    ([[(⟨3, [], []⟩, 5)], [(⟨4, [], []⟩, 6), (⟨1, [], []⟩, 7)]].foldl (complete 8)
      ⟨0xffff, []⟩).entries = [(7, 3, 5), (0, 4, 6), (1, 1, 7)] :=
  (completion_iff 8 ⟨3, [], []⟩ 0 0 ⟨0xffff, []⟩).2 (by decide) _

theorem empty_completion_unmaps_second : ¬Exact 8 ⟨0, [⟨0, 1⟩, ⟨8, 1⟩], []⟩ 0 0 ⟨0, []⟩ := by
  decide

end Qemu.Hw.Virtio
