import Qemu.I386.LinearTask

/-!
# What a task switch writes

The bytes of memory that a switch from a task of the 32-bit format changes.
-/

namespace Qemu.I386

open Function ByteMem List BitVec LinearMemory
open BitVec (ofNat)

/-! ## Memory after a switch -/

/-- Bytes of the registers in a task state segment. -/
def tssSize (is32 : Bool) : Nat := if is32 then 104 else 44

/-- The bytes of a task state segment that a switch may use. -/
def InTss (is32 : Bool) (base x : TargetUlong) : Prop :=
  ∃ i < tssSize is32, x = base + ofNat 32 i

/-- The registers of the 32-bit format in the order in which they are saved. -/
def savedBytes (mem : ByteMem 32) (base nextEip eflags : BitVec 32) (regs : Fin 8 → BitVec 32)
    (selectors : SegReg → BitVec 32) : ByteMem 32 :=
  ByteMem.writeAll 2 (fun i : SegReg => base + ofNat 32 (0x48 + i.val * 4))
    (fun i => (selectors i).setWidth 16)
    (ByteMem.writeAll 4 (fun i : Fin 8 => base + ofNat 32 (0x28 + i.val * 4)) regs
      (ByteMem.write 4 (ByteMem.write 4 mem (base + ofNat 32 0x20) nextEip)
        (base + ofNat 32 0x24) eflags) (List.finRange 8)) (List.finRange 6)

section Saved

variable {mem : ByteMem 32} {base nextEip eflags : BitVec 32} {regs : Fin 8 → BitVec 32}
  {selectors : SegReg → BitVec 32}

theorem savedBytes_outside {x : BitVec 32}
    (outside : ∀ o < 0x5e, 0x20 ≤ o → x ≠ base + ofNat 32 o) :
    savedBytes mem base nextEip eflags regs selectors x = mem x := by
  rw [savedBytes, writeAll_outside, writeAll_outside, write_outside, write_outside]
  all_goals intros; rw [add_ofNat_add]; exact outside _ (by omega) (by omega)

theorem tssOffset_ne {o o' i i' : Nat} (small : o + i < 0x100) (small' : o' + i' < 0x100)
    (ne : o + i ≠ o' + i') :
    base + ofNat 32 o + ofNat 32 i ≠
      base + ofNat 32 o' + ofNat 32 i' := by
  rw [add_ofNat_add, add_ofNat_add]
  exact add_ofNat_ne (by omega) (by omega) ne

theorem savedBytes_eip :
    read 4 (savedBytes mem base nextEip eflags regs selectors)
      (base + ofNat 32 0x20) = nextEip := by
  rw [savedBytes, read_writeAll_disjoint, read_writeAll_disjoint,
    read_write_disjoint, read_write_same (by decide)]
  all_goals intros; exact tssOffset_ne (by omega) (by omega) (by omega)

theorem savedBytes_eflags :
    read 4 (savedBytes mem base nextEip eflags regs selectors)
      (base + ofNat 32 0x24) = eflags := by
  rw [savedBytes, read_writeAll_disjoint, read_writeAll_disjoint, read_write_same (by decide)]
  all_goals intros; exact tssOffset_ne (by omega) (by omega) (by omega)

theorem savedBytes_regs (r : Fin 8) :
    read 4 (savedBytes mem base nextEip eflags regs selectors)
      (base + ofNat 32 (0x28 + r.val * 4)) = regs r := by
  rw [savedBytes, read_writeAll_disjoint]
  · refine read_writeAll (by decide) ?_ (mem_finRange r) (nodup_finRange 8)
    intro r r' other i _ j _
    exact tssOffset_ne (by omega) (by omega) (by omega)
  · intro i _ r' _ j _
    exact tssOffset_ne (by omega) (by omega) (by omega)

theorem savedBytes_segs (seg : SegReg) :
    read 2 (savedBytes mem base nextEip eflags regs selectors)
      (base + ofNat 32 (0x48 + seg.val * 4)) = (selectors seg).setWidth 16 := by
  refine read_writeAll (by decide) ?_ (mem_finRange seg) (nodup_finRange 6)
  intro r r' other i _ j _
  have distinct : r.val ≠ r'.val := fun same => other (Fin.ext same)
  exact tssOffset_ne (by omega) (by omega) (by omega)

end Saved

/-! ## Busy bits -/

/-- The byte of a descriptor of the global table that holds the busy bit. -/
def CPUX86State.busyByte (s : CPUX86State LinearMemory) (selector : BitVec 32) : TargetUlong :=
  s.gdt.base + (selector &&& ~~~7) + 5

theorem fifth_byte (p : BitVec 32) : p + 4 + ofNat 32 1 = p + 5 := by
  rw [BitVec.add_assoc]
  rfl

section

variable (mem : LinearMemory) (p : TargetUlong)

include mem p

/-- A change of a descriptor's second word that concerns its second byte. -/
theorem update_secondByte {f : BitVec 32 → BitVec 32}
    (others : ∀ word, ∀ i < 4, i ≠ 1 →
      (f word).extractLsb' (8 * i) 8 = word.extractLsb' (8 * i) 8) :
    mem.update (p + 4) f =
      (update mem (p + 5) ((f (mem.long (p + 4))).extractLsb' 8 8) : ByteMem 32) := by
  rw [← fifth_byte]
  refine write_eq_update (by decide : 1 < 4) (by decide) fun i small other => ?_
  exact (others _ i small other).trans (extractLsb'_read mem (p + 4) small)

theorem long_secondByte : (mem.long (p + 4)).extractLsb' 8 8 = mem (p + 5) := by
  rw [← fifth_byte]
  exact extractLsb'_read mem (p + 4) (by decide : 1 < 4)

theorem update_clearBusy :
    mem.update (p + 4) (· &&& ~~~descTssBusy) =
      (Function.update mem (p + 5) (mem (p + 5) &&& ~~~2) : ByteMem 32) := by
  rw [update_secondByte, extractLsb'_and, long_secondByte]
  · rfl
  · intro word i small other
    have ones : (~~~descTssBusy).extractLsb' (8 * i) 8 = allOnes 8 := by
      obtain rfl | rfl | rfl : i = 0 ∨ i = 2 ∨ i = 3 := by omega
      all_goals decide
    rw [extractLsb'_and, ones, and_allOnes]

theorem update_setBusy :
    mem.update (p + 4) (· ||| descTssBusy) =
      (Function.update mem (p + 5) (mem (p + 5) ||| 2) : ByteMem 32) := by
  rw [update_secondByte, extractLsb'_or, long_secondByte]
  · rfl
  · intro word i small other
    have zeros : descTssBusy.extractLsb' (8 * i) 8 = 0#8 := by
      obtain rfl | rfl | rfl : i = 0 ∨ i = 2 ∨ i = 3 := by omega
      all_goals decide
    rw [extractLsb'_or, zeros, or_zero]

end

/-! ## The effect of a switch on memory -/

/-- What a switch between tasks of the 32-bit format does to memory, where the old task is at `base`
and the busy bits of the old and the new task are at `old` and `new`. -/
structure SwitchEffect (mem mem' : LinearMemory) (base old new nextEip eflags : BitVec 32)
    (regs : Fin 8 → BitVec 32) (selectors : SegReg → BitVec 32) : Prop where
  kept : ∀ x, ¬ InTss true base x → x ≠ old → x ≠ new → mem' x = mem x
  cleared : mem' old = mem old &&& ~~~2
  marked : mem' new = mem new ||| 2
  image : mem'.tssImage true base = { mem.tssImage true base with
    eip := nextEip, eflags, regs, segs := fun seg => ((selectors seg).setWidth 16).setWidth 32 }

theorem tssImage_congr {mem mem' : LinearMemory} {base : BitVec 32}
    (same : ∀ x, InTss true base x → mem' x = mem x) :
    mem'.tssImage true base = mem.tssImage true base := by
  have bytes : ∀ k o, o + k ≤ 104 → read k mem' (base + ofNat 32 o) =
      read k mem (base + ofNat 32 o) := by
    intro k o fits
    refine read_congr fun i small => same _ ⟨o + i, ?_, add_ofNat_add ..⟩
    rw [tssSize, if_pos rfl]
    omega
  have long : ∀ o, o + 4 ≤ 104 →
      mem'.long (base + ofNat 32 o) = mem.long (base + ofNat 32 o) := bytes 4
  have word := fun o fits => congrArg (setWidth 32) (bytes 2 o fits)
  have regs : ∀ i : Fin 8, _ := fun i => long (0x28 + i.val * 4) (by omega)
  have segs : ∀ i : SegReg, _ := fun i => word (0x48 + i.val * 4) (by omega)
  have cr3 := long 0x1c (by decide)
  have eip := long 0x20 (by decide)
  have eflags := long 0x24 (by decide)
  have ldt := word 0x60 (by decide)
  simp only [tssImage, if_true, TssImage.mk.injEq]
  exact ⟨cr3, eip, eflags, funext regs, funext segs, ldt⟩

/-- The fields that are not saved keep their values, the others have the saved ones. -/
theorem savedBytes_image (mem : ByteMem 32) (base nextEip eflags : BitVec 32)
    (regs : Fin 8 → BitVec 32) (selectors : SegReg → BitVec 32) :
    tssImage (savedBytes mem base nextEip eflags regs selectors) true base =
      { tssImage mem true base with
        eip := nextEip, eflags, regs,
        segs := fun seg => ((selectors seg).setWidth 16).setWidth 32 } := by
  have static : ∀ k o, o + k ≤ 0x20 ∨ 0x5e ≤ o → o + k ≤ 104 →
      read k (savedBytes mem base nextEip eflags regs selectors)
        (base + ofNat 32 o) = read k mem (base + ofNat 32 o) := by
    intro k o outside fits
    refine read_congr fun i small => savedBytes_outside fun o' inside from' => ?_
    rw [add_ofNat_add]
    exact add_ofNat_ne (by omega) (by omega) (by omega)
  have cr3 := static 4 0x1c (by decide) (by decide)
  have ldt := congrArg (setWidth 32) (static 2 0x60 (by decide) (by decide))
  simp only [tssImage, if_true, TssImage.mk.injEq]
  exact ⟨cr3, savedBytes_eip, savedBytes_eflags, funext savedBytes_regs,
    funext fun seg => congrArg (setWidth 32) (savedBytes_segs seg), ldt⟩

theorem switchEffect_bytes {mem : ByteMem 32} {base old new nextEip eflags : BitVec 32}
    {regs : Fin 8 → BitVec 32} {selectors : SegReg → BitVec 32} (apart : old ≠ new)
    (oldOutside : ¬ InTss true base old) (newOutside : ¬ InTss true base new) :
    let saved := savedBytes (Function.update mem old (mem old &&& ~~~2)) base nextEip eflags regs
      selectors
    SwitchEffect mem (Function.update saved new (saved new ||| 2)) base old new nextEip eflags regs
      selectors := by
  intro saved
  have outside : ∀ x, ¬ InTss true base x →
      saved x = Function.update mem old (mem old &&& ~~~2) x := by
    intro x notInside
    refine savedBytes_outside fun o inside _ equal => notInside ⟨o, ?_, equal⟩
    rw [tssSize, if_pos rfl]
    omega
  constructor
  case kept =>
    intro x notInside notOld notNew
    rw [update_of_ne notNew, outside x notInside, update_of_ne notOld]
  case cleared =>
    rw [update_of_ne apart, outside old oldOutside, update_self]
  case marked =>
    rw [update_self, outside new newOutside, update_of_ne apart.symm]
  case image =>
    have afterMark : tssImage (Function.update saved new (saved new ||| 2)) true base =
        tssImage saved true base := by
      refine tssImage_congr fun x inside => update_of_ne ?_ ..
      rintro rfl
      exact newOutside inside
    have beforeSave : tssImage (Function.update mem old (mem old &&& ~~~2)) true base =
        tssImage mem true base := by
      refine tssImage_congr fun x inside => update_of_ne ?_ ..
      rintro rfl
      exact oldOutside inside
    rw [afterMark, savedBytes_image, beforeSave]

theorem switchedMem_effect {s : CPUX86State LinearMemory} {selector nextEip : BitVec 32}
    (apart : s.busyByte s.tr.selector ≠ s.busyByte selector)
    (oldOutside : ¬ InTss true s.tr.base (s.busyByte s.tr.selector))
    (newOutside : ¬ InTss true s.tr.base (s.busyByte selector)) :
    SwitchEffect s.mem (s.switchedMem selector true nextEip) s.tr.base
      (s.busyByte s.tr.selector) (s.busyByte selector) nextEip s.computeEflags s.regs
      fun seg => (s.segs seg).selector := by
  rw [CPUX86State.switchedMem, update_clearBusy, update_setBusy]
  exact switchEffect_bytes apart oldOutside newOutside

end Qemu.I386
