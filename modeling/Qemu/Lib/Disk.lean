import Mathlib

/-!
# Disks

A disk is a function from sector numbers to sectors.  `patch` is a write of consecutive sectors.
-/

namespace Qemu.Disk

variable {α : Type} {disk source : Nat → α} {start count x : Nat}

/-- Write `count` sectors from `start` on. -/
def patch (disk : Nat → α) (start count : Nat) (source : Nat → α) : Nat → α := fun x =>
  if start ≤ x ∧ x < start + count then source (x - start) else disk x

theorem patch_inside (lower : start ≤ x) (upper : x < start + count) :
    patch disk start count source x = source (x - start) := if_pos ⟨lower, upper⟩

theorem patch_outside (outside : x < start ∨ start + count ≤ x) :
    patch disk start count source x = disk x := by
  rw [patch, if_neg]
  omega

end Qemu.Disk
