import Mathlib

/-!
# Status registers

Device registers whose bits are tested, set and cleared with constant masks.
-/

namespace Qemu.Status

variable {w : Nat} {value set mask : BitVec w}

def has (value mask : BitVec w) : Bool := value &&& mask ≠ 0

@[simp] theorem has_zero : has 0 mask = false := by
  simp [has]

@[simp] theorem has_or : has (value ||| set) mask = (has value mask || has set mask) := by
  have split : (value ||| set) &&& mask = (value &&& mask) ||| (set &&& mask) := by
    ext i
    simp [Bool.and_or_distrib_right]
  simp [has, split, BitVec.or_eq_zero_iff]

theorem has_clear_of_disjoint (disjoint : mask &&& set = 0) :
    has (value &&& ~~~ set) mask = has value mask := by
  have same : value &&& ~~~ set &&& mask = value &&& mask := by
    ext i bound
    have bit : (mask[i] && set[i]) = false := by
      simpa using congrArg (fun bits => bits[i]) disjoint
    cases isMask : mask[i] with
    | false => simp [isMask]
    | true =>
      have isClear : set[i] = false := by simpa [isMask] using bit
      simp [isMask, isClear]
  simp only [has, same]

theorem has_clear_of_le (covered : mask &&& ~~~ set = 0) :
    has (value &&& ~~~ set) mask = false := by
  have none : value &&& ~~~ set &&& mask = 0 := by
    rw [BitVec.and_assoc, BitVec.and_comm (~~~ set), covered]
    simp
  simp [has, none]

end Qemu.Status
