import Mathlib

/-!
# Initial runs

`Run.length good start count` is how far a counting loop gets from `start` before it meets an index
that is not good, with `count` as its limit.
-/

namespace Qemu.Run

variable {good : Nat → Bool}

/-- `for (i = start; i < start + count; i++) if (!good(i)) break;`, returning `i - start`. -/
def length (good : Nat → Bool) : Nat → Nat → Nat
  | _, 0 => 0
  | start, count + 1 => if good start then length good (start + 1) count + 1 else 0

/-- Index `j` is passed exactly if it is below the limit and everything up to it is good. -/
theorem lt_length_iff {start count j : Nat} :
    j < length good start count ↔ j < count ∧ ∀ i ≤ j, good (start + i) = true := by
  induction count generalizing start j with
  | zero => simp [length]
  | succ count ih =>
    rw [length]
    by_cases first : good start = true
    · rw [if_pos first]
      cases j with
      | zero => simp [first]
      | succ j =>
        rw [Nat.succ_lt_succ_iff, Nat.succ_lt_succ_iff, ih]
        refine and_congr_right fun _ => ⟨fun rest i below => ?_, fun all i below => ?_⟩
        · cases i with
          | zero => exact first
          | succ i =>
            have shifted := rest i (by omega)
            rwa [Nat.add_assoc, Nat.add_comm 1 i] at shifted
        · have shifted := all (i + 1) (by omega)
          rwa [Nat.add_assoc, Nat.add_comm 1 i]
    · rw [if_neg first]
      refine ⟨fun below => absurd below (Nat.not_lt_zero j), fun ⟨_, all⟩ => ?_⟩
      exact absurd (all 0 (Nat.zero_le j)) first

end Qemu.Run
