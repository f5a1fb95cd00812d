import Mathlib

/-!
# Big-endian integers in byte buffers

A buffer is a function from positions to bytes; `read` takes the `k` bytes from a position as one
number, most significant first.
-/

namespace Qemu.BigEndian

/-- The `k` bytes at `position` as a number. -/
def read (buffer : Nat → UInt8) : Nat → Nat → Nat
  | 0, _ => 0
  | k + 1, position => (buffer position).toNat * 256 ^ k + read buffer k (position + 1)

/-- A buffer which starts with the `k` low bytes of a number. -/
def bytes (k value : Nat) : Nat → UInt8 := fun i => UInt8.ofNat (value / 256 ^ (k - 1 - i))

theorem read_congr {first second : Nat → UInt8} {k position other : Nat}
    (same : ∀ i < k, first (position + i) = second (other + i)) :
    read first k position = read second k other := by
  induction k generalizing position other with
  | zero => rfl
  | succ k ih =>
    have head : first position = second other := same 0 (Nat.zero_lt_succ k)
    have tail : read first k (position + 1) = read second k (other + 1) :=
      ih fun i below => by
        have shifted := same (i + 1) (by omega)
        rwa [add_assoc, add_assoc, add_comm 1 i]
    rw [read, read, head, tail]

theorem read_bytes (k j value : Nat) (fits : j ≤ k) :
    read (bytes k value) j (k - j) = value % 256 ^ j := by
  induction j with
  | zero => rw [read, pow_zero, Nat.mod_one]
  | succ j ih =>
    have next : k - (j + 1) + 1 = k - j := by omega
    have place : k - 1 - (k - (j + 1)) = j := by omega
    have byte : (bytes k value (k - (j + 1))).toNat = value / 256 ^ j % 256 := by
      rw [bytes, place]
      exact UInt8.toNat_ofNat'
    rw [read, next, ih (by omega), byte, pow_succ, Nat.mod_mul]
    ring

end Qemu.BigEndian
