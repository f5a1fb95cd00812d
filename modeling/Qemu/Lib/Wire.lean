import Mathlib

/-!
# Byte streams

Big-endian integers, and a stream that is read from its front.  As with a C stream, reading past the
end marks the stream as failed and yields zeros.
-/

namespace Qemu.Wire

/-- The `k` low bytes of a number, most significant first. -/
def be : Nat → Nat → List (BitVec 8)
  | 0, _ => []
  | k + 1, value => BitVec.ofNat 8 (value / 256 ^ k) :: be k value

@[simp] theorem length_be (k value : Nat) : (be k value).length = k := by
  induction k with
  | zero => rfl
  | succ k ih => rw [be, List.length_cons, ih]

/-- A stream that is being read. -/
structure Feed where
  /-- Bytes still to come. -/
  rest : List (BitVec 8)
  /-- A read has gone past the end. -/
  failed : Bool

namespace Feed

def byte (feed : Feed) : BitVec 8 × Feed :=
  match feed.rest with
  | [] => (0, { feed with failed := true })
  | value :: rest => (value, { feed with rest := rest })

/-- Read up to `n` bytes. -/
def bytes (n : Nat) (feed : Feed) : List (BitVec 8) × Feed :=
  (feed.rest.take n, ⟨feed.rest.drop n, feed.failed || decide (feed.rest.length < n)⟩)

/-- Read `k` bytes as a big-endian number, below what has been read already. -/
def beFrom : Nat → Nat → Feed → Nat × Feed
  | 0, value, feed => (value, feed)
  | k + 1, value, feed => beFrom k (value * 256 + feed.byte.1.toNat) feed.byte.2

/-- Read a big-endian number of `k` bytes. -/
def be (k : Nat) (feed : Feed) : Nat × Feed := beFrom k 0 feed

variable (tail : List (BitVec 8)) (failed : Bool)

@[simp] theorem byte_cons (value : BitVec 8) :
    byte ⟨value :: tail, failed⟩ = (value, ⟨tail, failed⟩) := rfl

theorem bytes_append (front : List (BitVec 8)) :
    bytes front.length ⟨front ++ tail, failed⟩ = (front, ⟨tail, failed⟩) := by
  simp [bytes]

theorem beFrom_append (k value before : Nat) :
    beFrom k before ⟨Wire.be k value ++ tail, failed⟩ =
      (before * 256 ^ k + value % 256 ^ k, ⟨tail, failed⟩) := by
  induction k generalizing before with
  | zero => simp [beFrom, Wire.be, Nat.mod_one]
  | succ k ih =>
    have digit : (BitVec.ofNat 8 (value / 256 ^ k)).toNat = value / 256 ^ k % 256 :=
      BitVec.toNat_ofNat _ _
    have digits : value % 256 ^ (k + 1) =
        value % 256 ^ k + 256 ^ k * (value / 256 ^ k % 256) := by
      rw [pow_succ, Nat.mod_mul]
    rw [Wire.be, List.cons_append, beFrom, byte_cons, ih, digit, digits]
    congr 1
    ring

theorem be_append {k value : Nat} (small : value < 256 ^ k) :
    be k ⟨Wire.be k value ++ tail, failed⟩ = (value, ⟨tail, failed⟩) := by
  rw [be, beFrom_append, zero_mul, zero_add, Nat.mod_eq_of_lt small]

end Feed

end Qemu.Wire
