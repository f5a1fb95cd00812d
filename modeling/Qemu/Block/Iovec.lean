import Mathlib

/-!
# Scatter-gather vectors

The vectors of `cutils.c`: a list of memory segments and the sum of their lengths, which is a
`size_t` of 32 bits.
-/

namespace Qemu.Block

open List

variable {α : Type}

/-- `QEMUIOVector`, with the bytes that the segments point to. -/
structure QemuIovec (α : Type) where
  iov : List (List α)
  size : Nat
  deriving DecidableEq, Repr

namespace QemuIovec

variable (qiov : QemuIovec α)

def niov : Nat := qiov.iov.length

/-- The bytes of the vector in order. -/
def bytes : List α := qiov.iov.flatten

def init : QemuIovec α := ⟨[], 0⟩

def add (segment : List α) : QemuIovec α :=
  ⟨qiov.iov ++ [segment], (qiov.size + segment.length) % 2 ^ 32⟩

/-- The loop of `qemu_iovec_copy` over the segments that are left. -/
def copyLoop (size : Nat) : List (List α) → Nat → Nat → QemuIovec α → QemuIovec α
  | [], _, _, dst => dst
  | segment :: rest, skip, done, dst =>
    if done = size then dst
    else if segment.length ≤ skip then copyLoop size rest (skip - segment.length) done dst
    else
      let part := segment.drop skip
      if size < done + part.length then dst.add (part.take (size - done))
      else copyLoop size rest 0 (done + part.length) (dst.add part)

def copy (dst src : QemuIovec α) (skip size : Nat) : QemuIovec α := copyLoop size src.iov skip 0 dst

def concat (dst src : QemuIovec α) (size : Nat) : QemuIovec α := copy dst src 0 size

def Sized : Prop := qiov.size = qiov.bytes.length % 2 ^ 32

@[simp] theorem bytes_init : (init : QemuIovec α).bytes = [] := rfl

theorem sized_init : Sized (init : QemuIovec α) := rfl

@[simp] theorem bytes_add (segment : List α) :
    (qiov.add segment).bytes = qiov.bytes ++ segment := by
  simp [bytes, add]

theorem Sized.add {qiov : QemuIovec α} (sized : qiov.Sized) (segment : List α) :
    (qiov.add segment).Sized := by
  show (qiov.size + segment.length) % 2 ^ 32 = _
  rw [bytes_add, length_append, sized, Nat.mod_add_mod]

/-- The loop appends the bytes after `skip`, up to `size` in all. -/
theorem bytes_copyLoop {size : Nat} (segments : List (List α)) (skip done : Nat)
    (dst : QemuIovec α) (within : done ≤ size) :
    (copyLoop size segments skip done dst).bytes =
      dst.bytes ++ (segments.flatten.drop skip).take (size - done) := by
  induction segments generalizing skip done dst with
  | nil => simp [copyLoop]
  | cons segment rest induction =>
    rw [copyLoop, flatten_cons]
    split
    · next full =>
      subst full
      simp
    · split
      · next skipped =>
        rw [induction _ _ _ within, drop_append, drop_eq_nil_of_le skipped, nil_append]
      · have kept : skip - segment.length = 0 := by omega
        rw [drop_append, kept, drop_zero]
        simp only
        generalize segment.drop skip = part
        split
        · rw [bytes_add, take_append_of_le_length (by omega)]
        · rw [induction _ _ _ (by omega), bytes_add, drop_zero, append_assoc,
            take_append, take_of_length_le (by omega : part.length ≤ size - done)]
          congr 3
          omega

theorem Sized.copyLoop {size : Nat} (segments : List (List α)) (skip done : Nat) {dst : QemuIovec α}
    (sized : dst.Sized) : (copyLoop size segments skip done dst).Sized := by
  induction segments generalizing skip done dst with
  | nil => exact sized
  | cons segment rest induction =>
    rw [QemuIovec.copyLoop]
    split
    · exact sized
    · split
      · exact induction _ _ sized
      · simp only
        split
        · exact sized.add _
        · exact induction _ _ (sized.add _)

@[simp] theorem bytes_concat (dst src : QemuIovec α) (size : Nat) :
    (dst.concat src size).bytes = dst.bytes ++ src.bytes.take size := by
  rw [concat, copy, bytes_copyLoop _ _ _ _ (Nat.zero_le size), drop_zero, Nat.sub_zero]
  rfl

theorem Sized.concat {dst : QemuIovec α} (sized : dst.Sized) (src : QemuIovec α) (size : Nat) :
    (dst.concat src size).Sized :=
  sized.copyLoop src.iov 0 0

end QemuIovec

end Qemu.Block
