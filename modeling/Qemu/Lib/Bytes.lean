import Mathlib

/-!
# Byte-addressed memory

A total little-endian memory with addresses of `w` bits, which wrap around.  Values of `k` bytes are
read and written at any address.
-/

namespace Qemu

open Function BitVec List Nat
open BitVec (ofNat toNat)

variable {k : Nat} {bits : BitVec 8}

/-- The byte at every address. -/
abbrev ByteMem (w : Nat) := BitVec w → BitVec 8

namespace ByteMem

variable {w : Nat}

/-- The value of `k` bytes at an address. -/
def read : (k : Nat) → ByteMem w → BitVec w → BitVec (8 * k)
  | 0, _, _ => 0
  | k + 1, mem, addr => (read k mem (addr + 1) ++ mem addr : BitVec (8 * k + 8))

/-- Replace `k` bytes at an address. -/
def write (k : Nat) (mem : ByteMem w) (addr : BitVec w) (value : BitVec (8 * k)) : ByteMem w :=
  fun x => if (x - addr).toNat < k then value.extractLsb' (8 * (x - addr).toNat) 8 else mem x

theorem add_ofNat_succ (addr : BitVec w) (i : Nat) :
    addr + 1 + ofNat w i = addr + ofNat w (i + 1) := by
  rw [BitVec.add_assoc, ofNat_add, BitVec.add_comm 1]
  rfl

theorem add_ofNat_add (base : BitVec w) (o i : Nat) :
    base + ofNat w o + ofNat w i = base + ofNat w (o + i) := by
  rw [BitVec.add_assoc, ← ofNat_add]

theorem add_ofNat_ne {base : BitVec w} {o o' : Nat} (small : o < 2 ^ w) (small' : o' < 2 ^ w)
    (ne : o ≠ o') : base + ofNat w o ≠ base + ofNat w o' := by
  intro same
  have offsets := congrArg toNat ((BitVec.add_right_inj base).mp same)
  rw [toNat_ofNat, toNat_ofNat, mod_eq_of_lt small, mod_eq_of_lt small'] at offsets
  exact ne offsets

theorem getLsbD_read (mem : ByteMem w) {k j : Nat} (addr : BitVec w) (small : j < 8 * k) :
    (read k mem addr).getLsbD j = (mem (addr + ofNat w (j / 8))).getLsbD (j % 8) := by
  induction k generalizing addr j with
  | zero => omega
  | succ k ih =>
    have unfolded : (read (k + 1) mem addr).getLsbD j =
        (read k mem (addr + 1) ++ mem addr : BitVec (8 * k + 8)).getLsbD j := rfl
    rw [unfolded, getLsbD_append]
    by_cases first : j < 8
    · rw [if_pos first, div_eq_of_lt first, mod_eq_of_lt first]
      simp
    · rw [if_neg first, ih (addr + 1) (by omega), add_ofNat_succ]
      have quotient : (j - 8) / 8 + 1 = j / 8 := by omega
      have remainder : (j - 8) % 8 = j % 8 := by omega
      rw [quotient, remainder]

variable {mem : ByteMem w} {addr other x : BitVec w} {l : Nat}

theorem read_congr {mem' : ByteMem w}
    (same : ∀ i < k, mem (addr + ofNat w i) = mem' (addr + ofNat w i)) :
    read k mem addr = read k mem' addr := by
  apply eq_of_getLsbD_eq
  intro j small
  rw [getLsbD_read mem addr small, getLsbD_read mem' addr small, same (j / 8) (by omega)]

theorem write_inside {k i : Nat} {value : BitVec (8 * k)} (small : i < k) (fits : k ≤ 2 ^ w) :
    write k mem addr value (addr + ofNat w i) = value.extractLsb' (8 * i) 8 := by
  have offset : (addr + ofNat w i - addr).toNat = i := by
    rw [BitVec.add_comm, add_sub_cancel, toNat_ofNat, mod_eq_of_lt (by omega)]
  rw [write, offset, if_pos small]

theorem write_outside {value : BitVec (8 * k)} (outside : ∀ i < k, x ≠ addr + ofNat w i) :
    write k mem addr value x = mem x := by
  refine if_neg fun small => outside _ small ?_
  rw [ofNat_toNat, setWidth_eq, BitVec.add_comm, sub_add_cancel]

theorem write_eq_update {k j : Nat} {value : BitVec (8 * k)} (small : j < k) (fits : k ≤ 2 ^ w)
    (same : ∀ i < k, i ≠ j → value.extractLsb' (8 * i) 8 = mem (addr + ofNat w i)) :
    write k mem addr value =
      update mem (addr + ofNat w j) (value.extractLsb' (8 * j) 8) := by
  funext x
  by_cases here : x = addr + ofNat w j
  · rw [here, write_inside small fits, update_self]
  · rw [update_of_ne here]
    by_cases inside : ∃ i < k, x = addr + ofNat w i
    · obtain ⟨i, below, rfl⟩ := inside
      have other : i ≠ j := fun equal => here (by rw [equal])
      rw [write_inside below fits, same i below other]
    · exact write_outside fun i below equal => inside ⟨i, below, equal⟩

theorem extractLsb'_read (mem : ByteMem w) {k i : Nat} (addr : BitVec w) (small : i < k) :
    (read k mem addr).extractLsb' (8 * i) 8 = mem (addr + ofNat w i) := by
  apply eq_of_getLsbD_eq
  intro j byte
  rw [getLsbD_extractLsb', getLsbD_read mem addr (by omega)]
  have quotient : (8 * i + j) / 8 = i := by omega
  have remainder : (8 * i + j) % 8 = j := by omega
  simp [quotient, remainder, byte]

theorem read_write_same {value : BitVec (8 * k)} (fits : k ≤ 2 ^ w) :
    read k (write k mem addr value) addr = value := by
  apply eq_of_getLsbD_eq
  intro j small
  rw [getLsbD_read _ addr small, write_inside (by omega) fits, getLsbD_extractLsb', div_add_mod]
  simp [mod_lt]

theorem read_write_disjoint {k : Nat} {value : BitVec (8 * k)}
    (disjoint : ∀ i < l, ∀ j < k, other + ofNat w i ≠ addr + ofNat w j) :
    read l (write k mem addr value) other = read l mem other :=
  read_congr fun i small => write_outside fun j inside => disjoint i small j inside

/-- The low part of a value is a shorter value at the same address. -/
theorem read_setWidth (mem : ByteMem w) (addr : BitVec w) {k : Nat} (shorter : l ≤ k) :
    (read k mem addr).setWidth (8 * l) = read l mem addr := by
  apply eq_of_getLsbD_eq
  intro j small
  rw [getLsbD_setWidth, getLsbD_read mem addr (by omega), getLsbD_read mem addr small]
  simp [small]

/-- Aligned addresses are equal or their values do not overlap. -/
theorem add_ofNat_ne_of_aligned (divides : k ∣ 2 ^ w) (aligned : addr.toNat % k = 0)
    (alignedOther : other.toNat % k = 0) (ne : other ≠ addr) {i : Nat} (small : i < k) :
    other + ofNat w i ≠ addr := by
  intro same
  have remainder : addr.toNat % k = i := by
    rw [← same, toNat_add, toNat_ofNat, add_mod_mod, mod_mod_of_dvd _ divides,
      Nat.add_mod, alignedOther, Nat.zero_add, Nat.mod_mod, Nat.mod_eq_of_lt small]
  rw [aligned] at remainder
  rw [← remainder] at same
  exact ne (by simpa using same)

/-! ## Writes at several addresses -/

/-- Values of `k` bytes written at the addresses of a list of indices. -/
def writeAll {ι : Type} (k : Nat) (addr : ι → BitVec w) (value : ι → BitVec (8 * k))
    (mem : ByteMem w) (list : List ι) : ByteMem w :=
  list.foldl (fun mem i => write k mem (addr i) (value i)) mem

theorem writeAll_outside {ι : Type} {addr : ι → BitVec w} {value : ι → BitVec (8 * k)}
    {list : List ι} (outside : ∀ i ∈ list, ∀ j < k, x ≠ addr i + ofNat w j) :
    writeAll k addr value mem list x = mem x := by
  induction list generalizing mem with
  | nil => rfl
  | cons i rest ih =>
    rw [writeAll, foldl_cons, ← writeAll,
      ih fun i' member => outside i' (mem_cons_of_mem _ member),
      write_outside (outside i (mem_cons_self ..))]

theorem read_writeAll_disjoint {ι : Type} {k : Nat} {addr : ι → BitVec w}
    {value : ι → BitVec (8 * k)} {list : List ι}
    (disjoint : ∀ j < l, ∀ i ∈ list, ∀ j' < k,
      other + ofNat w j ≠ addr i + ofNat w j') :
    read l (writeAll k addr value mem list) other = read l mem other :=
  read_congr fun j small => writeAll_outside (disjoint j small)

theorem read_writeAll {ι : Type} {addr : ι → BitVec w} {value : ι → BitVec (8 * k)}
    {list : List ι} (fits : k ≤ 2 ^ w)
    (separate : ∀ i i', i ≠ i' → ∀ j < k, ∀ j' < k,
      addr i + ofNat w j ≠ addr i' + ofNat w j')
    {i : ι} (member : i ∈ list) (nodup : list.Nodup) :
    read k (writeAll k addr value mem list) (addr i) = value i := by
  induction list generalizing mem with
  | nil => exact absurd member (not_mem_nil)
  | cons first rest ih =>
    rw [writeAll, foldl_cons, ← writeAll]
    obtain ⟨fresh, restNodup⟩ := nodup_cons.mp nodup
    rcases mem_cons.mp member with rfl | later
    · have kept : read k (writeAll k addr value (write k mem (addr i) (value i)) rest) (addr i) =
          read k (write k mem (addr i) (value i)) (addr i) := by
        refine read_congr fun j small => writeAll_outside fun i' member' j' small' => ?_
        exact separate i i' (fun equal => fresh (equal ▸ member')) j small j' small'
      rw [kept, read_write_same fits]
    · exact ih later restNodup

/-! ## Setting bits of one byte -/

/-- Set bits of the byte at an address. -/
def orByte (mem : ByteMem w) (addr : BitVec w) (bits : BitVec 8) : ByteMem w :=
  Function.update mem addr (mem addr ||| bits)

theorem orByte_orByte (mem : ByteMem w) (addr : BitVec w) (bits bits' : BitVec 8) :
    (mem.orByte addr bits).orByte addr bits' = mem.orByte addr (bits ||| bits') := by
  simp only [orByte, update_self, update_idem, BitVec.or_assoc]

theorem orByte_of_subset (set : mem addr ||| bits = mem addr) : mem.orByte addr bits = mem := by
  rw [orByte, set, update_eq_self]

theorem orByte_of_ne (ne : x ≠ addr) : mem.orByte addr bits x = mem x := update_of_ne ne ..

theorem getLsbD_orByte (mem : ByteMem w) (addr x : BitVec w) (bits : BitVec 8) (bit : Nat) :
    (mem.orByte addr bits x).getLsbD bit =
      ((mem x).getLsbD bit || (decide (x = addr) && bits.getLsbD bit)) := by
  by_cases same : x = addr
  · subst same
    simp [orByte]
  · rw [orByte_of_ne same, decide_eq_false same, Bool.false_and, Bool.or_false]

/-- Writing back a value with more low bits changes one byte. -/
theorem write_read_or (fits : k + 1 ≤ 2 ^ w) :
    write (k + 1) mem addr (read (k + 1) mem addr ||| bits.setWidth (8 * (k + 1))) =
      mem.orByte addr bits := by
  funext x
  by_cases inside : ∃ i < k + 1, x = addr + ofNat w i
  · obtain ⟨i, small, rfl⟩ := inside
    rw [write_inside small fits]
    apply eq_of_getLsbD_eq
    intro j byte
    rw [getLsbD_extractLsb', getLsbD_or, getLsbD_setWidth, getLsbD_read mem addr (by omega)]
    have quotient : (8 * i + j) / 8 = i := by omega
    have remainder : (8 * i + j) % 8 = j := by omega
    rw [quotient, remainder]
    by_cases first : i = 0
    · subst first
      have within : j < 8 * (k + 1) := by omega
      simp [orByte, byte, within]
    · have ne : addr + ofNat w i ≠ addr := by
        intro same
        have zero : ofNat w i = 0 := by simpa using same
        have value := congrArg toNat zero
        rw [toNat_ofNat, mod_eq_of_lt (by omega)] at value
        exact first value
      have beyond : bits.getLsbD (8 * i + j) = false := getLsbD_of_ge _ _ (by omega)
      rw [orByte_of_ne ne, beyond]
      simp [byte]
  · have outside : ∀ i < k + 1, x ≠ addr + ofNat w i :=
      fun i small same => inside ⟨i, small, same⟩
    rw [write_outside outside, orByte_of_ne]
    simpa using outside 0 (by omega)

theorem write_read (fits : k + 1 ≤ 2 ^ w) :
    write (k + 1) mem addr (read (k + 1) mem addr) = mem := by
  have none : write (k + 1) mem addr (read (k + 1) mem addr ||| (0 : BitVec 8).setWidth _) =
      mem.orByte addr 0 := write_read_or fits
  rw [orByte_of_subset (by simp)] at none
  simpa using none

/-- A value does not change when bits are set in a byte outside it. -/
theorem read_orByte_of_ne (outside : ∀ i < k, other + ofNat w i ≠ addr) :
    read k (mem.orByte addr bits) other = read k mem other :=
  read_congr fun i small => orByte_of_ne (outside i small)

theorem read_orByte_self (fits : k + 1 ≤ 2 ^ w) :
    read (k + 1) (mem.orByte addr bits) addr =
      read (k + 1) mem addr ||| bits.setWidth (8 * (k + 1)) := by
  rw [← write_read_or fits, read_write_same fits]

end ByteMem

end Qemu
