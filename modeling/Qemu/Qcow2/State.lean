import Qemu.Lib.BigEndian
import Qemu.Qcow2.Cache

/-!
# The state of the qcow2 driver

`BDRVQcowState` holds the two table caches with the file below them, and the tables and cursors kept
in memory.
-/

namespace Qemu.Qcow2

open Block

/-- The part of `BDRVQcowState` on which the cluster and refcount functions work. -/
structure BDRVQcowState where
  /-- `bs->file` and the table caches. -/
  caches : CacheState
  /-- `l1_table`, whose length is `l1_size`. -/
  l1Table : List (BitVec 64)
  /-- `refcount_table`, whose length is `refcount_table_size`. -/
  refcountTable : List Nat
  refcountTableOffset : Nat
  /-- Where the search for free clusters starts. -/
  freeClusterIndex : Nat

abbrev QcowProg := Prog BDRVQcowState Errno

def onCaches {α : Type} (program : CacheProg α) : QcowProg α :=
  Prog.lift BDRVQcowState.caches (fun state caches => { state with caches }) program

/-- `QCOW_OFLAG_COPIED`: the cluster has a refcount of one. -/
def oflagCopied : BitVec 64 := 1 <<< 63

/-- `QCOW_OFLAG_COMPRESSED`: the entry describes a compressed cluster. -/
def oflagCompressed : BitVec 64 := 1 <<< 62

/-- Entry `i` of a table of 64-bit big-endian entries. -/
def be64ToCpu (table : Buffer) (i : Nat) : BitVec 64 :=
  BitVec.ofNat 64 (BigEndian.read table 8 (8 * i))

namespace Geometry

variable (g : Geometry)

def clusterSectors : Nat := 2 ^ (g.clusterBits - 9)

def l2Bits : Nat := g.clusterBits - 3

def l2Size : Nat := 2 ^ g.l2Bits

def sizeToClusters (size : Nat) : Nat := (size + (g.clusterSize - 1)) / g.clusterSize

/-- Clusters of one sector. -/
def smallest : Geometry := ⟨9, by decide, by decide⟩

theorem clusterSectors_pos : 0 < g.clusterSectors := Nat.two_pow_pos _

theorem clusterSize_eq : g.clusterSize = g.clusterSectors * 512 := by
  have split : g.clusterBits = g.clusterBits - 9 + 9 := by
    have := g.min_bits
    omega
  rw [clusterSize, clusterSectors, split, pow_add]
  simp

theorem clusterSize_le : g.clusterSize ≤ 2 ^ 21 := Nat.pow_le_pow_right (by decide) g.max_bits

theorem pow_l1Bits : 2 ^ (g.l2Bits + g.clusterBits) = g.l2Size * g.clusterSectors * 512 := by
  rw [pow_add, mul_assoc, ← clusterSize_eq]
  rfl

end Geometry

end Qemu.Qcow2
