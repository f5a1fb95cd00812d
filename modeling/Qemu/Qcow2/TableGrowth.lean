import Qemu.Qcow2.State

/-!
# Growing the refcount table

This file embeds the part of `alloc_refcount_block` which replaces the refcount table by a larger
one, from the computation of its size to the switch to the new table.  The new refcount blocks and
the new table lie one after the other behind the used part of the image and have to describe
themselves.
-/

namespace Qemu.Qcow2

open Block Function List Qcow2.Geometry Nat BigEndian

variable {i : Nat}

namespace Geometry

variable (g : Geometry)

def tableEntries : Nat := 2 ^ (g.clusterBits - 3)

/-- `refcount_block_clusters`: clusters described by one refcount block. -/
def refcountBlockClusters : Nat := 2 ^ (g.clusterBits - 1)

/-- The loop of `next_refcount_table_size`; each round adds at least one cluster, so `min_clusters`
rounds are enough. -/
def growTableClusters (minClusters : Nat) : Nat → Nat → Nat
  | 0, clusters => clusters
  | rounds + 1, clusters =>
    if minClusters > clusters then
      growTableClusters minClusters rounds ((clusters * 3 + 1) % 2 ^ 32 / 2)
    else clusters

/-- `next_refcount_table_size`, with the 32-bit arithmetic of `unsigned int`. -/
def nextRefcountTableSize (refcountTableSize minSize : Nat) : Nat :=
  let minClusters := minSize % 2 ^ 32 / g.tableEntries + 1
  growTableClusters minClusters minClusters (max 1 (refcountTableSize / g.tableEntries)) *
    g.tableEntries % 2 ^ 32

def blocksUsed (freeClusterIndex : Nat) : Nat :=
  (freeClusterIndex + g.refcountBlockClusters - 1) / g.refcountBlockClusters

/-- `blocks_clusters` of a round which starts with the given table size. -/
def blocksClusters (tableSize : Nat) : Nat :=
  1 + (g.sizeToClusters tableSize + g.refcountBlockClusters - 1) / g.refcountBlockClusters

/-- The table size computed by a round of the `do`/`while` loop. -/
def resizeTable (refcountTableSize blocksUsed tableSize : Nat) : Nat :=
  let metaClusters := g.sizeToClusters tableSize + g.blocksClusters tableSize
  g.nextRefcountTableSize refcountTableSize (blocksUsed +
    (metaClusters + g.refcountBlockClusters - 1) / g.refcountBlockClusters)

/-- The `do`/`while` loop, cut off after a number of rounds; it returns `table_size`. -/
def settleTableSize (refcountTableSize blocksUsed : Nat) : Nat → Nat → Option Nat
  | 0, _ => none
  | rounds + 1, lastTableSize =>
    let tableSize := g.resizeTable refcountTableSize blocksUsed lastTableSize
    if lastTableSize = tableSize then some tableSize
    else settleTableSize refcountTableSize blocksUsed rounds tableSize

end Geometry

/-- A new refcount table, as it is sized by the growth path. -/
structure TableGrowth where
  blocksUsed : Nat
  /-- `table_size`, in entries. -/
  tableSize : Nat

namespace TableGrowth

variable (g : Geometry) (growth : TableGrowth)

def blocksClusters : Nat := g.blocksClusters growth.tableSize

/-- `table_clusters`, this time of the table in bytes. -/
def tableClusters : Nat := g.sizeToClusters (growth.tableSize * 8)

def metaOffset : Nat := growth.blocksUsed * g.refcountBlockClusters * g.clusterSize % 2 ^ 64

def tableOffset : Nat := (growth.metaOffset g + growth.blocksClusters g * g.clusterSize) % 2 ^ 64

def newTable (old : List Nat) (refcountTableIndex newBlock : Nat) : List Nat :=
  let copied := (old ++ List.replicate growth.tableSize 0).take growth.tableSize
  (List.range (growth.blocksClusters g)).foldl
    (fun table i => table.set (growth.blocksUsed + i) (growth.metaOffset g + i * g.clusterSize))
    (copied.set refcountTableIndex newBlock)

def newBlocks : Buffer :=
  (List.range (growth.tableClusters g + growth.blocksClusters g)).foldl
    (fun blocks block => overwrite blocks (2 * block) 2 (bytes 2 1)) fun _ => 0

/-- A table as it is stored, with 64-bit big-endian entries. -/
def storedTable (table : List Nat) : Buffer := fun position =>
  bytes 8 (table.getD (position / 8) 0) (position % 8)

/-- The writes of the growth path: the new blocks, the new table, and the header fields which
switch to it. -/
def write (table : List Nat) : FileProg Unit := do
  bdrvPwriteSync .refblockAllocWriteBlocks (growth.metaOffset g) (growth.newBlocks g)
    (growth.blocksClusters g * g.clusterSize)
  bdrvPwriteSync .refblockAllocWriteTable (growth.tableOffset g) (storedTable table)
    (growth.tableSize * 8)
  bdrvPwriteSync .refblockAllocSwitchTable 48
    (overwrite (bytes 8 (growth.tableOffset g)) 8 4
      (bytes 4 (growth.tableClusters g))) 12

end TableGrowth

/-- The refcount a table gives a cluster, with the refcount blocks taken from the file. -/
def refcountIn (g : Geometry) (table : List Nat) (bytes : Buffer) (clusterIndex : Nat) : Nat :=
  let block := table.getD (clusterIndex / g.refcountBlockClusters) 0
  if block = 0 then 0
  else read bytes 2 (block + 2 * (clusterIndex % g.refcountBlockClusters))

section Growth

variable (g : Geometry) (s : BDRVQcowState) (clusterIndex : Nat)

/-- `refcount_table_index`, an `unsigned int`. -/
def refcountTableIndex : Nat := clusterIndex / g.refcountBlockClusters % 2 ^ 32

/-- `new_block` after `alloc_clusters_noref` has returned it: the last cluster before the cursor. -/
def newBlockOffset : Nat := (s.freeClusterIndex - 1) * g.clusterSize

/-- The state in which `alloc_refcount_block` gets to the growth path. -/
structure ReachesGrowth : Prop where
  /-- The table has no entry for the cluster. -/
  full : s.refcountTable.length ≤ refcountTableIndex g clusterIndex
  /-- A cluster for the refcount block was found. -/
  found : 0 < s.freeClusterIndex
  offset : newBlockOffset g s < 2 ^ 63

/-- What growing the table should do. -/
def GrowthSafe : Prop :=
  ∃ rounds tableSize,
    g.settleTableSize s.refcountTable.length (g.blocksUsed s.freeClusterIndex) rounds
        (g.nextRefcountTableSize s.refcountTable.length (g.blocksUsed s.freeClusterIndex + 1)) =
      some tableSize ∧
    let growth : TableGrowth := ⟨g.blocksUsed s.freeClusterIndex, tableSize⟩
    refcountTableIndex g clusterIndex < tableSize ∧
    growth.blocksUsed + growth.blocksClusters g ≤ tableSize ∧
    growth.tableClusters g + growth.blocksClusters g ≤
      growth.blocksClusters g * g.refcountBlockClusters ∧
    let table := growth.newTable g s.refcountTable (refcountTableIndex g clusterIndex)
      (newBlockOffset g s)
    ∀ file after, growth.write g table file = (.ok (), after) →
      ∀ cluster, growth.metaOffset g ≤ cluster * g.clusterSize →
        cluster * g.clusterSize < growth.tableOffset g + tableSize * 8 →
          refcountIn g table after.bytes cluster = 1

/-- The number of clusters a table reaches after `n` enlargements. -/
def enlarged (refcountTableSize n : Nat) : Nat :=
  (fun clusters => (clusters * 3 + 1) / 2)^[n] (max 1 (refcountTableSize / g.tableEntries))

/-- The first enlargement with room for one block more than are used fits in the clusters that two
refcount blocks describe, has a 32-bit number of entries, and one for the cluster. -/
def GrowthFits : Prop :=
  ∃ n, g.blocksUsed s.freeClusterIndex + 1 <
      enlarged g s.refcountTable.length n * g.tableEntries ∧
    (∀ m < n, enlarged g s.refcountTable.length m * g.tableEntries ≤
      g.blocksUsed s.freeClusterIndex + 1) ∧
    enlarged g s.refcountTable.length n + 2 ≤ 2 * g.refcountBlockClusters ∧
    enlarged g s.refcountTable.length n * g.tableEntries < 2 ^ 32 ∧
    refcountTableIndex g clusterIndex < enlarged g s.refcountTable.length n * g.tableEntries

end Growth

section Sizes

variable {g : Geometry} {size used k : Nat}

section

variable (g : Geometry)

theorem tableEntries_ge : 64 ≤ g.tableEntries :=
  Nat.pow_le_pow_right (n := 2) (i := 6) (by decide) (by have := g.min_bits; omega)

theorem tableEntries_le : g.tableEntries ≤ 2 ^ 18 :=
  Nat.pow_le_pow_right (by decide) (by have := g.max_bits; omega)

theorem clusterSize_tableEntries : g.clusterSize = g.tableEntries * 8 := by
  have bits : g.clusterBits = g.clusterBits - 3 + 3 := by
    have := g.min_bits
    omega
  rw [clusterSize, bits, pow_succ, pow_succ, pow_succ]
  simp [tableEntries, mul_assoc]

theorem refcountBlockClusters_tableEntries : g.refcountBlockClusters = g.tableEntries * 4 := by
  have bits : g.clusterBits - 1 = g.clusterBits - 3 + 2 := by
    have := g.min_bits
    omega
  rw [refcountBlockClusters, bits, pow_succ, pow_succ]
  simp [tableEntries, mul_assoc]

theorem tableEntries_dvd : g.tableEntries ∣ 2 ^ 32 := pow_dvd_pow 2 (by have := g.max_bits; omega)

/-- The loop enlarges the table until it has the clusters asked for. -/
theorem growTableClusters_spec {minClusters rounds clusters : Nat} (positive : 1 ≤ clusters)
    (enough : minClusters ≤ rounds + clusters) (small : minClusters ≤ 2 ^ 30) :
    ∃ n, growTableClusters minClusters rounds clusters =
        (fun clusters => (clusters * 3 + 1) / 2)^[n] clusters ∧
      minClusters ≤ (fun clusters => (clusters * 3 + 1) / 2)^[n] clusters ∧
      ∀ m < n, (fun clusters => (clusters * 3 + 1) / 2)^[m] clusters < minClusters := by
  induction rounds generalizing clusters with
  | zero => exact ⟨0, rfl, by simpa using enough, nofun⟩
  | succ rounds ih =>
    by_cases more : minClusters > clusters
    · have plain : (clusters * 3 + 1) % 2 ^ 32 = clusters * 3 + 1 := mod_eq_of_lt (by omega)
      obtain ⟨n, result, reached, before⟩ :=
        @ih ((clusters * 3 + 1) / 2) (by omega) (by omega)
      refine ⟨n + 1, ?_, reached, fun m early => ?_⟩
      · rw [growTableClusters, if_pos more, plain, result, iterate_succ_apply]
      · cases m with
        | zero => exact more
        | succ m => exact before m (lt_of_succ_lt_succ early)
    · refine ⟨0, ?_, not_lt.mp more, nofun⟩
      rw [growTableClusters, if_neg more]
      rfl

/-- `next_refcount_table_size` takes the first enlargement with more entries than asked for. -/
theorem nextRefcountTableSize_spec (size minSize : Nat) :
    ∃ n, g.nextRefcountTableSize size minSize =
        enlarged g size n * g.tableEntries % 2 ^ 32 ∧
      minSize % 2 ^ 32 < enlarged g size n * g.tableEntries ∧
      ∀ m < n, enlarged g size m * g.tableEntries ≤ minSize % 2 ^ 32 := by
  have entries : 0 < g.tableEntries := Nat.two_pow_pos _
  have entriesGe := tableEntries_ge g
  have quotient : minSize % 2 ^ 32 / g.tableEntries + 1 ≤ 2 ^ 30 := by
    have : minSize % 2 ^ 32 / g.tableEntries ≤ minSize % 2 ^ 32 / 64 :=
      div_le_div_left entriesGe (by decide)
    omega
  obtain ⟨n, result, reached, before⟩ := growTableClusters_spec
    (le_max_left 1 (size / g.tableEntries)) (le_add_right _ _) quotient
  refine ⟨n, ?_, ?_, fun m early => ?_⟩
  · rw [nextRefcountTableSize, result]
    rfl
  · exact (div_lt_iff_lt_mul entries).mp reached
  · exact (le_div_iff_mul_le entries).mp (le_of_lt_succ (before m early))

theorem sizeToClusters_entries (k : Nat) : g.sizeToClusters (k * g.tableEntries) = (k + 7) / 8 := by
  have entries := tableEntries_ge g
  have inner : (k * g.tableEntries + (g.tableEntries * 8 - 1)) / g.tableEntries = k + 7 := by
    have split : k * g.tableEntries + (g.tableEntries * 8 - 1) =
        g.tableEntries * (k + 7) + (g.tableEntries - 1) := by
      have : g.tableEntries * (k + 7) = k * g.tableEntries + g.tableEntries * 7 := by ring
      omega
    rw [split, mul_add_div (by omega), div_eq_of_lt (by omega), add_zero]
  rw [sizeToClusters, clusterSize_tableEntries, ← Nat.div_div_eq_div_mul, inner]

theorem sizeToClusters_bytes (k : Nat) : g.sizeToClusters (k * g.tableEntries * 8) = k := by
  have size : 0 < g.clusterSize := Nat.two_pow_pos _
  have whole : k * g.tableEntries * 8 = g.clusterSize * k := by
    rw [clusterSize_tableEntries]
    ring
  rw [sizeToClusters, whole, mul_add_div size, div_eq_of_lt (by omega), add_zero]

end

/-- The clusters of a table fit in the new refcount blocks only if two blocks are enough. -/
theorem few_of_fits {block : Nat} (large : 256 ≤ block)
    (fits : k + (1 + ((k + 7) / 8 + block - 1) / block) ≤
      (1 + ((k + 7) / 8 + block - 1) / block) * block) : k + 2 ≤ 2 * block := by
  have floor := div_mul_le_self ((k + 7) / 8 + block - 1) block
  have next := lt_div_mul_add (a := (k + 7) / 8 + block - 1) (show 0 < block by omega)
  generalize ((k + 7) / 8 + block - 1) / block = blocks at fits floor next
  rw [add_mul, one_mul] at fits
  match blocks with
  | 0 => omega
  | 1 => omega
  | blocks + 2 =>
    rw [add_mul] at floor fits
    omega

theorem blocksClusters_few (positive : 0 < k) (few : k + 2 ≤ 2 * g.refcountBlockClusters) :
    g.blocksClusters (k * g.tableEntries) = 2 := by
  have one : ((k + 7) / 8 + g.refcountBlockClusters - 1) / g.refcountBlockClusters = 1 :=
    Nat.div_eq_of_lt_le (by omega) (by omega)
  rw [blocksClusters, sizeToClusters_entries, one]

/-- As long as two blocks are enough, the loop asks for one block more than are used. -/
theorem resizeTable_few (few : k + 2 ≤ 2 * g.refcountBlockClusters) :
    g.resizeTable size used (k * g.tableEntries) = g.nextRefcountTableSize size (used + 1) := by
  have blocks := refcountBlockClusters_tableEntries g
  have bound : ((k + 7) / 8 + g.refcountBlockClusters - 1) / g.refcountBlockClusters < 2 :=
    (div_lt_iff_lt_mul (by omega)).mpr (by omega)
  rw [resizeTable, blocksClusters, sizeToClusters_entries]
  generalize ((k + 7) / 8 + g.refcountBlockClusters - 1) / g.refcountBlockClusters = blocks
    at bound ⊢
  have one : ((k + 7) / 8 + (1 + blocks) + g.refcountBlockClusters - 1) /
      g.refcountBlockClusters = 1 := Nat.div_eq_of_lt_le (by omega) (by omega)
  rw [one]

/-- The loop ends with a size which another round would not change. -/
theorem settleTableSize_fixed {rounds start tableSize : Nat}
    (settled : g.settleTableSize size used rounds start = some tableSize) :
    g.resizeTable size used tableSize = tableSize := by
  induction rounds generalizing start with
  | zero => simp [settleTableSize] at settled
  | succ rounds ih =>
    rw [settleTableSize] at settled
    split at settled
    · next same =>
      have result := Option.some.inj settled
      rw [← same] at result
      rw [← result]
      exact same.symm
    · exact ih settled

end Sizes

section Contents

variable {g : Geometry} {growth : TableGrowth}

/-- The table entries of the new blocks, one after the other. -/
theorem getD_foldl_set (table : List Nat) (start count : Nat) (value : Nat → Nat)
    (inside : i < count) (fits : start + count ≤ table.length) :
    ((range count).foldl (fun table i => table.set (start + i) (value i)) table).getD
      (start + i) 0 = value i := by
  have lengths (n : Nat) :
      ((range n).foldl (fun table i => table.set (start + i) (value i)) table).length =
        table.length := by
    induction n with
    | zero => rfl
    | succ n ih => rw [range_succ, foldl_append, foldl_cons, foldl_nil, length_set, ih]
  induction count with
  | zero => exact absurd inside (not_lt_zero i)
  | succ count ih =>
    rw [range_succ, foldl_append, foldl_cons, foldl_nil, getD_eq_getElem?_getD]
    rcases Nat.lt_succ_iff_lt_or_eq.mp inside with before | rfl
    · rw [getElem?_set_ne (by omega), ← getD_eq_getElem?_getD]
      exact ih before (by omega)
    · rw [getElem?_set_self (by rw [lengths]; omega), Option.getD_some]

theorem newBlocks_entry {entry : Nat}
    (inside : entry < growth.tableClusters g + growth.blocksClusters g) (byte : i < 2) :
    growth.newBlocks g (2 * entry + i) = bytes 2 1 i := by
  rw [TableGrowth.newBlocks]
  generalize growth.tableClusters g + growth.blocksClusters g = count at inside
  induction count with
  | zero => exact absurd inside (not_lt_zero entry)
  | succ count ih =>
    rw [range_succ, foldl_append, foldl_cons, foldl_nil]
    rcases Nat.lt_succ_iff_lt_or_eq.mp inside with before | rfl
    · rw [overwrite_outside (by omega)]
      exact ih before
    · rw [overwrite_inside (by omega) (by omega), Nat.add_sub_cancel_left]

theorem TableGrowth.write_blocks {table : List Nat} {file after : BlockFile}
    (run : growth.write g table file = (.ok (), after)) {position : Nat}
    (header : 60 ≤ growth.metaOffset g)
    (apart : growth.tableOffset g = growth.metaOffset g + growth.blocksClusters g * g.clusterSize)
    (inside : position < growth.blocksClusters g * g.clusterSize) :
    after.bytes (growth.metaOffset g + position) = growth.newBlocks g position := by
  obtain ⟨_, first, blocks, rest⟩ := Prog.bind_eq_ok.mp run
  obtain ⟨_, second, tables, switch⟩ := Prog.bind_eq_ok.mp rest
  rw [bdrvPwriteSync_bytes switch, overwrite_outside (by omega), bdrvPwriteSync_bytes tables,
    overwrite_outside (by omega), bdrvPwriteSync_bytes blocks,
    overwrite_inside (by omega) (by omega), Nat.add_sub_cancel_left]

end Contents

section SelfDescription

variable {g : Geometry} {s : BDRVQcowState} {clusterIndex : Nat}

/-- The blocks and the table of a grown table lie behind the cursor, in 64 bits. -/
theorem growth_offsets (reaches : ReachesGrowth g s clusterIndex) {growth : TableGrowth}
    (used : growth.blocksUsed = g.blocksUsed s.freeClusterIndex)
    (blocks : growth.blocksClusters g = 2) :
    60 ≤ growth.metaOffset g ∧
      growth.metaOffset g = growth.blocksUsed * g.refcountBlockClusters * g.clusterSize ∧
      growth.tableOffset g = growth.metaOffset g + growth.blocksClusters g * g.clusterSize := by
  have found := reaches.found
  have offset := reaches.offset
  have entries := tableEntries_ge g
  have entriesLe := tableEntries_le g
  have block := refcountBlockClusters_tableEntries g
  have size := clusterSize_tableEntries g
  have floor : growth.blocksUsed * g.refcountBlockClusters ≤
      s.freeClusterIndex - 1 + g.refcountBlockClusters := by
    rw [used, blocksUsed]
    have := div_mul_le_self (s.freeClusterIndex + g.refcountBlockClusters - 1)
      g.refcountBlockClusters
    omega
  have positive : 1 * g.refcountBlockClusters ≤ growth.blocksUsed * g.refcountBlockClusters := by
    refine mul_le_mul_right _ ?_
    rw [used, blocksUsed]
    exact (le_div_iff_mul_le (by omega)).mpr (by omega)
  have upper : growth.blocksUsed * g.refcountBlockClusters * g.clusterSize ≤
      (s.freeClusterIndex - 1) * g.clusterSize + g.refcountBlockClusters * g.clusterSize := by
    rw [← add_mul]
    exact mul_le_mul_right _ floor
  have blockBytes : g.refcountBlockClusters * g.clusterSize ≤ 2 ^ 20 * 2 ^ 21 :=
    Nat.mul_le_mul (by omega) (by omega)
  have lower : 1 * g.refcountBlockClusters * 60 ≤
      growth.blocksUsed * g.refcountBlockClusters * g.clusterSize :=
    Nat.mul_le_mul positive (by omega)
  rw [newBlockOffset] at offset
  have metaExact : growth.metaOffset g =
      growth.blocksUsed * g.refcountBlockClusters * g.clusterSize :=
    mod_eq_of_lt (by omega)
  refine ⟨by omega, metaExact, mod_eq_of_lt ?_⟩
  rw [blocks]
  omega

section

variable {growth : TableGrowth} {k cluster : Nat}
  (tableSize : growth.tableSize = k * g.tableEntries)
  (metaExact : growth.metaOffset g = growth.blocksUsed * g.refcountBlockClusters * g.clusterSize)
  (apart : growth.tableOffset g = growth.metaOffset g + growth.blocksClusters g * g.clusterSize)
  (lower : growth.metaOffset g ≤ cluster * g.clusterSize)
  (upper : cluster * g.clusterSize < growth.tableOffset g + growth.tableSize * 8)

include tableSize metaExact apart lower upper

/-- A cluster of the new blocks or the new table, numbered from the first new block. -/
theorem metaCluster :
    ∃ m, cluster = growth.blocksUsed * g.refcountBlockClusters + m ∧
      m < growth.tableClusters g + growth.blocksClusters g := by
  have size : 0 < g.clusterSize := Nat.two_pow_pos _
  have bytes : growth.tableSize * 8 = k * g.clusterSize := by
    rw [tableSize, clusterSize_tableEntries]
    ring
  have clusters : growth.tableClusters g = k := by
    rw [TableGrowth.tableClusters, tableSize, sizeToClusters_bytes]
  rw [metaExact] at lower
  have first := le_of_mul_le_mul_right lower size
  rw [apart, metaExact, bytes, ← add_mul, ← add_mul] at upper
  have last := lt_of_mul_lt_mul_right upper
  exact ⟨cluster - growth.blocksUsed * g.refcountBlockClusters, by omega, by omega⟩

theorem selfDescribing {old : List Nat} {index newBlock : Nat} {file after : BlockFile}
    (header : 60 ≤ growth.metaOffset g) (room : growth.blocksUsed + growth.blocksClusters g ≤ growth.tableSize)
    (fits : growth.tableClusters g + growth.blocksClusters g ≤
      growth.blocksClusters g * g.refcountBlockClusters)
    (run : growth.write g (growth.newTable g old index newBlock) file = (.ok (), after)) :
    refcountIn g (growth.newTable g old index newBlock) after.bytes cluster = 1 := by
  obtain ⟨m, rfl, inside⟩ := metaCluster tableSize metaExact apart lower upper
  have positive : 0 < g.refcountBlockClusters := Nat.two_pow_pos _
  have double : g.clusterSize = 2 * g.refcountBlockClusters := by
    rw [clusterSize_tableEntries, refcountBlockClusters_tableEntries]
    ring
  have blockIndex : (growth.blocksUsed * g.refcountBlockClusters + m) / g.refcountBlockClusters =
      growth.blocksUsed + m / g.refcountBlockClusters := by
    rw [mul_comm, mul_add_div positive]
  have entryIndex : (growth.blocksUsed * g.refcountBlockClusters + m) % g.refcountBlockClusters =
      m % g.refcountBlockClusters := by
    rw [mul_comm, mul_add_mod]
  have within : m / g.refcountBlockClusters < growth.blocksClusters g :=
    (div_lt_iff_lt_mul positive).mpr (by omega)
  have block : (growth.newTable g old index newBlock).getD
      (growth.blocksUsed + m / g.refcountBlockClusters) 0 =
        growth.metaOffset g + m / g.refcountBlockClusters * g.clusterSize :=
    getD_foldl_set _ _ _ (fun i => growth.metaOffset g + i * g.clusterSize) within (by simpa)
  have place : growth.metaOffset g + m / g.refcountBlockClusters * g.clusterSize +
      2 * (m % g.refcountBlockClusters) = growth.metaOffset g + 2 * m := by
    have split := div_add_mod m g.refcountBlockClusters
    calc growth.metaOffset g + m / g.refcountBlockClusters * g.clusterSize +
          2 * (m % g.refcountBlockClusters)
        = growth.metaOffset g + 2 * (g.refcountBlockClusters * (m / g.refcountBlockClusters) +
            m % g.refcountBlockClusters) := by
          rw [double]
          ring
      _ = growth.metaOffset g + 2 * m := by rw [split]
  rw [refcountIn, blockIndex, block, if_neg (by omega), entryIndex, place]
  have stored : read after.bytes 2 (growth.metaOffset g + 2 * m) =
      read (bytes 2 1) 2 0 := by
    refine read_congr fun i byte => ?_
    have bytes : 2 * m + i < growth.blocksClusters g * g.clusterSize := by
      rw [double, mul_left_comm]
      omega
    rw [add_assoc, TableGrowth.write_blocks run header apart bytes, zero_add]
    exact newBlocks_entry inside byte
  rw [stored]
  rfl

end

/-- A first enlargement that is cut to 32 bits has no room for the blocks in use. -/
theorem enlarged_small {size used n : Nat} (sizeSmall : size < 2 ^ 32)
    (before : ∀ m < n, enlarged g size m * g.tableEntries ≤ used + 1)
    (room : used + 2 ≤ enlarged g size n * g.tableEntries % 2 ^ 32) :
    enlarged g size n * g.tableEntries < 2 ^ 32 := by
  have entriesLe := tableEntries_le g
  cases n with
  | zero =>
    have start : enlarged g size 0 = max 1 (size / g.tableEntries) := rfl
    have floor := div_mul_le_self size g.tableEntries
    rw [start]
    rcases max_choice 1 (size / g.tableEntries) with large | large <;> rw [large] <;> omega
  | succ n =>
    have last := before n (lt_succ_self n)
    have step : enlarged g size (n + 1) = (enlarged g size n * 3 + 1) / 2 :=
      iterate_succ_apply' _ _ _
    have twice : 2 * (enlarged g size (n + 1) * g.tableEntries) ≤
        3 * (enlarged g size n * g.tableEntries) + g.tableEntries := by
      have half : 2 * enlarged g size (n + 1) ≤ enlarged g size n * 3 + 1 := by omega
      calc 2 * (enlarged g size (n + 1) * g.tableEntries)
          = 2 * enlarged g size (n + 1) * g.tableEntries := by ring
        _ ≤ (enlarged g size n * 3 + 1) * g.tableEntries := mul_le_mul_right _ half
        _ = 3 * (enlarged g size n * g.tableEntries) + g.tableEntries := by ring
    omega

theorem GrowthSafe.fits (size : s.refcountTable.length < 2 ^ 32)
    (safe : GrowthSafe g s clusterIndex) : GrowthFits g s clusterIndex := by
  obtain ⟨rounds, tableSize, settled, entry, room, buffer, _⟩ := safe
  have fixed := settleTableSize_fixed settled
  obtain ⟨k, multiple⟩ : ∃ k, tableSize = k * g.tableEntries := by
    obtain ⟨n, next, _⟩ := nextRefcountTableSize_spec g s.refcountTable.length
      (g.blocksUsed s.freeClusterIndex + (g.sizeToClusters tableSize +
        g.blocksClusters tableSize + g.refcountBlockClusters - 1) / g.refcountBlockClusters)
    obtain ⟨whole, division⟩ := tableEntries_dvd g
    refine ⟨enlarged g s.refcountTable.length n % whole, ?_⟩
    rw [← mul_mod_mul_right, mul_comm whole, ← division, ← next]
    exact fixed.symm
  subst multiple
  have blockSize : 256 ≤ g.refcountBlockClusters := by
    have := tableEntries_ge g
    rw [refcountBlockClusters_tableEntries]
    omega
  have few : k + 2 ≤ 2 * g.refcountBlockClusters := by
    simp only [TableGrowth.tableClusters, TableGrowth.blocksClusters, sizeToClusters_bytes,
      blocksClusters, sizeToClusters_entries] at buffer
    exact few_of_fits blockSize buffer
  have positive := Nat.pos_of_lt_mul_right entry
  rw [resizeTable_few few] at fixed
  rw [TableGrowth.blocksClusters, blocksClusters_few positive few] at room
  change g.blocksUsed s.freeClusterIndex + 2 ≤ k * g.tableEntries at room
  obtain ⟨n, next, above, before⟩ := nextRefcountTableSize_spec g s.refcountTable.length
    (g.blocksUsed s.freeClusterIndex + 1)
  have plain : (g.blocksUsed s.freeClusterIndex + 1) % 2 ^ 32 =
      g.blocksUsed s.freeClusterIndex + 1 := mod_eq_of_lt (by omega)
  rw [plain] at above before
  rw [fixed] at next
  have small := enlarged_small size before (next ▸ room)
  rw [mod_eq_of_lt small] at next
  have same : k = enlarged g s.refcountTable.length n :=
    Nat.eq_of_mul_eq_mul_right (Nat.two_pow_pos _) next
  exact ⟨n, above, before, same ▸ few, small, next ▸ entry⟩

theorem GrowthFits.safe (reaches : ReachesGrowth g s clusterIndex)
    (fits : GrowthFits g s clusterIndex) : GrowthSafe g s clusterIndex := by
  obtain ⟨n, above, before, few, small, entry⟩ := fits
  have next : g.nextRefcountTableSize s.refcountTable.length
      (g.blocksUsed s.freeClusterIndex + 1) =
        enlarged g s.refcountTable.length n * g.tableEntries := by
    obtain ⟨n', next, above', before'⟩ := nextRefcountTableSize_spec g s.refcountTable.length
      (g.blocksUsed s.freeClusterIndex + 1)
    have same : n' = n := by
      rcases lt_trichotomy n' n with early | same | late
      · have := before n' early
        omega
      · exact same
      · have := before' n late
        omega
    rw [next, same, mod_eq_of_lt small]
  generalize enlarged g s.refcountTable.length n = k at above few small entry next
  have positive := Nat.pos_of_lt_mul_right entry
  refine ⟨1, k * g.tableEntries, ?_, ?_⟩
  · rw [next, settleTableSize, resizeTable_few few, next, if_pos rfl]
  · intro growth
    have blocks : growth.blocksClusters g = 2 := blocksClusters_few positive few
    have tables : growth.tableClusters g = k := sizeToClusters_bytes g k
    have room : growth.blocksUsed + growth.blocksClusters g ≤ growth.tableSize := by
      rw [blocks]
      exact above
    have buffer : growth.tableClusters g + growth.blocksClusters g ≤
        growth.blocksClusters g * g.refcountBlockClusters := by
      rw [tables, blocks]
      exact few
    obtain ⟨header, metaExact, apart⟩ := @growth_offsets g s clusterIndex reaches growth rfl blocks
    refine ⟨entry, room, buffer, ?_⟩
    intro table file after run cluster lower upper
    exact selfDescribing rfl metaExact apart lower upper header room buffer run

/-- Growing the refcount table is safe exactly if the first enlargement fits. -/
theorem growth_safe_iff (size : s.refcountTable.length < 2 ^ 32)
    (reaches : ReachesGrowth g s clusterIndex) :
    GrowthSafe g s clusterIndex ↔ GrowthFits g s clusterIndex :=
  ⟨GrowthSafe.fits size, GrowthFits.safe reaches⟩

/-- An image with 512-byte clusters whose refcount table of the given number of clusters is full;
the cluster behind it has just been allocated, and one more for its refcount block. -/
def fullTable (clusters : Nat) : BDRVQcowState where
  caches := ⟨⟨fun _ => 0, [], [], false⟩, qcow2CacheCreate 1 false fun _ _ => 0,
    qcow2CacheCreate 1 false fun _ _ => 0⟩
  l1Table := []
  refcountTable := List.replicate (clusters * 64) 512
  refcountTableOffset := 0
  freeClusterIndex := clusters * 64 * 256 + 2

theorem fullTable_reaches {clusters : Nat} (small : clusters < 2 ^ 20) :
    ReachesGrowth .smallest (fullTable clusters) (clusters * 64 * 256) := by
  have index : refcountTableIndex .smallest (clusters * 64 * 256) = clusters * 64 := by
    have block : smallest.refcountBlockClusters = 256 := rfl
    rw [refcountTableIndex, block, Nat.mul_div_cancel _ (by decide)]
    exact mod_eq_of_lt (by omega)
  have table : (fullTable clusters).refcountTable.length = clusters * 64 := length_replicate
  have cursor : (fullTable clusters).freeClusterIndex = clusters * 64 * 256 + 2 := rfl
  refine ⟨by rw [index, table], by omega, ?_⟩
  have size : smallest.clusterSize = 512 := rfl
  rw [newBlockOffset, size, cursor]
  omega

/-- The first growth of a small image is safe. -/
theorem firstGrowth_safe :
    ReachesGrowth .smallest (fullTable 1) (1 * 64 * 256) ∧
      GrowthSafe .smallest (fullTable 1) (1 * 64 * 256) := by
  have reaches := @fullTable_reaches 1 (by decide)
  exact ⟨reaches, (growth_safe_iff (by decide) reaches).mpr
    ⟨1, by decide, by decide, by decide, by decide, by decide⟩⟩

/-- An image of 3.7 GiB gets a table of 710 clusters, but only two refcount blocks of 256 entries
each to describe it. -/
theorem largeGrowth_overruns :
    ReachesGrowth .smallest (fullTable 473) (473 * 64 * 256) ∧
      Geometry.smallest.settleTableSize 30272 30273 1
          (Geometry.smallest.nextRefcountTableSize 30272 30274) = some 45440 ∧
      Geometry.smallest.blocksClusters 45440 * Geometry.smallest.refcountBlockClusters <
        Geometry.smallest.sizeToClusters (45440 * 8) + Geometry.smallest.blocksClusters 45440 ∧
      ¬ GrowthSafe .smallest (fullTable 473) (473 * 64 * 256) := by
  have length : (fullTable 473).refcountTable.length = 30272 := length_replicate
  have used : smallest.blocksUsed (fullTable 473).freeClusterIndex = 30273 := rfl
  have entries : smallest.tableEntries = 64 := rfl
  refine ⟨fullTable_reaches (by decide), by decide +kernel, by decide +kernel, fun safe => ?_⟩
  have first : enlarged .smallest 30272 0 = 473 := by decide +kernel
  have second : enlarged .smallest 30272 1 = 710 := by decide +kernel
  have blocks : smallest.refcountBlockClusters = 256 := rfl
  obtain ⟨n, above, before, few, _⟩ := GrowthSafe.fits (by rw [length]; decide) safe
  rw [length, used, entries] at above
  rw [length, blocks] at few
  rcases lt_trichotomy n 1 with early | rfl | late
  · rw [lt_one_iff.mp early, first] at above
    omega
  · omega
  · have short := before 1 late
    rw [length, used, entries, second] at short
    omega

end SelfDescription

end Qemu.Qcow2
