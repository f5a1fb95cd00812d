import Qemu.Lib.Run
import Qemu.Qcow2.State

/-!
# Looking up a run of guest clusters

This file embeds `qcow2_get_cluster_offset` with the two counters it uses, and says for which table
contents the run it returns is what the tables describe.
-/

namespace Qemu.Qcow2

open Block Prog
open BitVec (ofNat)

def countContiguousClusters (nbClusters clusterSize : Nat) (l2Table : Nat → BitVec 64)
    (start : Nat) (mask : BitVec 64) : Nat :=
  let offset := l2Table 0 &&& ~~~mask
  if offset = 0 then 0
  else
    Run.length (fun i => decide (offset + ofNat 64 i * ofNat 64 clusterSize =
      l2Table i &&& ~~~mask)) start nbClusters

def countContiguousFreeClusters (nbClusters : Nat) (l2Table : Nat → BitVec 64) : Nat :=
  Run.length (fun i => decide (l2Table i = 0)) 0 nbClusters

/-- What `qcow2_get_cluster_offset` stores through its two pointers. -/
structure ClusterRun where
  num : Int
  clusterOffset : BitVec 64
  deriving DecidableEq, Repr

/-- The part of `qcow2_get_cluster_offset` after its label `out`. -/
def clusterRunOut (nbAvailable nbNeeded indexInCluster : Nat) (clusterOffset : BitVec 64) :
    ClusterRun where
  num := ((min nbAvailable nbNeeded : Nat) - (indexInCluster : Int)).bmod (2 ^ 32)
  clusterOffset := clusterOffset &&& ~~~oflagCopied

section Lookup

variable (g : Geometry)

def l2Load (l2Offset : Nat) : QcowProg Nat := onCaches (qcow2CacheGet g .l2Table l2Offset)

/-- How many clusters of a request can be accessed in one go, from the entry of the first on. -/
def runClusters (nbClusters : Nat) (l2Table : Nat → BitVec 64) : Nat :=
  if l2Table 0 = 0 then countContiguousFreeClusters nbClusters l2Table
  else countContiguousClusters nbClusters g.clusterSize l2Table 0 oflagCopied

def qcow2GetClusterOffset (offset num : Nat) : QcowProg ClusterRun := do
  let indexInCluster := offset / 512 % g.clusterSectors
  let l1Bits := g.l2Bits + g.clusterBits
  let nbAvailable := (2 ^ l1Bits - offset % 2 ^ l1Bits) / 512 + indexInCluster
  let nbNeeded := min (num + indexInCluster) nbAvailable
  let l1Index := offset / 2 ^ l1Bits % 2 ^ 32
  let s ← Prog.get
  let l2Offset := s.l1Table.getD l1Index 0
  if s.l1Table.length ≤ l1Index ∨ l2Offset = 0 then
    return clusterRunOut nbAvailable nbNeeded indexInCluster 0
  else
    let i ← l2Load g (l2Offset &&& ~~~oflagCopied).toNat
    let s ← Prog.get
    let l2Table := be64ToCpu (s.caches.l2TableCache.entries i).table
    let l2Index := offset / g.clusterSize % g.l2Size
    let nbClusters := g.sizeToClusters (nbNeeded * 512)
    let c := runClusters g nbClusters fun k => l2Table (l2Index + k)
    let _ ← Prog.attempt (onCaches (qcow2CachePut g .l2Table i))
    return clusterRunOut (c * g.clusterSectors) nbNeeded indexInCluster (l2Table l2Index)

/-- The L2 table at an offset, as the cache hands it out. -/
def l2Content (caches : CacheState) (offset : Nat) : Buffer :=
  match qcow2CacheGet g .l2Table offset caches with
  | (.ok i, after) => (after.l2TableCache.entries i).table
  | (_, after) => after.file.bytes

/-- The L2 entry reached through given indices; an L1 entry of zero stands for a table of zeros. -/
def l2Entry (s : BDRVQcowState) (l1Index l2Index : Nat) : BitVec 64 :=
  let l2Offset := s.l1Table.getD l1Index 0
  if l2Offset = 0 then 0
  else be64ToCpu (l2Content g s.caches (l2Offset &&& ~~~oflagCopied).toNat) l2Index

/-- The L2 entry of the cluster in which a guest sector lies. -/
def sectorEntry (s : BDRVQcowState) (sector : Nat) : BitVec 64 :=
  l2Entry g s (sector / (g.l2Size * g.clusterSectors)) (sector / g.clusterSectors % g.l2Size)

end Lookup

variable (entry : BitVec 64)

/-- The entry is the descriptor of a compressed cluster. -/
def Compressed : Prop := entry &&& oflagCompressed ≠ 0

instance (entry : BitVec 64) : Decidable (Compressed entry) := inferInstanceAs (Decidable (_ ≠ _))

/-- An entry without its `QCOW_OFLAG_COPIED`. -/
def masked : BitVec 64 := entry &&& ~~~oflagCopied

@[simp] theorem masked_zero : masked 0 = 0 := BitVec.zero_and

theorem compressed_masked : Compressed (masked entry) ↔ Compressed entry := by
  have apart : ~~~oflagCopied &&& oflagCompressed = oflagCompressed := by decide
  rw [Compressed, Compressed, masked, BitVec.and_assoc, apart]

theorem masked_lt : (masked entry).toNat < 2 ^ 63 := by
  have clear : (masked entry).msb = false := by
    have flag : oflagCopied.msb = true := by decide
    simp [masked, flag]
  have := BitVec.msb_eq_false_iff_two_mul_lt.mp clear
  omega

/-- What a returned run of guest sectors promises about them: they are all unallocated, they lie in
one compressed cluster, or they are stored one after the other. -/
structure RunSound (g : Geometry) (s : BDRVQcowState) (offset num : Nat) (run : ClusterRun) :
    Prop where
  /-- Progress. -/
  positive : 0 < run.num
  /-- No more than was asked for. -/
  bounded : run.num ≤ num
  /-- The three kinds of runs. -/
  described :
    (run.clusterOffset = 0 ∧
      ∀ i : Nat, i < run.num → masked (sectorEntry g s (offset / 512 + i)) = 0) ∨
    (Compressed run.clusterOffset ∧
      ∀ i : Nat, i < run.num → (offset / 512 + i) / g.clusterSectors =
          offset / 512 / g.clusterSectors ∧
        masked (sectorEntry g s (offset / 512 + i)) = run.clusterOffset) ∨
    (¬ Compressed run.clusterOffset ∧
      ∀ i : Nat, i < run.num →
        ¬ Compressed (sectorEntry g s (offset / 512 + i)) ∧
        masked (sectorEntry g s (offset / 512 + i)) ≠ 0 ∧
        (masked (sectorEntry g s (offset / 512 + i))).toNat +
            (offset / 512 + i) % g.clusterSectors * 512 =
          run.clusterOffset.toNat + (offset / 512 % g.clusterSectors + i) * 512)

section Request

variable (g : Geometry) (s : BDRVQcowState) (offset num : Nat)

/-- Sector `i` after the one at `offset` lies under the same L1 entry. -/
def SameL1 (i : Nat) : Prop :=
  offset % 2 ^ (g.l2Bits + g.clusterBits) + (i + 1) * 512 ≤ 2 ^ (g.l2Bits + g.clusterBits)

instance (i : Nat) : Decidable (SameL1 g offset i) := inferInstanceAs (Decidable (_ ≤ _))

/-- The entries from that of `offset` on, found with the L1 index cut to 32 bits. -/
def reached (k : Nat) : BitVec 64 :=
  l2Entry g s (offset / 2 ^ (g.l2Bits + g.clusterBits) % 2 ^ 32)
    (offset / g.clusterSize % g.l2Size + k)

/-- The request goes on into cluster `j` after its first one, and the raw entries up to that
cluster are a cluster apart. -/
structure Continues (j : Nat) : Prop where
  asked : j * g.clusterSectors < offset / 512 % g.clusterSectors + num
  /-- It lies under the same L1 entry. -/
  same : SameL1 g offset (j * g.clusterSectors - offset / 512 % g.clusterSectors)
  /-- The entries are consecutive. -/
  apart : ∀ i ≤ j, (masked (reached g s offset i)).toNat =
    (masked (reached g s offset 0)).toNat + i * g.clusterSize

/-- Table contents and requests for which the lookup is right. -/
structure RunLegible : Prop where
  /-- A whole sector is left under the L1 entry. -/
  room : SameL1 g offset 0
  /-- An entry other than zero was reached through the right L1 entry, has an offset, and no
  compressed entry belongs to a run of consecutive entries. -/
  entry : reached g s offset 0 = 0 ∨
    (offset / 2 ^ (g.l2Bits + g.clusterBits) < 2 ^ 32 ∧ masked (reached g s offset 0) ≠ 0 ∧
      ∀ j, 0 < j → Continues g s offset num j →
        ¬ Compressed (reached g s offset 0) ∧ ¬ Compressed (reached g s offset j))

end Request

section Positions

variable {g : Geometry} {s : BDRVQcowState} {offset num i j : Nat}

theorem SameL1.of_le (same : SameL1 g offset i) (earlier : j ≤ i) : SameL1 g offset j := by
  have : (j + 1) * 512 ≤ (i + 1) * 512 := Nat.mul_le_mul_right 512 (Nat.succ_le_succ earlier)
  exact (Nat.add_le_add_left this _).trans same

theorem sector_mod (g : Geometry) (offset : Nat) :
    offset / 512 % (g.l2Size * g.clusterSectors) =
      offset / g.clusterSize % g.l2Size * g.clusterSectors + offset / 512 % g.clusterSectors := by
  have cluster : offset / g.clusterSize = offset / 512 / g.clusterSectors := by
    rw [Nat.div_div_eq_div_mul, g.clusterSize_eq, mul_comm 512]
  rw [cluster, mul_comm g.l2Size, Nat.mod_mul]
  ring

theorem SameL1.below (same : SameL1 g offset i) :
    offset / g.clusterSize % g.l2Size * g.clusterSectors +
      (offset / 512 % g.clusterSectors + i) < g.l2Size * g.clusterSectors := by
  have place := sector_mod g offset
  rw [SameL1, g.pow_l1Bits] at same
  have sector : offset % (g.l2Size * g.clusterSectors * 512) / 512 =
      offset / 512 % (g.l2Size * g.clusterSectors) := by
    rw [mul_comm _ 512, Nat.mod_mul_right_div_self]
  omega

theorem sectorEntry_same (same : SameL1 g offset i) :
    sectorEntry g s (offset / 512 + i) =
      l2Entry g s (offset / 2 ^ (g.l2Bits + g.clusterBits))
        (offset / g.clusterSize % g.l2Size +
          (offset / 512 % g.clusterSectors + i) / g.clusterSectors) := by
  have sectors := g.clusterSectors_pos
  have inside := same.below
  have place := sector_mod g offset
  generalize offset / g.clusterSize % g.l2Size = index at inside place ⊢
  generalize offset / 512 % g.clusterSectors = start at inside place ⊢
  have l1 : offset / 2 ^ (g.l2Bits + g.clusterBits) =
      offset / 512 / (g.l2Size * g.clusterSectors) := by
    rw [g.pow_l1Bits, Nat.div_div_eq_div_mul, mul_comm 512]
  have split : offset / 512 + i =
      g.l2Size * g.clusterSectors * (offset / 512 / (g.l2Size * g.clusterSectors)) +
        (index * g.clusterSectors + (start + i)) := by
    have := Nat.div_add_mod (offset / 512) (g.l2Size * g.clusterSectors)
    omega
  have outer : (offset / 512 + i) / (g.l2Size * g.clusterSectors) =
      offset / 512 / (g.l2Size * g.clusterSectors) := by
    rw [split, Nat.mul_add_div (by omega), Nat.div_eq_of_lt inside, add_zero]
  have inner : (offset / 512 + i) / g.clusterSectors % g.l2Size =
      index + (start + i) / g.clusterSectors := by
    have quotient : (offset / 512 + i) / g.clusterSectors =
        g.l2Size * (offset / 512 / (g.l2Size * g.clusterSectors)) +
          (index + (start + i) / g.clusterSectors) := by
      rw [split]
      generalize offset / 512 / (g.l2Size * g.clusterSectors) = whole
      have regroup : g.l2Size * g.clusterSectors * whole +
          (index * g.clusterSectors + (start + i)) =
            g.clusterSectors * (g.l2Size * whole + index) + (start + i) := by ring
      rw [regroup, Nat.mul_add_div sectors]
      ring
    have small : index + (start + i) / g.clusterSectors < g.l2Size := by
      have : (index * g.clusterSectors + (start + i)) / g.clusterSectors < g.l2Size :=
        Nat.div_lt_of_lt_mul (by rwa [mul_comm g.clusterSectors])
      rwa [mul_comm, Nat.mul_add_div sectors] at this
    rw [quotient, Nat.mul_add_mod, Nat.mod_eq_of_lt small]
  rw [sectorEntry, outer, inner, l1]

theorem l2Entry_beyond (size : s.l1Table.length < 2 ^ 31) {l1Index l2Index : Nat}
    (beyond : 2 ^ 32 ≤ l1Index) : l2Entry g s l1Index l2Index = 0 := by
  have missing : s.l1Table.getD l1Index 0 = 0 := by
    rw [List.getD_eq_getElem?_getD, List.getElem?_eq_none (by omega), Option.getD_none]
  rw [l2Entry, if_pos missing]

theorem lt_sizeToClusters_iff (g : Geometry) (sectors j : Nat) :
    j < g.sizeToClusters (sectors * 512) ↔ j * g.clusterSectors < sectors := by
  have sectorsPos := g.clusterSectors_pos
  have size := g.clusterSize_eq
  rw [Geometry.sizeToClusters, Nat.lt_iff_add_one_le, Nat.le_div_iff_mul_le (by omega)]
  have expand : (j + 1) * g.clusterSize = j * g.clusterSectors * 512 + g.clusterSize := by
    rw [add_mul, one_mul, size]
    ring
  omega

end Positions

section Counting

variable {g : Geometry} {table : Nat → BitVec 64} {nbClusters k : Nat}

/-- The entries up to `k` are all zero, or they have offsets a cluster apart. -/
def Uniform (g : Geometry) (table : Nat → BitVec 64) (k : Nat) : Prop :=
  (table 0 = 0 ∧ ∀ i ≤ k, table i = 0) ∨
    (masked (table 0) ≠ 0 ∧
      ∀ i ≤ k, (masked (table i)).toNat = (masked (table 0)).toNat + i * g.clusterSize)

/-- In the range of a table the comparison of raw entries does not wrap. -/
theorem apart_iff {first second : BitVec 64} {i : Nat} (inside : i < 2 ^ 32) :
    masked first + ofNat 64 i * ofNat 64 g.clusterSize = masked second ↔
      (masked second).toNat = (masked first).toNat + i * g.clusterSize := by
  have low := masked_lt first
  have size := g.clusterSize_le
  have product : i * g.clusterSize < 2 ^ 53 := by
    calc i * g.clusterSize ≤ i * 2 ^ 21 := Nat.mul_le_mul_left i size
      _ < 2 ^ 32 * 2 ^ 21 := mul_lt_mul_of_pos_right inside (by decide)
      _ = 2 ^ 53 := by norm_num
  have sum : (masked first + ofNat 64 i * ofNat 64 g.clusterSize).toNat =
      (masked first).toNat + i * g.clusterSize := by
    rw [BitVec.toNat_add, BitVec.toNat_mul, BitVec.toNat_ofNat, BitVec.toNat_ofNat,
      ← Nat.mul_mod, Nat.add_mod_mod, Nat.mod_eq_of_lt (by omega)]
  rw [← BitVec.toNat_inj, sum, eq_comm]

theorem uniform_of_zero (zero : table 0 = 0) : Uniform g table k ↔ ∀ i ≤ k, table i = 0 := by
  constructor
  · rintro (⟨_, all⟩ | ⟨some, _⟩)
    · exact all
    · exact absurd (by rw [zero, masked_zero]) some
  · exact fun all => .inl ⟨zero, all⟩

theorem uniform_of_ne (nonzero : table 0 ≠ 0) :
    Uniform g table k ↔ masked (table 0) ≠ 0 ∧
      ∀ i ≤ k, (masked (table i)).toNat = (masked (table 0)).toNat + i * g.clusterSize := by
  constructor
  · rintro (⟨zero, _⟩ | apart)
    · exact absurd zero nonzero
    · exact apart
  · exact .inr

theorem lt_runClusters_iff (limit : nbClusters ≤ 2 ^ 32) :
    k < runClusters g nbClusters table ↔ k < nbClusters ∧ Uniform g table k := by
  rw [runClusters]
  by_cases zero : table 0 = 0
  · rw [if_pos zero, countContiguousFreeClusters, Run.lt_length_iff, uniform_of_zero zero]
    simp only [zero_add, decide_eq_true_eq]
  · rw [if_neg zero, countContiguousClusters, uniform_of_ne zero]
    change k < (if masked (table 0) = 0 then 0 else Run.length (fun i =>
      decide (masked (table 0) + ofNat 64 i * ofNat 64 g.clusterSize =
        masked (table i))) 0 nbClusters) ↔ _
    by_cases bare : masked (table 0) = 0
    · simp [bare]
    · simp only [if_neg bare, Run.lt_length_iff, zero_add, decide_eq_true_eq]
      refine and_congr_right fun below => ?_
      have entries : (∀ i ≤ k, masked (table 0) +
            ofNat 64 i * ofNat 64 g.clusterSize = masked (table i)) ↔
          ∀ i ≤ k, (masked (table i)).toNat = (masked (table 0)).toNat + i * g.clusterSize :=
        forall₂_congr fun i early => apart_iff (by omega)
      rw [entries, and_iff_right bare]

end Counting

section Returned

variable {g : Geometry} {s after : BDRVQcowState} {offset num : Nat} {run : ClusterRun}

/-- `nb_needed` once it has been cut at the end of the L1 entry. -/
def nbNeeded (g : Geometry) (offset num : Nat) : Nat :=
  min (num + offset / 512 % g.clusterSectors)
    ((2 ^ (g.l2Bits + g.clusterBits) - offset % 2 ^ (g.l2Bits + g.clusterBits)) / 512 +
      offset / 512 % g.clusterSectors)

theorem lt_nbNeeded_iff (g : Geometry) (offset num i : Nat) :
    offset / 512 % g.clusterSectors + i < nbNeeded g offset num ↔
      i < num ∧ SameL1 g offset i := by
  rw [nbNeeded, lt_min_iff, add_comm num, add_comm (_ / 512), add_lt_add_iff_left,
    add_lt_add_iff_left, Nat.lt_iff_add_one_le (n := _ / 512), Nat.le_div_iff_mul_le (by decide),
    SameL1]
  omega

theorem nbClusters_le (positive : num < 2 ^ 31) :
    g.sizeToClusters (nbNeeded g offset num * 512) ≤ 2 ^ 32 := by
  by_contra many
  have inside := (lt_sizeToClusters_iff g _ _).mp (not_le.mp many)
  have sectors := g.clusterSectors_pos
  have needed : nbNeeded g offset num ≤ num + offset / 512 % g.clusterSectors := min_le_left _ _
  have index := Nat.mod_lt (offset / 512) sectors
  omega

section

variable (small : num < 2 ^ 31) (returned : qcow2GetClusterOffset g offset num s = (.ok run, after))

include small returned

/-- A returned run is read off the entries from that of the offset on. -/
theorem returned_run :
    run = clusterRunOut
      (runClusters g (g.sizeToClusters (nbNeeded g offset num * 512)) (reached g s offset) *
        g.clusterSectors)
      (nbNeeded g offset num) (offset / 512 % g.clusterSectors) (reached g s offset 0) := by
  rw [qcow2GetClusterOffset, get_bind] at returned
  split at returned
  · next noTable =>
    have missing : s.l1Table.getD (offset / 2 ^ (g.l2Bits + g.clusterBits) % 2 ^ 32) 0 = 0 := by
      rcases noTable with beyond | zero
      · rw [List.getD_eq_getElem?_getD, List.getElem?_eq_none beyond, Option.getD_none]
      · exact zero
    have zeros (k : Nat) : reached g s offset k = 0 := by
      rw [reached, l2Entry, if_pos missing]
    have all : nbNeeded g offset num ≤
        runClusters g (g.sizeToClusters (nbNeeded g offset num * 512)) (reached g s offset) *
          g.clusterSectors := by
      by_contra short
      have inside := (lt_sizeToClusters_iff g _ _).mpr (not_le.mp short)
      have free (k : Nat) : Uniform g (reached g s offset) k :=
        (uniform_of_zero (zeros 0)).mpr fun i _ => zeros i
      exact lt_irrefl _ ((lt_runClusters_iff (nbClusters_le small)).mpr ⟨inside, free _⟩)
    have answer : clusterRunOut _ (nbNeeded g offset num) (offset / 512 % g.clusterSectors) 0 =
        run := Outcome.ok.inj (Prod.mk.inj returned).1
    have cut : nbNeeded g offset num ≤ _ := min_le_right _ _
    rw [← answer, zeros, clusterRunOut, clusterRunOut, min_eq_right all, min_eq_right cut]
  · next table =>
    have present : s.l1Table.getD (offset / 2 ^ (g.l2Bits + g.clusterBits) % 2 ^ 32) 0 ≠ 0 :=
      fun zero => table (.inr zero)
    obtain ⟨i, middle, load, rest⟩ := bind_eq_ok.mp returned
    rw [get_bind] at rest
    obtain ⟨_, last, _, answer⟩ := bind_eq_ok.mp rest
    have content : reached g s offset = fun k =>
        be64ToCpu (middle.caches.l2TableCache.entries i).table
          (offset / g.clusterSize % g.l2Size + k) := by
      funext k
      rw [l2Load, onCaches] at load
      obtain ⟨caches, got, rfl⟩ := lift_eq_ok.mp load
      rw [reached, l2Entry, if_neg present, l2Content, got]
    rw [content]
    exact (Outcome.ok.inj (Prod.mk.inj answer).1).symm

theorem returned_clusterOffset : run.clusterOffset = masked (reached g s offset 0) := by
  rw [returned_run small returned]
  rfl

theorem lt_returned_num_iff (i : Nat) :
    (i : Int) < run.num ↔ i < num ∧ SameL1 g offset i ∧
      Uniform g (reached g s offset)
        ((offset / 512 % g.clusterSectors + i) / g.clusterSectors) := by
  have sectors := g.clusterSectors_pos
  have sectorsLe : g.clusterSectors ≤ 2 ^ 12 :=
    Nat.pow_le_pow_right (by decide) (Nat.sub_le_sub_right g.max_bits 9)
  have index := Nat.mod_lt (offset / 512) sectors
  have needed : nbNeeded g offset num ≤ num + offset / 512 % g.clusterSectors := min_le_left _ _
  have covered := lt_nbNeeded_iff g offset num i
  have counted (k : Nat) := @lt_runClusters_iff g (reached g s offset) _ k
    (@nbClusters_le g offset num small)
  rw [returned_run small returned]
  generalize reached g s offset = table at counted ⊢
  generalize runClusters g (g.sizeToClusters (nbNeeded g offset num * 512)) table = c
    at counted ⊢
  generalize offset / 512 % g.clusterSectors = start at index needed covered ⊢
  have plain : ((min (c * g.clusterSectors) (nbNeeded g offset num) : Nat) - (start : Int)).bmod
      (2 ^ 32) = (min (c * g.clusterSectors) (nbNeeded g offset num) : Nat) - (start : Int) :=
    Int.bmod_eq_of_le (by omega) (by omega)
  have within : start + i < c * g.clusterSectors ↔ (start + i) / g.clusterSectors < c :=
    (Nat.div_lt_iff_lt_mul sectors).symm
  have clusters := lt_sizeToClusters_iff g (nbNeeded g offset num) ((start + i) / g.clusterSectors)
  have floor := Nat.div_mul_le_self (start + i) g.clusterSectors
  rw [clusterRunOut, plain, ← and_assoc, ← covered]
  rw [counted] at within
  change (i : Int) < ((min (c * g.clusterSectors) (nbNeeded g offset num) : Nat) : Int) - start ↔ _
  generalize c * g.clusterSectors = total at within ⊢
  constructor
  · intro below
    exact ⟨by omega, (within.mp (by omega)).2⟩
  · rintro ⟨inside, uniform⟩
    have := within.mpr ⟨clusters.mpr (by omega), uniform⟩
    omega

end

end Returned

section Soundness

variable {g : Geometry} {s after : BDRVQcowState} {offset num : Nat} {run : ClusterRun}

theorem continues_of_covered {i : Nat} (inside : i < num) (same : SameL1 g offset i)
    (apart : ∀ k ≤ (offset / 512 % g.clusterSectors + i) / g.clusterSectors,
      (masked (reached g s offset k)).toNat =
        (masked (reached g s offset 0)).toNat + k * g.clusterSize) :
    Continues g s offset num ((offset / 512 % g.clusterSectors + i) / g.clusterSectors) := by
  have floor := Nat.div_mul_le_self (offset / 512 % g.clusterSectors + i) g.clusterSectors
  exact ⟨by omega, same.of_le (by omega), apart⟩

theorem sectorEntry_reached {i : Nat} (same : SameL1 g offset i)
    (near : offset / 2 ^ (g.l2Bits + g.clusterBits) < 2 ^ 32) :
    sectorEntry g s (offset / 512 + i) =
      reached g s offset ((offset / 512 % g.clusterSectors + i) / g.clusterSectors) := by
  rw [sectorEntry_same same, reached, Nat.mod_eq_of_lt near]

theorem sector_div (g : Geometry) (offset i : Nat) :
    (offset / 512 + i) / g.clusterSectors = offset / 512 / g.clusterSectors +
      (offset / 512 % g.clusterSectors + i) / g.clusterSectors := by
  have split := Nat.div_add_mod (offset / 512) g.clusterSectors
  rw [← Nat.mul_add_div g.clusterSectors_pos, ← add_assoc, split]

theorem first_cluster (g : Geometry) (offset : Nat) :
    (offset / 512 % g.clusterSectors + 0) / g.clusterSectors = 0 :=
  Nat.div_eq_of_lt (Nat.mod_lt _ g.clusterSectors_pos)

/-- A run over unallocated clusters is right wherever there is a sector left to return. -/
theorem sound_iff_of_zero (positive : 0 < num) (small : num < 2 ^ 31)
    (l1Size : s.l1Table.length < 2 ^ 31)
    (returned : qcow2GetClusterOffset g offset num s = (.ok run, after)) (bounded : run.num ≤ num)
    (zero : reached g s offset 0 = 0) : RunSound g s offset num run ↔ SameL1 g offset 0 := by
  have covers := lt_returned_num_iff small returned
  constructor
  · exact fun sound => ((covers 0).mp sound.positive).2.1
  · intro room
    have free : Uniform g (reached g s offset) 0 :=
      (uniform_of_zero zero).mpr fun i early => Nat.le_zero.mp early ▸ zero
    refine ⟨(covers 0).mpr ⟨positive, room, by rwa [first_cluster]⟩, bounded, .inl ⟨?_, ?_⟩⟩
    · rw [returned_clusterOffset small returned, zero, masked_zero]
    · intro i inside
      obtain ⟨_, same, uniform⟩ := (covers i).mp inside
      rcases lt_or_ge (offset / 2 ^ (g.l2Bits + g.clusterBits)) (2 ^ 32) with near | far
      · rw [sectorEntry_reached same near, (uniform_of_zero zero).mp uniform _ le_rfl, masked_zero]
      · rw [sectorEntry_same same, l2Entry_beyond l1Size far, masked_zero]

/-- What a sound run over allocated clusters says about the entries. -/
theorem RunSound.legible (small : num < 2 ^ 31) (l1Size : s.l1Table.length < 2 ^ 31)
    (returned : qcow2GetClusterOffset g offset num s = (.ok run, after))
    (nonzero : reached g s offset 0 ≠ 0) (sound : RunSound g s offset num run) :
    RunLegible g s offset num := by
  have sectors := g.clusterSectors_pos
  have covers := lt_returned_num_iff small returned
  obtain ⟨_, room, uniform⟩ := (covers 0).mp sound.positive
  have offsetNe : masked (reached g s offset 0) ≠ 0 := ((uniform_of_ne nonzero).mp uniform).1
  have start := returned_clusterOffset small returned
  have allocated : masked (sectorEntry g s (offset / 512 + 0)) ≠ 0 := by
    rcases sound.described with ⟨none, _⟩ | ⟨_, all⟩ | ⟨_, all⟩
    · exact absurd (start ▸ none) offsetNe
    · rw [(all 0 sound.positive).2, start]
      exact offsetNe
    · exact (all 0 sound.positive).2.1
  have near : offset / 2 ^ (g.l2Bits + g.clusterBits) < 2 ^ 32 := by
    by_contra far
    rw [sectorEntry_same room, l2Entry_beyond l1Size (not_lt.mp far)] at allocated
    exact allocated masked_zero
  refine ⟨room, .inr ⟨near, offsetNe, fun j later continues => ?_⟩⟩
  have index := Nat.mod_lt (offset / 512) sectors
  have whole : g.clusterSectors ≤ j * g.clusterSectors := Nat.le_mul_of_pos_left _ later
  have sum : offset / 512 % g.clusterSectors +
      (j * g.clusterSectors - offset / 512 % g.clusterSectors) = j * g.clusterSectors := by omega
  have cluster : (offset / 512 % g.clusterSectors +
      (j * g.clusterSectors - offset / 512 % g.clusterSectors)) / g.clusterSectors = j := by
    rw [sum, Nat.mul_div_cancel _ sectors]
  have asked := continues.asked
  have covered := (covers _).mpr ⟨by omega, continues.same, by
    rw [cluster]
    exact (uniform_of_ne nonzero).mpr ⟨offsetNe, continues.apart⟩⟩
  rcases sound.described with ⟨none, _⟩ | ⟨_, all⟩ | ⟨plain, all⟩
  · exact absurd (start ▸ none) offsetNe
  · have same := (all _ covered).1
    rw [sector_div, cluster] at same
    omega
  · have far := (all _ covered).1
    rw [sectorEntry_reached continues.same near, cluster] at far
    rw [start, compressed_masked] at plain
    exact ⟨plain, far⟩

/-- A run over allocated clusters whose entries are legible is described by them. -/
theorem RunLegible.sound (positive : 0 < num) (small : num < 2 ^ 31)
    (returned : qcow2GetClusterOffset g offset num s = (.ok run, after)) (bounded : run.num ≤ num)
    (nonzero : reached g s offset 0 ≠ 0) (legible : RunLegible g s offset num) : RunSound g s offset num run := by
  have covers := lt_returned_num_iff small returned
  obtain ⟨near, offsetNe, single⟩ := legible.entry.resolve_left nonzero
  have start := returned_clusterOffset small returned
  have apart {i : Nat} (inside : (i : Int) < run.num) := (uniform_of_ne nonzero).mp
    ((covers i).mp inside).2.2
  have continues {i : Nat} (inside : (i : Int) < run.num) :=
    continues_of_covered ((covers i).mp inside).1 ((covers i).mp inside).2.1 (apart inside).2
  have entry {i : Nat} (inside : (i : Int) < run.num) :=
    @sectorEntry_reached g s offset i ((covers i).mp inside).2.1 near
  have first : Uniform g (reached g s offset) 0 :=
    (uniform_of_ne nonzero).mpr ⟨offsetNe, fun i early => by simp [Nat.le_zero.mp early]⟩
  refine ⟨(covers 0).mpr ⟨positive, legible.room, by rwa [first_cluster]⟩, bounded, .inr ?_⟩
  rw [start, compressed_masked]
  by_cases compressed : Compressed (reached g s offset 0)
  · refine .inl ⟨compressed, fun i inside => ?_⟩
    have inFirst : (offset / 512 % g.clusterSectors + i) / g.clusterSectors = 0 := by
      by_contra later
      exact (single _ (pos_of_ne_zero later) (continues inside)).1 compressed
    exact ⟨by rw [sector_div, inFirst, add_zero], by rw [entry inside, inFirst]⟩
  · refine .inr ⟨compressed, fun i inside => ?_⟩
    have distance := (apart inside).2 _ le_rfl
    have position : (offset / 512 + i) % g.clusterSectors =
        (offset / 512 % g.clusterSectors + i) % g.clusterSectors := (Nat.mod_add_mod _ _ _).symm
    have split := Nat.div_add_mod (offset / 512 % g.clusterSectors + i) g.clusterSectors
    rw [entry inside, position]
    generalize (offset / 512 % g.clusterSectors + i) % g.clusterSectors = inCluster at split ⊢
    generalize cluster : (offset / 512 % g.clusterSectors + i) / g.clusterSectors = k
      at distance split ⊢
    have plain : ¬ Compressed (reached g s offset k) := by
      rcases eq_zero_or_pos k with rfl | later
      · exact compressed
      · exact (single k later (cluster ▸ continues inside)).2
    refine ⟨plain, fun none => ?_, ?_⟩
    · have nothing : (masked (reached g s offset k)).toNat = 0 := by
        rw [none]
        rfl
      exact offsetNe (BitVec.eq_of_toNat_eq (by
        rw [distance] at nothing
        exact (Nat.add_eq_zero_iff.mp nothing).1))
    · rw [distance, g.clusterSize_eq, ← split]
      ring

/-- The lookup is sound exactly for legible requests. -/
theorem qcow2GetClusterOffset_sound_iff (positive : 0 < num) (small : num < 2 ^ 31)
    (l1Size : s.l1Table.length < 2 ^ 31)
    (returned : qcow2GetClusterOffset g offset num s = (.ok run, after)) :
    RunSound g s offset num run ↔ RunLegible g s offset num := by
  have bounded : run.num ≤ num := by
    by_contra more
    have beyond : (num : Int) < run.num := not_le.mp more
    exact lt_irrefl num ((lt_returned_num_iff small returned num).mp beyond).1
  by_cases zero : reached g s offset 0 = 0
  · rw [sound_iff_of_zero positive small l1Size returned bounded zero]
    exact ⟨fun room => ⟨room, .inl zero⟩, fun legible => legible.room⟩
  · exact ⟨RunSound.legible small l1Size returned zero,
      RunLegible.sound positive small returned bounded zero⟩

/-- An image with one cached L2 table, whose first two entries have the given high byte and the
cluster offsets 0x400 and 0x600. -/
def pairImage (flags : UInt8) : BDRVQcowState where
  caches :=
    { file := ⟨fun _ => 0, [], [], false⟩
      l2TableCache :=
        { entries := fun _ =>
            { table := fun position =>
                if position = 0 ∨ position = 8 then flags
                else if position = 6 then 4 else if position = 14 then 6 else 0
              offset := 512, dirty := false, cacheHits := 0, ref := 0 }
          size := 1, depends := none, dependsOnFlush := false, writethrough := false }
      refcountBlockCache := qcow2CacheCreate 1 false fun _ _ => 0 }
  l1Table := [512]
  refcountTable := []
  refcountTableOffset := 0
  freeClusterIndex := 0

/-- Two plain clusters in a row are one run. -/
theorem plainPair_sound :
    (qcow2GetClusterOffset .smallest 0 2 (pairImage 0)).1 = .ok ⟨2, 0x400⟩ ∧
      RunSound .smallest (pairImage 0) 0 2 ⟨2, 0x400⟩ := by
  have run : (qcow2GetClusterOffset .smallest 0 2 (pairImage 0)).1 = .ok ⟨2, 0x400⟩ := by
    decide +kernel
  have plain : ∀ j < 2, ¬ Compressed (reached .smallest (pairImage 0) 0 j) := by
    decide +kernel
  have legible : RunLegible .smallest (pairImage 0) 0 2 := by
    refine ⟨by decide +kernel, .inr ⟨by decide +kernel, by decide +kernel, fun j _ inRun => ?_⟩⟩
    have few : j * 1 < 0 + 2 := inRun.asked
    exact ⟨plain 0 (by decide), plain j (by omega)⟩
  have returned : qcow2GetClusterOffset .smallest 0 2 (pairImage 0) =
      (.ok ⟨2, 0x400⟩, (qcow2GetClusterOffset .smallest 0 2 (pairImage 0)).2) :=
    Prod.ext run rfl
  have l1Size : (pairImage 0).l1Table.length < 2 ^ 31 := by decide
  exact ⟨run, (qcow2GetClusterOffset_sound_iff two_pos (by decide) l1Size returned).mpr legible⟩

/-- Two compressed clusters with raw entries a cluster apart are returned as one run. -/
theorem compressedPair_merged :
    (qcow2GetClusterOffset .smallest 0 2 (pairImage 0x40)).1 =
        .ok ⟨2, 0x4000000000000400⟩ ∧
      ¬ RunSound .smallest (pairImage 0x40) 0 2 ⟨2, 0x4000000000000400⟩ := by
  refine ⟨by decide +kernel, fun sound => ?_⟩
  rcases sound.described with ⟨none, _⟩ | ⟨_, all⟩ | ⟨plain, _⟩
  · exact absurd none (by decide)
  · exact absurd (all 1 (by decide)).1 (by decide)
  · exact plain (by decide)

end Soundness

end Qemu.Qcow2
