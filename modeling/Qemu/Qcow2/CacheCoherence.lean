import Qemu.Qcow2.CacheOrder

/-!
# Coherence of a table cache

A table cache stands for a map from table offsets to bytes.  `TableLog` is that map, kept by the
user: each byte is the file's, or the last one stored, or unknown after `qcow2_cache_get_empty` had
to make up a table.  Whatever is hit, replaced or flushed, the cache agrees with the log.
-/

namespace Qemu.Qcow2

open Block CacheState Prog Function List Nat
open Function (update)

variable {i : Nat} {after : CacheState} {cache : Qcow2Cache} {offset : Nat}

/-- A buffer has every byte that is known. -/
def Matches (count : Nat) (known : Nat → Option UInt8) (buffer : Buffer) : Prop :=
  ∀ position < count, ∀ value, known position = some value → buffer position = value

/-- What the user of a cache knows. -/
structure TableLog where
  /-- Bytes of the table at an offset. -/
  content : Nat → Nat → Option UInt8
  /-- Slots whose table was modified and not yet marked dirty. -/
  unmarked : Nat → Bool
  /-- Number of references taken so far. -/
  gets : Nat

/-- Before the first operation every table has the bytes of the file. -/
def TableLog.initial (file : BlockFile) : TableLog where
  content offset position := some (file.bytes (offset + position))
  unmarked _ := false
  gets := 0

/-- Operations on one cache. -/
inductive TableOp where
  | get (offset : Nat)
  | getEmpty (offset : Nat)
  | store (i position : Nat) (value : UInt8)
  | markDirty (i : Nat)
  | put (i : Nat)
  | flush
  | setWritethrough (enable : Bool)

/-- The operation as a call on cache `c`. -/
def TableOp.cacheOp (c : CacheId) : TableOp → CacheOp
  | .get offset => .get c offset
  | .getEmpty offset => .getEmpty c offset
  | .store i position value => .modify c i fun table => update table position value
  | .markDirty i => .markDirty c i
  | .put i => .put c i
  | .flush => .flush c
  | .setWritethrough enable => .setWritethrough c enable

/-- Number of tables to which references are held. -/
def Qcow2Cache.held (cache : Qcow2Cache) : Nat :=
  ((List.range cache.size).filter fun i => (cache.entries i).ref ≠ 0).length

/-- The rules for the user: tables are clusters other than the first, fewer tables are held than
there are slots when one is asked for, only held tables are modified, marked dirty or returned, and
a modified table is marked dirty before its last reference is returned. -/
def TableOp.Legal (g : Geometry) (cache : Qcow2Cache) (log : TableLog) : TableOp → Prop
  | .get offset | .getEmpty offset =>
    offset ≠ 0 ∧ g.clusterSize ∣ offset ∧ cache.held < cache.size ∧ log.gets + 33 < 2 ^ 31
  | .store i position _ => i < cache.size ∧ 0 < (cache.entries i).ref ∧ position < g.clusterSize
  | .markDirty i => i < cache.size ∧ 0 < (cache.entries i).ref
  | .put i => i < cache.size ∧ 0 < (cache.entries i).ref ∧
      ((cache.entries i).ref = 1 → log.unmarked i = false)
  | .flush | .setWritethrough _ => True

/-- What an operation changes in the log. -/
def TableLog.record (log : TableLog) (cache : Qcow2Cache) : TableOp → TableLog
  | .get _ => { log with gets := log.gets + 1 }
  | .getEmpty offset =>
    { log with
      gets := log.gets + 1
      content := if cache.lookup offset = none then
          update log.content offset fun _ => none
        else log.content }
  | .store i position value =>
    { log with
      content := update log.content (cache.entries i).offset
        (update (log.content (cache.entries i).offset) position (some value))
      unmarked := update log.unmarked i true }
  | .markDirty i => { log with unmarked := update log.unmarked i false }
  | .put _ | .flush | .setWritethrough _ => log

/-- What an operation does to the bytes of a held table. -/
def TableOp.change (i : Nat) (table : Buffer) : TableOp → Buffer
  | .store j position value => if i = j then update table position value else table
  | _ => table

/-- The cache, the file and the log agree. -/
structure Coherent (g : Geometry) (c : CacheId) (log : TableLog) (state : CacheState) : Prop where
  quiet : state.Quiet
  acyclic : state.Acyclic
  /-- The other cache has nothing to write. -/
  others : ∀ other, other ≠ c → ∀ i, ¬state.Unsaved other i
  /-- No two slots hold the same table. -/
  distinct : ∀ i < (state.cache c).size, ∀ j < (state.cache c).size,
    ((state.cache c).entries i).offset = ((state.cache c).entries j).offset →
      ((state.cache c).entries i).offset ≠ 0 → i = j
  aligned : ∀ i, g.clusterSize ∣ ((state.cache c).entries i).offset
  used : ∀ i, ((state.cache c).entries i).dirty = true ∨ 0 < ((state.cache c).entries i).ref →
    ((state.cache c).entries i).offset ≠ 0
  unmarked : ∀ i, log.unmarked i = true → 0 < ((state.cache c).entries i).ref
  cached : ∀ i < (state.cache c).size, ((state.cache c).entries i).offset ≠ 0 →
    Matches g.clusterSize (log.content ((state.cache c).entries i).offset)
      ((state.cache c).entries i).table
  /-- The file is up to date for every table that is not waiting to be written. -/
  filed : ∀ offset, offset ≠ 0 → g.clusterSize ∣ offset →
    (∀ i < (state.cache c).size, ((state.cache c).entries i).offset = offset →
      ((state.cache c).entries i).dirty = false ∧ log.unmarked i = false) →
    Matches g.clusterSize (log.content offset) (slice state.file.bytes offset)
  hits : ∀ i, 0 ≤ ((state.cache c).entries i).cacheHits ∧
    ((state.cache c).entries i).cacheHits ≤ 32 + log.gets

theorem aligned_disjoint {size first second : Nat} (left : size ∣ first) (right : size ∣ second)
    (distinct : first ≠ second) : first + size ≤ second ∨ second + size ≤ first := by
  by_contra overlap
  have below := le_of_lt_add_of_dvd (by omega : first < second + size) left right
  have above := le_of_lt_add_of_dvd (by omega : second < first + size) right left
  omega

theorem entries_updateEntry (cache : Qcow2Cache) (i : Nat)
    (update : Qcow2CachedTable → Qcow2CachedTable) (j : Nat) :
    (cache.updateEntry i update).entries j =
      if j = i then update (cache.entries i) else cache.entries j := by
  by_cases slot : j = i
  · subst slot
    simp
  · simp [slot, updateEntry_entries_of_ne slot]

section Coherence

variable {g : Geometry} {c : CacheId} {log : TableLog} {state : CacheState}

section

variable (coherent : Coherent g c log state)

include coherent

/-- Write-back leaves only the file's part of the agreement to be shown. -/
theorem Coherent.of_sameTables {after : CacheState}
    (same : SameTables state after)
    (filed : ∀ offset, offset ≠ 0 → g.clusterSize ∣ offset →
      (∀ i < (after.cache c).size, ((after.cache c).entries i).offset = offset →
        ((after.cache c).entries i).dirty = false ∧ log.unmarked i = false) →
      Matches g.clusterSize (log.content offset) (slice after.file.bytes offset)) :
    Coherent g c log after where
  quiet := same.quiet coherent.quiet
  acyclic := same.acyclic coherent.acyclic
  others other distinct i unsaved := coherent.others other distinct i (same.unsaved unsaved)
  distinct := by
    simp only [same.size, same.offset]
    exact coherent.distinct
  aligned := by
    simp only [same.offset]
    exact coherent.aligned
  used i := by
    simp only [same.offset, same.ref]
    exact fun used => coherent.used i (used.imp_left (same.dirty c i))
  unmarked := by
    simp only [same.ref]
    exact coherent.unmarked
  cached := by
    simp only [same.size, same.offset, same.table]
    exact coherent.cached
  filed := filed
  hits := by
    simp only [same.cacheHits]
    exact coherent.hits

theorem Coherent.of_sameEntries (same : SameTables state after)
    (entries : (after.cache c).entries = (state.cache c).entries)
    (bytes : after.file.bytes = state.file.bytes) : Coherent g c log after := by
  refine coherent.of_sameTables same ?_
  rw [same.size, entries, bytes]
  exact coherent.filed

theorem Coherent.writeBack (bound : i < (state.cache c).size) (unsaved : state.Unsaved c i) :
    Coherent g c log (state.writeBack g c i) := by
  have same := sameTables_writeBack g state c i
  refine coherent.of_sameTables same ?_
  intro offset nonzero aligned settled position inside value known
  have bytes : (state.writeBack g c i).file.bytes =
      overwrite state.file.bytes ((state.cache c).entries i).offset g.clusterSize
        ((state.cache c).entries i).table := by
    simp [CacheState.writeBack, BlockFile.written]
  rw [bytes]
  by_cases written : ((state.cache c).entries i).offset = offset
  · subst written
    rw [slice, overwrite_inside (by omega) (by omega), Nat.add_sub_cancel_left]
    exact coherent.cached i bound unsaved.2 position inside value known
  · have disjoint := aligned_disjoint (coherent.aligned i) aligned written
    rw [slice, overwrite_outside (by omega)]
    refine coherent.filed offset nonzero aligned ?_ position inside value known
    intro j inRange holds
    have other : ¬(c = c ∧ j = i) := fun equal => written (equal.2 ▸ holds)
    have entry : ((state.writeBack g c i).cache c).entries j = (state.cache c).entries j := by
      rw [writeBack_entries, if_neg other]
    rw [same.size] at settled
    simpa [entry] using settled j inRange (by rw [entry]; exact holds)

theorem Coherent.settle (step : Settle g state after) : Coherent g c log after := by
  have same := step.sameTables
  cases step with
  | @writeBack other i bound unsaved =>
    obtain rfl : other = c := by
      by_contra distinct
      exact coherent.others other distinct i unsaved
    exact coherent.writeBack bound unsaved
  | barrier => exact coherent.of_sameEntries same (by simp [barrier]) rfl
  | @clearFlush other =>
    refine coherent.of_sameEntries same ?_ (by simp [clearFlush, barrier, BlockFile.flushed])
    rw [clearFlush, cache_updateCache, barrier, cache_withFile]
    split <;> rfl
  | @clearDependency other =>
    refine coherent.of_sameEntries same ?_ (by simp [clearDependency, barrier, BlockFile.flushed])
    rw [clearDependency, cache_updateCache, barrier, cache_withFile]
    split <;> rfl

theorem Coherent.settles (steps : Settles g state after) : Coherent g c log after := by
  induction steps with
  | refl => exact coherent
  | tail _ step ih => exact ih.settle step

end

section

variable (coherent : Coherent g c log state)

include coherent

theorem Coherent.updateSlot {next : TableLog} {update : Qcow2CachedTable → Qcow2CachedTable}
    {entry : Qcow2CachedTable} (updated : update ((state.cache c).entries i) = entry)
    (fresh : ∀ j < (state.cache c).size, j ≠ i → ((state.cache c).entries j).offset = entry.offset → entry.offset = 0)
    (aligned : g.clusterSize ∣ entry.offset)
    (used : entry.dirty = true ∨ 0 < entry.ref → entry.offset ≠ 0)
    (unmarked : next.unmarked i = true → 0 < entry.ref)
    (unmarkedOthers : ∀ j, j ≠ i → next.unmarked j = log.unmarked j)
    (cached : i < (state.cache c).size → entry.offset ≠ 0 → Matches g.clusterSize (next.content entry.offset) entry.table)
    (content : ∀ offset, offset ≠ entry.offset → next.content offset = log.content offset)
    (filed : entry.offset ≠ 0 → (i < (state.cache c).size → entry.dirty = false ∧ next.unmarked i = false) → Matches g.clusterSize (next.content entry.offset) (slice state.file.bytes entry.offset))
    (released : ((state.cache c).entries i).offset ≠ entry.offset → ((state.cache c).entries i).dirty = false ∧ log.unmarked i = false)
    (hits : 0 ≤ entry.cacheHits ∧ entry.cacheHits ≤ 32 + next.gets) (gets : log.gets ≤ next.gets) :
    Coherent g c next (state.updateEntry c i update) := by
  have slots := entries_updateEntry (state.cache c) i update
  rw [updated] at slots
  have others : ∀ j < (state.cache c).size, j ≠ i → entry.offset ≠ 0 →
      ((state.cache c).entries j).offset ≠ entry.offset :=
    fun j bound slot nonzero same => nonzero (fresh j bound slot same)
  constructor
  case quiet =>
    rw [Quiet, file_updateEntry]
    exact coherent.quiet
  case acyclic =>
    have depends : ∀ other, ((state.updateEntry c i update).cache other).depends =
        (state.cache other).depends := by
      intro other
      by_cases same : other = c
      · subst same
        simp
      · rw [cache_updateEntry_of_ne _ _ _ same]
    intro first second edge
    rw [depends] at edge ⊢
    exact coherent.acyclic first second edge
  case others =>
    intro other distinct j
    rw [Unsaved, cache_updateEntry_of_ne _ _ _ distinct]
    exact coherent.others other distinct j
  all_goals rw [cache_updateEntry_self]
  case distinct =>
    intro first firstBound second secondBound
    rw [slots, slots]
    split <;> split
    · rename_i left right
      exact fun _ _ => left.trans right.symm
    · rename_i left right
      intro same nonzero
      exact absurd same.symm (others second secondBound right nonzero)
    · rename_i left right
      intro same nonzero
      exact absurd same (others first firstBound left (same ▸ nonzero))
    · exact coherent.distinct first firstBound second secondBound
  case aligned =>
    intro j
    rw [slots]
    split
    · exact aligned
    · exact coherent.aligned j
  case used =>
    intro j
    rw [slots]
    split
    · exact used
    · exact coherent.used j
  case unmarked =>
    intro j
    rw [slots]
    split
    · rename_i slot
      exact slot ▸ unmarked
    · rename_i slot
      rw [unmarkedOthers j slot]
      exact coherent.unmarked j
  case cached =>
    intro j bound
    rw [slots]
    split
    · rename_i slot
      exact cached (slot ▸ bound)
    · rename_i slot
      intro nonzero
      rw [content _ fun same => nonzero (same.trans (fresh j bound slot same))]
      exact coherent.cached j bound nonzero
  case filed =>
    intro target nonzero targetAligned settled
    rw [file_updateEntry]
    by_cases same : target = entry.offset
    · subst same
      refine filed nonzero fun bound => ?_
      simpa [updated] using settled i bound (by rw [slots, if_pos rfl])
    · rw [content target same]
      refine coherent.filed target nonzero targetAligned fun j bound holds => ?_
      by_cases slot : j = i
      · subst slot
        exact released fun equal => same (holds.symm.trans equal)
      · have clean := settled j bound (by rw [slots, if_neg slot]; exact holds)
        rwa [slots, if_neg slot, unmarkedOthers j slot] at clean
  case hits =>
    intro j
    rw [slots]
    split
    · exact hits
    · obtain ⟨lower, upper⟩ := coherent.hits j
      exact ⟨lower, by omega⟩

section

variable (bound : i < (state.cache c).size)

include bound

theorem Coherent.fresh {j : Nat} (inside : j < (state.cache c).size) (slot : j ≠ i)
    (same : ((state.cache c).entries j).offset = ((state.cache c).entries i).offset) :
    ((state.cache c).entries i).offset = 0 := by
  by_contra nonzero
  exact slot (coherent.distinct i bound j inside same.symm nonzero).symm

theorem Coherent.filed_slot (nonzero : ((state.cache c).entries i).offset ≠ 0)
    (clean : ((state.cache c).entries i).dirty = false ∧ log.unmarked i = false) :
    Matches g.clusterSize (log.content ((state.cache c).entries i).offset)
      (slice state.file.bytes ((state.cache c).entries i).offset) := by
  refine coherent.filed _ nonzero (coherent.aligned i) fun j inside same => ?_
  rwa [← coherent.distinct i bound j inside same.symm nonzero]

theorem Coherent.recount {gets : Nat} (hits : Int → Int) (ref : Nat → Nat) (later : log.gets ≤ gets)
    (counted : 0 ≤ hits ((state.cache c).entries i).cacheHits ∧ hits ((state.cache c).entries i).cacheHits ≤ 32 + gets)
    (named : ((state.cache c).entries i).offset ≠ 0)
    (marked : log.unmarked i = true → 0 < ref ((state.cache c).entries i).ref) :
    Coherent g c { log with gets } (state.updateEntry c i fun entry =>
      { entry with cacheHits := hits entry.cacheHits, ref := ref entry.ref }) := by
  refine coherent.updateSlot rfl ?_ ?_ ?_ ?_ ?_ ?_ ?_ ?_ ?_ counted later
  · exact fun j inside slot same => coherent.fresh bound inside slot same
  · exact coherent.aligned i
  · exact fun _ => named
  · exact marked
  · exact fun _ _ => rfl
  · exact coherent.cached i
  · exact fun _ _ => rfl
  · exact fun nonzero clean => coherent.filed_slot bound nonzero (clean bound)
  · exact fun moved => absurd rfl moved

theorem Coherent.markDirty (held : 0 < ((state.cache c).entries i).ref) :
    Coherent g c { log with unmarked := update log.unmarked i false }
      (state.updateEntry c i fun entry => { entry with dirty := true }) := by
  refine coherent.updateSlot rfl ?_ ?_ ?_ ?_ ?_ ?_ ?_ ?_ ?_ (coherent.hits i) (Nat.le_refl _)
  · exact fun j inside slot same => coherent.fresh bound inside slot same
  · exact coherent.aligned i
  · exact fun _ => coherent.used i (.inr held)
  · simp
  · exact fun j slot => update_of_ne slot _ _
  · exact coherent.cached i
  · exact fun _ _ => rfl
  · intro _ clean
    cases (clean bound).1
  · exact fun moved => absurd rfl moved

theorem Coherent.store
    (held : 0 < ((state.cache c).entries i).ref) (position : Nat) (value : UInt8) :
    Coherent g c (log.record (state.cache c) (.store i position value))
      (state.updateEntry c i fun entry =>
        { entry with table := update entry.table position value }) := by
  refine coherent.updateSlot rfl ?_ ?_ ?_ ?_ ?_ ?_ ?_ ?_ ?_ (coherent.hits i) (Nat.le_refl _)
  · exact fun j inside slot same => coherent.fresh bound inside slot same
  · exact coherent.aligned i
  · exact fun _ => coherent.used i (.inr held)
  · exact fun _ => held
  · exact fun j slot => update_of_ne slot _ _
  · intro _ nonzero at_position inside byte known
    by_cases same : at_position = position
    · subst same
      simpa [TableLog.record] using known
    · simp only [TableLog.record, update_self, update_of_ne same] at known ⊢
      exact coherent.cached i bound nonzero at_position inside byte known
  · exact fun offset other => update_of_ne other _ _
  · intro _ clean
    simpa [TableLog.record] using (clean bound).2
  · exact fun moved => absurd rfl moved

end

/-- A free slot takes the table of an offset that no slot holds. -/
theorem Coherent.refilled (unreferenced : ((state.cache c).entries i).ref = 0)
    (saved : ¬state.Unsaved c i) (nonzero : offset ≠ 0) (aligned : g.clusterSize ∣ offset)
    (absent : ∀ j < (state.cache c).size, ((state.cache c).entries j).offset ≠ offset)
    (readFromDisk : Bool) :
    Coherent g c
      { log with
        gets := log.gets + 1
        content := if readFromDisk then log.content
          else update log.content offset fun _ => none }
      (state.refilled c i offset readFromDisk) := by
  have clean : ((state.cache c).entries i).dirty = false := by
    cases dirty : ((state.cache c).entries i).dirty with
    | false => rfl
    | true => exact absurd ⟨dirty, coherent.used i (.inl dirty)⟩ saved
  have marked : log.unmarked i = false := by
    cases waiting : log.unmarked i with
    | false => rfl
    | true => simpa [unreferenced] using coherent.unmarked i waiting
  have onDisk : Matches g.clusterSize (log.content offset) (slice state.file.bytes offset) :=
    coherent.filed offset nonzero aligned fun j bound holds => absurd holds (absent j bound)
  have unknown : ∀ buffer, Matches g.clusterSize
      (update log.content offset (fun _ => none) offset) buffer := by
    intro buffer position _ value known
    simp at known
  refine coherent.updateSlot rfl ?_ aligned ?_ ?_ ?_ ?_ ?_ ?_ ?_ ?_ (le_succ _)
  · exact fun j inside _ same => absurd same (absent j inside)
  · exact fun _ => nonzero
  · exact fun _ => succ_pos _
  · exact fun _ _ => rfl
  · intro _ _
    cases readFromDisk with
    | false => exact unknown _
    | true => exact onDisk
  · intro other distinct
    cases readFromDisk with
    | false => exact update_of_ne distinct _ _
    | true => rfl
  · intro _ _
    cases readFromDisk with
    | false => exact unknown _
    | true => exact onDisk
  · exact fun _ => ⟨clean, marked⟩
  · dsimp only
    omega

end

def HitsWithin (bound : Int) (cache : Qcow2Cache) : Prop :=
  ∀ i, 0 ≤ (cache.entries i).cacheHits ∧ (cache.entries i).cacheHits ≤ bound

theorem visit_hits {bound : Int} (scan : ReplacementScan) (i : Nat)
    (hits : HitsWithin bound scan.cache) : HitsWithin bound (scan.visit i).cache := by
  have halved : HitsWithin bound (scan.cache.updateEntry i fun entry =>
      { entry with cacheHits := entry.cacheHits.tdiv 2 }) := by
    intro j
    rw [entries_updateEntry]
    split
    · obtain ⟨lower, upper⟩ := hits i
      have quotient : (scan.cache.entries i).cacheHits.tdiv 2 =
          (scan.cache.entries i).cacheHits / 2 := Int.tdiv_eq_ediv_of_nonneg lower
      dsimp only
      omega
    · exact hits j
  rw [ReplacementScan.visit]
  split
  · exact hits
  · split <;> exact halved

theorem foldl_visit_hits {bound : Int} (indices : List Nat) (scan : ReplacementScan)
    (hits : HitsWithin bound scan.cache) :
    HitsWithin bound (indices.foldl ReplacementScan.visit scan).cache := by
  induction indices generalizing scan with
  | nil => exact hits
  | cons i rest ih => exact ih (scan.visit i) (visit_hits scan i hits)

/-- A cache whose slots hold the same tables may take the place of the cache. -/
theorem Coherent.setCache (coherent : Coherent g c log state)
    (keeps : Keeps state (state.setCache c cache)) (size : cache.size = (state.cache c).size)
    (same : ∀ i, { cache.entries i with cacheHits := 0 } =
      { (state.cache c).entries i with cacheHits := 0 })
    (hits : HitsWithin (32 + log.gets) cache) : Coherent g c log (state.setCache c cache) := by
  simp only [Qcow2CachedTable.mk.injEq, true_and] at same
  constructor
  case quiet => exact keeps.quiet coherent.quiet
  case acyclic => exact keeps.acyclic coherent.acyclic
  case others =>
    intro other distinct i
    rw [Unsaved, cache_setCache_of_ne _ _ distinct]
    exact coherent.others other distinct i
  all_goals rw [cache_setCache_self]
  case hits => exact hits
  all_goals simp only [file_setCache, size, same]
  case distinct => exact coherent.distinct
  case aligned => exact coherent.aligned
  case used => exact coherent.used
  case unmarked => exact coherent.unmarked
  case cached => exact coherent.cached
  case filed => exact coherent.filed

theorem Coherent.scanned (coherent : Coherent g c log state) :
    Coherent g c log (state.scanned c) := by
  have same := findEntryToReplace_sameButHits (state.cache c)
  refine coherent.setCache keeps_scanned same.size ?_ (foldl_visit_hits _ _ coherent.hits)
  simp only [same.offset, same.dirty, same.ref, same.table, implies_true]

/-- A cache with fewer held tables than slots has a slot to spare. -/
theorem exists_unreferenced (spare : cache.held < cache.size) :
    ∃ i < cache.size, (cache.entries i).ref = 0 := by
  by_contra none
  push Not at none
  have all : (range cache.size).filter fun i => (cache.entries i).ref ≠ 0 =
      range cache.size := by
    refine filter_eq_self.mpr fun i inside => ?_
    simpa using none i (mem_range.mp inside)
  rw [Qcow2Cache.held, all, length_range] at spare
  omega

theorem incrementInt_eq {value : Int} (lower : 0 ≤ value) (upper : value + 1 < 2 ^ 31) :
    incrementInt value = value + 1 := by
  rw [incrementInt, Int.bmod_eq_of_le] <;> omega

theorem updateEntry_untouched {update : Qcow2CachedTable → Qcow2CachedTable}
    (kept : (update ((state.cache c).entries i)).offset = ((state.cache c).entries i).offset ∧
      (update ((state.cache c).entries i)).table = ((state.cache c).entries i).table) (j : Nat) :
    (((state.updateEntry c i update).cache c).entries j).offset =
        ((state.cache c).entries j).offset ∧
      (((state.updateEntry c i update).cache c).entries j).table =
        ((state.cache c).entries j).table := by
  rw [cache_updateEntry_self, entries_updateEntry]
  split
  · rename_i slot
    rwa [slot]
  · exact ⟨rfl, rfl⟩

section

variable (coherent : Coherent g c log state)

include coherent

/-- What `qcow2_cache_do_get` hands out and what it leaves alone. -/
theorem Coherent.doGet (nonzero : offset ≠ 0)
    (aligned : g.clusterSize ∣ offset) (spare : (state.cache c).held < (state.cache c).size)
    (few : log.gets + 33 < 2 ^ 31) (readFromDisk : Bool) :
    ∃ i after, qcow2CacheDoGet g c offset readFromDisk state = (.ok i, after) ∧
      Coherent g c
        { log with
          gets := log.gets + 1
          content := if readFromDisk = true ∨ (state.cache c).lookup offset ≠ none then log.content
            else update log.content offset fun _ => none } after ∧
      (after.cache c).size = (state.cache c).size ∧
      i < (after.cache c).size ∧ ((after.cache c).entries i).offset = offset ∧
      (∀ j, 0 < ((state.cache c).entries j).ref →
        ((after.cache c).entries j).offset = ((state.cache c).entries j).offset ∧
        ((after.cache c).entries j).table = ((state.cache c).entries j).table) := by
  rcases qcow2CacheDoGet_cases g coherent.quiet coherent.acyclic offset readFromDisk (c := c) with
    ⟨i, found, run⟩ | ⟨i, missing, bound, unreferenced, run⟩ | ⟨missing, exhausted, -⟩
  · have bound := mem_range.mp (mem_of_find?_eq_some found)
    have holds : ((state.cache c).entries i).offset = offset := by simpa using find?_some found
    obtain ⟨lower, upper⟩ := coherent.hits i
    have increased := incrementInt_eq lower (by omega)
    have counted := coherent.recount bound incrementInt (· + 1) (le_succ log.gets)
      (by omega) (by rwa [holds]) fun _ => succ_pos _
    rw [taken] at run
    refine ⟨i, _, run, ?_, ?_, ?_, ?_, ?_⟩
    · simpa [found] using counted
    · simp
    · simpa using bound
    · simpa using holds
    · exact fun j _ => updateEntry_untouched ⟨rfl, rfl⟩ j
  · have hits := findEntryToReplace_sameButHits (state.cache c)
    have scanned := coherent.scanned
    have scannedSize : ((state.scanned c).cache c).size = (state.cache c).size :=
      keeps_scanned.size c
    have steps := settles_entryFlush g scanned.acyclic (c := c) (i := i) (by rwa [scannedSize])
    have same := steps.sameTables
    have entry : ∀ j, ((((state.scanned c).entryFlush g c i).cache c).entries j).offset =
        ((state.cache c).entries j).offset ∧
        ((((state.scanned c).entryFlush g c i).cache c).entries j).table =
          ((state.cache c).entries j).table ∧
        ((((state.scanned c).entryFlush g c i).cache c).entries j).ref =
          ((state.cache c).entries j).ref := by
      intro j
      rw [same.offset, same.table, same.ref, CacheState.scanned, cache_setCache_self]
      exact ⟨hits.offset j, hits.table j, hits.ref j⟩
    have size := (same.size c).trans scannedSize
    have refilled := (scanned.settles steps).refilled ((entry i).2.2.trans unreferenced)
      (entryFlush_saved g _ i) nonzero aligned (by
        rw [size]
        intro j inside
        rw [(entry j).1]
        simpa using find?_eq_none.mp missing j (mem_range.mpr inside)) readFromDisk
    refine ⟨i, _, run, ?_, ?_, ?_, ?_, ?_⟩
    · simpa [missing] using refilled
    · simpa [CacheState.refilled] using size
    · simpa [CacheState.refilled, size] using bound
    · simp [CacheState.refilled]
    · intro j held
      have slot : j ≠ i := by
        rintro rfl
        omega
      rw [CacheState.refilled, cache_updateEntry_self, updateEntry_entries_of_ne slot]
      exact ⟨(entry j).1, (entry j).2.1⟩
  · obtain ⟨i, bound, unreferenced⟩ := exists_unreferenced spare
    obtain ⟨-, upper⟩ := coherent.hits i
    have below : ((state.cache c).entries i).cacheHits < intMax := by rw [intMax]; omega
    have found : (qcow2CacheFindEntryToReplace (state.cache c)).minIndex.isSome :=
      foldl_visit_finds _ nodup_range _ rfl rfl (mem_range.mpr bound) unreferenced below
    simp [exhausted] at found

theorem Coherent.setWritethrough (enable : Bool) :
    Coherent g c log (state.updateCache c fun cache => { cache with writethrough := enable }) := by
  exact coherent.setCache (keeps_setWritethrough enable) rfl (fun _ => rfl) coherent.hits

/-- One legal operation returns, keeps the agreement and leaves held tables in place. -/
theorem Coherent.call (op : TableOp)
    (legal : op.Legal g (state.cache c) log) :
    ∃ after, (op.cacheOp c).call g state = (.ok (), after) ∧
      Coherent g c (log.record (state.cache c) op) after ∧
      (after.cache c).size = (state.cache c).size ∧
      ∀ i, 0 < ((state.cache c).entries i).ref →
        ((after.cache c).entries i).offset = ((state.cache c).entries i).offset ∧
        ((after.cache c).entries i).table = op.change i ((state.cache c).entries i).table := by
  have untouched : ∀ {after : CacheState}, SameTables state after → ∀ i,
      ((after.cache c).entries i).offset = ((state.cache c).entries i).offset ∧
        ((after.cache c).entries i).table = ((state.cache c).entries i).table :=
    fun same i => ⟨same.offset c i, same.table c i⟩
  cases op with
  | get offset =>
    obtain ⟨nonzero, aligned, spare, few⟩ := legal
    obtain ⟨i, after, run, next, size, -, -, held⟩ :=
      coherent.doGet nonzero aligned spare few true
    refine ⟨after, ?_, by simpa [TableLog.record] using next, size, held⟩
    exact bind_of_ok run
  | getEmpty offset =>
    obtain ⟨nonzero, aligned, spare, few⟩ := legal
    obtain ⟨i, after, run, next, size, -, -, held⟩ :=
      coherent.doGet nonzero aligned spare few false
    refine ⟨after, bind_of_ok run, ?_, size, held⟩
    cases found : (state.cache c).lookup offset <;> simpa [TableLog.record, found] using next
  | store i position value =>
    obtain ⟨bound, held, -⟩ := legal
    refine ⟨_, rfl, coherent.store bound held position value, by simp, ?_⟩
    intro j _
    rw [cache_updateEntry_self, entries_updateEntry, TableOp.change]
    split
    · rename_i slot
      exact ⟨by rw [slot], by rw [slot]⟩
    · exact ⟨rfl, rfl⟩
  | markDirty i =>
    obtain ⟨bound, held⟩ := legal
    refine ⟨_, ?_, coherent.markDirty bound held, by simp, ?_⟩
    · rw [TableOp.cacheOp, CacheOp.call, qcow2CacheEntryMarkDirty, get_bind,
        if_neg (by omega)]
      rfl
    · exact fun j _ => updateEntry_untouched ⟨rfl, rfl⟩ j
  | put i =>
    obtain ⟨bound, held, marked⟩ := legal
    have returned := coherent.recount bound id (· - 1) (Nat.le_refl log.gets) (coherent.hits i)
      (coherent.used i (.inr held)) fun waiting => by
        have several : ((state.cache c).entries i).ref ≠ 1 := fun last => by
          simp [marked last] at waiting
        omega
    rcases qcow2CachePut_cases g coherent.quiet coherent.acyclic i (c := c) with
      ⟨outside, -⟩ | ⟨-, unreferenced, -⟩ | ⟨-, -, run⟩
    · omega
    · omega
    · rw [CacheState.returned] at run
      refine ⟨_, run, ?_⟩
      split
      · have steps := settles_entryFlush g returned.acyclic (c := c) (i := i) (by simpa using bound)
        have same := steps.sameTables
        refine ⟨returned.settles steps, (same.size c).trans (by simp), fun j _ => ?_⟩
        exact ⟨(same.offset c j).trans (updateEntry_untouched ⟨rfl, rfl⟩ j).1,
          (same.table c j).trans (updateEntry_untouched ⟨rfl, rfl⟩ j).2⟩
      · exact ⟨returned, by simp, fun j _ => updateEntry_untouched ⟨rfl, rfl⟩ j⟩
  | flush =>
    have steps := settles_flush g coherent.acyclic (c := c)
    refine ⟨_, qcow2CacheFlush_ok g coherent.quiet coherent.acyclic, coherent.settles steps,
      steps.sameTables.size c, fun i _ => untouched steps.sameTables i⟩
  | setWritethrough enable =>
    obtain ⟨middle, run, steps⟩ :=
      qcow2CacheSetWritethrough_steps g coherent.quiet coherent.acyclic enable (c := c)
    have settled := coherent.settles steps
    have same := steps.sameTables
    refine ⟨_, bind_of_ok run, ?_, ?_, ?_⟩
    · exact settled.setWritethrough enable
    · simpa using same.size c
    · intro i _
      simpa [TableOp.change] using untouched same i

end

end Coherence

def TableOp.step (g : Geometry) (c : CacheId) (op : TableOp) (pair : CacheState × TableLog) :
    Option (CacheState × TableLog) :=
  match (op.cacheOp c).call g pair.1 with
  | (.ok _, after) => some (after, pair.2.record (pair.1.cache c) op)
  | _ => none

/-- A sequence of operations, all of which have to succeed. -/
def runTableOps (g : Geometry) (c : CacheId) :
    List TableOp → CacheState × TableLog → Option (CacheState × TableLog)
  | [], pair => some pair
  | op :: rest, pair => op.step g c pair >>= runTableOps g c rest

/-- A sequence in which every operation keeps to the rules. -/
def LegalRun (g : Geometry) (c : CacheId) : List TableOp → CacheState × TableLog → Prop
  | [], _ => True
  | op :: rest, pair => op.Legal g (pair.1.cache c) pair.2 ∧
      ∀ next ∈ op.step g c pair, LegalRun g c rest next

theorem runTableOps_coherent {g : Geometry} {c : CacheId} (ops : List TableOp)
    {pair : CacheState × TableLog} (coherent : Coherent g c pair.2 pair.1)
    (legal : LegalRun g c ops pair) :
    ∃ reached, runTableOps g c ops pair = some reached ∧ Coherent g c reached.2 reached.1 := by
  induction ops generalizing pair with
  | nil => exact ⟨pair, rfl, coherent⟩
  | cons op rest ih =>
    obtain ⟨first, later⟩ := legal
    obtain ⟨after, run, next, -⟩ := coherent.call op first
    have step : op.step g c pair = some (after, pair.2.record (pair.1.cache c) op) := by
      rw [TableOp.step, run]
    obtain ⟨reached, finished, agreed⟩ := ih next (later _ step)
    exact ⟨reached, by rw [runTableOps, step]; exact finished, agreed⟩

section Exhausted

variable {g : Geometry} {state : CacheState} {count : Nat}

/-- Two slots, of which the first is held and the second was hit `count` times after it was
filled. -/
structure HitOften (count : Nat) (state : CacheState) : Prop where
  quiet : state.Quiet
  acyclic : state.Acyclic
  size : state.l2TableCache.size = 2
  writethrough : state.l2TableCache.writethrough = false
  heldOffset : (state.l2TableCache.entries 0).offset = 512
  heldRef : (state.l2TableCache.entries 0).ref = 1
  offset : (state.l2TableCache.entries 1).offset = 1024
  ref : (state.l2TableCache.entries 1).ref = 0
  hits : (state.l2TableCache.entries 1).cacheHits = 33 + count

/-- Looking up the second table and returning it adds one hit. -/
theorem HitOften.again (often : HitOften count state) (below : count + 34 < 2 ^ 31) :
    ∃ after, runCacheOps g [.get .l2Table 1024, .put .l2Table 1] state = some after ∧
      HitOften (count + 1) after := by
  have found : (state.cache .l2Table).lookup 1024 = some 1 := by
    simp [Qcow2Cache.lookup, cache, often.size, range_succ, often.heldOffset, often.offset]
  have got : qcow2CacheGet g .l2Table 1024 state = (.ok 1, state.taken .l2Table 1) := by
    rw [qcow2CacheGet, qcow2CacheDoGet, get_bind, found]
    exact takeReference_ok 1
  have taken : Keeps state (state.taken .l2Table 1) := keeps_taken 1
  have called : (CacheOp.get .l2Table 1024).call g state = (.ok (), state.taken .l2Table 1) :=
    bind_of_ok got
  rcases qcow2CachePut_cases g (taken.quiet often.quiet) (taken.acyclic often.acyclic) 1
      (c := .l2Table) with ⟨outside, -⟩ | ⟨-, unreferenced, -⟩ | ⟨-, -, put⟩
  · have size : ((state.taken .l2Table 1).cache .l2Table).size = 2 :=
      (taken.size .l2Table).trans often.size
    omega
  · simp [CacheState.taken] at unreferenced
  · have mode : ((state.taken .l2Table 1).cache .l2Table).writethrough = false := by
      exact often.writethrough
    rw [mode, if_neg Bool.false_ne_true] at put
    refine ⟨_, by rw [runCacheOps, called]; dsimp only; rw [runCacheOps, CacheOp.call, put]; rfl, ?_⟩
    have back := @keeps_returned .l2Table (state.taken .l2Table 1) 1
    have increased : incrementInt (33 + count) = 33 + (count + 1 : Nat) := by
      rw [incrementInt_eq (by omega) (by omega)]
      omega
    exact { often with
      acyclic := back.acyclic (taken.acyclic often.acyclic)
      hits := (congrArg incrementInt often.hits).trans increased }

theorem HitOften.repeat (often : HitOften 0 state) (count : Nat) (below : count + 33 < 2 ^ 31) :
    ∃ after, runCacheOps g (replicate count
        [CacheOp.get .l2Table 1024, .put .l2Table 1]).flatten state = some after ∧
      HitOften count after := by
  induction count with
  | zero => exact ⟨state, rfl, often⟩
  | succ count ih =>
    obtain ⟨middle, run, hit⟩ := ih (by omega)
    obtain ⟨after, once, next⟩ := hit.again (g := g) (by omega)
    refine ⟨after, ?_, next⟩
    rw [replicate_succ', flatten_append, runCacheOps_append, run]
    simpa using once

/-- A table whose counter stands at `INT_MAX` is not found by the search for a slot. -/
theorem HitOften.exhausted (often : HitOften (2 ^ 31 - 34) state) :
    (qcow2CacheGet g .l2Table 1536 state).1 = .abort := by
  have missing : (state.cache .l2Table).lookup 1536 = none := by
    simp [Qcow2Cache.lookup, cache, often.size, range_succ, often.heldOffset, often.offset]
  have none : (qcow2CacheFindEntryToReplace (state.cache .l2Table)).minIndex = none := by
    simp [qcow2CacheFindEntryToReplace, cache, often.size, range_succ,
      ReplacementScan.visit, often.heldRef, often.ref, often.hits, intMax]
  rw [qcow2CacheGet, qcow2CacheDoGet, get_bind, missing]
  dsimp only
  rw [none]
  rfl

end Exhausted

section Created

variable (file : BlockFile) (l2Size refcountSize : Nat) (writethrough : Bool)
  (l2Buffers refcountBuffers : Nat → Buffer)

theorem coherent_createdCaches (g : Geometry) (c : CacheId) (quiet : file.faults = []) :
    Coherent g c (.initial file)
      (createdCaches file l2Size refcountSize writethrough l2Buffers refcountBuffers) where
  quiet := quiet
  acyclic := acyclic_createdCaches file l2Size refcountSize writethrough l2Buffers refcountBuffers
  others other _ i unsaved := by
    cases other <;> exact absurd unsaved.1 Bool.false_ne_true
  distinct i _ j _ _ nonzero := by
    cases c <;> exact absurd rfl nonzero
  aligned i := by
    cases c <;> exact Nat.dvd_zero _
  used i used := by
    cases c <;> simp [createdCaches, cache, qcow2CacheCreate] at used
  unmarked i waiting := absurd waiting Bool.false_ne_true
  cached i _ nonzero := by
    cases c <;> exact absurd rfl nonzero
  filed offset _ _ _ position _ value known := Option.some.inj known
  hits i := by
    cases c <;> simp [createdCaches, cache, qcow2CacheCreate, TableLog.initial]

/-- In every legal run no two slots hold the same table, a held table stays in its slot and is
changed by its user only, and a lookup returns the known bytes of the table. -/
theorem table_cache_coherent (g : Geometry) (c : CacheId) (quiet : file.faults = [])
    (ops : List TableOp)
    (legal : LegalRun g c ops (createdCaches file l2Size refcountSize writethrough l2Buffers
      refcountBuffers, .initial file)) :
    ∃ reached log, runTableOps g c ops (createdCaches file l2Size refcountSize writethrough
        l2Buffers refcountBuffers, .initial file) = some (reached, log) ∧
      (∀ i < (reached.cache c).size, ∀ j < (reached.cache c).size,
        ((reached.cache c).entries i).offset = ((reached.cache c).entries j).offset →
          ((reached.cache c).entries i).offset ≠ 0 → i = j) ∧
      (∀ op : TableOp, op.Legal g (reached.cache c) log →
        ∃ after, (op.cacheOp c).call g reached = (.ok (), after) ∧
          ∀ i, 0 < ((reached.cache c).entries i).ref →
            ((after.cache c).entries i).offset = ((reached.cache c).entries i).offset ∧
            ((after.cache c).entries i).table =
              op.change i ((reached.cache c).entries i).table) ∧
      (∀ offset, (TableOp.get offset).Legal g (reached.cache c) log →
        ∃ i after, qcow2CacheGet g c offset reached = (.ok i, after) ∧
          ((after.cache c).entries i).offset = offset ∧
          Matches g.clusterSize (log.content offset) ((after.cache c).entries i).table) := by
  have created := coherent_createdCaches file l2Size refcountSize writethrough l2Buffers
    refcountBuffers g c quiet
  obtain ⟨⟨reached, log⟩, run, coherent⟩ := runTableOps_coherent ops created legal
  refine ⟨reached, log, run, coherent.distinct, ?_, ?_⟩
  · intro op allowed
    obtain ⟨after, called, -, -, held⟩ := coherent.call op allowed
    exact ⟨after, called, held⟩
  · rintro offset ⟨nonzero, aligned, spare, few⟩
    obtain ⟨i, after, called, next, size, bound, holds, -⟩ :=
      coherent.doGet nonzero aligned spare few true
    refine ⟨i, after, called, holds, ?_⟩
    simpa [holds] using next.cached i bound (by rwa [holds])

/-- A table is modified, marked dirty, returned and looked up again after another one was read. -/
theorem table_cache_coherent_modified :
    ∃ reached log i after,
      runTableOps ⟨9, by decide, by decide⟩ .l2Table [.get 512, .store 0 3 7, .markDirty 0, .put 0,
        .get 1024, .put 1, .flush] (createdCaches ⟨fun _ => 0, [], [], false⟩ 2 1 false
          (fun _ _ => 0) (fun _ _ => 0), .initial ⟨fun _ => 0, [], [], false⟩) =
            some (reached, log) ∧
      qcow2CacheGet ⟨9, by decide, by decide⟩ .l2Table 512 reached = (.ok i, after) ∧
      ((after.cache .l2Table).entries i).table 3 = 7 := by
  obtain ⟨reached, log, run, -, -, found⟩ := table_cache_coherent ⟨fun _ => 0, [], [], false⟩ 2 1
    false (fun _ _ => 0) (fun _ _ => 0) ⟨9, by decide, by decide⟩ .l2Table rfl
    [.get 512, .store 0 3 7, .markDirty 0, .put 0, .get 1024, .put 1, .flush] (by
      refine ⟨⟨by decide, by decide, by decide, by decide⟩, fun _ step => ?_⟩
      cases step
      refine ⟨⟨by decide, by decide, by decide⟩, fun _ step => ?_⟩
      cases step
      refine ⟨⟨by decide, by decide⟩, fun _ step => ?_⟩
      cases step
      refine ⟨⟨by decide, by decide, fun _ => rfl⟩, fun _ step => ?_⟩
      cases step
      refine ⟨⟨by decide, by decide, by decide, by decide⟩, fun _ step => ?_⟩
      cases step
      refine ⟨⟨by decide, by decide, fun _ => rfl⟩, fun _ step => ?_⟩
      exact ⟨trivial, fun _ _ => trivial⟩)
  have reached_eq := run
  cases reached_eq
  obtain ⟨i, after, called, -, bytes⟩ := found 512 ⟨by decide, by decide, by decide, by decide⟩
  exact ⟨_, _, i, after, run, called, bytes 3 (by decide) 7 rfl⟩

/-- After every legal run `qcow2_cache_flush` succeeds and leaves in the file the bytes that are known
of every table, unless a modification was not yet marked. -/
theorem flush_files_tables (g : Geometry) (c : CacheId) (quiet : file.faults = [])
    (ops : List TableOp)
    (legal : LegalRun g c ops (createdCaches file l2Size refcountSize writethrough l2Buffers
      refcountBuffers, .initial file)) :
    ∃ reached log after, runTableOps g c ops (createdCaches file l2Size refcountSize writethrough
        l2Buffers refcountBuffers, .initial file) = some (reached, log) ∧
      qcow2CacheFlush g c reached = (.ok (), after) ∧
      ∀ offset, offset ≠ 0 → g.clusterSize ∣ offset →
        (∀ i < (reached.cache c).size, ((reached.cache c).entries i).offset = offset →
          log.unmarked i = false) →
        Matches g.clusterSize (log.content offset) (slice after.file.bytes offset) := by
  obtain ⟨⟨reached, log⟩, run, coherent⟩ := runTableOps_coherent ops
    (coherent_createdCaches _ _ _ _ _ _ g c quiet) legal
  have flushed := settles_flush g coherent.acyclic (c := c)
  have same := flushed.sameTables
  refine ⟨reached, log, _, run, qcow2CacheFlush_ok g coherent.quiet coherent.acyclic, ?_⟩
  intro offset nonzero aligned marked
  refine (coherent.settles flushed).filed offset nonzero aligned fun i bound holds => ?_
  rw [same.size] at bound
  have saved := flush_saved g coherent.acyclic bound
  simp only [Unsaved, holds, nonzero, ne_eq, not_false_iff, and_true, Bool.not_eq_true] at saved
  exact ⟨saved, marked i bound (same.offset c i ▸ holds)⟩

theorem flush_files_tables_held :
    let g : Geometry := ⟨9, by decide, by decide⟩
    let file : BlockFile := ⟨fun _ => 0, [], [], false⟩
    ∃ reached log after, runTableOps g .l2Table [.get 512, .store 0 3 7, .markDirty 0]
        (createdCaches file 2 1 false (fun _ _ => 0) (fun _ _ => 0), .initial file) =
          some (reached, log) ∧
      qcow2CacheFlush g .l2Table reached = (.ok (), after) ∧ after.file.bytes 515 = 7 := by
  intro g file
  obtain ⟨reached, log, after, run, flushed, filed⟩ := flush_files_tables file 2 1 false
    (fun _ _ => 0) (fun _ _ => 0) g .l2Table rfl [.get 512, .store 0 3 7, .markDirty 0] (by
      refine ⟨⟨by decide, by decide, by decide, by decide⟩, fun _ step => ?_⟩
      cases step
      refine ⟨⟨by decide, by decide, by decide⟩, fun _ step => ?_⟩
      cases step
      exact ⟨⟨by decide, by decide⟩, fun _ _ => trivial⟩)
  refine ⟨reached, log, after, run, flushed, ?_⟩
  cases run
  exact filed 512 (by decide) (by decide) (by decide) 3 (by decide) 7 rfl

end Created

/-- Without these rules a lookup does not give the bytes last stored or the bytes of the file:
after `qcow2_cache_get_empty` it may give whatever the slot held before, a table that overlaps
another one goes stale when that one is written, and with one table held a lookup aborts once the
other slot has been hit `INT_MAX - 33` times. -/
theorem table_cache_incoherent :
    (∃ reached after,
      runCacheOps ⟨9, by decide, by decide⟩ [.getEmpty .l2Table 512, .put .l2Table 0]
        (createdCaches ⟨fun _ => 1, [], [], false⟩ 2 1 false (fun _ _ => 0) fun _ _ => 0) =
          some reached ∧
      qcow2CacheGet ⟨9, by decide, by decide⟩ .l2Table 512 reached = (.ok 0, after) ∧
      ((after.cache .l2Table).entries 0).table 0 = 0 ∧ reached.file.bytes 512 = 1) ∧
    (∃ reached after,
      runCacheOps ⟨9, by decide, by decide⟩ [.get .l2Table 512,
        .modify .l2Table 0 (fun table => update table 256 1), .markDirty .l2Table 0,
        .put .l2Table 0, .get .l2Table 768, .put .l2Table 1, .flush .l2Table]
        (createdCaches ⟨fun _ => 0, [], [], false⟩ 2 1 false (fun _ _ => 0) fun _ _ => 0) =
          some reached ∧
      qcow2CacheGet ⟨9, by decide, by decide⟩ .l2Table 768 reached = (.ok 1, after) ∧
      ((after.cache .l2Table).entries 1).table 0 = 0 ∧ reached.file.bytes 768 = 1) ∧
    (∃ reached,
      runCacheOps ⟨9, by decide, by decide⟩ ([.get .l2Table 512, .get .l2Table 1024,
        .put .l2Table 1] ++ (List.replicate (2 ^ 31 - 34)
          [.get .l2Table 1024, .put .l2Table 1]).flatten)
        (createdCaches ⟨fun _ => 0, [], [], false⟩ 2 1 false (fun _ _ => 0) fun _ _ => 0) =
          some reached ∧
      (qcow2CacheGet ⟨9, by decide, by decide⟩ .l2Table 1536 reached).1 = .abort) := by
  refine ⟨⟨_, _, rfl, rfl, rfl, rfl⟩, ⟨_, _, rfl, rfl, rfl, rfl⟩, ?_⟩
  have start : ∃ first,
      runCacheOps ⟨9, by decide, by decide⟩ [.get .l2Table 512, .get .l2Table 1024, .put .l2Table 1]
        (createdCaches ⟨fun _ => 0, [], [], false⟩ 2 1 false (fun _ _ => 0) fun _ _ => 0) =
          some first ∧ HitOften 0 first :=
    ⟨_, rfl, rfl, (by intro c _ depends; cases c <;> cases depends), rfl, rfl, rfl, rfl, rfl, rfl,
      rfl⟩
  obtain ⟨first, run, often⟩ := start
  obtain ⟨reached, repeated, saturated⟩ := often.repeat (2 ^ 31 - 34) (by omega)
  exact ⟨reached, by rw [runCacheOps_append, run]; exact repeated, saturated.exhausted⟩

end Qemu.Qcow2
