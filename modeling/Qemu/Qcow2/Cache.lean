import Qemu.Block.File

/-!
# The L2 and refcount table caches

This file embeds `block/qcow2-cache.c`.  An image owns two caches, one for L2 tables and one for
refcount blocks, which write their tables to the same file and may be made to depend on each other.
A `void *` table pointer names the cache entry whose buffer it is, so pointers are entry indices.
-/

namespace Qemu.Qcow2

open Block Prog

/-- `INT_MAX` of the 32-bit `int` counters. -/
def intMax : Int := 2 ^ 31 - 1

/-- Cluster geometry of an image, within the bounds checked by `qcow2_open`. -/
structure Geometry where
  /-- Binary logarithm of the cluster size. -/
  clusterBits : Nat
  min_bits : 9 ≤ clusterBits
  max_bits : clusterBits ≤ 21

/-- Bytes in a cluster, and in a cached table. -/
def Geometry.clusterSize (g : Geometry) : Nat := 2 ^ g.clusterBits

/-- The two caches of `BDRVQcowState`. -/
inductive CacheId where
  | l2Table
  | refcountBlock
  deriving DecidableEq, Repr

/-- One cache slot with its table buffer. -/
structure Qcow2CachedTable where
  table : Buffer
  /-- File offset of the table, or zero for a slot that holds none. -/
  offset : Nat
  /-- The buffer differs from the file. -/
  dirty : Bool
  /-- Replacement counter. -/
  cacheHits : Int
  /-- References handed out and not yet returned. -/
  ref : Nat

/-- A table cache; only the entries below `size` exist. -/
structure Qcow2Cache where
  /-- The slots. -/
  entries : Nat → Qcow2CachedTable
  /-- Number of slots. -/
  size : Nat
  /-- Cache which must be flushed before a table of this one is written. -/
  depends : Option CacheId
  /-- A barrier must precede the next table write. -/
  dependsOnFlush : Bool
  /-- Write a table whenever a reference to it is returned. -/
  writethrough : Bool

/-- The part of `BDRVQcowState` on which the cache functions work. -/
structure CacheState where
  /-- `bs->file`. -/
  file : BlockFile
  /-- `s->l2_table_cache`. -/
  l2TableCache : Qcow2Cache
  /-- `s->refcount_block_cache`. -/
  refcountBlockCache : Qcow2Cache

namespace CacheState

/-- The cache with a given name. -/
def cache (state : CacheState) : CacheId → Qcow2Cache
  | .l2Table => state.l2TableCache
  | .refcountBlock => state.refcountBlockCache

def setCache (state : CacheState) (c : CacheId) (value : Qcow2Cache) : CacheState :=
  match c with
  | .l2Table => { state with l2TableCache := value }
  | .refcountBlock => { state with refcountBlockCache := value }

def updateCache (state : CacheState) (c : CacheId) (update : Qcow2Cache → Qcow2Cache) :
    CacheState :=
  state.setCache c (update (state.cache c))

end CacheState

/-- Change one slot of a cache. -/
def Qcow2Cache.updateEntry (cache : Qcow2Cache) (i : Nat)
    (update : Qcow2CachedTable → Qcow2CachedTable) : Qcow2Cache :=
  { cache with entries := Function.update cache.entries i (update (cache.entries i)) }

/-- Change one slot of one of the caches. -/
def CacheState.updateEntry (state : CacheState) (c : CacheId) (i : Nat)
    (update : Qcow2CachedTable → Qcow2CachedTable) : CacheState :=
  state.updateCache c fun cache => cache.updateEntry i update

abbrev CacheProg := Prog CacheState Errno

/-- A request to `bs->file`. -/
def onFile {α : Type} (program : FileProg α) : CacheProg α :=
  lift CacheState.file (fun state file => { state with file }) program

/-- A cache as `qcow2_cache_create` returns it; the buffers are not initialised. -/
def qcow2CacheCreate (numTables : Nat) (writethrough : Bool) (buffers : Nat → Buffer) :
    Qcow2Cache where
  entries i := { table := buffers i, offset := 0, dirty := false, cacheHits := 0, ref := 0 }
  size := numTables
  depends := none
  dependsOnFlush := false
  writethrough := writethrough

/-- The event announced before a table of a cache is written. -/
def CacheId.updateEvent : CacheId → WriteSite
  | .l2Table => .l2Update
  | .refcountBlock => .refblockUpdatePart

section Functions

variable (g : Geometry) (flush : CacheId → CacheProg Unit)

/-- `qcow2_cache_flush_dependency`, given the flush function it calls. -/
def flushDependencyWith (c dependency : CacheId) :
    CacheProg Unit := do
  flush dependency
  modify fun state =>
    state.updateCache c fun cache => { cache with depends := none, dependsOnFlush := false }

/-- What `qcow2_cache_entry_flush` does before it may write: flush the cache depended upon, or
issue the barrier that is due. -/
def settleBeforeWith (c : CacheId) : CacheProg Unit := do
  let state ← get
  match (state.cache c).depends with
  | some dependency => flushDependencyWith flush c dependency
  | none =>
    if (state.cache c).dependsOnFlush then do
      onFile bdrvFlush
      modify fun state =>
        state.updateCache c fun cache => { cache with dependsOnFlush := false }
    else return ()

variable (c : CacheId)

def writeEntry (i : Nat) : CacheProg Unit := do
  let state ← get
  let entry := (state.cache c).entries i
  onFile (bdrvPwrite c.updateEvent entry.offset entry.table g.clusterSize)
  modify fun state => state.updateEntry c i fun entry => { entry with dirty := false }

/-- `qcow2_cache_entry_flush`, given the flush function it may reach. -/
def entryFlushWith (c : CacheId) (i : Nat) :
    CacheProg Unit := do
  let state ← get
  let entry := (state.cache c).entries i
  if !entry.dirty || entry.offset == 0 then return ()
  else do
    settleBeforeWith flush c
    writeEntry g c i

/-- The loop of `qcow2_cache_flush`: errors are remembered and the loop goes on, and `-ENOSPC` is
not replaced by a later error. -/
def flushEntriesWith (flush : CacheId → CacheProg Unit) (c : CacheId) :
    List Nat → Option Errno → CacheProg (Option Errno)
  | [], result => return result
  | i :: rest, result => do
      let ret ← attempt (entryFlushWith g flush c i)
      flushEntriesWith flush c rest <|
        match ret with
        | .ok _ => result
        | .error code => if result = some .ENOSPC then result else some code

/-- `qcow2_cache_flush` with a bound on the depth of its recursion through dependencies. -/
def cacheFlushFuel : Nat → CacheId → CacheProg Unit
  | 0, _ => hang
  | fuel + 1, c => do
      let state ← get
      let result ← flushEntriesWith g (cacheFlushFuel fuel) c (List.range (state.cache c).size) none
      match result with
      | none => onFile bdrvFlush
      | some code => throw code

/-- `qcow2_cache_flush`.  With two caches the recursion either ends on the second level or, when
the caches depend on each other and are both dirty, never. -/
def qcow2CacheFlush : CacheProg Unit := cacheFlushFuel g 3 c

def qcow2CacheFlushDependency (c dependency : CacheId) : CacheProg Unit :=
  flushDependencyWith (qcow2CacheFlush g) c dependency

def qcow2CacheEntryFlush (i : Nat) : CacheProg Unit := entryFlushWith g (qcow2CacheFlush g) c i

/-- Flush the cache that `c` depends on, unless `c` has no dependency or it is `kept`. -/
def dropDependency (kept : Option CacheId) : CacheProg Unit := do
  let state ← get
  match (state.cache c).depends with
  | none => return ()
  | some next =>
    if some next = kept then return () else qcow2CacheFlushDependency g c next

def qcow2CacheSetDependency (c dependency : CacheId) : CacheProg Unit := do
  dropDependency g dependency none
  dropDependency g c (some dependency)
  modify fun state =>
    state.updateCache c fun cache => { cache with depends := some dependency }

def qcow2CacheDependsOnFlush : CacheProg Unit :=
  modify fun state =>
    state.updateCache c fun cache => { cache with dependsOnFlush := true }

/-- Candidate for replacement while `qcow2_cache_find_entry_to_replace` scans the slots. -/
structure ReplacementScan where
  /-- The cache with the counters halved so far. -/
  cache : Qcow2Cache
  /-- Smallest counter seen. -/
  minCount : Int
  /-- Its slot; `none` is the initial `-1`. -/
  minIndex : Option Nat

def ReplacementScan.visit (scan : ReplacementScan) (i : Nat) : ReplacementScan :=
  let entry := scan.cache.entries i
  if entry.ref ≠ 0 then scan
  else
    let halved := scan.cache.updateEntry i fun entry =>
      { entry with cacheHits := entry.cacheHits.tdiv 2 }
    if entry.cacheHits < scan.minCount then
      { cache := halved, minCount := entry.cacheHits, minIndex := some i }
    else { scan with cache := halved }

/-- The scan over all slots. -/
def qcow2CacheFindEntryToReplace (cache : Qcow2Cache) : ReplacementScan :=
  (List.range cache.size).foldl ReplacementScan.visit
    { cache, minCount := intMax, minIndex := none }

/-- Two's complement value of an `int` after an increment. -/
def incrementInt (value : Int) : Int := (value + 1).bmod (2 ^ 32)

/-- Slot that already holds the table at an offset. -/
def Qcow2Cache.lookup (cache : Qcow2Cache) (offset : Nat) : Option Nat :=
  (List.range cache.size).find? fun i => (cache.entries i).offset == offset

/-- The `found` part of `qcow2_cache_do_get`. -/
def takeReference (i : Nat) : CacheProg Nat := do
  modify fun state => state.updateEntry c i fun entry =>
    { entry with cacheHits := incrementInt entry.cacheHits, ref := entry.ref + 1 }
  return i

/-- The part of `qcow2_cache_do_get` which reads the new table into a free slot. -/
def fillEntry (i offset : Nat) (readFromDisk : Bool) : CacheProg Unit :=
  if readFromDisk then do
    let buffer ← onFile (bdrvPread offset)
    modify fun state => state.updateEntry c i fun entry => { entry with table := buffer }
  else return ()

/-- The part of `qcow2_cache_do_get` which replaces the table of a slot. -/
def replaceEntry (i offset : Nat) (readFromDisk : Bool) : CacheProg Nat := do
  qcow2CacheEntryFlush g c i
  modify fun state => state.updateEntry c i fun entry => { entry with offset := 0 }
  fillEntry c i offset readFromDisk
  modify fun state => state.updateEntry c i fun entry =>
    { entry with cacheHits := 32, offset := offset }
  takeReference c i

def qcow2CacheDoGet (offset : Nat) (readFromDisk : Bool) : CacheProg Nat := do
  let state ← get
  match (state.cache c).lookup offset with
  | some i => takeReference c i
  | none => do
      let scan := qcow2CacheFindEntryToReplace (state.cache c)
      modify fun state => state.setCache c scan.cache
      match scan.minIndex with
      | none => abort
      | some i => replaceEntry g c i offset readFromDisk

def qcow2CacheGet (offset : Nat) : CacheProg Nat := qcow2CacheDoGet g c offset true

def qcow2CacheGetEmpty (offset : Nat) : CacheProg Nat := qcow2CacheDoGet g c offset false

/-- `qcow2_cache_put`; a pointer that is no table buffer of the cache gives `-ENOENT`. -/
def qcow2CachePut (i : Nat) : CacheProg Unit := do
  let state ← get
  if (state.cache c).size ≤ i then throw .ENOENT
  else if ((state.cache c).entries i).ref = 0 then abort
  else do
    modify fun state => state.updateEntry c i fun entry => { entry with ref := entry.ref - 1 }
    if (state.cache c).writethrough then qcow2CacheEntryFlush g c i else return ()

def qcow2CacheEntryMarkDirty (i : Nat) : CacheProg Unit := do
  let state ← get
  if (state.cache c).size ≤ i then abort
  else modify fun state => state.updateEntry c i fun entry => { entry with dirty := true }

/-- The flush of `qcow2_cache_set_writethrough`, whose result is ignored. -/
def flushForWritethrough (old enable : Bool) : CacheProg Unit :=
  if !old && enable then do
    let _ ← attempt (qcow2CacheFlush g c)
    return ()
  else return ()

def qcow2CacheSetWritethrough (enable : Bool) : CacheProg Bool := do
  let state ← get
  let old := (state.cache c).writethrough
  flushForWritethrough g c old enable
  modify fun state => state.updateCache c fun cache => { cache with writethrough := enable }
  return old

end Functions

end Qemu.Qcow2
