import Qemu.Qcow2.Cache

/-!
# Write-back without I/O errors

On a file without scheduled faults and with acyclic dependencies the flush functions always return.
Their effect is computed here by plain state functions and taken apart into `Settle` steps: single
table writes and barriers, each with the condition under which the code issues it.
-/

namespace Qemu.Qcow2

open Block Prog List CacheState

variable {before after : CacheState} {other : CacheId} {state : CacheState} {c other : CacheId}
variable {i : Nat}

namespace CacheState

section

variable (state : CacheState)

@[simp] theorem cache_setCache_self (c : CacheId) (value : Qcow2Cache) :
    (state.setCache c value).cache c = value := by
  cases c <;> rfl

theorem cache_setCache_of_ne (value : Qcow2Cache) (distinct : other ≠ c) :
    (state.setCache c value).cache other = state.cache other := by
  cases c <;> cases other <;> first | rfl | exact absurd rfl distinct

@[simp] theorem file_setCache (c : CacheId) (value : Qcow2Cache) :
    (state.setCache c value).file = state.file := by
  cases c <;> rfl

@[simp] theorem cache_updateCache_self (c : CacheId) (update : Qcow2Cache → Qcow2Cache) :
    (state.updateCache c update).cache c = update (state.cache c) := by
  simp [updateCache]

theorem cache_updateCache_of_ne (update : Qcow2Cache → Qcow2Cache) (distinct : other ≠ c) :
    (state.updateCache c update).cache other = state.cache other :=
  cache_setCache_of_ne state _ distinct

theorem cache_updateCache (c other : CacheId) (update : Qcow2Cache → Qcow2Cache) :
    (state.updateCache c update).cache other =
      if other = c then update (state.cache other) else state.cache other := by
  split
  · next same => rw [same, cache_updateCache_self]
  · next distinct => exact cache_updateCache_of_ne state update distinct

@[simp] theorem file_updateCache (c : CacheId) (update : Qcow2Cache → Qcow2Cache) :
    (state.updateCache c update).file = state.file := by
  simp [updateCache]

@[simp] theorem file_updateEntry (c : CacheId) (i : Nat)
    (update : Qcow2CachedTable → Qcow2CachedTable) :
    (state.updateEntry c i update).file = state.file := by
  simp [updateEntry]

@[simp] theorem cache_updateEntry_self (c : CacheId) (i : Nat)
    (update : Qcow2CachedTable → Qcow2CachedTable) :
    (state.updateEntry c i update).cache c = (state.cache c).updateEntry i update := by
  simp [updateEntry]

theorem cache_updateEntry_of_ne (i : Nat) (update : Qcow2CachedTable → Qcow2CachedTable)
    (distinct : other ≠ c) : (state.updateEntry c i update).cache other = state.cache other :=
  cache_updateCache_of_ne state _ distinct

end

section

variable (state : CacheState)

def withFile (file : BlockFile) : CacheState := { state with file }

@[simp] theorem file_withFile (file : BlockFile) : (state.withFile file).file = file := rfl

@[simp] theorem cache_withFile (file : BlockFile) (c : CacheId) :
    (state.withFile file).cache c = state.cache c := by
  cases c <;> rfl

/-- No request fails from here on. -/
def Quiet : Prop := state.file.faults = []

/-- A cache on which another one depends has no dependency of its own. -/
def Acyclic : Prop :=
  ∀ c dependency, (state.cache c).depends = some dependency →
    dependency ≠ c ∧ (state.cache dependency).depends = none

/-- A slot that `qcow2_cache_entry_flush` would write. -/
def Unsaved (c : CacheId) (i : Nat) : Prop :=
  ((state.cache c).entries i).dirty = true ∧ ((state.cache c).entries i).offset ≠ 0

end

instance (state : CacheState) (c : CacheId) (i : Nat) : Decidable (state.Unsaved c i) :=
  inferInstanceAs (Decidable (_ ∧ _))

def barrier (state : CacheState) : CacheState := state.withFile state.file.flushed

section

variable (g : Geometry)

/-- Write one table and mark its slot clean. -/
def writeBack (state : CacheState) (c : CacheId) (i : Nat) : CacheState :=
  (state.withFile <| state.file.written c.updateEvent ((state.cache c).entries i).offset
    ((state.cache c).entries i).table g.clusterSize).updateEntry c i
      fun entry => { entry with dirty := false }

/-- Forget that a barrier is due. -/
def clearFlush (state : CacheState) (c : CacheId) : CacheState :=
  state.updateCache c fun cache => { cache with dependsOnFlush := false }

def clearDependency (state : CacheState) (c : CacheId) : CacheState :=
  state.updateCache c fun cache => { cache with depends := none, dependsOnFlush := false }

/-- Effect of `qcow2_cache_entry_flush` on a cache without a dependency. -/
def plainEntryFlush (c : CacheId) (state : CacheState) (i : Nat) : CacheState :=
  if state.Unsaved c i then
    writeBack g (if (state.cache c).dependsOnFlush then state.barrier.clearFlush c else state) c i
  else state

/-- Effect of `qcow2_cache_flush` on a cache without a dependency. -/
def plainFlush (state : CacheState) (c : CacheId) : CacheState :=
  ((List.range (state.cache c).size).foldl (plainEntryFlush g c) state).barrier

/-- What happens before a table of a cache may be written. -/
def settleBefore (state : CacheState) (c : CacheId) : CacheState :=
  match (state.cache c).depends with
  | some dependency => (plainFlush g state dependency).clearDependency c
  | none => if (state.cache c).dependsOnFlush then state.barrier.clearFlush c else state

def entryFlush (c : CacheId) (state : CacheState) (i : Nat) : CacheState :=
  if state.Unsaved c i then writeBack g (state.settleBefore g c) c i else state

/-- Effect of `qcow2_cache_flush`. -/
def flush (state : CacheState) (c : CacheId) : CacheState :=
  ((List.range (state.cache c).size).foldl (entryFlush g c) state).barrier

end

end CacheState

open CacheState

/-- One thing a cache does to the file on its own, with the condition under which it does it. -/
inductive Settle (g : Geometry) : CacheState → CacheState → Prop where
  /-- A dirty table is written when nothing has to precede it. -/
  | writeBack {state : CacheState} {c : CacheId} {i : Nat} (bound : i < (state.cache c).size)
      (unsaved : state.Unsaved c i) (free : (state.cache c).depends = none)
      (ordered : (state.cache c).dependsOnFlush = false) :
      Settle g state (state.writeBack g c i)
  /-- A barrier at the end of a flush. -/
  | barrier {state : CacheState} : Settle g state state.barrier
  /-- The barrier a cache was waiting for. -/
  | clearFlush {state : CacheState} {c : CacheId} (free : (state.cache c).depends = none) :
      Settle g state (state.barrier.clearFlush c)
  /-- The barrier that ends the flush of the cache depended upon. -/
  | clearDependency {state : CacheState} {c dependency : CacheId}
      (depends : (state.cache c).depends = some dependency)
      (saved : ∀ i < (state.cache dependency).size, ¬state.Unsaved dependency i) :
      Settle g state (state.barrier.clearDependency c)

/-- Any number of such steps. -/
abbrev Settles (g : Geometry) : CacheState → CacheState → Prop := Relation.ReflTransGen (Settle g)

section Entries

variable {cache : Qcow2Cache} {i j : Nat} {update : Qcow2CachedTable → Qcow2CachedTable}

@[simp] theorem updateEntry_entries_self :
    (cache.updateEntry i update).entries i = update (cache.entries i) := by
  simp [Qcow2Cache.updateEntry]

theorem updateEntry_entries_of_ne (distinct : j ≠ i) :
    (cache.updateEntry i update).entries j = cache.entries j := by
  simp [Qcow2Cache.updateEntry, Function.update_of_ne distinct]

@[simp] theorem updateEntry_size : (cache.updateEntry i update).size = cache.size := rfl

@[simp] theorem updateEntry_depends : (cache.updateEntry i update).depends = cache.depends := rfl

@[simp] theorem updateEntry_dependsOnFlush :
    (cache.updateEntry i update).dependsOnFlush = cache.dependsOnFlush := rfl

@[simp] theorem updateEntry_writethrough :
    (cache.updateEntry i update).writethrough = cache.writethrough := rfl

end Entries

/-- What write-back leaves alone: everything but file content, dirty marks and dependencies. -/
structure SameTables (before after : CacheState) : Prop where
  size : ∀ c, (after.cache c).size = (before.cache c).size
  writethrough : ∀ c, (after.cache c).writethrough = (before.cache c).writethrough
  table : ∀ c i, ((after.cache c).entries i).table = ((before.cache c).entries i).table
  offset : ∀ c i, ((after.cache c).entries i).offset = ((before.cache c).entries i).offset
  cacheHits : ∀ c i, ((after.cache c).entries i).cacheHits = ((before.cache c).entries i).cacheHits
  ref : ∀ c i, ((after.cache c).entries i).ref = ((before.cache c).entries i).ref
  dirty : ∀ c i, ((after.cache c).entries i).dirty = true →
    ((before.cache c).entries i).dirty = true
  depends : ∀ c, (after.cache c).depends = none ∨
    (after.cache c).depends = (before.cache c).depends
  faults : after.file.faults = before.file.faults
  cached : after.file.cached = before.file.cached

namespace SameTables

theorem refl (state : CacheState) : SameTables state state where
  size _ := rfl
  writethrough _ := rfl
  table _ _ := rfl
  offset _ _ := rfl
  cacheHits _ _ := rfl
  ref _ _ := rfl
  dirty _ _ dirty := dirty
  depends _ := .inr rfl
  faults := rfl
  cached := rfl

theorem trans {first second third : CacheState} (left : SameTables first second)
    (right : SameTables second third) : SameTables first third where
  size c := (right.size c).trans (left.size c)
  writethrough c := (right.writethrough c).trans (left.writethrough c)
  table c i := (right.table c i).trans (left.table c i)
  offset c i := (right.offset c i).trans (left.offset c i)
  cacheHits c i := (right.cacheHits c i).trans (left.cacheHits c i)
  ref c i := (right.ref c i).trans (left.ref c i)
  dirty c i dirty := left.dirty c i (right.dirty c i dirty)
  depends c := by
    rcases right.depends c with gone | same
    · exact .inl gone
    · rw [same]
      exact left.depends c
  faults := right.faults.trans left.faults
  cached := right.cached.trans left.cached

theorem quiet (same : SameTables before after) (quiet : before.Quiet) : after.Quiet :=
  same.faults.trans quiet

theorem acyclic (same : SameTables before after) (acyclic : before.Acyclic) : after.Acyclic := by
  intro c dependency depends
  have before_depends : (before.cache c).depends = some dependency := by
    rcases same.depends c with gone | kept
    · rw [gone] at depends
      cases depends
    · rw [← kept, depends]
  obtain ⟨distinct, free⟩ := acyclic c dependency before_depends
  refine ⟨distinct, ?_⟩
  rcases same.depends dependency with gone | kept
  · exact gone
  · rw [kept, free]

theorem free {before after : CacheState} (same : SameTables before after) {c : CacheId}
    (free : (before.cache c).depends = none) : (after.cache c).depends = none := by
  rcases same.depends c with gone | kept
  · exact gone
  · rw [kept, free]

theorem unsaved (same : SameTables before after) {c : CacheId} (unsaved : after.Unsaved c i) :
    before.Unsaved c i :=
  ⟨same.dirty c i unsaved.1, by
    have offset := unsaved.2
    rwa [same.offset c i] at offset⟩

end SameTables

theorem sameTables_barrier (state : CacheState) : SameTables state state.barrier := by
  constructor <;> simp [barrier, BlockFile.flushed]

theorem sameTables_clearFlush (state : CacheState) (c : CacheId) :
    SameTables state (state.clearFlush c) := by
  constructor
  case faults | cached => simp [clearFlush]
  all_goals
    intro other
    rw [clearFlush, cache_updateCache]
    split <;> simp

theorem sameTables_clearDependency (state : CacheState) (c : CacheId) :
    SameTables state (state.clearDependency c) := by
  constructor
  case faults | cached => simp [clearDependency]
  all_goals
    intro other
    rw [clearDependency, cache_updateCache]
    split <;> simp

theorem updateEntry_entries (state : CacheState) (c : CacheId) (i : Nat)
    (update : Qcow2CachedTable → Qcow2CachedTable) (other : CacheId) (j : Nat) :
    ((state.updateEntry c i update).cache other).entries j =
      if other = c ∧ j = i then update ((state.cache other).entries j)
      else (state.cache other).entries j := by
  rw [updateEntry, cache_updateCache]
  by_cases same : other = c
  · by_cases slot : j = i
    · simp [same, slot]
    · simp [same, slot, updateEntry_entries_of_ne slot]
  · simp [same]

theorem writeBack_entries (g : Geometry) (state : CacheState) (c : CacheId) (i : Nat)
    (other : CacheId) (j : Nat) :
    ((state.writeBack g c i).cache other).entries j =
      if other = c ∧ j = i then { (state.cache other).entries j with dirty := false }
      else (state.cache other).entries j := by
  rw [writeBack, updateEntry_entries, cache_withFile]

theorem sameTables_writeBack (g : Geometry) (state : CacheState) (c : CacheId) (i : Nat) :
    SameTables state (state.writeBack g c i) := by
  constructor
  case faults | cached => simp [writeBack, BlockFile.written]
  case table | offset | cacheHits | ref =>
    intro other j
    rw [writeBack_entries]
    split <;> rfl
  case dirty =>
    intro other j dirty
    rw [writeBack_entries] at dirty
    split at dirty
    · cases dirty
    · exact dirty
  all_goals
    intro other
    by_cases same : other = c
    · subst same
      simp [writeBack]
    · simp [writeBack, cache_updateEntry_of_ne _ _ _ same]

theorem Settle.sameTables {g : Geometry} (step : Settle g before after) : SameTables before after := by
  cases step with
  | writeBack => exact sameTables_writeBack g before _ _
  | barrier => exact sameTables_barrier before
  | clearFlush => exact (sameTables_barrier before).trans (sameTables_clearFlush _ _)
  | clearDependency => exact (sameTables_barrier before).trans (sameTables_clearDependency _ _)

theorem Settles.sameTables {g : Geometry} (steps : Settles g before after) :
    SameTables before after := by
  induction steps with
  | refl => exact .refl before
  | tail _ step ih => exact ih.trans step.sameTables

theorem onFile_of_ok {α : Type} {program : FileProg α} {value : α} {file : BlockFile}
    (run : program state.file = (.ok value, file)) :
    onFile program state = (.ok value, state.withFile file) := by
  rw [onFile, lift, run]
  rfl

@[simp] theorem onFile_bdrvFlush (quiet : state.Quiet) :
    onFile bdrvFlush state = (.ok (), state.barrier) :=
  onFile_of_ok (bdrvFlush_ok quiet)

section Programs

variable (g : Geometry) (flushAny : CacheId → CacheProg Unit) {state settled : CacheState}
variable {c : CacheId}

theorem writeEntry_ok (quiet : state.Quiet) (i : Nat) :
    writeEntry g c i state = (.ok (), state.writeBack g c i) := by
  rw [writeEntry, get_bind, bind_of_ok (onFile_of_ok (bdrvPwrite_ok quiet _ _ _ _))]
  rfl

theorem settleBeforeWith_plain (quiet : state.Quiet) (free : (state.cache c).depends = none) :
    settleBeforeWith flushAny c state =
      (.ok (), if (state.cache c).dependsOnFlush then state.barrier.clearFlush c else state) := by
  rw [settleBeforeWith, get_bind, free]
  by_cases flushFirst : (state.cache c).dependsOnFlush = true
  · simp only [flushFirst, if_true]
    rw [bind_of_ok (onFile_bdrvFlush quiet)]
    rfl
  · simp [flushFirst]

theorem skip_iff (i : Nat) :
    (!((state.cache c).entries i).dirty || ((state.cache c).entries i).offset == 0) = true ↔
      ¬state.Unsaved c i := by
  simp [Unsaved, or_iff_not_imp_left]

theorem entryFlushWith_of_settled (settles : settleBeforeWith flushAny c state = (.ok (), settled))
    (quiet : settled.Quiet) (i : Nat) :
    entryFlushWith g flushAny c i state =
      (.ok (), if state.Unsaved c i then settled.writeBack g c i else state) := by
  rw [entryFlushWith, get_bind]
  by_cases unsaved : state.Unsaved c i
  · rw [if_neg (by rw [skip_iff]; exact not_not_intro unsaved), if_pos unsaved, bind_of_ok settles]
    exact writeEntry_ok g quiet i
  · rw [if_pos (skip_iff i |>.mpr unsaved), if_neg unsaved]
    rfl

theorem entryFlushWith_plain (quiet : state.Quiet) (free : (state.cache c).depends = none)
    (i : Nat) : entryFlushWith g flushAny c i state = (.ok (), plainEntryFlush g c state i) := by
  refine entryFlushWith_of_settled g flushAny (settleBeforeWith_plain flushAny quiet free) ?_ i
  split
  · exact ((sameTables_barrier state).trans (sameTables_clearFlush _ c)).quiet quiet
  · exact quiet

variable {g} in
/-- A table is written once the cache has nothing to wait for. -/
theorem Settles.writeBack (steps : Settles g state settled) (bound : i < (state.cache c).size)
    (unsaved : state.Unsaved c i)
    (dirty : ((settled.cache c).entries i).dirty = ((state.cache c).entries i).dirty)
    (free : (settled.cache c).depends = none) (ordered : (settled.cache c).dependsOnFlush = false) :
    Settles g state (settled.writeBack g c i) := by
  have same := steps.sameTables
  refine steps.tail (.writeBack ?_ ⟨dirty.trans unsaved.1, ?_⟩ free ordered)
  · rwa [same.size]
  · rw [same.offset]
    exact unsaved.2

theorem writeBack_saved (i : Nat) : ¬(state.writeBack g c i).Unsaved c i := by
  intro unsaved
  have dirty := unsaved.1
  simp [writeBack_entries] at dirty

theorem settles_plainEntryFlush (free : (state.cache c).depends = none)
    (bound : i < (state.cache c).size) : Settles g state (plainEntryFlush g c state i) := by
  rw [plainEntryFlush]
  split
  case isFalse => exact .refl
  case isTrue unsaved =>
    split
    case isTrue =>
      have waited : Settles g state (state.barrier.clearFlush c) := .single (.clearFlush free)
      refine waited.writeBack bound unsaved ?_ (waited.sameTables.free free) ?_
      · simp [clearFlush, barrier]
      · simp [clearFlush]
    case isFalse ordered =>
      exact .single (.writeBack bound unsaved free (by simpa using ordered))

theorem plainEntryFlush_saved (i : Nat) : ¬(plainEntryFlush g c state i).Unsaved c i := by
  rw [plainEntryFlush]
  split
  case isTrue => exact writeBack_saved g i
  case isFalse saved => exact saved

end Programs

/-! ## All slots of a cache -/

section Walk

variable {g : Geometry} {c : CacheId} {effect : CacheState → Nat → CacheState} (admitted : CacheState → Prop)
  (kept : ∀ {before after}, SameTables before after → admitted before → admitted after)
  (settles : ∀ {state i}, admitted state → i < (state.cache c).size →
    Settles g state (effect state i))

include kept settles

theorem settles_foldl (indices : List Nat) (start : admitted state)
    (bounds : ∀ i ∈ indices, i < (state.cache c).size) :
    Settles g state (indices.foldl effect state) := by
  induction indices generalizing state with
  | nil => exact .refl
  | cons i rest ih =>
    have first := settles start (bounds i (by simp))
    refine first.trans (ih (kept first.sameTables start) fun j member => ?_)
    rw [first.sameTables.size]
    exact bounds j (by simp [member])

/-- A table saved by one step stays saved. -/
theorem foldl_saved (saved : ∀ state i, ¬(effect state i).Unsaved c i) (indices : List Nat)
    (start : admitted state) (bounds : ∀ i ∈ indices, i < (state.cache c).size)
    (member : i ∈ indices) : ¬(indices.foldl effect state).Unsaved c i := by
  induction indices generalizing state with
  | nil => simp at member
  | cons j rest ih =>
    have first := settles start (bounds j (by simp))
    have restBounds : ∀ k ∈ rest, k < ((effect state j).cache c).size := by
      intro k inside
      rw [first.sameTables.size]
      exact bounds k (by simp [inside])
    rcases mem_cons.mp member with rfl | inside
    · have later := settles_foldl admitted kept settles rest (kept first.sameTables start) restBounds
      intro unsaved
      exact saved state i (later.sameTables.unsaved unsaved)
    · exact ih (kept first.sameTables start) restBounds inside

variable {fuel : Nat} (runs : ∀ {state : CacheState}, state.Quiet → admitted state →
    ∀ i, entryFlushWith g (cacheFlushFuel g fuel) c i state = (.ok (), effect state i))
  (quiet : state.Quiet) (start : admitted state)

include runs quiet start

theorem flushEntriesWith_foldl (indices : List Nat)
    (bounds : ∀ i ∈ indices, i < (state.cache c).size) :
    flushEntriesWith g (cacheFlushFuel g fuel) c indices none state =
      (.ok none, indices.foldl effect state) := by
  induction indices generalizing state with
  | nil => rfl
  | cons i rest ih =>
    have same := (settles start (bounds i (by simp))).sameTables
    rw [flushEntriesWith, bind_of_ok (attempt_of_ok (runs quiet start i))]
    refine ih (same.quiet quiet) (kept same start) fun j member => ?_
    rw [same.size]
    exact bounds j (by simp [member])

theorem cacheFlushFuel_foldl :
    cacheFlushFuel g (fuel + 1) c state =
      (.ok (), ((range (state.cache c).size).foldl effect state).barrier) := by
  have bounds : ∀ i ∈ range (state.cache c).size, i < (state.cache c).size :=
    fun _ member => mem_range.mp member
  have same := (settles_foldl admitted kept settles _ start bounds).sameTables
  rw [cacheFlushFuel, get_bind,
    bind_of_ok (flushEntriesWith_foldl admitted kept settles runs quiet start _ bounds)]
  exact onFile_bdrvFlush (same.quiet quiet)

end Walk

section PlainFlush

variable (g : Geometry) {c : CacheId}

theorem settles_plainEntries (indices : List Nat) (free : (state.cache c).depends = none)
    (bounds : ∀ i ∈ indices, i < (state.cache c).size) :
    Settles g state (indices.foldl (plainEntryFlush g c) state) :=
  settles_foldl (fun state => (state.cache c).depends = none) (fun same => same.free)
    (settles_plainEntryFlush g) indices free bounds

theorem plainEntries_saved (indices : List Nat) (free : (state.cache c).depends = none)
    (bounds : ∀ i ∈ indices, i < (state.cache c).size) (member : i ∈ indices) :
    ¬(indices.foldl (plainEntryFlush g c) state).Unsaved c i :=
  foldl_saved (fun state => (state.cache c).depends = none) (fun same => same.free)
    (settles_plainEntryFlush g) (fun _ => plainEntryFlush_saved g) indices free bounds member

/-- Without a dependency a flush needs no recursion and leaves no dirty table. -/
theorem cacheFlushFuel_plain (fuel : Nat) (quiet : state.Quiet)
    (free : (state.cache c).depends = none) :
    cacheFlushFuel g (fuel + 1) c state = (.ok (), plainFlush g state c) :=
  cacheFlushFuel_foldl (fun state => (state.cache c).depends = none) (fun same => same.free)
    (settles_plainEntryFlush g) (entryFlushWith_plain g _) quiet free

end PlainFlush

section Flush

variable (g : Geometry) {c : CacheId}

theorem settleBeforeWith_ok (fuel : Nat) (quiet : state.Quiet) (acyclic : state.Acyclic) :
    settleBeforeWith (cacheFlushFuel g (fuel + 1)) c state = (.ok (), state.settleBefore g c) := by
  cases depends : (state.cache c).depends with
  | none =>
    rw [settleBeforeWith_plain _ quiet depends, settleBefore, depends]
  | some dependency =>
    have free := (acyclic c dependency depends).2
    rw [settleBeforeWith, get_bind, depends, settleBefore, depends]
    simp only [flushDependencyWith]
    rw [bind_of_ok (cacheFlushFuel_plain g fuel quiet free)]
    rfl

theorem plainEntryFlush_cache_of_ne (distinct : other ≠ c) (state : CacheState) (i : Nat) :
    (plainEntryFlush g c state i).cache other = state.cache other := by
  rw [plainEntryFlush]
  split
  · rw [writeBack, cache_updateEntry_of_ne _ _ _ distinct, cache_withFile]
    split
    · rw [clearFlush, cache_updateCache_of_ne _ _ distinct, barrier, cache_withFile]
    · rfl
  · rfl

theorem plainEntries_cache_of_ne (distinct : other ≠ c) (indices : List Nat) (state : CacheState) :
    (indices.foldl (plainEntryFlush g c) state).cache other = state.cache other := by
  induction indices generalizing state with
  | nil => rfl
  | cons i rest ih => rw [foldl_cons, ih, plainEntryFlush_cache_of_ne g distinct]

theorem plainFlush_cache_of_ne (distinct : other ≠ c) (state : CacheState) :
    (plainFlush g state c).cache other = state.cache other := by
  rw [plainFlush, barrier, cache_withFile, plainEntries_cache_of_ne g distinct]

/-- Before a write the cache is brought into a state without dependencies. -/
theorem settles_settleBefore (acyclic : state.Acyclic) :
    Settles g state (state.settleBefore g c) ∧
      ((state.settleBefore g c).cache c).depends = none ∧
      ((state.settleBefore g c).cache c).dependsOnFlush = false := by
  cases depends : (state.cache c).depends with
  | none =>
    rw [settleBefore, depends]
    dsimp only
    split
    case isTrue =>
      refine ⟨.single (.clearFlush depends), ?_, ?_⟩
      · simpa [clearFlush, barrier] using depends
      · simp [clearFlush]
    case isFalse ordered => exact ⟨.refl, depends, by simpa using ordered⟩
  | some dependency =>
    obtain ⟨distinct, free⟩ := acyclic c dependency depends
    have bounds : ∀ i ∈ range (state.cache dependency).size,
        i < (state.cache dependency).size := fun _ member => mem_range.mp member
    have writes := settles_plainEntries g _ free bounds
    rw [settleBefore, depends]
    have still : (((range (state.cache dependency).size).foldl
        (plainEntryFlush g dependency) state).cache c).depends = some dependency := by
      rw [plainEntries_cache_of_ne g distinct.symm, depends]
    refine ⟨.tail writes (.clearDependency still ?_), ?_, ?_⟩
    · intro i bound
      rw [writes.sameTables.size] at bound
      exact plainEntries_saved g _ free bounds (mem_range.mpr bound)
    · simp [clearDependency]
    · simp [clearDependency]

theorem entryFlushWith_ok (fuel : Nat) (quiet : state.Quiet) (acyclic : state.Acyclic) (i : Nat) :
    entryFlushWith g (cacheFlushFuel g (fuel + 1)) c i state =
      (.ok (), state.entryFlush g c i) :=
  entryFlushWith_of_settled g _ (settleBeforeWith_ok g fuel quiet acyclic)
    ((settles_settleBefore g acyclic).1.sameTables.quiet quiet) i

/-- Making a write possible does not itself write tables of the cache. -/
theorem settleBefore_dirty (acyclic : state.Acyclic) (i : Nat) :
    (((state.settleBefore g c).cache c).entries i).dirty = ((state.cache c).entries i).dirty := by
  cases depends : (state.cache c).depends with
  | none =>
    rw [settleBefore, depends]
    dsimp only
    split <;> simp [clearFlush, barrier]
  | some dependency =>
    have distinct : c ≠ dependency := (acyclic c dependency depends).1.symm
    rw [settleBefore, depends]
    simp [clearDependency, plainFlush_cache_of_ne g distinct]

theorem settles_entryFlush (acyclic : state.Acyclic) (bound : i < (state.cache c).size) :
    Settles g state (state.entryFlush g c i) := by
  rw [entryFlush]
  split
  case isFalse => exact .refl
  case isTrue unsaved =>
    obtain ⟨steps, free, ordered⟩ := settles_settleBefore g acyclic (c := c)
    exact steps.writeBack bound unsaved (settleBefore_dirty g acyclic i) free ordered

theorem entryFlush_saved (state : CacheState) (i : Nat) :
    ¬(state.entryFlush g c i).Unsaved c i := by
  rw [entryFlush]
  split
  case isTrue => exact writeBack_saved g i
  case isFalse saved => exact saved

theorem cacheFlushFuel_ok (fuel : Nat) (quiet : state.Quiet) (acyclic : state.Acyclic) :
    cacheFlushFuel g (fuel + 2) c state = (.ok (), state.flush g c) :=
  cacheFlushFuel_foldl Acyclic (fun same => same.acyclic) (settles_entryFlush g)
    (entryFlushWith_ok g fuel) quiet acyclic

/-- With acyclic dependencies and no I/O error, `qcow2_cache_flush` returns. -/
theorem qcow2CacheFlush_ok (quiet : state.Quiet) (acyclic : state.Acyclic) :
    qcow2CacheFlush g c state = (.ok (), state.flush g c) :=
  cacheFlushFuel_ok g 1 quiet acyclic

theorem qcow2CacheEntryFlush_ok (quiet : state.Quiet) (acyclic : state.Acyclic) (i : Nat) :
    qcow2CacheEntryFlush g c i state = (.ok (), state.entryFlush g c i) :=
  entryFlushWith_ok g 2 quiet acyclic i

theorem settles_flush (acyclic : state.Acyclic) : Settles g state (state.flush g c) :=
  .tail (settles_foldl Acyclic (fun same => same.acyclic) (settles_entryFlush g) _ acyclic
    fun _ member => mem_range.mp member) .barrier

theorem flush_saved (acyclic : state.Acyclic) (bound : i < (state.cache c).size) :
    ¬(state.flush g c).Unsaved c i := fun unsaved =>
  foldl_saved Acyclic (fun same => same.acyclic) (settles_entryFlush g) (entryFlush_saved g) _
    acyclic (fun _ => mem_range.mp) (mem_range.mpr bound) ((sameTables_barrier _).unsaved unsaved)

end Flush

end Qemu.Qcow2
