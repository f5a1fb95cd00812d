import Qemu.Qcow2.CacheFlush

/-!
# Runs of cache operations

`CacheOp` lists what the users of the two caches can do.  Without I/O errors and with acyclic
dependencies every operation is a sequence of `CacheStep`s: write-back steps, changes by the user
which lose no unsaved table, and the two ways to order the caches.
-/

namespace Qemu.Qcow2

open Block CacheState Prog List ReplacementScan

variable {before after : CacheState} {g : Geometry} {i : Nat}

/-- Calls of the cache interface, and in-place changes of a table through its pointer. -/
inductive CacheOp where
  | get (c : CacheId) (offset : Nat)
  | getEmpty (c : CacheId) (offset : Nat)
  | modify (c : CacheId) (i : Nat) (change : Buffer → Buffer)
  | markDirty (c : CacheId) (i : Nat)
  | put (c : CacheId) (i : Nat)
  | flush (c : CacheId)
  | setDependency (c dependency : CacheId) (distinct : c ≠ dependency)
  | dependsOnFlush (c : CacheId)
  | setWritethrough (c : CacheId) (enable : Bool)

/-- Store through a table pointer. -/
def modifyTable (c : CacheId) (i : Nat) (change : Buffer → Buffer) : CacheProg Unit :=
  Prog.modify fun state => state.updateEntry c i fun entry =>
    { entry with table := change entry.table }

/-- Drop the value of a call. -/
def discardValue {α : Type} (program : CacheProg α) : CacheProg Unit := do
  let _ ← program
  return ()

/-- The call made by an operation. -/
def CacheOp.call (g : Geometry) : CacheOp → CacheProg Unit
  | .get c offset => discardValue (qcow2CacheGet g c offset)
  | .getEmpty c offset => discardValue (qcow2CacheGetEmpty g c offset)
  | .modify c i change => modifyTable c i change
  | .markDirty c i => qcow2CacheEntryMarkDirty c i
  | .put c i => qcow2CachePut g c i
  | .flush c => qcow2CacheFlush g c
  | .setDependency c dependency _ => qcow2CacheSetDependency g c dependency
  | .dependsOnFlush c => qcow2CacheDependsOnFlush c
  | .setWritethrough c enable => discardValue (qcow2CacheSetWritethrough g c enable)

/-- A sequence of calls; it goes on after an error return and ends when a call does not return. -/
def runCacheOps (g : Geometry) : List CacheOp → CacheState → Option CacheState
  | [], state => some state
  | op :: rest, state =>
    match op.call g state with
    | (.ok _, after) => runCacheOps g rest after
    | (.error _, after) => runCacheOps g rest after
    | (.abort, _) => none
    | (.hang, _) => none

theorem runCacheOps_append (g : Geometry) (first second : List CacheOp) (state : CacheState) :
    runCacheOps g (first ++ second) state = runCacheOps g first state >>= runCacheOps g second := by
  induction first generalizing state with
  | nil => rfl
  | cons op rest ih =>
    simp only [cons_append, runCacheOps]
    split
    · exact ih _
    · exact ih _
    · rfl
    · rfl

/-- Changes by the user: nothing reaches the file, no order is forgotten and no unsaved table
is lost. -/
structure Keeps (before after : CacheState) : Prop where
  file : after.file = before.file
  size : ∀ c, (after.cache c).size = (before.cache c).size
  depends : ∀ c, (after.cache c).depends = (before.cache c).depends
  dependsOnFlush : ∀ c, (after.cache c).dependsOnFlush = (before.cache c).dependsOnFlush
  unsaved : ∀ c i, before.Unsaved c i → after.Unsaved c i ∧
    ((after.cache c).entries i).offset = ((before.cache c).entries i).offset

/-- One effect of a cache operation. -/
inductive CacheStep (g : Geometry) : CacheState → CacheState → Prop where
  | settle {before after : CacheState} (step : Settle g before after) : CacheStep g before after
  | keep {before after : CacheState} (keeps : Keeps before after) : CacheStep g before after
  /-- The assignment to `depends`, made only when the other cache has no dependency. -/
  | setDependency {state : CacheState} {c dependency : CacheId} (distinct : c ≠ dependency)
      (free : (state.cache dependency).depends = none) :
      CacheStep g state
        (state.updateCache c fun cache => { cache with depends := some dependency })
  | dependsOnFlush {state : CacheState} {c : CacheId} :
      CacheStep g state (state.updateCache c fun cache => { cache with dependsOnFlush := true })

/-- Any number of effects. -/
abbrev CacheSteps (g : Geometry) : CacheState → CacheState → Prop :=
  Relation.ReflTransGen (CacheStep g)

theorem Settles.cacheSteps (steps : Settles g before after) : CacheSteps g before after := by
  induction steps with
  | refl => exact .refl
  | tail _ step ih => exact ih.tail (.settle step)

section Keep

variable {state : CacheState} {c : CacheId} {i : Nat}

/-- A slot update is harmless when it does not drop an unsaved table. -/
theorem keeps_updateEntry {update : Qcow2CachedTable → Qcow2CachedTable}
    (kept : state.Unsaved c i → (update ((state.cache c).entries i)).dirty = true ∧
      (update ((state.cache c).entries i)).offset = ((state.cache c).entries i).offset) :
    Keeps state (state.updateEntry c i update) := by
  constructor
  case file => simp
  case unsaved =>
    intro other j unsaved
    rw [Unsaved, updateEntry_entries]
    split
    · next here =>
      obtain ⟨rfl, rfl⟩ := here
      obtain ⟨dirty, offset⟩ := kept unsaved
      exact ⟨⟨dirty, offset ▸ unsaved.2⟩, offset⟩
    · exact ⟨unsaved, rfl⟩
  all_goals
    intro other
    by_cases same : other = c
    · subst same
      simp
    · simp [cache_updateEntry_of_ne _ _ _ same]

theorem keeps_setCache {value : Qcow2Cache} (size : value.size = (state.cache c).size)
    (depends : value.depends = (state.cache c).depends)
    (dependsOnFlush : value.dependsOnFlush = (state.cache c).dependsOnFlush)
    (dirty : ∀ j, (value.entries j).dirty = ((state.cache c).entries j).dirty)
    (offset : ∀ j, (value.entries j).offset = ((state.cache c).entries j).offset) :
    Keeps state (state.setCache c value) := by
  constructor
  case file => simp
  case unsaved =>
    intro other j unsaved
    by_cases same : other = c
    · subst same
      simpa [Unsaved, dirty, offset] using unsaved
    · simpa [Unsaved, cache_setCache_of_ne _ _ same] using unsaved
  all_goals
    intro other
    by_cases same : other = c
    · subst same
      simp [size, depends, dependsOnFlush]
    · simp [cache_setCache_of_ne _ _ same]

end Keep

/-- Two caches that differ at most in their replacement counters. -/
structure SameButHits (before after : Qcow2Cache) : Prop where
  size : after.size = before.size
  depends : after.depends = before.depends
  dependsOnFlush : after.dependsOnFlush = before.dependsOnFlush
  writethrough : after.writethrough = before.writethrough
  table : ∀ i, (after.entries i).table = (before.entries i).table
  offset : ∀ i, (after.entries i).offset = (before.entries i).offset
  dirty : ∀ i, (after.entries i).dirty = (before.entries i).dirty
  ref : ∀ i, (after.entries i).ref = (before.entries i).ref

theorem SameButHits.refl (cache : Qcow2Cache) : SameButHits cache cache where
  size := rfl
  depends := rfl
  dependsOnFlush := rfl
  writethrough := rfl
  table _ := rfl
  offset _ := rfl
  dirty _ := rfl
  ref _ := rfl

theorem SameButHits.trans {first second third : Qcow2Cache} (left : SameButHits first second)
    (right : SameButHits second third) : SameButHits first third where
  size := right.size.trans left.size
  depends := right.depends.trans left.depends
  dependsOnFlush := right.dependsOnFlush.trans left.dependsOnFlush
  writethrough := right.writethrough.trans left.writethrough
  table i := (right.table i).trans (left.table i)
  offset i := (right.offset i).trans (left.offset i)
  dirty i := (right.dirty i).trans (left.dirty i)
  ref i := (right.ref i).trans (left.ref i)

theorem sameButHits_updateEntry (cache : Qcow2Cache) (i : Nat) (hits : Int → Int) :
    SameButHits cache
      (cache.updateEntry i fun entry => { entry with cacheHits := hits entry.cacheHits }) := by
  constructor
  case table | offset | dirty | ref =>
    intro j
    by_cases slot : j = i
    · subst slot
      simp
    · rw [updateEntry_entries_of_ne slot]
  all_goals rfl

section Scan

theorem visit_sameButHits (scan : ReplacementScan) (i : Nat) :
    SameButHits scan.cache (scan.visit i).cache := by
  rw [visit]
  split
  · exact .refl _
  · split <;> exact sameButHits_updateEntry _ _ (·.tdiv 2)

variable (indices : List Nat)

theorem foldl_visit_sameButHits (scan : ReplacementScan) :
    SameButHits scan.cache (indices.foldl visit scan).cache := by
  induction indices generalizing scan with
  | nil => exact .refl _
  | cons i rest ih => exact (visit_sameButHits scan i).trans (ih _)

theorem findEntryToReplace_sameButHits (cache : Qcow2Cache) :
    SameButHits cache (qcow2CacheFindEntryToReplace cache).cache :=
  foldl_visit_sameButHits (range cache.size) { cache, minCount := intMax, minIndex := none }

theorem foldl_visit_minIndex (scan : ReplacementScan)
    (chosen : (indices.foldl visit scan).minIndex = some i) :
    scan.minIndex = some i ∨ i ∈ indices ∧ (scan.cache.entries i).ref = 0 := by
  induction indices generalizing scan with
  | nil => exact .inl chosen
  | cons j rest ih =>
    have hits := visit_sameButHits scan j
    rcases ih (scan.visit j) chosen with visited | ⟨inside, unreferenced⟩
    · rw [visit] at visited
      split at visited
      · exact .inl visited
      · rename_i unreferenced
        split at visited
        · obtain rfl : j = i := by simpa using visited
          exact .inr ⟨by simp, by simpa using unreferenced⟩
        · exact .inl visited
    · exact .inr ⟨by simp [inside], by rw [← hits.ref]; exact unreferenced⟩

theorem findEntryToReplace_minIndex {cache : Qcow2Cache}
    (chosen : (qcow2CacheFindEntryToReplace cache).minIndex = some i) :
    i < cache.size ∧ (cache.entries i).ref = 0 := by
  rcases foldl_visit_minIndex _ _ chosen with initial | ⟨inside, unreferenced⟩
  · cases initial
  · exact ⟨mem_range.mp inside, unreferenced⟩

theorem foldl_visit_minIndex_isSome (scan : ReplacementScan) (some_before : scan.minIndex.isSome) :
    (indices.foldl visit scan).minIndex.isSome := by
  induction indices generalizing scan with
  | nil => exact some_before
  | cons j rest ih =>
    apply ih
    rw [visit]
    split
    · exact some_before
    · split
      · rfl
      · exact some_before

/-- The scan finds a slot as soon as one unreferenced counter is below `INT_MAX`. -/
theorem foldl_visit_finds (distinct : indices.Nodup) (scan : ReplacementScan)
    (initial : scan.minIndex = none) (count : scan.minCount = intMax) (inside : i ∈ indices)
    (unreferenced : (scan.cache.entries i).ref = 0)
    (below : (scan.cache.entries i).cacheHits < intMax) :
    (indices.foldl visit scan).minIndex.isSome := by
  induction indices generalizing scan with
  | nil => simp at inside
  | cons j rest ih =>
    obtain ⟨fresh, restDistinct⟩ := nodup_cons.mp distinct
    rcases mem_cons.mp inside with rfl | later
    · rw [foldl_cons]
      apply foldl_visit_minIndex_isSome
      simp [visit, unreferenced, count, below]
    · have slot : i ≠ j := fun same => fresh (same ▸ later)
      rw [foldl_cons, visit]
      split
      · exact ih restDistinct scan initial count later unreferenced below
      · split
        · exact foldl_visit_minIndex_isSome _ _ rfl
        · refine ih restDistinct _ initial count later ?_ ?_
          · rw [updateEntry_entries_of_ne slot]
            exact unreferenced
          · rw [updateEntry_entries_of_ne slot]
            exact below

end Scan

theorem Keeps.quiet (keeps : Keeps before after) (quiet : before.Quiet) : after.Quiet := by
  rw [Quiet, keeps.file]
  exact quiet

theorem Keeps.acyclic (keeps : Keeps before after) (acyclic : before.Acyclic) : after.Acyclic := by
  intro c dependency depends
  rw [keeps.depends] at depends ⊢
  exact acyclic c dependency depends

theorem CacheStep.quiet (step : CacheStep g before after) (quiet : before.Quiet) : after.Quiet := by
  cases step with
  | settle step => exact step.sameTables.quiet quiet
  | keep keeps => exact keeps.quiet quiet
  | setDependency | dependsOnFlush => simpa [Quiet] using quiet

theorem CacheStep.acyclic (step : CacheStep g before after) (acyclic : before.Acyclic) :
    after.Acyclic := by
  cases step with
  | settle step => exact step.sameTables.acyclic acyclic
  | keep keeps => exact keeps.acyclic acyclic
  | @setDependency c dependency distinct free =>
    intro other next depends
    by_cases same : other = c
    · subst same
      obtain rfl : dependency = next := by simpa using depends
      exact ⟨distinct.symm, by rwa [cache_updateCache_of_ne _ _ distinct.symm]⟩
    · rw [cache_updateCache_of_ne _ _ same] at depends
      have other_eq : other = dependency := by
        cases c <;> cases other <;> cases dependency <;> simp_all
      rw [other_eq, free] at depends
      cases depends
  | @dependsOnFlush c =>
    have unchanged : ∀ other, ((before.updateCache c fun cache =>
        { cache with dependsOnFlush := true }).cache other).depends =
        (before.cache other).depends := by
      intro other
      rw [cache_updateCache]
      split <;> rfl
    intro other next depends
    rw [unchanged] at depends ⊢
    exact acyclic other next depends

theorem CacheSteps.quiet (steps : CacheSteps g before after) (quiet : before.Quiet) :
    after.Quiet := by
  induction steps with
  | refl => exact quiet
  | tail _ step ih => exact step.quiet ih

theorem CacheSteps.acyclic (steps : CacheSteps g before after) (acyclic : before.Acyclic) :
    after.Acyclic := by
  induction steps with
  | refl => exact acyclic
  | tail _ step ih => exact step.acyclic ih

section Calls

variable (g : Geometry) {c : CacheId} {state : CacheState}

/-- Slot `i` with one more reference. -/
def CacheState.taken (state : CacheState) (c : CacheId) (i : Nat) : CacheState :=
  state.updateEntry c i fun entry =>
    { entry with cacheHits := incrementInt entry.cacheHits, ref := entry.ref + 1 }

/-- Slot `i` with one reference less. -/
def CacheState.returned (state : CacheState) (c : CacheId) (i : Nat) : CacheState :=
  state.updateEntry c i fun entry => { entry with ref := entry.ref - 1 }

theorem takeReference_ok (i : Nat) : takeReference c i state = (.ok i, state.taken c i) := rfl

theorem keeps_taken (i : Nat) : Keeps state (state.taken c i) :=
  keeps_updateEntry fun unsaved => ⟨unsaved.1, rfl⟩

theorem keeps_returned (i : Nat) : Keeps state (state.returned c i) :=
  keeps_updateEntry fun unsaved => ⟨unsaved.1, rfl⟩

/-- Slot `i` after its saved table has been replaced by the table at `offset`. -/
def CacheState.refilled (state : CacheState) (c : CacheId) (i offset : Nat) (readFromDisk : Bool) :
    CacheState :=
  state.updateEntry c i fun entry =>
    { entry with
      table := if readFromDisk then slice state.file.bytes offset else entry.table
      offset := offset
      cacheHits := 33
      ref := entry.ref + 1 }

theorem updateEntry_updateEntry (i : Nat) (first second : Qcow2CachedTable → Qcow2CachedTable) :
    (state.updateEntry c i first).updateEntry c i second =
      state.updateEntry c i fun entry => second (first entry) := by
  cases c <;>
    simp [updateEntry, updateCache, setCache, CacheState.cache, Qcow2Cache.updateEntry]

theorem fillEntry_ok (quiet : state.Quiet) (offset : Nat) (readFromDisk : Bool) :
    fillEntry c i offset readFromDisk state = (.ok (), state.updateEntry c i fun entry =>
      { entry with
        table := if readFromDisk then slice state.file.bytes offset else entry.table }) := by
  cases readFromDisk with
  | false =>
    cases c <;> simp [fillEntry, updateEntry, updateCache, setCache, Qcow2Cache.updateEntry] <;> rfl
  | true =>
    rw [fillEntry, if_pos rfl, bind_of_ok (onFile_of_ok (bdrvPread_ok quiet offset))]
    rfl

theorem replaceEntry_ok (quiet : state.Quiet) (acyclic : state.Acyclic)
    (bound : i < (state.cache c).size) (offset : Nat) (readFromDisk : Bool) :
    replaceEntry g c i offset readFromDisk state =
      (.ok i, (state.entryFlush g c i).refilled c i offset readFromDisk) := by
  have flushedQuiet := (settles_entryFlush g acyclic bound).sameTables.quiet quiet
  have emptied : ((state.entryFlush g c i).updateEntry c i fun entry =>
      { entry with offset := 0 }).Quiet := by
    simpa [Quiet] using flushedQuiet
  rw [replaceEntry, bind_of_ok (qcow2CacheEntryFlush_ok g quiet acyclic i), modify_bind,
    bind_of_ok (fillEntry_ok emptied offset readFromDisk), modify_bind, takeReference_ok]
  simp only [updateEntry_updateEntry, file_updateEntry, taken, refilled]
  rfl

/-- The state after the counters of a cache were halved by an unsuccessful lookup. -/
def CacheState.scanned (state : CacheState) (c : CacheId) : CacheState :=
  state.setCache c (qcow2CacheFindEntryToReplace (state.cache c)).cache

theorem keeps_scanned : Keeps state (state.scanned c) := by
  have hits := findEntryToReplace_sameButHits (state.cache c)
  exact keeps_setCache hits.size hits.depends hits.dependsOnFlush hits.dirty hits.offset

theorem settles_scanned (acyclic : state.Acyclic) (bound : i < (state.cache c).size) :
    Settles g (state.scanned c) ((state.scanned c).entryFlush g c i) :=
  settles_entryFlush g (keeps_scanned.acyclic acyclic) (by rw [keeps_scanned.size]; exact bound)

/-- A lookup hits, replaces an unreferenced slot, or finds none and aborts. -/
theorem qcow2CacheDoGet_cases (quiet : state.Quiet) (acyclic : state.Acyclic) (offset : Nat)
    (readFromDisk : Bool) :
    (∃ i, (state.cache c).lookup offset = some i ∧
      qcow2CacheDoGet g c offset readFromDisk state = (.ok i, state.taken c i)) ∨
    (∃ i, (state.cache c).lookup offset = none ∧ i < (state.cache c).size ∧
      ((state.cache c).entries i).ref = 0 ∧
      qcow2CacheDoGet g c offset readFromDisk state =
        (.ok i, ((state.scanned c).entryFlush g c i).refilled c i offset readFromDisk)) ∨
    ((state.cache c).lookup offset = none ∧
      (qcow2CacheFindEntryToReplace (state.cache c)).minIndex = none ∧
      qcow2CacheDoGet g c offset readFromDisk state = (.abort, state.scanned c)) := by
  cases found : (state.cache c).lookup offset with
  | some i =>
    refine .inl ⟨i, rfl, ?_⟩
    rw [qcow2CacheDoGet, get_bind, found]
    exact takeReference_ok i
  | none =>
    right
    have miss : qcow2CacheDoGet g c offset readFromDisk state =
        (qcow2CacheFindEntryToReplace (state.cache c)).minIndex.elim abort
          (replaceEntry g c · offset readFromDisk) (state.scanned c) := by
      rw [qcow2CacheDoGet, get_bind, found]
      simp only [modify_bind]
      cases (qcow2CacheFindEntryToReplace (state.cache c)).minIndex <;> rfl
    cases chosen : (qcow2CacheFindEntryToReplace (state.cache c)).minIndex with
    | none =>
      rw [chosen] at miss
      exact .inr ⟨rfl, rfl, miss⟩
    | some i =>
      obtain ⟨bound, unreferenced⟩ := findEntryToReplace_minIndex chosen
      refine .inl ⟨i, rfl, bound, unreferenced, ?_⟩
      rw [chosen] at miss
      rw [miss]
      apply replaceEntry_ok g (keeps_scanned.quiet quiet)
        (keeps_scanned.acyclic acyclic)
      rw [keeps_scanned.size]
      exact bound

section

variable (quiet : state.Quiet) (acyclic : state.Acyclic)

include quiet acyclic

theorem cacheSteps_doGet (offset : Nat) (readFromDisk : Bool) :
    CacheSteps g state (qcow2CacheDoGet g c offset readFromDisk state).2 ∧
      (qcow2CacheDoGet g c offset readFromDisk state).1 ≠ .hang := by
  rcases qcow2CacheDoGet_cases g quiet acyclic offset readFromDisk (c := c) with
    ⟨i, -, run⟩ | ⟨i, -, bound, -, run⟩ | ⟨-, -, run⟩
  · rw [run]
    exact ⟨.single (.keep (keeps_taken i)), nofun⟩
  · rw [run]
    have flushed := settles_scanned g acyclic bound
    refine ⟨.trans (.single (.keep keeps_scanned)) (flushed.cacheSteps.tail (.keep ?_)), nofun⟩
    exact keeps_updateEntry fun unsaved => absurd unsaved (entryFlush_saved g _ i)
  · rw [run]
    exact ⟨.single (.keep keeps_scanned), nofun⟩

theorem qcow2CacheFlushDependency_ok {dependency : CacheId}
    (depends : (state.cache c).depends = some dependency) :
    qcow2CacheFlushDependency g c dependency state = (.ok (), state.settleBefore g c) := by
  have run := settleBeforeWith_ok g 2 quiet acyclic (c := c)
  rwa [settleBeforeWith, get_bind, depends] at run

/-- Dropping a dependency is write-back and leaves the cache with the kept one at most. -/
theorem dropDependency_ok (kept : Option CacheId) :
    ∃ after, dropDependency g c kept state = (.ok (), after) ∧ Settles g state after ∧
      ((after.cache c).depends = none ∨ (after.cache c).depends = kept) := by
  rw [dropDependency, get_bind]
  cases depends : (state.cache c).depends with
  | none => exact ⟨state, rfl, .refl, .inl depends⟩
  | some next =>
    by_cases same : some next = kept
    · exact ⟨state, by simp [same], .refl, .inr (depends.trans same)⟩
    · obtain ⟨steps, free, -⟩ := settles_settleBefore g acyclic (c := c)
      exact ⟨_, by simpa [same] using qcow2CacheFlushDependency_ok g quiet acyclic depends,
        steps, .inl free⟩

theorem qcow2CacheSetDependency_ok (dependency : CacheId) :
    ∃ middle, qcow2CacheSetDependency g c dependency state =
        (.ok (), middle.updateCache c fun cache => { cache with depends := some dependency }) ∧
      Settles g state middle ∧ (middle.cache dependency).depends = none := by
  obtain ⟨first, firstRun, firstSteps, firstDepends⟩ :=
    dropDependency_ok g quiet acyclic none (c := dependency)
  have firstSame := firstSteps.sameTables
  obtain ⟨second, secondRun, secondSteps, -⟩ :=
    dropDependency_ok g (firstSame.quiet quiet) (firstSame.acyclic acyclic) (some dependency)
  refine ⟨second, ?_, firstSteps.trans secondSteps, secondSteps.sameTables.free ?_⟩
  · rw [qcow2CacheSetDependency, bind_of_ok firstRun, bind_of_ok secondRun]
    rfl
  · simpa using firstDepends

theorem qcow2CacheSetWritethrough_steps (enable : Bool) :
    ∃ middle, qcow2CacheSetWritethrough g c enable state =
        (.ok (state.cache c).writethrough,
          middle.updateCache c fun cache => { cache with writethrough := enable }) ∧
      Settles g state middle := by
  rw [qcow2CacheSetWritethrough, get_bind]
  by_cases flushFirst : (!(state.cache c).writethrough && enable) = true
  · refine ⟨state.flush g c, ?_, settles_flush g acyclic⟩
    have run : flushForWritethrough g c (state.cache c).writethrough enable state =
        (.ok (), state.flush g c) := by
      rw [flushForWritethrough, if_pos flushFirst, bind_of_ok
        (attempt_of_ok (qcow2CacheFlush_ok g quiet acyclic))]
      rfl
    rw [bind_of_ok run]
    rfl
  · refine ⟨state, ?_, .refl⟩
    have run : flushForWritethrough g c (state.cache c).writethrough enable state =
        (.ok (), state) := by
      rw [flushForWritethrough, if_neg flushFirst]
      rfl
    rw [bind_of_ok run]
    rfl

end

theorem keeps_setWritethrough (enable : Bool) :
    Keeps state (state.updateCache c fun cache => { cache with writethrough := enable }) :=
  keeps_setCache rfl rfl rfl (fun _ => rfl) fun _ => rfl

theorem qcow2CachePut_cases (quiet : state.Quiet) (acyclic : state.Acyclic) (i : Nat) :
    ((state.cache c).size ≤ i ∧ qcow2CachePut g c i state = (.error .ENOENT, state)) ∨
    (i < (state.cache c).size ∧ ((state.cache c).entries i).ref = 0 ∧
      qcow2CachePut g c i state = (.abort, state)) ∨
    (i < (state.cache c).size ∧ ((state.cache c).entries i).ref ≠ 0 ∧
      qcow2CachePut g c i state =
        (.ok (), if (state.cache c).writethrough then (state.returned c i).entryFlush g c i
          else state.returned c i)) := by
  rw [qcow2CachePut, get_bind]
  by_cases unknown : (state.cache c).size ≤ i
  · exact .inl ⟨unknown, by rw [if_pos unknown]; rfl⟩
  · right
    have bound : i < (state.cache c).size := by omega
    rw [if_neg unknown]
    by_cases unreferenced : ((state.cache c).entries i).ref = 0
    · exact .inl ⟨bound, unreferenced, by rw [if_pos unreferenced]; rfl⟩
    · refine .inr ⟨bound, unreferenced, ?_⟩
      have returned : Keeps state (state.returned c i) := keeps_returned i
      rw [if_neg unreferenced, modify_bind]
      split
      · exact qcow2CacheEntryFlush_ok g (returned.quiet quiet)
          (returned.acyclic acyclic) i
      · rfl

theorem discardValue_snd {α : Type} (program : CacheProg α) (state : CacheState) :
    (discardValue program state).2 = (program state).2 := by
  rw [discardValue, bind_apply]
  rcases program state with ⟨_ | _ | _ | _, after⟩ <;> rfl

theorem discardValue_hang {α : Type} {program : CacheProg α} {state : CacheState}
    (returns : (program state).1 ≠ .hang) : (discardValue program state).1 ≠ .hang := by
  rw [discardValue, bind_apply]
  rcases run : program state with ⟨_ | _ | _ | _, after⟩
  all_goals simp_all

theorem CacheOp.call_steps (op : CacheOp) (quiet : state.Quiet) (acyclic : state.Acyclic) :
    CacheSteps g state (op.call g state).2 ∧ (op.call g state).1 ≠ .hang := by
  cases op with
  | get c offset =>
    rw [call, discardValue_snd]
    exact (cacheSteps_doGet g quiet acyclic offset true).imp_right discardValue_hang
  | getEmpty c offset =>
    rw [call, discardValue_snd]
    exact (cacheSteps_doGet g quiet acyclic offset false).imp_right discardValue_hang
  | modify c i change =>
    refine ⟨.single (.keep ?_), by simp [call, modifyTable]⟩
    exact keeps_updateEntry fun unsaved => ⟨unsaved.1, rfl⟩
  | markDirty c i =>
    rw [call, qcow2CacheEntryMarkDirty, get_bind]
    split
    · exact ⟨.refl, by simp⟩
    · exact ⟨.single (.keep (keeps_updateEntry fun _ => ⟨rfl, rfl⟩)), by simp⟩
  | put c i =>
    have returned : Keeps state (state.returned c i) := keeps_returned i
    rcases qcow2CachePut_cases g quiet acyclic i (c := c) with
      ⟨-, run⟩ | ⟨-, -, run⟩ | ⟨bound, -, run⟩
    · simpa [call, run] using Relation.ReflTransGen.refl
    · simpa [call, run] using Relation.ReflTransGen.refl
    · rw [call, run]
      refine ⟨.trans (.single (.keep returned)) ?_, by simp⟩
      split
      · exact (settles_entryFlush g (returned.acyclic acyclic)
          (by rw [returned.size]; exact bound)).cacheSteps
      · exact .refl
  | flush c =>
    rw [call, qcow2CacheFlush_ok g quiet acyclic]
    exact ⟨(settles_flush g acyclic).cacheSteps, by simp⟩
  | setDependency c dependency distinct =>
    obtain ⟨middle, run, steps, free⟩ :=
      qcow2CacheSetDependency_ok g quiet acyclic dependency (c := c)
    rw [call, run]
    exact ⟨steps.cacheSteps.tail (.setDependency distinct free), by simp⟩
  | dependsOnFlush c => exact ⟨.single .dependsOnFlush, by simp [call, qcow2CacheDependsOnFlush]⟩
  | setWritethrough c enable =>
    obtain ⟨middle, run, steps⟩ :=
      qcow2CacheSetWritethrough_steps g quiet acyclic enable (c := c)
    rw [call, discardValue_snd, run]
    exact ⟨steps.cacheSteps.tail (.keep (keeps_setWritethrough enable)),
      discardValue_hang (by simp [run])⟩

theorem runCacheOps_steps (ops : List CacheOp) {state after : CacheState} (quiet : state.Quiet)
    (acyclic : state.Acyclic) (run : runCacheOps g ops state = some after) :
    CacheSteps g state after := by
  induction ops generalizing state with
  | nil =>
    obtain rfl : state = after := by simpa [runCacheOps] using run
    exact .refl
  | cons op rest ih =>
    have first := (CacheOp.call_steps g op quiet acyclic).1
    rw [runCacheOps] at run
    rcases call : op.call g state with ⟨outcome, middle⟩
    rw [call] at first run
    have later := ih (first.quiet quiet) (first.acyclic acyclic)
    cases outcome with
    | ok | error => exact first.trans (later run)
    | abort | hang => cases run

end Calls

end Qemu.Qcow2
