import Qemu.Qcow2.CacheRun

/-!
# Ordered write-back between the two caches

A dependency between the caches is a promise about the order of the requests that reach the file.
For a fixed table that was unsaved when the dependency was set, the promise is carried through every
cache step in one of two forms: nothing of the dependent cache has been written and the promise is
still recorded in the caches, or the table and a barrier have reached the file first.
-/

namespace Qemu.Qcow2

open Block CacheState Prog List BlockFile CacheOp

variable {state after : CacheState} {later : List IoEvent} {state : CacheState} {event : IoEvent}

variable {after : CacheState} {c : CacheId}

def WritesTableOf (c : CacheId) (event : IoEvent) : Prop :=
  ∃ offset count, event = .pwrite c.updateEvent offset count

theorem not_writesTableOf_flush (c : CacheId) : ¬WritesTableOf c .flush := by
  rintro ⟨offset, count, same⟩
  cases same

theorem writesTableOf_pwrite {other : CacheId} {offset count : Nat}
    (writes : WritesTableOf c (.pwrite other.updateEvent offset count)) : other = c := by
  obtain ⟨_, _, same⟩ := writes
  injection same with site
  cases c <;> cases other <;> first | rfl | cases site

/-- The cache other than `c` and different from it is unique. -/
theorem eq_of_ne_of_ne {first second : CacheId} (left : first ≠ c) (right : second ≠ c) :
    first = second := by
  cases c <;> cases first <;> cases second <;> first | rfl | exact absurd rfl left | exact absurd rfl right

theorem Settle.events {g : Geometry} {before : CacheState} (step : Settle g before after) :
    ∃ event, after.file.events = before.file.events ++ [event] := by
  cases step with
  | @writeBack c i => exact ⟨.pwrite c.updateEvent ((before.cache c).entries i).offset g.clusterSize,
      by simp [CacheState.writeBack, written]⟩
  | barrier => exact ⟨.flush, rfl⟩
  | clearFlush => exact ⟨.flush, by simp [CacheState.clearFlush, CacheState.barrier, flushed]⟩
  | clearDependency => exact ⟨.flush, by simp [CacheState.clearDependency, CacheState.barrier,
      flushed]⟩

theorem CacheStep.events {g : Geometry} {before : CacheState} (step : CacheStep g before after) :
    ∃ added, after.file.events = before.file.events ++ added := by
  cases step with
  | settle step =>
    obtain ⟨event, events⟩ := step.events
    exact ⟨[event], events⟩
  | keep keeps => exact ⟨[], by rw [keeps.file, append_nil]⟩
  | setDependency | dependsOnFlush => exact ⟨[], by simp⟩

section Promise

variable (g : Geometry) (start : CacheState) (c dependency : CacheId) (offset : Nat)

/-- The promise is still recorded: the dependent cache has written nothing, and the table is
unsaved or has been written. -/
structure Recorded (state : CacheState) (later : List IoEvent) : Prop where
  silent : ∀ event ∈ later, ¬WritesTableOf c event
  depends : (state.cache c).depends = some dependency
  table : (∃ i < (state.cache dependency).size, state.Unsaved dependency i ∧
      ((state.cache dependency).entries i).offset = offset) ∨
    .pwrite dependency.updateEvent offset g.clusterSize ∈ later

/-- The promise has been kept: the table and then a barrier came before any dependent write. -/
def Redeemed (later : List IoEvent) : Prop :=
  ∃ first second, later = first ++ .flush :: second ∧ (∀ event ∈ first, ¬WritesTableOf c event) ∧
    .pwrite dependency.updateEvent offset g.clusterSize ∈ first

/-- What a dependency set in state `start` means for the table at `offset` in a later state. -/
def Promised (state : CacheState) : Prop :=
  ∃ later, state.file.events = start.file.events ++ later ∧
    (Recorded g c dependency offset state later ∨ Redeemed g c dependency offset later)

variable {g start c dependency offset}

theorem Redeemed.append (redeemed : Redeemed g c dependency offset later) (added : List IoEvent) :
    Redeemed g c dependency offset (later ++ added) := by
  obtain ⟨first, second, rfl, silent, written⟩ := redeemed
  exact ⟨first, second ++ added, by simp, silent, written⟩

theorem silent_append (silent : ∀ event ∈ later, ¬WritesTableOf c event) {added : IoEvent}
    (quiet : ¬WritesTableOf c added) : ∀ event ∈ later ++ [added], ¬WritesTableOf c event := by
  intro event member
  rcases mem_append.mp member with old | new
  · exact silent event old
  · rw [mem_singleton.mp new]
    exact quiet

theorem Recorded.not_free (recorded : Recorded g c dependency offset state later) :
    (state.cache c).depends ≠ none := by
  simp [recorded.depends]

/-- A barrier alone changes nothing about a recorded promise. -/
theorem Recorded.barrier (recorded : Recorded g c dependency offset state later)
    (depends : (after.cache c).depends = (state.cache c).depends)
    (size : (after.cache dependency).size = (state.cache dependency).size)
    (entries : (after.cache dependency).entries = (state.cache dependency).entries) :
    Recorded g c dependency offset after (later ++ [.flush]) where
  silent := silent_append recorded.silent (not_writesTableOf_flush c)
  depends := depends.trans recorded.depends
  table := by
    rcases recorded.table with ⟨i, bound, unsaved, at_offset⟩ | written
    · exact .inl ⟨i, by rwa [size], by simpa [Unsaved, entries] using unsaved,
        by rw [entries]; exact at_offset⟩
    · exact .inr (by simp [written])

/-- A step of the cache depended upon or a barrier keeps the promise, one way or the other. -/
theorem Recorded.settle (distinct : c ≠ dependency)
    (recorded : Recorded g c dependency offset state later) (step : Settle g state after) :
    ∃ event, after.file.events = state.file.events ++ [event] ∧
      (Recorded g c dependency offset after (later ++ [event]) ∨
        Redeemed g c dependency offset (later ++ [event])) := by
  cases step with
  | @writeBack other i bound unsaved free ordered =>
    have other_ne : other ≠ c := by
      rintro rfl
      exact recorded.not_free free
    obtain rfl : other = dependency := eq_of_ne_of_ne other_ne distinct.symm
    have same := sameTables_writeBack g state other i
    refine ⟨.pwrite other.updateEvent ((state.cache other).entries i).offset g.clusterSize,
      by simp [writeBack, written], .inl ⟨?_, ?_, ?_⟩⟩
    · exact silent_append recorded.silent fun writes => other_ne (writesTableOf_pwrite writes)
    · rw [← recorded.depends]
      simp [writeBack, cache_updateEntry_of_ne _ _ _ distinct]
    · rcases recorded.table with ⟨j, inside, tableUnsaved, at_offset⟩ | written
      · by_cases slot : j = i
        · subst slot
          exact .inr (by simp [at_offset])
        · refine .inl ⟨j, by rwa [same.size], ?_, ?_⟩
          · simpa [Unsaved, writeBack_entries, slot] using tableUnsaved
          · rw [same.offset]
            exact at_offset
      · exact .inr (by simp [written])
  | barrier =>
    refine ⟨.flush, rfl, .inl (recorded.barrier ?_ ?_ ?_)⟩ <;> simp [CacheState.barrier]
  | @clearFlush other free =>
    have other_ne : other ≠ c := by
      rintro rfl
      exact recorded.not_free free
    obtain rfl : other = dependency := eq_of_ne_of_ne other_ne distinct.symm
    refine ⟨.flush, by simp [clearFlush, CacheState.barrier, flushed],
      .inl (recorded.barrier ?_ ?_ ?_)⟩
    · simp [clearFlush, CacheState.barrier, cache_updateCache_of_ne _ _ distinct]
    · simp [clearFlush, CacheState.barrier]
    · simp [clearFlush, CacheState.barrier]
  | @clearDependency other next depends saved =>
    refine ⟨.flush, by simp [clearDependency, CacheState.barrier, flushed], ?_⟩
    by_cases same : other = c
    · subst same
      obtain rfl : dependency = next := by
        rw [recorded.depends] at depends
        simpa using depends
      right
      rcases recorded.table with ⟨i, bound, unsaved, -⟩ | written
      · exact absurd unsaved (saved i bound)
      · exact ⟨later, [], rfl, recorded.silent, written⟩
    · obtain rfl : other = dependency := eq_of_ne_of_ne same distinct.symm
      refine .inl (recorded.barrier ?_ ?_ ?_)
      · simp [clearDependency, CacheState.barrier, cache_updateCache_of_ne _ _ distinct]
      · simp [clearDependency, CacheState.barrier]
      · simp [clearDependency, CacheState.barrier]

theorem Recorded.still {state : CacheState} {later : List IoEvent}
    (recorded : Recorded g c dependency offset state later)
    (depends : (after.cache c).depends = some dependency)
    (size : (after.cache dependency).size = (state.cache dependency).size)
    (unsaved : ∀ i, state.Unsaved dependency i → after.Unsaved dependency i ∧
      ((after.cache dependency).entries i).offset =
        ((state.cache dependency).entries i).offset) :
    Recorded g c dependency offset after later where
  silent := recorded.silent
  depends := depends
  table := by
    rcases recorded.table with ⟨i, bound, tableUnsaved, at_offset⟩ | written
    · obtain ⟨still, same⟩ := unsaved i tableUnsaved
      exact .inl ⟨i, by rwa [size], still, same.trans at_offset⟩
    · exact .inr written

theorem Promised.step (distinct : c ≠ dependency)
    (promised : Promised g start c dependency offset state) (step : CacheStep g state after) :
    Promised g start c dependency offset after := by
  obtain ⟨later, events, recorded | redeemed⟩ := promised
  case inr =>
    obtain ⟨added, grown⟩ := step.events
    exact ⟨later ++ added, by rw [grown, events, append_assoc], .inr (redeemed.append added)⟩
  case inl =>
    cases step with
    | settle step =>
      obtain ⟨event, grown, outcome⟩ := recorded.settle distinct step
      exact ⟨later ++ [event], by rw [grown, events, append_assoc], outcome⟩
    | keep keeps =>
      refine ⟨later, by rw [keeps.file, events], .inl (recorded.still ?_ ?_ ?_)⟩
      · rw [keeps.depends, recorded.depends]
      · exact keeps.size dependency
      · exact keeps.unsaved dependency
    | @setDependency other next otherDistinct free =>
      have other_eq : other = c := by
        by_contra other_ne
        obtain rfl : other = dependency := eq_of_ne_of_ne other_ne distinct.symm
        obtain rfl : c = next := eq_of_ne_of_ne distinct otherDistinct.symm
        exact recorded.not_free free
      subst other_eq
      obtain rfl : dependency = next := eq_of_ne_of_ne distinct.symm otherDistinct.symm
      refine ⟨later, by simpa using events, .inl (recorded.still ?_ ?_ ?_)⟩
      · simp
      · rw [cache_updateCache_of_ne _ _ distinct.symm]
      · simp [Unsaved, cache_updateCache_of_ne _ _ distinct.symm]
    | @dependsOnFlush other =>
      refine ⟨later, by simpa using events, .inl (recorded.still ?_ ?_ ?_)⟩
      · rw [cache_updateCache, ← recorded.depends]
        split <;> rfl
      · rw [cache_updateCache]
        split <;> rfl
      · simp only [Unsaved, cache_updateCache]
        split <;> exact fun _ unsaved => ⟨unsaved, rfl⟩

theorem Promised.steps (distinct : c ≠ dependency)
    (promised : Promised g start c dependency offset state) (steps : CacheSteps g state after) :
    Promised g start c dependency offset after := by
  induction steps with
  | refl => exact promised
  | tail _ step ih => exact ih.step distinct step

/-- A dependent write comes after everything that was promised to precede it. -/
theorem precedes_write {first second before after : List IoEvent}
    (silent : ∀ event ∈ first, ¬WritesTableOf c event) (writes : WritesTableOf c event)
    (same : first ++ .flush :: second = before ++ event :: after) :
    ∃ between, before = first ++ .flush :: between := by
  rcases append_eq_append_iff.mp same with ⟨rest, before_eq, flush_eq⟩ | ⟨rest, first_eq, event_eq⟩
  · cases rest with
    | nil =>
      simp only [nil_append, cons.injEq] at flush_eq
      exact absurd (flush_eq.1 ▸ writes) (not_writesTableOf_flush c)
    | cons head between =>
      simp only [cons_append, cons.injEq] at flush_eq
      exact ⟨between, by rw [before_eq, flush_eq.1]⟩
  · cases rest with
    | nil =>
      simp only [nil_append, cons.injEq] at event_eq
      exact absurd (event_eq.1 ▸ writes) (not_writesTableOf_flush c)
    | cons head rest =>
      simp only [cons_append, cons.injEq] at event_eq
      refine absurd writes (silent event ?_)
      rw [first_eq, event_eq.1]
      simp

theorem Promised.ordered (promised : Promised g start c dependency offset state)
    {before after : List IoEvent}
    (events : state.file.events = start.file.events ++ (before ++ event :: after))
    (writes : WritesTableOf c event) :
    ∃ first second third, before =
      first ++ .pwrite dependency.updateEvent offset g.clusterSize :: second ++ .flush :: third := by
  obtain ⟨later, same, recorded | ⟨front, back, split, silent, written⟩⟩ := promised
  all_goals
    rw [same] at events
    have later_eq := append_cancel_left events
  · exact absurd writes (recorded.silent event (by simp [later_eq]))
  · obtain ⟨between, rfl⟩ := precedes_write silent writes (split.symm.trans later_eq)
    obtain ⟨first, second, rfl⟩ := append_of_mem written
    exact ⟨first, second, between, rfl⟩

end Promise

section Barrier

variable {g : Geometry} {start : CacheState} {c : CacheId}

/-- What a barrier requested in state `start` means in a later state: it is still due and nothing
of the cache has been written, or it has come before any such write. -/
def BarrierPromised (start : CacheState) (c : CacheId) (state : CacheState) : Prop :=
  ∃ later, state.file.events = start.file.events ++ later ∧
    ((∀ event ∈ later, ¬WritesTableOf c event) ∧ (state.cache c).dependsOnFlush = true ∨
      ∃ first second, later = first ++ .flush :: second ∧ ∀ event ∈ first, ¬WritesTableOf c event)

theorem BarrierPromised.of_due (due : (start.cache c).dependsOnFlush = true) :
    BarrierPromised start c start :=
  ⟨[], (append_nil _).symm, .inl ⟨by simp, due⟩⟩

theorem BarrierPromised.settle (silent : ∀ event ∈ later, ¬WritesTableOf c event)
    (due : (state.cache c).dependsOnFlush = true)
    (events : state.file.events = start.file.events ++ later) (step : Settle g state after) :
    BarrierPromised start c after := by
  have barrier : ∀ {next : CacheState}, next.file.events = state.file.events ++ [.flush] →
      BarrierPromised start c next := fun grown =>
    ⟨later ++ [.flush], by rw [grown, events, append_assoc], .inr ⟨later, [], rfl, silent⟩⟩
  cases step with
  | @writeBack other i bound unsaved free ordered =>
    have other_ne : c ≠ other := by
      rintro rfl
      rw [due] at ordered
      cases ordered
    refine ⟨later ++ [.pwrite other.updateEvent ((state.cache other).entries i).offset
      g.clusterSize], ?_, .inl ⟨silent_append silent fun writes =>
        other_ne (writesTableOf_pwrite writes).symm, ?_⟩⟩
    · simp [writeBack, written, events]
    · rw [← due]
      simp [writeBack, cache_updateEntry_of_ne _ _ _ other_ne]
  | barrier => exact barrier rfl
  | clearFlush => exact barrier (by simp [clearFlush, CacheState.barrier, flushed])
  | clearDependency => exact barrier (by simp [clearDependency, CacheState.barrier, flushed])

theorem BarrierPromised.step (promised : BarrierPromised start c state)
    (step : CacheStep g state after) : BarrierPromised start c after := by
  obtain ⟨later, events, ⟨silent, due⟩ | ⟨first, second, rfl, silent⟩⟩ := promised
  case inr =>
    obtain ⟨added, grown⟩ := step.events
    exact ⟨first ++ .flush :: second ++ added, by rw [grown, events, append_assoc],
      .inr ⟨first, second ++ added, by simp, silent⟩⟩
  case inl =>
    cases step with
    | settle step => exact .settle silent due events step
    | keep keeps =>
      exact ⟨later, by rw [keeps.file, events], .inl ⟨silent, by rw [keeps.dependsOnFlush, due]⟩⟩
    | @setDependency other =>
      refine ⟨later, by simpa using events, .inl ⟨silent, ?_⟩⟩
      rw [cache_updateCache]
      split <;> exact due
    | @dependsOnFlush other =>
      refine ⟨later, by simpa using events, .inl ⟨silent, ?_⟩⟩
      rw [cache_updateCache]
      split
      · rfl
      · exact due

theorem BarrierPromised.steps (promised : BarrierPromised start c state)
    (steps : CacheSteps g state after) : BarrierPromised start c after := by
  induction steps with
  | refl => exact promised
  | tail _ step ih => exact ih.step step

theorem BarrierPromised.ordered (promised : BarrierPromised start c state)
    {before after : List IoEvent}
    (events : state.file.events = start.file.events ++ (before ++ event :: after))
    (writes : WritesTableOf c event) : .flush ∈ before := by
  obtain ⟨later, same, ⟨silent, -⟩ | ⟨front, back, split, silent⟩⟩ := promised
  all_goals
    rw [same] at events
    have later_eq := append_cancel_left events
  · exact absurd writes (silent event (by simp [later_eq]))
  · obtain ⟨between, rfl⟩ := precedes_write silent writes (split.symm.trans later_eq)
    simp

end Barrier

section InUse

variable {g : Geometry} {state : CacheState}

/-- Only slots that hold a table are dirty or referenced. -/
def CacheState.InUse (state : CacheState) : Prop :=
  ∀ c i, ((state.cache c).entries i).dirty = true ∨ 0 < ((state.cache c).entries i).ref →
    ((state.cache c).entries i).offset ≠ 0

/-- The calls which keep to the interface: tables are not at offset zero, which marks an empty
slot, and are marked dirty while they are held. -/
def CacheOp.Proper (state : CacheState) : CacheOp → Prop
  | .get _ offset | .getEmpty _ offset => offset ≠ 0
  | .markDirty c i => 0 < ((state.cache c).entries i).ref
  | _ => True

/-- Runs made of such calls. -/
def ProperRun (g : Geometry) : List CacheOp → CacheState → Prop
  | [], _ => True
  | op :: rest, state => op.Proper state ∧ ProperRun g rest (op.call g state).2

theorem inUse_updateEntry (inUse : state.InUse) {i : Nat}
    {update : Qcow2CachedTable → Qcow2CachedTable}
    (named : (update ((state.cache c).entries i)).dirty = true ∨
      0 < (update ((state.cache c).entries i)).ref →
        (update ((state.cache c).entries i)).offset ≠ 0) :
    (state.updateEntry c i update).InUse := by
  intro other j
  rw [updateEntry_entries]
  split
  · next here =>
    obtain ⟨rfl, rfl⟩ := here
    exact named
  · exact inUse other j

theorem inUse_updateCache (inUse : state.InUse) (c : CacheId) {update : Qcow2Cache → Qcow2Cache}
    (dirty : ∀ i, ((update (state.cache c)).entries i).dirty = ((state.cache c).entries i).dirty)
    (offset : ∀ i, ((update (state.cache c)).entries i).offset = ((state.cache c).entries i).offset)
    (ref : ∀ i, ((update (state.cache c)).entries i).ref = ((state.cache c).entries i).ref) :
    (state.updateCache c update).InUse := by
  intro other i
  rw [cache_updateCache]
  split
  · next same =>
    subst same
    rw [dirty, offset, ref]
    exact inUse other i
  · exact inUse other i

theorem SameTables.inUse (same : SameTables state after) (inUse : state.InUse) : after.InUse := by
  intro c i used
  rw [same.offset]
  refine inUse c i (used.imp (same.dirty c i) fun held => ?_)
  rwa [same.ref] at held

theorem inUse_scanned (inUse : state.InUse) (c : CacheId) : (state.scanned c).InUse := by
  have hits := findEntryToReplace_sameButHits (state.cache c)
  have same : state.scanned c =
      state.updateCache c fun cache => (qcow2CacheFindEntryToReplace cache).cache := rfl
  rw [same]
  exact inUse_updateCache inUse c hits.dirty hits.offset hits.ref

theorem inUse_doGet (quiet : state.Quiet) (acyclic : state.Acyclic) (inUse : state.InUse)
    (c : CacheId) {offset : Nat} (nonzero : offset ≠ 0) (readFromDisk : Bool) :
    (qcow2CacheDoGet g c offset readFromDisk state).2.InUse := by
  rcases qcow2CacheDoGet_cases g quiet acyclic offset readFromDisk (c := c) with
    ⟨i, found, run⟩ | ⟨i, -, bound, -, run⟩ | ⟨-, -, run⟩
  · rw [run]
    have holds : ((state.cache c).entries i).offset = offset := by
      simpa using find?_some found
    exact inUse_updateEntry inUse fun _ => by simpa [holds] using nonzero
  · rw [run]
    have flushed := settles_scanned g acyclic bound
    exact inUse_updateEntry (flushed.sameTables.inUse (inUse_scanned inUse c)) fun _ => nonzero
  · rw [run]
    exact inUse_scanned inUse c

theorem inUse_put (quiet : state.Quiet) (acyclic : state.Acyclic) (inUse : state.InUse)
    (c : CacheId) (i : Nat) : (qcow2CachePut g c i state).2.InUse := by
  have returned : (state.returned c i).InUse :=
    inUse_updateEntry inUse fun used => inUse c i (used.imp_right fun held => by
      dsimp only at held
      omega)
  have keeps : Keeps state (state.returned c i) := keeps_returned i
  rcases qcow2CachePut_cases g quiet acyclic i (c := c) with
    ⟨-, run⟩ | ⟨-, -, run⟩ | ⟨bound, -, run⟩
  · rwa [run]
  · rwa [run]
  · rw [run]
    split
    · refine SameTables.inUse (settles_entryFlush g (keeps.acyclic acyclic) ?_).sameTables returned
      rw [keeps.size]
      exact bound
    · exact returned

theorem CacheOp.call_inUse (op : CacheOp) (quiet : state.Quiet) (acyclic : state.Acyclic)
    (proper : op.Proper state) (inUse : state.InUse) : (op.call g state).2.InUse := by
  cases op with
  | get c offset =>
    rw [call, discardValue_snd]
    exact inUse_doGet quiet acyclic inUse c proper true
  | getEmpty c offset =>
    rw [call, discardValue_snd]
    exact inUse_doGet quiet acyclic inUse c proper false
  | modify c i change => exact inUse_updateEntry inUse (inUse c i)
  | markDirty c i =>
    rw [call, qcow2CacheEntryMarkDirty, get_bind]
    split
    · exact inUse
    · exact inUse_updateEntry inUse fun _ => inUse c i (.inr proper)
  | put c i => exact inUse_put quiet acyclic inUse c i
  | flush c =>
    rw [call, qcow2CacheFlush_ok g quiet acyclic]
    exact (settles_flush g acyclic).sameTables.inUse inUse
  | setDependency c dependency distinct =>
    obtain ⟨middle, run, steps, -⟩ :=
      qcow2CacheSetDependency_ok g quiet acyclic dependency (c := c)
    rw [call, run]
    exact inUse_updateCache (steps.sameTables.inUse inUse) c (fun _ => rfl) (fun _ => rfl)
      fun _ => rfl
  | dependsOnFlush c =>
    exact inUse_updateCache inUse c (fun _ => rfl) (fun _ => rfl) fun _ => rfl
  | setWritethrough c enable =>
    obtain ⟨middle, run, steps⟩ := qcow2CacheSetWritethrough_steps g quiet acyclic enable (c := c)
    rw [call, discardValue_snd, run]
    exact inUse_updateCache (steps.sameTables.inUse inUse) c (fun _ => rfl) (fun _ => rfl)
      fun _ => rfl

theorem runCacheOps_inUse (ops : List CacheOp) (quiet : state.Quiet) (acyclic : state.Acyclic)
    (proper : ProperRun g ops state) (inUse : state.InUse)
    (run : runCacheOps g ops state = some after) : after.InUse := by
  induction ops generalizing state with
  | nil =>
    obtain rfl : state = after := by simpa [runCacheOps] using run
    exact inUse
  | cons op rest ih =>
    obtain ⟨first, later⟩ := proper
    have steps := (call_steps g op quiet acyclic).1
    have next := op.call_inUse quiet acyclic first inUse (g := g)
    rw [runCacheOps] at run
    rcases call : op.call g state with ⟨outcome, middle⟩
    rw [call] at run steps next later
    cases outcome with
    | ok | error => exact ih (steps.quiet quiet) (steps.acyclic acyclic) later next run
    | abort | hang => cases run

end InUse

section Untouched

variable (g : Geometry) {c other : CacheId} {state : CacheState}

/-- Setting a dependency writes no table of the cache to be depended upon. -/
theorem setDependency_entries (quiet : state.Quiet) (acyclic : state.Acyclic) (distinct : c ≠ other)
    {set : CacheState} (run : qcow2CacheSetDependency g c other state = (.ok (), set)) :
    (set.cache other).entries = (state.cache other).entries := by
  have first : ∃ middle, dropDependency g other none state = (.ok (), middle) ∧
      (middle.cache other).entries = (state.cache other).entries ∧
      SameTables state middle := by
    rw [dropDependency, get_bind]
    cases depends : (state.cache other).depends with
    | none => exact ⟨state, rfl, rfl, .refl state⟩
    | some next =>
      have other_ne := (acyclic other next depends).1
      refine ⟨_, qcow2CacheFlushDependency_ok g quiet acyclic depends, ?_,
        (settles_settleBefore g acyclic).1.sameTables⟩
      simp only [settleBefore, depends, clearDependency,
        cache_updateCache_self, plainFlush_cache_of_ne g other_ne.symm]
  obtain ⟨middle, firstRun, entries, same⟩ := first
  have second : dropDependency g c (some other) middle = (.ok (), middle) := by
    rw [dropDependency, get_bind]
    cases depends : (middle.cache c).depends with
    | none => rfl
    | some next =>
      have next_ne := (same.acyclic acyclic c next depends).1
      rw [eq_of_ne_of_ne next_ne distinct.symm]
      simp
  rw [qcow2CacheSetDependency, bind_of_ok firstRun, bind_of_ok second] at run
  obtain rfl : middle.updateCache c (fun cache => { cache with depends := some other }) = set :=
    congrArg Prod.snd run
  rw [cache_updateCache_of_ne _ _ distinct.symm, entries]

end Untouched

/-- The caches of an image that has just been opened. -/
def createdCaches (file : BlockFile) (l2Size refcountSize : Nat) (writethrough : Bool)
    (l2Buffers refcountBuffers : Nat → Buffer) : CacheState where
  file := file
  l2TableCache := qcow2CacheCreate l2Size writethrough l2Buffers
  refcountBlockCache := qcow2CacheCreate refcountSize writethrough refcountBuffers

section Created

variable (file : BlockFile) (l2Size refcountSize : Nat) (writethrough : Bool)
  (l2Buffers refcountBuffers : Nat → Buffer)

theorem acyclic_createdCaches :
    (createdCaches file l2Size refcountSize writethrough l2Buffers refcountBuffers).Acyclic := by
  intro c dependency depends
  cases c <;> cases depends

theorem inUse_createdCaches :
    (createdCaches file l2Size refcountSize writethrough l2Buffers refcountBuffers).InUse := by
  intro c i used
  cases c <;> simp [createdCaches, cache, qcow2CacheCreate] at used

theorem CacheState.Acyclic.no_cycle (acyclic : state.Acyclic) (c : CacheId) :
    ¬Relation.TransGen (fun first second => (state.cache first).depends = some second) c c := by
  intro cycle
  obtain ⟨next, depends, rest⟩ := Relation.TransGen.head'_iff.mp cycle
  obtain ⟨distinct, free⟩ := acyclic c next depends
  rcases rest.cases_head with same | ⟨last, further, -⟩
  · exact distinct same
  · rw [free] at further
    cases further

/-- In every run of cache operations without I/O errors the dependencies have no cycle, so that a
flush returns.  After `qcow2_cache_set_dependency` each write of a table of the dependent cache is
preceded by the write of every table the other cache had to save and then by a barrier, and after
`qcow2_cache_depends_on_flush` it is preceded by a barrier. -/
theorem writeBack_ordered (g : Geometry) (quiet : file.faults = []) (ops : List CacheOp)
    (reached : CacheState)
    (run : runCacheOps g ops (createdCaches file l2Size refcountSize writethrough l2Buffers
      refcountBuffers) = some reached) :
    (∀ c, ¬Relation.TransGen (fun first second => (reached.cache first).depends = some second) c c) ∧
    (∀ c fuel, ∃ after, cacheFlushFuel g (fuel + 2) c reached = (.ok (), after)) ∧
    (∀ op : CacheOp, (op.call g reached).1 ≠ .hang) ∧
    (ProperRun g ops (createdCaches file l2Size refcountSize writethrough l2Buffers
      refcountBuffers) → ∀ c i, ((reached.cache c).entries i).dirty = true →
        reached.Unsaved c i) ∧
    (∀ c dependency, c ≠ dependency → ∃ set,
      qcow2CacheSetDependency g c dependency reached = (.ok (), set) ∧
      (set.cache dependency).entries = (reached.cache dependency).entries ∧
      ∀ later final, runCacheOps g later set = some final →
        ∀ i < (set.cache dependency).size, set.Unsaved dependency i →
          ∀ before event after, final.file.events = set.file.events ++ (before ++ event :: after) →
            WritesTableOf c event →
            ∃ first second third, before =
              first ++ .pwrite dependency.updateEvent ((set.cache dependency).entries i).offset
                g.clusterSize :: second ++ .flush :: third) ∧
    (∀ c, ∃ set, qcow2CacheDependsOnFlush c reached = (.ok (), set) ∧
      ∀ later final, runCacheOps g later set = some final →
        ∀ before event after, final.file.events = set.file.events ++ (before ++ event :: after) →
          WritesTableOf c event → .flush ∈ before) := by
  have created := acyclic_createdCaches file l2Size refcountSize writethrough l2Buffers
    refcountBuffers
  have createdQuiet : (createdCaches file l2Size refcountSize writethrough l2Buffers
    refcountBuffers).Quiet := quiet
  have steps := runCacheOps_steps g ops createdQuiet created run
  have reachedQuiet := steps.quiet createdQuiet
  have acyclic := steps.acyclic created
  refine ⟨acyclic.no_cycle, fun c fuel => ⟨_, cacheFlushFuel_ok g fuel reachedQuiet acyclic⟩,
    fun op => (op.call_steps g reachedQuiet acyclic).2, ?_, ?_, ?_⟩
  · intro proper c i dirty
    have inUse := runCacheOps_inUse ops createdQuiet created proper
      (inUse_createdCaches file l2Size refcountSize writethrough l2Buffers refcountBuffers) run
    exact ⟨dirty, inUse c i (.inl dirty)⟩
  · intro c dependency distinct
    obtain ⟨middle, ran, settled, free⟩ :=
      qcow2CacheSetDependency_ok g reachedQuiet acyclic dependency (c := c)
    refine ⟨_, ran, setDependency_entries g reachedQuiet acyclic distinct ran, ?_⟩
    · intro later final laterRun i bound unsaved before event after events writes
      have setStep : CacheSteps g reached _ :=
        settled.cacheSteps.tail (.setDependency distinct free)
      have finalSteps := runCacheOps_steps g later (setStep.quiet reachedQuiet)
        (setStep.acyclic acyclic) laterRun
      have promised : Promised g _ c dependency _ _ := ⟨[], (append_nil _).symm,
        .inl ⟨by simp, by simp, .inl ⟨i, bound, unsaved, rfl⟩⟩⟩
      exact (promised.steps distinct finalSteps).ordered events writes
  · intro c
    refine ⟨reached.updateCache c fun cache => { cache with dependsOnFlush := true }, rfl, ?_⟩
    intro later final laterRun before event after events writes
    have setStep : CacheSteps g reached _ := .single (.dependsOnFlush (c := c))
    have finalSteps := runCacheOps_steps g later (setStep.quiet reachedQuiet)
      (setStep.acyclic acyclic) laterRun
    have due : ((reached.updateCache c fun cache =>
        { cache with dependsOnFlush := true }).cache c).dependsOnFlush = true := by simp
    exact ((BarrierPromised.of_due due).steps finalSteps).ordered events writes

/-- A refcount block and an L2 table are dirty when the L2 cache is made to depend on the refcount
cache; flushing the L2 cache writes them in that order. -/
theorem writeBack_ordered_flush_l2 :
    ∃ reached set final before event after,
      runCacheOps ⟨9, by decide, by decide⟩ [.get .refcountBlock 512, .markDirty .refcountBlock 0,
        .get .l2Table 1024, .markDirty .l2Table 0]
        (createdCaches ⟨fun _ => 0, [], [], false⟩ 1 1 false (fun _ _ => 0) fun _ _ => 0) =
          some reached ∧
      qcow2CacheSetDependency ⟨9, by decide, by decide⟩ .l2Table .refcountBlock reached =
        (.ok (), set) ∧
      runCacheOps ⟨9, by decide, by decide⟩ [.flush .l2Table] set = some final ∧
      final.file.events = set.file.events ++ (before ++ event :: after) ∧
      WritesTableOf .l2Table event ∧
      ∃ first second third, before =
        first ++ .pwrite .refblockUpdatePart 512 512 :: second ++ .flush :: third := by
  obtain ⟨-, -, -, -, dependencies, -⟩ := writeBack_ordered ⟨fun _ => 0, [], [], false⟩ 1 1 false
    (fun _ _ => 0) (fun _ _ => 0) ⟨9, by decide, by decide⟩ rfl [.get .refcountBlock 512,
      .markDirty .refcountBlock 0, .get .l2Table 1024, .markDirty .l2Table 0] _ rfl
  obtain ⟨set, ran, -, ordered⟩ := dependencies .l2Table .refcountBlock (by decide)
  obtain rfl : _ = set := congrArg Prod.snd ran
  exact ⟨_, _, _, [.pwrite .refblockUpdatePart 512 512, .flush], .pwrite .l2Update 1024 512,
    [.flush], rfl, ran, rfl, rfl, ⟨1024, 512, rfl⟩,
    ordered [.flush .l2Table] _ rfl 0 (by decide) (by decide) _ _ [.flush] rfl ⟨1024, 512, rfl⟩⟩

end Created

end Qemu.Qcow2
