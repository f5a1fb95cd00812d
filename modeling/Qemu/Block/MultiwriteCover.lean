import Qemu.Block.Multiwrite

/-!
# What a batch of writes leaves on the disk

Merging cuts a request at the start of its successor in the sorted order.  A sector survives in the
request whose successor starts after it; one that is covered only by requests that are cut before it
is never written.
-/

namespace Qemu.Block

open Function List QemuIovec

variable {ω : Type} {req out next : BlockRequest ω} {x : Int}
  {before reqs sorted : List (BlockRequest ω)} {after : Batch ω}

/-! ## Requests -/

/-- A write request: a number of sectors and as many bytes. -/
structure BlockRequest.WellFormed (req : BlockRequest ω) : Prop where
  nonneg : 0 ≤ req.nbSectors
  length : (req.qiov.bytes.length : Int) = req.nbSectors * 512
  sized : req.qiov.Sized

theorem BlockRequest.WellFormed.data_length (wellFormed : req.WellFormed) (covers : req.Covers x) :
    (req.data x).length = 512 := by
  have length := wellFormed.length
  obtain ⟨lower, upper⟩ := covers
  rw [data, length_take, length_drop]
  omega

theorem BlockRequest.mem_sectors : x ∈ req.sectors ↔ req.Covers x := by
  rw [sectors, mem_map]
  constructor
  · rintro ⟨i, below, rfl⟩
    have bound := mem_range.mp below
    exact ⟨by omega, by omega⟩
  · rintro ⟨lower, upper⟩
    exact ⟨(x - req.sector).toNat, mem_range.mpr (by omega), by omega⟩

/-- A request that touches the one before it, with the sum of their lengths below 4 GiB. -/
structure Joins (out next : BlockRequest ω) : Prop where
  outWell : out.WellFormed
  nextWell : next.WellFormed
  after : out.sector ≤ next.sector
  touches : next.sector ≤ out.sector + out.nbSectors
  small : out.nbSectors + next.nbSectors < 2 ^ 23

theorem Joins.bytes (joins : Joins out next) :
    (mergedQiov out next).bytes =
      out.qiov.bytes.take ((next.sector - out.sector) * 512).toNat ++ next.qiov.bytes := by
  have nextNonneg := joins.nextWell.nonneg
  have touches := joins.touches
  have after := joins.after
  have small := joins.small
  have cut : ((next.sector - out.sector) * 512) % 2 ^ 32 = (next.sector - out.sector) * 512 :=
    Int.emod_eq_of_lt (by omega) (by omega)
  have length := joins.nextWell.length
  have full : next.qiov.size = next.qiov.bytes.length := by
    rw [joins.nextWell.sized]
    exact Nat.mod_eq_of_lt (by omega)
  simp only [mergedQiov, cut, if_neg (not_lt.mpr touches), bytes_concat,
    bytes_init, nil_append, full, take_length]

theorem Joins.bytes_length (joins : Joins out next) :
    ((mergedQiov out next).bytes.length : Int) =
      (next.sector + next.nbSectors - out.sector) * 512 := by
  have outLength := joins.outWell.length
  have nextLength := joins.nextWell.length
  have touches := joins.touches
  have after := joins.after
  rw [joins.bytes, length_append, length_take]
  omega

theorem Joins.sized (out next : BlockRequest ω) : (mergedQiov out next).Sized := by
  refine Sized.concat ?_ _ _
  split
  · exact (sized_init.concat _ _).add _
  · exact sized_init.concat _ _

section

variable (joins : Joins out next)

include joins

/-- The merged request goes from the start of the first to the end of the second. -/
theorem Joins.nbSectors :
    (mergeInto out next).nbSectors = next.sector + next.nbSectors - out.sector := by
  have length := joins.bytes_length
  have touches := joins.touches
  have small := joins.small
  have size : (mergedQiov out next).size = (mergedQiov out next).bytes.length := by
    rw [sized]
    exact Nat.mod_eq_of_lt (by omega)
  show ((mergedQiov out next).size : Int) / 512 = _
  omega

theorem Joins.wellFormed : (mergeInto out next).WellFormed where
  nonneg := by
    have nextNonneg := joins.nextWell.nonneg
    have after := joins.after
    rw [joins.nbSectors]
    omega
  length := by
    rw [joins.nbSectors]
    exact joins.bytes_length
  sized := sized out next

theorem Joins.data_before (lower : out.sector ≤ x)
    (upper : x < next.sector) : (mergeInto out next).data x = out.data x := by
  have outLength := joins.outWell.length
  have touches := joins.touches
  show ((mergedQiov out next).bytes.drop ((x - out.sector).toNat * 512)).take 512 = _
  rw [joins.bytes, drop_append_of_le_length (by rw [length_take]; omega),
    take_append_of_le_length (by rw [length_drop, length_take]; omega),
    drop_take, take_take, min_eq_left (by omega)]
  rfl

theorem Joins.data_after (lower : next.sector ≤ x) : (mergeInto out next).data x = next.data x := by
  have outLength := joins.outWell.length
  have touches := joins.touches
  have after := joins.after
  have cut : (out.qiov.bytes.take ((next.sector - out.sector) * 512).toNat).length =
      ((next.sector - out.sector) * 512).toNat := by
    rw [length_take]
    omega
  have offset : (x - out.sector).toNat * 512 =
      ((next.sector - out.sector) * 512).toNat + (x - next.sector).toNat * 512 := by
    omega
  show ((mergedQiov out next).bytes.drop ((x - out.sector).toNat * 512)).take 512 = _
  rw [joins.bytes, offset, drop_append, cut, drop_eq_nil_of_le (by omega),
    nil_append, Nat.add_sub_cancel_left]
  rfl

end

/-! ## Sectors that survive -/

/-- The vector that the requests so far have been merged into has no room for the next one. -/
def Refused (before : List (BlockRequest ω)) (next : BlockRequest ω) : Prop :=
  ∃ done out, before.foldl (mergeStep none) none = some (done, out) ∧
    iovMax < out.qiov.niov + next.qiov.niov + 1

section

variable (sorted : List (BlockRequest ω))

/-- A sector is covered by a request whose successor in the sorted order starts after it or is
refused. -/
def Settled (x : Int) : Prop :=
  ∃ before req next after, sorted = before ++ req :: next :: after ∧ req.Covers x ∧
    (x < next.sector ∨ Refused (before ++ [req]) next)

def LastCovers (x : Int) : Prop := ∃ before req, sorted = before ++ [req] ∧ req.Covers x

/-- A sector is covered by a request that has no successor in the sorted order, or whose successor
starts after it, or is refused because the vector is full. -/
def Kept (x : Int) : Prop :=
  ∃ before req after, sorted = before ++ req :: after ∧ req.Covers x ∧
    ∀ next rest, after = next :: rest → x < next.sector ∨ Refused (before ++ [req]) next

end

theorem kept_iff : Kept sorted x ↔ Settled sorted x ∨ LastCovers sorted x := by
  constructor
  · rintro ⟨before, req, after, split, covers, survives⟩
    cases after with
    | nil => exact .inr ⟨before, req, split, covers⟩
    | cons next rest => exact .inl ⟨before, req, next, rest, split, covers, survives next rest rfl⟩
  · rintro (⟨before, req, next, rest, split, covers, survives⟩ | ⟨before, req, split, covers⟩)
    · refine ⟨before, req, next :: rest, split, covers, ?_⟩
      rintro next' rest' same
      obtain ⟨rfl, rfl⟩ := cons_eq_cons.mp same
      exact survives
    · exact ⟨before, req, [], split, covers, nofun⟩

theorem lastCovers_concat : LastCovers (before ++ [req]) x ↔ req.Covers x := by
  constructor
  · rintro ⟨before', req', split, covers⟩
    obtain ⟨-, same⟩ := append_inj' split rfl
    obtain rfl : req = req' := by simpa using same
    exact covers
  · intro covers
    exact ⟨before, req, rfl, covers⟩

/-- A further request settles what the one before it covers up to its start. -/
theorem settled_concat :
    Settled (before ++ [req] ++ [next]) x ↔
      Settled (before ++ [req]) x ∨
        req.Covers x ∧ (x < next.sector ∨ Refused (before ++ [req]) next) := by
  constructor
  · rintro ⟨earlier, req', next', after, split, covers, survives⟩
    rcases eq_nil_or_concat after with rfl | ⟨middle, last, rfl⟩
    · have ends : before ++ [req, next] = earlier ++ [req', next'] := by simpa using split
      obtain ⟨rfl, same⟩ := append_inj' ends rfl
      obtain ⟨rfl, rfl⟩ : req = req' ∧ next = next' := by simpa using same
      exact .inr ⟨covers, survives⟩
    · have ends : (before ++ [req]) ++ [next] = (earlier ++ req' :: next' :: middle) ++ [last] := by
        simpa using split
      obtain ⟨inner, -⟩ := append_inj' ends rfl
      exact .inl ⟨earlier, req', next', middle, inner, covers, survives⟩
  · rintro (⟨earlier, req', next', after, split, covers, survives⟩ | ⟨covers, survives⟩)
    · exact ⟨earlier, req', next', after ++ [next], by simp [split], covers, survives⟩
    · exact ⟨before, req, next, [], by simp, covers, survives⟩

theorem not_settled_singleton : ¬ Settled [req] x := by
  rintro ⟨before, req', next', after, split, -, -⟩
  have lengths := congrArg length split
  simp at lengths
  omega

/-! ## The loop of `multiwrite_merge` -/

/-- The sum of the lengths of the requests, in sectors. -/
def total (reqs : List (BlockRequest ω)) : Int := (reqs.map fun req => req.nbSectors).sum

@[simp] theorem total_concat (reqs : List (BlockRequest ω)) :
    total (reqs ++ [req]) = total reqs + req.nbSectors := by
  simp [total]

/-- What the loop has made of a part of the sorted batch that ends in `last`. -/
structure Merged (sorted done : List (BlockRequest ω)) (out last : BlockRequest ω) : Prop where
  wellFormed : out.WellFormed
  start : out.sector ≤ last.sector
  stop : out.sector + out.nbSectors = last.sector + last.nbSectors
  short : out.nbSectors ≤ total sorted
  doneWell : ∀ req ∈ done, req.WellFormed
  supplied : ∀ merged ∈ done ++ [out], ∀ x, merged.Covers x →
    ∃ req ∈ sorted, req.Covers x ∧ merged.data x = req.data x
  done_settled : ∀ merged ∈ done, ∀ x, merged.Covers x → Settled sorted x
  settled_covered : ∀ x, Settled sorted x → ∃ merged ∈ done ++ [out], merged.Covers x
  settled_before : ∀ x, Settled sorted x → last.sector ≤ x → ∃ merged ∈ done, merged.Covers x
  last_covered : ∀ x, out.Covers x → Kept sorted x

variable {done : List (BlockRequest ω)} {last : BlockRequest ω}

theorem Merged.covers (merged : Merged sorted done out last) (covers : last.Covers x) :
    out.Covers x := by
  have stop := merged.stop
  have upper := covers.2
  exact ⟨le_trans merged.start covers.1, by omega⟩

theorem compare_nonpos (ordered : multiwriteReqCompare out next ≤ 0) :
    out.sector ≤ next.sector := by
  by_contra later
  rw [multiwriteReqCompare, if_pos (by omega)] at ordered
  cases ordered

theorem Merged.single (wellFormed : req.WellFormed) : Merged [req] [] req req where
  wellFormed := wellFormed
  start := le_refl _
  stop := rfl
  short := by simp [total]
  doneWell := nofun
  supplied := by
    intro merged member x covers
    obtain rfl : merged = req := by simpa using member
    exact ⟨merged, mem_singleton_self merged, covers, rfl⟩
  done_settled := nofun
  settled_covered := fun x settled => absurd settled not_settled_singleton
  settled_before := fun x settled => absurd settled not_settled_singleton
  last_covered := fun x covers => kept_iff.mpr (.inr ⟨[], req, rfl, covers⟩)

/-- A request that is merged: the sectors of the group after its start are now its own. -/
theorem Merged.merge (merged : Merged (before ++ [last]) done out last) (joins : Joins out next)
    (ordered : last.sector ≤ next.sector) (fits : ¬ Refused (before ++ [last]) next) :
    Merged (before ++ [last] ++ [next]) done (mergeInto out next) next := by
  have nextNonneg := joins.nextWell.nonneg
  have touches := joins.touches
  have sameStart : (mergeInto out next).sector = out.sector := rfl
  have nbSectors := joins.nbSectors
  have settled_next : ∀ x, Settled (before ++ [last] ++ [next]) x → next.sector ≤ x →
      ∃ merged ∈ done, merged.Covers x := by
    intro x settled beyond
    rcases settled_concat.mp settled with settled | ⟨-, upTo | refused⟩
    · exact merged.settled_before x settled (by omega)
    · omega
    · exact absurd refused fits
  have nextCovers : ∀ {x}, (mergeInto out next).Covers x → next.sector ≤ x → next.Covers x :=
    fun covers beyond => ⟨beyond, by have upper := covers.2; omega⟩
  have outCovers : ∀ {x}, (mergeInto out next).Covers x → x < next.sector → out.Covers x :=
    fun covers upTo => ⟨covers.1, by omega⟩
  refine ⟨joins.wellFormed, ?_, ?_, ?_, merged.doneWell, ?_, ?_, ?_, settled_next, ?_⟩
  · exact joins.after
  · omega
  · have short := merged.short
    rw [total_concat]
    omega
  · intro group member x covers
    rcases mem_append.mp member with finished | current
    · obtain ⟨req, source, supplies⟩ :=
        merged.supplied group (mem_append_left _ finished) x covers
      exact ⟨req, mem_append_left _ source, supplies⟩
    · obtain rfl := mem_singleton.mp current
      by_cases beyond : next.sector ≤ x
      · exact ⟨next, mem_concat_self, nextCovers covers beyond, joins.data_after beyond⟩
      · obtain ⟨req, source, reqCovers, supplies⟩ :=
          merged.supplied out mem_concat_self x (outCovers covers (by omega))
        refine ⟨req, mem_append_left _ source, reqCovers, ?_⟩
        rw [joins.data_before covers.1 (by omega), supplies]
  · intro group member x covers
    exact settled_concat.mpr (.inl (merged.done_settled group member x covers))
  · intro x settled
    by_cases beyond : next.sector ≤ x
    · obtain ⟨group, member, covers⟩ := settled_next x settled beyond
      exact ⟨group, mem_append_left _ member, covers⟩
    · have inGroup : out.sector ≤ x → (mergeInto out next).Covers x :=
        fun lower => ⟨lower, by omega⟩
      rcases settled_concat.mp settled with settled | ⟨covers, -⟩
      · obtain ⟨group, member, covers⟩ := merged.settled_covered x settled
        rcases mem_append.mp member with finished | last
        · exact ⟨group, mem_append_left _ finished, covers⟩
        · obtain rfl := mem_singleton.mp last
          exact ⟨_, mem_concat_self, inGroup covers.1⟩
      · exact ⟨_, mem_concat_self, inGroup (merged.covers covers).1⟩
  · intro x covers
    by_cases beyond : next.sector ≤ x
    · exact kept_iff.mpr (.inr (lastCovers_concat.mpr (nextCovers covers beyond)))
    · rcases kept_iff.mp (merged.last_covered x (outCovers covers (by omega))) with settled | last
      · exact kept_iff.mpr (.inl (settled_concat.mpr (.inl settled)))
      · have lastCovers := lastCovers_concat.mp last
        exact kept_iff.mpr (.inl (settled_concat.mpr (.inr ⟨lastCovers, .inl (by omega)⟩)))

/-- A request that is not merged: the group before it is closed. -/
theorem Merged.close (merged : Merged (before ++ [last]) done out last) (nextWell : next.WellFormed)
    (nonneg : 0 ≤ total (before ++ [last]))
    (apart : out.sector + out.nbSectors < next.sector ∨ Refused (before ++ [last]) next) :
    Merged (before ++ [last] ++ [next]) (done ++ [out]) next next := by
  have covered : ∀ x, Settled (before ++ [last] ++ [next]) x →
      ∃ merged ∈ done ++ [out], merged.Covers x := by
    intro x settled
    rcases settled_concat.mp settled with settled | ⟨covers, -⟩
    · exact merged.settled_covered x settled
    · exact ⟨out, mem_concat_self, merged.covers covers⟩
  refine ⟨nextWell, le_refl _, rfl, ?_, ?_, ?_, ?_, ?_, fun x settled _ => covered x settled, ?_⟩
  · rw [total_concat]
    omega
  · intro req member
    rcases mem_append.mp member with finished | current
    · exact merged.doneWell req finished
    · obtain rfl := mem_singleton.mp current
      exact merged.wellFormed
  · intro group member x covers
    rcases mem_append.mp member with finished | current
    · obtain ⟨req, source, supplies⟩ := merged.supplied group finished x covers
      exact ⟨req, mem_append_left _ source, supplies⟩
    · obtain rfl := mem_singleton.mp current
      exact ⟨group, mem_concat_self, covers, rfl⟩
  · intro group member x covers
    rcases mem_append.mp member with finished | current
    · exact settled_concat.mpr (.inl (merged.done_settled group finished x covers))
    · obtain rfl := mem_singleton.mp current
      rcases kept_iff.mp (merged.last_covered x covers) with settled | last
      · exact settled_concat.mpr (.inl settled)
      · have lastCovers := lastCovers_concat.mp last
        refine settled_concat.mpr (.inr ⟨lastCovers, ?_⟩)
        rcases apart with gap | refused
        · have upper := covers.2
          exact .inl (by omega)
        · exact .inr refused
  · intro x settled
    obtain ⟨group, member, covers⟩ := covered x settled
    exact ⟨group, mem_append_left _ member, covers⟩
  · intro x covers
    exact kept_iff.mpr (.inr (lastCovers_concat.mpr covers))

/-- A batch in the order in which the loop takes it. -/
structure Sorted (reqs : List (BlockRequest ω)) : Prop where
  wellFormed : ∀ req ∈ reqs, req.WellFormed
  ordered : reqs.Pairwise fun a b => multiwriteReqCompare a b ≤ 0
  small : total reqs < 2 ^ 23

theorem total_nonneg (wellFormed : ∀ req ∈ reqs, req.WellFormed) : 0 ≤ total reqs := by
  refine sum_nonneg fun length member => ?_
  obtain ⟨req, source, rfl⟩ := mem_map.mp member
  exact (wellFormed req source).nonneg

theorem Sorted.dropLast (sorted : Sorted (before ++ [next])) : Sorted before where
  wellFormed := fun req member => sorted.wellFormed req (mem_append_left _ member)
  ordered := (pairwise_append.mp sorted.ordered).1
  small := by
    have small := sorted.small
    have nonneg := (sorted.wellFormed next mem_concat_self).nonneg
    rw [total_concat] at small
    omega

theorem merged_of_sorted (before : List (BlockRequest ω)) (last : BlockRequest ω)
    (sorted : Sorted (before ++ [last])) :
    ∃ done out, (before ++ [last]).foldl (mergeStep none) none = some (done, out) ∧
      Merged (before ++ [last]) done out last := by
  induction before using reverseRecOn generalizing last with
  | nil =>
    exact ⟨[], last, rfl, .single (sorted.wellFormed last (mem_singleton_self last))⟩
  | append_singleton before previous induction =>
    obtain ⟨done, out, run, merged⟩ := induction previous sorted.dropLast
    have lastWell := sorted.wellFormed last mem_concat_self
    have ordered : previous.sector ≤ last.sector := compare_nonpos
      ((pairwise_append.mp sorted.ordered).2.2 previous (by simp) last (by simp))
    have step : (before ++ [previous] ++ [last]).foldl (mergeStep none) none =
        mergeStep none (some (done, out)) last := by
      rw [foldl_append, run]
      rfl
    have nonneg : 0 ≤ total (before ++ [previous]) := total_nonneg sorted.dropLast.wellFormed
    have refused_iff : Refused (before ++ [previous]) last ↔
        iovMax < out.qiov.niov + last.qiov.niov + 1 := by
      simp [Refused, run]
    rw [step, mergeStep]
    by_cases touches : last.sector ≤ out.sector + out.nbSectors
    · by_cases room : out.qiov.niov + last.qiov.niov + 1 ≤ iovMax
      · have accepted : mergeable none out last = true := by simp [mergeable, touches, room]
        have small := sorted.small
        have short := merged.short
        rw [total_concat] at small
        have joins : Joins out last := ⟨merged.wellFormed, lastWell,
          le_trans merged.start ordered, touches, by omega⟩
        refine ⟨done, mergeInto out last, by rw [if_pos accepted], ?_⟩
        exact merged.merge joins ordered fun refused =>
          not_lt.mpr room (refused_iff.mp refused)
      · have rejected : ¬ mergeable none out last = true := by simp [mergeable, room]
        refine ⟨done ++ [out], last, by rw [if_neg rejected], ?_⟩
        exact merged.close lastWell nonneg (.inr (refused_iff.mpr (not_le.mp room)))
    · have rejected : ¬ mergeable none out last = true := by simp [mergeable, touches]
      refine ⟨done ++ [out], last, by rw [if_neg rejected], ?_⟩
      exact merged.close lastWell nonneg (.inl (not_le.mp touches))

/-- The merged requests cover exactly the sectors that are kept, and what they write to a sector is
what some request of the batch supplies for it. -/
theorem multiwriteMerge_covers (batch : Sorted sorted) :
    (∀ x, (∃ merged ∈ multiwriteMerge none sorted, merged.Covers x) ↔ Kept sorted x) ∧
    ∀ merged ∈ multiwriteMerge none sorted, ∀ x, merged.Covers x →
      ∃ req ∈ sorted, req.Covers x ∧ merged.data x = req.data x := by
  rcases eq_nil_or_concat sorted with rfl | ⟨before, last, rfl⟩
  · constructor
    · intro x
      constructor
      · rintro ⟨merged, member, -⟩
        exact absurd member not_mem_nil
      · rintro ⟨before, req, after, split, -, -⟩
        exact absurd split (by simp)
    · nofun
  · rw [concat_eq_append] at batch ⊢
    obtain ⟨done, out, run, merged⟩ := merged_of_sorted before last batch
    have result : multiwriteMerge none (before ++ [last]) = done ++ [out] := by
      rw [multiwriteMerge, run]
    rw [result]
    refine ⟨fun x => ⟨?_, ?_⟩, merged.supplied⟩
    · rintro ⟨group, member, covers⟩
      rcases mem_append.mp member with finished | current
      · exact kept_iff.mpr (.inl (merged.done_settled group finished x covers))
      · obtain rfl := mem_singleton.mp current
        exact merged.last_covered x covers
    · intro kept
      rcases kept_iff.mp kept with settled | lastCovers
      · exact merged.settled_covered x settled
      · exact ⟨out, mem_concat_self, merged.covers (lastCovers_concat.mp lastCovers)⟩

/-! ## Runs -/

/-- What holds of a batch while its requests are in flight.  `merged` are the requests that remain
after merging, `disk` is the disk before the call. -/
structure Underway (merged : List (BlockRequest ω)) (handles : List ω)
    (disk : Int → List (BitVec 8)) (b : Batch ω) : Prop where
  known : ∀ req ∈ b.waiting, req ∈ merged
  flying : ∀ flight ∈ b.flights, flight.req ∈ merged ∧ ∀ x ∈ flight.left, flight.req.Covers x
  written : ∀ x, b.disk x = disk x ∨ ∃ req ∈ merged, req.Covers x ∧ b.disk x = req.data x
  pending : ∀ req ∈ merged, ∀ x, req.Covers x →
    req ∈ b.waiting ∨ (∃ flight ∈ b.flights, flight.req = req ∧ x ∈ flight.left) ∨
      ∃ other ∈ merged, other.Covers x ∧ b.disk x = other.data x
  noError : b.mcb.error = 0
  callbacks : b.mcb.callbacks = handles
  count : b.mcb.numRequests = b.flights.length + if b.dummy then 1 else 0
  calls : b.calls = if b.mcb.numRequests = 0 then handles.map fun handle => (handle, 0) else []
  closed : b.dummy = false → b.waiting = []

section Steps

variable {merged : List (BlockRequest ω)} {handles : List ω} {disk : Int → List (BitVec 8)}
  {b : Batch ω}

theorem underway_start {driver : MergeRequests ω}
    (perm : sorted.Perm reqs) :
    Underway (multiwriteMerge driver sorted) (reqs.map fun req => req.handle) disk
      (bdrvAioMultiwrite driver reqs sorted disk) where
  known := fun req member => member
  flying := nofun
  written := fun x => .inl rfl
  pending := fun req member x covers => .inl member
  noError := rfl
  callbacks := rfl
  count := by
    cases reqs with
    | nil | cons req rest => rfl
  calls := by
    cases reqs with
    | nil | cons req rest => rfl
  closed := by
    intro ended
    cases reqs with
    | nil =>
      obtain rfl := perm_nil.mp perm
      rfl
    | cons req rest => exact absurd ended (by simp [bdrvAioMultiwrite])

theorem multiwriteCb_zero (noError : b.mcb.error = 0) :
    multiwriteCb 0 b = { b with
      mcb := { b.mcb with numRequests := b.mcb.numRequests - 1 }
      calls := if b.mcb.numRequests - 1 = 0 then
        b.calls ++ b.mcb.callbacks.map fun handle => (handle, 0) else b.calls } := by
  simp only [multiwriteCb, multiwriteUserCb, lt_irrefl, false_and, if_false, noError]
  split
  · rfl
  · rfl

section

variable (state : Underway merged handles disk b)

include state

/-- A completion without an error, after which the given requests are still in flight. -/
theorem Underway.callback {flights : List (Flight ω)} {dummy : Bool}
    (remain : ∀ flight ∈ flights, flight ∈ b.flights)
    (landed : ∀ flight ∈ b.flights, ∀ x ∈ flight.left, flight ∈ flights)
    (count : b.mcb.numRequests - 1 = flights.length + if dummy then 1 else 0)
    (closed : dummy = false → b.waiting = []) :
    Underway merged handles disk
      (multiwriteCb 0 { b with flights := flights, dummy := dummy }) := by
  have busy : b.mcb.numRequests ≠ 0 := by
    split at count
    · omega
    · omega
  have silent : b.calls = [] := by rw [state.calls, if_neg busy]
  rw [multiwriteCb_zero (b := { b with flights := flights, dummy := dummy }) state.noError]
  refine { state with
    flying := fun flight member => state.flying flight (remain flight member)
    pending := ?_, count, calls := ?_, closed }
  · intro req member x covers
    rcases state.pending req member x covers with waits | ⟨flight, flies, same, left⟩ | done
    · exact .inl waits
    · exact .inr (.inl ⟨flight, landed flight flies x left, same, left⟩)
    · exact .inr (.inr done)
  · rw [silent, state.callbacks, nil_append]

theorem Underway.submit {rest : List (BlockRequest ω)} (next : b.waiting = req :: rest)
    (dummy : b.dummy = true) :
    Underway merged handles disk { b with
      waiting := rest
      submitted := b.submitted + 1
      flights := b.flights ++ [⟨req, req.sectors⟩]
      mcb := { b.mcb with numRequests := b.mcb.numRequests + 1 } } := by
  have count := state.count
  rw [dummy, if_pos rfl] at count
  have still : b.mcb.numRequests ≠ 0 := by omega
  have more : b.mcb.numRequests + 1 ≠ 0 := by omega
  have isMerged : req ∈ merged := state.known req (next ▸ mem_cons_self)
  refine ⟨?_, ?_, state.written, ?_, state.noError, state.callbacks, ?_, ?_, ?_⟩
  · intro other member
    exact state.known other (next ▸ mem_cons_of_mem _ member)
  · intro flight member
    rcases mem_append.mp member with before | new
    · exact state.flying flight before
    · obtain rfl := mem_singleton.mp new
      exact ⟨isMerged, fun x left => BlockRequest.mem_sectors.mp left⟩
  · intro other member x covers
    rcases state.pending other member x covers with waits | ⟨flight, flies, same, left⟩ | done
    · rw [next] at waits
      rcases mem_cons.mp waits with rfl | later
      · exact .inr (.inl ⟨⟨other, other.sectors⟩, mem_concat_self, rfl,
          BlockRequest.mem_sectors.mpr covers⟩)
      · exact .inl later
    · exact .inr (.inl ⟨flight, mem_append_left _ flies, same, left⟩)
    · exact .inr (.inr done)
  · simp only [length_append, length_singleton, dummy, if_true]
    omega
  · simp only [if_neg more]
    rw [state.calls, if_neg still]
  · intro ended
    rw [dummy] at ended
    cases ended

theorem Underway.land {before after : List (Flight ω)} {early late : List Int} {x : Int}
    (found : b.flights = before ++ ⟨req, early ++ x :: late⟩ :: after) :
    Underway merged handles disk { b with
      disk := update b.disk x (req.data x)
      flights := before ++ ⟨req, early ++ late⟩ :: after } := by
  have here : (⟨req, early ++ x :: late⟩ : Flight ω) ∈ b.flights := by
    rw [found]
    exact mem_append_cons_self
  obtain ⟨isMerged, covered⟩ := state.flying _ here
  have covers : req.Covers x := covered x mem_append_cons_self
  have count := state.count
  have lengths : b.flights.length = (before ++ ⟨req, early ++ late⟩ :: after).length := by
    rw [found]
    simp
  have shrinks : ∀ flight ∈ before ++ ⟨req, early ++ late⟩ :: after,
      ∃ old ∈ b.flights, old.req = flight.req ∧ ∀ y ∈ flight.left, y ∈ old.left := by
    intro flight member
    rcases mem_append.mp member with first | rest
    · exact ⟨flight, found ▸ mem_append_left _ first, rfl, fun y left => left⟩
    · rcases mem_cons.mp rest with rfl | last
      · refine ⟨_, here, rfl, fun y left => ?_⟩
        rcases mem_append.mp left with first | last
        · exact mem_append_left _ first
        · exact mem_append_right _ (mem_cons_of_mem x last)
      · exact ⟨flight, found ▸ mem_append_right _ (mem_cons_of_mem _ last), rfl,
          fun y left => left⟩
  have keeps : ∀ old ∈ b.flights, ∀ y ∈ old.left, y ≠ x →
      ∃ flight ∈ before ++ ⟨req, early ++ late⟩ :: after, flight.req = old.req ∧
        y ∈ flight.left := by
    intro old member y left other
    rw [found] at member
    rcases mem_append.mp member with first | rest
    · exact ⟨old, mem_append_left _ first, rfl, left⟩
    · rcases mem_cons.mp rest with rfl | last
      · refine ⟨_, mem_append_cons_self, rfl, ?_⟩
        rcases mem_append.mp left with first | last
        · exact mem_append_left _ first
        · rcases mem_cons.mp last with same | later
          · exact absurd same other
          · exact mem_append_right _ later
      · exact ⟨old, mem_append_right _ (mem_cons_of_mem _ last), rfl, left⟩
  refine { state with
    flying := ?_, written := ?_, pending := ?_, count := by rw [← lengths]; exact count }
  · intro flight member
    obtain ⟨old, inOld, same, subset⟩ := shrinks flight member
    obtain ⟨known, covered⟩ := state.flying old inOld
    exact ⟨same ▸ known, fun y left => same ▸ covered y (subset y left)⟩
  · intro y
    by_cases same : y = x
    · subst same
      exact .inr ⟨req, isMerged, covers, update_self _ _ _⟩
    · simp only [update_of_ne same]
      exact state.written y
  · intro other member y otherCovers
    by_cases same : y = x
    · subst same
      exact .inr (.inr ⟨req, isMerged, covers, update_self _ _ _⟩)
    · simp only [update_of_ne same]
      rcases state.pending other member y otherCovers with waits | ⟨old, flies, is, left⟩ | done
      · exact .inl waits
      · obtain ⟨flight, flies', is', left'⟩ := keeps old flies y left same
        exact .inr (.inl ⟨flight, flies', is'.trans is, left'⟩)
      · exact .inr (.inr done)

theorem Underway.complete {before after : List (Flight ω)}
    (found : b.flights = before ++ ⟨req, []⟩ :: after) :
    Underway merged handles disk (multiwriteCb 0 { b with flights := before ++ after }) := by
  refine @callback ω merged handles disk b state (before ++ after) b.dummy ?_ ?_ ?_
    state.closed
  · intro flight member
    rw [found]
    rcases mem_append.mp member with first | last
    · exact mem_append_left _ first
    · exact mem_append_right _ (mem_cons_of_mem _ last)
  · intro flight member x left
    rw [found] at member
    rcases mem_append.mp member with first | rest
    · exact mem_append_left _ first
    · rcases mem_cons.mp rest with rfl | last
      · exact absurd left not_mem_nil
      · exact mem_append_right _ last
  · have count := state.count
    rw [found] at count
    simp only [length_append, length_cons] at count ⊢
    omega

theorem Underway.finish (ended : b.waiting = []) (dummy : b.dummy = true) :
    Underway merged handles disk (multiwriteCb 0 { b with dummy := false }) := by
  refine state.callback (fun flight member => member) (fun flight member _ _ => member) ?_
    fun _ => ended
  have count := state.count
  rw [dummy, if_pos rfl] at count
  simp only [Bool.false_eq_true, if_false]
  omega

theorem Underway.step {event : BatchEvent} (good : event.Succeeds)
    (step : BatchStep b event after) : Underway merged handles disk after := by
  cases step with
  | submit next dummy => exact state.submit next dummy
  | refuseFirst | refuseLater => exact absurd good id
  | land found => exact state.land found
  | complete found =>
    obtain rfl : _ = (0 : Int) := good
    exact state.complete found
  | finish ended dummy => exact state.finish ended dummy

theorem Underway.run (run : GoodRun b after) : Underway merged handles disk after := by
  induction run with
  | start => exact state
  | next run good step induction => exact induction.step good step

end

/-- The steps a batch still has before it. -/
def Batch.work (b : Batch ω) : Nat :=
  (b.waiting.map fun req => req.sectors.length + 2).sum +
    (b.flights.map fun flight => flight.left.length + 1).sum + if b.dummy then 1 else 0

@[simp] theorem work_multiwriteCb (ret : Int) (b : Batch ω) :
    (multiwriteCb ret b).work = b.work := by
  simp only [multiwriteCb]
  split
  · rfl
  · rfl

/-- A batch that is underway can go on until it is completed. -/
theorem Underway.exists_step (state : Underway merged handles disk b) (todo : ¬ b.Completed) :
    ∃ event after, event.Succeeds ∧ BatchStep b event after ∧ after.work < b.work := by
  match waits : b.waiting with
  | req :: rest =>
    have dummy : b.dummy = true := by
      by_contra ended
      rw [state.closed (by simpa using ended)] at waits
      exact absurd waits (by simp)
    refine ⟨.submit, _, trivial, .submit waits dummy, ?_⟩
    simp only [Batch.work, waits, map_cons, sum_cons, map_append, sum_append, map_nil, sum_nil]
    omega
  | [] =>
    match flies : b.flights with
    | ⟨req, []⟩ :: after =>
      have found : b.flights = [] ++ ⟨req, []⟩ :: after := flies
      refine ⟨.complete 0, _, rfl, .complete found, ?_⟩
      rw [work_multiwriteCb]
      simp only [Batch.work, flies, nil_append, map_cons, sum_cons]
      omega
    | ⟨req, x :: late⟩ :: after =>
      have found : b.flights = [] ++ ⟨req, [] ++ x :: late⟩ :: after := flies
      refine ⟨.land, _, trivial, .land found, ?_⟩
      simp only [Batch.work, flies, nil_append, map_cons, sum_cons, length_cons]
      omega
    | [] =>
      have dummy : b.dummy = true := by
        by_contra ended
        exact todo ⟨waits, flies, by simpa using ended⟩
      refine ⟨.finish, _, trivial, .finish waits dummy, ?_⟩
      rw [work_multiwriteCb]
      simp [Batch.work, dummy]

theorem GoodRun.trans {middle : Batch ω} (first : GoodRun b middle)
    (second : GoodRun middle after) : GoodRun b after := by
  induction second with
  | start => exact first
  | next run good step induction => exact induction.next good step

theorem Underway.exists_completed (state : Underway merged handles disk b) :
    ∃ final, GoodRun b final ∧ final.Completed := by
  induction measured : b.work using Nat.strongRecOn generalizing b with
  | ind work induction =>
    by_cases completed : b.Completed
    · exact ⟨b, .start, completed⟩
    · obtain ⟨event, after, good, step, less⟩ := state.exists_step completed
      obtain ⟨final, run, completed⟩ :=
        induction after.work (measured ▸ less) (state.step good step) rfl
      exact ⟨final, (GoodRun.start.next good step).trans run, completed⟩

/-- At the end every sector of a merged request holds what one of them wrote there, the others are
as before, and every callback has run once. -/
theorem Underway.completed (state : Underway merged handles disk b) (completed : b.Completed) :
    (∀ x, (∃ req ∈ merged, req.Covers x) → ∃ req ∈ merged, req.Covers x ∧ b.disk x = req.data x) ∧
    (∀ x, (¬ ∃ req ∈ merged, req.Covers x) → b.disk x = disk x) ∧
    b.calls = handles.map fun handle => (handle, 0) := by
  obtain ⟨waits, flies, dummy⟩ := completed
  refine ⟨?_, ?_, ?_⟩
  · rintro x ⟨req, member, covers⟩
    rcases state.pending req member x covers with waiting | ⟨flight, flying, -, -⟩ | done
    · rw [waits] at waiting
      exact absurd waiting not_mem_nil
    · rw [flies] at flying
      exact absurd flying not_mem_nil
    · exact done
  · intro x outside
    rcases state.written x with same | ⟨req, member, covers, -⟩
    · exact same
    · exact absurd ⟨req, member, covers⟩ outside
  · have count := state.count
    rw [flies, dummy] at count
    rw [state.calls, if_pos (by simpa using count)]

end Steps

/-! ## The batch as a whole -/

/-- The sector belongs to a request of the batch. -/
def Covered (reqs : List (BlockRequest ω)) (x : Int) : Prop := ∃ req ∈ reqs, req.Covers x

/-- Every sector of the batch holds the data of a request that covers it, every other sector is
unchanged, and every callback has run once, without an error. -/
structure Delivered (reqs : List (BlockRequest ω)) (disk : Int → List (BitVec 8))
    (final : Batch ω) : Prop where
  covered : ∀ x, Covered reqs x → ∃ req ∈ reqs, req.Covers x ∧ final.disk x = req.data x
  uncovered : ∀ x, ¬ Covered reqs x → final.disk x = disk x
  called : final.calls = reqs.map fun req => (req.handle, 0)

theorem Kept.covered (kept : Kept sorted x) : Covered sorted x := by
  obtain ⟨before, req, after, split, covers, -⟩ := kept
  exact ⟨req, split ▸ mem_append_cons_self, covers⟩

theorem Qsort.isSorted (qsort : Qsort reqs sorted)
    (wellFormed : ∀ req ∈ reqs, req.WellFormed) (small : total reqs < 2 ^ 23) : Sorted sorted where
  wellFormed := fun req member => wellFormed req (qsort.1.mem_iff.mp member)
  ordered := qsort.2
  small := by
    have same : total sorted = total reqs := (qsort.1.map _).sum_eq
    rw [same]
    exact small

theorem Qsort.covered_iff (qsort : Qsort reqs sorted) : Covered sorted x ↔ Covered reqs x := by
  constructor
  · rintro ⟨req, member, covers⟩
    exact ⟨req, qsort.1.mem_iff.mp member, covers⟩
  · rintro ⟨req, member, covers⟩
    exact ⟨req, qsort.1.mem_iff.mpr member, covers⟩

theorem final_disk (qsort : Qsort reqs sorted)
    (wellFormed : ∀ req ∈ reqs, req.WellFormed) (small : total reqs < 2 ^ 23)
    {disk : Int → List (BitVec 8)} {final : Batch ω}
    (run : GoodRun (bdrvAioMultiwrite none reqs sorted disk) final) (completed : final.Completed) :
    (∀ x, Kept sorted x → ∃ req ∈ reqs, req.Covers x ∧ final.disk x = req.data x) ∧
    (∀ x, ¬ Kept sorted x → final.disk x = disk x) ∧
    final.calls = reqs.map fun req => (req.handle, 0) := by
  obtain ⟨covers_iff, supplied⟩ := multiwriteMerge_covers (qsort.isSorted wellFormed small)
  obtain ⟨inside, outside, called⟩ := ((underway_start qsort.1).run run).completed completed
  refine ⟨?_, ?_, ?_⟩
  · intro x kept
    obtain ⟨merged, member, covers, holds⟩ := inside x ((covers_iff x).mpr kept)
    obtain ⟨req, source, reqCovers, supplies⟩ := supplied merged member x covers
    exact ⟨req, qsort.1.mem_iff.mp source, reqCovers, holds.trans supplies⟩
  · intro x lost
    exact outside x fun covered => lost ((covers_iff x).mp covered)
  · rw [called, map_map]
    rfl

/-- A request whose bytes all have one value, in one segment. -/
def plainRequest (sector : Int) (nbSectors : Nat) (byte : BitVec 8) (handle : Nat) :
    BlockRequest Nat where
  sector := sector
  nbSectors := nbSectors
  qiov := ⟨[List.replicate (nbSectors * 512) byte], nbSectors * 512 % 2 ^ 32⟩
  handle := handle

theorem plainRequest_wellFormed (sector : Int) (nbSectors : Nat) (byte : BitVec 8) (handle : Nat) :
    (plainRequest sector nbSectors byte handle).WellFormed where
  nonneg := Int.natCast_nonneg nbSectors
  length := by simp [plainRequest, bytes]
  sized := by simp [plainRequest, bytes, Sized]

/-- Two requests, one behind the other. -/
def twoInARow : List (BlockRequest Nat) := [plainRequest 0 1 7 0, plainRequest 1 1 8 1]

theorem twoInARow_qsort : Qsort twoInARow twoInARow := ⟨Perm.refl _, pairwise_pair.mpr (by decide)⟩

theorem twoInARow_wellFormed : ∀ req ∈ twoInARow, req.WellFormed := by
  simp [twoInARow, plainRequest_wellFormed]

theorem twoInARow_kept (covered : Covered twoInARow x) : Kept twoInARow x := by
  obtain ⟨req, member, covers⟩ := covered
  rcases mem_cons.mp member with rfl | rest
  · refine ⟨[], _, _, rfl, covers, fun next rest same => .inl ?_⟩
    obtain ⟨rfl, rfl⟩ := cons_eq_cons.mp same
    exact covers.2
  · obtain rfl := mem_singleton.mp rest
    exact ⟨[plainRequest 0 1 7 0], _, [], rfl, covers, nofun⟩

/-- A request for the sectors 0 to 2 and one for sector 1. -/
def nested : List (BlockRequest Nat) := [plainRequest 0 3 7 0, plainRequest 1 1 8 1]

theorem nested_lost : ¬ Kept nested 2 := by
  intro kept
  have split : nested = [] ++ [plainRequest 0 3 7 0] ++ [plainRequest 1 1 8 1] := rfl
  rw [split] at kept
  rcases kept_iff.mp kept with settled | last
  · rcases settled_concat.mp settled with single | ⟨-, before | ⟨done, out, run, full⟩⟩
    · exact not_settled_singleton single
    · exact absurd before (by decide)
    · obtain ⟨rfl, rfl⟩ : [] = done ∧ plainRequest 0 3 7 0 = out := by simpa [mergeStep] using run
      exact absurd full (by decide)
  · exact absurd (lastCovers_concat.mp last) (by decide)

end Qemu.Block
