import Qemu.Migration.Ram

/-!
# The circular walk of `ram_save_block`

The pages of the blocks form a cycle under `advance`.  From any of them the walk comes back to its
start unless it meets a dirty page, so a call of `ram_save_block` sends a dirty page whenever there
is one.
-/

namespace Qemu.Migration

open Prog Function List

variable {page : RAMBlock × Nat}

/-- The ranges of two blocks do not overlap. -/
def Apart (a b : RAMBlock) : Prop := a.offset + a.length ≤ b.offset ∨ b.offset + b.length ≤ a.offset

instance : DecidableRel Apart := fun _ _ => inferInstanceAs (Decidable (_ ≤ _ ∨ _ ≤ _))

instance : Std.Symm Apart := ⟨fun _ _ => Or.symm⟩

/-- What holds of the blocks of the RAM address space: they are made of whole pages, they do not
overlap, and each has a string of its own. -/
structure WellFormed (blocks : List RAMBlock) : Prop where
  aligned : ∀ block ∈ blocks, targetPageSize ∣ block.offset ∧ targetPageSize ∣ block.length
  positive : ∀ block ∈ blocks, 0 < block.length
  disjoint : blocks.Pairwise Apart
  distinct : (blocks.map RAMBlock.idstr).Nodup
  strings : ∀ block ∈ blocks, block.idstr.length < 256 ∧ 0 ∉ block.idstr
  fits : ∀ block ∈ blocks, block.offset + block.length < ramAddrRange

/-- The pages of a block, with the block. -/
def blockPages (block : RAMBlock) : List (RAMBlock × Nat) := (pageOffsets block).map (block, ·)

/-- All pages, in the order of the list. -/
def pages (blocks : List RAMBlock) : List (RAMBlock × Nat) := blocks.flatMap blockPages

def pageAddr (page : RAMBlock × Nat) : Nat := page.1.offset + page.2

section Pages

variable {blocks blocks' : List RAMBlock} {block : RAMBlock} {offset : Nat}

theorem mem_pageOffsets : offset ∈ pageOffsets block ↔
    targetPageSize ∣ offset ∧ offset < block.length := by
  simp only [pageOffsets, targetPageSize, mem_map, mem_range]
  constructor
  · rintro ⟨k, small, rfl⟩
    exact ⟨dvd_mul_right _ _, by omega⟩
  · rintro ⟨⟨k, rfl⟩, small⟩
    exact ⟨k, by omega, rfl⟩

theorem mem_pages : page ∈ pages blocks ↔
    page.1 ∈ blocks ∧ targetPageSize ∣ page.2 ∧ page.2 < page.1.length := by
  obtain ⟨block, offset⟩ := page
  simp only [pages, blockPages, mem_flatMap, mem_map, mem_pageOffsets, Prod.mk.injEq]
  constructor
  · rintro ⟨_, member, _, inside, rfl, rfl⟩
    exact ⟨member, inside⟩
  · rintro ⟨member, inside⟩
    exact ⟨block, member, offset, inside, rfl, rfl⟩

theorem length_pages : (pages blocks).length = pageCount blocks := by
  simp [pages, blockPages, pageCount, length_flatMap]

section

variable (wellFormed : WellFormed blocks)

include wellFormed

theorem WellFormed.perm (perm : blocks'.Perm blocks) : WellFormed blocks' where
  aligned block member := wellFormed.aligned block (perm.mem_iff.mp member)
  positive block member := wellFormed.positive block (perm.mem_iff.mp member)
  disjoint := (perm.pairwise_iff symm).mpr wellFormed.disjoint
  distinct := (perm.map RAMBlock.idstr).nodup_iff.mpr wellFormed.distinct
  strings block member := wellFormed.strings block (perm.mem_iff.mp member)
  fits block member := wellFormed.fits block (perm.mem_iff.mp member)

theorem WellFormed.nodup : blocks.Nodup := wellFormed.distinct.of_map RAMBlock.idstr

theorem WellFormed.pages_nodup : (pages blocks).Nodup := by
  have within (block : RAMBlock) : (blockPages block).Nodup := by
    refine (Nodup.map ?_ nodup_range).map ?_
    · intro i j same
      simpa [targetPageSize] using same
    · intro i j same
      exact (Prod.mk.inj same).2
  refine nodup_flatMap.mpr ⟨fun block _ => within block, ?_⟩
  refine wellFormed.nodup.imp fun different => disjoint_left.mpr ?_
  rintro ⟨owner, offset⟩ first second
  simp only [blockPages, mem_map, Prod.mk.injEq] at first second
  obtain ⟨_, _, rfl, _⟩ := first
  obtain ⟨_, _, rfl, _⟩ := second
  exact different rfl

theorem WellFormed.page_unique {page page' : RAMBlock × Nat} (member : page ∈ pages blocks)
    (member' : page' ∈ pages blocks)
    (same : pageAddr page / targetPageSize = pageAddr page' / targetPageSize) : page = page' := by
  obtain ⟨block, offset⟩ := page
  obtain ⟨block', offset'⟩ := page'
  obtain ⟨inList, ⟨k, rfl⟩, inside⟩ := mem_pages.mp member
  obtain ⟨inList', ⟨k', rfl⟩, inside'⟩ := mem_pages.mp member'
  obtain ⟨n, aligned⟩ := (wellFormed.aligned block inList).1
  obtain ⟨n', aligned'⟩ := (wellFormed.aligned block' inList').1
  simp only [pageAddr, targetPageSize] at *
  by_cases sameBlock : block = block'
  · subst sameBlock
    have : k = k' := by omega
    rw [this]
  · have apart := wellFormed.disjoint.forall inList inList' sameBlock
    unfold Apart at apart
    omega

theorem WellFormed.page_apart {page other : RAMBlock × Nat} (member : page ∈ pages blocks)
    (member' : other ∈ pages blocks) (sameName : other.1.idstr = page.1.idstr)
    (different : other ≠ page) {i : Nat} (inside : i < targetPageSize) :
    other.2 + i < page.2 ∨ page.2 + targetPageSize ≤ other.2 + i := by
  obtain ⟨inList, ⟨k, aligned⟩, -⟩ := mem_pages.mp member
  obtain ⟨inList', ⟨k', aligned'⟩, -⟩ := mem_pages.mp member'
  have sameBlock : other.1 = page.1 :=
    inj_on_of_nodup_map wellFormed.distinct inList' inList sameName
  have offsets : k ≠ k' := by
    rintro rfl
    exact different (Prod.ext sameBlock (aligned'.trans aligned.symm))
  simp only [targetPageSize] at *
  omega

end

end Pages

section Cycle

variable {blocks before behind : List RAMBlock} {block : RAMBlock} {offset : Nat}

theorem qlistNext_append (new : block ∉ before) :
    qlistNext (before ++ block :: behind) block = behind.head? := by
  induction before with
  | nil => simp [qlistNext]
  | cons first before ih =>
    simp only [mem_cons, not_or] at new
    simp only [cons_append, qlistNext]
    rw [if_neg (Ne.symm new.1), ih new.2]

/-- `advance` leads from one page to the other. -/
def Leads (blocks : List RAMBlock) (page next : RAMBlock × Nat) : Prop :=
  advance blocks page.1 page.2 = some next

theorem blockPages_chain : (blockPages block).IsChain (Leads blocks) := by
  unfold blockPages pageOffsets
  rw [map_map, isChain_map, isChain_range]
  intro k small
  have inside : ¬ block.length ≤ targetPageSize * k + targetPageSize := by
    simp only [targetPageSize] at *
    omega
  simp only [comp_apply, Leads, advance, if_neg inside]
  rfl

theorem blockPages_head (positive : 0 < block.length) :
    (blockPages block).head? = some (block, 0) := by
  have some : (block.length + (targetPageSize - 1)) / targetPageSize ≠ 0 := by
    simp only [targetPageSize]
    omega
  obtain ⟨n, count⟩ := Nat.exists_eq_succ_of_ne_zero some
  rw [blockPages, pageOffsets, count, range_succ_eq_map]
  rfl

theorem blockPages_last (last : page ∈ (blockPages block).getLast?) :
    page.1 = block ∧ block.length ≤ page.2 + targetPageSize := by
  unfold blockPages pageOffsets at last
  rw [map_map, getLast?_map, getLast?_range] at last
  split at last
  · cases last
  · cases last
    simp only [comp_apply, targetPageSize] at *
    exact ⟨trivial, by omega⟩

/-- From the first page of a part of the list to the end and on to the first page of all. -/
theorem pages_chain (wellFormed : WellFormed (before ++ behind)) {first : RAMBlock}
    (start : (before ++ behind).head? = some first) :
    (pages behind ++ [(first, 0)]).IsChain (Leads (before ++ behind)) := by
  induction behind generalizing before with
  | nil => simp [pages]
  | cons block behind ih =>
    have shifted : before ++ block :: behind = (before ++ [block]) ++ behind := by simp
    have rest : (pages behind ++ [(first, 0)]).IsChain (Leads (before ++ block :: behind)) := by
      rw [shifted] at wellFormed start ⊢
      exact ih wellFormed start
    have cons : pages (block :: behind) = blockPages block ++ pages behind := rfl
    rw [cons, append_assoc, isChain_append]
    refine ⟨blockPages_chain, rest, ?_⟩
    rintro ⟨owner, offset⟩ last next head
    obtain ⟨same, done⟩ := blockPages_last last
    subst same
    have new : owner ∉ before := by
      have := wellFormed.nodup
      rw [nodup_append] at this
      exact fun member => this.2.2 owner member owner mem_cons_self rfl
    rw [Leads, advance, if_pos done, qlistNext_append new, start]
    cases behind with
    | nil =>
      cases head
      rfl
    | cons second behind =>
      have positive : 0 < second.length := wellFormed.positive second (by simp)
      have cons : pages (second :: behind) = blockPages second ++ pages behind := rfl
      rw [cons, append_assoc, head?_append, blockPages_head positive] at head
      cases head
      rfl

theorem pages_cycle (wellFormed : WellFormed blocks) :
    (pages blocks : Cycle (RAMBlock × Nat)).Chain (Leads blocks) := by
  cases blocks with
  | nil => exact Cycle.Chain.nil _
  | cons first rest =>
    have chain := @pages_chain [] (first :: rest) wellFormed first rfl
    have positive := wellFormed.positive first mem_cons_self
    have cons : pages (first :: rest) = blockPages first ++ pages rest := rfl
    have head := blockPages_head positive
    obtain ⟨tail, split⟩ : ∃ tail, pages (first :: rest) = (first, 0) :: tail := by
      rw [cons]
      cases listed : blockPages first with
      | nil => simp [listed] at head
      | cons page more =>
        rw [listed] at head
        cases head
        exact ⟨_, rfl⟩
    rw [split] at chain ⊢
    exact (Cycle.chain_coe_cons _ _ _).mpr chain

/-- The pages in the order of a walk that starts at one of them. -/
theorem exists_walk (wellFormed : WellFormed blocks) {start : RAMBlock × Nat}
    (member : start ∈ pages blocks) :
    ∃ others, (start :: (others ++ [start])).IsChain (Leads blocks) ∧
      (start :: others).Perm (pages blocks) := by
  obtain ⟨early, late, split⟩ := append_of_mem member
  have rotated : (pages blocks).IsRotated (start :: (late ++ early)) := by
    rw [split]
    exact isRotated_append
  have cycle := pages_cycle wellFormed
  rw [Cycle.coe_eq_coe.mpr rotated] at cycle
  exact ⟨late ++ early, (Cycle.chain_coe_cons _ _ _).mp cycle, rotated.perm.symm⟩

end Cycle

section DirtyBits

variable {bits : Nat → BitVec 8} {addr addr' : Nat}

theorem getDirty_resetDirty_self : getDirty (resetDirty bits addr) addr = false := by
  simp only [getDirty, resetDirty, update_self, BitVec.and_assoc]
  simp [migrationDirtyFlag]

theorem getDirty_resetDirty_of_ne (other : addr' / targetPageSize ≠ addr / targetPageSize) :
    getDirty (resetDirty bits addr) addr' = getDirty bits addr' := by
  rw [getDirty, resetDirty, update_of_ne other, getDirty]

theorem getDirty_setDirty :
    getDirty (setDirty bits addr) addr' =
      (decide (addr' / targetPageSize = addr / targetPageSize) || getDirty bits addr') := by
  by_cases same : addr' / targetPageSize = addr / targetPageSize
  · simp [getDirty, setDirty, same, migrationDirtyFlag]
  · simp [getDirty, setDirty, same]

end DirtyBits

section SaveBlock

variable {s : Outgoing}

def Outgoing.dirty (s : Outgoing) (page : RAMBlock × Nat) : Bool :=
  getDirty s.physDirty (pageAddr page)

/-- Between two calls of `ram_save_block` the walk rests at a page, or has not started and all pages
are dirty. -/
structure Settled (s : Outgoing) : Prop where
  wellFormed : WellFormed s.blocks
  nonempty : s.blocks ≠ []
  fresh : s.lastBlock = none → s.lastOffset = 0 ∧ ∀ page ∈ pages s.blocks, s.dirty page = true
  resting : ∀ block, s.lastBlock = some block → (block, s.lastOffset) ∈ pages s.blocks

/-- A walk along a chain of pages back to the start finds a dirty page, or there is none. -/
theorem scan_dirty {page : RAMBlock × Nat} {fuel : Nat} (dirty : s.dirty page = true) :
    scan (fuel + 1) page.1 page.2 s = (.ok (page.1, page.2, true), s) := by
  have here : getDirty s.physDirty (page.1.offset + page.2) = true := dirty
  simp [scan, here]

theorem scan_chain {start page : RAMBlock × Nat} {others : List (RAMBlock × Nat)} {fuel : Nat}
    (last : s.lastBlock = some start.1) (offset : s.lastOffset = start.2)
    (chain : (page :: (others ++ [start])).IsChain (Leads s.blocks))
    (away : ∀ other ∈ others, pageAddr other ≠ pageAddr start) (enough : others.length < fuel) :
    (∃ found ∈ page :: others, s.dirty found = true ∧
      scan fuel page.1 page.2 s = (.ok (found.1, found.2, true), s)) ∨
    ((∀ other ∈ page :: others, s.dirty other = false) ∧
      scan fuel page.1 page.2 s = (.ok (start.1, start.2, false), s)) := by
  induction others generalizing page fuel with
  | nil =>
    obtain ⟨fuel, rfl⟩ := Nat.exists_eq_add_one.mpr (Nat.zero_lt_of_lt enough)
    have leads : advance s.blocks page.1 page.2 = some start := by
      simpa [Leads] using chain
    cases dirty : s.dirty page with
    | true => exact .inl ⟨page, mem_cons_self, dirty, scan_dirty dirty⟩
    | false =>
      have here : getDirty s.physDirty (page.1.offset + page.2) = false := dirty
      refine .inr ⟨by simpa using dirty, ?_⟩
      simp [scan, here, leads, last, offset, deref, bind_apply]
  | cons next others ih =>
    obtain ⟨fuel, rfl⟩ := Nat.exists_eq_add_one.mpr (Nat.zero_lt_of_lt enough)
    rw [cons_append, isChain_cons_cons] at chain
    have leads : advance s.blocks page.1 page.2 = some next := chain.1
    cases dirty : s.dirty page with
    | true => exact .inl ⟨page, mem_cons_self, dirty, scan_dirty dirty⟩
    | false =>
      have here : getDirty s.physDirty (page.1.offset + page.2) = false := dirty
      have elsewhere : next.1.offset + next.2 ≠ start.1.offset + start.2 :=
        away next mem_cons_self
      have onwards : scan (fuel + 1) page.1 page.2 s = scan fuel next.1 next.2 s := by
        simp [scan, here, leads, last, offset, deref, bind_apply, elsewhere]
      rw [onwards]
      rcases ih chain.2 (fun other member => away other (mem_cons_of_mem _ member))
          (by simpa using enough) with ⟨found, member, isDirty, run⟩ | ⟨clean, run⟩
      · exact .inl ⟨found, mem_cons_of_mem _ member, isDirty, run⟩
      · exact .inr ⟨forall_mem_cons.mpr ⟨dirty, clean⟩, run⟩

/-- A call of `ram_save_block` ends.  It sends a dirty page, or there is none and nothing
changes. -/
theorem ramSaveBlock_cases (settled : Settled s) :
    (∃ page ∈ pages s.blocks, s.dirty page = true ∧
      ramSaveBlock s = (.ok (bytesSent s.host page.1 page.2),
        (s.sendPage page.1 page.2).stopAt page.1 page.2)) ∨
    ((∀ page ∈ pages s.blocks, s.dirty page = false) ∧ ramSaveBlock s = (.ok 0, s)) := by
  cases last : s.lastBlock with
  | none =>
    obtain ⟨offset, allDirty⟩ := settled.fresh last
    obtain ⟨first, rest, blocks⟩ := exists_cons_of_ne_nil settled.nonempty
    have member : (first, 0) ∈ pages s.blocks := by
      have inList : first ∈ s.blocks := by simp [blocks]
      exact mem_pages.mpr ⟨inList, dvd_zero _, settled.wellFormed.positive first inList⟩
    have here : getDirty s.physDirty (first.offset + 0) = true := allDirty _ member
    have found : scan (pageCount s.blocks + 1) first 0 s = (.ok (first, 0, true), s) := by
      rw [scan, get_bind, if_pos here, pure_apply]
    refine .inl ⟨(first, 0), member, allDirty _ member, ?_⟩
    have head : s.blocks.head? = some first := by rw [blocks]; rfl
    rw [ramSaveBlock, get_bind, last, head]
    simp only [Option.none_or, deref, offset]
    rw [pure_bind_apply, bind_of_ok found]
    rfl
  | some block =>
    have start := settled.resting block last
    obtain ⟨others, chain, perm⟩ := exists_walk settled.wellFormed start
    have nodup := perm.nodup_iff.mpr settled.wellFormed.pages_nodup
    have away : ∀ other ∈ others, pageAddr other ≠ pageAddr (block, s.lastOffset) := by
      intro other member same
      have here := settled.wellFormed.page_unique (perm.mem_iff.mp (mem_cons_of_mem _ member))
        start (by rw [same])
      exact (nodup_cons.mp nodup).1 (here ▸ member)
    have enough : others.length < pageCount s.blocks + 1 := by
      have := perm.length_eq
      rw [length_pages, length_cons] at this
      omega
    rw [ramSaveBlock, get_bind, last]
    simp only [Option.some_or, deref]
    rw [pure_bind_apply]
    rcases scan_chain last rfl chain away enough with
      ⟨found, member, dirty, run⟩ | ⟨clean, run⟩
    · refine .inl ⟨found, perm.mem_iff.mp member, dirty, ?_⟩
      rw [bind_of_ok run]
      rfl
    · refine .inr ⟨fun page member => clean page (perm.mem_iff.mpr member), ?_⟩
      rw [bind_of_ok run]
      simp only [Bool.false_eq_true, if_false, modify_bind, pure_apply]
      rw [Outgoing.stopAt, ← last]

theorem bytesSent_ne_zero (host : HostMemory) (block : RAMBlock) (offset : Nat) :
    bytesSent host block offset ≠ 0 := by
  unfold bytesSent
  simp only
  split <;> decide

def dirtyCount (s : Outgoing) : Nat := (pages s.blocks).countP s.dirty

theorem dirtyCount_le (s : Outgoing) : dirtyCount s ≤ pageCount s.blocks := by
  rw [← length_pages]
  exact countP_le_length

/-- The state after a page has been sent. -/
abbrev Outgoing.sent (s : Outgoing) (page : RAMBlock × Nat) : Outgoing :=
  (s.sendPage page.1 page.2).stopAt page.1 page.2

theorem sent_dirty (wellFormed : WellFormed s.blocks) {page other : RAMBlock × Nat}
    (member : page ∈ pages s.blocks) (member' : other ∈ pages s.blocks) :
    (s.sent page).dirty other = (decide (other ≠ page) && s.dirty other) := by
  by_cases same : other = page
  · subst same
    have cleared : (s.sent other).dirty other = false := getDirty_resetDirty_self
    simp [cleared]
  · have apart := fun equal => same (wellFormed.page_unique member' member equal)
    have kept : (s.sent page).dirty other = s.dirty other := getDirty_resetDirty_of_ne apart
    simp [kept, same]

theorem countP_lt_countP {α : Type} [DecidableEq α] {p q : α → Bool} {l : List α} {x : α} (member : x ∈ l)
    (holds : q x = true) (fails : p x = false) (imp : ∀ y ∈ l, p y = true → q y = true) :
    l.countP p < l.countP q := by
  have front := perm_cons_erase member
  rw [front.countP_eq p, front.countP_eq q, countP_cons_of_pos holds,
    countP_cons_of_neg (by simp [fails])]
  exact Nat.lt_succ_of_le (countP_mono_left fun y inRest => imp y (mem_of_mem_erase inRest))

theorem dirtyCount_sent (wellFormed : WellFormed s.blocks) (member : page ∈ pages s.blocks)
    (dirty : s.dirty page = true) : dirtyCount (s.sent page) < dirtyCount s := by
  refine countP_lt_countP member dirty ?_ ?_
  · simp [sent_dirty wellFormed member member]
  · intro other member' still
    rw [sent_dirty wellFormed member member', Bool.and_eq_true] at still
    exact still.2

theorem Settled.sent (settled : Settled s) (member : page ∈ pages s.blocks) : Settled (s.sent page) where
  wellFormed := settled.wellFormed
  nonempty := settled.nonempty
  fresh := nofun
  resting block last := by
    cases last
    exact member

end SaveBlock

end Qemu.Migration
