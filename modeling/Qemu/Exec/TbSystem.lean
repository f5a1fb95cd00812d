import Qemu.Exec.TbBook

/-!
# The translation-block tables over whole runs

The operations on the tables as a transition system.  In every reachable state the pointers spell
out lists that hold every live block exactly where it belongs, every native jump goes where its
list entry says, and every operation that is admissible comes back.
-/

namespace Qemu.Exec

open Links Finset

variable {N : Nat} {a b : Fin N}

/-- The operations on the tables. -/
inductive TbOp (N : Nat) where
  /-- `tb_link_page` of the block that the code generator has put in the cell. -/
  | linkPage (tb : Fin N) (block : TranslationBlock) (physPc : Nat) (physPage2 : Option Nat)
  | addJump (tb : Fin N) (n : Fin 2) (tbNext : Fin N)
  | findSlow (cpu : Nat) (request : Request) (made : Translation N)
  | physInvalidate (tb : Fin N)
  | flush

namespace TbOp

def run : TbOp N → TbProg N Unit
  | linkPage tb block physPc physPage2 => Prog.modify (tbFillLink tb block physPc physPage2)
  | addJump tb n tbNext => Prog.modify (tbAddJump tb n tbNext)
  | findSlow cpu request made => do
      let _ ← tbFindSlow cpu request made
      pure ()
  | physInvalidate tb => tbPhysInvalidate tb none
  | flush => Prog.modify tbFlush

/-- What the callers see to: only free cells are filled, with code of their own; only live blocks
are chained, by jumps that they have, and invalidated; and `tb_gen_code` translates what was asked
for. -/
def Admissible (s : TbState N) : TbOp N → Prop
  | linkPage tb block physPc _ => Linkable s tb block physPc
  | addJump tb n tbNext => tb ∈ s.live ∧ tbNext ∈ s.live ∧ (s.tbs tb).tbNextOffset n ≠ none
  | findSlow _ request made => ∀ slot, tbLookup request s = some (slot, none) →
      made.block.pc = request.pc ∧
        Linkable (if made.flush then tbFlush s else s) made.tb made.block request.physPc
  | physInvalidate tb => tb ∈ s.live
  | flush => True

end TbOp

/-- The tables before anything has been translated; the cells and their link fields hold anything. -/
structure Initial (s : TbState N) : Prop where
  live : s.live = ∅
  hash : ∀ h, s.hash (.tbPhysHash h) = none
  page : ∀ p, s.page (.firstTb p) = none
  cache : ∀ cpu i, s.tbJmpCache cpu i = none

/-- The states that runs of admissible operations lead to. -/
inductive Reachable : TbState N → Prop where
  | initial {s : TbState N} (initial : Initial s) : Reachable s
  | step {s after : TbState N} {op : TbOp N} (reachable : Reachable s)
      (admissible : op.Admissible s) (runs : op.run s = (.ok (), after)) : Reachable after

/-- Every admissible operation comes back and keeps the invariant. -/
theorem Booked.step {s : TbState N} {dest : Fin N × Fin 2 → Option (Fin N)} {op : TbOp N}
    (booked : Booked s dest) (admissible : op.Admissible s) :
    ∃ after dest', op.run s = (.ok (), after) ∧ Booked after dest' := by
  match op with
  | .linkPage tb block physPc physPage2 => exact ⟨_, dest, rfl, booked.link admissible⟩
  | .addJump tb n tbNext =>
    exact ⟨_, _, rfl, booked.addJump admissible.1 admissible.2.1 admissible.2.2⟩
  | .findSlow cpu request made =>
    obtain ⟨tb, after, dest', runs, kept⟩ := booked.findSlow cpu admissible
    refine ⟨after, dest', ?_, kept⟩
    rw [TbOp.run, Prog.bind_of_ok runs]
    rfl
  | .physInvalidate tb =>
    obtain ⟨after, runs, effect⟩ := booked.physInvalidate_run admissible
    exact ⟨after, _, runs, booked.invalidated effect⟩
  | .flush => exact ⟨_, _, rfl, booked_tbFlush s⟩

theorem Reachable.booked {s : TbState N} (reachable : Reachable s) : ∃ dest, Booked s dest := by
  induction reachable with
  | initial empty => exact ⟨_, booked_of_empty empty.live empty.hash empty.page empty.cache⟩
  | step before admissible runs ih =>
    obtain ⟨dest, booked⟩ := ih
    obtain ⟨after, dest', runs', kept⟩ := booked.step admissible
    obtain rfl := (Prod.mk.inj (runs.symm.trans runs')).2
    exact ⟨dest', kept⟩

/-! ## What the pointers spell out -/

structure TbLists (N : Nat) where
  hash : Nat → List (Fin N)
  page : Nat → List (Fin N × Fin 2)
  jmp : Fin N → List (JmpRef N)

/-- The pointers spell out these lists.  A jump list holds tagged jumps up to its first pointer with
the tag 2, and that one is its owner's. -/
structure Spells (s : TbState N) (lists : TbLists N) : Prop where
  hash : ∀ h, Chain s.hash .physHashNext none (lists.hash h) (.tbPhysHash h)
  page : ∀ p, Chain s.page .pageNext none (lists.page p) (.firstTb p)
  jmp : ∀ owner ∈ s.live,
    Chain s.jmp id (some (.jmpFirst owner)) (lists.jmp owner) (.jmpFirst owner)
  tags : ∀ owner ∈ s.live, ∀ ref ∈ lists.jmp owner, ∃ tb n, ref = .jmpNext tb n

/-- Every live block is filed exactly once wherever it belongs, and the native jumps go where the
jump lists say. -/
structure Consistent (s : TbState N) (lists : TbLists N) : Prop where
  hash : ∀ tb ∈ s.live, (lists.hash (tbPhysHashFunc (s.tbs tb).physPc)).count tb = 1
  page : ∀ tb ∈ s.live, ∀ n addr, (s.tbs tb).pageAddr n = some addr →
    (lists.page (addr / targetPageSize)).count (tb, n) = 1
  pageOnly : ∀ tb ∈ s.live, ∀ p n, (tb, n) ∈ lists.page p →
    ((s.tbs tb).pageAddr n).map (· / targetPageSize) = some p
  jmp : ∀ a ∈ s.live, ∀ b ∈ s.live, ∀ n, (s.tbs a).tbNextOffset n ≠ none →
    (s.jmpTarget (a, n) = (s.tbs b).tcPtr ↔ (lists.jmp b).count (.jmpNext a n) = 1)
  jmpOnce : ∀ b ∈ s.live, (lists.jmp b).Nodup
  epilogue : ∀ a ∈ s.live, ∀ n, (s.tbs a).tbNextOffset n ≠ none →
    (∀ b ∈ s.live, .jmpNext a n ∉ lists.jmp b) → s.jmpTarget (a, n) = (s.tbs a).epilogue n

/-- Nothing refers to the block any more: no list, no jump cache, and no native jump of a live block
leads into its code. -/
structure Forgotten (tb : Fin N) (s : TbState N) (lists : TbLists N) : Prop where
  hash : ∀ h, tb ∉ lists.hash h
  page : ∀ p n, (tb, n) ∉ lists.page p
  jmp : ∀ owner ∈ s.live, ∀ n, .jmpNext tb n ∉ lists.jmp owner
  cache : ∀ cpu i, s.tbJmpCache cpu i ≠ some tb
  target : ∀ other ∈ s.live, ∀ n, (s.tbs other).tbNextOffset n ≠ none →
    s.jmpTarget (other, n) < (s.tbs tb).tcPtr ∨
      (s.tbs tb).tcPtr + (s.tbs tb).tcSize ≤ s.jmpTarget (other, n)

section Consistency

variable {s : TbState N} {dest : Fin N × Fin 2 → Option (Fin N)}

section

variable (booked : Booked s dest)

include booked

theorem Booked.lists :
    ∃ lists, Spells s lists ∧ (∀ h, (lists.hash h).Nodup) ∧ (∀ p, (lists.page p).Nodup) ∧
      (∀ owner ∈ s.live, (lists.jmp owner).Nodup) ∧ (∀ h tb, tb ∈ lists.hash h ↔ InHash s h tb) ∧
      (∀ p ref, ref ∈ lists.page p ↔ InPage s p ref) ∧
      ∀ owner ∈ s.live, ∀ ref, ref ∈ lists.jmp owner ↔ InJmp dest owner ref := by
  have hashes := fun h => booked.hash.lists h trivial
  have pages := fun p => booked.page.lists p trivial
  have jumps : ∀ owner, ∃ nodes, owner ∈ s.live →
      Chain s.jmp id (some (.jmpFirst owner)) nodes (.jmpFirst owner) ∧ nodes.Nodup ∧
        ∀ x, x ∈ nodes ↔ InJmp dest owner x := by
    intro owner
    by_cases inUse : owner ∈ s.live
    · obtain ⟨nodes, listed⟩ := booked.jmp.lists owner inUse
      exact ⟨nodes, fun _ => listed⟩
    · exact ⟨[], fun on => absurd on inUse⟩
  choose hash hashChain hashNodup hashMem using hashes
  choose page pageChain pageNodup pageMem using pages
  choose jmp jmpListed using jumps
  refine ⟨⟨hash, page, jmp⟩, ⟨hashChain, pageChain, fun owner on => (jmpListed owner on).1, ?_⟩,
    hashNodup, pageNodup, fun owner on => (jmpListed owner on).2.1, hashMem, pageMem,
    fun owner on => (jmpListed owner on).2.2⟩
  rintro owner on (⟨tb, n⟩ | tb) member
  · exact ⟨tb, n, rfl⟩
  · exact (((jmpListed owner on).2.2 _).mp member).elim

/-- The epilogue of a live block is not the entry of any live block. -/
theorem Booked.epilogue_ne {n : Fin 2} (aLive : a ∈ s.live) (bLive : b ∈ s.live)
    (jump : (s.tbs a).tbNextOffset n ≠ none) : (s.tbs a).epilogue n ≠ (s.tbs b).tcPtr := by
  obtain ⟨offset, isOffset⟩ := Option.ne_none_iff_exists'.mp jump
  obtain ⟨positive, inside⟩ := (booked.placed a aLive).inside n offset isOffset
  rw [TranslationBlock.epilogue, isOffset, Option.getD_some]
  by_cases same : a = b
  · subst same
    omega
  · have apart := booked.apart a aLive b bLive same
    unfold CodeApart at apart
    omega

theorem Booked.tcPtr_ne (aLive : a ∈ s.live) (bLive : b ∈ s.live) (different : a ≠ b) :
    (s.tbs a).tcPtr ≠ (s.tbs b).tcPtr := by
  have nonemptyA := (booked.placed a aLive).nonempty
  have nonemptyB := (booked.placed b bLive).nonempty
  have apart := booked.apart a aLive b bLive different
  unfold CodeApart at apart
  omega

theorem Booked.target_eq_iff {n : Fin 2} (aLive : a ∈ s.live) (bLive : b ∈ s.live)
    (jump : (s.tbs a).tbNextOffset n ≠ none) :
    s.jmpTarget (a, n) = (s.tbs b).tcPtr ↔ dest (a, n) = some b := by
  rw [booked.target a aLive n jump, jmpAddr]
  cases chained : dest (a, n) with
  | none => simpa using booked.epilogue_ne aLive bLive jump
  | some owner =>
    have ownerLive := (booked.chained a n owner chained).2.1
    rw [Option.some.injEq]
    refine ⟨fun same => ?_, fun same => same ▸ rfl⟩
    by_contra different
    exact booked.tcPtr_ne ownerLive bLive different same

theorem Booked.consistent : ∃ lists, Spells s lists ∧ Consistent s lists := by
  obtain ⟨lists, spells, hashNodup, pageNodup, jmpNodup, hashMem, pageMem, jmpMem⟩ := booked.lists
  refine ⟨lists, spells, ?_, ?_, ?_, ?_, jmpNodup, ?_⟩
  · intro tb inUse
    exact List.count_eq_one_of_mem (hashNodup _) ((hashMem _ tb).mpr ⟨inUse, rfl⟩)
  · intro tb inUse n addr named
    refine List.count_eq_one_of_mem (pageNodup _) ((pageMem _ (tb, n)).mpr ⟨inUse, ?_⟩)
    rw [named]
    rfl
  · intro tb inUse p n member
    exact ((pageMem p (tb, n)).mp member).2
  · intro a aLive b bLive n jump
    have once : (lists.jmp b).count (.jmpNext a n) = 1 ↔ .jmpNext a n ∈ lists.jmp b :=
      ⟨fun once => List.count_pos_iff.mp (by omega), List.count_eq_one_of_mem (jmpNodup b bLive)⟩
    rw [booked.target_eq_iff aLive bLive jump, once, jmpMem b bLive]
    rfl
  · intro a aLive n jump unlisted
    rw [booked.target a aLive n jump, jmpAddr]
    cases chained : dest (a, n) with
    | none => rfl
    | some owner =>
      have ownerLive := (booked.chained a n owner chained).2.1
      exact absurd ((jmpMem owner ownerLive (.jmpNext a n)).mpr chained)
        (unlisted owner ownerLive)

theorem Booked.forgotten {tb : Fin N} {after : TbState N} (inUse : tb ∈ s.live)
    (effect : Invalidated s dest tb after) :
    ∃ lists, Spells after lists ∧ Forgotten tb after lists := by
  have kept := booked.invalidated effect
  obtain ⟨lists, spells, -, -, -, hashMem, pageMem, jmpMem⟩ := kept.lists
  have gone : tb ∉ after.live := by
    rw [effect.live]
    exact notMem_erase tb s.live
  refine ⟨lists, spells, ?_, ?_, ?_, ?_, ?_⟩
  · exact fun h member => gone ((hashMem h tb).mp member).1
  · exact fun p n member => gone ((pageMem p (tb, n)).mp member).1
  · intro owner on n member
    exact gone (kept.chained tb n owner ((jmpMem owner on _).mp member)).1
  · exact fun cpu i cached => gone (kept.cache cpu i tb cached).1
  · intro other otherLive n jump
    rw [kept.target other otherLive n jump, jmpAddr]
    have before : ∀ live ∈ after.live, live ∈ s.live ∧ live ≠ tb := by
      intro live inAfter
      rw [effect.live] at inAfter
      exact ⟨mem_of_mem_erase inAfter, ne_of_mem_erase inAfter⟩
    cases chained : forgetBlock dest tb (other, n) with
    | none =>
      obtain ⟨otherBefore, different⟩ := before other otherLive
      obtain ⟨offset, isOffset⟩ := Option.ne_none_iff_exists'.mp jump
      rw [effect.tbs] at isOffset ⊢
      obtain ⟨-, inside⟩ := (booked.placed other otherBefore).inside n offset isOffset
      have apart := booked.apart other otherBefore tb inUse different
      simp only [TranslationBlock.epilogue, isOffset, Option.getD_some]
      unfold CodeApart at apart
      omega
    | some owner =>
      obtain ⟨ownerBefore, different⟩ := before owner (kept.chained other n owner chained).2.1
      have nonempty := (booked.placed owner ownerBefore).nonempty
      have apart := booked.apart owner ownerBefore tb inUse different
      simp only [effect.tbs]
      unfold CodeApart at apart
      omega

end

end Consistency

/-- In every reachable state the tables are consistent, and every admissible operation comes back;
after an invalidation nothing refers to the invalidated block. -/
theorem reachable_consistent {s : TbState N} (reachable : Reachable s) :
    (∃ lists, Spells s lists ∧ Consistent s lists) ∧
      ∀ op : TbOp N, op.Admissible s → ∃ after, op.run s = (.ok (), after) ∧
        ∀ tb, op = .physInvalidate tb → ∃ lists, Spells after lists ∧ Forgotten tb after lists := by
  obtain ⟨dest, booked⟩ := reachable.booked
  refine ⟨booked.consistent, fun op admissible => ?_⟩
  obtain ⟨after, -, runs, -⟩ := booked.step admissible
  refine ⟨after, runs, ?_⟩
  rintro tb rfl
  obtain ⟨after', runs', effect⟩ := booked.physInvalidate_run admissible
  obtain rfl := (Prod.mk.inj (runs.symm.trans runs')).2
  exact booked.forgotten admissible effect

/-- Empty tables with a single cell. -/
def emptyTables : TbState 1 where
  tbs _ :=
    { pc := 0, csBase := 0, flags := 0, size := 0, cflags := 0, tcPtr := 0, tcSize := 0
      tbNextOffset := fun _ => none, pageAddr0 := 0, pageAddr1 := none }
  hash _ := none
  page _ := none
  jmp _ := none
  jmpTarget _ := 0
  tbJmpCache _ _ := none
  pageFound _ := false
  codeBitmap _ := none
  codeWriteCount _ := 0
  physDirty _ := 0xff
  live := ∅

/-- A block of four bytes from the offset `0xffe` on, that spans two pages and has no jumps. -/
def spanningBlock : TranslationBlock where
  pc := 0x0ffe
  csBase := 0
  flags := 0
  size := 4
  cflags := 0
  tcPtr := 0x1000
  tcSize := 0x40
  tbNextOffset _ := none
  pageAddr0 := 0
  pageAddr1 := none

/-- The spanning block, linked where both its virtual pages are mapped to the physical page 1. -/
def foldedTables : TbState 1 := tbFillLink 0 spanningBlock 0x1ffe (some 0x1000) emptyTables

theorem foldedTables_linkable : Linkable emptyTables 0 spanningBlock 0x1ffe where
  free := notMem_empty 0
  placed := ⟨by decide, fun n offset isOffset => by simp [spanningBlock] at isOffset⟩
  apart other inUse := absurd inUse (notMem_empty other)
  offset := by decide

theorem foldedTables_reachable : Reachable foldedTables := by
  have admissible : (TbOp.linkPage 0 spanningBlock 0x1ffe (some 0x1000)).Admissible emptyTables :=
    foldedTables_linkable
  exact .step (.initial ⟨rfl, fun _ => rfl, fun _ => rfl, fun _ _ => rfl⟩) admissible rfl

theorem foldedTables_page :
    Chain foldedTables.page .pageNext none [(0, 1), (0, 0)] (.firstTb 1) := by
  rw [foldedTables, tbFillLink_eq]
  simp [Chain, linkedPages, push, targetPageSize, emptyTables]

theorem foldedTables_consistent :
    (∃ lists, Spells foldedTables lists ∧ Consistent foldedTables lists) ∧
      ∃ after, tbPhysInvalidate 0 none foldedTables = (.ok (), after) ∧
        ∃ lists, Spells after lists ∧ Forgotten 0 after lists := by
  obtain ⟨consistent, steps⟩ := reachable_consistent foldedTables_reachable
  have inUse : (0 : Fin 1) ∈ foldedTables.live := by
    exact mem_insert_self 0 ∅
  obtain ⟨after, runs, forgotten⟩ := steps (.physInvalidate 0) inUse
  exact ⟨consistent, after, runs, forgotten 0 rfl⟩

/-- A block both of whose pages are one physical page is twice in the list of that page. -/
theorem foldedTables_page_twice :
    Reachable foldedTables ∧ 0 ∈ foldedTables.live ∧
      (foldedTables.tbs 0).pageAddr0 / targetPageSize = 1 ∧
      ∀ lists, Spells foldedTables lists →
        ((lists.page 1).map Prod.fst).count (0 : Fin 1) = 2 := by
  refine ⟨foldedTables_reachable, ?_, ?_, fun lists spells => ?_⟩
  · exact mem_insert_self 0 ∅
  · rw [foldedTables, tbFillLink_eq]
    simp [linkedBlock, targetPageSize]
  · rw [(spells.page 1).unique foldedTables_page (by simp) (by simp)]
    rfl

end Qemu.Exec
