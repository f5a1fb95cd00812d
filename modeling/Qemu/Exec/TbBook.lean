import Qemu.Exec.TbTables

/-!
# The tables hold exactly the live blocks

The invariant of the translation-block tables.  `dest` is the abstract content of the jump lists:
the block, if any, that a jump is chained to.  Every operation keeps the invariant and comes back,
and the pointers spell out the lists that the invariant describes.
-/

namespace Qemu.Exec

open Links Prog List Finset TranslationBlock JmpRef Fintype
open Function (Injective update update_of_ne update_self update_idem)

variable {N : Nat}

/-- Block `tb` is filed in the hash chain `h`. -/
def InHash (s : TbState N) (h : Nat) (tb : Fin N) : Prop :=
  tb ∈ s.live ∧ tbPhysHashFunc (s.tbs tb).physPc = h

/-- The tagged block is filed in the list of `page`. -/
def InPage (s : TbState N) (page : Nat) (ref : Fin N × Fin 2) : Prop :=
  ref.1 ∈ s.live ∧ ((s.tbs ref.1).pageAddr ref.2).map (· / targetPageSize) = some page

/-- The tagged jump is on the list of the block it is chained to. -/
def InJmp (dest : Fin N × Fin 2 → Option (Fin N)) (owner : Fin N) : JmpRef N → Prop
  | .jmpNext tb n => dest (tb, n) = some owner
  | .jmpFirst _ => False

/-- What the code generator guarantees about the code of one block: its epilogues lie inside it,
behind its entry. -/
structure Placed (block : TranslationBlock) : Prop where
  nonempty : 0 < block.tcSize
  inside : ∀ n offset, block.tbNextOffset n = some offset → 0 < offset ∧ offset < block.tcSize

/-- The native code of two blocks does not overlap. -/
def CodeApart (a b : TranslationBlock) : Prop :=
  a.tcPtr + a.tcSize ≤ b.tcPtr ∨ b.tcPtr + b.tcSize ≤ a.tcPtr

/-- Where a jump goes that is chained as `dest` says. -/
def jmpAddr (s : TbState N) (dest : Fin N × Fin 2 → Option (Fin N)) (jump : Fin N × Fin 2) : Nat :=
  match dest jump with
  | some tb => (s.tbs tb).tcPtr
  | none => (s.tbs jump.1).epilogue jump.2

/-- The invariant of the tables. -/
structure Booked (s : TbState N) (dest : Fin N × Fin 2 → Option (Fin N)) : Prop where
  hash : Filed s.hash .physHashNext .tbPhysHash (fun _ => none) (fun _ => True) (InHash s)
  page : Filed s.page .pageNext .firstTb (fun _ => none) (fun _ => True) (InPage s)
  jmp : Filed s.jmp id .jmpFirst (fun owner => some (.jmpFirst owner)) (· ∈ s.live) (InJmp dest)
  chained : ∀ tb n owner, dest (tb, n) = some owner →
    tb ∈ s.live ∧ owner ∈ s.live ∧ (s.tbs tb).tbNextOffset n ≠ none
  unchained : ∀ tb ∈ s.live, ∀ n, s.jmp (.jmpNext tb n) = none ↔ dest (tb, n) = none
  target : ∀ tb ∈ s.live, ∀ n, (s.tbs tb).tbNextOffset n ≠ none →
    s.jmpTarget (tb, n) = jmpAddr s dest (tb, n)
  cache : ∀ cpu i tb, s.tbJmpCache cpu i = some tb →
    tb ∈ s.live ∧ i = tbJmpCacheHashFunc (s.tbs tb).pc
  found : ∀ tb ∈ s.live, ∀ n addr, (s.tbs tb).pageAddr n = some addr →
    s.pageFound (addr / targetPageSize) = true
  placed : ∀ tb ∈ s.live, Placed (s.tbs tb)
  apart : ∀ a ∈ s.live, ∀ b ∈ s.live, a ≠ b → CodeApart (s.tbs a) (s.tbs b)

abbrev HashFiled (hash : HashSlot N → Option (Fin N)) : (Nat → Fin N → Prop) → Prop :=
  Filed hash .physHashNext .tbPhysHash (fun _ => none) fun _ => True

abbrev PageFiled (page : PageSlot N → Option (Fin N × Fin 2)) :
    (Nat → Fin N × Fin 2 → Prop) → Prop :=
  Filed page .pageNext .firstTb (fun _ => none) fun _ => True

theorem tbPhysHash_injective : Injective (HashSlot.tbPhysHash (N := N)) :=
  fun _ _ => HashSlot.tbPhysHash.inj

theorem physHashNext_injective : Injective (HashSlot.physHashNext (N := N)) :=
  fun _ _ => HashSlot.physHashNext.inj

theorem firstTb_injective : Injective (PageSlot.firstTb (N := N)) := fun _ _ => PageSlot.firstTb.inj

theorem pageNext_injective : Injective (PageSlot.pageNext (N := N)) :=
  fun _ _ => PageSlot.pageNext.inj

theorem jmpFirst_injective : Injective (jmpFirst (N := N)) := fun _ _ => jmpFirst.inj

/-! ## Linking a block -/

theorem tbAllocPage_eq (tb : Fin N) (n : Fin 2) (addr : Nat) (s : TbState N) :
    tbAllocPage tb n addr s =
      { s with
        tbs := update s.tbs tb ((s.tbs tb).setPageAddr n addr)
        pageFound := fun other =>
          s.pageFound other || other / 1024 == addr / targetPageSize / 1024
        page := push s.page .pageNext (.firstTb (addr / targetPageSize)) (tb, n)
        codeBitmap := update s.codeBitmap (addr / targetPageSize) none
        codeWriteCount := update s.codeWriteCount (addr / targetPageSize) 0
        physDirty := (tbAllocPage tb n addr s).physDirty } := by
  rw [tbAllocPage]
  split <;> rfl

local instance neZeroTwo : NeZero 2 := ⟨two_ne_zero⟩

/-- The page lists after a block has been linked. -/
def linkedPages (page : PageSlot N → Option (Fin N × Fin 2)) (tb : Fin N) (physPc : Nat)
    (physPage2 : Option Nat) : PageSlot N → Option (Fin N × Fin 2) :=
  let first := Links.push page .pageNext
    (.firstTb ((physPc - physPc % targetPageSize) / targetPageSize)) (tb, 0)
  match physPage2 with
  | none => first
  | some page2 => Links.push first .pageNext (.firstTb (page2 / targetPageSize)) (tb, 1)

/-- The block as `tb_link_page` leaves it. -/
def linkedBlock (block : TranslationBlock) (physPc : Nat) (physPage2 : Option Nat) :
    TranslationBlock :=
  { block with pageAddr0 := physPc - physPc % targetPageSize, pageAddr1 := physPage2 }

/-- The jump targets after those of block `tb` have been reset. -/
def resetTargets (target : Fin N × Fin 2 → Nat) (tb : Fin N) (block : TranslationBlock) :
    Fin N × Fin 2 → Nat := fun jump =>
  if jump.1 = tb ∧ block.tbNextOffset jump.2 ≠ none then block.epilogue jump.2 else target jump

theorem tbLinkPages_eq (tb : Fin N) (physPc : Nat) (physPage2 : Option Nat) (s : TbState N) :
    tbLinkPages tb physPc physPage2 s =
      { s with
        tbs := update s.tbs tb (linkedBlock (s.tbs tb) physPc physPage2)
        page := linkedPages s.page tb physPc physPage2
        pageFound := (tbLinkPages tb physPc physPage2 s).pageFound
        codeBitmap := (tbLinkPages tb physPc physPage2 s).codeBitmap
        codeWriteCount := (tbLinkPages tb physPc physPage2 s).codeWriteCount
        physDirty := (tbLinkPages tb physPc physPage2 s).physDirty } := by
  cases physPage2 with
  | none =>
    rw [tbLinkPages]
    rw [tbAllocPage_eq]
    simp only [update_self, update_idem]
    rfl
  | some page2 =>
    rw [tbLinkPages, tbAllocPage_eq tb 1, tbAllocPage_eq tb 0]
    simp only [update_self, update_idem]
    rfl

/-- Linking a block keeps every page descriptor and makes those of its pages. -/
theorem tbLinkPages_found (tb : Fin N) (physPc : Nat) (physPage2 : Option Nat) (s : TbState N)
    (page : Nat) :
    (tbLinkPages tb physPc physPage2 s).pageFound page = true ↔
      s.pageFound page = true ∨ ∃ n addr, (linkedBlock (s.tbs tb) physPc physPage2).pageAddr n =
        some addr ∧ page / 1024 = addr / targetPageSize / 1024 := by
  cases physPage2 with
  | none =>
    rw [tbLinkPages]
    rw [tbAllocPage_eq]
    simp [Fin.exists_fin_two, linkedBlock, pageAddr]
  | some page2 =>
    rw [tbLinkPages, tbAllocPage_eq tb 1, tbAllocPage_eq tb 0]
    simp [Fin.exists_fin_two, linkedBlock, pageAddr, or_assoc]

theorem tbInitJumps_eq (tb : Fin N) (s : TbState N) :
    tbInitJumps tb s =
      { s with
        jmp := update (update (update s.jmp (.jmpFirst tb)
          (some (.jmpFirst tb))) (.jmpNext tb 0) none) (.jmpNext tb 1) none
        jmpTarget := resetTargets s.jmpTarget tb (s.tbs tb) } := by
  rw [tbInitJumps]
  by_cases first : (s.tbs tb).tbNextOffset 0 = none <;>
    by_cases second : (s.tbs tb).tbNextOffset 1 = none <;>
    simp only [tbResetJump, tbSetJmpTarget, first, second, ne_eq, not_true, not_false_iff, if_true,
      if_false] <;>
    congr 1 <;> funext ⟨other, n⟩ <;> fin_cases n <;>
    simp [resetTargets, update, Prod.ext_iff, first, second]

/-- The cell `tb` is free, and the code generated for it lies apart from all live code. -/
structure Linkable (s : TbState N) (tb : Fin N) (block : TranslationBlock) (physPc : Nat) :
    Prop where
  free : tb ∉ s.live
  placed : Placed block
  apart : ∀ other ∈ s.live, CodeApart block (s.tbs other)
  offset : physPc % targetPageSize = block.pc.toNat % targetPageSize

def tbFillLink (tb : Fin N) (block : TranslationBlock) (physPc : Nat) (physPage2 : Option Nat)
    (s : TbState N) : TbState N :=
  tbLinkPage tb physPc physPage2 { s with tbs := update s.tbs tb block }

section Link

variable {s : TbState N} {dest : Fin N × Fin 2 → Option (Fin N)} {tb : Fin N}
  {block : TranslationBlock} {physPc : Nat} {physPage2 : Option Nat}

theorem linkedBlock_physPc (offset : physPc % targetPageSize = block.pc.toNat % targetPageSize) :
    (linkedBlock block physPc physPage2).physPc = physPc := by
  rw [TranslationBlock.physPc, linkedBlock, ← offset]
  exact Nat.sub_add_cancel (Nat.mod_le _ _)

theorem tbFillLink_eq (tb : Fin N) (block : TranslationBlock) (physPc : Nat)
    (physPage2 : Option Nat) (s : TbState N) :
    tbFillLink tb block physPc physPage2 s =
      { s with
        tbs := update s.tbs tb (linkedBlock block physPc physPage2)
        hash := push s.hash .physHashNext (.tbPhysHash (tbPhysHashFunc physPc)) tb
        page := linkedPages s.page tb physPc physPage2
        jmp := update (update (update s.jmp (.jmpFirst tb)
          (some (.jmpFirst tb))) (.jmpNext tb 0) none) (.jmpNext tb 1) none
        jmpTarget := resetTargets s.jmpTarget tb block
        pageFound := (tbFillLink tb block physPc physPage2 s).pageFound
        codeBitmap := (tbFillLink tb block physPc physPage2 s).codeBitmap
        codeWriteCount := (tbFillLink tb block physPc physPage2 s).codeWriteCount
        physDirty := (tbFillLink tb block physPc physPage2 s).physDirty
        live := insert tb s.live } := by
  rw [tbFillLink, tbLinkPage]
  simp only [tbInitJumps_eq]
  rw [tbLinkPages_eq]
  simp only [update_self, update_idem]
  rfl

theorem Booked.dest_free (booked : Booked s dest) (free : tb ∉ s.live) (n : Fin 2) :
    dest (tb, n) = none := by
  by_contra chained
  obtain ⟨owner, chained⟩ := Option.ne_none_iff_exists'.mp chained
  exact free (booked.chained tb n owner chained).1

theorem Booked.no_jmp_free (booked : Booked s dest) (free : tb ∉ s.live) (ref : JmpRef N) :
    ¬ InJmp dest tb ref := by
  match ref with
  | .jmpNext other n => exact fun chained => free (booked.chained other n tb chained).2.1
  | .jmpFirst _ => exact id

theorem Booked.link_hash (booked : Booked s dest) (ok : Linkable s tb block physPc) :
    HashFiled (tbFillLink tb block physPc physPage2 s).hash
      (InHash (tbFillLink tb block physPc physPage2 s)) := by
  rw [tbFillLink_eq]
  refine booked.hash.push tbPhysHash_injective physHashNext_injective
    (fun h inside => ok.free inside.1) nofun fun h other => ?_
  by_cases same : other = tb
  · subst same
    simp [InHash, ok.free, linkedBlock_physPc ok.offset, eq_comm]
  · simp [InHash, same]

theorem inPage_fillLink (free : tb ∉ s.live) (page : Nat) (ref : Fin N × Fin 2) :
    InPage (tbFillLink tb block physPc physPage2 s) page ref ↔
      (InPage s page ref ∨ page = (physPc - physPc % targetPageSize) / targetPageSize ∧
        ref = (tb, 0)) ∨ physPage2.map (· / targetPageSize) = some page ∧ ref = (tb, 1) := by
  rw [tbFillLink_eq]
  obtain ⟨other, n⟩ := ref
  by_cases same : other = tb
  · subst same
    match n with
    | 0 => simp [InPage, free, linkedBlock, pageAddr, eq_comm]
    | 1 => simp [InPage, free, linkedBlock, pageAddr]
  · simp [InPage, same]

section

variable (booked : Booked s dest) (ok : Linkable s tb block physPc)

include booked ok

theorem Booked.link_page :
    PageFiled (tbFillLink tb block physPc physPage2 s).page
      (InPage (tbFillLink tb block physPc physPage2 s)) := by
  have pages : (tbFillLink tb block physPc physPage2 s).page =
      linkedPages s.page tb physPc physPage2 := by rw [tbFillLink_eq]
  have first : ∀ belongs,
      (∀ page ref, belongs page ref ↔ InPage s page ref ∨
        page = (physPc - physPc % targetPageSize) / targetPageSize ∧ ref = (tb, 0)) →
      PageFiled (linkedPages s.page tb physPc none) belongs := fun _ added =>
    booked.page.push firstTb_injective pageNext_injective (fun page inside => ok.free inside.1)
      (by simp) added
  rw [pages]
  cases physPage2 with
  | none => exact first _ fun page ref => (inPage_fillLink ok.free page ref).trans (by simp)
  | some page2 =>
    have both := first _ fun _ _ => Iff.rfl
    refine both.push firstTb_injective pageNext_injective ?_ (by simp)
      fun page ref => (inPage_fillLink ok.free page ref).trans (by simp [eq_comm])
    rintro page (inside | ⟨-, same⟩)
    · exact ok.free inside.1
    · cases same

theorem Booked.link_jmp :
    Filed (tbFillLink tb block physPc physPage2 s).jmp id .jmpFirst
      (fun owner => some (.jmpFirst owner)) (· ∈ (tbFillLink tb block physPc physPage2 s).live)
      (InJmp dest) := by
  rw [tbFillLink_eq]
  refine booked.jmp.activate (booked.no_jmp_free ok.free)
    (fun owner on => mem_insert.mp on) (by simp) (fun owner other => by simp [other]) ?_
  rintro owner (⟨other, n⟩ | other) inside
  · have notTb : other ≠ tb := by
      rintro rfl
      exact ok.free (booked.chained other n owner inside).1
    simp [notTb]
  · exact inside.elim

/-- Linking a block in a free cell keeps the invariant; its jumps are not chained. -/
theorem Booked.link : Booked (tbFillLink tb block physPc physPage2 s) dest := by
  have liveAfter (other : Fin N) : other ∈ (tbFillLink tb block physPc physPage2 s).live ↔
      other = tb ∨ other ∈ s.live := by
    rw [tbFillLink_eq]
    exact mem_insert
  have here : (tbFillLink tb block physPc physPage2 s).tbs tb =
      linkedBlock block physPc physPage2 := by
    rw [tbFillLink_eq]
    exact update_self ..
  have elsewhere : ∀ other ∈ s.live,
      (tbFillLink tb block physPc physPage2 s).tbs other = s.tbs other := by
    intro other inUse
    rw [tbFillLink_eq]
    exact update_of_ne (ne_of_mem_of_not_mem inUse ok.free) ..
  refine ⟨booked.link_hash ok, booked.link_page ok, booked.link_jmp ok, ?_, ?_, ?_, ?_, ?_, ?_, ?_⟩
  · intro other n owner chained
    obtain ⟨inUse, ownerInUse, jump⟩ := booked.chained other n owner chained
    exact ⟨(liveAfter other).mpr (Or.inr inUse), (liveAfter owner).mpr (Or.inr ownerInUse),
      (elsewhere other inUse).symm ▸ jump⟩
  · intro other inUse n
    rcases (liveAfter other).mp inUse with rfl | inUse
    · refine iff_of_true ?_ (booked.dest_free ok.free n)
      rw [tbFillLink_eq]
      match n with
      | 0 => simp
      | 1 => simp
    · rw [tbFillLink_eq, ← booked.unchained other inUse n]
      simp [ne_of_mem_of_not_mem inUse ok.free]
  · intro other inUse n jump
    rcases (liveAfter other).mp inUse with rfl | inUse
    · rw [here] at jump
      rw [jmpAddr, booked.dest_free ok.free n, here, tbFillLink_eq]
      exact if_pos ⟨rfl, jump⟩
    · rw [elsewhere other inUse] at jump
      have before := booked.target other inUse n jump
      have kept : (tbFillLink tb block physPc physPage2 s).jmpTarget (other, n) =
          s.jmpTarget (other, n) := by
        rw [tbFillLink_eq]
        exact if_neg fun both => ne_of_mem_of_not_mem inUse ok.free both.1
      rw [kept, before, jmpAddr, jmpAddr]
      match chained : dest (other, n) with
      | none => simp only [elsewhere other inUse]
      | some owner => simp only [elsewhere owner (booked.chained other n owner chained).2.1]
  · intro cpu i other cached
    rw [tbFillLink_eq] at cached
    obtain ⟨inUse, slot⟩ := booked.cache cpu i other cached
    exact ⟨(liveAfter other).mpr (Or.inr inUse), (elsewhere other inUse).symm ▸ slot⟩
  · intro other inUse n addr named
    rw [tbFillLink, tbLinkPage]
    simp only [tbInitJumps_eq, tbLinkPages_found]
    rcases (liveAfter other).mp inUse with rfl | inUse
    · rw [here] at named
      exact Or.inr ⟨n, addr, by simpa using named, rfl⟩
    · rw [elsewhere other inUse] at named
      exact Or.inl (booked.found other inUse n addr named)
  · intro other inUse
    rcases (liveAfter other).mp inUse with rfl | inUse
    · rw [here]
      exact ⟨ok.placed.nonempty, ok.placed.inside⟩
    · rw [elsewhere other inUse]
      exact booked.placed other inUse
  · intro a aAfter b bAfter other
    rcases (liveAfter a).mp aAfter with rfl | aLive <;>
      rcases (liveAfter b).mp bAfter with rfl | bLive
    · exact absurd rfl other
    · rw [here, elsewhere b bLive]
      exact ok.apart b bLive
    · rw [here, elsewhere a aLive]
      exact (ok.apart a aLive).symm
    · rw [elsewhere a aLive, elsewhere b bLive]
      exact booked.apart a aLive b bLive other

end

end Link

/-! ## Flushing and chaining -/

section Chain

variable {s : TbState N} {dest : Fin N × Fin 2 → Option (Fin N)} {tb owner : Fin N} {n : Fin 2}

theorem booked_of_empty (none_live : s.live = ∅) (hash : ∀ h, s.hash (.tbPhysHash h) = none)
    (page : ∀ p, s.page (.firstTb p) = none) (cache : ∀ cpu i, s.tbJmpCache cpu i = none) :
    Booked s fun _ => none where
  hash := .empty (fun h _ => hash h) (by simp [InHash, none_live])
  page := .empty (fun p _ => page p) (by simp [InPage, none_live])
  jmp := .empty (by simp [none_live]) fun _ ref => by cases ref <;> simp [InJmp]
  chained _ _ _ chained := by simp at chained
  unchained _ inUse := by simp [none_live] at inUse
  target _ inUse := by simp [none_live] at inUse
  cache cpu i _ cached := by simp [cache cpu i] at cached
  found _ inUse := by simp [none_live] at inUse
  placed _ inUse := by simp [none_live] at inUse
  apart _ inUse := by simp [none_live] at inUse

theorem booked_tbFlush (s : TbState N) : Booked (tbFlush s) fun _ => none :=
  booked_of_empty rfl (fun _ => rfl) (fun _ => rfl) fun _ _ => rfl

theorem Booked.jmpFirst_ne (booked : Booked s dest) (inUse : owner ∈ s.live) :
    s.jmp (.jmpFirst owner) ≠ none := by
  obtain ⟨nodes, chain, -, -⟩ := booked.jmp.lists owner inUse
  cases nodes with
  | nil =>
    have self : s.jmp (.jmpFirst owner) = some (.jmpFirst owner) := chain
    simp [self]
  | cons x rest => simp [chain.1]

def chainJump (dest : Fin N × Fin 2 → Option (Fin N)) (jump : Fin N × Fin 2) (owner : Fin N) :
    Fin N × Fin 2 → Option (Fin N) :=
  if dest jump = none then update dest jump (some owner) else dest

theorem inJmp_update (unchained : dest (tb, n) = none) (k : Fin N) (ref : JmpRef N) :
    InJmp (update dest (tb, n) (some owner)) k ref ↔
      InJmp dest k ref ∨ k = owner ∧ ref = .jmpNext tb n := by
  match ref with
  | .jmpFirst other => simp [InJmp]
  | .jmpNext other m =>
    by_cases same : other = tb ∧ m = n
    · obtain ⟨rfl, rfl⟩ := same
      simp [InJmp, unchained, eq_comm]
    · simp [InJmp, same]

theorem Booked.addJump (booked : Booked s dest) (inUse : tb ∈ s.live)
    (ownerInUse : owner ∈ s.live) (jump : (s.tbs tb).tbNextOffset n ≠ none) :
    Booked (tbAddJump tb n owner s) (chainJump dest (tb, n) owner) := by
  by_cases free : s.jmp (.jmpNext tb n) = none
  · have unchained := (booked.unchained tb inUse n).mp free
    rw [tbAddJump, if_pos free, chainJump, if_pos unchained]
    refine { booked with jmp := ?_, chained := ?_, unchained := ?_, target := ?_ }
    · refine booked.jmp.push jmpFirst_injective Function.injective_id (k := owner)
        (x := .jmpNext tb n) ?_ nofun (inJmp_update unchained)
      intro k inside
      have chained : dest (tb, n) = some k := inside
      simp [unchained] at chained
    · intro other m k chained
      by_cases same : (other, m) = (tb, n)
      · obtain ⟨rfl, rfl⟩ := Prod.mk.inj same
        obtain rfl : owner = k := by simpa using chained
        exact ⟨inUse, ownerInUse, jump⟩
      · rw [update_of_ne same] at chained
        exact booked.chained other m k chained
    · intro other otherInUse m
      by_cases same : other = tb ∧ m = n
      · obtain ⟨rfl, rfl⟩ := same
        simp [push, tbSetJmpTarget, booked.jmpFirst_ne ownerInUse]
      · rw [update_of_ne (mt Prod.mk.inj same), ← booked.unchained other otherInUse m]
        simp [push, tbSetJmpTarget, update, same]
    · intro other otherInUse m otherJump
      by_cases same : (other, m) = (tb, n)
      · obtain ⟨rfl, rfl⟩ := Prod.mk.inj same
        simp [tbSetJmpTarget, jmpAddr]
      · have before := booked.target other otherInUse m otherJump
        simp only [tbSetJmpTarget, jmpAddr, update_of_ne same]
        exact before
  · have chained : dest (tb, n) ≠ none := fun none => free ((booked.unchained tb inUse n).mpr none)
    rw [tbAddJump, if_neg free, chainJump, if_neg chained]
    exact booked

end Chain

/-! ## Lookup -/

section Lookup

variable {s : TbState N} {dest : Fin N × Fin 2 → Option (Fin N)} {tb : Fin N} {cpu : Nat}
  {request : Request} {slot : HashSlot N} {made : Translation N}

/-- Moving a block to the front of its chain, from the slot that points to it, keeps the
invariant. -/
theorem Booked.moveToFront (booked : Booked s dest)
    (inside : InHash s (tbPhysHashFunc request.physPc) tb) (samePc : (s.tbs tb).pc = request.pc)
    (unlinked : s.hash slot ≠ none → HashFiled (unlink s.hash .physHashNext slot tb)
      fun h other => InHash s h other ∧ other ≠ tb) :
    Booked (tbMoveToFront cpu request slot tb s) dest := by
  have cached : ∀ other i k, update s.tbJmpCache cpu
      (update (s.tbJmpCache cpu) (tbJmpCacheHashFunc request.pc) (some tb)) other i =
        some k → k ∈ s.live ∧ i = tbJmpCacheHashFunc (s.tbs k).pc := by
    intro other i k entry
    by_cases entered : other = cpu ∧ i = tbJmpCacheHashFunc request.pc
    · obtain ⟨rfl, rfl⟩ := entered
      obtain rfl : tb = k := by simpa using entry
      exact ⟨inside.1, by rw [samePc]⟩
    · refine booked.cache other i k ?_
      by_cases sameCpu : other = cpu
      · subst sameCpu
        rwa [update_self, update_of_ne fun same => entered ⟨rfl, same⟩] at entry
      · rwa [update_of_ne sameCpu] at entry
  by_cases null : s.hash slot = none
  · rw [tbMoveToFront]
    simp only [if_pos null]
    exact { booked with cache := cached }
  · rw [tbMoveToFront]
    simp only [if_neg null]
    refine { booked with hash := ?_, cache := cached }
    refine (unlinked null).push tbPhysHash_injective physHashNext_injective
      (fun h both => both.2 rfl) nofun fun h other => ?_
    by_cases same : other = tb
    · subst same
      simp only [ne_eq, not_true, and_false, and_true, false_or]
      exact ⟨fun here => booked.hash.unique h _ other here inside, fun here => here ▸ inside⟩
    · simp only [same, ne_eq, not_false_iff, and_true, and_false, or_false]
      exact Iff.rfl

theorem Booked.tbLookup_cases (booked : Booked s dest) (request : Request) :
    (∃ slot tb, tbLookup request s = some (slot, some tb) ∧
      InHash s (tbPhysHashFunc request.physPc) tb ∧ request.matches (s.tbs tb) = true ∧
      HashFiled (unlink s.hash .physHashNext slot tb)
        fun h other => InHash s h other ∧ other ≠ tb) ∨
    ∃ slot, tbLookup request s = some (slot, none) ∧ s.hash slot = none ∧
      (slot = .tbPhysHash (tbPhysHashFunc request.physPc) ∨
        ∃ tb ∈ s.live, slot = .physHashNext tb) := by
  have enough : card (Fin N) < N + 1 := by simp
  by_cases some_hit : ∃ tb, InHash s (tbPhysHashFunc request.physPc) tb ∧
      request.matches (s.tbs tb) = true
  · obtain ⟨slot, tb, found, inside, hits, unlinked⟩ := booked.hash.search_unlink
      tbPhysHash_injective physHashNext_injective trivial some_hit enough
    exact Or.inl ⟨slot, tb, found, inside, hits, unlinked _ fun _ _ => Iff.rfl⟩
  · have no_hit := fun tb inside => by
      simpa using fun hits => some_hit ⟨tb, inside, hits⟩
    obtain ⟨slot, missed, null, place⟩ := booked.hash.search_none trivial no_hit enough
    refine Or.inr ⟨slot, missed, null, place.imp_right ?_⟩
    rintro ⟨tb, inside, same⟩
    exact ⟨tb, inside.1, same⟩

theorem tbGenCode_eq (made : Translation N) (physPc : Nat) (s : TbState N) :
    tbGenCode made physPc s = tbFillLink made.tb made.block physPc made.physPage2
      (if made.flush then tbFlush s else s) := rfl

/-- The slot at which the walk missed is null after the translation, or it is the head of the chain
and points to the new block. -/
theorem tbGenCode_slot (null : s.hash slot = none)
    (place : slot = .tbPhysHash (tbPhysHashFunc request.physPc) ∨
      ∃ tb ∈ s.live, slot = .physHashNext tb)
    (free : made.flush = false → made.tb ∉ s.live) :
    (tbGenCode made request.physPc s).hash slot = none ∨
      slot = .tbPhysHash (tbPhysHashFunc request.physPc) := by
  rcases place with atHead | ⟨tb, inUse, rfl⟩
  · exact Or.inr atHead
  · left
    rw [tbGenCode_eq, tbFillLink_eq]
    simp only [push]
    cases flush : made.flush with
    | true =>
      by_cases same : tb = made.tb
      · subst same
        simp [tbFlush]
      · simpa [tbFlush, same] using null
    | false =>
      have other : tb ≠ made.tb := fun same => free flush (same ▸ inUse)
      simpa [other] using null

/-- `tb_find_slow` comes back with a live block for the request and keeps the invariant. -/
theorem Booked.findSlow (booked : Booked s dest) (cpu : Nat)
    (makes : ∀ slot, tbLookup request s = some (slot, none) → made.block.pc = request.pc ∧
      Linkable (if made.flush then tbFlush s else s) made.tb made.block request.physPc) :
    ∃ tb after dest', tbFindSlow cpu request made s = (.ok tb, after) ∧ Booked after dest' := by
  rw [tbFindSlow]
  rcases booked.tbLookup_cases request with
    ⟨slot, tb, found, inside, hits, unlinked⟩ | ⟨slot, missed, null, place⟩
  · refine ⟨tb, tbMoveToFront cpu request slot tb s, dest, ?_, ?_⟩
    · rw [get_bind, found]
      rfl
    · have samePc : (s.tbs tb).pc = request.pc := by
        simp only [Request.matches, decide_eq_true_eq] at hits
        exact hits.1
      exact booked.moveToFront inside samePc fun _ => unlinked
  · obtain ⟨samePc, linkable⟩ := makes slot missed
    obtain ⟨dest', start⟩ : ∃ dest', Booked (if made.flush then tbFlush s else s) dest' := by
      cases made.flush with
      | true => exact ⟨_, booked_tbFlush s⟩
      | false => exact ⟨dest, booked⟩
    have linked : Booked (tbGenCode made request.physPc s) dest' := start.link linkable
    have inside : InHash (tbGenCode made request.physPc s) (tbPhysHashFunc request.physPc)
        made.tb := by
      rw [tbGenCode_eq, tbFillLink_eq]
      simp [InHash, linkedBlock_physPc linkable.offset]
    refine ⟨made.tb, tbMoveToFront cpu request slot made.tb (tbGenCode made request.physPc s),
      dest', ?_, linked.moveToFront inside ?_ ?_⟩
    · rw [get_bind, missed]
      rfl
    · rw [tbGenCode_eq, tbFillLink_eq]
      simpa [linkedBlock] using samePc
    · intro notNull
      have free : made.flush = false → made.tb ∉ s.live := fun noFlush => by
        have := linkable.free
        rwa [noFlush, if_neg Bool.false_ne_true] at this
      rcases tbGenCode_slot null place free with nullAfter | rfl
      · exact absurd nullAfter notNull
      · have atHead : (tbGenCode made request.physPc s).hash
            (.tbPhysHash (tbPhysHashFunc request.physPc)) = some made.tb := by
          rw [tbGenCode_eq, tbFillLink_eq]
          exact update_self ..
        obtain ⟨nodes, chain, nodup, members⟩ :=
          linked.hash.lists (tbPhysHashFunc request.physPc) trivial
        cases nodes with
        | nil => exact absurd chain (by simp [Links.Chain, atHead])
        | cons first rest =>
          obtain rfl : made.tb = first := Option.some.inj (atHead.symm.trans chain.1)
          have split : Links.Chain (tbGenCode made request.physPc s).hash .physHashNext none
            ([] ++ made.tb :: rest) (.tbPhysHash (tbPhysHashFunc request.physPc)) := chain
          exact linked.hash.unlink tbPhysHash_injective physHashNext_injective split nodup members
            fun _ _ => Iff.rfl

end Lookup

/-! ## Invalidation -/

section Invalidate

variable {s : TbState N} {dest : Fin N × Fin 2 → Option (Fin N)} {tb : Fin N}

theorem tbRemove_run {belongs : Nat → Fin N → Prop} {h : Nat}
    (filed : HashFiled s.hash belongs) (inside : belongs h tb) :
    ∃ hash, tbRemove h tb s = (.ok (), { s with hash := hash }) ∧
      HashFiled hash fun k other => belongs k other ∧ other ≠ tb := by
  have enough : card (Fin N) < N + 1 := by simp
  have some_hit : ∃ x, belongs h x ∧ decide (x = tb) = true := ⟨tb, inside, decide_eq_true rfl⟩
  obtain ⟨slot, x, found, -, hits, unlinked⟩ := filed.search_unlink tbPhysHash_injective
    physHashNext_injective trivial some_hit enough
  obtain rfl : x = tb := of_decide_eq_true hits
  refine ⟨_, ?_, unlinked _ fun _ _ => Iff.rfl⟩
  rw [tbRemove, get_bind, found]
  rfl

/-- The part of `tb_phys_invalidate` that deals with one page takes one entry of the block out of
the list of that page. -/
theorem tbPageForget_run {belongs : Nat → Fin N × Fin 2 → Prop} {addr : Nat} {n : Fin 2}
    (filed : PageFiled s.page belongs) (inside : belongs (addr / targetPageSize) (tb, n))
    (known : s.pageFound (addr / targetPageSize) = true) :
    ∃ page m, belongs (addr / targetPageSize) (tb, m) ∧
      tbPageForget tb addr s =
        (.ok (), invalidatePageBitmap (addr / targetPageSize) { s with page := page }) ∧
      PageFiled page fun p ref => belongs p ref ∧ ref ≠ (tb, m) := by
  have enough : card (Fin N × Fin 2) < 2 * N + 1 := by
    rw [Fintype.card_prod, Fintype.card_fin, Fintype.card_fin]
    omega
  have some_hit : ∃ ref, belongs (addr / targetPageSize) ref ∧
      decide (ref.1 = tb) = true := ⟨(tb, n), inside, decide_eq_true rfl⟩
  obtain ⟨slot, ⟨other, m⟩, found, there, hits, unlinked⟩ := filed.search_unlink
    firstTb_injective pageNext_injective trivial some_hit enough
  obtain rfl : other = tb := of_decide_eq_true hits
  refine ⟨_, m, there, ?_, unlinked _ fun _ _ => Iff.rfl⟩
  rw [tbPageForget, get_bind, if_pos known, tbPageRemove, bind_apply, get_bind, found]
  rfl

/-- The jump lists of the live blocks, and the link fields of the jumps on none of them. -/
structure JmpFiled (jmp : JmpRef N → Option (JmpRef N)) (live : Finset (Fin N))
    (dest : Fin N × Fin 2 → Option (Fin N)) : Prop where
  filed : Filed jmp id .jmpFirst (fun owner => some (.jmpFirst owner)) (· ∈ live) (InJmp dest)
  chained : ∀ tb n owner, dest (tb, n) = some owner → owner ∈ live
  unchained : ∀ tb ∈ live, ∀ n, jmp (.jmpNext tb n) = none ↔ dest (tb, n) = none

theorem inJmp_update_none (n : Fin 2) (k : Fin N) (ref : JmpRef N) :
    InJmp (update dest (tb, n) none) k ref ↔ InJmp dest k ref ∧ ref ≠ .jmpNext tb n := by
  match ref with
  | .jmpFirst other => simp [InJmp]
  | .jmpNext other m =>
    by_cases same : other = tb ∧ m = n
    · obtain ⟨rfl, rfl⟩ := same
      simp [InJmp]
    · simp [InJmp, same]

/-- `tb_jmp_remove` takes the jump off the list it is on, if any. -/
theorem tbJmpRemove_run (jumps : JmpFiled s.jmp s.live dest) (inUse : tb ∈ s.live) (n : Fin 2) :
    ∃ jmp, tbJmpRemove tb n s = (.ok (), { s with jmp := jmp }) ∧
      JmpFiled jmp s.live (update dest (tb, n) none) := by
  by_cases null : s.jmp (.jmpNext tb n) = none
  · have free := (jumps.unchained tb inUse n).mp null
    have same : update dest (tb, n) none = dest := by
      rw [← free]
      exact Function.update_eq_self ..
    refine ⟨s.jmp, ?_, same.symm ▸ jumps⟩
    rw [tbJmpRemove, get_bind, if_pos null]
    rfl
  · obtain ⟨owner, chained⟩ : ∃ owner, dest (tb, n) = some owner :=
      Option.ne_none_iff_exists'.mp fun free => null ((jumps.unchained tb inUse n).mpr free)
    have enough : card (JmpRef N) < 3 * N + 1 := by
      rw [card_jmpRef]
      omega
    obtain ⟨slot, found, filed⟩ := jumps.filed.search_unlink_self jmpFirst_injective
      (jumps.chained tb n owner chained) (show InJmp dest owner (.jmpNext tb n) from chained) enough
      (inJmp_update_none n)
    refine ⟨_, ?_, filed, ?_, ?_⟩
    · rw [tbJmpRemove, get_bind, if_neg null, found]
      rfl
    · intro other m k chained'
      by_cases same : (other, m) = (tb, n)
      · simp [same] at chained'
      · rw [update_of_ne same] at chained'
        exact jumps.chained other m k chained'
    · intro other otherInUse m
      by_cases same : other = tb ∧ m = n
      · obtain ⟨rfl, rfl⟩ := same
        simp
      · rw [update_of_ne (mt jmpNext.inj same), update_of_ne (mt Prod.mk.inj same),
          ← jumps.unchained other otherInUse m]
        by_cases atSlot : jmpNext other m = slot
        · have pointed := search_reads found
          rw [← atSlot] at pointed
          rw [unlink, atSlot, update_self, ← atSlot, pointed]
          simpa using null
        · rw [unlink, update_of_ne atSlot]

/-- The block leaves the lists of all its pages, also if its two pages are one. -/
theorem tbLeavePages_run
    (pages : PageFiled s.page (InPage s)) (inUse : tb ∈ s.live)
    (known : ∀ n addr, (s.tbs tb).pageAddr n = some addr →
      s.pageFound (addr / targetPageSize) = true) :
    ∃ page bitmap count, tbLeavePages tb (s.tbs tb) none s =
        (.ok (), { s with page := page, codeBitmap := bitmap, codeWriteCount := count }) ∧
      PageFiled page (fun p ref => InPage s p ref ∧ ref.1 ≠ tb) ∧
      ∀ p, bitmap p = none ∨ bitmap p = s.codeBitmap p := by
  have inFirst : InPage s ((s.tbs tb).pageAddr0 / targetPageSize) (tb, 0) := ⟨inUse, rfl⟩
  obtain ⟨page, m, there, run, filed⟩ := tbPageForget_run pages inFirst
    (known 0 _ rfl)
  have bitmaps : ∀ (bitmap : Nat → Option (Nat → BitVec 8)) q,
      (∀ p, bitmap p = none ∨ bitmap p = s.codeBitmap p) →
      ∀ p, update bitmap q none p = none ∨
        update bitmap q none p = s.codeBitmap p := by
    intro bitmap q before p
    by_cases same : p = q
    · simp [same]
    · rw [update_of_ne same]
      exact before p
  rw [tbLeavePages, if_neg (by simp), bind_apply, run]
  cases second : (s.tbs tb).pageAddr1 with
  | none =>
    have onlyFirst : ∀ p n, InPage s p (tb, n) → n = 0 := by
      intro p n inside
      match n with
      | 0 => rfl
      | 1 => simp [InPage, pageAddr, second] at inside
    obtain rfl := onlyFirst _ m there
    have gone : ∀ p ref, InPage s p ref → (ref ≠ (tb, 0) ↔ ref.1 ≠ tb) := by
      rintro p ⟨other, n⟩ inside
      refine not_congr ⟨fun same => congrArg Prod.fst same, fun same => ?_⟩
      obtain rfl : other = tb := same
      rw [onlyFirst p n inside]
    refine ⟨_, _, _, rfl, ?_, bitmaps _ _ fun p => Or.inr rfl⟩
    exact filed.of_iff fun p ref => and_congr_right fun inside => (gone p ref inside).symm
  | some addr =>
    have inSecond : InPage s (addr / targetPageSize) (tb, 1) :=
      ⟨inUse, by rw [pageAddr, second]; rfl⟩
    obtain ⟨n, left⟩ : ∃ n, InPage s (addr / targetPageSize) (tb, n) ∧ (tb, n) ≠ (tb, m) := by
      match m with
      | 0 => exact ⟨1, inSecond, by simp⟩
      | 1 =>
        refine ⟨0, ?_, by simp⟩
        rwa [pages.unique _ _ (tb, 1) inSecond there]
    obtain ⟨page', m', ⟨-, other⟩, run', filed'⟩ := tbPageForget_run
      (s := invalidatePageBitmap ((s.tbs tb).pageAddr0 / targetPageSize) { s with page := page })
      filed left (known 1 addr second)
    have gone : ∀ ref, (ref ≠ (tb, m) ∧ ref ≠ (tb, m')) ↔ ref.1 ≠ tb := by
      rintro ⟨x, k⟩
      have covers : ∀ a b c : Fin 2, a ≠ b → c = b ∨ c = a := by decide
      have different : m' ≠ m := fun same => other (by rw [same])
      rw [← not_or]
      refine not_congr ⟨fun either => either.elim (congrArg Prod.fst) (congrArg Prod.fst), ?_⟩
      rintro rfl
      exact (covers m' m k different).imp (congrArg _) (congrArg _)
    refine ⟨_, _, _, run', ?_, bitmaps _ _ (bitmaps _ _ fun p => Or.inr rfl)⟩
    exact filed'.of_iff fun p ref => by rw [and_assoc, gone]

theorem suppressJumps_run {mem : JmpRef N → Option (JmpRef N)} {nodes : List (JmpRef N)}
    {slot : JmpRef N} {fuel : Nat} (chain : Chain mem id (some (.jmpFirst tb)) nodes slot)
    (nodup : nodes.Nodup) (jumps : ∀ ref ∈ nodes, ∃ other n, ref = .jmpNext other n)
    (agree : ∀ ref ∈ nodes, s.jmp ref = mem ref) (enough : nodes.length < fuel) :
    suppressJumps fuel (mem slot) s =
      (.ok (), { s with
        jmp := fun ref => if ref ∈ nodes then none else s.jmp ref
        jmpTarget := fun jump => if .jmpNext jump.1 jump.2 ∈ nodes
          then (s.tbs jump.1).epilogue jump.2 else s.jmpTarget jump }) := by
  induction nodes generalizing s slot fuel with
  | nil =>
    obtain ⟨fuel, rfl⟩ : ∃ less, fuel = less + 1 := ⟨fuel - 1, by omega⟩
    have ends : mem slot = some (.jmpFirst tb) := chain
    rw [ends, suppressJumps]
    simp
  | cons ref rest ih =>
    obtain ⟨fuel, rfl⟩ : ∃ less, fuel = less + 1 := ⟨fuel - 1, by omega⟩
    obtain ⟨other, n, rfl⟩ := jumps ref mem_cons_self
    obtain ⟨notIn, nodup'⟩ := nodup_cons.mp nodup
    rw [chain.1, suppressJumps, get_bind, modify_bind, modify_bind, agree _ mem_cons_self]
    have shorter : rest.length < fuel := by simpa using enough
    refine (ih chain.2 nodup' (fun x member => jumps x (mem_cons_of_mem _ member)) ?_
      shorter).trans ?_
    · intro x member
      have notSame : x ≠ .jmpNext other n := fun same => notIn (same ▸ member)
      rw [← agree x (mem_cons_of_mem _ member)]
      exact update_of_ne notSame ..
    · have cleared : (fun x => if x ∈ rest then none else
          update s.jmp (.jmpNext other n) none x) =
          fun x => if x ∈ jmpNext other n :: rest then none else s.jmp x := by
        funext x
        by_cases same : x = .jmpNext other n
        · simp [same]
        · simp [same]
      have reset : (fun jump => if jmpNext jump.1 jump.2 ∈ rest
            then (s.tbs jump.1).epilogue jump.2
            else update s.jmpTarget (other, n) ((s.tbs other).epilogue n) jump) =
          fun jump => if jmpNext jump.1 jump.2 ∈ jmpNext other n :: rest
            then (s.tbs jump.1).epilogue jump.2 else s.jmpTarget jump := by
        funext jump
        by_cases same : jump = (other, n)
        · simp [same]
        · simp [update_of_ne same, mt (Prod.ext_iff.mpr ·) same]
      simp only [tbResetJump, tbSetJmpTarget, cleared, reset]

/-- What is left of the chained jumps once a block is gone. -/
def forgetBlock (dest : Fin N × Fin 2 → Option (Fin N)) (tb : Fin N) :
    Fin N × Fin 2 → Option (Fin N) := fun jump =>
  if jump.1 = tb ∨ dest jump = some tb then none else dest jump

theorem forgetBlock_eq_some {jump : Fin N × Fin 2} {owner : Fin N} :
    forgetBlock dest tb jump = some owner ↔
      jump.1 ≠ tb ∧ owner ≠ tb ∧ dest jump = some owner := by
  rw [forgetBlock]
  constructor
  · intro chained
    split at chained
    · simp at chained
    · next kept =>
      rw [not_or] at kept
      exact ⟨kept.1, fun same => kept.2 (same ▸ chained), chained⟩
  · rintro ⟨other, otherOwner, chained⟩
    rw [if_neg, chained]
    rintro (same | same)
    · exact other same
    · exact otherOwner (Option.some.inj (chained.symm.trans same))

/-- A block whose own jumps are off all lists leaves the jump lists when its own list is
suppressed. -/
theorem JmpFiled.suppress {jmp : JmpRef N → Option (JmpRef N)} {live : Finset (Fin N)}
    {nodes : List (JmpRef N)} {cut : Fin N × Fin 2 → Option (Fin N)}
    (isCut : cut = update (update dest (tb, 0) none) (tb, 1) none) (jumps : JmpFiled jmp live cut)
    (members : ∀ ref, ref ∈ nodes ↔ InJmp cut tb ref) :
    JmpFiled (update (fun ref => if ref ∈ nodes then none else jmp ref) (.jmpFirst tb)
      (some (.jmpFirst tb))) (live.erase tb) (forgetBlock dest tb) := by
  have others : ∀ other n, other ≠ tb → cut (other, n) = dest (other, n) := by
    intro other n different
    simp [isCut, different]
  have own : ∀ n, cut (tb, n) = none := by
    intro n
    match n with
    | 0 => simp [isCut]
    | 1 => simp [isCut]
  have less : ∀ k ref, InJmp (forgetBlock dest tb) k ref → InJmp cut k ref ∧ k ≠ tb := by
    rintro k (⟨other, n⟩ | other) inside
    · obtain ⟨different, otherOwner, chained⟩ := forgetBlock_eq_some.mp inside
      exact ⟨(others other n different).trans chained, otherOwner⟩
    · exact inside.elim
  refine ⟨jumps.filed.frame (fun k on => mem_of_mem_erase on) ?_
    (fun k ref inside => (less k ref inside).1) ?_ ?_, ?_, ?_⟩
  · intro k on ref
    refine ⟨fun inside => (less k ref inside).1, fun inside => ?_⟩
    match ref with
    | .jmpFirst other => exact inside.elim
    | .jmpNext other n =>
      have different : other ≠ tb := by
        rintro rfl
        exact absurd (own n) (by rw [show _ = some k from inside]; simp)
      exact forgetBlock_eq_some.mpr ⟨different, ne_of_mem_erase on,
        (others other n different).symm.trans inside⟩
  · intro k on
    have notFirst : jmpFirst k ≠ .jmpFirst tb := fun same =>
      ne_of_mem_erase on (jmpFirst.inj same)
    have notIn : jmpFirst k ∉ nodes := fun member => ((members _).mp member).elim
    rw [update_of_ne notFirst, if_neg notIn]
  · intro k ref on inside
    have notIn : ref ∉ nodes := fun member =>
      ne_of_mem_erase on (jumps.filed.unique k tb ref inside ((members ref).mp member))
    have notFirst : ref ≠ .jmpFirst tb := by
      rintro rfl
      exact inside.elim
    rw [id, update_of_ne notFirst, if_neg notIn]
  · intro other n owner chained
    obtain ⟨different, otherOwner, chained⟩ := forgetBlock_eq_some.mp chained
    exact mem_erase.mpr ⟨otherOwner,
      jumps.chained other n owner ((others other n different).trans chained)⟩
  · intro other inUse n
    have different := ne_of_mem_erase inUse
    have listed : jmpNext other n ∈ nodes ↔ dest (other, n) = some tb := by
      rw [members, InJmp, others other n different]
    have before := jumps.unchained other (mem_of_mem_erase inUse) n
    rw [others other n different] at before
    rw [update_of_ne (by simp), forgetBlock]
    simp only [listed, different, false_or]
    split
    · simp
    · exact before

/-- What `tb_phys_invalidate` does to the tables. -/
structure Invalidated (s : TbState N) (dest : Fin N × Fin 2 → Option (Fin N)) (tb : Fin N)
    (after : TbState N) : Prop where
  tbs : after.tbs = s.tbs
  live : after.live = s.live.erase tb
  hash : Filed after.hash .physHashNext .tbPhysHash (fun _ => none) (fun _ => True)
    fun h other => InHash s h other ∧ other ≠ tb
  page : Filed after.page .pageNext .firstTb (fun _ => none) (fun _ => True)
    fun p ref => InPage s p ref ∧ ref.1 ≠ tb
  jmp : JmpFiled after.jmp (s.live.erase tb) (forgetBlock dest tb)
  target : ∀ other ≠ tb, ∀ n, after.jmpTarget (other, n) =
    if dest (other, n) = some tb then (s.tbs other).epilogue n else s.jmpTarget (other, n)
  cache : after.tbJmpCache = (tbJmpCacheForget tb s).tbJmpCache
  found : after.pageFound = s.pageFound
  dirty : after.physDirty = s.physDirty
  bitmap : ∀ p, after.codeBitmap p = none ∨ after.codeBitmap p = s.codeBitmap p

theorem Booked.physInvalidate_run (booked : Booked s dest) (inUse : tb ∈ s.live) :
    ∃ after, tbPhysInvalidate tb none s = (.ok (), after) ∧ Invalidated s dest tb after := by
  obtain ⟨hash, hashRun, hashFiled⟩ := tbRemove_run booked.hash ⟨inUse, rfl⟩
  obtain ⟨page, bitmap, count, pageRun, pageFiled, bitmaps⟩ :=
    tbLeavePages_run (s := { s with hash := hash }) booked.page inUse (booked.found tb inUse)
  obtain ⟨between, isBetween⟩ : ∃ between, between = tbJmpCacheForget tb { s with
    hash := hash, page := page, codeBitmap := bitmap, codeWriteCount := count } := ⟨_, rfl⟩
  have jumps : JmpFiled between.jmp between.live dest := by
    rw [isBetween]
    exact ⟨booked.jmp, fun other n owner chained => (booked.chained other n owner chained).2.1,
      booked.unchained⟩
  have inUse' : tb ∈ between.live := isBetween ▸ inUse
  obtain ⟨jmp₀, run₀, jumps₀⟩ := tbJmpRemove_run jumps inUse' 0
  obtain ⟨jmp₁, run₁, jumps₁⟩ := tbJmpRemove_run (s := { between with jmp := jmp₀ }) jumps₀
    inUse' 1
  obtain ⟨nodes, chain, nodup, members⟩ := jumps₁.filed.lists tb inUse'
  have onlyJumps : ∀ ref ∈ nodes, ∃ other n, ref = jmpNext other n := by
    rintro (⟨other, n⟩ | other) member
    · exact ⟨other, n, rfl⟩
    · exact ((members _).mp member).elim
  have enough : nodes.length < 3 * N + 1 := by
    have bound := nodup.length_le_card
    rw [card_jmpRef] at bound
    omega
  have suppressed := suppressJumps_run (s := { between with jmp := jmp₁ }) chain nodup onlyJumps
    (fun _ _ => rfl) enough
  refine ⟨{ between with
    jmp := update (fun ref => if ref ∈ nodes then none else jmp₁ ref) (.jmpFirst tb)
      (some (.jmpFirst tb))
    jmpTarget := fun jump => if .jmpNext jump.1 jump.2 ∈ nodes
      then (between.tbs jump.1).epilogue jump.2 else between.jmpTarget jump
    live := between.live.erase tb }, ?_, ?_⟩
  · rw [tbPhysInvalidate, get_bind, bind_of_ok hashRun, bind_of_ok pageRun,
      modify_bind, ← isBetween, bind_of_ok run₀, bind_of_ok run₁, get_bind,
      bind_of_ok suppressed]
    rfl
  · have left := jumps₁.suppress rfl members
    subst isBetween
    refine ⟨rfl, rfl, hashFiled, pageFiled, left, ?_, rfl, rfl, rfl, bitmaps⟩
    intro other different n
    have listed : jmpNext other n ∈ nodes ↔ dest (other, n) = some tb := by
      rw [members, InJmp]
      simp [different]
    simp only [listed]
    rfl

theorem Booked.invalidated {after : TbState N} (booked : Booked s dest)
    (effect : Invalidated s dest tb after) : Booked after (forgetBlock dest tb) where
  hash := by
    refine effect.hash.of_iff fun h other => ?_
    rw [InHash, InHash, effect.tbs, effect.live, mem_erase]
    tauto
  page := by
    refine effect.page.of_iff fun p ref => ?_
    rw [InPage, InPage, effect.tbs, effect.live, mem_erase]
    tauto
  jmp := effect.live ▸ effect.jmp.filed
  chained other n owner chained := by
    obtain ⟨different, otherOwner, chained⟩ := forgetBlock_eq_some.mp chained
    obtain ⟨inUse, ownerInUse, jump⟩ := booked.chained other n owner chained
    rw [effect.tbs, effect.live]
    exact ⟨mem_erase.mpr ⟨different, inUse⟩, mem_erase.mpr ⟨otherOwner, ownerInUse⟩, jump⟩
  unchained := effect.live ▸ effect.jmp.unchained
  target other inUse n jump := by
    rw [effect.live] at inUse
    rw [effect.tbs] at jump
    have different := ne_of_mem_erase inUse
    have before := booked.target other (mem_of_mem_erase inUse) n jump
    rw [effect.target other different n, jmpAddr, forgetBlock, effect.tbs]
    simp only [different, false_or]
    split
    · rfl
    · exact before
  cache cpu i other cached := by
    rw [effect.cache] at cached
    have entry : s.tbJmpCache cpu i = some other ∧
        ¬ (other = tb ∧ i = tbJmpCacheHashFunc (s.tbs tb).pc) := by
      rw [tbJmpCacheForget] at cached
      simp only at cached
      split at cached
      · by_cases same : i = tbJmpCacheHashFunc (s.tbs tb).pc
        · simp [same] at cached
        · rw [update_of_ne same] at cached
          exact ⟨cached, fun both => same both.2⟩
      · next holds =>
        refine ⟨cached, ?_⟩
        rintro ⟨rfl, rfl⟩
        exact holds cached
    obtain ⟨inUse, slot⟩ := booked.cache cpu i other entry.1
    rw [effect.tbs, effect.live]
    refine ⟨mem_erase.mpr ⟨?_, inUse⟩, slot⟩
    rintro rfl
    exact entry.2 ⟨rfl, slot⟩
  found := by
    rw [effect.live, effect.tbs, effect.found]
    exact fun other inUse => booked.found other (mem_of_mem_erase inUse)
  placed := by
    rw [effect.live, effect.tbs]
    exact fun other inUse => booked.placed other (mem_of_mem_erase inUse)
  apart := by
    rw [effect.live, effect.tbs]
    exact fun a aLive b bLive => booked.apart a (mem_of_mem_erase aLive) b
      (mem_of_mem_erase bLive)

end Invalidate

end Qemu.Exec
