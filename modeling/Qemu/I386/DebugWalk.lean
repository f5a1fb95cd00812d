import Qemu.I386.Translation

/-!
# The debugger's page walk

`cpu_get_phys_page_debug` of `target-i386/helper.c` walks the page tables a second time, without
permissions and without setting bits.  It is compared with the page that a supervisor read has just
put into the TLB.
-/

namespace Qemu.I386

open Prog ByteMem List BitVec MmuState Level

variable {s : MmuState} {addr : BitVec 32}

/-! ## The walk -/

/-- An entry whose present bit the walk tests; without it the result is -1. -/
def presentEntry (entry : BitVec 64) : Option (BitVec 64) :=
  if entry.getLsbD pgPresent then some entry else none

/-- The address that both formats compute at the end. -/
def debugPage (addr : BitVec 32) (pte : BitVec 64) (pageSize : BitVec 32) : BitVec 64 :=
  (pte &&& ~~~0xfff#64) + ((addr &&& ~~~0xfff#32) &&& (pageSize - 1)).setWidth 64

/-- `pde_addr` and `pte_addr` of the PAE format. -/
def MmuState.debugQuadAddr (s : MmuState) (entry : BitVec 64) (index : BitVec 32) : BitVec 32 :=
  (((entry &&& ~~~0xfff#64) + (index <<< 3).setWidth 64) &&& s.a20Mask 64).setWidth 32

/-- The branch for `CR4_PAE_MASK`. -/
def debugPae (s : MmuState) (addr : BitVec 32) : Option (BitVec 64) := do
  let pdpeAddr : BitVec 32 := ((s.cr3 &&& ~~~0x1f#32) + ((addr >>> 27) &&& 0x18)) &&& s.a20Mask 32
  let pdpe ← presentEntry (ByteMem.read 8 s.mem (pdpeAddr.setWidth 64))
  let pdeAddr := s.debugQuadAddr pdpe ((addr >>> 21) &&& 0x1ff)
  let pde ← presentEntry (ByteMem.read 8 s.mem (pdeAddr.setWidth 64))
  if pde.getLsbD pgPse then
    let pte ← presentEntry (pde &&& ~~~0x1ff000)
    pure (debugPage addr pte 0x200000)
  else
    let pteAddr := s.debugQuadAddr pde ((addr >>> 12) &&& 0x1ff)
    let pte ← presentEntry (ByteMem.read 8 s.mem (pteAddr.setWidth 64))
    pure (debugPage addr pte 4096)

/-- The branch without `CR4_PAE_MASK`. -/
def debugLong (s : MmuState) (addr : BitVec 32) : Option (BitVec 64) :=
  if s.paging = false then some (debugPage addr (addr.setWidth 64 &&& s.a20Mask 64) 4096)
  else do
    let pdeAddr : BitVec 32 :=
      ((s.cr3 &&& ~~~0xfff#32) + ((addr >>> 20) &&& 0xffc)) &&& s.a20Mask 32
    let pde ← presentEntry ((ByteMem.read 4 s.mem (pdeAddr.setWidth 64)).setWidth 64)
    if pde.getLsbD pgPse && s.pse then
      pure (debugPage addr (pde &&& ~~~0x3ff000 &&& s.a20Mask 64) 0x400000)
    else
      let pteAddr : BitVec 32 :=
        ((pde.setWidth 32 &&& ~~~0xfff#32) + ((addr >>> 10) &&& 0xffc)) &&& s.a20Mask 32
      let pte ← presentEntry ((ByteMem.read 4 s.mem (pteAddr.setWidth 64)).setWidth 64)
      pure (debugPage addr (pte &&& s.a20Mask 64) 4096)

def cpuGetPhysPageDebug (s : MmuState) (addr : BitVec 32) : BitVec 64 :=
  ((if s.pae then debugPae s addr else debugLong s addr)).getD (-1)

/-! ## Accessed bits -/

section

variable {mem : ByteMem 64} {entry again : BitVec 64}

theorem Reread.trans {third : BitVec 64} (first : Reread entry again)
    (second : Reread again third) : Reread entry third := by
  cases first with
  | same => exact second
  | accessed =>
    cases second with
    | same => exact .accessed
    | accessed =>
      rw [BitVec.or_assoc, BitVec.or_self]
      exact .accessed

theorem reread_markAccessed {path : List Level} {read : ByteMem 64 → BitVec 64}
    (one : ∀ l ∈ path, l.rights = true → ∀ mem,
      Reread (read mem) (read (mem.orByte l.addr (marks false)))) :
    Reread (read mem) (read (markAccessed path mem)) := by
  induction path generalizing mem with
  | nil => exact .same
  | cons l rest ih =>
    have tail : ∀ {mem}, Reread (read mem) (read (markAccessed rest mem)) :=
      ih fun l' member => one l' (mem_cons_of_mem _ member)
    cases rights : l.rights with
    | false =>
      rw [markAccessed_cons_of_not rights]
      exact tail
    | true =>
      have split : markAccessed (l :: rest) mem =
          markAccessed rest (mem.orByte l.addr (marks false)) := by
        simp only [markAccessed, filter_cons, rights, if_true, foldl_cons]
        rfl
      rw [split]
      exact (one l mem_cons_self rights mem).trans tail

/-- Only the bits of an entry that a walk does not set matter. -/
theorem presentEntry_bind {α : Type} (reread : Reread entry again) {next : BitVec 64 → Option α}
    {next' : BitVec 64 → Option α} (same : next' again = next entry) :
    (presentEntry again).bind next' = (presentEntry entry).bind next := by
  rw [presentEntry, presentEntry, reread.getLsbD (by decide)]
  split
  · exact same
  · rfl

theorem debugQuadAddr_eq (s : MmuState) (entry : BitVec 64) (index : BitVec 32) :
    (s.debugQuadAddr entry index).setWidth 64 = low32 (s.quadAddr entry index) := by
  have frame : (entry &&& ~~~0xfff#64).setWidth 32 = (entry &&& physAddrMask).setWidth 32 := by
    rw [setWidth_and, setWidth_and]
    rfl
  have narrow : 32 ≤ 64 := by decide
  simp only [low32, debugQuadAddr, quadAddr]
  rw [@setWidth_and 64, @setWidth_and 64 32 (_ + _), setWidth_add _ _ narrow,
    setWidth_add _ _ narrow, frame]

theorem pointerLevel_aligned (s : MmuState) (addr : BitVec 32) :
    (s.pointerLevel addr).addr.toNat % 8 = 0 := by
  have low : (s.pointerLevel addr).addr.setWidth 3 = 0 := by
    have table : (~~~0x1f#32).setWidth 3 = 0 := by decide
    have index : setWidth 3 (0x18 : BitVec 32) = 0 := by decide
    simp only [pointerLevel, quad]
    rw [setWidth_setWidth_of_le _ (by decide), setWidth_and,
      setWidth_add _ _ (by decide), setWidth_and, setWidth_and, table, index]
    simp
  simpa [toNat_setWidth] using congrArg BitVec.toNat low

theorem Reread.and (reread : Reread entry again) {mask : BitVec 64}
    (keeps : pgMask pgAccessed &&& mask = pgMask pgAccessed) :
    Reread (entry &&& mask) (again &&& mask) := by
  cases reread with
  | same => exact .same
  | accessed =>
    rw [and_or_distrib_right, keeps]
    exact .accessed

theorem Reread.a20 (reread : Reread entry again) (s : MmuState) :
    Reread (entry &&& s.a20Mask 64) (again &&& s.a20Mask 64) := by
  apply reread.and
  rw [a20Mask]
  split <;> decide

theorem debugPage_reread (reread : Reread entry again) (size : BitVec 32) :
    debugPage addr again size = debugPage addr entry size := by
  rw [debugPage, debugPage, reread.and_of_clear (by decide)]

/-- Accessed bits at aligned addresses do not change what the debugger finds. -/
theorem debugPae_reread
    (reread : ∀ a, a.toNat % 8 = 0 → Reread (read 8 s.mem a) (read 8 mem a)) :
    debugPae { s with mem } addr = debugPae s addr := by
  have next : ∀ {entry again index}, Reread entry again →
      s.debugQuadAddr again index = s.debugQuadAddr entry index := by
    intro entry again index reread
    rw [debugQuadAddr, debugQuadAddr, reread.and_of_clear (by decide)]
  have entryAt : ∀ entry index, Reread
      (read 8 s.mem ((s.debugQuadAddr entry index).setWidth 64))
      (read 8 mem ((s.debugQuadAddr entry index).setWidth 64)) := by
    intro entry index
    rw [debugQuadAddr_eq]
    exact reread _ (low32_quadAddr_aligned s entry index)
  have pointer := reread _ (pointerLevel_aligned s addr)
  refine presentEntry_bind pointer ?_
  change (presentEntry (read 8 mem ((s.debugQuadAddr _ _).setWidth 64))).bind _ = _
  rw [next pointer]
  refine presentEntry_bind (entryAt _ _) ?_
  simp only [(entryAt _ _).getLsbD (by decide : pgPse ≠ pgAccessed)]
  split
  · have large := (entryAt (s.pointerLevel addr).entry ((addr >>> 21) &&& 0x1ff)).and
      (by decide : pgMask pgAccessed &&& ~~~0x1ff000 = _)
    exact presentEntry_bind large (congrArg some (debugPage_reread large _))
  · change (presentEntry (read 8 mem ((s.debugQuadAddr _ _).setWidth 64))).bind _ = _
    rw [next (entryAt _ _)]
    exact presentEntry_bind (entryAt _ _) (congrArg some (debugPage_reread (entryAt _ _) _))

theorem debugLong_reread
    (reread : ∀ a, a.toNat % 4 = 0 →
      Reread ((read 4 s.mem a).setWidth 64) ((read 4 mem a).setWidth 64)) :
    debugLong { s with mem } addr = debugLong s addr := by
  have directory := reread _ (longAddr_aligned s s.cr3 (addr >>> 20))
  have base : ∀ {entry again : BitVec 64}, Reread entry again →
      again.setWidth 32 &&& ~~~0xfff#32 = entry.setWidth 32 &&& ~~~0xfff#32 := by
    intro entry again reread
    have kept : again &&& ~~~0xfff#64 = entry &&& ~~~0xfff#64 := reread.and_of_clear (by decide)
    have narrowed := congrArg (setWidth 32) kept
    rw [setWidth_and, setWidth_and] at narrowed
    exact narrowed
  refine ite_congr rfl (fun _ => rfl) fun _ => presentEntry_bind directory ?_
  simp only [directory.getLsbD (by decide : pgPse ≠ pgAccessed)]
  refine ite_congr rfl (fun _ => ?_) fun _ => ?_
  · have large := (directory.and (by decide : pgMask pgAccessed &&& ~~~0x3ff000 = _)).a20 s
    exact congrArg some (debugPage_reread large _)
  · have table := reread _ (longAddr_aligned s ((long s
      (s.longAddr s.cr3 (addr >>> 20))).entry.setWidth 32) (addr >>> 10))
    simp only [base directory]
    exact presentEntry_bind table (congrArg some (debugPage_reread (table.a20 s) _))

end

/-! ## Paths -/

namespace MmuState

variable (s : MmuState) (addr : BitVec 32)

def directoryLevel : Level :=
  .quad s (low32 (s.quadAddr (s.pointerLevel addr).entry ((addr >>> 21) &&& 0x1ff))) true

def tableLevel : Level :=
  .quad s (low32 (s.quadAddr (s.directoryLevel addr).entry ((addr >>> 12) &&& 0x1ff))) true

/-- The entries that the debugger looks at in the PAE format. -/
def debugPath : List Level :=
  if (s.directoryLevel addr).entry.getLsbD pgPse then [s.pointerLevel addr, s.directoryLevel addr]
  else [s.pointerLevel addr, s.directoryLevel addr, s.tableLevel addr]

end MmuState

def leafFrame (s : MmuState) (path : List Level) : BitVec 64 :=
  (leafEntry path).entry &&& ~~~BitVec.ofNat 64 (2 ^ pageShift s path - 1)

/-- A frame with the offset of an address in the page of the path. -/
def framePage (s : MmuState) (path : List Level) (addr : BitVec 32) (frame : BitVec 64) :
    BitVec 64 :=
  frame + ((addr &&& ~~~0xfff#32) &&& BitVec.ofNat 32 (2 ^ pageShift s path - 1)).setWidth 64

theorem presentEntry_level {α : Type} (l : Level) (next : BitVec 64 → Option α) :
    (presentEntry l.entry).bind next = if l.present then next l.entry else none := by
  rw [presentEntry, present]
  split <;> rfl

theorem framePage_large (pae : s.pae = true) (l l' : Level) :
    framePage s [l, l'] addr (leafFrame s [l, l']) =
      debugPage addr (l'.entry &&& ~~~0x1ff000) 0x200000 := by
  have shift : pageShift s [l, l'] = 21 := by simp [pageShift, pae]
  rw [framePage, leafFrame, shift, debugPage, @and_assoc 64]
  rfl

theorem framePage_small (pae : s.pae = true) (l l' l'' : Level) :
    framePage s [l, l', l''] addr (leafFrame s [l, l', l'']) = debugPage addr l''.entry 4096 := by
  have shift : pageShift s [l, l', l''] = 12 := by simp [pageShift, pae]
  rw [framePage, leafFrame, shift, debugPage]
  rfl

theorem debugPae_eq (pae : s.pae = true) :
    debugPae s addr = if (s.debugPath addr).all (·.present) then
      some (framePage s (s.debugPath addr) addr (leafFrame s (s.debugPath addr))) else none := by
  refine (presentEntry_level (s.pointerLevel addr) _).trans ?_
  simp only [debugQuadAddr_eq]
  refine (if_congr Iff.rfl (presentEntry_level (s.directoryLevel addr) _) rfl).trans ?_
  rw [debugPath]
  cases large : (s.directoryLevel addr).entry.getLsbD pgPse with
  | true =>
    simp only [if_true, framePage_large pae, all_cons, all_nil, Bool.and_true]
    cases (s.pointerLevel addr).present with
    | false => rfl
    | true =>
      cases present : (s.directoryLevel addr).present with
      | false => rfl
      | true =>
        have still : presentEntry ((s.directoryLevel addr).entry &&& ~~~0x1ff000) =
            some ((s.directoryLevel addr).entry &&& ~~~0x1ff000) := by
          rw [Level.present] at present
          rw [presentEntry, getLsbD_and, present]
          rfl
        exact congrArg (bind · _) still
  | false =>
    have table := presentEntry_level (s.tableLevel addr) fun pte =>
      some (debugPage addr pte 4096)
    simp only [Bool.false_eq_true, if_false, framePage_small pae, all_cons, all_nil, Bool.and_true]
    cases (s.pointerLevel addr).present with
    | false => rfl
    | true =>
      cases (s.directoryLevel addr).present with
      | false => rfl
      | true => exact table

theorem codePath_eq_debugPath (pae : s.pae = true)
    (present : ∀ l ∈ s.codePath addr, l.present = true)
    (fine : ∀ l ∈ s.codePath addr, l.rights = true → l.reserved s = false) :
    s.codePath addr = s.debugPath addr := by
  rw [codePath, if_pos pae, paeCodePath] at present fine ⊢
  cases stops : !(s.pointerLevel addr).present with
  | true =>
    rw [paePath_of_halts stops] at present
    rw [present _ (mem_singleton_self _)] at stops
    cases stops
  | false =>
    rw [paePath_of_not_halts stops] at present fine ⊢
    have member : s.directoryLevel addr ∈ s.pointerLevel addr :: s.paeBelow addr low32 :=
      mem_cons_of_mem _ mem_cons_self
    have usable : (s.directoryLevel addr).usable s = true := by
      rw [usable, present _ member, fine _ member rfl]
      rfl
    change _ :: s.directoryLevel addr :: (if !(s.directoryLevel addr).usable s ||
      (s.directoryLevel addr).entry.getLsbD pgPse then [] else [s.tableLevel addr]) = _
    rw [usable, debugPath]
    cases (s.directoryLevel addr).entry.getLsbD pgPse <;> rfl

theorem and_swap (a b c : BitVec 64) : a &&& b &&& c = a &&& c &&& b := by
  rw [BitVec.and_assoc, and_comm b, ← BitVec.and_assoc]

theorem debugLong_eq (paging : s.paging = true) (twoLevel : s.pae = false)
    (present : ∀ l ∈ s.longPath addr, l.present = true) :
    debugLong s addr = some (framePage s (s.longPath addr) addr
      (leafFrame s (s.longPath addr) &&& s.a20Mask 64)) := by
  rw [debugLong, if_neg (by simp [paging])]
  refine (presentEntry_level (long s (s.longAddr s.cr3 (addr >>> 20))) _).trans ?_
  rw [longPath_eq] at present ⊢
  generalize long s (s.longAddr s.cr3 (addr >>> 20)) = directory at present ⊢
  cases there : directory.present with
  | false => simp [there] at present
  | true =>
    simp only [there, Bool.not_true, Bool.false_or, if_true] at present ⊢
    split
    · have shift : pageShift s [directory] = 22 := by simp [pageShift, twoLevel]
      rw [framePage, leafFrame, shift, debugPage, and_swap _ (s.a20Mask 64),
        and_assoc directory.entry]
      rfl
    · next small =>
      rw [if_neg small] at present
      have table := present _ (mem_cons_of_mem _ mem_cons_self)
      have shift : ∀ l, pageShift s [directory, l] = 12 := by simp [pageShift, twoLevel]
      refine (presentEntry_level (long s
        (s.longAddr (directory.entry.setWidth 32) (addr >>> 10))) _).trans ?_
      rw [if_pos table, framePage, leafFrame, shift, and_swap]
      rfl

/-! ## Agreement -/

/-- Where the debugger finds the page of the CPU: without PAE; with paging, if the frame in the last
entry has no bit outside `PHYS_ADDR_MASK` and none that the A20 gate masks; and without paging, if
the PAE tables map the page to itself. -/
def DebugAgrees (s : MmuState) (addr : BitVec 32) : Prop :=
  s.pae = true →
    if s.paging then leafFrame s (s.debugPath addr) &&& physAddrMask &&& s.a20Mask 64 =
      leafFrame s (s.debugPath addr)
    else (∀ l ∈ s.debugPath addr, l.present = true) ∧
      framePage s (s.debugPath addr) addr (leafFrame s (s.debugPath addr)) =
        debugPage addr (addr.setWidth 64 &&& s.a20Mask 64) 4096

theorem mappedPaddr {path : List Level} {leaf : Leaf} (found : LeafOf s path addr false leaf) :
    (leaf.pte &&& s.a20Mask 64 &&& ~~~0xfff#64) + (pageOffset addr leaf).setWidth 64 =
      framePage s path addr (leafFrame s path &&& physAddrMask &&& s.a20Mask 64) := by
  have offset := @pageOffset_eq _ _ _ .read _ found
  rw [and_swap, found.frame, offset, framePage, leafFrame, and_swap _ physAddrMask]

theorem debugPath_aligned : ∀ l ∈ s.debugPath addr, l.addr.toNat % 8 = 0 := by
  have directory : (s.directoryLevel addr).addr.toNat % 8 = 0 := low32_quadAddr_aligned ..
  have table : (s.tableLevel addr).addr.toNat % 8 = 0 := low32_quadAddr_aligned ..
  rw [debugPath]
  split <;> simp [pointerLevel_aligned, directory, table]

theorem longPath_aligned : ∀ l ∈ s.longPath addr, l.addr.toNat % 4 = 0 := by
  intro l member
  obtain ⟨base, index, rfl⟩ := longPath_mem member
  exact longAddr_aligned s base index

theorem leafFrame_long :
    leafFrame s (s.longPath addr) &&& physAddrMask = leafFrame s (s.longPath addr) := by
  have narrow : ∃ value : BitVec 32, (leafEntry (s.longPath addr)).entry = value.setWidth 64 := by
    rw [longPath_eq]
    dsimp only
    split <;> exact ⟨_, rfl⟩
  obtain ⟨value, narrow⟩ := narrow
  rw [leafFrame, narrow, BitVec.and_assoc]
  apply long_and
  rcases pageShift_cases s (s.longPath addr) with shift | shift | shift <;> rw [shift] <;> decide

theorem debugPage_ne (pte : BitVec 64) : debugPage addr pte 4096 ≠ -1 := by
  intro equal
  have bit := congrArg (getLsbD · 0) equal
  simp [debugPage, BitVec.and_assoc] at bit

theorem debug_marked_pae (pae : s.pae = true) (present : ∀ l ∈ s.debugPath addr, l.present = true) :
    cpuGetPhysPageDebug { s with mem := markAccessed (s.debugPath addr) s.mem } addr =
      framePage s (s.debugPath addr) addr (leafFrame s (s.debugPath addr)) := by
  have unmarked : debugPae { s with mem := markAccessed (s.debugPath addr) s.mem } addr =
      debugPae s addr :=
    debugPae_reread fun a aligned => @reread_markAccessed _ _ _ fun l member _ mem =>
      reread_quad mem (debugPath_aligned l member) aligned
  rw [debugPae_eq pae, if_pos (all_eq_true.mpr present)] at unmarked
  exact congrArg (Option.getD · _) ((if_pos pae).trans unmarked)

theorem debug_marked_long (paging : s.paging = true) (twoLevel : s.pae = false)
    (present : ∀ l ∈ s.longPath addr, l.present = true) :
    cpuGetPhysPageDebug { s with mem := markAccessed (s.longPath addr) s.mem } addr =
      framePage s (s.longPath addr) addr (leafFrame s (s.longPath addr) &&& s.a20Mask 64) := by
  have unmarked : debugLong { s with mem := markAccessed (s.longPath addr) s.mem } addr =
      debugLong s addr :=
    debugLong_reread fun a aligned => @reread_markAccessed _ _ _ fun l member _ mem =>
      reread_entry mem (by decide) (by decide) (longPath_aligned l member) aligned
  rw [debugLong_eq paging twoLevel present] at unmarked
  exact congrArg (Option.getD · _) ((if_neg (Bool.eq_false_iff.mp twoLevel)).trans unmarked)

theorem debug_unpaged_iff (paging : s.paging = false) :
    cpuGetPhysPageDebug s addr = debugPage addr (addr.setWidth 64 &&& s.a20Mask 64) 4096 ↔
      DebugAgrees s addr := by
  cases pae : s.pae with
  | false => simp [cpuGetPhysPageDebug, debugLong, DebugAgrees, pae, paging]
  | true =>
    rw [cpuGetPhysPageDebug, if_pos pae, debugPae_eq pae]
    simp only [DebugAgrees, pae, paging, forall_const, Bool.false_eq_true, if_false]
    split
    · next present =>
      rw [Option.getD_some, and_iff_right (all_eq_true.mp present)]
    · next missing =>
      exact iff_of_false (debugPage_ne _).symm fun agrees => missing (all_eq_true.mpr agrees.1)

/-- After a supervisor read that does not fault the debugger finds the page that was mapped exactly
where `DebugAgrees` says. -/
theorem debug_agrees_iff (s : MmuState) (addr : BitVec 32) :
    ∃ raised s', cpuX86HandleMmuFault addr .read false s = (.ok raised, s') ∧
      (raised = false → ∃ page, s'.tlb = s.tlb ++ [page] ∧
        (cpuGetPhysPageDebug s' addr = page.paddr ↔ DebugAgrees s addr)) := by
  cases paging : s.paging with
  | false => exact ⟨_, _, handle_unpaged paging, fun _ => ⟨_, rfl, debug_unpaged_iff paging⟩⟩
  | true =>
    cases @walkFormat_run s addr .read false with
    | notPresent mem _ ends | reserved mem _ _ ends | protection mem _ _ _ ends =>
      exact ⟨_, _, handle_of_error paging ends, nofun⟩
    | mapped leaf present fine _ found ends =>
      refine ⟨_, _, handle_of_ok paging ends, fun _ => ⟨_, rfl, ?_⟩⟩
      change cpuGetPhysPageDebug { s with mem := markAccessed (s.codePath addr) s.mem } addr =
        (leaf.pte &&& s.a20Mask 64 &&& ~~~0xfff#64) + (pageOffset addr leaf).setWidth 64 ↔ _
      rw [mappedPaddr found]
      cases pae : s.pae with
      | false =>
        have same : s.codePath addr = s.longPath addr := if_neg (by simp [pae])
        rw [same] at present ⊢
        rw [debug_marked_long paging pae present, leafFrame_long]
        simp [DebugAgrees, pae]
      | true =>
        have same := codePath_eq_debugPath pae present fine
        rw [same] at present ⊢
        rw [debug_marked_pae pae present, framePage, framePage, BitVec.add_left_inj, eq_comm]
        simp [DebugAgrees, pae, paging]

/-- A page of two megabytes that must not be executed, with `NX` enabled. -/
def noExecutePage : MmuState :=
  { reservedDirectory with
    efer := 0x800
    mem := fun a =>
      if a = 0x1000 then 0x01 else if a = 0x1001 then 0x20
      else if a = 0x2000 then 0xa1 else if a = 0x2007 then 0x80 else 0 }

/-- The debugger takes the `NX` bit for a part of the address. -/
theorem noExecutePage_debug :
    ∃ s' page, cpuX86HandleMmuFault 0 .read false noExecutePage = (.ok false, s') ∧
      s'.tlb = [page] ∧ page.paddr = 0 ∧ cpuGetPhysPageDebug s' 0 = 0x8000000000000000 :=
  ⟨_, _, rfl, rfl, by decide, by decide⟩

end Qemu.I386
