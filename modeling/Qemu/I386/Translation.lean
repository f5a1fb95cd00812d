import Qemu.I386.PageWalk

/-!
# Translations and page faults

`cpu_x86_handle_mmu_fault` does what the architecture says, except in four situations which
`Departs` lists.
-/

namespace Qemu.I386

open Prog ByteMem List MmuState Level
open BitVec (ofNat and_assoc)
open BitVec hiding and_assoc not_or

variable {reach : BitVec 64 → BitVec 64} {mem : ByteMem 64} {code : BitVec 32}
variable {halts : Level → Bool} {l : Level}

/-! ## The path of the source -/

section Paths

variable {s : MmuState} {addr : BitVec 32}

/-- The entries that the source visits. -/
def MmuState.codePath (s : MmuState) (addr : BitVec 32) : List Level :=
  if s.pae then s.paeCodePath addr else s.longPath addr

/-- A pointer of the PAE format is present and has its `NX` bit set while that bit is reserved. -/
def MmuState.pointerReserved (s : MmuState) (addr : BitVec 32) : Bool :=
  s.pae && (s.pointerLevel addr).reserved s

theorem low32_of_lt {a : BitVec 64} (small : a.toNat < 2 ^ 32) : low32 a = a := by
  apply eq_of_toNat_eq
  rw [low32, toNat_setWidth, toNat_setWidth]
  omega

theorem setWidth_lt (a : BitVec 32) : (a.setWidth 64).toNat < 2 ^ 32 := by
  rw [toNat_setWidth]
  omega

/-- The part of a PAE path below its pointer. -/
def MmuState.paeBelow (s : MmuState) (addr : BitVec 32) (reach : BitVec 64 → BitVec 64) :
    List Level :=
  let directory := Level.quad s
    (reach (s.quadAddr (s.pointerLevel addr).entry ((addr >>> 21) &&& 0x1ff))) true
  directory :: if !directory.usable s || directory.entry.getLsbD pgPse then []
    else [.quad s (reach (s.quadAddr directory.entry ((addr >>> 12) &&& 0x1ff))) true]

theorem paePath_of_halts (stop : halts (s.pointerLevel addr) = true) :
    s.paePath addr reach halts = [s.pointerLevel addr] :=
  if_pos stop

theorem paePath_of_not_halts (go : halts (s.pointerLevel addr) = false) :
    s.paePath addr reach halts = s.pointerLevel addr :: s.paeBelow addr reach := by
  simp only [paePath, paeBelow, go, Bool.false_eq_true, if_false]
  split
  · rfl
  · rfl

theorem paeBelow_mem (member : l ∈ s.paeBelow addr reach) : ∃ a, l = .quad s (reach a) true := by
  rcases mem_cons.mp member with rfl | inTable
  · exact ⟨_, rfl⟩
  · split at inTable
    · simp at inTable
    · exact ⟨_, mem_singleton.mp inTable⟩

theorem paeBelow_low32 (low : ∀ l ∈ s.paeBelow addr id, l.addr.toNat < 2 ^ 32) :
    s.paeBelow addr low32 = s.paeBelow addr id := by
  simp only [paeBelow, id] at low ⊢
  have quad : ∀ {a}, (quad s a true).addr.toNat < 2 ^ 32 → low32 a = a := low32_of_lt
  rw [quad (low _ (mem_cons_self ..))]
  split
  · rfl
  · next deeper =>
    rw [if_neg deeper] at low
    rw [quad (low _ (mem_cons_of_mem _ (mem_singleton_self _)))]

theorem longPath_mem (member : l ∈ s.longPath addr) :
    ∃ base index, l = .long s (s.longAddr base index) := by
  rw [longPath_eq] at member
  simp only at member
  split at member
  · exact ⟨_, _, mem_singleton.mp member⟩
  · obtain rfl | rfl : l = _ ∨ l = _ := by simpa using member
    · exact ⟨_, _, rfl⟩
    · exact ⟨_, _, rfl⟩

theorem paePath_mem (member : l ∈ s.paePath addr reach halts) :
    l = s.pointerLevel addr ∨ ∃ a, l = .quad s (reach a) true := by
  cases stops : halts (s.pointerLevel addr) with
  | true =>
    rw [paePath_of_halts stops] at member
    exact .inl (mem_singleton.mp member)
  | false =>
    rw [paePath_of_not_halts stops] at member
    exact (mem_cons.mp member).imp_right paeBelow_mem

theorem codePath_lt : ∀ l ∈ s.codePath addr, l.addr.toNat < 2 ^ 32 := by
  intro l member
  rw [codePath] at member
  split at member
  · rcases paePath_mem member with rfl | ⟨a, rfl⟩
    · exact setWidth_lt _
    · exact setWidth_lt _
  · obtain ⟨base, index, rfl⟩ := longPath_mem member
    exact setWidth_lt _

/-- Below four gigabytes and with a pointer that is not reserved the source visits the path. -/
theorem codePath_eq_of_low (low : ∀ l ∈ s.path addr, l.addr.toNat < 2 ^ 32)
    (fine : s.pointerReserved addr = false) : s.codePath addr = s.path addr := by
  cases pae : s.pae with
  | false => simp [codePath, path, pae]
  | true =>
    simp only [pointerReserved, pae, Bool.true_and] at fine
    simp only [codePath, path, pae, if_true, paeCodePath] at low ⊢
    cases pointed : (s.pointerLevel addr).present with
    | false =>
      rw [paePath_of_halts (by rw [pointed]; rfl), paePath_of_halts (by rw [usable, pointed]; rfl)]
    | true =>
      have usable : (!(s.pointerLevel addr).usable s) = false := by
        rw [usable, pointed, fine]
        rfl
      rw [paePath_of_not_halts usable] at low
      rw [paePath_of_not_halts (by rw [pointed]; rfl), paePath_of_not_halts usable,
        paeBelow_low32 fun l member => low l (mem_cons_of_mem _ member)]

theorem codePath_ne_of_reserved (wrong : s.pointerReserved addr = true) :
    (s.path addr).map (·.addr) ≠ (s.codePath addr).map (·.addr) := by
  obtain ⟨pae, reserved⟩ : s.pae = true ∧ (s.pointerLevel addr).reserved s = true := by
    simpa [pointerReserved] using wrong
  have present : (s.pointerLevel addr).present = true := by
    simp only [Level.reserved, Bool.and_eq_true] at reserved
    exact reserved.1.1
  have stops : (!(s.pointerLevel addr).usable s) = true := by
    rw [usable, reserved, present]
    rfl
  have goes : (!(s.pointerLevel addr).present) = false := by rw [present]; rfl
  intro same
  rw [path, codePath, if_pos pae, if_pos pae, paeCodePath,
    paePath_of_halts stops, paePath_of_not_halts goes, paeBelow] at same
  simp at same

theorem codePath_eq_of_reads (same : (s.path addr).map (·.addr) = (s.codePath addr).map (·.addr)) :
    s.codePath addr = s.path addr := by
  refine codePath_eq_of_low ?_ ?_
  · intro l member
    have visited : l.addr ∈ (s.codePath addr).map (·.addr) :=
      same ▸ mem_map_of_mem member
    obtain ⟨l', member', equal⟩ := mem_map.mp visited
    rw [← equal]
    exact codePath_lt l' member'
  · cases wrong : s.pointerReserved addr with
    | false => rfl
    | true => exact absurd same (codePath_ne_of_reserved wrong)

theorem path_dropLast_usable : ∀ l ∈ (s.path addr).dropLast, l.usable s = true := by
  intro l member
  cases pae : s.pae with
  | false =>
    rw [path, if_neg (by simp [pae]), longPath_eq] at member
    simp only at member
    split at member
    · simp at member
    · next deeper =>
      obtain rfl : l = _ := by simpa using member
      simp only [Bool.or_eq_true, not_or] at deeper
      simpa [usable] using deeper.1
  | true =>
    rw [path, if_pos pae] at member
    cases stops : !(s.pointerLevel addr).usable s with
    | true =>
      rw [paePath_of_halts stops] at member
      simp at member
    | false =>
      rw [paePath_of_not_halts stops, paeBelow] at member
      split at member
      · obtain rfl : l = _ := by simpa using member
        simpa using stops
      · next deeper =>
        simp only [Bool.or_eq_true, not_or] at deeper
        obtain rfl | rfl : l = _ ∨ l = _ := by simpa using member
        · simpa using stops
        · simpa using deeper.1

/-- An entry that is not usable is the last one of its path. -/
theorem eq_leafEntry_of_not_usable (member : l ∈ s.path addr) (unusable : l.usable s = false) :
    l = leafEntry (s.path addr) := by
  have nonempty : s.path addr ≠ [] := ne_nil_of_mem member
  rw [← dropLast_append_getLast nonempty, mem_append] at member
  rcases member with front | last
  · rw [path_dropLast_usable l front] at unusable
    cases unusable
  · rw [mem_singleton.mp last, leafEntry, getLastD_eq_getLast?, getLast?_eq_some_getLast nonempty]
    rfl

theorem not_reserved_of_missing (missing : ∃ l ∈ s.path addr, l.present = false) :
    ∀ l ∈ s.path addr, l.reserved s = false := by
  obtain ⟨l, member, absent⟩ := missing
  have last := eq_leafEntry_of_not_usable member (by rw [usable, absent]; rfl)
  intro l' member'
  cases wrong : l'.reserved s with
  | false => rfl
  | true =>
    have last' := eq_leafEntry_of_not_usable member' (by simp [usable, wrong])
    rw [last', ← last, reserved, absent] at wrong
    simp at wrong

/-- The entries of a path are read from memory, and only the pointer carries no rights. -/
theorem path_mem (member : l ∈ s.path addr) :
    (s.pae = true ∧ l = s.pointerLevel addr) ∨ (∃ a, l = .quad s a true) ∨ ∃ a, l = .long s a := by
  rw [path] at member
  split at member
  · next pae =>
    rcases paePath_mem member with isPointer | below
    · exact .inl ⟨pae, isPointer⟩
    · exact .inr (.inl below)
  · obtain ⟨base, index, isLong⟩ := longPath_mem member
    exact .inr (.inr ⟨_, isLong⟩)

theorem pointerLevel_mem (pae : s.pae = true) : s.pointerLevel addr ∈ s.path addr := by
  rw [path, if_pos pae]
  cases stops : !(s.pointerLevel addr).usable s with
  | true =>
    rw [paePath_of_halts stops]
    exact mem_singleton_self _
  | false =>
    rw [paePath_of_not_halts stops]
    exact mem_cons_self ..

theorem path_ne_nil : s.path addr ≠ [] := by
  cases pae : s.pae with
  | true => exact ne_nil_of_mem (pointerLevel_mem pae)
  | false =>
    rw [path, if_neg (by simp [pae]), longPath_eq]
    simp only
    split <;> simp

/-- No entry is reserved if the pointer and the entries with rights are not. -/
theorem path_not_reserved (pointer : s.pointerReserved addr = false)
    (fine : ∀ l ∈ s.path addr, l.rights = true → l.reserved s = false) :
    ∀ l ∈ s.path addr, l.reserved s = false := by
  intro l member
  rcases path_mem member with ⟨pae, rfl⟩ | ⟨a, rfl⟩ | ⟨a, rfl⟩
  · simpa [pointerReserved, pae] using pointer
  · exact fine _ member rfl
  · exact fine _ member rfl

/-- The dirty bit of an entry is in the byte of memory at its address. -/
theorem path_dirty (member : l ∈ s.path addr) :
    l.entry.getLsbD pgDirty = (s.mem l.addr).getLsbD pgDirty := by
  have origin : ∀ a, a + ofNat 64 0 = a := by simp
  have quad : ∀ a, (read 8 s.mem a).getLsbD pgDirty = (s.mem a).getLsbD pgDirty := by
    intro a
    have found := getLsbD_read s.mem a (by decide : pgDirty < 8 * 8)
    rwa [Nat.div_eq_of_lt (by decide), Nat.mod_eq_of_lt (by decide), origin] at found
  rcases path_mem member with ⟨-, rfl⟩ | ⟨a, rfl⟩ | ⟨a, rfl⟩
  · exact quad _
  · exact quad a
  · have found := getLsbD_read s.mem a (by decide : pgDirty < 8 * 4)
    rw [Nat.div_eq_of_lt (by decide), Nat.mod_eq_of_lt (by decide), origin] at found
    rw [long, getLsbD_setWidth, found]
    rfl

end Paths

/-! ## The mapped page -/

section Mapping

variable {s : MmuState} {path : List Level} {addr : BitVec 32} {access : AccessKind}
  {isUser : Bool} {leaf : Leaf}

theorem markAccessed_dirty {x : BitVec 64} (dirty : (mem x).getLsbD pgDirty = true) :
    (markAccessed path mem x).getLsbD pgDirty = true := by
  rw [markAccessed]
  induction path.filter (·.rights) generalizing mem with
  | nil => exact dirty
  | cons l rest ih =>
    apply ih
    rw [getLsbD_orByte, dirty, Bool.true_or]

/-- The last entry of a path is dirty after the walk if it was before or the access is a write. -/
theorem markPath_dirty {isWrite : Bool}
    (dirty : (mem (leafEntry path).addr).getLsbD pgDirty = true ∨ isWrite = true) :
    (markPath path isWrite mem (leafEntry path).addr).getLsbD pgDirty = true := by
  rw [markPath]
  cases isWrite with
  | true =>
    rw [if_pos rfl, getLsbD_orByte]
    simp [pgDirty]
  | false => exact markAccessed_dirty (dirty.resolve_right (by decide))

theorem pageShift_cases (s : MmuState) (path : List Level) :
    pageShift s path = 12 ∨ pageShift s path = 21 ∨ pageShift s path = 22 := by
  rw [pageShift]
  split
  · split <;> simp
  · split <;> simp

/-- The offset of the mapped four-kilobyte page in the page of the last entry. -/
def pageOffset (addr : BitVec 32) (leaf : Leaf) : BitVec 32 :=
  (addr &&& ~~~0xfff#32) &&& (leaf.pageSize - 1)

theorem pageOffset_eq (found : LeafOf s path addr access.isWrite leaf) :
    pageOffset addr leaf = (addr &&& ~~~0xfff#32) &&& ofNat 32 (2 ^ pageShift s path - 1) := by
  rw [pageOffset, found.size]
  rcases pageShift_cases s path with shift | shift | shift <;> rw [shift] <;> rfl

theorem mappedVaddr (found : LeafOf s path addr access.isWrite leaf) :
    leaf.virtAddr + pageOffset addr leaf = addr &&& ~~~0xfff#32 := by
  have merge : ∀ low, ~~~low ||| (~~~0xfff#32 &&& low) = ~~~0xfff#32 →
      (addr &&& ~~~low) + ((addr &&& ~~~0xfff#32) &&& low) = addr &&& ~~~0xfff#32 := by
    intro low covers
    rw [add_eq_or_of_and_eq_zero, BitVec.and_assoc, ← and_or_distrib_left, covers]
    apply eq_of_getLsbD_eq
    intro i small
    simp only [getLsbD_and, getLsbD_not]
    cases low.getLsbD i <;> simp
  rw [pageOffset_eq found, found.virtAddr]
  apply merge
  rcases pageShift_cases s path with shift | shift | shift <;> rw [shift] <;> decide

/-- The A20 gate is closed and the offset in a large page has the bit that it masks. -/
def MmuState.a20Clips (s : MmuState) (path : List Level) (addr : BitVec 32) : Prop :=
  s.a20 = false ∧ 12 < pageShift s path ∧ addr.getLsbD 20 = true

section

variable (found : LeafOf s path addr access.isWrite leaf)

include found

theorem pageOffset_getLsbD :
    ((pageOffset addr leaf).setWidth 64).getLsbD 20 =
      (decide (12 < pageShift s path) && addr.getLsbD 20) := by
  rw [pageOffset_eq found, getLsbD_setWidth, getLsbD_and, getLsbD_and]
  rcases pageShift_cases s path with shift | shift | shift <;> rw [shift] <;> simp

/-- The gate is applied to the frame before the offset is added. -/
theorem mappedPaddr_iff :
    (leaf.pte &&& s.a20Mask 64 &&& ~~~0xfff#64) + (pageOffset addr leaf).setWidth 64 =
      designatedPage s path addr ↔ ¬ s.a20Clips path addr := by
  have bit := pageOffset_getLsbD found
  have inside : (addr &&& ~~~0xfff#32).setWidth 64 &&&
      ofNat 64 (2 ^ pageShift s path - 1) = (pageOffset addr leaf).setWidth 64 := by
    rw [pageOffset_eq found]
    rcases pageShift_cases s path with shift | shift | shift <;> rw [shift] <;> rfl
  have frame : leaf.pte &&& s.a20Mask 64 &&& ~~~0xfff#64 = (leafEntry path).entry &&&
      physAddrMask &&& ~~~ofNat 64 (2 ^ pageShift s path - 1) &&& s.a20Mask 64 := by
    rw [← found.frame, BitVec.and_assoc, and_comm (s.a20Mask 64), BitVec.and_assoc]
  have disjoint : (leaf.pte &&& s.a20Mask 64 &&& ~~~0xfff#64) &&&
      (pageOffset addr leaf).setWidth 64 = 0#64 := by
    rw [frame, ← inside]
    apply eq_of_getLsbD_eq
    intro i small
    simp only [getLsbD_and, getLsbD_not]
    cases (ofNat 64 (2 ^ pageShift s path - 1)).getLsbD i <;> simp
  rw [add_eq_or_of_and_eq_zero _ _ disjoint, designatedPage, inside, frame, and_or_distrib_right]
  generalize (pageOffset addr leaf).setWidth 64 = offset at bit
  constructor
  · rintro same ⟨closed, large, set⟩
    have bits := congrArg (fun value => value.getLsbD 20) same
    have masked : (s.a20Mask 64).getLsbD 20 = false := by
      rw [a20Mask, closed]
      decide
    simp only [getLsbD_or, getLsbD_and, masked, bit, large, set] at bits
    simp at bits
  · intro kept
    have passes : offset &&& s.a20Mask 64 = offset := by
      rw [a20Mask]
      split
      · rw [and_allOnes]
      · next closed =>
        have clear : offset.getLsbD 20 = false := by
          rw [bit, Bool.eq_false_iff]
          intro set
          rw [Bool.and_eq_true, decide_eq_true_eq] at set
          exact kept ⟨Bool.eq_false_iff.mpr closed, set⟩
        apply eq_of_getLsbD_eq
        intro i small
        rw [getLsbD_and, getLsbD_not, getLsbD_twoPow]
        by_cases masked : 20 = i
        · rw [← masked, clear, Bool.false_and]
        · simp [masked, small]
    rw [passes]

/-- The protection in the TLB is part of what the path permits. -/
theorem leafProt_atMost (allowed : (pathProt path s isUser).allows access = true) :
    (leafProt s isUser leaf).AtMost (pathProt path s isUser) := by
  have user : (!isUser || pathUser path) = true := by
    cases isUser with
    | false => rfl
    | true =>
      cases access <;> simp [Prot.allows, pathProt] at allowed
      · exact allowed
      · exact allowed.1
      · exact allowed.1
  constructor
  case read => exact fun _ => user
  case write =>
    intro granted
    simp only [leafProt, found.rw, Bool.and_eq_true] at granted
    cases isUser with
    | false => exact granted.2
    | true =>
      have both : (pathUser path && pathRw path) = true := by
        rw [show pathUser path = true from user]
        exact granted.2
      exact both
  case exec =>
    intro granted
    simp only [leafProt, found.nx] at granted
    simp only [pathProt, user, granted, Bool.and_self]

end

/-- A successful walk maps the page of the architecture unless the A20 gate clips its offset. -/
theorem mapsPage_iff (paging : s.paging = true)
    (found : LeafOf s (s.path addr) addr access.isWrite leaf)
    (allowed : (pathProt (s.path addr) s isUser).allows access = true) :
    MapsPage s (doMapping addr isUser (leafProt s isUser leaf) leaf
      (s.visited (s.path addr) (markPath (s.path addr) access.isWrite s.mem))) addr access isUser ↔
      ¬ s.a20Clips (s.path addr) addr := by
  rw [← mappedPaddr_iff found]
  constructor
  · intro maps
    obtain ⟨page, isPage, -, -, -, onPaging⟩ := maps.tlb
    have pages := append_cancel_left isPage
    rw [← (onPaging paging).1, ← head_eq_of_cons_eq pages]
    rfl
  · intro designated
    refine ⟨⟨_, rfl, mappedVaddr found, rfl, ?_, ?_⟩, ?_⟩
    · intro off
      rw [paging] at off
      cases off
    · intro _
      refine ⟨designated, ?_, leafProt_atMost found allowed, ?_⟩
      · rw [found.size]
        rcases pageShift_cases s (s.path addr) with shift | shift | shift <;> rw [shift] <;> rfl
      · intro granted
        have dirty : leaf.pte.getLsbD pgDirty = true := by
          simp only [leafProt, Bool.and_eq_true] at granted
          exact granted.1
        have last : leafEntry (s.path addr) ∈ s.path addr := by
          rw [leafEntry, getLastD_eq_getLast?, getLast?_eq_some_getLast path_ne_nil]
          exact getLast_mem path_ne_nil
        rw [found.dirty, path_dirty last, Bool.or_eq_true] at dirty
        exact markPath_dirty dirty
    · rw [if_pos paging]
      rfl

end Mapping

/-! ## Faults -/

section Faults

variable {s : MmuState} {addr : BitVec 32} {access : AccessKind} {isUser : Bool}

theorem faultBits (known : code = 0 ∨ code = pgErrorP ∨ code = pgErrorRsvd)
    (isWrite isUser isFetch : Bool) :
    let reported := code ||| (if isWrite then pgErrorW else 0) |||
      (if isUser then pgErrorU else 0) ||| (if isFetch then pgErrorID else 0)
    reported.getLsbD 0 = code.getLsbD 0 ∧ reported.getLsbD 1 = isWrite ∧
      reported.getLsbD 2 = isUser ∧ reported.getLsbD 3 = code.getLsbD 3 ∧
      reported.getLsbD 4 = isFetch := by
  rcases known with rfl | rfl | rfl <;> revert isWrite isUser isFetch <;> decide

theorem doFault_kept (code : BitVec 32) (t : MmuState) :
    (doFault addr access isUser code t).tlb = t.tlb ∧
      (doFault addr access isUser code t).reads = t.reads := by
  simp only [doFault]
  split <;> exact ⟨rfl, rfl⟩

theorem faults_iff {path : List Level} (known : code = 0 ∨ code = pgErrorP ∨ code = pgErrorRsvd) :
    Faults s (doFault addr access isUser code (s.visited path mem)) addr access isUser ↔
      (code.getLsbD 0 = false ↔ ∃ l ∈ s.path addr, l.present = false) ∧
      (code.getLsbD 3 = true ↔ ∃ l ∈ s.path addr, l.reserved s = true) ∧
      ¬ (s.interceptsPageFault = true ∧ s.cr2 ≠ addr) := by
  have reported := faultBits known access.isWrite isUser (access == .fetch && s.nxe && s.pae)
  have address : (doFault addr access isUser code (s.visited path mem)).cr2 = addr ↔
      ¬ (s.interceptsPageFault = true ∧ s.cr2 ≠ addr) := by
    have kept : (s.visited path mem).interceptsPageFault = s.interceptsPageFault := rfl
    simp only [doFault, kept]
    cases s.interceptsPageFault with
    | false | true => simp [visited]
  constructor
  · intro faults
    exact ⟨reported.1 ▸ faults.errorP, reported.2.2.2.1 ▸ faults.errorRsvd, address.mp faults.cr2⟩
  · rintro ⟨errorP, errorRsvd, cr2⟩
    exact ⟨address.mpr cr2, (doFault_kept ..).1, reported.1.symm ▸ errorP, reported.2.1, reported.2.2.1,
      reported.2.2.2.1.symm ▸ errorRsvd, reported.2.2.2.2⟩

end Faults

/-! ## The whole walk -/

section Handler

variable {s : MmuState} {addr : BitVec 32} {access : AccessKind} {isUser : Bool}

/-- Where the source departs from the architecture: a table of the PAE format above four gigabytes,
a reserved `NX` bit on the path, an offset in a large page that the closed A20 gate should mask, and
an intercepted page fault, which does not set `CR2`. -/
def Departs (s : MmuState) (addr : BitVec 32) (access : AccessKind) (isUser : Bool) : Prop :=
  s.paging = true ∧
    ((∃ l ∈ s.path addr, 2 ^ 32 ≤ l.addr.toNat) ∨ (∃ l ∈ s.path addr, l.reserved s = true) ∨
      (Translates s addr access isUser ∧ s.a20Clips (s.path addr) addr) ∨
      (¬ Translates s addr access isUser ∧ s.interceptsPageFault = true ∧ s.cr2 ≠ addr))

/-- The walk in the format that the control registers select. -/
def walkFormat (s : MmuState) (addr : BitVec 32) (access : AccessKind) (isUser : Bool) : Walk Leaf :=
  if s.pae then walkPae addr access isUser else walk32 addr access isUser

theorem walkFormat_run :
    WalkRun s (s.codePath addr) addr access isUser (walkFormat s addr access isUser s) := by
  cases pae : s.pae with
  | false =>
    rw [codePath, walkFormat, if_neg (by simp [pae]), if_neg (by simp [pae])]
    exact walk32_run pae
  | true =>
    rw [codePath, walkFormat, if_pos pae, if_pos pae]
    exact walkPae_run pae

section

variable (paging : s.paging = true)

include paging

theorem handle_of_ok {leaf : Leaf} {t : MmuState}
    (run : walkFormat s addr access isUser s = (.ok leaf, t)) :
    cpuX86HandleMmuFault addr access isUser s =
      (.ok false, doMapping addr isUser (leafProt s isUser leaf) leaf t) := by
  rw [walkFormat] at run
  rw [cpuX86HandleMmuFault, get_bind, if_neg (by simp [paging]), bind_of_ok (attempt_of_ok run)]
  rfl

theorem handle_of_error {t : MmuState}
    (run : walkFormat s addr access isUser s = (.error code, t)) :
    cpuX86HandleMmuFault addr access isUser s =
      (.ok true, doFault addr access isUser code t) := by
  rw [walkFormat] at run
  rw [cpuX86HandleMmuFault, get_bind, if_neg (by simp [paging]), bind_of_ok (attempt_of_error run)]
  rfl

/-- Whatever the result, the entries of the source's path were read. -/
theorem handle_reads :
    ∃ raised s', cpuX86HandleMmuFault addr access isUser s = (.ok raised, s') ∧
      s'.reads = s.reads ++ (s.codePath addr).map (·.addr) := by
  cases @walkFormat_run s addr access isUser with
  | notPresent mem _ ends | reserved mem _ _ ends | protection mem _ _ _ ends =>
    exact ⟨_, _, handle_of_error paging ends, (doFault_kept ..).2⟩
  | mapped leaf _ _ _ _ ends => exact ⟨_, _, handle_of_ok paging ends, rfl⟩

theorem archWalk_fault_iff (known : code = 0 ∨ code = pgErrorP ∨ code = pgErrorRsvd) :
    ArchWalk s (doFault addr access isUser code (s.visited (s.path addr) mem)) addr access isUser
      true ↔
      ¬ Translates s addr access isUser ∧
      (code.getLsbD 0 = false ↔ ∃ l ∈ s.path addr, l.present = false) ∧
      (code.getLsbD 3 = true ↔ ∃ l ∈ s.path addr, l.reserved s = true) ∧
      ¬ (s.interceptsPageFault = true ∧ s.cr2 ≠ addr) := by
  rw [← faults_iff known]
  constructor
  · intro walk
    have result := walk.result
    simp only [Bool.true_eq_false, paging, false_or, false_iff] at result
    exact ⟨result, walk.faults rfl⟩
  · rintro ⟨untranslated, faults⟩
    constructor
    case result => simp [paging, untranslated]
    case reads =>
      rw [(doFault_kept ..).2, if_pos paging]
      rfl
    case maps => nofun
    case faults => exact fun _ => faults

theorem archWalk_mapped_iff {leaf : Leaf} (translates : Translates s addr access isUser)
    (found : LeafOf s (s.path addr) addr access.isWrite leaf) :
    ArchWalk s (doMapping addr isUser (leafProt s isUser leaf) leaf
      (s.visited (s.path addr) (markPath (s.path addr) access.isWrite s.mem))) addr access isUser
      false ↔ ¬ s.a20Clips (s.path addr) addr := by
  rw [← mapsPage_iff paging found translates.2]
  constructor
  · exact fun walk => walk.maps rfl
  · intro maps
    constructor
    case result => simp [translates]
    case reads =>
      rw [if_pos paging]
      rfl
    case maps => exact fun _ => maps
    case faults => nofun

end

theorem handle_unpaged (off : s.paging = false) :
    cpuX86HandleMmuFault addr access isUser s =
      (.ok false, doMapping addr isUser ⟨true, true, true⟩
        ⟨addr.setWidth 64, 0, addr &&& ~~~0xfff, 4096⟩ s) := by
  rw [cpuX86HandleMmuFault, get_bind, if_pos off]
  rfl

/-- Without paging the page of the address itself is mapped. -/
theorem archWalk_unpaged (s : MmuState) (addr : BitVec 32) (access : AccessKind) (isUser : Bool)
    (off : s.paging = false) :
    ∃ s', cpuX86HandleMmuFault addr access isUser s = (.ok false, s') ∧
      ArchWalk s s' addr access isUser false := by
  have noOffset : (addr &&& ~~~0xfff#32) &&& (4096#32 - 1) = 0#32 := by
    have none : ~~~0xfff#32 &&& (4096#32 - 1) = 0#32 := by decide
    rw [BitVec.and_assoc, none, and_zero]
  have mapped : (doMapping addr isUser ⟨true, true, true⟩
      ⟨addr.setWidth 64, 0, addr &&& ~~~0xfff, 4096⟩ s).tlb = s.tlb ++
      [⟨(addr &&& ~~~0xfff#32) + ((addr &&& ~~~0xfff#32) &&& (4096#32 - 1)),
        (addr.setWidth 64 &&& s.a20Mask 64 &&& ~~~0xfff#64) +
          ((addr &&& ~~~0xfff#32) &&& (4096#32 - 1)).setWidth 64,
        ⟨true, true, true⟩, isUser, 4096⟩] := rfl
  rw [noOffset] at mapped
  refine ⟨_, handle_unpaged off, ?_⟩
  constructor
  case result => simp [off]
  case reads => simp [doMapping, off]
  case maps =>
    intro _
    refine ⟨⟨_, mapped, BitVec.add_zero _, rfl, ?_, ?_⟩, ?_⟩
    · intro _
      have frame : (~~~0xfff#32).setWidth 64 = ~~~0xfff#64 &&& 0xffffffff#64 := by decide
      have page : addr.setWidth 64 &&& ~~~0xfff#64 =
          addr.setWidth 64 &&& (~~~0xfff#64 &&& 0xffffffff#64) := long_and (by decide)
      rw [setWidth_and, frame, ← page, BitVec.and_assoc, BitVec.and_assoc, and_comm (s.a20Mask 64)]
      exact BitVec.add_zero _
    · intro on
      rw [off] at on
      cases on
    · simp [doMapping, off]
  case faults => nofun

/-- A fault on the architecture's path, with none of its entries reserved. -/
theorem fault_iff (paging : s.paging = true)
    (run : walkFormat s addr access isUser s = (.error code, s.visited (s.path addr) mem))
    (low : ∀ l ∈ s.path addr, l.addr.toNat < 2 ^ 32) (known : code = 0 ∨ code = pgErrorP)
    (errorP : code.getLsbD 0 = false ↔ ∃ l ∈ s.path addr, l.present = false)
    (fine : ∀ l ∈ s.path addr, l.reserved s = false)
    (untranslated : ¬ Translates s addr access isUser) :
    ∃ raised s', cpuX86HandleMmuFault addr access isUser s = (.ok raised, s') ∧
      (ArchWalk s s' addr access isUser raised ↔ ¬ Departs s addr access isUser) := by
  have noReserved : ¬ ∃ l ∈ s.path addr, l.reserved s = true := by
    rintro ⟨l, member, wrong⟩
    rw [fine l member] at wrong
    cases wrong
  have noHigh : ¬ ∃ l ∈ s.path addr, 2 ^ 32 ≤ l.addr.toNat := by
    rintro ⟨l, member, high⟩
    exact absurd (low l member) (by omega)
  have errorRsvd : ¬ code.getLsbD 3 = true := by rcases known with rfl | rfl <;> decide
  refine ⟨true, _, handle_of_error paging run, ?_⟩
  rw [archWalk_fault_iff paging (known.imp_right .inl), and_iff_right untranslated,
    and_iff_right errorP, and_iff_right (iff_of_false errorRsvd noReserved), not_iff_not]
  constructor
  · intro intercepted
    exact ⟨paging, .inr (.inr (.inr ⟨untranslated, intercepted⟩))⟩
  · rintro ⟨-, high | wrong | ⟨translates, -⟩ | ⟨-, intercepted⟩⟩
    · exact absurd high noHigh
    · exact absurd wrong noReserved
    · exact absurd translates untranslated
    · exact intercepted

/-- On the architecture's path only the gate, the reserved bits and the intercept matter. -/
theorem archWalk_iff_of_same (paging : s.paging = true) (same : s.codePath addr = s.path addr) :
    ∃ raised s', cpuX86HandleMmuFault addr access isUser s = (.ok raised, s') ∧
      (ArchWalk s s' addr access isUser raised ↔ ¬ Departs s addr access isUser) := by
  have low : ∀ l ∈ s.path addr, l.addr.toNat < 2 ^ 32 := same ▸ codePath_lt
  have pointer : s.pointerReserved addr = false := by
    rw [Bool.eq_false_iff]
    intro wrong
    exact codePath_ne_of_reserved wrong (by rw [same])
  have walked := @walkFormat_run s addr access isUser
  rw [same] at walked
  cases walked with
  | notPresent mem missing ends =>
    refine fault_iff paging ends low (.inl rfl) (iff_of_true rfl missing)
      (not_reserved_of_missing missing) ?_
    rintro ⟨usable, -⟩
    obtain ⟨l, member, absent⟩ := missing
    have found := usable l member
    rw [Level.usable, absent] at found
    simp at found
  | reserved mem present wrong ends =>
    obtain ⟨l, member, -, isReserved⟩ := wrong
    refine ⟨true, _, handle_of_error paging ends, iff_of_false ?_ ?_⟩
    · rw [archWalk_fault_iff paging (.inr (.inr rfl))]
      rintro ⟨-, errorP, -⟩
      obtain ⟨l', member', absent⟩ := errorP.mp rfl
      rw [present l' member'] at absent
      cases absent
    · intro agrees
      exact agrees ⟨paging, .inr (.inl ⟨l, member, isReserved⟩)⟩
  | protection mem present fine denied ends =>
    refine fault_iff paging ends low (.inr rfl) (iff_of_false (by decide) ?_)
      (path_not_reserved pointer fine) ?_
    · rintro ⟨l, member, absent⟩
      rw [present l member] at absent
      cases absent
    · rintro ⟨-, allowed⟩
      rw [denied] at allowed
      cases allowed
  | mapped leaf present fine allowed found ends =>
    have noReserved := path_not_reserved pointer fine
    have translates : Translates s addr access isUser := by
      refine ⟨fun l member => ?_, allowed⟩
      rw [usable, present l member, noReserved l member]
      rfl
    refine ⟨false, _, handle_of_ok paging ends, ?_⟩
    rw [archWalk_mapped_iff paging translates found, not_iff_not]
    constructor
    · intro clips
      exact ⟨paging, .inr (.inr (.inl ⟨translates, clips⟩))⟩
    · rintro ⟨-, ⟨l, member, high⟩ | ⟨l, member, wrong⟩ | ⟨-, clips⟩ | ⟨untranslated, -⟩⟩
      · exact absurd (low l member) (by omega)
      · rw [noReserved l member] at wrong
        cases wrong
      · exact clips
      · exact absurd translates untranslated

/-- The page walk is the architecture's exactly when none of the four situations arises. -/
theorem mmuFault_archWalk_iff (s : MmuState) (addr : BitVec 32) (access : AccessKind)
    (isUser : Bool) :
    ∃ raised s', cpuX86HandleMmuFault addr access isUser s = (.ok raised, s') ∧
      (ArchWalk s s' addr access isUser raised ↔ ¬ Departs s addr access isUser) := by
  cases paging : s.paging with
  | false =>
    obtain ⟨s', run, walk⟩ := archWalk_unpaged s addr access isUser paging
    refine ⟨false, s', run, iff_of_true walk ?_⟩
    rintro ⟨on, -⟩
    exact absurd on (by simp [paging])
  | true =>
    by_cases same : s.codePath addr = s.path addr
    · exact archWalk_iff_of_same paging same
    · obtain ⟨raised, s', run, reads⟩ := @handle_reads s addr access isUser paging
      refine ⟨raised, s', run, iff_of_false ?_ ?_⟩
      · intro walk
        have logged := walk.reads
        rw [reads, if_pos paging] at logged
        exact same (codePath_eq_of_reads (append_cancel_left logged).symm)
      · intro agrees
        refine same (codePath_eq_of_low ?_ ?_)
        · intro l member
          by_contra high
          exact agrees ⟨paging, .inl ⟨l, member, by omega⟩⟩
        · rw [Bool.eq_false_iff]
          intro wrong
          rw [pointerReserved, Bool.and_eq_true] at wrong
          exact agrees ⟨paging, .inr (.inl ⟨_, pointerLevel_mem wrong.1, wrong.2⟩)⟩

/-- A present directory entry of the PAE format whose `NX` bit is reserved. -/
def reservedDirectory : MmuState where
  cr0 := 0x80000001
  cr2 := 0
  cr3 := 0x1000
  cr4 := 0x20
  efer := 0
  a20 := true
  interceptExceptions := 0
  vmVmcb := 0
  errorCode := 0
  mem := fun a =>
    if a = 0x1000 then 0x01 else if a = 0x1001 then 0x20
    else if a = 0x2000 then 0x01 else if a = 0x2007 then 0x80 else 0
  reads := []
  tlb := []

/-- The error code has the `P` bit clear although every entry on the path is present. -/
theorem reserved_fault_without_p :
    ∃ s', cpuX86HandleMmuFault 0 .read false reservedDirectory = (.ok true, s') ∧
      s'.errorCode = pgErrorRsvd ∧ (∀ l ∈ reservedDirectory.path 0, l.present = true) ∧
      ¬ ArchWalk reservedDirectory s' 0 .read false true := by
  have present : ∀ l ∈ reservedDirectory.path 0, l.present = true := by decide
  refine ⟨_, rfl, rfl, present, ?_⟩
  intro walk
  obtain ⟨l, member, absent⟩ := (walk.faults rfl).errorP.mp rfl
  rw [present l member] at absent
  cases absent

end Handler

end Qemu.I386
