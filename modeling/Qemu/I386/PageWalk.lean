import Qemu.I386.PageTables

/-!
# The page walk against the architecture

The walk of the source follows a path of entries; the path differs from the architecture's only
where a table of the PAE format lies above four gigabytes or a pointer has its `NX` bit set.
-/

namespace Qemu.I386

open Prog ByteMem List Level MmuState
open BitVec hiding and_assoc not_or or_assoc

variable {s : MmuState} {l : Level} {bit : Nat}

variable {entry mask addr : BitVec 64} {path : List Level} {mem : ByteMem 64}

/-! ## Entries -/

/-- The accessed bit and, for a write, the dirty bit. -/
def marks (isWrite : Bool) : BitVec 8 := 0x20 ||| if isWrite then 0x40 else 0

theorem or_pgMask (set : entry.getLsbD bit = true) : entry ||| pgMask bit = entry := by
  apply eq_of_getLsbD_eq
  intro i small
  rw [getLsbD_or, pgMask, getLsbD_twoPow]
  by_cases same : bit = i
  · simp [← same, set]
  · simp [same]

theorem or_marks_eq (entry : BitVec 64) (isWrite : Bool) :
    entry ||| (marks isWrite).setWidth 64 = entry ||| pgMask pgAccessed |||
      (if isWrite && !entry.getLsbD pgDirty then pgMask pgDirty else 0) := by
  have both : (marks true).setWidth 64 = pgMask pgAccessed ||| pgMask pgDirty := by decide
  have accessed : (marks false).setWidth 64 = pgMask pgAccessed := by decide
  cases isWrite with
  | false => simp [accessed]
  | true =>
    rw [both, ← BitVec.or_assoc]
    cases dirty : entry.getLsbD pgDirty with
    | false => simp
    | true =>
      have kept : entry ||| pgMask pgAccessed ||| pgMask pgDirty =
          entry ||| pgMask pgAccessed := or_pgMask (by rw [getLsbD_or, dirty]; rfl)
      simp [kept]

theorem setAccessed_run {isWrite : Bool} (low : entry.setWidth 32 = read 4 s.mem addr) :
    setAccessed isWrite addr entry s = (.ok (entry ||| (marks isWrite).setWidth 64),
      { s with mem := s.mem.orByte addr (marks isWrite) }) := by
  have merged : (entry ||| (marks isWrite).setWidth 64).setWidth 32 =
      read (3 + 1) s.mem addr ||| (marks isWrite).setWidth (8 * (3 + 1)) := by
    rw [setWidth_or, low, setWidth_setWidth_of_le _ (by decide)]
  have stored : write 4 s.mem addr
      ((entry ||| (marks isWrite).setWidth 64).setWidth 32) = s.mem.orByte addr (marks isWrite) := by
    rw [merged]
    exact write_read_or (by decide)
  unfold setAccessed
  split
  · rw [← or_marks_eq, ← stored]
    rfl
  · next kept =>
    simp only [Bool.or_eq_true, Bool.not_eq_eq_eq_not, Bool.not_true, not_or,
      Bool.not_eq_false] at kept
    have same : entry ||| (marks isWrite).setWidth 64 = entry := by
      rw [or_marks_eq, if_neg kept.2]
      simpa using or_pgMask kept.1
    rw [same, low] at stored
    rw [same, ← stored, write_read (by decide)]
    rfl

/-- An entry that is read again after an accessed bit was set somewhere. -/
inductive Reread (entry : BitVec 64) : BitVec 64 → Prop where
  | same : Reread entry entry
  | accessed : Reread entry (entry ||| pgMask pgAccessed)

namespace Reread

variable {entry again : BitVec 64}

section

variable (reread : Reread entry again)

include reread

theorem getLsbD (other : bit ≠ pgAccessed) : again.getLsbD bit = entry.getLsbD bit := by
  cases reread with
  | same => rfl
  | accessed =>
    rw [getLsbD_or, pgMask, getLsbD_twoPow]
    simp [symm other]

theorem and_of_clear (clear : pgMask pgAccessed &&& mask = 0) :
    again &&& mask = entry &&& mask := by
  cases reread with
  | same => rfl
  | accessed => simp [and_or_distrib_right, clear]

/-- The bits of an entry that lie above its first byte survive the walk. -/
theorem or_marks_and (isWrite : Bool) (clear : 0xff &&& mask = 0#64) :
    (again ||| (marks isWrite).setWidth 64) &&& mask = entry &&& mask := by
  have marksClear : (marks isWrite).setWidth 64 &&& mask = 0#64 := by
    have inside : (marks isWrite).setWidth 64 = (marks isWrite).setWidth 64 &&& 0xff := by
      cases isWrite <;> decide
    rw [inside, BitVec.and_assoc, clear, and_zero]
  have accessedClear : pgMask pgAccessed &&& mask = 0#64 := by
    have inside : pgMask pgAccessed = pgMask pgAccessed &&& 0xff := by decide
    rw [inside, BitVec.and_assoc, clear, and_zero]
  rw [and_or_distrib_right, marksClear, or_zero, reread.and_of_clear accessedClear]

theorem or_marks_dirty (isWrite : Bool) :
    (again ||| (marks isWrite).setWidth 64).getLsbD pgDirty =
      (entry.getLsbD pgDirty || isWrite) := by
  have dirty : ((marks isWrite).setWidth 64).getLsbD pgDirty = isWrite := by
    cases isWrite <;> decide
  rw [getLsbD_or, dirty, reread.getLsbD (by decide)]

end

end Reread

/-- Entries at aligned addresses are the same or do not overlap. -/
theorem reread_entry {k : Nat} (mem : ByteMem 64) {other : BitVec 64} (divides : k + 1 ∣ 2 ^ 64)
    (wide : ((marks false).setWidth (8 * (k + 1))).setWidth 64 = pgMask pgAccessed)
    (aligned : addr.toNat % (k + 1) = 0) (alignedOther : other.toNat % (k + 1) = 0) :
    Reread ((read (k + 1) mem other).setWidth 64)
      ((read (k + 1) (mem.orByte addr (marks false)) other).setWidth 64) := by
  by_cases same : other = addr
  · subst same
    rw [read_orByte_self (Nat.le_of_dvd (by decide) divides), setWidth_or, wide]
    exact .accessed
  · rw [read_orByte_of_ne fun i small =>
      add_ofNat_ne_of_aligned divides aligned alignedOther same small]
    exact .same

theorem reread_quad (mem : ByteMem 64) {other : BitVec 64} (aligned : addr.toNat % 8 = 0)
    (alignedOther : other.toNat % 8 = 0) :
    Reread (read 8 mem other) (read 8 (mem.orByte addr (marks false)) other) := by
  simpa using reread_entry mem (by decide) (by decide) aligned alignedOther

/-! ## Runs of the walk -/

/-- The state of a walk that has read the entries of a path. -/
def MmuState.visited (s : MmuState) (path : List Level) (mem : ByteMem 64) : MmuState :=
  { s with reads := s.reads ++ path.map (·.addr), mem }

/-- The leaf is the page of the last entry. -/
structure LeafOf (s : MmuState) (path : List Level) (addr : BitVec 32) (isWrite : Bool)
    (leaf : Leaf) : Prop where
  frame : leaf.pte &&& ~~~0xfff#64 = (leafEntry path).entry &&& physAddrMask &&&
    ~~~BitVec.ofNat 64 (2 ^ pageShift s path - 1)
  dirty : leaf.pte.getLsbD pgDirty = ((leafEntry path).entry.getLsbD pgDirty || isWrite)
  rw : leaf.ptep.getLsbD pgRw = pathRw path
  nx : leaf.ptep.getLsbD pgNx = pathNx path
  size : leaf.pageSize = BitVec.ofNat 32 (2 ^ pageShift s path)
  virtAddr : leaf.virtAddr = addr &&& ~~~BitVec.ofNat 32 (2 ^ pageShift s path - 1)

/-- How a walk along a path ends. -/
inductive WalkRun (s : MmuState) (path : List Level) (addr : BitVec 32) (access : AccessKind)
    (isUser : Bool) (run : Outcome (BitVec 32) Leaf × MmuState) : Prop where
  | notPresent (mem : ByteMem 64) (missing : ∃ l ∈ path, l.present = false)
      (ends : run = (.error 0, s.visited path mem))
  | reserved (mem : ByteMem 64) (present : ∀ l ∈ path, l.present = true)
      (wrong : ∃ l ∈ path, l.rights = true ∧ l.reserved s = true)
      (ends : run = (.error pgErrorRsvd, s.visited path mem))
  | protection (mem : ByteMem 64) (present : ∀ l ∈ path, l.present = true)
      (fine : ∀ l ∈ path, l.rights = true → l.reserved s = false)
      (denied : (pathProt path s isUser).allows access = false)
      (ends : run = (.error pgErrorP, s.visited path mem))
  | mapped (leaf : Leaf) (present : ∀ l ∈ path, l.present = true)
      (fine : ∀ l ∈ path, l.rights = true → l.reserved s = false)
      (allowed : (pathProt path s isUser).allows access = true)
      (found : LeafOf s path addr access.isWrite leaf)
      (ends : run = (.ok leaf, s.visited path (markPath path access.isWrite s.mem)))

theorem protects_eq {access : AccessKind} {isUser : Bool} {ptep : BitVec 64}
    (user : ptep.getLsbD pgUser = pathUser path) (rw : ptep.getLsbD pgRw = pathRw path)
    (nx : ptep.getLsbD pgNx = pathNx path) :
    protects s access isUser ptep = !(pathProt path s isUser).allows access := by
  simp only [protects, pathProt, user, rw, nx]
  generalize pathUser path = user
  generalize pathRw path = rw
  generalize pathNx path = nx
  generalize s.wp = wp
  cases access <;> revert isUser user rw nx wp <;> decide

theorem markAccessed_cons_of_not (noRights : l.rights = false) :
    markAccessed (l :: path) mem = markAccessed path mem := by
  simp [markAccessed, noRights]

theorem markAccessed_singleton (rights : l.rights = true) :
    markAccessed [l] mem = mem.orByte l.addr (marks false) := by
  simp only [markAccessed, filter_cons, rights, if_true]
  rfl

theorem markPath_append (front : List Level) (rights : l.rights = true) (isWrite : Bool)
    (mem : ByteMem 64) :
    markPath (front ++ [l]) isWrite mem =
      (markAccessed front mem).orByte l.addr (marks isWrite) := by
  have marked : markAccessed (front ++ [l]) mem = (markAccessed front mem).orByte l.addr 0x20 := by
    simp [markAccessed, rights]
  have last : leafEntry (front ++ [l]) = l := by simp [leafEntry]
  rw [markPath, marked, last]
  cases isWrite with
  | false => rfl
  | true => exact orByte_orByte ..

/-- What is left of a walk once the last entry was found at `a` and the rights were combined. -/
def finishWalk (s : MmuState) (access : AccessKind) (isUser : Bool) (ptep a entry : BitVec 64)
    (build : BitVec 64 → Leaf) : Walk Leaf := do
  Prog.throwIf (protects s access isUser ptep = true) pgErrorP
  let entry ← setAccessed access.isWrite a entry
  pure (build entry)

/-- The end of every walk: the rights of the path, then the bits of the last entry. -/
theorem finishLeaf {s : MmuState} {addr : BitVec 32} {access : AccessKind} {isUser : Bool}
    {ptep a : BitVec 64} {build : BitVec 64 → Leaf} (present : ∀ l ∈ path, l.present = true)
    (fine : ∀ l ∈ path, l.rights = true → l.reserved s = false)
    (user : ptep.getLsbD pgUser = pathUser path) (rw : ptep.getLsbD pgRw = pathRw path)
    (nx : ptep.getLsbD pgNx = pathNx path) (low : entry.setWidth 32 = read 4 mem a)
    (marked : mem.orByte a (marks access.isWrite) = markPath path access.isWrite s.mem)
    (found : ptep.getLsbD pgRw = pathRw path → ptep.getLsbD pgNx = pathNx path →
      LeafOf s path addr access.isWrite (build (entry ||| (marks access.isWrite).setWidth 64))) :
    WalkRun s path addr access isUser
      (finishWalk s access isUser ptep a entry build (s.visited path mem)) := by
  have denied : protects s access isUser ptep = !(pathProt path s isUser).allows access :=
    protects_eq user rw nx
  cases allowed : (pathProt path s isUser).allows access with
  | false =>
    have faults : protects s access isUser ptep = true := by rw [denied, allowed]; rfl
    refine .protection mem present fine allowed ?_
    rw [finishWalk, throwIf_bind_of faults]
  | true =>
    have passes : ¬ protects s access isUser ptep = true := by rw [denied, allowed]; decide
    refine .mapped _ present fine allowed (found rw nx) ?_
    have stored : setAccessed access.isWrite a entry (s.visited path mem) =
        (.ok (entry ||| (marks access.isWrite).setWidth 64),
          s.visited path (mem.orByte a (marks access.isWrite))) :=
      setAccessed_run low
    rw [finishWalk, throwIf_bind_of_not passes, bind_of_ok stored, ← marked]
    rfl

theorem checkEntry_run (entry : BitVec 64) (s : MmuState) :
    checkEntry entry s =
      if entry.getLsbD pgPresent = false then (.error 0, s)
      else if s.nxe = false ∧ entry.getLsbD pgNx = true then (.error pgErrorRsvd, s)
      else (.ok (), s) := by
  rw [checkEntry, get_bind]
  by_cases present : entry.getLsbD pgPresent = false
  · rw [throwIf_bind_of present, if_pos present]
  · rw [throwIf_bind_of_not present, if_neg present, throwIf]
    split <;> rfl

def low32 (addr : BitVec 64) : BitVec 64 := (addr.setWidth 32).setWidth 64

theorem visited_quadAddr : (s.visited path mem).quadAddr = s.quadAddr := rfl

theorem low32_quadAddr_aligned (s : MmuState) (entry : BitVec 64) (index : BitVec 32) :
    (low32 (s.quadAddr entry index)).toNat % 8 = 0 := by
  have low : (s.quadAddr entry index).setWidth 3 = 0 := by
    have frame : physAddrMask.setWidth 3 = 0 := by decide
    have scaled : ((index <<< 3).setWidth 64).setWidth 3 = 0 := by
      apply eq_of_getLsbD_eq
      intro i small
      simp [small]
    rw [quadAddr, setWidth_and, setWidth_add _ _ (by decide), setWidth_and, frame, scaled]
    simp
  have remainder := congrArg BitVec.toNat low
  simp only [low32, toNat_setWidth]
  simp at remainder
  omega

theorem ldqPhys_visited (s : MmuState) (path : List Level) (mem : ByteMem 64) (a : BitVec 64)
    (rights : Bool) :
    ldqPhys a (s.visited path mem) =
      (.ok (read 8 mem a), s.visited (path ++ [.quad s a rights]) mem) := by
  simp [ldqPhys, visited, quad]

theorem checkEntry_bind {α : Type} {again : BitVec 64} (reread : Reread l.entry again)
    (path : List Level) (mem : ByteMem 64) (next : Walk α) :
    (checkEntry again >>= fun _ => next) (s.visited path mem) =
      if l.present = false then (.error 0, s.visited path mem)
      else if l.reserved s = true then (.error pgErrorRsvd, s.visited path mem)
      else next (s.visited path mem) := by
  have present : again.getLsbD pgPresent = l.present := reread.getLsbD (by decide)
  have nx : again.getLsbD pgNx = l.entry.getLsbD pgNx := reread.getLsbD (by decide)
  have run := checkEntry_run again (s.visited path mem)
  have sameNxe : (s.visited path mem).nxe = s.nxe := rfl
  rw [present, nx, sameNxe] at run
  by_cases missing : l.present = false
  · rw [if_pos missing] at run ⊢
    exact bind_of_error run
  · have reserved : l.reserved s = true ↔ s.nxe = false ∧ l.entry.getLsbD pgNx = true := by
      simp only [reserved, Bool.not_eq_false] at missing ⊢
      simp [missing]
    simp only [if_neg missing, reserved] at run ⊢
    split
    · next wrong => exact bind_of_error (run.trans (if_pos wrong))
    · next fine => exact bind_of_ok (run.trans (if_neg fine))

/-! ### PAE -/

section Pae

variable {s : MmuState} {addr : BitVec 32} {access : AccessKind} {isUser : Bool} {pointer : Level}
  {d : BitVec 64}

@[simp] theorem getLsbD_pgMask (bit i : Nat) :
    (pgMask bit).getLsbD i = (decide (bit < 64) && decide (bit = i)) := by
  rw [pgMask, getLsbD_twoPow]

/-- The combined rights of the entries so far, and of one more entry. -/
theorem getLsbD_ptep (ptep entry : BitVec 64) :
    let next := (ptep &&& (entry ^^^ pgMask pgNx)) ^^^ pgMask pgNx
    next.getLsbD pgUser = (ptep.getLsbD pgUser && entry.getLsbD pgUser) ∧
      next.getLsbD pgRw = (ptep.getLsbD pgRw && entry.getLsbD pgRw) ∧
      next.getLsbD pgNx = (!ptep.getLsbD pgNx || entry.getLsbD pgNx) := by
  simp only [getLsbD_xor, getLsbD_and, getLsbD_pgMask]
  simp [pgUser, pgRw, pgNx]

/-- The PAE path of the source: addresses of entries have 32 bits, and a pointer only has to be
present. -/
def MmuState.paeCodePath (s : MmuState) (addr : BitVec 32) : List Level :=
  s.paePath addr low32 fun l => !l.present

section

variable (pae : s.pae = true) (noRights : pointer.rights = false)
  (pointed : pointer.present = true) (dirPresent : (quad s d true).present = true)
  (dirFine : (quad s d true).reserved s = false)

include pae noRights pointed dirPresent dirFine

theorem walkPaeTable_run (aligned : d.toNat % 8 = 0) :
    WalkRun s [pointer, .quad s d true, .quad s (low32 (s.quadAddr (read 8 s.mem d)
      ((addr >>> 12) &&& 0x1ff))) true] addr access isUser
      (walkPaeTable addr access isUser (read 8 s.mem d ||| (marks false).setWidth 64)
        ((pgMask pgNx ||| pgMask pgUser ||| pgMask pgRw) &&& (read 8 s.mem d ^^^ pgMask pgNx))
        (s.visited [pointer, .quad s d true] (s.mem.orByte d (marks false)))) := by
  have first : Reread (read 8 s.mem d) (read 8 s.mem d) := .same
  have reread := reread_quad s.mem aligned
    (low32_quadAddr_aligned s (read 8 s.mem d) ((addr >>> 12) &&& 0x1ff))
  rw [walkPaeTable, get_bind, first.or_marks_and false (by decide), ← low32, ← quadAddr,
    visited_quadAddr]
  generalize low32 (s.quadAddr (read 8 s.mem d) ((addr >>> 12) &&& 0x1ff)) = table at *
  rw [bind_of_ok (ldqPhys_visited s _ _ table true)]
  rw [checkEntry_bind (l := .quad s table true) reread]
  split
  · next missing => exact .notPresent _ ⟨_, by simp, missing⟩ rfl
  · next tablePresent =>
    have present : ∀ l ∈ [pointer, .quad s d true, .quad s table true], l.present = true := by
      simp [pointed, dirPresent, tablePresent]
    split
    · next wrong => exact .reserved _ present ⟨_, by simp, rfl, wrong⟩ rfl
    · next tableFine =>
      have fine : ∀ l ∈ [pointer, .quad s d true, .quad s table true], l.rights = true →
          l.reserved s = false := by
        simp [noRights, dirFine, tableFine]
      obtain ⟨user, rw, nx⟩ := getLsbD_ptep ((pgMask pgNx ||| pgMask pgUser ||| pgMask pgRw) &&&
        (read 8 s.mem d ^^^ pgMask pgNx)) (read 8 (s.mem.orByte d (marks false)) table)
      rw [reread.getLsbD (by decide)] at user rw nx
      have marked := markPath_append [pointer, .quad s d true] (l := .quad s table true) rfl
        access.isWrite s.mem
      have shift : pageShift s [pointer, .quad s d true, .quad s table true] = 12 := by
        simp [pageShift, pae]
      have low : (read 8 (s.mem.orByte d (marks false)) table).setWidth 32 =
          read 4 (s.mem.orByte d (marks false)) table :=
        read_setWidth _ _ (by decide : 4 ≤ 8)
      rw [markAccessed_cons_of_not noRights, markAccessed_singleton rfl] at marked
      refine finishLeaf present fine ?_ ?_ ?_ low marked.symm fun rw nx => ?_
      · rw [user]; simp [pathUser, noRights, quad, pgMask, pgUser, pgRw, pgNx]
      · rw [rw]; simp [pathRw, noRights, quad, pgMask, pgUser, pgRw, pgNx]
      · rw [nx]; simp [pathNx, noRights, quad, pgMask, pgUser, pgRw, pgNx]
      refine ⟨?frame, ?dirty, rw, nx, ?size, ?virtAddr⟩
      case frame =>
        rw [shift, BitVec.and_assoc, BitVec.and_assoc, reread.or_marks_and _ (by decide)]
        rfl
      case dirty =>
        rw [getLsbD_and, reread.or_marks_dirty]
        simp [leafEntry, quad, pgDirty, physAddrMask]
      case size | virtAddr => rw [shift]; rfl

theorem walkPaeLarge_run :
    WalkRun s [pointer, .quad s d true] addr access isUser
      (let ptep := (pgMask pgNx ||| pgMask pgUser ||| pgMask pgRw) &&&
        (read 8 s.mem d ^^^ pgMask pgNx)
      finishWalk s access isUser (ptep ^^^ pgMask pgNx) d (read 8 s.mem d)
        (fun pde => ⟨pde &&& ((physAddrMask &&& ~~~0x1fffff) ||| 0xfff), ptep ^^^ pgMask pgNx,
          addr &&& ~~~0x1fffff, 0x200000⟩)
        (s.visited [pointer, .quad s d true] s.mem)) := by
  have first : Reread (read 8 s.mem d) (read 8 s.mem d) := .same
  have present : ∀ l ∈ [pointer, .quad s d true], l.present = true := by
    simp [pointed, dirPresent]
  have fine : ∀ l ∈ [pointer, .quad s d true], l.rights = true → l.reserved s = false := by
    simp [noRights, dirFine]
  have marked := markPath_append [pointer] (l := .quad s d true) rfl access.isWrite s.mem
  rw [markAccessed_cons_of_not noRights] at marked
  have shift : pageShift s [pointer, .quad s d true] = 21 := by simp [pageShift, pae]
  have low : (read 8 s.mem d).setWidth 32 = read 4 s.mem d :=
    read_setWidth _ _ (by decide : 4 ≤ 8)
  refine finishLeaf present fine ?_ ?_ ?_ low marked.symm fun rw nx => ?_
  · simp [pathUser, noRights, quad, pgMask, pgUser, pgRw, pgNx]
  · simp [pathRw, noRights, quad, pgMask, pgUser, pgRw, pgNx]
  · simp [pathNx, noRights, quad, pgMask, pgUser, pgRw, pgNx]
  refine ⟨?frame, ?dirty, rw, nx, ?size, ?virtAddr⟩
  case frame =>
    rw [shift, BitVec.and_assoc, BitVec.and_assoc, first.or_marks_and _ (by decide)]
    rfl
  case dirty =>
    rw [getLsbD_and, first.or_marks_dirty]
    simp [leafEntry, quad, pgDirty, physAddrMask]
  case size | virtAddr => rw [shift]; rfl

end

theorem walkPae_run (pae : s.pae = true) :
    WalkRun s (s.paeCodePath addr) addr access isUser (walkPae addr access isUser s) := by
  have loaded : ldqPhys (s.pointerLevel addr).addr s =
      (.ok (s.pointerLevel addr).entry, s.visited [s.pointerLevel addr] s.mem) := rfl
  have noRights : (s.pointerLevel addr).rights = false := rfl
  rw [walkPae, get_bind]
  show WalkRun _ _ _ _ _ ((ldqPhys (s.pointerLevel addr).addr >>= _) s)
  rw [bind_of_ok loaded, paeCodePath, paePath]
  generalize s.pointerLevel addr = pointer at *
  cases pointed : pointer.present with
  | false =>
    have missing : pointer.entry.getLsbD pgPresent = false := pointed
    rw [throwIf_bind_of missing]
    exact .notPresent _ ⟨pointer, by simp, pointed⟩ rfl
  | true =>
    have here : ¬ pointer.entry.getLsbD pgPresent = false := by
      rw [← present, pointed]
      decide
    have aligned := low32_quadAddr_aligned s pointer.entry ((addr >>> 21) &&& 0x1ff)
    rw [throwIf_bind_of_not here, ← low32, ← quadAddr]
    simp only [Bool.not_true, Bool.false_eq_true, if_false]
    generalize low32 (s.quadAddr pointer.entry ((addr >>> 21) &&& 0x1ff)) = d at *
    have dirEntry : (quad s d true).entry = read 8 s.mem d := rfl
    have first : Reread (quad s d true).entry (read 8 s.mem d) := .same
    rw [bind_of_ok (ldqPhys_visited s _ _ d true), checkEntry_bind first, dirEntry]
    cases dirPresent : (quad s d true).present with
    | false =>
      have unusable : (quad s d true).usable s = false := by simp [usable, dirPresent]
      simp only [unusable, if_true]
      exact .notPresent _ ⟨.quad s d true, by simp, dirPresent⟩ rfl
    | true =>
      cases dirReserved : (quad s d true).reserved s with
      | true =>
        have unusable : (quad s d true).usable s = false := by
          simp [usable, dirReserved]
        simp only [unusable, if_true, Bool.true_eq_false, if_false]
        exact .reserved _ (by simp [pointed, dirPresent])
          ⟨.quad s d true, by simp, rfl, dirReserved⟩ rfl
      | false =>
        have usable : (quad s d true).usable s = true := by
          simp [usable, dirPresent, dirReserved]
        simp only [usable, Bool.true_eq_false, Bool.false_eq_true,
          if_false]
        cases large : (read 8 s.mem d).getLsbD pgPse with
        | true => exact walkPaeLarge_run pae noRights pointed dirPresent dirReserved
        | false =>
          have marked : setAccessed false d (read 8 s.mem d)
              (s.visited [pointer, .quad s d true] s.mem) =
              (.ok (read 8 s.mem d ||| (marks false).setWidth 64),
                s.visited [pointer, .quad s d true] (s.mem.orByte d (marks false))) :=
            setAccessed_run (read_setWidth _ _ (by decide : 4 ≤ 8))
          simp only [Bool.false_eq_true, if_false]
          rw [singleton_append, bind_of_ok marked]
          exact walkPaeTable_run pae noRights pointed dirPresent dirReserved aligned

end Pae

/-! ### Two levels -/

section Long

variable {s : MmuState} {addr : BitVec 32} {access : AccessKind} {isUser : Bool} {d : BitVec 64}

section

variable (s : MmuState)

/-- The address of an entry of four bytes. -/
def MmuState.longAddr (base index : BitVec 32) : BitVec 64 :=
  (((base &&& ~~~0xfff#32) + (index &&& 0xffc)) &&& s.a20Mask 32).setWidth 64

theorem longAddr_aligned (base index : BitVec 32) : (s.longAddr base index).toNat % 4 = 0 := by
  have low : (s.longAddr base index).setWidth 2 = 0 := by
    have frame : (~~~0xfff#32).setWidth 2 = 0 := by decide
    have scaled : (0xffc : BitVec 32).setWidth 2 = 0 := by decide
    rw [longAddr, setWidth_setWidth_of_le _ (by decide), setWidth_and,
      setWidth_add _ _ (by decide), setWidth_and, setWidth_and, frame, scaled]
    simp
  have remainder := congrArg BitVec.toNat low
  simpa using remainder

theorem visited_longAddr : (s.visited path mem).longAddr = s.longAddr := rfl

theorem ldlPhys_visited (path : List Level) (mem : ByteMem 64) (a : BitVec 64) :
    ldlPhys a (s.visited path mem) =
      (.ok ((read 4 mem a).setWidth 64), s.visited (path ++ [.long s a]) mem) := by
  simp [ldlPhys, visited, long]

@[simp] theorem long_nx (a : BitVec 64) : (long s a).entry.getLsbD pgNx = false := by
  rw [long, getLsbD_setWidth, getLsbD_of_ge _ _ (by decide), Bool.and_false]

@[simp] theorem long_reserved (a : BitVec 64) : (long s a).reserved s = false := by
  rw [reserved, long_nx, Bool.and_false]

theorem long_low (value : BitVec 32) : (value.setWidth 64).setWidth 32 = value := by simp

theorem long_and {value : BitVec 32} {mask' : BitVec 64}
    (same : 0xffffffff#64 &&& mask = 0xffffffff#64 &&& mask') :
    value.setWidth 64 &&& mask = value.setWidth 64 &&& mask' := by
  have inside : value.setWidth 64 &&& (allOnes 32).setWidth 64 = value.setWidth 64 := by
    rw [← setWidth_and, and_allOnes]
  rw [← inside, BitVec.and_assoc, BitVec.and_assoc]
  exact congrArg _ same

end

/-- The rights of a directory entry with its accessed bit and a table entry. -/
theorem getLsbD_and_marked (pde : BitVec 64) {pte again : BitVec 64} (reread : Reread pte again)
    (other : bit ≠ pgAccessed) :
    (again &&& (pde ||| (marks false).setWidth 64)).getLsbD bit =
      (pde.getLsbD bit && pte.getLsbD bit) := by
  have unmarked : ((marks false).setWidth 64).getLsbD bit = false := by
    have accessed : (marks false).setWidth 64 = pgMask pgAccessed := by decide
    rw [accessed, getLsbD_pgMask, decide_eq_false (symm other), Bool.and_false]
  rw [getLsbD_and, getLsbD_or, unmarked, Bool.or_false, reread.getLsbD other, Bool.and_comm]

theorem walk32Table_run (twoLevel : s.pae = false) (dirPresent : (long s d).present = true)
    (aligned : d.toNat % 4 = 0) :
    WalkRun s [.long s d, .long s (s.longAddr ((long s d).entry.setWidth 32) (addr >>> 10))]
      addr access isUser
      (walk32Table addr access isUser ((long s d).entry ||| (marks false).setWidth 64)
        (s.visited [.long s d] (s.mem.orByte d (marks false)))) := by
  have frame : ((long s d).entry ||| (marks false).setWidth 64).setWidth 32 &&& ~~~0xfff#32 =
      (long s d).entry.setWidth 32 &&& ~~~0xfff#32 := by
    have clear : ((marks false).setWidth 64).setWidth 32 &&& ~~~0xfff#32 = 0#32 := by decide
    rw [setWidth_or, and_or_distrib_right, clear, or_zero]
  have reread := reread_entry s.mem (by decide) (by decide) aligned
    (longAddr_aligned s ((long s d).entry.setWidth 32) (addr >>> 10))
  rw [walk32Table, get_bind, frame, ← longAddr, visited_longAddr]
  generalize s.longAddr ((long s d).entry.setWidth 32) (addr >>> 10) = table at *
  rw [bind_of_ok (ldlPhys_visited s _ _ table)]
  have samePresent : ((read 4 (s.mem.orByte d (marks false)) table).setWidth 64).getLsbD
      pgPresent = (long s table).present := reread.getLsbD (by decide)
  cases tablePresent : (long s table).present with
  | false =>
    rw [throwIf_bind_of (samePresent.trans tablePresent)]
    exact .notPresent _ ⟨_, by simp, tablePresent⟩ rfl
  | true =>
    rw [throwIf_bind_of_not (by rw [samePresent, tablePresent]; decide)]
    have present : ∀ l ∈ [long s d, long s table], l.present = true := by
      simp [dirPresent, tablePresent]
    have fine : ∀ l ∈ [long s d, long s table], l.rights = true → l.reserved s = false := by
      simp
    have rights : ∀ bit ≠ pgAccessed, _ := fun bit other =>
      getLsbD_and_marked (long s d).entry reread other
    have marked := markPath_append [.long s d] (l := .long s table) rfl access.isWrite s.mem
    have shift : pageShift s [.long s d, .long s table] = 12 := by simp [pageShift, twoLevel]
    refine finishLeaf present fine ?_ ?_ ?_ (long_low _) marked.symm fun rw nx => ?_
    · rw [rights _ (by decide)]; simp [pathUser, long]
    · rw [rights _ (by decide)]; simp [pathRw, long]
    · rw [rights _ (by decide)]; simp [pathNx]
    refine ⟨?frame, reread.or_marks_dirty _, rw, nx, ?size, ?virtAddr⟩
    case frame =>
      rw [shift, reread.or_marks_and _ (by decide), BitVec.and_assoc]
      exact long_and (by decide)
    case size | virtAddr => rw [shift]; rfl

theorem walk32Large_run (twoLevel : s.pae = false) (dirPresent : (long s d).present = true) :
    WalkRun s [.long s d] addr access isUser
      (finishWalk s access isUser (long s d).entry d (long s d).entry
        (fun pde => ⟨pde &&& 0xffc00fff, pde &&& 0xffc00fff, addr &&& ~~~0x3fffff, 0x400000⟩)
        (s.visited [.long s d] s.mem)) := by
  have first : Reread (long s d).entry (long s d).entry := .same
  have marked := markPath_append [] (l := .long s d) rfl access.isWrite s.mem
  have shift : pageShift s [.long s d] = 22 := by simp [pageShift, twoLevel]
  refine finishLeaf (by simp [dirPresent]) (by simp) ?_ ?_ ?_ (long_low _) marked.symm fun _ _ => ?_
  · simp [pathUser, long]
  · simp [pathRw, long]
  · simp [pathNx]
  · constructor
    case frame =>
      rw [shift, BitVec.and_assoc, first.or_marks_and _ (by decide), BitVec.and_assoc]
      exact long_and (by decide)
    case dirty =>
      rw [getLsbD_and, first.or_marks_dirty]
      simp [leafEntry, pgDirty]
    case rw =>
      have bits : ((marks access.isWrite).setWidth 64).getLsbD pgRw = false := by
        cases access.isWrite <;> decide
      rw [getLsbD_and, getLsbD_or, bits]
      simp [pathRw, long, pgRw]
    case nx =>
      have high : (0xffc00fff : BitVec 64).getLsbD pgNx = false := by decide
      rw [getLsbD_and, high, Bool.and_false]
      simp [pathNx]
    case size | virtAddr => rw [shift]; rfl

theorem longPath_eq (s : MmuState) (addr : BitVec 32) :
    s.longPath addr =
      let directory := long s (s.longAddr s.cr3 (addr >>> 20))
      if !directory.present || (directory.entry.getLsbD pgPse && s.pse) then [directory]
      else [directory, .long s (s.longAddr (directory.entry.setWidth 32) (addr >>> 10))] :=
  rfl

theorem walk32_run (twoLevel : s.pae = false) :
    WalkRun s (s.longPath addr) addr access isUser (walk32 addr access isUser s) := by
  have aligned := longAddr_aligned s s.cr3 (addr >>> 20)
  rw [walk32, get_bind, ← longAddr, longPath_eq]
  generalize s.longAddr s.cr3 (addr >>> 20) = d at *
  have loaded : ldlPhys d s = (.ok (long s d).entry, s.visited [.long s d] s.mem) := rfl
  rw [bind_of_ok loaded]
  cases dirPresent : (long s d).present with
  | false =>
    have missing : (long s d).entry.getLsbD pgPresent = false := dirPresent
    rw [throwIf_bind_of missing]
    simp only [dirPresent]
    exact .notPresent _ ⟨_, by simp, dirPresent⟩ rfl
  | true =>
    have here : ¬ (long s d).entry.getLsbD pgPresent = false := by
      rw [← present, dirPresent]
      decide
    rw [throwIf_bind_of_not here]
    simp only [dirPresent]
    cases large : (long s d).entry.getLsbD pgPse && s.pse with
    | true => exact walk32Large_run twoLevel dirPresent
    | false =>
      have marked : setAccessed false d (long s d).entry (s.visited [.long s d] s.mem) =
          (.ok ((long s d).entry ||| (marks false).setWidth 64),
            s.visited [.long s d] (s.mem.orByte d (marks false))) :=
        setAccessed_run (long_low _)
      simp only [Bool.false_eq_true, if_false]
      rw [bind_of_ok marked]
      exact walk32Table_run twoLevel dirPresent aligned

end Long

end Qemu.I386
