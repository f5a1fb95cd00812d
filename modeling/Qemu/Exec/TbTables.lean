import Qemu.Lib.Links
import Qemu.Lib.Prog

/-!
# Translation blocks and the tables they are filed in

`exec.c` files every translation block in a hash chain keyed by its physical pc, in the list of each
physical page it has bytes in, and, by its two direct jumps, in the circular lists of the blocks it
jumps to.  All three families are intrusive lists; the low bits of a pointer say which link field of
the block it points to goes on with the list.

The blocks are the cells of the array `tbs`, `N` of them.  `live` is a ghost component: the blocks
that have been linked and neither invalidated nor flushed since.
-/

namespace Qemu.Exec

open Function Prog Links Fintype

def targetPageSize : Nat := 4096

def codeDirtyFlag : BitVec 8 := 0x02

/-- The fields of a `TranslationBlock` that are no list pointers.  A missing jump, offset `0xffff`
in the source, is `none`; so is a `page_addr[1]` of `-1`.  `tcSize` is the `code_gen_size` with
which the code at `tcPtr` was generated. -/
structure TranslationBlock where
  pc : BitVec 32
  csBase : BitVec 32
  flags : BitVec 64
  size : Nat
  cflags : Nat
  tcPtr : Nat
  tcSize : Nat
  tbNextOffset : Fin 2 → Option Nat
  pageAddr0 : Nat
  pageAddr1 : Option Nat

namespace TranslationBlock

section

variable (block : TranslationBlock)

/-- `page_addr[n]`. -/
def pageAddr : Fin 2 → Option Nat
  | 0 => some block.pageAddr0
  | 1 => block.pageAddr1

/-- The physical pc, `page_addr[0] + (pc & ~TARGET_PAGE_MASK)`. -/
def physPc : Nat := block.pageAddr0 + block.pc.toNat % targetPageSize

/-- The code a jump falls through to as long as it is not chained. -/
def epilogue (n : Fin 2) : Nat := block.tcPtr + (block.tbNextOffset n).getD 0xffff

def setPageAddr (n : Fin 2) (addr : Nat) : TranslationBlock :=
  match n with
  | 0 => { block with pageAddr0 := addr }
  | 1 => { block with pageAddr1 := some addr }

end

end TranslationBlock

/-- Where a pointer of a hash chain is stored: `tb_phys_hash[h]` or `tb->phys_hash_next`. -/
inductive HashSlot (N : Nat) where
  | tbPhysHash (h : Nat)
  | physHashNext (tb : Fin N)
  deriving DecidableEq

/-- Where a pointer of a page list is stored: `p->first_tb` or `tb->page_next[n]`; a pointer is a
block and its tag. -/
inductive PageSlot (N : Nat) where
  | firstTb (page : Nat)
  | pageNext (ref : Fin N × Fin 2)
  deriving DecidableEq

/-- A tagged pointer of a jump list and, at the same time, the field that it says the list goes on
in: `tb->jmp_next[n]` for the tags 0 and 1, `tb->jmp_first` for the tag 2. -/
inductive JmpRef (N : Nat) where
  | jmpNext (tb : Fin N) (n : Fin 2)
  | jmpFirst (tb : Fin N)
  deriving DecidableEq

/-- The pointer fields of the jump lists: two link fields and one head for every block. -/
def jmpRefEquiv (N : Nat) : (Fin N × Fin 2) ⊕ Fin N ≃ JmpRef N where
  toFun
    | .inl (tb, n) => .jmpNext tb n
    | .inr tb => .jmpFirst tb
  invFun
    | .jmpNext tb n => .inl (tb, n)
    | .jmpFirst tb => .inr tb
  left_inv := by rintro (⟨tb, n⟩ | tb) <;> rfl
  right_inv := by rintro (⟨tb, n⟩ | tb) <;> rfl

instance (N : Nat) : Fintype (JmpRef N) := ofEquiv _ (jmpRefEquiv N)

theorem card_jmpRef (N : Nat) : card (JmpRef N) = 3 * N := by
  rw [← card_congr (jmpRefEquiv N), card_sum, card_prod, card_fin,
    card_fin]
  omega

/-- What `exec.c` knows about translated code. -/
structure TbState (N : Nat) where
  tbs : Fin N → TranslationBlock
  hash : HashSlot N → Option (Fin N)
  page : PageSlot N → Option (Fin N × Fin 2)
  jmp : JmpRef N → Option (JmpRef N)
  /-- Where the native jump `n` of a block goes. -/
  jmpTarget : Fin N × Fin 2 → Nat
  /-- `env->tb_jmp_cache` of every CPU. -/
  tbJmpCache : Nat → BitVec 32 → Option (Fin N)
  /-- Whether `page_find` finds a descriptor. -/
  pageFound : Nat → Bool
  codeBitmap : Nat → Option (Nat → BitVec 8)
  codeWriteCount : Nat → Nat
  /-- `ram_list.phys_dirty`. -/
  physDirty : Nat → BitVec 8
  live : Finset (Fin N)

/-- Code that works on the tables; it has no error returns. -/
abbrev TbProg (N : Nat) := Prog (TbState N) Empty

def tbPhysHashFunc (physPc : Nat) : Nat := (physPc >>> 2) &&& (2 ^ 15 - 1)

def tbJmpCacheHashFunc (pc : BitVec 32) : BitVec 32 :=
  let tmp := pc ^^^ (pc >>> 6)
  ((tmp >>> 6) &&& 4032#32) ||| (tmp &&& 63#32)

variable {N : Nat}

/-! ## Pages -/

/-- `page_find_alloc`: descriptors are allocated in tables of `L2_SIZE`. -/
def pageFindAlloc (page : Nat) (s : TbState N) : TbState N :=
  { s with pageFound := fun other => s.pageFound other || other / 1024 == page / 1024 }

def invalidatePageBitmap (page : Nat) (s : TbState N) : TbState N :=
  { s with
    codeBitmap := update s.codeBitmap page none
    codeWriteCount := update s.codeWriteCount page 0 }

def tlbProtectCode (ramAddr : Nat) (s : TbState N) : TbState N :=
  { s with
    physDirty := update s.physDirty (ramAddr / targetPageSize)
      (s.physDirty (ramAddr / targetPageSize) &&& ~~~ codeDirtyFlag) }

variable (tb : Fin N)

/-- `tb_alloc_page`: add the block to the list of a page, and protect the page if it is the first
block there. -/
def tbAllocPage (n : Fin 2) (pageAddr : Nat) (s : TbState N) : TbState N :=
  let page := pageAddr / targetPageSize
  let s := { s with tbs := update s.tbs tb ((s.tbs tb).setPageAddr n pageAddr) }
  let s := pageFindAlloc page s
  let pageAlreadyProtected := s.page (.firstTb page) ≠ none
  let s := { s with page := push s.page .pageNext (.firstTb page) (tb, n) }
  let s := invalidatePageBitmap page s
  if pageAlreadyProtected then s else tlbProtectCode pageAddr s

/-! ## Jumps -/

def tbSetJmpTarget (n : Fin 2) (addr : Nat) (s : TbState N) : TbState N :=
  { s with jmpTarget := update s.jmpTarget (tb, n) addr }

def tbResetJump (n : Fin 2) (s : TbState N) : TbState N :=
  tbSetJmpTarget tb n ((s.tbs tb).epilogue n) s

/-- The part of `tb_link_page` that enters the block in the lists of its pages. -/
def tbLinkPages (physPc : Nat) (physPage2 : Option Nat) (s : TbState N) : TbState N :=
  let s := tbAllocPage tb 0 (physPc - physPc % targetPageSize) s
  match physPage2 with
  | some page2 => tbAllocPage tb 1 page2 s
  | none => { s with tbs := update s.tbs tb { s.tbs tb with pageAddr1 := none } }

/-- The part of `tb_link_page` that unchains both jumps of the block. -/
def tbInitJumps (s : TbState N) : TbState N :=
  let s := { s with jmp := update s.jmp (.jmpFirst tb) (some (.jmpFirst tb)) }
  let s := { s with jmp := update s.jmp (.jmpNext tb 0) none }
  let s := { s with jmp := update s.jmp (.jmpNext tb 1) none }
  let s := if (s.tbs tb).tbNextOffset 0 ≠ none then tbResetJump tb 0 s else s
  if (s.tbs tb).tbNextOffset 1 ≠ none then tbResetJump tb 1 s else s

/-- `tb_link_page`; `phys_page2` is `none` if the block ends on its first page. -/
def tbLinkPage (physPc : Nat) (physPage2 : Option Nat) (s : TbState N) : TbState N :=
  let h := tbPhysHashFunc physPc
  let s := { s with hash := push s.hash .physHashNext (.tbPhysHash h) tb }
  let s := tbLinkPages tb physPc physPage2 s
  let s := tbInitJumps tb s
  { s with live := insert tb s.live }

def tbAddJump (n : Fin 2) (tbNext : Fin N) (s : TbState N) : TbState N :=
  if s.jmp (.jmpNext tb n) = none then
    let s := tbSetJmpTarget tb n (s.tbs tbNext).tcPtr s
    { s with jmp := push s.jmp id (.jmpFirst tbNext) (.jmpNext tb n) }
  else s

def tbFlush (s : TbState N) : TbState N :=
  { s with
    tbJmpCache := fun _ _ => none
    hash := fun slot => match slot with
      | .tbPhysHash _ => none
      | .physHashNext tb => s.hash (.physHashNext tb)
    page := fun slot => match slot with
      | .firstTb _ => none
      | .pageNext ref => s.page (.pageNext ref)
    codeBitmap := fun _ => none
    codeWriteCount := fun _ => 0
    live := ∅ }

/-! ## Removal -/

/-- The end of a walk that looks for an entry.  A walk that comes to a null pointer goes on through
it and crashes. -/
def landed {ς ν : Type} : Option (ς × Option ν) → TbProg N (ς × ν)
  | none => hang
  | some (_, none) => abort
  | some (slot, some x) => pure (slot, x)

def tbRemove (h : Nat) (tb : Fin N) : TbProg N Unit := do
  let s ← get
  let found ← landed (search s.hash .physHashNext (fun tb1 => tb1 = tb) (N + 1)
    (.tbPhysHash h))
  modify fun s => { s with hash := unlink s.hash .physHashNext found.1 found.2 }

def tbPageRemove (page : Nat) (tb : Fin N) : TbProg N Unit := do
  let s ← get
  let found ← landed (search s.page .pageNext (fun ref => ref.1 = tb) (2 * N + 1)
    (.firstTb page))
  modify fun s => { s with page := unlink s.page .pageNext found.1 found.2 }

/-- Take the block out of the list of the page at `addr`, whose descriptor has to exist. -/
def tbPageForget (addr : Nat) : TbProg N Unit := do
  let s ← get
  if s.pageFound (addr / targetPageSize) then
    tbPageRemove (addr / targetPageSize) tb
    modify (invalidatePageBitmap (addr / targetPageSize))
  else abort

def tbJmpRemove (n : Fin 2) : TbProg N Unit := do
  let s ← get
  if s.jmp (.jmpNext tb n) = none then pure ()
  else
    let found ← landed (search s.jmp id (fun ref => ref = .jmpNext tb n) (3 * N + 1)
      (.jmpNext tb n))
    modify fun s => { s with
      jmp := update (unlink s.jmp id found.1 (.jmpNext tb n)) (.jmpNext tb n) none }

/-- Unchain every jump on the circular list from `tb1` on. -/
def suppressJumps : Nat → Option (JmpRef N) → TbProg N Unit
  | 0, _ => hang
  | _ + 1, none => abort
  | _ + 1, some (.jmpFirst _) => pure ()
  | fuel + 1, some (.jmpNext tb1 n1) => do
      let s ← get
      modify (tbResetJump tb1 n1)
      modify fun s => { s with jmp := update s.jmp (.jmpNext tb1 n1) none }
      suppressJumps fuel (s.jmp (.jmpNext tb1 n1))

/-- Clear the block from the jump cache of every CPU. -/
def tbJmpCacheForget (s : TbState N) : TbState N :=
  let h := tbJmpCacheHashFunc (s.tbs tb).pc
  { s with tbJmpCache := fun cpu =>
      if s.tbJmpCache cpu h = some tb then update (s.tbJmpCache cpu) h none
      else s.tbJmpCache cpu }

/-- The part of `tb_phys_invalidate` that takes the block out of the lists of its pages, the list of
the page at `page_addr` apart. -/
def tbLeavePages (block : TranslationBlock) (pageAddr : Option Nat) :
    TbProg N Unit := do
  if some block.pageAddr0 = pageAddr then pure () else tbPageForget tb block.pageAddr0
  match block.pageAddr1 with
  | none => pure ()
  | some addr => if some addr = pageAddr then pure () else tbPageForget tb addr

/-- `tb_phys_invalidate`; `page_addr` is `none` for `-1`.  A caller that passes a page resets the
list of that page itself. -/
def tbPhysInvalidate (pageAddr : Option Nat) : TbProg N Unit := do
  let s ← get
  let block := s.tbs tb
  tbRemove (tbPhysHashFunc block.physPc) tb
  tbLeavePages tb block pageAddr
  modify (tbJmpCacheForget tb)
  tbJmpRemove tb 0
  tbJmpRemove tb 1
  let s ← get
  suppressJumps (3 * N + 1) (s.jmp (.jmpFirst tb))
  modify fun s => { s with
    jmp := update s.jmp (.jmpFirst tb) (some (.jmpFirst tb))
    live := s.live.erase tb }

/-! ## Lookup -/

/-- What `tb_gen_code` comes up with: the cell it fills, how it fills it, the second page, and
whether it had to flush first. -/
structure Translation (N : Nat) where
  tb : Fin N
  block : TranslationBlock
  physPage2 : Option Nat
  flush : Bool

def tbGenCode (made : Translation N) (physPc : Nat) (s : TbState N) : TbState N :=
  let s := if made.flush then tbFlush s else s
  let s := { s with tbs := update s.tbs made.tb made.block }
  tbLinkPage made.tb physPc made.physPage2 s

/-- A translation that is asked for, with the addresses its virtual pages have. -/
structure Request where
  pc : BitVec 32
  csBase : BitVec 32
  flags : BitVec 64
  physPc : Nat
  /-- What `get_page_addr_code` returns for the next virtual page. -/
  nextPage : Nat

/-- The test `tb_find_slow` makes on every block of the chain. -/
def Request.matches (request : Request) (block : TranslationBlock) : Bool :=
  block.pc = request.pc ∧
    block.pageAddr0 = request.physPc - request.physPc % targetPageSize ∧
    block.csBase = request.csBase ∧ block.flags = request.flags ∧
    (block.pageAddr1 = none ∨ block.pageAddr1 = some request.nextPage)

/-- The chain walk of `tb_find_slow`: the slot it ends at and the block found. -/
def tbLookup (request : Request) (s : TbState N) : Option (HashSlot N × Option (Fin N)) :=
  search s.hash .physHashNext (fun tb => request.matches (s.tbs tb)) (N + 1)
    (.tbPhysHash (tbPhysHashFunc request.physPc))

/-- The end of `tb_find_slow`: move the block to the head of its chain, if the slot the walk ended
at is not null, and enter it in the jump cache. -/
def tbMoveToFront (cpu : Nat) (request : Request) (slot : HashSlot N) (tb : Fin N) (s : TbState N) : TbState N :=
  let head := .tbPhysHash (tbPhysHashFunc request.physPc)
  let s := if s.hash slot = none then s
    else { s with
      hash := push (unlink s.hash .physHashNext slot tb) .physHashNext head tb }
  { s with
    tbJmpCache := update s.tbJmpCache cpu
      (update (s.tbJmpCache cpu) (tbJmpCacheHashFunc request.pc) (some tb)) }

/-- `tb_find_slow`; `made` is what `tb_gen_code` comes up with if no block is found. -/
def tbFindSlow (cpu : Nat) (request : Request) (made : Translation N) : TbProg N (Fin N) := do
  let s ← get
  match tbLookup request s with
  | none => hang
  | some (slot, some tb) => do
      modify (tbMoveToFront cpu request slot tb)
      pure tb
  | some (slot, none) => do
      modify (tbGenCode made request.physPc)
      modify (tbMoveToFront cpu request slot made.tb)
      pure made.tb

end Qemu.Exec
