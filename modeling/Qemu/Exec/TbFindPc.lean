import Qemu.Lib.Always

/-!
# The block of a host address

`tb_gen_code` places blocks one behind the other in the code buffer, and `tb_find_pc` searches for
the block that contains a host address.  An exception during the translation leaves a block that has
no code.
-/

namespace Qemu.Exec.Code

open List

/-- The code buffer with the values `tc_ptr` of `tbs[0..nb_tbs-1]`. -/
structure CodeBuffer where
  codeGenBuffer : Nat
  codeGenBufferMaxSize : Nat
  codeGenMaxBlocks : Nat
  codeGenPtr : Nat
  tbs : List Nat
  started : codeGenBuffer ≤ codeGenPtr
  bounds : ∀ tcPtr ∈ tbs, codeGenBuffer ≤ tcPtr ∧ tcPtr ≤ codeGenPtr
  ordered : tbs.Pairwise (· ≤ ·)

variable {s : CodeBuffer}

def tbFlush (s : CodeBuffer) : CodeBuffer :=
  { s with
    codeGenPtr := s.codeGenBuffer
    tbs := []
    started := le_rfl
    bounds := nofun
    ordered := .nil }

/-- The condition on which `tb_alloc` fails. -/
def CodeBuffer.full (s : CodeBuffer) : Bool :=
  s.codeGenMaxBlocks ≤ s.tbs.length ∨ s.codeGenBufferMaxSize ≤ s.codeGenPtr - s.codeGenBuffer

/-- The pointer behind code of the given size, in units of `CODE_GEN_ALIGN`. -/
def CodeBuffer.ptrAfter (s : CodeBuffer) : Option Nat → Nat
  | none => s.codeGenPtr
  | some codeGenSize => (s.codeGenPtr + codeGenSize + 15) / 16 * 16

theorem CodeBuffer.le_ptrAfter (s : CodeBuffer) (codeGenSize : Option Nat) :
    s.codeGenPtr ≤ s.ptrAfter codeGenSize := by
  unfold ptrAfter
  split <;> omega

/-- `tb_gen_code` from a `tb_alloc` that succeeds, with the size of the code, or `none` if the
translation raises an exception. -/
def genInto (s : CodeBuffer) (codeGenSize : Option Nat) : CodeBuffer :=
  { s with
    codeGenPtr := s.ptrAfter codeGenSize
    tbs := s.tbs ++ [s.codeGenPtr]
    started := s.started.trans (s.le_ptrAfter codeGenSize)
    bounds := by
      intro tcPtr member
      rcases mem_append.mp member with old | new
      · exact ⟨(s.bounds tcPtr old).1, (s.bounds tcPtr old).2.trans (s.le_ptrAfter _)⟩
      · rw [mem_singleton.mp new]
        exact ⟨s.started, s.le_ptrAfter _⟩
    ordered := pairwise_append.mpr
      ⟨s.ordered, pairwise_singleton .., fun tcPtr old last new =>
        mem_singleton.mp new ▸ (s.bounds tcPtr old).2⟩ }

def tbGenCode (s : CodeBuffer) (codeGenSize : Option Nat) : CodeBuffer :=
  genInto (if s.full then tbFlush s else s) codeGenSize

/-- `tb_free` of the block with the given index. -/
def tbFree (s : CodeBuffer) (i : Nat) : CodeBuffer :=
  if last : i + 1 = s.tbs.length then
    { s with
      codeGenPtr := s.tbs[i]
      tbs := s.tbs.take i
      started := (s.bounds _ (getElem_mem _)).1
      bounds := by
        intro tcPtr member
        obtain ⟨j, inside, rfl⟩ := getElem_of_mem member
        rw [length_take] at inside
        rw [getElem_take]
        exact ⟨(s.bounds _ (getElem_mem _)).1,
          pairwise_iff_getElem.mp s.ordered j i (by omega) (by omega) (by omega)⟩
      ordered := s.ordered.sublist (take_sublist ..) }
  else s

/-- The loop of `tb_find_pc`. -/
def search (tbs : List Nat) (tcPtr : Nat) (mMin mMax : Int) : Int :=
  if mMin ≤ mMax then
    let m := (mMin + mMax) / 2
    let v := tbs.getD m.toNat 0
    if v = tcPtr then m
    else if tcPtr < v then search tbs tcPtr mMin (m - 1)
    else search tbs tcPtr (m + 1) mMax
  else mMax
termination_by (mMax + 1 - mMin).toNat

/-- The index of the block that `tb_find_pc` returns. -/
def tbFindPc (s : CodeBuffer) (tcPtr : Nat) : Option Int :=
  if s.tbs = [] then none
  else if tcPtr < s.codeGenBuffer ∨ s.codeGenPtr ≤ tcPtr then none
  else some (search s.tbs tcPtr 0 (s.tbs.length - 1))

/-- The blocks lie one behind the other and are found by the addresses inside them. -/
structure Finds (s : CodeBuffer) : Prop where
  increasing : s.tbs.Pairwise (· < ·)
  inside : ∀ i tcPtr, ∀ _ : i < s.tbs.length, s.tbs[i] ≤ tcPtr →
    tcPtr < s.tbs.getD (i + 1) s.codeGenPtr → tbFindPc s tcPtr = some i
  outside : ∀ tcPtr, tcPtr < s.codeGenBuffer ∨ s.codeGenPtr ≤ tcPtr → tbFindPc s tcPtr = none

/-- The search ends at the last block that does not start behind the address. -/
theorem search_eq {tbs : List Nat} {tcPtr i : Nat} {mMin mMax : Int}
    (place : ∀ j < tbs.length, j < i ∧ tbs.getD j 0 < tcPtr ∨ j = i ∧ tbs.getD j 0 ≤ tcPtr ∨
      i < j ∧ tcPtr < tbs.getD j 0)
    (low : 0 ≤ mMin ∧ mMin ≤ i + 1) (high : i ≤ mMax ∧ mMax < tbs.length) :
    search tbs tcPtr mMin mMax = i := by
  fun_induction search tbs tcPtr mMin mMax with
  | case1 mMin mMax more m v found =>
    have placed := place m.toNat (by omega)
    omega
  | case2 mMin mMax more m v other before ih =>
    have placed := place m.toNat (by omega)
    exact ih low (by omega)
  | case3 mMin mMax more m v other notBefore ih =>
    have placed := place m.toNat (by omega)
    exact ih (by omega) high
  | case4 mMin mMax done => omega

theorem finds_of_increasing (increasing : s.tbs.Pairwise (· < ·)) : Finds s := by
  have sorted := pairwise_iff_getElem.mp increasing
  refine ⟨increasing, fun i tcPtr inside after before => ?_, fun tcPtr outside => ?_⟩
  · have reached := s.bounds _ (getElem_mem inside)
    have behind (j : Nat) (below : j < s.tbs.length) (later : i < j) : tcPtr < s.tbs[j] := by
      rw [getD_eq_getElem _ _ (by omega : i + 1 < s.tbs.length)] at before
      rcases Nat.lt_or_eq_of_le later with far | rfl
      · exact before.trans (sorted _ _ _ below far)
      · exact before
    have left : tcPtr < s.codeGenPtr := by
      rcases Nat.lt_or_ge (i + 1) s.tbs.length with more | last
      · exact (behind _ more (by omega)).trans_le (s.bounds _ (getElem_mem more)).2
      · rwa [getD_eq_default _ _ last] at before
    rw [tbFindPc, if_neg (ne_nil_of_length_pos (by omega)), if_neg (by omega)]
    refine congrArg some (search_eq (fun j below => ?_) (by omega) (by omega))
    rw [getD_eq_getElem _ _ below]
    rcases Nat.lt_trichotomy j i with earlier | rfl | later
    · exact .inl ⟨earlier, (sorted j i below inside earlier).trans_le after⟩
    · exact .inr (.inl ⟨rfl, after⟩)
    · exact .inr (.inr ⟨later, behind j below later⟩)
  · rw [tbFindPc, if_pos outside, ite_self]

inductive TbOp
  | genCode (codeGenSize : Option Nat)
  | free (i : Nat)
  | flush

def TbOp.run (s : CodeBuffer) : TbOp → CodeBuffer
  | .genCode codeGenSize => tbGenCode s codeGenSize
  | .free i => tbFree s i
  | .flush => tbFlush s

/-- A block is generated behind one that has no code. -/
def TbOp.Breaks (s : CodeBuffer) : TbOp → Prop
  | .genCode _ => s.full = false ∧ s.codeGenPtr ∈ s.tbs
  | .free _ | .flush => False

theorem genInto_increasing_iff (increasing : s.tbs.Pairwise (· < ·)) (codeGenSize : Option Nat) :
    (genInto s codeGenSize).tbs.Pairwise (· < ·) ↔ s.codeGenPtr ∉ s.tbs := by
  simp only [genInto, pairwise_append, increasing, pairwise_singleton, true_and,
    mem_singleton, forall_eq]
  constructor
  · exact fun below member => lt_irrefl _ (below _ member)
  · exact fun fresh tcPtr member => lt_of_le_of_ne (s.bounds tcPtr member).2 fun same =>
      fresh (same ▸ member)

theorem finds_run_iff (s : CodeBuffer) (op : TbOp) (finds : Finds s) :
    Finds (op.run s) ↔ ¬op.Breaks s := by
  have only_order {t : CodeBuffer} : Finds t ↔ t.tbs.Pairwise (· < ·) :=
    ⟨Finds.increasing, finds_of_increasing⟩
  rw [only_order]
  cases op with
  | genCode codeGenSize =>
    rw [TbOp.run, tbGenCode, TbOp.Breaks]
    cases s.full with
    | true => exact iff_of_true (pairwise_singleton ..) (nomatch ·.1)
    | false =>
      rw [if_neg Bool.false_ne_true, genInto_increasing_iff finds.increasing,
        and_iff_right rfl]
  | free i =>
    rw [TbOp.run, tbFree]
    split
    · exact iff_of_true (finds.increasing.sublist (take_sublist ..)) id
    · exact iff_of_true finds.increasing id
  | flush => exact iff_of_true .nil id

/-- The buffer after `code_gen_alloc`. -/
def allocated (codeGenBuffer maxSize maxBlocks : Nat) : CodeBuffer :=
  ⟨codeGenBuffer, maxSize, maxBlocks, codeGenBuffer, [], le_rfl, nofun, .nil⟩

/-- Along every run, all blocks are found exactly if none is generated behind one without code. -/
theorem tbFindPc_iff (codeGenBuffer maxSize maxBlocks : Nat) (ops : List TbOp) :
    Always TbOp.run Finds (allocated codeGenBuffer maxSize maxBlocks) ops ↔
      Avoids TbOp.run TbOp.Breaks (allocated codeGenBuffer maxSize maxBlocks) ops :=
  always_iff_avoids finds_run_iff (finds_of_increasing .nil) ops

/-- The translation of the first block raises an exception; the second block has the same start, and
its first byte is found in the first one. -/
theorem aborted_translation_hides_block :
    let s := [.genCode none, .genCode (some 64)].foldl TbOp.run (allocated 0x1000 0x100000 0x400)
    s.tbs = [0x1000, 0x1000] ∧ s.codeGenPtr = 0x1040 ∧ tbFindPc s 0x1000 = some 0 ∧ ¬Finds s := by
  refine ⟨rfl, rfl, ?_, fun finds => ?_⟩
  · rw [tbFindPc, if_neg (by decide), if_neg (by decide), search]
    rfl
  · exact absurd finds.increasing (by decide)

end Qemu.Exec.Code
