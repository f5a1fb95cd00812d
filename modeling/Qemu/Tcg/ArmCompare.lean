import Qemu.I386.Translate

/-!
# Double-word comparisons on ARM

This file embeds the code that `tcg/arm/tcg-target.c` emits for `brcond2_i32` and `setcond2_i32`.
How an instruction is laid out in a word and where a branch leads to are left out.
-/

namespace Qemu.Tcg.Arm

open BitVec

open I386 (TCGCond)

/-- The registers but the program counter, which no operand is assigned to. -/
abbrev Reg := Fin 15

structure Flags where
  n : Bool
  z : Bool
  c : Bool
  v : Bool

structure State where
  regs : Reg → BitVec 32
  flags : Flags
  branched : Bool

/-- The conditions of `arm_cond_code_e` that are used here. -/
inductive Cond where
  | eq | ne | cs | cc | hi | ls | ge | lt | gt | le | al

def Cond.passes (f : Flags) : Cond → Bool
  | eq => f.z
  | ne => !f.z
  | cs => f.c
  | cc => !f.c
  | hi => f.c && !f.z
  | ls => !f.c || f.z
  | ge => f.n == f.v
  | lt => f.n != f.v
  | gt => !f.z && f.n == f.v
  | le => f.z || f.n != f.v
  | al => true

variable (x y : BitVec 32)

/-- The flags of the difference, which overflows towards the sign of `y`. -/
def compare : Flags := ⟨(x - y).msb, x == y, y.ule x, x.msb != y.msb && x.msb != (x - y).msb⟩

@[simp] theorem compare_z : (compare x y).z = (x == y) := rfl

inductive Insn where
  | cmp (cond : Cond) (rn rm : Reg)
  | movImm (cond : Cond) (rd : Reg) (im : BitVec 32)
  | b (cond : Cond)

def Insn.step (s : State) : Insn → State
  | cmp cond rn rm =>
    if cond.passes s.flags then { s with flags := compare (s.regs rn) (s.regs rm) } else s
  | movImm cond rd im =>
    if cond.passes s.flags then { s with regs := Function.update s.regs rd im } else s
  | b cond => { s with branched := cond.passes s.flags }

def run (code : List Insn) (s : State) : State := code.foldl Insn.step s

def tcgCondToArmCond : TCGCond → Cond
  | .eq => .eq
  | .ne => .ne
  | .lt => .lt
  | .ge => .ge
  | .le => .le
  | .gt => .gt
  | .ltu => .cc
  | .geu => .cs
  | .leu => .ls
  | .gtu => .hi

def tcgInvertCond : TCGCond → TCGCond
  | .eq => .ne
  | .ne => .eq
  | .lt => .ge
  | .ge => .lt
  | .le => .gt
  | .gt => .le
  | .ltu => .geu
  | .geu => .ltu
  | .leu => .gtu
  | .gtu => .leu

/-- `INDEX_op_brcond2_i32` of `tcg_out_op`. -/
def tcgOutBrcond2 (a0 a1 a2 a3 : Reg) (cond : TCGCond) : List Insn :=
  [.cmp .al a1 a3, .cmp .eq a0 a2, .b (tcgCondToArmCond cond)]

/-- `INDEX_op_setcond2_i32` of `tcg_out_op`. -/
def tcgOutSetcond2 (a0 a1 a2 a3 a4 : Reg) (cond : TCGCond) : List Insn :=
  [.cmp .al a2 a4, .cmp .eq a1 a3, .movImm (tcgCondToArmCond cond) a0 1,
    .movImm (tcgCondToArmCond (tcgInvertCond cond)) a0 0]

/-! ## Comparisons -/

/-- The comparison of two words of any width. -/
def Holds {w : Nat} (x y : BitVec w) : TCGCond → Bool
  | .eq => x == y
  | .ne => x != y
  | .lt => x.slt y
  | .ge => !x.slt y
  | .le => !y.slt x
  | .gt => y.slt x
  | .ltu => x.ult y
  | .geu => !x.ult y
  | .leu => !y.ult x
  | .gtu => y.ult x

/-- The signed orders. -/
def Signed : TCGCond → Bool
  | .lt | .ge | .le | .gt => true
  | _ => false

theorem lt_of_compare : ((x - y).msb != (x.msb != y.msb && x.msb != (x - y).msb)) = x.slt y := by
  refine Carry.sign_xor_overflow ?_ (by decide)
  rw [add_zero, ← toNat_add, sub_add_cancel]

theorem slt_swap : y.slt x = (x != y && !x.slt y) := by
  rw [Bool.eq_iff_iff]
  simp only [BitVec.slt, Bool.and_eq_true, bne_iff_ne, ne_eq, Bool.not_eq_true', decide_eq_true_iff,
    decide_eq_false_iff_not, ← toInt_inj]
  omega

theorem ult_swap : y.ult x = (x != y && !x.ult y) := by
  rw [Bool.eq_iff_iff]
  simp only [BitVec.ult, Bool.and_eq_true, bne_iff_ne, ne_eq, Bool.not_eq_true', decide_eq_true_iff,
    decide_eq_false_iff_not, ← toNat_inj]
  omega

theorem passes_compare (cond : TCGCond) (x y : BitVec 32) :
    (tcgCondToArmCond cond).passes (compare x y) = Holds x y cond := by
  have lt := lt_of_compare x y
  cases cond <;> simp only [tcgCondToArmCond, Cond.passes, compare, Holds, slt_swap x y,
    ult_swap x y, ule_eq_not_ult] <;> grind

theorem toNat_pair (a b : BitVec 32) : (a ++ b).toNat = a.toNat * 2 ^ 32 + b.toNat := by
  rw [toNat_append, ← Nat.shiftLeft_add_eq_or_of_lt b.isLt, Nat.shiftLeft_eq]

/-- Pairs are compared like numbers of two digits. -/
theorem ult_pair (a b c d : BitVec 32) :
    (a ++ b).ult (c ++ d) = if a = c then b.ult d else a.ult c := by
  rw [BitVec.ult, toNat_pair, toNat_pair]
  by_cases same : a = c
  · subst same
    rw [if_pos rfl, BitVec.ult, decide_eq_decide]
    omega
  · have differ : a.toNat ≠ c.toNat := mt eq_of_toNat_eq same
    rw [if_neg same, BitVec.ult, decide_eq_decide]
    omega

theorem slt_pair (a b c d : BitVec 32) :
    (a ++ b).slt (c ++ d) = if a = c then b.ult d else a.slt c := by
  rw [slt_eq_ult, slt_eq_ult, msb_append, msb_append, ult_pair]
  by_cases same : a = c
  · simp [same]
  · simp [same]

theorem eq_pair (a b c d : BitVec 32) : (a ++ b == c ++ d) = if a = c then b == d else false := by
  rw [Bool.eq_iff_iff, beq_iff_eq, ← toNat_inj, toNat_pair, toNat_pair]
  by_cases same : a = c
  · subst same
    rw [if_pos rfl, beq_iff_eq, ← toNat_inj]
    omega
  · have differ : a.toNat ≠ c.toNat := mt eq_of_toNat_eq same
    rw [if_neg same]
    exact iff_of_false (by omega) (by decide)

/-- The order of the low words where the high words are equal. -/
def unsigned : TCGCond → TCGCond
  | .lt => .ltu
  | .ge => .geu
  | .le => .leu
  | .gt => .gtu
  | cond => cond

theorem holds_pair (cond : TCGCond) (a b c d : BitVec 32) :
    Holds (a ++ b) (c ++ d) cond =
      if a = c then Holds b d (unsigned cond) else Holds a c cond := by
  cases cond <;> simp only [Holds, unsigned, ult_pair, slt_pair, eq_pair, bne, @eq_comm _ c a] <;>
    split <;> simp_all

/-- A signed order and its unsigned counterpart differ where the signs differ. -/
theorem holds_unsigned_iff (cond : TCGCond) (x y : BitVec 32) :
    Holds x y cond = Holds x y (unsigned cond) ↔ Signed cond = false ∨ x.msb = y.msb := by
  cases cond <;> simp only [Holds, Signed, unsigned, slt_eq_ult] <;>
    cases x.msb <;> cases y.msb <;> simp

/-! ## The emitted code -/

theorem passes_invert (cond : TCGCond) (f : Flags) :
    (tcgCondToArmCond (tcgInvertCond cond)).passes f = !(tcgCondToArmCond cond).passes f := by
  cases cond <;> simp [tcgInvertCond, tcgCondToArmCond, Cond.passes, bne]

section

variable (cond : TCGCond) (d a0 a1 b0 b1 : Reg) (s : State)

/-- What the two comparisons decide. -/
def decided : Bool :=
  if s.regs a1 = s.regs b1 then Holds (s.regs a0) (s.regs b0) cond
  else Holds (s.regs a1) (s.regs b1) cond

/-- The second comparison is made only if the first finds the high words equal. -/
theorem run_compare (rest : List Insn) :
    ∃ flags, run (.cmp .al a1 b1 :: .cmp .eq a0 b0 :: rest) s = run rest { s with flags } ∧
      (tcgCondToArmCond cond).passes flags = decided cond a0 a1 b0 b1 s := by
  rw [decided]
  by_cases same : s.regs a1 = s.regs b1
  · rw [if_pos same]
    exact ⟨_, by simp [run, Insn.step, Cond.passes, same], passes_compare cond _ _⟩
  · rw [if_neg same]
    exact ⟨_, by simp [run, Insn.step, Cond.passes, same], passes_compare cond _ _⟩

theorem run_brcond2 : (run (tcgOutBrcond2 a0 a1 b0 b1 cond) s).branched =
    decided cond a0 a1 b0 b1 s := by
  obtain ⟨flags, ran, passes⟩ := run_compare cond a0 a1 b0 b1 s [.b (tcgCondToArmCond cond)]
  rw [tcgOutBrcond2, ran]
  exact passes

theorem run_setcond2 : (run (tcgOutSetcond2 d a0 a1 b0 b1 cond) s).regs d =
    if decided cond a0 a1 b0 b1 s then 1 else 0 := by
  obtain ⟨flags, ran, passes⟩ := run_compare cond a0 a1 b0 b1 s
    [.movImm (tcgCondToArmCond cond) d 1, .movImm (tcgCondToArmCond (tcgInvertCond cond)) d 0]
  rw [tcgOutSetcond2, ran, ← passes]
  by_cases taken : (tcgCondToArmCond cond).passes flags = true
  · simp [run, Insn.step, passes_invert, taken]
  · simp [run, Insn.step, passes_invert, taken]

/-- The emitted code makes the comparison of the double words, unless a signed order is decided by
low words of different sign. -/
theorem double_word_iff :
    ((run (tcgOutBrcond2 a0 a1 b0 b1 cond) s).branched =
          Holds (s.regs a1 ++ s.regs a0) (s.regs b1 ++ s.regs b0) cond ∧
        (run (tcgOutSetcond2 d a0 a1 b0 b1 cond) s).regs d =
          if Holds (s.regs a1 ++ s.regs a0) (s.regs b1 ++ s.regs b0) cond then 1 else 0) ↔
      Signed cond = false ∨ s.regs a1 ≠ s.regs b1 ∨ (s.regs a0).msb = (s.regs b0).msb := by
  rw [run_brcond2, run_setcond2, holds_pair, decided]
  by_cases same : s.regs a1 = s.regs b1
  · simp only [not_true, false_or, ne_eq, same]
    rw [← holds_unsigned_iff]
    exact ⟨And.left, fun equal => ⟨equal, by rw [equal]⟩⟩
  · simp [same]

end

/-- `0x80000000 < 1` as signed double words. -/
theorem positive_below_one :
    (run (tcgOutBrcond2 0 1 2 3 .lt)
      ⟨fun r => [0x80000000, 0, 1, 0].getD r 0, ⟨false, false, false, false⟩, false⟩).branched =
        true ∧
      Holds (0x80000000 : BitVec 64) 1 .lt = false := by
  decide

end Qemu.Tcg.Arm
