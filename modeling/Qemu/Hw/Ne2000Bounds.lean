import Qemu.Hw.Ne2000

/-!
# Bounds of the NE2000 memory accesses

An access of the card to its memory is safe if it comes to an end and stays below
`NE2000_MEM_SIZE`.  The copy loop of `ne2000_receive` advances only while its index is at most
`stop`, and wraps only when it hits `stop` exactly; the accessors check the first byte they touch.
-/

namespace Qemu.Hw

open Prog List Nat Ne2000Op

variable {s : Ne2000State} {buf : List (BitVec 8)} {after : Ne2000State} {index : Nat} {fuel : Nat}

/-- The operation comes back, and all the memory it touches is the card's. -/
def Ne2000Op.Safe (op : Ne2000Op) (s : Ne2000State) : Prop :=
  ∃ fuel after, op.run fuel { s with touched := [] } = (.ok (), after) ∧
    ∀ i ∈ after.touched, i < ne2000MemSize

/-! ## Straight accesses -/

theorem ne2000StoreAll_run (index : Nat) (values : List (BitVec 8)) (s : Ne2000State) :
    ∃ mem, ne2000StoreAll index values s =
      (.ok (), { s with mem := mem, touched := s.touched ++ range' index values.length }) := by
  induction values generalizing index s with
  | nil => exact ⟨s.mem, by simp [ne2000StoreAll]⟩
  | cons value rest ih =>
    obtain ⟨mem, run⟩ := ih (index + 1) { s with
      mem := Function.update s.mem index value, touched := s.touched ++ [index] }
    rw [ne2000StoreAll, ne2000Store, modify_bind, run]
    simp [range'_succ]

theorem ne2000LoadAll_run (index count : Nat) (s : Ne2000State) :
    ∃ values, ne2000LoadAll index count s =
      (.ok values, { s with touched := s.touched ++ range' index count }) := by
  induction count generalizing index s with
  | zero => exact ⟨[], by simp [ne2000LoadAll]⟩
  | succ count ih =>
    obtain ⟨values, run⟩ := ih (index + 1) { s with touched := s.touched ++ [index] }
    rw [ne2000LoadAll, bind_apply, ne2000Load]
    simp only
    rw [bind_of_ok run]
    simp [range'_succ]

theorem ne2000Match_run (bytes : List (Nat × BitVec 8)) (s : Ne2000State) :
    ∃ read, ne2000Match bytes s = (.ok (bytes.all fun byte => s.mem byte.1 = byte.2),
        { s with touched := s.touched ++ read }) ∧ ∀ i ∈ read, i ∈ bytes.map Prod.fst := by
  induction bytes generalizing s with
  | nil => exact ⟨[], by simp [ne2000Match], by simp⟩
  | cons byte rest ih =>
    obtain ⟨read, run, inside⟩ := ih { s with touched := s.touched ++ [byte.1] }
    rw [ne2000Match, bind_apply, ne2000Load]
    simp only
    split
    · next same =>
      refine ⟨byte.1 :: read, ?_, ?_⟩
      · rw [run]
        simp [same]
      · intro i member
        rcases mem_cons.mp member with rfl | member
        · exact mem_cons_self
        · exact mem_cons_of_mem _ (inside i member)
    · next differs => exact ⟨[byte.1], by simp [differs], by simp⟩

/-- What the address filter says about a packet. -/
def ne2000Wanted (s : Ne2000State) (buf : List (BitVec 8)) : Bool :=
  if hasBits s.rxcr 0x10 then true
  else if ∀ i < 6, buf.getD i 0 = 0xff then hasBits s.rxcr 0x04
  else if hasBits (buf.getD 0 0) 0x01 then
    if hasBits s.rxcr 0x08 then
      (s.mult (computeMcastIdx buf / 8)).getLsbD (computeMcastIdx buf % 8)
    else false
  else (List.range 6).all fun i => s.mem (2 * i) = buf.getD i 0

/-- The address filter comes back and looks at the station address only. -/
theorem ne2000Wants_run (buf : List (BitVec 8)) (s : Ne2000State) :
    ∃ read, ne2000Wants buf s =
        (.ok (ne2000Wanted s buf), { s with touched := s.touched ++ read }) ∧
      ∀ i ∈ read, i < 32 := by
  have quiet : ∀ wanted, ∃ read,
      (pure wanted : Ne2000Prog Bool) s = (.ok wanted, { s with touched := s.touched ++ read }) ∧
        ∀ i ∈ read, i < 32 := fun wanted => ⟨[], by simp, by simp⟩
  rw [ne2000Wants, get_bind, ne2000Wanted]
  split_ifs
  · exact quiet _
  · exact quiet _
  · exact quiet _
  · exact quiet _
  · obtain ⟨read, run, inside⟩ :=
      ne2000Match_run ((range 6).map fun i => (2 * i, buf.getD i 0)) s
    refine ⟨read, run.trans (by rfl), fun i member => ?_⟩
    have listed := inside i member
    simp only [map_map, mem_map, mem_range, Function.comp] at listed
    omega

/-! ## The copy loop -/

theorem ne2000Copy_stuck (behind : s.stop < index) (left : buf ≠ []) (fuel : Nat) :
    (ne2000Copy fuel buf index s).1 = .hang := by
  induction fuel with
  | zero => rfl
  | succ fuel ih =>
    rw [ne2000Copy, if_neg left, get_bind, if_neg (by omega)]
    simpa [ne2000StoreAll, bind_apply, Nat.ne_of_gt behind] using ih

/-- At the end of a ring that has no pages it makes no progress either. -/
theorem ne2000Copy_stuck_ring (noRing : s.stop ≤ s.start) (left : buf ≠ []) (fuel : Nat) :
    (ne2000Copy fuel buf s.start s).1 = .hang := by
  by_cases behind : s.stop < s.start
  · exact ne2000Copy_stuck behind left fuel
  · have atStop : s.start = s.stop := by omega
    induction fuel with
    | zero => rfl
    | succ fuel ih =>
      rw [ne2000Copy, if_neg left, get_bind]
      simpa [ne2000StoreAll, bind_apply, atStop] using atStop ▸ ih

theorem ne2000Copy_round (ahead : index ≤ s.stop) (left : buf ≠ []) :
    ∃ mem, ∀ fuel, ne2000Copy (fuel + 1) buf index s =
      ne2000Copy fuel (buf.drop (s.stop - index))
        (if s.stop ≤ index + buf.length then s.start else index + buf.length)
        { s with
          mem := mem
          touched := s.touched ++ range' index (min buf.length (s.stop - index)) } := by
  obtain ⟨mem, run⟩ := ne2000StoreAll_run index (buf.take (min buf.length (s.stop - index))) s
  refine ⟨mem, fun fuel => ?_⟩
  rw [ne2000Copy, if_neg left, get_bind, if_pos ahead, bind_of_ok run]
  rw [length_take, Nat.min_eq_left (Nat.min_le_left ..)]
  by_cases wraps : s.stop ≤ index + buf.length
  · rw [Nat.min_eq_right (by omega), if_pos (by omega), if_pos wraps]
  · rw [Nat.min_eq_left (by omega), if_neg (by omega), if_neg wraps, drop_length,
      drop_of_length_le (by omega)]

/-- A packet that fits before `stop` is copied in one round. -/
theorem ne2000Copy_fits (fits : index + buf.length ≤ s.stop) :
    ∃ mem, ∀ fuel, ne2000Copy (fuel + 2) buf index s =
      (.ok (), { s with
        mem := mem, touched := s.touched ++ range' index buf.length }) := by
  by_cases left : buf = []
  · subst left
    exact ⟨s.mem, fun fuel => by simp [ne2000Copy]⟩
  · have ahead : index ≤ s.stop := by omega
    obtain ⟨mem, round⟩ := ne2000Copy_round ahead left
    refine ⟨mem, fun fuel => ?_⟩
    rw [round, drop_of_length_le (by omega), Nat.min_eq_left (by omega), ne2000Copy,
      if_pos rfl]
    rfl

/-- In a ring with pages the copy loop ends, and touches nothing from `stop` on. -/
theorem ne2000Copy_ring (ring : s.start < s.stop) (ahead : index ≤ s.stop) :
    ∃ mem written fuel, ne2000Copy fuel buf index s =
        (.ok (), { s with mem := mem, touched := s.touched ++ written }) ∧
      ∀ i ∈ written, i < s.stop := by
  obtain ⟨size, isSize⟩ : ∃ size, 2 * buf.length + (if index = s.stop then 1 else 0) = size :=
    ⟨_, rfl⟩
  induction size using Nat.strongRecOn generalizing buf index s with
  | _ size ih =>
    by_cases left : buf = []
    · subst left
      exact ⟨s.mem, [], 1, by simp [ne2000Copy], by simp⟩
    · have some_left := length_pos_iff.mpr left
      obtain ⟨mem, round⟩ := ne2000Copy_round ahead left
      have aheadAfter : (if s.stop ≤ index + buf.length then s.start else index + buf.length) ≤
          s.stop := by split <;> omega
      have shorter : 2 * (buf.drop (s.stop - index)).length + (if (if s.stop ≤ index + buf.length
          then s.start else index + buf.length) = s.stop then 1 else 0) < size := by
        rw [length_drop, ← isSize]
        split_ifs <;> omega
      obtain ⟨mem', written, fuel, run, below⟩ := ih _ shorter (s := { s with
        mem := mem
        touched := s.touched ++ range' index (min buf.length (s.stop - index)) })
        ring aheadAfter rfl
      refine ⟨mem', range' index (min buf.length (s.stop - index)) ++ written, fuel + 1, ?_, ?_⟩
      · rw [round, run]
        simp
      · intro i member
        rcases mem_append.mp member with first | later
        · have := mem_range'_1.mp first
          omega
        · exact below i later

theorem ne2000Copy_effect {index fuel : Nat} (run : ne2000Copy fuel buf index s = (.ok (), after)) :
    ∃ mem written, after = { s with mem := mem, touched := s.touched ++ written } := by
  induction fuel generalizing buf index s with
  | zero => cases run
  | succ fuel ih =>
    rw [ne2000Copy] at run
    split at run
    · obtain rfl : s = after := by simpa using run
      exact ⟨s.mem, [], by simp⟩
    · rw [get_bind] at run
      obtain ⟨mem, stored⟩ := ne2000StoreAll_run index
        (buf.take (min buf.length (if index ≤ s.stop then s.stop - index else 0))) s
      rw [bind_of_ok stored] at run
      obtain ⟨mem', written, rfl⟩ := ih run
      exact ⟨mem', _, by simp; rfl⟩

/-- The copy of a packet to `index` ends inside the card's memory, whatever the card has touched
before. -/
def CopySafe (s : Ne2000State) (buf : List (BitVec 8)) (index : Nat) : Prop :=
  ∃ mem written fuel, ne2000Copy fuel buf index s =
      (.ok (), { s with mem := mem, touched := s.touched ++ written }) ∧
    ∀ i ∈ written, i < ne2000MemSize

theorem copySafe_iff (left : buf ≠ []) (notAtStop : index ≠ s.stop) :
    CopySafe s buf index ↔ index < s.stop ∧ min (index + buf.length) s.stop ≤ ne2000MemSize ∧
      (index + buf.length ≤ s.stop ∨ s.start < s.stop) := by
  have some_left := length_pos_iff.mpr left
  constructor
  · rintro ⟨mem, written, fuel, run, below⟩
    have ahead : index < s.stop := by
      by_contra behind
      have past : s.stop < index := by omega
      have hangs := ne2000Copy_stuck past left fuel
      rw [run] at hangs
      cases hangs
    obtain ⟨mem', round⟩ := ne2000Copy_round (Nat.le_of_lt ahead) left
    obtain ⟨fuel, rfl⟩ : ∃ less, fuel = less + 1 := by
      match fuel, run with
      | less + 1, _ => exact ⟨less, rfl⟩
    rw [round] at run
    obtain ⟨mem'', more, effect⟩ := ne2000Copy_effect run
    have same := congrArg Ne2000State.touched effect
    simp only [append_assoc] at same
    obtain rfl := append_cancel_left same
    have last := below (index + min buf.length (s.stop - index) - 1)
      (mem_append_left _ (mem_range'_1.mpr (by omega)))
    refine ⟨ahead, by omega, or_iff_not_imp_left.mpr fun long => ?_⟩
    by_contra noRing
    have rest : buf.drop (s.stop - index) ≠ [] := by
      rw [ne_eq, drop_eq_nil_iff]
      omega
    rw [if_pos (by omega)] at run
    have hangs := ne2000Copy_stuck_ring (s := { s with
      mem := mem', touched := s.touched ++ range' index (min buf.length (s.stop - index)) })
      (Nat.le_of_not_lt noRing) rest fuel
    rw [run] at hangs
    cases hangs
  · rintro ⟨ahead, below, ring⟩
    by_cases fits : index + buf.length ≤ s.stop
    · obtain ⟨mem, run⟩ := ne2000Copy_fits fits
      refine ⟨mem, _, 2, run 0, fun i member => ?_⟩
      have := mem_range'_1.mp member
      omega
    · obtain ⟨mem, written, fuel, run, inside⟩ :
          ∃ mem written fuel, ne2000Copy fuel buf index s =
            (.ok (), { s with mem := mem, touched := s.touched ++ written }) ∧
          ∀ i ∈ written, i < s.stop :=
        ne2000Copy_ring (ring.resolve_left fits) (Nat.le_of_lt ahead)
      exact ⟨mem, written, fuel, run, fun i member => by have := inside i member; omega⟩

/-! ## Reception -/

/-- The packet passes the stop bit, the check for room in the ring, and the address filter. -/
def Ne2000Accepts (s : Ne2000State) (buf : List (BitVec 8)) : Prop :=
  hasBits s.cmd 0x01 = false ∧ ne2000BufferFull s = false ∧ ne2000Wanted s buf = true

/-- The packet's place, from the current page on with a header of four bytes, starts before `stop`,
does not leave the memory before `stop`, and ends before `stop` unless there is a ring to go on
in. -/
def Ne2000Fits (s : Ne2000State) (buf : List (BitVec 8)) : Prop :=
  let index := s.curpag.toNat * 256
  let last := index + 4 + max buf.length 60
  index < s.stop ∧ min last s.stop ≤ ne2000MemSize ∧ (last ≤ s.stop ∨ s.start < s.stop)

/-- The values that port writes leave in the ring registers. -/
structure Ne2000Registers (s : Ne2000State) : Prop where
  start : s.start % 256 = 0
  stop : s.stop % 256 = 0

theorem ne2000Pad_length (buf : List (BitVec 8)) : (ne2000Pad buf).length = max buf.length 60 := by
  rw [ne2000Pad, length_append, length_replicate]
  omega

theorem ne2000Enter_run (buf : List (BitVec 8)) (s : Ne2000State) :
    ∃ mem, ∀ fuel, ne2000Enter fuel buf s =
      (do
        ne2000Copy fuel buf (s.curpag.toNat * 256 + 4)
        modify fun after => ne2000UpdateIrq { after with
          curpag := BitVec.ofNat 8 (ne2000Next s (buf.length + 4) / 256)
          isr := after.isr ||| 0x01 })
      { s with
        rsr := ne2000Rsr buf
        mem := mem
        touched := s.touched ++ range' (s.curpag.toNat * 256) 4 } := by
  obtain ⟨mem, run⟩ := ne2000StoreAll_run (s.curpag.toNat * 256)
    [ne2000Rsr buf, BitVec.ofNat 8 (ne2000Next s (buf.length + 4) / 256),
      BitVec.ofNat 8 (buf.length + 4), BitVec.ofNat 8 ((buf.length + 4) / 256)]
    { s with rsr := ne2000Rsr buf }
  refine ⟨mem, fun fuel => ?_⟩
  rw [ne2000Enter, get_bind, modify_bind, bind_of_ok run]
  rfl

theorem ne2000Enter_effect (run : ne2000Enter fuel buf s = (.ok (), after)) :
    (∃ written, after.touched = s.touched ++ written) ∧ after.start = s.start ∧
      after.stop = s.stop := by
  obtain ⟨mem, enter⟩ := ne2000Enter_run buf s
  rw [enter] at run
  obtain ⟨⟨⟩, middle, copy, finish⟩ := bind_eq_ok.mp run
  obtain ⟨mem', more, rfl⟩ := ne2000Copy_effect copy
  obtain rfl := (Prod.mk.inj finish).2
  exact ⟨⟨_, by simp [ne2000UpdateIrq]; rfl⟩, rfl, rfl⟩

theorem ne2000Enter_safe_iff (registers : Ne2000Registers s) (buf : List (BitVec 8)) :
    (∃ fuel after written, ne2000Enter fuel (ne2000Pad buf) s = (.ok (), after) ∧
      after.touched = s.touched ++ written ∧ ∀ i ∈ written, i < ne2000MemSize) ↔
      Ne2000Fits s buf := by
  obtain ⟨mem, enter⟩ := ne2000Enter_run (ne2000Pad buf) s
  have padded := ne2000Pad_length buf
  have left : ne2000Pad buf ≠ [] := length_pos_iff.mp (by omega)
  have aligned := registers.stop
  have notAtStop : s.curpag.toNat * 256 + 4 ≠ s.stop := by omega
  have beyondHeader : s.curpag.toNat * 256 < s.stop → s.curpag.toNat * 256 + 4 < s.stop := by omega
  have copied := copySafe_iff (s := { s with
    rsr := ne2000Rsr (ne2000Pad buf)
    mem := mem
    touched := s.touched ++ range' (s.curpag.toNat * 256) 4 }) left notAtStop
  rw [padded] at copied
  dsimp only at copied
  unfold Ne2000Fits
  constructor
  · rintro ⟨fuel, after, written, run, appended, below⟩
    rw [enter] at run
    obtain ⟨⟨⟩, middle, copy, finish⟩ := bind_eq_ok.mp run
    obtain ⟨mem', more, rfl⟩ := ne2000Copy_effect copy
    obtain rfl := (Prod.mk.inj finish).2
    simp only [ne2000UpdateIrq, append_assoc] at appended
    obtain rfl := append_cancel_left appended
    obtain ⟨ahead, high, ring⟩ := copied.mp ⟨mem', more, fuel, copy, fun i member =>
      below i (mem_append_right _ member)⟩
    omega
  · rintro ⟨ahead, below, ring⟩
    obtain ⟨mem', more, fuel, copy, inside⟩ := copied.mpr ⟨beyondHeader ahead, below, ring⟩
    have entered := (enter fuel).trans ((bind_of_ok copy).trans (modify_apply ..))
    refine ⟨fuel, _, range' (s.curpag.toNat * 256) 4 ++ more, entered, ?_, ?_⟩
    · simp [ne2000UpdateIrq]
    · intro i member
      rcases mem_append.mp member with header | data
      · have := mem_range'_1.mp header
        omega
      · exact inside i data

/-- A packet that is accepted is stored, after the address filter has run. -/
theorem ne2000Receive_accepts (accepts : Ne2000Accepts s buf) :
    ∃ read, (∀ i ∈ read, i < 32) ∧ ∀ fuel, ne2000Receive fuel buf s =
      (do
        ne2000Enter fuel (ne2000Pad buf)
        pure (buf.length : Int)) { s with touched := s.touched ++ read } := by
  obtain ⟨running, room, wanted⟩ := accepts
  obtain ⟨read, wants, early⟩ := ne2000Wants_run buf s
  refine ⟨read, early, fun fuel => ?_⟩
  have notRefused : ¬ (hasBits s.cmd 0x01 ∨ ne2000BufferFull s) := by
    rw [running, room]
    decide
  rw [ne2000Receive, get_bind, if_neg notRefused, bind_of_ok wants, if_pos wanted]

theorem ne2000Receive_rejects (rejects : ¬ Ne2000Accepts s buf) :
    ∃ read result, (∀ i ∈ read, i < 32) ∧ ∀ fuel, ne2000Receive fuel buf s =
      (.ok result, { s with touched := s.touched ++ read }) := by
  by_cases refused : hasBits s.cmd 0x01 ∨ ne2000BufferFull s
  · refine ⟨[], -1, by simp, fun fuel => ?_⟩
    rw [ne2000Receive, get_bind, if_pos refused]
    simp
  · obtain ⟨read, wants, early⟩ := ne2000Wants_run buf s
    refine ⟨read, buf.length, early, fun fuel => ?_⟩
    have unwanted : ¬ ne2000Wanted s buf = true := by
      intro wanted
      rw [not_or, Bool.not_eq_true, Bool.not_eq_true] at refused
      exact rejects ⟨refused.1, refused.2, wanted⟩
    rw [ne2000Receive, get_bind, if_neg refused, bind_of_ok wants, if_neg unwanted]
    rfl

theorem ne2000Receive_stuck (accepts : Ne2000Accepts s buf) (behind : s.stop ≤ s.curpag.toNat * 256)
    (fuel : Nat) : ((receive buf).run fuel s).1 = .hang := by
  obtain ⟨read, -, receive⟩ := ne2000Receive_accepts accepts
  obtain ⟨mem, enter⟩ := ne2000Enter_run (ne2000Pad buf) { s with touched := s.touched ++ read }
  have left : ne2000Pad buf ≠ [] := by
    have padded := ne2000Pad_length buf
    exact length_pos_iff.mp (by omega)
  have past : s.stop < s.curpag.toNat * 256 + 4 := by omega
  have stuck := ne2000Copy_stuck (s := { s with
    rsr := ne2000Rsr (ne2000Pad buf)
    mem := mem
    touched := s.touched ++ read ++ range' (s.curpag.toNat * 256) 4 }) past left fuel
  exact bind_of_hang (by
    rw [receive]
    exact bind_of_hang (by rw [enter]; exact bind_of_hang stuck))

/-- Reception is safe exactly when the packet is refused or fits. -/
theorem ne2000Receive_safe_iff (registers : Ne2000Registers s) (buf : List (BitVec 8)) :
    (receive buf).Safe s ↔ (Ne2000Accepts s buf → Ne2000Fits s buf) := by
  by_cases accepts : Ne2000Accepts s buf
  · obtain ⟨read, early, receive⟩ := ne2000Receive_accepts (s := { s with touched := [] }) accepts
    have stored : _ ↔ Ne2000Fits s buf := ne2000Enter_safe_iff
      (s := { s with touched := [] ++ read }) ⟨registers.start, registers.stop⟩ buf
    rw [imp_iff_right accepts, ← stored]
    constructor
    · rintro ⟨fuel, after, run, below⟩
      obtain ⟨result, middle, received, finish⟩ := bind_eq_ok.mp run
      rw [receive] at received
      obtain ⟨⟨⟩, last, entered, returned⟩ := bind_eq_ok.mp received
      obtain rfl := (Prod.mk.inj returned).2
      obtain rfl := (Prod.mk.inj finish).2
      obtain ⟨written, appended⟩ := (ne2000Enter_effect entered).1
      exact ⟨fuel, last, written, entered, appended, fun i member =>
        below i (appended ▸ mem_append_right _ member)⟩
    · rintro ⟨fuel, after, written, entered, appended, below⟩
      refine ⟨fuel, after, ?_, ?_⟩
      · exact bind_of_ok ((receive fuel).trans (bind_of_ok entered))
      · intro i member
        rw [appended, mem_append] at member
        rcases member with filtered | data
        · exact Nat.lt_trans (early i filtered) (by decide)
        · exact below i data
  · obtain ⟨read, result, early, receive⟩ :=
      ne2000Receive_rejects (s := { s with touched := [] }) accepts
    refine iff_of_true ⟨0, { s with touched := [] ++ read }, bind_of_ok (receive 0), ?_⟩
      fun contrary => absurd contrary accepts
    intro i member
    exact Nat.lt_trans (early i member) (by decide)

/-! ## The data port -/

/-- The bytes that an accessor of a width touches. -/
def ne2000Span (width addr : Nat) : List Nat :=
  let first := if width = 1 then addr else addr - addr % 2
  if ne2000Admits first then List.range' first width else []

theorem ne2000MemWrite_run (width addr : Nat) (val : BitVec 32) (s : Ne2000State) :
    ∃ mem, ne2000MemWrite width addr val s =
      (.ok (), { s with mem := mem, touched := s.touched ++ ne2000Span width addr }) := by
  unfold ne2000MemWrite ne2000Span
  generalize (if width = 1 then addr else addr - addr % 2) = first
  by_cases admitted : ne2000Admits first = true
  · rw [if_pos admitted, if_pos admitted]
    obtain ⟨mem, run⟩ := ne2000StoreAll_run first
      ((range width).map fun i => (val >>> (8 * i)).setWidth 8) s
    exact ⟨mem, by simpa using run⟩
  · rw [if_neg admitted, if_neg admitted]
    exact ⟨s.mem, by simp⟩

theorem ne2000MemRead_run (width addr : Nat) (s : Ne2000State) :
    ∃ values, ne2000MemRead width addr s =
      (.ok values, { s with touched := s.touched ++ ne2000Span width addr }) := by
  unfold ne2000MemRead ne2000Span
  generalize (if width = 1 then addr else addr - addr % 2) = first
  by_cases admitted : ne2000Admits first = true
  · rw [if_pos admitted, if_pos admitted]
    exact ne2000LoadAll_run first width s
  · rw [if_neg admitted, if_neg admitted]
    exact ⟨replicate width 0xff, by simp⟩

theorem ne2000Span_below {width addr : Nat} (narrow : width = 1 ∨ width = 2) :
    ∀ i ∈ ne2000Span width addr, i < ne2000MemSize := by
  intro i member
  unfold ne2000Span at member
  generalize isFirst : (if width = 1 then addr else addr - addr % 2) = first at member
  by_cases admitted : ne2000Admits first = true
  · rw [if_pos admitted] at member
    have span := mem_range'_1.mp member
    have inside := of_decide_eq_true admitted
    unfold ne2000PmemStart ne2000MemSize at inside
    unfold ne2000MemSize
    split_ifs at isFirst <;> omega
  · rw [if_neg admitted] at member
    cases member

/-- The accessors for four bytes leave it at the last even address. -/
theorem ne2000Span_below_iff (addr : Nat) :
    (∀ i ∈ ne2000Span 4 addr, i < ne2000MemSize) ↔ addr - addr % 2 ≠ ne2000MemSize - 2 := by
  unfold ne2000Span ne2000Admits ne2000PmemStart ne2000MemSize
  simp only [reduceEqDiff, if_false, decide_eq_true_eq]
  constructor
  · intro below atEnd
    rw [if_pos (by omega)] at below
    have := below (addr - addr % 2 + 2) (mem_range'_1.mpr (by omega))
    omega
  · intro notAtEnd i member
    split at member
    · have := mem_range'_1.mp member
      omega
    · cases member

theorem ne2000Width_narrow (s : Ne2000State) : ne2000Width s = 1 ∨ ne2000Width s = 2 := by
  unfold ne2000Width
  split
  · exact Or.inr rfl
  · exact Or.inl rfl

@[simp] theorem ne2000DmaUpdate_touched (len : Nat) (s : Ne2000State) :
    (ne2000DmaUpdate len s).touched = s.touched := by
  unfold ne2000DmaUpdate
  dsimp only
  split <;> rfl

variable (width : Ne2000State → Nat)

theorem ne2000AsicWrite_run (val : BitVec 32) (s : Ne2000State) :
    ∃ mem, ne2000AsicWrite width val s = (.ok (), if s.rcnt = 0 then s else
      ne2000DmaUpdate (width s)
        { s with mem := mem, touched := s.touched ++ ne2000Span (width s) s.rsar }) := by
  obtain ⟨mem, written⟩ := ne2000MemWrite_run (width s) s.rsar val s
  refine ⟨mem, ?_⟩
  rw [ne2000AsicWrite, get_bind]
  split
  · rfl
  · rw [bind_of_ok written]
    rfl

theorem ne2000AsicRead_run (s : Ne2000State) :
    ∃ values, ne2000AsicRead width s = (.ok values, ne2000DmaUpdate (width s)
      { s with touched := s.touched ++ ne2000Span (width s) s.rsar }) := by
  obtain ⟨values, read⟩ := ne2000MemRead_run (width s) s.rsar s
  refine ⟨values, ?_⟩
  rw [ne2000AsicRead, get_bind, bind_of_ok read]
  rfl

/-! ## The whole card -/

/-- What an operation needs of the state it starts from. -/
def Ne2000Op.Bounded (s : Ne2000State) : Ne2000Op → Prop
  | .asicWritel _ => s.rcnt = 0 ∨ s.rsar - s.rsar % 2 ≠ ne2000MemSize - 2
  | .asicReadl => s.rsar - s.rsar % 2 ≠ ne2000MemSize - 2
  | .receive buf => Ne2000Accepts s buf → Ne2000Fits s buf
  | _ => True

/-- The card as it is after power on. -/
def ne2000Power (macaddr : Nat → BitVec 8) : Ne2000State :=
  ne2000Reset {
    cmd := 0, start := 0, stop := 0, boundary := 0, tsr := 0, tpsr := 0, tcnt := 0, rcnt := 0
    rsar := 0, rsr := 0, rxcr := 0, isr := 0, dcfg := 0, imr := 0, phys := fun _ => 0, curpag := 0
    mult := fun _ => 0, macaddr := macaddr, irq := false, mem := fun _ => 0, sent := [], touched := [] }

inductive Ne2000Reachable : Ne2000State → Prop
  | power (macaddr : Nat → BitVec 8) : Ne2000Reachable (ne2000Power macaddr)
  | step {s after : Ne2000State} {fuel : Nat} (op : Ne2000Op) (reachable : Ne2000Reachable s)
      (run : op.run fuel s = (.ok (), after)) : Ne2000Reachable after

section

variable (registers : Ne2000Registers s)

include registers

theorem Ne2000Registers.ioportWrite (addr : Nat) (val : BitVec 8) :
    Ne2000Registers (ne2000IoportWrite addr val s) := by
  obtain ⟨start, stop⟩ := registers
  unfold ne2000IoportWrite
  split
  · unfold ne2000Command ne2000Transmit
    dsimp only
    split_ifs <;> exact ⟨start, stop⟩
  · split
    case h_1 => exact ⟨mul_mod_left .., stop⟩
    case h_2 => exact ⟨start, mul_mod_left ..⟩
    case h_16 => split_ifs <;> exact ⟨start, stop⟩
    all_goals exact ⟨start, stop⟩

theorem Ne2000Registers.dmaUpdate (len : Nat) : Ne2000Registers (ne2000DmaUpdate len s) := by
  unfold ne2000DmaUpdate
  dsimp only
  split <;> exact ⟨registers.start, registers.stop⟩

theorem Ne2000Registers.receive {result : Int}
    (run : ne2000Receive fuel buf s = (.ok result, after)) : Ne2000Registers after := by
  by_cases accepts : Ne2000Accepts s buf
  · obtain ⟨read, -, receive⟩ := ne2000Receive_accepts accepts
    rw [receive] at run
    obtain ⟨⟨⟩, middle, entered, finish⟩ := bind_eq_ok.mp run
    obtain rfl := (Prod.mk.inj finish).2
    obtain ⟨-, start, stop⟩ := ne2000Enter_effect entered
    exact ⟨start ▸ registers.start, stop ▸ registers.stop⟩
  · obtain ⟨read, value, -, receive⟩ := ne2000Receive_rejects accepts
    rw [receive] at run
    obtain rfl := (Prod.mk.inj run).2
    exact ⟨registers.start, registers.stop⟩

/-- Every operation that comes back keeps the shape of the ring registers. -/
theorem Ne2000Registers.step {op : Ne2000Op} (run : op.run fuel s = (.ok (), after)) :
    Ne2000Registers after := by
  have written : ∀ width val, ne2000AsicWrite width val s = (.ok (), after) →
      Ne2000Registers after := by
    intro width val run
    obtain ⟨mem, asic⟩ := ne2000AsicWrite_run width val s
    obtain rfl := (Prod.mk.inj (asic.symm.trans run)).2
    split
    · exact registers
    · exact dmaUpdate (s := { s with
        mem := mem, touched := s.touched ++ ne2000Span (width s) s.rsar })
        ⟨registers.start, registers.stop⟩ _
  have read : ∀ width middle values, ne2000AsicRead width s = (.ok values, middle) →
      Ne2000Registers middle := by
    intro width middle values run
    obtain ⟨values', asic⟩ := ne2000AsicRead_run width s
    obtain rfl := (Prod.mk.inj (asic.symm.trans run)).2
    exact dmaUpdate (s := { s with
      touched := s.touched ++ ne2000Span (width s) s.rsar }) ⟨registers.start, registers.stop⟩ _
  cases op with
  | ioportWrite addr val =>
    obtain rfl := (Prod.mk.inj run).2
    exact registers.ioportWrite addr val
  | asicWrite val | asicWritel val => exact written _ _ run
  | asicRead | asicReadl =>
    obtain ⟨values, middle, accessed, finish⟩ := bind_eq_ok.mp run
    obtain rfl := (Prod.mk.inj finish).2
    exact read _ _ _ accessed
  | reset =>
    obtain rfl := (Prod.mk.inj run).2
    exact ⟨registers.start, registers.stop⟩
  | receive buf =>
    obtain ⟨result, middle, received, finish⟩ := bind_eq_ok.mp run
    obtain rfl := (Prod.mk.inj finish).2
    exact registers.receive received

end

theorem Ne2000Reachable.registers (reachable : Ne2000Reachable s) : Ne2000Registers s := by
  induction reachable with
  | power macaddr => exact ⟨rfl, rfl⟩
  | step op _ run ih => exact ih.step run

@[simp] theorem ne2000IoportWrite_touched (addr : Nat) (val : BitVec 8) (s : Ne2000State) :
    (ne2000IoportWrite addr val s).touched = s.touched := by
  unfold ne2000IoportWrite
  split
  · unfold ne2000Command ne2000Transmit
    dsimp only
    split_ifs <;> rfl
  · split
    case h_16 => split_ifs <;> rfl
    all_goals rfl

/-- The data port is safe to write exactly when no transfer is on or the bytes of the access are in
the memory. -/
theorem ne2000AsicWrite_safe_iff (val : BitVec 32) :
    (∃ _ : Nat, ∃ after, ne2000AsicWrite width val { s with touched := [] } = (.ok (), after) ∧
      ∀ i ∈ after.touched, i < ne2000MemSize) ↔
      s.rcnt = 0 ∨ ∀ i ∈ ne2000Span (width { s with touched := [] }) s.rsar, i < ne2000MemSize := by
  obtain ⟨mem, asic⟩ := ne2000AsicWrite_run width val { s with touched := [] }
  rw [asic]
  by_cases idle : s.rcnt = 0
  · simp [idle]
  · simp [idle]

theorem ne2000AsicRead_safe_iff :
    (∃ _ : Nat, ∃ after, (do let _ ← ne2000AsicRead width; pure ()) { s with touched := [] } =
        ((.ok (), after) : Outcome Empty Unit × _) ∧
      ∀ i ∈ after.touched, i < ne2000MemSize) ↔
      ∀ i ∈ ne2000Span (width { s with touched := [] }) s.rsar, i < ne2000MemSize := by
  obtain ⟨values, asic⟩ := ne2000AsicRead_run width { s with touched := [] }
  rw [bind_of_ok asic]
  simp

/-- Port writes, one after the other. -/
def ne2000IoportWrites (writes : List (Nat × BitVec 8)) (s : Ne2000State) : Ne2000State :=
  writes.foldl (fun s write => ne2000IoportWrite write.1 write.2 s) s

theorem Ne2000Reachable.ioportWrites (reachable : Ne2000Reachable s)
    (writes : List (Nat × BitVec 8)) : Ne2000Reachable (ne2000IoportWrites writes s) := by
  induction writes generalizing s with
  | nil => exact reachable
  | cons write rest ih =>
    have written : (ioportWrite write.1 write.2).run 0 s =
        (.ok (), ne2000IoportWrite write.1 write.2 s) := rfl
    exact ih (.step _ reachable written)

/-- In every state that can be reached, an operation comes back and stays in the card's memory
exactly under its condition. -/
theorem ne2000_safe_iff (reachable : Ne2000Reachable s) (op : Ne2000Op) :
    op.Safe s ↔ op.Bounded s := by
  cases op with
  | ioportWrite addr val => exact iff_of_true ⟨0, _, rfl, by simp⟩ trivial
  | asicWrite val =>
    exact iff_of_true ((ne2000AsicWrite_safe_iff ne2000Width val).mpr
      (Or.inr (ne2000Span_below (ne2000Width_narrow _)))) trivial
  | asicRead =>
    exact iff_of_true ((ne2000AsicRead_safe_iff ne2000Width).mpr
      (ne2000Span_below (ne2000Width_narrow _))) trivial
  | asicWritel val =>
    exact (ne2000AsicWrite_safe_iff (fun _ => 4) val).trans
      (or_congr_right (ne2000Span_below_iff s.rsar))
  | asicReadl => exact (ne2000AsicRead_safe_iff fun _ => 4).trans (ne2000Span_below_iff s.rsar)
  | reset => exact iff_of_true ⟨0, _, rfl, by simp [ne2000Reset]⟩ trivial
  | receive buf => exact ne2000Receive_safe_iff reachable.registers buf

/-- A driver's setting of the ring: pages 0x46 to 0x80, the next packet at 0x47. -/
def ringSetting : Ne2000State :=
  ne2000IoportWrites [(0, 0x40), (7, 0x47), (0, 0x02), (1, 0x46), (2, 0x80), (3, 0x46), (12, 0x10)]
    (ne2000Power fun _ => 0)

theorem ringSetting_receive_safe :
    Ne2000Reachable ringSetting ∧ (receive (List.replicate 64 0xff)).Safe ringSetting := by
  have reachable : Ne2000Reachable ringSetting := (Ne2000Reachable.power _).ioportWrites _
  exact ⟨reachable, (ne2000_safe_iff reachable _).mpr fun _ =>
    ⟨by decide, by decide, Or.inl (by decide)⟩⟩

/-- The remote-DMA address at the last two bytes of the memory. -/
def endSetting : Ne2000State := ne2000IoportWrites [(8, 0xfe), (9, 0xbf)] (ne2000Power fun _ => 0)

/-- The ring ends at page 0x40, and the next packet goes to page 0x50. -/
def behindSetting : Ne2000State :=
  ne2000IoportWrites [(0, 0x40), (7, 0x50), (0, 0x02), (2, 0x40), (3, 0x60), (12, 0x10)]
    (ne2000Power fun _ => 0)

/-- A 32-bit read of the data port leaves the memory, and a packet keeps the copy loop busy for
ever. -/
theorem endSetting_behindSetting_unsafe :
    (Ne2000Reachable endSetting ∧ ¬ asicReadl.Safe endSetting) ∧
      Ne2000Reachable behindSetting ∧
        ∀ fuel, ((receive []).run fuel behindSetting).1 = .hang := by
  refine ⟨⟨(Ne2000Reachable.power _).ioportWrites _, ?_⟩,
    (Ne2000Reachable.power _).ioportWrites _, ?_⟩
  · intro safe
    have inside := (ne2000AsicRead_safe_iff fun _ => 4).mp safe
    exact (ne2000Span_below_iff _).mp inside (by decide)
  · intro fuel
    have accepts : Ne2000Accepts behindSetting [] := ⟨by decide, by decide, by decide⟩
    exact ne2000Receive_stuck accepts (by decide) fuel

end Qemu.Hw
