import Qemu.Hw.Virtio
import Qemu.Lib.Faultless

/-!
# What `virtqueue_avail_bytes` counts

Both walks follow the same kind of chain through a descriptor table, and both end on every guest
memory.  `virtqueue_pop` walks the table that the head of a chain names.  `virtqueue_avail_bytes`
walks the table that descriptor 0 names, so its answers agree with the chains popped later exactly
when these tables hold the same number of bytes.
-/

namespace Qemu.Hw.Virtio

open Prog Function BitVec List Prog.Faultless

variable {seenIn seenOut : Nat}

/-- The program ends, with an error or with a result. -/
abbrev Ends {α : Type} (program : Call α) (vq : VirtQueue) (post : α → VirtQueue → Prop) : Prop :=
  Prog.Faultless (fun _ => True) program vq post

theorem throws {α : Type} {message : String} {vq : VirtQueue} {post : α → VirtQueue → Prop} :
    Ends (throw message) vq post :=
  faultless_throw.mpr trivial

/-- The chain from descriptor `i` visits `nodes`, and every link stays below `max`. -/
inductive Chain (mem : GuestMemory) (descPa : Addr) (max : Nat) : Nat → List Nat → Prop where
  | last {i : Nat} (final : chained mem descPa i = false) : Chain mem descPa max i [i]
  | link {i : Nat} {rest : List Nat} (more : chained mem descPa i = true)
      (inside : (vringDescNext mem descPa i).toNat < max)
      (chain : Chain mem descPa max (vringDescNext mem descPa i).toNat rest) :
      Chain mem descPa max i (i :: rest)

/-- The descriptors of a table reached from `i`, at most `fuel` of them. -/
def follow (mem : GuestMemory) (descPa : Addr) : Nat → Nat → List Nat
  | 0, _ => []
  | fuel + 1, i =>
    i :: if chained mem descPa i then follow mem descPa fuel (vringDescNext mem descPa i).toNat
      else []

section

variable (mem : GuestMemory)

def bytes (descPa : Addr) (write : Bool) (nodes : List Nat) : Nat :=
  ((nodes.filter fun i => writable mem descPa i == write).map fun i =>
    (vringDescLen mem descPa i).toNat).sum

/-- The bytes of one direction that a table holds from its starting entry on. -/
def Table.bytes (write : Bool) (table : Table) : Nat :=
  Virtio.bytes mem table.descPa write (follow mem table.descPa table.max table.start)

/-- The number of chains that the guest has made available. -/
def available (vq : VirtQueue) : Nat := (vringAvailIdx mem vq.vring - vq.lastAvailIdx).toNat

/-- The head that the available ring holds for the index `idx`. -/
def headAt (vring : VRing) (idx : Nat) : Nat := (vringAvailRing mem vring (idx % vring.num)).toNat

/-- The bytes of one direction in the available chains, each read from the table that its own head
names. -/
def ownBytes (vq : VirtQueue) (write : Bool) : Nat :=
  ((List.range (available mem vq)).map fun k =>
    (popTable mem vq.vring
      (headAt mem vq.vring (vq.lastAvailIdx + BitVec.ofNat 16 k).toNat)).bytes mem write).sum

/-- The bytes of one direction in the available chains, an indirect one read from the table that
descriptor 0 names; the index runs on past 16 bits. -/
def zeroBytes (vq : VirtQueue) (write : Bool) : Nat :=
  ((List.range (available mem vq)).map fun k =>
    (availTable mem vq.vring (headAt mem vq.vring (vq.lastAvailIdx.toNat + k))).bytes
      mem write).sum

end

def segmentBytes (sg : List Segment) : Nat := (sg.map fun segment => segment.len.toNat).sum

/-- The elements offer what the caller asks for, in one direction or the other. -/
def Offers (elems : List VirtQueueElement) (inBytes outBytes : Int) : Prop :=
  (0 < inBytes ∧ inBytes ≤ (elems.map fun elem => segmentBytes elem.inSg).sum) ∨
    (0 < outBytes ∧ outBytes ≤ (elems.map fun elem => segmentBytes elem.outSg).sum)

section Chains

variable {mem : GuestMemory} {descPa : Addr} {max i fuel : Nat} {nodes : List Nat}

theorem Chain.follow_eq (chain : Chain mem descPa max i nodes) (enough : nodes.length ≤ fuel) :
    follow mem descPa fuel i = nodes := by
  induction chain generalizing fuel with
  | last final =>
    obtain ⟨fuel, rfl⟩ := Nat.exists_eq_add_of_lt (lt_of_lt_of_le zero_lt_one enough)
    simp [follow, final]
  | link more inside chain ih =>
    obtain ⟨fuel, rfl⟩ := Nat.exists_eq_add_one.mpr (Nat.zero_lt_of_lt enough)
    have tail : follow mem descPa fuel _ = _ := ih (by simpa using enough)
    simp [follow, more, tail]

theorem bytes_nil (write : Bool) : bytes mem descPa write [] = 0 := rfl

theorem bytes_cons (write : Bool) (nodes : List Nat) :
    bytes mem descPa write (i :: nodes) =
      (if writable mem descPa i == write then (vringDescLen mem descPa i).toNat else 0) +
        bytes mem descPa write nodes := by
  unfold bytes
  by_cases same : writable mem descPa i == write
  · simp [same]
  · simp [same]

end Chains

section NextDesc

variable {mem : GuestMemory} {descPa : Addr} {max i : Nat} {vq : VirtQueue}

theorem nextDesc_last (final : chained mem descPa i = false) :
    virtqueueNextDesc mem descPa i max vq = (.ok max, vq) := by
  simp [virtqueueNextDesc, final]

theorem nextDesc_link (more : chained mem descPa i = true)
    (inside : (vringDescNext mem descPa i).toNat < max) :
    virtqueueNextDesc mem descPa i max vq = (.ok (vringDescNext mem descPa i).toNat, vq) := by
  simp [virtqueueNextDesc, more, not_le.mpr inside]

theorem nextDesc_ends :
    Ends (virtqueueNextDesc mem descPa i max) vq fun next after =>
      after = vq ∧ (chained mem descPa i = false ∧ next = max ∨
        chained mem descPa i = true ∧ next = (vringDescNext mem descPa i).toNat ∧ next < max) := by
  refine ite (fun more => ?_) fun final => ?_
  · refine ite (fun _ => throws) fun inside => ?_
    exact faultless_pure.mpr ⟨rfl, .inr ⟨more, rfl, not_le.mp inside⟩⟩
  · exact faultless_pure.mpr ⟨rfl, .inl ⟨Bool.eq_false_of_not_eq_true final, rfl⟩⟩

end NextDesc

section AvailChain

variable {mem : GuestMemory} {descPa : Addr} {max i fuel numBufs ended : Nat} {nodes : List Nat}
  {inBytes outBytes : Int} {totals totals' : Totals} {vq after : VirtQueue}

theorem availChain_succ :
    availChain mem descPa max inBytes outBytes (fuel + 1) i numBufs totals =
      if max < numBufs + 1 then throw "Looped descriptor"
      else if (account mem descPa i inBytes outBytes totals).2 then pure none
      else virtqueueNextDesc mem descPa i max >>= fun next =>
        if next = max then
          pure (some (numBufs + 1, (account mem descPa i inBytes outBytes totals).1))
        else availChain mem descPa max inBytes outBytes fuel next (numBufs + 1)
          (account mem descPa i inBytes outBytes totals).1 := by
  rw [availChain]
  match account mem descPa i inBytes outBytes totals with
  | (_, true) => rfl
  | (_, false) => rfl

/-- A walk that comes to the end of a chain has followed it within the bound. -/
theorem availChain_traces
    (run : availChain mem descPa max inBytes outBytes fuel i numBufs totals vq =
      (.ok (some (ended, totals')), after)) :
    ∃ nodes, Chain mem descPa max i nodes ∧ ended = numBufs + nodes.length ∧ ended ≤ max ∧
      after = vq := by
  induction fuel generalizing i numBufs totals with
  | zero => cases run
  | succ fuel ih =>
    rw [availChain_succ] at run
    split at run
    · cases run
    case isFalse room =>
      split at run
      · cases run
      obtain ⟨next, middle, found, rest⟩ := bind_eq_ok.mp run
      obtain ⟨rfl, ⟨final, rfl⟩ | ⟨more, rfl, inside⟩⟩ := (faultless_of_run found).mp nextDesc_ends
      · rw [if_pos rfl] at rest
        cases rest
        exact ⟨[i], .last final, rfl, not_lt.mp room, rfl⟩
      · rw [if_neg (ne_of_lt inside)] at rest
        obtain ⟨nodes, chain, length, bound, same⟩ := ih rest
        refine ⟨i :: nodes, .link more inside chain, ?_, bound, same⟩
        rw [length, length_cons]
        omega

/-- The totals count the bytes seen so far in the directions that are asked for. -/
structure Tally (inBytes outBytes : Int) (totals : Totals) (seenIn seenOut : Nat) : Prop where
  ins : 0 < inBytes → totals.inTotal.toNat = seenIn
  outs : 0 < outBytes → totals.outTotal.toNat = seenOut

/-- The bytes seen so far do not answer the request. -/
structure Short (inBytes outBytes : Int) (seenIn seenOut : Nat) : Prop where
  ins : 0 < inBytes → (seenIn : Int) < inBytes
  outs : 0 < outBytes → (seenOut : Int) < outBytes

theorem Short.mono {seenIn seenOut lessIn lessOut : Nat}
    (short : Short inBytes outBytes seenIn seenOut) (ins : lessIn ≤ seenIn)
    (outs : lessOut ≤ seenOut) : Short inBytes outBytes lessIn lessOut where
  ins asked := by
    have := short.ins asked
    omega
  outs asked := by
    have := short.outs asked
    omega

theorem bytes_split (write : Bool) (nodes : List Nat) : bytes mem descPa write (i :: nodes) =
    bytes mem descPa write [i] + bytes mem descPa write nodes := by
  rw [bytes_cons, bytes_cons, bytes_nil, add_zero]

/-- A count below `2 ^ 31` is added and compared without wrapping. -/
theorem total_reaches {total len : BitVec 32} {seen : Nat} (counted : total.toNat = seen)
    (small : seen + len.toNat < 2 ^ 31) :
    (total + len).toNat = seen + len.toNat ∧ (total + len).toInt = seen + len.toNat := by
  subst counted
  have sum : (total + len).toNat = total.toNat + len.toNat := toNat_add_of_lt (by omega)
  rw [toInt_eq_toNat_cond, if_pos (by omega), sum]
  exact ⟨rfl, Int.natCast_add ..⟩

/-- One descriptor either answers the request or is added to the tally. -/
theorem account_tally (tally : Tally inBytes outBytes totals seenIn seenOut)
    (smallIn : seenIn + bytes mem descPa true [i] < 2 ^ 31)
    (smallOut : seenOut + bytes mem descPa false [i] < 2 ^ 31)
    (short : Short inBytes outBytes seenIn seenOut) :
    ((account mem descPa i inBytes outBytes totals).2 = false →
      Tally inBytes outBytes (account mem descPa i inBytes outBytes totals).1
        (seenIn + bytes mem descPa true [i]) (seenOut + bytes mem descPa false [i])) ∧
    ((account mem descPa i inBytes outBytes totals).2 = false ↔
      Short inBytes outBytes (seenIn + bytes mem descPa true [i])
        (seenOut + bytes mem descPa false [i])) := by
  rw [bytes_cons, bytes_nil] at smallIn smallOut ⊢
  rw [bytes_cons, bytes_nil]
  unfold account
  cases direction : writable mem descPa i with
  | true =>
    simp only [direction, beq_self_eq_true, if_true, add_zero, beq_iff_eq,
      Bool.true_eq_false, if_false] at smallIn ⊢
    by_cases asked : 0 < inBytes
    · obtain ⟨total, signed⟩ := total_reaches (tally.ins asked) smallIn
      simp only [asked, if_true, decide_eq_false_iff_not, signed]
      refine ⟨fun _ => ⟨fun _ => ?_, tally.outs⟩, fun fewer => ⟨fun _ => ?_, short.outs⟩,
        fun fewer => ?_⟩
      · exact total
      · omega
      · have := fewer.ins asked
        omega
    · simp only [asked, if_false]
      exact ⟨fun _ => ⟨fun absurdly => absurd absurdly asked, tally.outs⟩,
        fun _ => ⟨fun absurdly => absurd absurdly asked, short.outs⟩, fun _ => trivial⟩
  | false =>
    simp only [direction, beq_self_eq_true, if_true, add_zero, beq_iff_eq,
      Bool.false_eq_true, if_false] at smallOut ⊢
    by_cases asked : 0 < outBytes
    · obtain ⟨total, signed⟩ := total_reaches (tally.outs asked) smallOut
      simp only [asked, if_true, decide_eq_false_iff_not, signed]
      refine ⟨fun _ => ⟨tally.ins, fun _ => ?_⟩, fun fewer => ⟨short.ins, fun _ => ?_⟩,
        fun fewer => ?_⟩
      · exact total
      · omega
      · have := fewer.outs asked
        omega
    · simp only [asked, if_false]
      exact ⟨fun _ => ⟨tally.ins, fun absurdly => absurd absurdly asked⟩,
        fun _ => ⟨short.ins, fun absurdly => absurd absurdly asked⟩, fun _ => trivial⟩

/-- On a chain within the bound, the walk returns 1 as soon as the bytes answer the request, and
otherwise ends with the tally of the whole chain. -/
theorem availChain_of_chain (chain : Chain mem descPa max i nodes)
    (room : numBufs + nodes.length ≤ max) (enough : nodes.length ≤ fuel)
    (tally : Tally inBytes outBytes totals seenIn seenOut)
    (short : Short inBytes outBytes seenIn seenOut)
    (smallIn : seenIn + bytes mem descPa true nodes < 2 ^ 31)
    (smallOut : seenOut + bytes mem descPa false nodes < 2 ^ 31) :
    (¬ Short inBytes outBytes (seenIn + bytes mem descPa true nodes)
        (seenOut + bytes mem descPa false nodes) ∧
      availChain mem descPa max inBytes outBytes fuel i numBufs totals vq = (.ok none, vq)) ∨
    (Short inBytes outBytes (seenIn + bytes mem descPa true nodes)
        (seenOut + bytes mem descPa false nodes) ∧
      ∃ counted, Tally inBytes outBytes counted (seenIn + bytes mem descPa true nodes)
        (seenOut + bytes mem descPa false nodes) ∧
      availChain mem descPa max inBytes outBytes fuel i numBufs totals vq =
        (.ok (some (numBufs + nodes.length, counted)), vq)) := by
  induction chain generalizing fuel numBufs totals seenIn seenOut with
  | @last i final =>
    obtain ⟨fuel, rfl⟩ := Nat.exists_eq_add_one.mpr (Nat.zero_lt_of_lt enough)
    obtain ⟨counted, reached⟩ := account_tally tally smallIn smallOut short
    have fits : ¬ max < numBufs + 1 := not_lt.mpr room
    rw [availChain_succ, if_neg fits]
    cases answer : (account mem descPa i inBytes outBytes totals).2 with
    | true =>
      refine .inl ⟨fun fewer => ?_, rfl⟩
      exact absurd (reached.mpr fewer) (by simp [answer])
    | false =>
      refine .inr ⟨reached.mp answer, _, counted answer, ?_⟩
      rw [if_neg Bool.false_ne_true, bind_of_ok (nextDesc_last final), if_pos rfl]
      rfl
  | @link i rest more inside chain ih =>
    obtain ⟨fuel, rfl⟩ := Nat.exists_eq_add_one.mpr (Nat.zero_lt_of_lt enough)
    rw [bytes_split, ← add_assoc] at smallIn smallOut
    rw [bytes_split, bytes_split false, ← add_assoc, ← add_assoc]
    obtain ⟨counted, reached⟩ :=
      account_tally tally (lt_of_le_of_lt (Nat.le_add_right _ _) smallIn)
        (lt_of_le_of_lt (Nat.le_add_right _ _) smallOut) short
    rw [length_cons] at room enough
    have fits : ¬ max < numBufs + 1 := by omega
    rw [availChain_succ, if_neg fits]
    cases answer : (account mem descPa i inBytes outBytes totals).2 with
    | true =>
      refine .inl ⟨fun fewer => ?_, rfl⟩
      have stillShort := fewer.mono (Nat.le_add_right _ _) (Nat.le_add_right _ _)
      exact absurd (reached.mpr stillShort) (by simp [answer])
    | false =>
      have length : numBufs + (i :: rest).length = numBufs + 1 + rest.length := by
        rw [length_cons]
        omega
      rw [if_neg Bool.false_ne_true, bind_of_ok (nextDesc_link more inside),
        if_neg (ne_of_lt inside), length]
      exact ih (by omega) (by omega) (counted answer) (reached.mp answer) smallIn smallOut

theorem availChain_ends (positive : 0 < fuel) (enough : max < numBufs + fuel) :
    Ends
      (availChain mem descPa max inBytes outBytes fuel i numBufs totals) vq
      fun _ after => after = vq := by
  induction fuel generalizing i numBufs totals with
  | zero => exact absurd positive (lt_irrefl 0)
  | succ fuel ih =>
    rw [availChain_succ]
    refine ite (fun _ => ?_) fun room => ?_
    · exact throws
    refine ite (fun _ => faultless_pure.mpr rfl) fun _ => ?_
    refine bind nextDesc_ends ?_
    rintro next _ ⟨rfl, -⟩
    exact ite (fun _ => faultless_pure.mpr rfl) fun _ =>
      ih (by omega) (by omega)

end AvailChain

section AvailHeads

variable {mem : GuestMemory} {vring : VRing} {idx fuel totalBufs head numHeads : Nat}
  {inBytes outBytes : Int} {totals : Totals} {vq after : VirtQueue}

/-- The number of heads between the index `idx` and the guest's. -/
def headsLeft (mem : GuestMemory) (vring : VRing) (idx : Nat) : Nat :=
  (vringAvailIdx mem vring - BitVec.ofNat 16 idx).toNat

theorem headsLeft_succ (some : headsLeft mem vring idx ≠ 0) :
    headsLeft mem vring idx = headsLeft mem vring (idx + 1) + 1 := by
  unfold headsLeft at *
  bv_omega

theorem numHeads_ends :
    Ends (virtqueueNumHeads mem vring idx) vq
      fun numHeads after => numHeads = headsLeft mem vring idx ∧ after = vq := by
  exact ite (fun _ => throws)
    fun _ => faultless_pure.mpr ⟨rfl, rfl⟩

theorem getHead_ends :
    Ends (virtqueueGetHead mem vring idx) vq
      fun head after => head = headAt mem vring idx ∧ after = vq := by
  exact ite (fun _ => throws)
    fun _ => faultless_pure.mpr ⟨rfl, rfl⟩

theorem enterTable_ends :
    Ends (enterTable mem vring head totalBufs) vq
      fun _ after => after = vq := by
  refine ite (fun _ => ?_) fun _ => faultless_pure.mpr rfl
  refine ite (fun _ => throws) fun _ => ?_
  exact ite (fun _ => throws)
    fun _ => faultless_pure.mpr rfl

/-- The bytes that `virtqueue_avail_bytes` finds in `count` chains from the index `idx` on. -/
def laterBytes (mem : GuestMemory) (vring : VRing) (write : Bool) (count idx : Nat) : Nat :=
  ((List.range count).map fun k =>
    (availTable mem vring (headAt mem vring (idx + k))).bytes mem write).sum

theorem laterBytes_succ (write : Bool) (count : Nat) :
    laterBytes mem vring write (count + 1) idx =
      (availTable mem vring (headAt mem vring idx)).bytes mem write +
        laterBytes mem vring write count (idx + 1) := by
  unfold laterBytes
  rw [range_succ_eq_map, map_cons, sum_cons, map_map, add_zero]
  congr 3
  funext k
  rw [comp_apply, add_assoc, add_comm 1 k]

theorem availHeads_ends (enough : headsLeft mem vring idx < fuel) :
    Ends
      (availHeads mem vring inBytes outBytes fuel idx totalBufs totals) vq fun _ _ => True := by
  induction fuel generalizing idx totalBufs totals with
  | zero => exact absurd enough (Nat.not_lt_zero _)
  | succ fuel ih =>
    refine bind numHeads_ends ?_
    rintro _ _ ⟨rfl, rfl⟩
    refine ite (fun _ => faultless_pure.mpr trivial) fun remaining => ?_
    refine bind getHead_ends ?_
    rintro _ _ ⟨rfl, rfl⟩
    refine bind enterTable_ends ?_
    rintro _ _ rfl
    refine bind (availChain_ends (Nat.succ_pos _) (by omega)) ?_
    rintro walked _ rfl
    cases walked with
    | none => exact faultless_pure.mpr trivial
    | some walked =>
      have step := headsLeft_succ remaining
      exact ih (by omega)

/-- Where the walk takes no error exit, its answer compares what it finds with the request. -/
theorem availHeads_answers {passing : Totals}
    (run : availHeads mem vring 0 0 fuel idx totalBufs passing vq = (.ok 0, after))
    (tally : Tally inBytes outBytes totals seenIn seenOut)
    (short : Short inBytes outBytes seenIn seenOut)
    (smallIn : seenIn + laterBytes mem vring true (headsLeft mem vring idx) idx < 2 ^ 31)
    (smallOut : seenOut + laterBytes mem vring false (headsLeft mem vring idx) idx < 2 ^ 31) :
    (¬ Short inBytes outBytes
        (seenIn + laterBytes mem vring true (headsLeft mem vring idx) idx)
        (seenOut + laterBytes mem vring false (headsLeft mem vring idx) idx) ∧
      (availHeads mem vring inBytes outBytes fuel idx totalBufs totals vq).1 = .ok 1) ∨
    (Short inBytes outBytes
        (seenIn + laterBytes mem vring true (headsLeft mem vring idx) idx)
        (seenOut + laterBytes mem vring false (headsLeft mem vring idx) idx) ∧
      (availHeads mem vring inBytes outBytes fuel idx totalBufs totals vq).1 = .ok 0) := by
  induction fuel generalizing idx totalBufs totals passing seenIn seenOut with
  | zero => cases run
  | succ fuel ih =>
    rw [availHeads] at run ⊢
    obtain ⟨numHeads, middle, counted, behind⟩ := bind_eq_ok.mp run
    obtain ⟨rfl, rfl⟩ := (faultless_of_run counted).mp numHeads_ends
    rw [bind_of_ok counted]
    by_cases remaining : headsLeft mem vring idx = 0
    · rw [if_pos remaining, remaining]
      exact .inr ⟨short, rfl⟩
    rw [if_neg remaining] at behind ⊢
    obtain ⟨head, middle, taken, entering⟩ := bind_eq_ok.mp behind
    obtain ⟨rfl, rfl⟩ := (faultless_of_run taken).mp getHead_ends
    obtain ⟨_, middle, entered, walking⟩ := bind_eq_ok.mp entering
    obtain rfl := (faultless_of_run entered).mp enterTable_ends
    obtain ⟨walked, middle, walk, later⟩ := bind_eq_ok.mp walking
    rw [bind_of_ok taken, bind_of_ok entered]
    cases walked with
    | none => cases later
    | some walked =>
      obtain ⟨numBufs, passing⟩ := walked
      obtain ⟨nodes, chain, rfl, bound, rfl⟩ := availChain_traces walk
      have length := le_trans (Nat.le_add_left _ _) bound
      have found (write : Bool) :
          laterBytes mem vring write (headsLeft mem vring idx) idx =
            bytes mem (availTable mem vring (headAt mem vring idx)).descPa write nodes +
              laterBytes mem vring write (headsLeft mem vring (idx + 1)) (idx + 1) := by
        rw [headsLeft_succ remaining, laterBytes_succ, Table.bytes, chain.follow_eq length]
      rw [found, ← add_assoc] at smallIn smallOut
      rw [found, found, ← add_assoc, ← add_assoc]
      rcases availChain_of_chain chain bound (Nat.le_succ_of_le length) tally short
          (lt_of_le_of_lt (Nat.le_add_right _ _) smallIn)
          (lt_of_le_of_lt (Nat.le_add_right _ _) smallOut) with
        ⟨reached, walk'⟩ | ⟨stillShort, counted, tally', walk'⟩
      · rw [bind_of_ok walk']
        refine .inl ⟨fun fewer => reached ?_, rfl⟩
        exact fewer.mono (Nat.le_add_right _ _) (Nat.le_add_right _ _)
      · rw [bind_of_ok walk']
        exact ih later tally' stillShort smallIn smallOut

end AvailHeads

section Pop

variable {mem : GuestMemory} {descPa : Addr} {max i fuel head : Nat} {vring : VRing}
  {elem elem' : VirtQueueElement} {vq after : VirtQueue}

/-- The segments an element holds. -/
def VirtQueueElement.size (elem : VirtQueueElement) : Nat := elem.inSg.length + elem.outSg.length

/-- What the walk over `nodes` has added to an element. -/
structure Collected (mem : GuestMemory) (descPa : Addr) (nodes : List Nat)
    (elem elem' : VirtQueueElement) : Prop where
  size : elem'.size = elem.size + nodes.length
  ins : segmentBytes elem'.inSg = segmentBytes elem.inSg + bytes mem descPa true nodes
  outs : segmentBytes elem'.outSg = segmentBytes elem.outSg + bytes mem descPa false nodes

theorem Collected.cons {nodes : List Nat} {middle : VirtQueueElement}
    (first : Collected mem descPa [i] elem middle)
    (rest : Collected mem descPa nodes middle elem') :
    Collected mem descPa (i :: nodes) elem elem' where
  size := by
    rw [rest.size, first.size, length_singleton, length_cons]
    omega
  ins := by rw [rest.ins, first.ins, bytes_split _ nodes, add_assoc]
  outs := by rw [rest.outs, first.outs, bytes_split _ nodes, add_assoc]

theorem collectDesc_ends :
    Ends (collectDesc mem descPa i elem) vq fun elem' after =>
      Collected mem descPa [i] elem elem' ∧ after = vq := by
  refine ite (fun direction => ?_) fun direction => ?_
  · refine ite (fun _ => throws) fun _ => ?_
    refine faultless_pure.mpr ⟨⟨?_, ?_, ?_⟩, rfl⟩
    · simp only [VirtQueueElement.size, length_append, length_singleton]
      omega
    · simp [bytes_cons, bytes_nil, direction, segmentBytes]
    · simp [bytes_cons, bytes_nil, direction]
  · refine ite (fun _ => throws) fun _ => ?_
    refine faultless_pure.mpr ⟨⟨?_, ?_, ?_⟩, rfl⟩
    · simp only [VirtQueueElement.size, length_append, length_singleton]
      omega
    · simp [bytes_cons, bytes_nil, direction]
    · simp [bytes_cons, bytes_nil, direction, segmentBytes]

/-- The loop of `virtqueue_pop` ends, and collects a chain within the bound. -/
theorem collect_ends (positive : 0 < fuel) (enough : max < elem.size + fuel) :
    Ends (collect mem descPa max fuel i elem) vq fun elem' after =>
      (∃ nodes, Chain mem descPa max i nodes ∧ Collected mem descPa nodes elem elem') ∧
        elem'.size ≤ max ∧ after = vq := by
  induction fuel generalizing i elem with
  | zero => exact absurd positive (lt_irrefl 0)
  | succ fuel ih =>
    refine bind collectDesc_ends ?_
    rintro taken _ ⟨first, rfl⟩
    have grown : taken.size = elem.size + 1 := first.size
    refine ite (fun _ => throws) fun room => ?_
    have fits : taken.size ≤ max := not_lt.mp room
    refine bind nextDesc_ends ?_
    rintro next _ ⟨rfl, ⟨final, rfl⟩ | ⟨more, rfl, inside⟩⟩
    · rw [if_pos rfl]
      exact faultless_pure.mpr ⟨⟨[i], .last final, first⟩, fits, rfl⟩
    · rw [if_neg (ne_of_lt inside)]
      refine (ih (by omega) (by omega)).mono ?_
      rintro elem' _ ⟨⟨nodes, chain, rest⟩, bound, rfl⟩
      exact ⟨⟨i :: nodes, .link more inside chain, first.cons rest⟩, bound, rfl⟩

theorem mapSg_ends {sg : List Segment} {isWrite : Bool} :
    Ends (virtqueueMapSg mem sg isWrite) vq fun _ after => after = vq :=
  ite (fun _ => faultless_pure.mpr rfl)
    fun _ => throws

/-- An element holds the bytes of the table that its head names. -/
def Holds (mem : GuestMemory) (vring : VRing) (head : Nat) (elem : VirtQueueElement) : Prop :=
  segmentBytes elem.inSg = (popTable mem vring head).bytes mem true ∧
    segmentBytes elem.outSg = (popTable mem vring head).bytes mem false

theorem popChain_ends :
    Ends (popChain mem vring head) vq fun elem after =>
      Holds mem vring head elem ∧ after = vq := by
  refine ite (fun _ => throws) fun _ => ?_
  refine bind
    (collect_ends (Nat.succ_pos _) (Nat.lt_add_left _ (Nat.lt_succ_self _))) ?_
  rintro elem _ ⟨⟨nodes, chain, collected⟩, bound, rfl⟩
  refine bind mapSg_ends ?_
  rintro _ _ rfl
  refine bind mapSg_ends ?_
  rintro _ _ rfl
  have length : nodes.length ≤ (popTable mem vring head).max := by
    have := collected.size
    omega
  refine faultless_pure.mpr ⟨⟨?_, ?_⟩, rfl⟩
  · rw [Table.bytes, chain.follow_eq length, collected.ins]
    exact zero_add _
  · rw [Table.bytes, chain.follow_eq length, collected.outs]
    exact zero_add _

theorem takeHead_frame :
    (takeHead mem vq).vring = vq.vring ∧
      (takeHead mem vq).lastAvailIdx = vq.lastAvailIdx + 1 := by
  simp only [takeHead, vringAvailEvent]
  split_ifs <;> exact ⟨rfl, rfl⟩

/-- One call of `virtqueue_pop` ends: it finds the ring empty, or takes the next chain. -/
theorem pop_ends :
    Ends (virtqueuePop mem) vq fun result after =>
      (result = none ∧ headsLeft mem vq.vring vq.lastAvailIdx.toNat = 0) ∨
      ∃ elem, result = some elem ∧ headsLeft mem vq.vring vq.lastAvailIdx.toNat ≠ 0 ∧
        Holds mem vq.vring (headAt mem vq.vring vq.lastAvailIdx.toNat) elem ∧
        after.vring = vq.vring ∧ after.lastAvailIdx = vq.lastAvailIdx + 1 := by
  refine faultless_bind.mpr (faultless_get.mpr ?_)
  refine bind numHeads_ends ?_
  rintro _ _ ⟨rfl, rfl⟩
  refine ite (fun none => faultless_pure.mpr (.inl ⟨rfl, none⟩))
    fun remaining => ?_
  refine bind getHead_ends ?_
  rintro _ vq ⟨rfl, rfl⟩
  refine faultless_bind.mpr (faultless_modify.mpr ?_)
  refine bind popChain_ends ?_
  rintro elem _ ⟨holds, rfl⟩
  refine faultless_bind.mpr (faultless_modify.mpr (faultless_pure.mpr ?_))
  exact .inr ⟨elem, rfl, remaining, holds, takeHead_frame⟩

theorem available_eq_headsLeft :
    available mem vq = headsLeft mem vq.vring vq.lastAvailIdx.toNat := by
  simp [available, headsLeft]

/-- After a chain has been taken, the bytes of the others remain. -/
theorem ownBytes_step (remaining : available mem vq ≠ 0) (sameRing : after.vring = vq.vring)
    (moved : after.lastAvailIdx = vq.lastAvailIdx + 1) (write : Bool) :
    ownBytes mem vq write =
      (popTable mem vq.vring (headAt mem vq.vring vq.lastAvailIdx.toNat)).bytes mem write +
        ownBytes mem after write := by
  have fewer : available mem vq = available mem after + 1 := by
    unfold available at *
    rw [sameRing, moved]
    bv_omega
  have shift (k : Nat) : vq.lastAvailIdx + BitVec.ofNat 16 (k + 1) =
      vq.lastAvailIdx + 1 + BitVec.ofNat 16 k := by
    rw [ofNat_add, add_assoc, add_comm (BitVec.ofNat 16 k)]
    rfl
  unfold ownBytes
  rw [fewer, range_succ_eq_map, map_cons, sum_cons, map_map, sameRing, moved]
  refine congrArg₂ (· + ·) (by rw [BitVec.add_zero]) ?_
  refine congrArg sum (map_congr_left fun k _ => ?_)
  rw [comp_apply, Nat.succ_eq_add_one, shift]

/-- The elements that successive calls return hold the bytes of the available chains. -/
theorem Pops.bytes {elems : List VirtQueueElement} (pops : Pops mem vq elems) :
    (elems.map fun elem => segmentBytes elem.inSg).sum = ownBytes mem vq true ∧
      (elems.map fun elem => segmentBytes elem.outSg).sum = ownBytes mem vq false := by
  induction pops with
  | @empty vq after run =>
    rcases (faultless_of_run run).mp pop_ends with ⟨-, none⟩ | ⟨elem, absurdly, -⟩
    · rw [← available_eq_headsLeft] at none
      simp [ownBytes, none]
    · cases absurdly
  | @more vq after elem rest run others ih =>
    rcases (faultless_of_run run).mp pop_ends with
      ⟨absurdly, -⟩ | ⟨taken, same, remaining, ⟨ins, outs⟩, sameRing, moved⟩
    · cases absurdly
    obtain rfl := Option.some.inj same
    rw [← available_eq_headsLeft] at remaining
    rw [map_cons, map_cons, sum_cons, sum_cons, ih.1, ih.2, ins, outs]
    exact ⟨(ownBytes_step remaining sameRing moved true).symm,
      (ownBytes_step remaining sameRing moved false).symm⟩

end Pop

section Accounting

variable {mem : GuestMemory} {vq : VirtQueue}

/-- Where no error exit is taken, `virtqueue_avail_bytes` answers with the bytes of the tables that
descriptor 0 names. -/
theorem availBytes_eq_one_iff {inBytes outBytes : Int}
    (noExit : (virtqueueAvailBytes mem 0 0 vq).1 = .ok 0)
    (smallIn : zeroBytes mem vq true < 2 ^ 31) (smallOut : zeroBytes mem vq false < 2 ^ 31) :
    (virtqueueAvailBytes mem inBytes outBytes vq).1 = .ok 1 ↔
      (0 < inBytes ∧ inBytes ≤ zeroBytes mem vq true) ∨
        (0 < outBytes ∧ outBytes ≤ zeroBytes mem vq false) := by
  have later (write : Bool) : zeroBytes mem vq write =
      0 + laterBytes mem vq.vring write (headsLeft mem vq.vring vq.lastAvailIdx.toNat)
        vq.lastAvailIdx.toNat := by
    rw [← available_eq_headsLeft, zero_add]
    rfl
  have run : virtqueueAvailBytes mem 0 0 vq = (.ok 0, (virtqueueAvailBytes mem 0 0 vq).2) :=
    Prod.ext noExit rfl
  have tally : Tally inBytes outBytes ⟨0, 0⟩ 0 0 := ⟨fun _ => rfl, fun _ => rfl⟩
  have short : Short inBytes outBytes 0 0 := ⟨id, id⟩
  rw [later] at smallIn smallOut
  rw [later, later]
  rcases availHeads_answers run tally short smallIn smallOut with
    ⟨reached, answer⟩ | ⟨fewer, answer⟩
  · refine ⟨fun _ => ?_, fun _ => answer⟩
    by_contra none
    push Not at none
    exact reached ⟨none.1, none.2⟩
  · refine ⟨fun one => ?_, fun offered => ?_⟩
    · cases answer.symm.trans one
    · rcases offered with ⟨asked, enough⟩ | ⟨asked, enough⟩
      · exact absurd enough (not_le.mpr (fewer.ins asked))
      · exact absurd enough (not_le.mpr (fewer.outs asked))

/-- A queue whose only chain is the single direct buffer of descriptor 0. -/
def directMemory : GuestMemory where
  ldq _ := 0x5000
  ldl address := if address = 8 then 100 else 0
  lduw address := if address = 12 then 2 else if address = 34 then 1 else 0
  maps _ _ _ := true

/-- A queue of two entries that has not been read yet. -/
def freshQueue : VirtQueue where
  vring := ⟨2, 0, 32, 0x1000⟩
  lastAvailIdx := 0
  notification := true
  inuse := 0
  eventIdx := true
  stores := []

/-- The head of the only chain is descriptor 1, which names a table with one writable buffer of 100
bytes.  Descriptor 0 is not in use. -/
def indirectMemory : GuestMemory where
  ldq address := if address = 0 then 0x3000 else if address = 16 then 0x2000 else 0
  ldl address := if address = 24 then 16 else if address = 0x2008 then 100 else 0
  lduw address :=
    if address = 28 then 4 else if address = 0x200c then 2 else if address = 34 then 1
    else if address = 36 then 1 else 0
  maps _ _ _ := true

end Accounting

end Qemu.Hw.Virtio
