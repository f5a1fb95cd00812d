import Qemu.Migration.RamWalk

/-!
# Reading the stream back

`ram_load` takes a section apart record by record.  Each lemma below runs one reading function on
what the corresponding writing function has produced, followed by an arbitrary rest of the stream.
-/

namespace Qemu.Migration

open Prog List Nat Incoming

open Wire (be Feed)

/-- The incoming side with the given bytes ahead of it. -/
def Incoming.feed (r : Incoming) (bytes : List (BitVec 8)) : Incoming :=
  { r with file := ⟨bytes, false⟩ }

section Fields

variable {r : Incoming} {tail : List (BitVec 8)}

theorem getByte_run (value : BitVec 8) :
    qemuGetByte (r.feed (value :: tail)) = (.ok value, r.feed tail) := rfl

theorem getBuffer_run (front : List (BitVec 8)) {size : Nat} (length : front.length = size) :
    qemuGetBuffer size (r.feed (front ++ tail)) = (.ok front, r.feed tail) := by
  subst length
  have read := Feed.bytes_append tail false front
  simp only [qemuGetBuffer, fetch, feed, read]

theorem getRamAddr_run {value : Nat} (small : value < ramAddrRange) :
    getRamAddr (r.feed (be 8 value ++ tail)) = (.ok value, r.feed tail) := by
  have fits : value < 256 ^ 8 := lt_of_lt_of_le small (by decide)
  have read := Feed.be_append tail false fits
  rw [getRamAddr, bind_apply, fetch]
  simp only [feed, read, mod_eq_of_lt small, pure_apply]

theorem getIdstr_run {block : RAMBlock} (short : block.idstr.length < 256)
    (noZero : 0 ∉ block.idstr) :
    getIdstr (r.feed (wireName block ++ tail)) = (.ok block.idstr, r.feed tail) := by
  have length : block.idstr.length = (BitVec.ofNat 8 block.idstr.length).toNat := by
    rw [BitVec.toNat_ofNat, mod_eq_of_lt short]
  have string : block.idstr.takeWhile (· != 0) = block.idstr := by
    refine takeWhile_eq_self_iff.mpr fun byte member => ?_
    simp only [bne_iff_ne]
    rintro rfl
    exact noZero member
  have whole (stale : List (BitVec 8)) : (block.idstr ++ stale).take block.idstr.length =
      block.idstr := take_left
  rw [getIdstr, wireName, cons_append, bind_of_ok (getByte_run _),
    bind_of_ok (getBuffer_run block.idstr length), get_bind, ← length, whole, string]
  rfl

end Fields

section Headers

/-- A page offset and flags below the page size, put together and taken apart again. -/
theorem header_split {offset flags : Nat} (aligned : targetPageSize ∣ offset)
    (small : flags < targetPageSize) :
    offset ||| flags = offset + flags ∧ (offset + flags) % targetPageSize = flags := by
  obtain ⟨k, rfl⟩ := aligned
  refine ⟨(two_pow_add_eq_or_of_lt (i := 12) small k).symm, ?_⟩
  rw [mul_add_mod, mod_eq_of_lt small]

/-- The flags of a page record, as the reading side tests them. -/
structure PageFlags (flags kind : Nat) (cont : Bool) : Prop where
  small : flags < targetPageSize
  cont : flags &&& ramSaveFlagContinue ≠ 0 ↔ cont = true
  noSize : flags &&& ramSaveFlagMemSize = 0
  noEos : flags &&& ramSaveFlagEos = 0
  compress : flags &&& ramSaveFlagCompress ≠ 0 ↔ kind = ramSaveFlagCompress
  page : flags &&& ramSaveFlagPage ≠ 0 ↔ kind = ramSaveFlagPage

theorem pageFlags : ∀ kind ∈ [ramSaveFlagCompress, ramSaveFlagPage], ∀ cont,
    PageFlags ((if cont then ramSaveFlagContinue else 0) ||| kind) kind cont := by
  simp only [forall_mem_cons, not_mem_nil, false_imp_iff, implies_true, and_true]
  constructor <;> rintro (_ | _) <;> constructor <;> decide

end Headers

section Blocks

variable {r : Incoming} {blocks : List RAMBlock}

/-- The machine has blocks of the same names and lengths. -/
structure Knows (r : Incoming) (blocks : List RAMBlock) : Prop where
  distinct : (r.blocks.map RAMBlock.idstr).Nodup
  known : ∀ block ∈ blocks, ∃ twin ∈ r.blocks, twin.idstr = block.idstr ∧
    twin.length = block.length

theorem Knows.find (knows : Knows r blocks) {block : RAMBlock} (member : block ∈ blocks) :
    ∃ twin, (r.blocks.find? fun other => decide (other.idstr = block.idstr)) = some twin ∧
      twin.idstr = block.idstr ∧ twin.length = block.length := by
  obtain ⟨twin, inList, name, length⟩ := knows.known block member
  cases found : r.blocks.find? fun other => decide (other.idstr = block.idstr) with
  | none =>
    have := find?_eq_none.mp found twin inList
    simp [name] at this
  | some other =>
    have sameName : other.idstr = block.idstr := by simpa using find?_some found
    have same : other = twin :=
      inj_on_of_nodup_map knows.distinct (mem_of_find?_eq_some found) inList
        (sameName.trans name.symm)
    exact ⟨other, rfl, sameName, by rw [same, length]⟩

end Blocks

section Pages

variable {r : Incoming} {blocks : List RAMBlock} {block : RAMBlock} {offset flags : Nat}
  {cont : Bool} {host : HostMemory}

def pageBytes (host : HostMemory) (block : RAMBlock) (offset : Nat) : List (BitVec 8) :=
  (List.range targetPageSize).map (pageAt host block offset)

theorem append_inj {n m : Nat} {high high' : BitVec n} {low low' : BitVec m}
    (same : high ++ low = high' ++ low') : high = high' ∧ low = low' := by
  constructor
  · rw [← BitVec.extractLsb'_append_eq_left (a := high) (b := low), same,
      BitVec.extractLsb'_append_eq_left]
  · rw [← BitVec.extractLsb'_append_eq_right (a := high) (b := low), same,
      BitVec.extractLsb'_append_eq_right]

/-- All bytes of a page that `is_dup_page` accepts are the same. -/
theorem isDupPage_sound {page : Nat → BitVec 8} {ch : BitVec 8} (dup : isDupPage page ch = true)
    {i : Nat} (inside : i < targetPageSize) : page i = ch := by
  unfold isDupPage at dup
  rw [all_eq_true] at dup
  have word := dup (i / 4) (mem_range.mpr (by simp only [targetPageSize] at *; omega))
  rw [beq_iff_eq] at word
  obtain ⟨high, byte0⟩ := append_inj word
  obtain ⟨higher, byte1⟩ := append_inj high
  obtain ⟨byte3, byte2⟩ := append_inj higher
  have split : i = 4 * (i / 4) + i % 4 := (div_add_mod i 4).symm
  have small : i % 4 < 4 := mod_lt i (by decide)
  rw [split]
  generalize i % 4 = j at *
  interval_cases j
  · exact byte0
  · exact byte1
  · exact byte2
  · exact byte3

theorem pageBytes_of_dup (dup : isDupPage (pageAt host block offset)
      (pageAt host block offset 0) = true) :
    replicate targetPageSize (pageAt host block offset 0) = pageBytes host block offset := by
  refine (eq_replicate_iff.mpr ⟨?_, fun byte member => ?_⟩).symm
  · rw [pageBytes, length_map, length_range]
  · obtain ⟨i, inside, rfl⟩ := mem_map.mp member
    exact isDupPage_sound dup (mem_range.mp inside)

/-- The receiver remembers the block of the previous record. -/
def Remembers (r : Incoming) (block : RAMBlock) : Prop :=
  ∃ twin, r.block = some twin ∧ twin.idstr = block.idstr

/-- The name part of a page record leads to the block it stands for. -/
theorem hostFromStreamOffset_run (wellFormed : WellFormed blocks) (knows : Knows r blocks)
    (member : block ∈ blocks) (remembers : cont = true → Remembers r block)
    (flag : flags &&& ramSaveFlagContinue ≠ 0 ↔ cont = true) :
    ∃ twin, twin.idstr = block.idstr ∧ ∀ tail,
      hostFromStreamOffset offset flags
          (r.feed ((if cont then [] else wireName block) ++ tail)) =
        (.ok (some (twin, offset)), feed { r with block := some twin } tail) := by
  unfold hostFromStreamOffset
  cases cont with
  | true =>
    obtain ⟨twin, current, name⟩ := remembers rfl
    refine ⟨twin, name, fun tail => ?_⟩
    rw [if_pos (flag.mpr rfl), if_pos rfl, get_bind, nil_append]
    simp only [feed, current, Option.map_some, pure_apply]
  | false =>
    obtain ⟨twin, found, name, -⟩ := knows.find member
    obtain ⟨short, noZero⟩ := wellFormed.strings block member
    refine ⟨twin, name, fun tail => ?_⟩
    rw [if_neg fun set => Bool.false_ne_true (flag.mp set), if_neg Bool.false_ne_true,
      bind_of_ok (getIdstr_run short noZero), modify_bind, get_bind]
    simp only [feed, found, Option.map_some, pure_apply]

/-- The incoming side after a page has been stored. -/
def Incoming.stored (r : Incoming) (twin : RAMBlock) (offset : Nat) (bytes : List (BitVec 8)) :
    Incoming :=
  { r with block := some twin, host := storeBytes r.host (twin, offset) bytes }

section

variable (wellFormed : WellFormed blocks) (knows : Knows r blocks) (member : block ∈ blocks)
  (remembers : cont = true → Remembers r block)
  (flag : flags &&& ramSaveFlagContinue ≠ 0 ↔ cont = true)

include wellFormed knows member remembers flag

theorem loadPage_compress (compress : flags &&& ramSaveFlagCompress ≠ 0)
    (dup : isDupPage (pageAt host block offset) (pageAt host block offset 0) = true) :
    ∃ twin, twin.idstr = block.idstr ∧ ∀ tail,
      loadPage 4 offset flags (r.feed ((if cont then [] else wireName block) ++
          ([pageAt host block offset 0] ++ tail))) =
        (.ok (), (r.stored twin offset (pageBytes host block offset)).feed tail) := by
  obtain ⟨twin, name, located⟩ := hostFromStreamOffset_run wellFormed knows member remembers flag
  refine ⟨twin, name, fun tail => ?_⟩
  rw [loadPage, if_pos compress, pageTarget, if_neg (by decide), bind_of_ok (located _)]
  simp only
  rw [singleton_append, bind_of_ok (getByte_run _), pageBytes_of_dup dup]
  rfl

theorem loadPage_plain (plain : ¬ flags &&& ramSaveFlagCompress ≠ 0)
    (page : flags &&& ramSaveFlagPage ≠ 0) :
    ∃ twin, twin.idstr = block.idstr ∧ ∀ tail,
      loadPage 4 offset flags (r.feed ((if cont then [] else wireName block) ++
          (pageBytes host block offset ++ tail))) =
        (.ok (), (r.stored twin offset (pageBytes host block offset)).feed tail) := by
  obtain ⟨twin, name, located⟩ := hostFromStreamOffset_run wellFormed knows member remembers flag
  have length : (pageBytes host block offset).length = targetPageSize := by
    rw [pageBytes, length_map, length_range]
  refine ⟨twin, name, fun tail => ?_⟩
  rw [loadPage, if_neg plain, if_pos page, pageTarget, if_neg (by decide), bind_of_ok (located _)]
  rw [bind_of_ok (getBuffer_run _ length)]
  rfl

end

theorem loadRecord_of_loadPage {r' : Incoming} {body tail : List (BitVec 8)}
    (aligned : targetPageSize ∣ offset) (small : flags < targetPageSize)
    (fits : offset + flags < ramAddrRange) (noSize : flags &&& ramSaveFlagMemSize = 0)
    (noEos : flags &&& ramSaveFlagEos = 0)
    (run : loadPage 4 offset flags (r.feed body) = (.ok (), r'.feed tail)) :
    loadRecord 4 (r.feed (be 8 (offset ||| flags) ++ body)) = (.ok false, r'.feed tail) := by
  obtain ⟨sum, mod⟩ := header_split aligned small
  have addr : offset + flags - flags = offset := Nat.add_sub_cancel offset flags
  rw [sum, loadRecord, bind_of_ok (getRamAddr_run fits)]
  simp only [mod, addr, noSize, noEos, ne_eq, not_true_eq_false, if_false]
  rw [bind_of_ok run, get_bind]
  rfl

theorem loadRecord_page (wellFormed : WellFormed blocks) (knows : Knows r blocks)
    (member : (block, offset) ∈ pages blocks) (remembers : cont = true → Remembers r block) :
    ∃ twin, twin.idstr = block.idstr ∧ ∀ tail,
      loadRecord 4 (r.feed (pageRecord host block offset cont ++ tail)) =
        (.ok false, (r.stored twin offset (pageBytes host block offset)).feed tail) := by
  obtain ⟨inList, aligned, inside⟩ :
    block ∈ blocks ∧ targetPageSize ∣ offset ∧ offset < block.length := mem_pages.mp member
  have bound := wellFormed.fits block inList
  have whole := (wellFormed.aligned block inList).2
  have fits {flags : Nat} (small : flags < targetPageSize) : offset + flags < ramAddrRange := by
    simp only [targetPageSize] at *
    omega
  unfold pageRecord
  simp only [Nat.or_assoc]
  split
  case isTrue dup =>
    have flags := pageFlags _ mem_cons_self cont
    obtain ⟨twin, name, run⟩ := loadPage_compress wellFormed knows inList remembers flags.cont
      (flags.compress.mpr rfl) dup
    refine ⟨twin, name, fun tail => ?_⟩
    rw [append_assoc, append_assoc]
    exact loadRecord_of_loadPage aligned flags.small (fits flags.small) flags.noSize flags.noEos
      (run tail)
  case isFalse =>
    have flags := pageFlags ramSaveFlagPage (by simp) cont
    obtain ⟨twin, name, run⟩ := loadPage_plain wellFormed knows inList remembers flags.cont
      (fun compressed => absurd (flags.compress.mp compressed) (by decide)) (flags.page.mpr rfl)
    refine ⟨twin, name, fun tail => ?_⟩
    rw [append_assoc, append_assoc, ← pageBytes]
    exact loadRecord_of_loadPage aligned flags.small (fits flags.small) flags.noSize flags.noEos
      (run tail)

end Pages

section Totals

variable {blocks : List RAMBlock}

/-- Blocks in the order of their offsets, above a bound, fit above the bound. -/
theorem total_lt_of_sorted {bound : Nat} (below : bound < ramAddrRange)
    (sorted : blocks.Pairwise fun a b => a.offset + a.length ≤ b.offset)
    (above : ∀ block ∈ blocks, bound ≤ block.offset)
    (fits : ∀ block ∈ blocks, block.offset + block.length < ramAddrRange) :
    bound + ramBytesTotal blocks < ramAddrRange := by
  induction blocks generalizing bound with
  | nil => exact below
  | cons first rest ih =>
    obtain ⟨behind, sorted⟩ := pairwise_cons.mp sorted
    have start := above first mem_cons_self
    have total := ih (fits first mem_cons_self) sorted behind
      fun block member => fits block (mem_cons_of_mem _ member)
    have sum : ramBytesTotal (first :: rest) = first.length + ramBytesTotal rest := rfl
    omega

theorem sortRamList_perm (blocks : List RAMBlock) : (sortRamList blocks).Perm blocks :=
  perm_insertionSort _ blocks

theorem WellFormed.total_lt (wellFormed : WellFormed blocks) :
    ramBytesTotal (sortRamList blocks) < ramAddrRange := by
  have sorted := wellFormed.perm (sortRamList_perm blocks)
  have ordered : (sortRamList blocks).Pairwise fun a b => a.offset ≤ b.offset :=
    pairwise_insertionSort _ blocks
  have behind : (sortRamList blocks).Pairwise fun a b => a.offset + a.length ≤ b.offset := by
    refine (ordered.and sorted.disjoint).imp_of_mem fun _ member both => ?_
    have positive := sorted.positive _ member
    obtain ⟨order, apart⟩ := both
    unfold Apart at apart
    omega
  have total := total_lt_of_sorted (by decide) behind (fun _ _ => zero_le _) sorted.fits
  omega

theorem WellFormed.total_aligned (wellFormed : WellFormed blocks) :
    targetPageSize ∣ ramBytesTotal blocks := by
  refine dvd_sum fun length member => ?_
  obtain ⟨block, inList, rfl⟩ := mem_map.mp member
  exact (wellFormed.aligned block inList).2

end Totals

section Lists

variable {r : Incoming} {blocks listed : List RAMBlock} {tail : List (BitVec 8)}

/-- The part of the block list that `syncBlocks` reads. -/
def listedBlocks (blocks : List RAMBlock) : List (BitVec 8) :=
  blocks.flatMap fun block => wireName block ++ be 8 block.length

theorem syncBlocks_run (wellFormed : WellFormed blocks) (knows : Knows r blocks)
    (listed_mem : ∀ block ∈ listed, block ∈ blocks) {fuel : Nat} (enough : listed.length < fuel)
    (small : ramBytesTotal listed < ramAddrRange) :
    syncBlocks fuel (ramBytesTotal listed) (r.feed (listedBlocks listed ++ tail)) =
      (.ok (), r.feed tail) := by
  induction listed generalizing fuel with
  | nil =>
    obtain ⟨fuel, rfl⟩ := exists_eq_add_one.mpr (zero_lt_of_lt enough)
    rfl
  | cons block listed ih =>
    obtain ⟨fuel, rfl⟩ := exists_eq_add_one.mpr (zero_lt_of_lt enough)
    have member := listed_mem block mem_cons_self
    have positive := wellFormed.positive block member
    obtain ⟨short, noZero⟩ := wellFormed.strings block member
    obtain ⟨twin, found, -, length⟩ := knows.find member
    have sum : ramBytesTotal (block :: listed) = block.length + ramBytesTotal listed := rfl
    have bytes : listedBlocks (block :: listed) ++ tail =
        wireName block ++ (be 8 block.length ++ (listedBlocks listed ++ tail)) := by
      simp [listedBlocks]
    have rest : (block.length + ramBytesTotal listed + (ramAddrRange - block.length)) %
        ramAddrRange = ramBytesTotal listed := by
      have regroup : block.length + ramBytesTotal listed + (ramAddrRange - block.length) =
          ramBytesTotal listed + ramAddrRange := by omega
      rw [regroup, add_mod_right, mod_eq_of_lt (by omega)]
    have nonzero : block.length + ramBytesTotal listed ≠ 0 := by omega
    rw [bytes, sum, syncBlocks, if_neg nonzero, bind_of_ok (getIdstr_run short noZero),
      bind_of_ok (getRamAddr_run (by omega)), get_bind]
    have known : ((r.feed (listedBlocks listed ++ tail)).blocks.find? fun other =>
        decide (other.idstr = block.idstr)) = some twin := found
    simp only [known]
    rw [if_neg (by simp [length]), rest]
    exact ih (fun block member => listed_mem block (mem_cons_of_mem _ member))
      (by simpa using enough) (by omega)

theorem length_listedBlocks : listed.length ≤ (listedBlocks listed).length := by
  induction listed with
  | nil => exact zero_le _
  | cons block listed ih =>
    have cons : listedBlocks (block :: listed) =
        (wireName block ++ be 8 block.length) ++ listedBlocks listed := rfl
    rw [cons, length_append, length_append, wireName, length_cons, length_cons]
    omega

theorem loadRecord_blockList (wellFormed : WellFormed blocks) (knows : Knows r blocks) :
    loadRecord 4 (r.feed (blockList (sortRamList blocks) ++ tail)) =
      (.ok false, r.feed tail) := by
  have sorted := wellFormed.perm (sortRamList_perm blocks)
  have small := wellFormed.total_lt
  have aligned := sorted.total_aligned
  have bytes : blockList (sortRamList blocks) ++ tail =
      be 8 (ramBytesTotal (sortRamList blocks) ||| ramSaveFlagMemSize) ++
        (listedBlocks (sortRamList blocks) ++ tail) := by
    rfl
  have listed_mem : ∀ block ∈ sortRamList blocks, block ∈ blocks :=
    fun block member => (sortRamList_perm blocks).mem_iff.mp member
  rw [bytes]
  generalize sortRamList blocks = listed at *
  obtain ⟨sum, mod⟩ := header_split aligned
    (show ramSaveFlagMemSize < targetPageSize by decide)
  have fits : ramBytesTotal listed + ramSaveFlagMemSize < ramAddrRange := by
    simp only [targetPageSize, ramAddrRange, ramSaveFlagMemSize] at *
    omega
  have addr : ramBytesTotal listed + ramSaveFlagMemSize - ramSaveFlagMemSize =
    ramBytesTotal listed := Nat.add_sub_cancel _ _
  have synced : loadMemSize 4 (ramBytesTotal listed) (r.feed (listedBlocks listed ++ tail)) =
      (.ok (), r.feed tail) := by
    refine syncBlocks_run wellFormed knows listed_mem ?_ small
    have := @length_listedBlocks listed
    simp only [feed, length_append]
    omega
  rw [sum, loadRecord, bind_of_ok (getRamAddr_run fits)]
  simp only [mod, addr]
  rw [if_pos (by decide), bind_of_ok synced]
  rfl

theorem loadRecord_eos : loadRecord 4 (r.feed (be 8 ramSaveFlagEos ++ tail)) =
    (.ok true, r.feed tail) := by
  rw [loadRecord, bind_of_ok (getRamAddr_run (by decide))]
  rfl

end Lists

end Qemu.Migration
