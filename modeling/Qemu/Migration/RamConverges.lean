import Qemu.Migration.RamStream

/-!
# Migration converges

The incoming memory agrees with the outgoing one on every page that is not dirty, and the incoming
side remembers the block that the outgoing side will continue.  Guest writes keep this by setting
dirty bits, `ram_save_block` by sending what it clears; after stage 3 no page is dirty.
-/

namespace Qemu.Migration

open Prog List Nat

open Wire (be Feed)

variable {page : RAMBlock × Nat} {bytes : List (BitVec 8)} {twin : RAMBlock}

/-- What the guest, and the code that runs for it, does to RAM. -/
inductive GuestEvent where
  /-- A write to a block sets the migration dirty bit of the page. -/
  | write (block : RAMBlock) (offset : Nat) (value : BitVec 8)
  /-- `qemu_get_ram_ptr` moves a block to the start of the list. -/
  | touch (block : RAMBlock)

/-- The effect of an event on the outgoing side. -/
def GuestEvent.apply (s : Outgoing) : GuestEvent → Outgoing
  | .write block offset value =>
    if block ∈ s.blocks ∧ offset < block.length then
      { s with
        host := fun id at' =>
          if id = block.idstr ∧ at' = offset then value else s.host id at'
        physDirty := setDirty s.physDirty (block.offset + offset) }
    else s
  | .touch block =>
    if block ∈ s.blocks then { s with blocks := moveToFront s.blocks block } else s

/-- The events before a call of `ram_save_live`, and the answers of the rate limit during it. -/
structure Round where
  events : List GuestEvent
  limit : Nat → Bool

/-- A call of `ram_save_live`: the section that it writes. -/
def saveSection (stage : Int) (limit : Nat → Bool) : Prog Outgoing Empty (List (BitVec 8)) := do
  Prog.modify fun s => { s with file := [] }
  ramSaveLive stage limit
  let s ← Prog.get
  pure s.file

/-- The calls in stage 2, with the events before each. -/
def saveRounds : List Round → Prog Outgoing Empty (List (List (BitVec 8)))
  | [] => pure []
  | round :: rounds => do
      Prog.modify fun s => round.events.foldl GuestEvent.apply s
      let bytes ← saveSection 2 round.limit
      let others ← saveRounds rounds
      pure (bytes :: others)

variable (limit : Nat → Bool)

/-- Everything up to the start of stage 3. -/
def saveBefore (rounds : List Round) (events : List GuestEvent) :
    Prog Outgoing Empty (List (List (BitVec 8))) := do
  let first ← saveSection 1 limit
  let others ← saveRounds rounds
  Prog.modify fun s => events.foldl GuestEvent.apply s
  pure (first :: others)

/-- A call of `ram_load` on a section. -/
def loadSection (bytes : List (BitVec 8)) : Load Unit := do
  Prog.modify fun r => r.feed bytes
  ramLoad 4

/-- `ram_load` for each section. -/
def loadSections : List (List (BitVec 8)) → Load Unit := Prog.forEach loadSection

/-- The incoming side holds every page that is not dirty, and remembers the current block. -/
structure Mirrors (s : Outgoing) (r : Incoming) : Prop where
  knows : Knows r s.blocks
  remembers : ∀ block, s.lastBlock = some block → Remembers r block
  clean : ∀ page ∈ pages s.blocks, s.dirty page = false → ∀ i < targetPageSize,
    r.host page.1.idstr (page.2 + i) = s.host page.1.idstr (page.2 + i)

section Absorb

variable {r r' r'' : Incoming} {count count' : Nat} {bytes bytes' : List (BitVec 8)}

/-- The loop of `ram_load` reads the bytes in `count` rounds and goes on with what follows. -/
def Absorbs (count : Nat) (bytes : List (BitVec 8)) (r r' : Incoming) : Prop :=
  count ≤ bytes.length ∧ ∀ tail fuel,
    loadRecords 4 (fuel + count) (r.feed (bytes ++ tail)) = loadRecords 4 fuel (r'.feed tail)

theorem Absorbs.refl (r : Incoming) : Absorbs 0 [] r r := ⟨le_refl 0, fun _ _ => rfl⟩

theorem Absorbs.trans (first : Absorbs count bytes r r') (second : Absorbs count' bytes' r' r'') :
    Absorbs (count' + count) (bytes ++ bytes') r r'' := by
  refine ⟨?_, fun tail fuel => ?_⟩
  · rw [length_append]
    have := first.1
    have := second.1
    omega
  · rw [append_assoc, ← add_assoc, first.2, second.2]

theorem Absorbs.of_record (nonempty : 1 ≤ bytes.length)
    (run : ∀ tail, loadRecord 4 (r.feed (bytes ++ tail)) = (.ok false, r'.feed tail)) :
    Absorbs 1 bytes r r' := by
  refine ⟨nonempty, fun tail fuel => ?_⟩
  rw [loadRecords, bind_of_ok (run tail), if_neg Bool.false_ne_true]

/-- A section that ends with the end mark is loaded without an error. -/
theorem Absorbs.load (absorbs : Absorbs count bytes r r') :
    ramLoad 4 (r.feed (bytes ++ be 8 ramSaveFlagEos)) = (.ok (), r'.feed []) := by
  obtain ⟨short, run⟩ := absorbs
  have length : (r.feed (bytes ++ be 8 ramSaveFlagEos)).file.rest.length = bytes.length + 8 := by
    rw [Incoming.feed, length_append, Wire.length_be]
  obtain ⟨fuel, split⟩ : ∃ fuel, bytes.length + 8 + 1 = fuel + 1 + count :=
    ⟨bytes.length + 8 - count, by omega⟩
  have eos := @loadRecord_eos r' []
  rw [append_nil] at eos
  rw [ramLoad, if_neg (by decide), get_bind, length, split, run, loadRecords, bind_of_ok eos]
  rfl

end Absorb

section Carry

variable {s s' s'' : Outgoing} {r : Incoming}

/-- What a part of `ram_save_live` does: it writes records that the incoming side can read, and
reading them keeps the two sides in step. -/
structure Carries (s s' : Outgoing) : Prop where
  settled : Settled s'
  host : s'.host = s.host
  blocks : s'.blocks = s.blocks
  wire : ∃ bytes, s'.file = s.file ++ bytes ∧ ∀ r, Mirrors s r →
    ∃ count r', Absorbs count bytes r r' ∧ Mirrors s' r'

theorem Carries.refl (settled : Settled s) : Carries s s where
  settled := settled
  host := rfl
  blocks := rfl
  wire := ⟨[], (append_nil _).symm, fun r mirrors => ⟨0, r, Absorbs.refl r, mirrors⟩⟩

theorem Carries.trans (first : Carries s s') (second : Carries s' s'') : Carries s s'' where
  settled := second.settled
  host := second.host.trans first.host
  blocks := second.blocks.trans first.blocks
  wire := by
    obtain ⟨bytes, file, read⟩ := first.wire
    obtain ⟨bytes', file', read'⟩ := second.wire
    refine ⟨bytes ++ bytes', by rw [file', file, append_assoc], fun r mirrors => ?_⟩
    obtain ⟨count, r', absorbs, mirrors'⟩ := read r mirrors
    obtain ⟨count', r'', absorbs', mirrors''⟩ := read' r' mirrors'
    exact ⟨_, r'', absorbs.trans absorbs', mirrors''⟩

theorem pageRecord_length (host : HostMemory) (block : RAMBlock) (offset : Nat) (cont : Bool) :
    1 ≤ (pageRecord host block offset cont).length := by
  unfold pageRecord
  simp only
  split <;> rw [length_append, length_append, Wire.length_be] <;> omega

theorem storeBytes_outside {host : HostMemory} {offset place : Nat} {id : Idstr}
    (outside : id = twin.idstr → place < offset ∨ offset + bytes.length ≤ place) :
    storeBytes host (twin, offset) bytes id place = host id place := by
  unfold storeBytes
  split
  case isTrue here =>
    have behind : bytes.length ≤ place - offset := by
      have := outside here.1
      omega
    rw [getElem?_eq_none behind, Option.getD_none]
  case isFalse => rfl

/-- Sending a page and storing it keeps the two sides in step. -/
theorem Mirrors.sent (wellFormed : WellFormed s.blocks) (mirrors : Mirrors s r)
    (member : page ∈ pages s.blocks) (name : twin.idstr = page.1.idstr) :
    Mirrors (s.sent page) (r.stored twin page.2 (pageBytes s.host page.1 page.2)) where
  knows := ⟨mirrors.knows.distinct, mirrors.knows.known⟩
  remembers block last := by
    cases last
    exact ⟨twin, rfl, name⟩
  clean other member' isClean i inside := by
    by_cases same : other = page
    · subst same
      have found : (pageBytes s.host other.1 other.2)[i]? =
          some (pageAt s.host other.1 other.2 i) := by
        rw [pageBytes, getElem?_map, getElem?_range inside, Option.map_some]
      rw [← name]
      show storeBytes _ _ _ _ _ = s.host _ _
      simp [storeBytes, found, pageAt, name]
    · have before : s.dirty other = false := by
        rw [sent_dirty wellFormed member member'] at isClean
        simpa [same] using isClean
      refine Eq.trans (storeBytes_outside fun sameName => ?_)
        (mirrors.clean other member' before i inside)
      rw [pageBytes, length_map, length_range]
      exact wellFormed.page_apart member member' (sameName.trans name) same inside

section

variable (settled : Settled s)

include settled

theorem Carries.sent (member : page ∈ pages s.blocks) :
    Carries s (s.sent page) where
  settled := settled.sent member
  host := rfl
  blocks := rfl
  wire := by
    refine ⟨_, rfl, fun r mirrors => ?_⟩
    have remembers : decide (some page.1 = s.lastBlock) = true → Remembers r page.1 :=
      fun last => mirrors.remembers page.1 (of_decide_eq_true last).symm
    obtain ⟨twin, name, run⟩ :=
      loadRecord_page settled.wellFormed mirrors.knows member remembers
    exact ⟨1, _, Absorbs.of_record (pageRecord_length _ _ _ _) run,
      mirrors.sent settled.wellFormed member name⟩

theorem Carries.transfer (count : Nat) : Carries s (s.transfer count) where
  settled := { settled with }
  host := rfl
  blocks := rfl
  wire := ⟨[], (append_nil _).symm, fun r mirrors =>
    ⟨0, r, Absorbs.refl r, { mirrors with }⟩⟩

/-- A call of `ram_save_block` sends a dirty page, or there is none. -/
theorem ramSaveBlock_carries :
    (∃ sent s', ramSaveBlock s = (.ok sent, s') ∧ sent ≠ 0 ∧ Carries s s' ∧
      dirtyCount s' < dirtyCount s) ∨
    (ramSaveBlock s = (.ok 0, s) ∧ ∀ page ∈ pages s.blocks, s.dirty page = false) := by
  rcases ramSaveBlock_cases settled with ⟨page, member, dirty, run⟩ | ⟨clean, run⟩
  · exact .inl ⟨_, _, run, bytesSent_ne_zero _ _ _, Carries.sent settled member,
      dirtyCount_sent settled.wellFormed member dirty⟩
  · exact .inr ⟨run, clean⟩

theorem sendLimited_carries {fuel : Nat} (enough : dirtyCount s < fuel)
    (k : Nat) : ∃ s', sendLimited limit fuel k s = (.ok (), s') ∧ Carries s s' := by
  induction fuel generalizing s k with
  | zero => exact absurd enough (not_lt_zero _)
  | succ fuel ih =>
    rw [sendLimited]
    split
    · exact ⟨s, rfl, Carries.refl settled⟩
    rcases ramSaveBlock_carries settled with ⟨sent, s', run, some, carries, fewer⟩ | ⟨run, -⟩
    · have counted := Carries.transfer carries.settled sent
      obtain ⟨s'', rest, carries'⟩ :=
        ih counted.settled (lt_of_lt_of_le fewer (le_of_lt_succ enough)) (k + 1)
      refine ⟨s'', ?_, (carries.trans counted).trans carries'⟩
      rw [bind_of_ok run, modify_bind, if_neg some, rest]
    · refine ⟨s.transfer 0, ?_, Carries.transfer settled 0⟩
      rw [bind_of_ok run, modify_bind, if_pos rfl, pure_apply]

theorem flush_carries {fuel : Nat} (enough : dirtyCount s < fuel) :
    ∃ s', flush fuel s = (.ok (), s') ∧ Carries s s' ∧
      ∀ page ∈ pages s'.blocks, s'.dirty page = false := by
  induction fuel generalizing s with
  | zero => exact absurd enough (not_lt_zero _)
  | succ fuel ih =>
    rw [flush]
    rcases ramSaveBlock_carries settled with ⟨sent, s', run, some, carries, fewer⟩ | ⟨run, clean⟩
    · have counted := Carries.transfer carries.settled sent
      obtain ⟨s'', rest, carries', clean⟩ :=
        ih counted.settled (lt_of_lt_of_le fewer (le_of_lt_succ enough))
      refine ⟨s'', ?_, (carries.trans counted).trans carries', clean⟩
      rw [bind_of_ok run, if_neg some, modify_bind, rest]
    · refine ⟨s, ?_, Carries.refl settled, clean⟩
      rw [bind_of_ok run, if_pos rfl, pure_apply]

end

end Carry

section Start

variable {s : Outgoing} {r : Incoming} {bits : Nat → BitVec 8} {addr addr' : Nat}

theorem getDirty_markPage :
    getDirty (markPage bits addr) addr' =
      (decide (addr' / targetPageSize = addr / targetPageSize) || getDirty bits addr') := by
  unfold markPage
  split
  case isTrue already =>
    by_cases same : addr' / targetPageSize = addr / targetPageSize
    · have dirty : getDirty bits addr' = true := by rw [getDirty, same]; exact already
      simp [dirty]
    · simp [same]
  case isFalse => exact getDirty_setDirty

/-- Marking a list of pages sets their dirty bits and clears none. -/
theorem getDirty_markPages (block : RAMBlock) (offsets : List Nat) (bits : Nat → BitVec 8) :
    getDirty (offsets.foldl (fun bits offset => markPage bits (block.offset + offset)) bits) addr =
      (decide (∃ offset ∈ offsets,
        addr / targetPageSize = (block.offset + offset) / targetPageSize) ||
        getDirty bits addr) := by
  induction offsets generalizing bits with
  | nil => simp
  | cons offset offsets ih =>
    rw [foldl_cons, ih, getDirty_markPage, ← Bool.or_assoc, Bool.or_comm (decide _)]
    simp [Bool.or_assoc]

theorem markAll_dirty {blocks : List RAMBlock}
    (dirty : page ∈ pages blocks ∨ getDirty bits (pageAddr page) = true) :
    getDirty (markAll blocks bits) (pageAddr page) = true := by
  induction blocks generalizing bits with
  | nil => exact dirty.resolve_left (by simp [pages])
  | cons block blocks ih =>
    refine ih ?_
    rw [getDirty_markPages]
    rcases dirty with member | already
    · have cons : pages (block :: blocks) = blockPages block ++ pages blocks := rfl
      rw [cons, mem_append] at member
      rcases member with here | later
      · obtain ⟨offset, inside, rfl⟩ := mem_map.mp here
        have listed : ∃ offset' ∈ pageOffsets block,
            pageAddr (block, offset) / targetPageSize =
              (block.offset + offset') / targetPageSize := ⟨offset, inside, rfl⟩
        simp [listed]
      · exact .inl later
    · exact .inr (by simp [already])

theorem Settled.start (wellFormed : WellFormed s.blocks) (nonempty : s.blocks ≠ []) :
    Settled s.start where
  wellFormed := wellFormed.perm (sortRamList_perm s.blocks)
  nonempty empty := nonempty (perm_nil.mp (empty ▸ (sortRamList_perm s.blocks).symm))
  fresh _ := ⟨rfl, fun _ member => markAll_dirty (.inl member)⟩
  resting := nofun

theorem Mirrors.start (knows : Knows r s.blocks) : Mirrors s.start r where
  knows := ⟨knows.distinct, fun block member =>
    knows.known block ((sortRamList_perm s.blocks).mem_iff.mp member)⟩
  remembers := nofun
  clean page member clean := by
    have dirty : s.start.dirty page = true := markAll_dirty (.inl member)
    rw [dirty] at clean
    cases clean

end Start

section Sections

variable {s s' : Outgoing} {r : Incoming}

theorem finish_run (settled : Settled s) :
    ∃ s', finish s = (.ok (), s') ∧ Carries s s' ∧
      ∀ page ∈ pages s'.blocks, s'.dirty page = false := by
  obtain ⟨s', run, carries, clean⟩ := flush_carries settled (lt_succ_of_le (dirtyCount_le s))
  refine ⟨{ s' with inMigration := false }, ?_, ?_, clean⟩
  · rw [finish, get_bind, bind_of_ok run, setDirtyTracking, modify_apply]
  · obtain ⟨settled', host, blocks, bytes, file, read⟩ := carries
    refine ⟨{ settled' with }, host, blocks, bytes, file, fun r mirrors => ?_⟩
    obtain ⟨count, r', absorbs, mirrors'⟩ := read r mirrors
    exact ⟨count, r', absorbs, { mirrors' with }⟩

/-- The state in which `ram_save_live` starts to send pages. -/
def Outgoing.entered (s : Outgoing) (stage : Int) : Outgoing := if stage = 1 then s.start else s

/-- A call of `ram_save_live` carries pages over and writes the end mark; in stage 3 it leaves no
page dirty. -/
theorem ramSaveLive_run {stage : Int} (forward : 0 ≤ stage) (settled : Settled (s.entered stage)) :
    ∃ s', ramSaveLive stage limit s =
        (.ok (), { s' with file := s'.file ++ be 8 ramSaveFlagEos }) ∧
      Carries (s.entered stage) s' ∧
      (stage = 3 → ∀ page ∈ pages s'.blocks, s'.dirty page = false) := by
  obtain ⟨s', run, carries⟩ := sendLimited_carries limit settled
    (lt_succ_of_le (dirtyCount_le _)) 0
  have entered : ramSaveLive stage limit s = (do
      if stage = 3 then finish else pure ()
      putBytes (be 8 ramSaveFlagEos)) s' := by
    rw [ramSaveLive, if_neg (not_lt.mpr forward), modify_bind, get_bind]
    exact bind_of_ok run
  rw [entered]
  by_cases last : stage = 3
  · obtain ⟨s'', finished, carries', clean⟩ := finish_run carries.settled
    refine ⟨s'', ?_, carries.trans carries', fun _ => clean⟩
    rw [if_pos last, bind_of_ok finished]
    rfl
  · refine ⟨s', ?_, carries, fun absurdly => absurd absurdly last⟩
    rw [if_neg last]
    rfl

/-- The incoming side loads the sections without an error and is then in step. -/
def Delivers (ready : Incoming → Prop) (sections : List (List (BitVec 8))) (s : Outgoing) : Prop :=
  ∀ r, ready r → ∃ r', loadSections sections r = (.ok (), r') ∧ Mirrors s r'

theorem Delivers.trans {ready : Incoming → Prop} {first second : List (List (BitVec 8))}
    (early : Delivers ready first s) (late : Delivers (Mirrors s) second s') :
    Delivers ready (first ++ second) s' := by
  intro r isReady
  obtain ⟨r', run, mirrors⟩ := early r isReady
  obtain ⟨r'', run', mirrors'⟩ := late r' mirrors
  refine ⟨r'', ?_, mirrors'⟩
  rw [loadSections, forEach_append]
  exact (bind_of_ok run).trans run'

/-- A section of records and the end mark brings the incoming side in step. -/
theorem Absorbs.delivered {count : Nat} {r' : Incoming} (absorbs : Absorbs count bytes r r')
    (mirrors : Mirrors s r') :
    ∃ r'', loadSections [bytes ++ be 8 ramSaveFlagEos] r = (.ok (), r'') ∧ Mirrors s r'' := by
  refine ⟨r'.feed [], ?_, { mirrors with knows := { mirrors.knows with } }⟩
  have load : loadSection (bytes ++ be 8 ramSaveFlagEos) r = (.ok (), r'.feed []) := by
    rw [loadSection, modify_bind, absorbs.load]
  exact bind_of_ok load

/-- The outgoing side with an empty file. -/
def Outgoing.emptied (s : Outgoing) : Outgoing := { s with file := [] }

theorem saveSection_run {stage : Int} {limit : Nat → Bool} {after : Outgoing}
    (run : ramSaveLive stage limit s.emptied = (.ok (), after)) :
    saveSection stage limit s = (.ok after.file, after) := by
  exact bind_of_ok run

theorem saveSection_later {stage : Int} (later : stage = 2 ∨ stage = 3) (settled : Settled s) :
    ∃ bytes s', saveSection stage limit s = (.ok bytes, s') ∧ Settled s' ∧ s'.host = s.host ∧
      s'.blocks = s.blocks ∧ Delivers (Mirrors s) [bytes] s' ∧
      (stage = 3 → ∀ page ∈ pages s'.blocks, s'.dirty page = false) := by
  have entered : s.emptied.entered stage = s.emptied := if_neg (by omega)
  have ready : Settled (s.emptied.entered stage) := by
    rw [entered]
    exact { settled with }
  obtain ⟨s', run, carries, clean⟩ := ramSaveLive_run limit (by omega) ready
  rw [entered] at carries
  obtain ⟨settled', host, blocks, bytes, file, read⟩ := carries
  refine ⟨_, _, saveSection_run run, { settled' with }, host, blocks,
    fun r mirrors => ?_, clean⟩
  obtain ⟨count, r', absorbs, mirrors'⟩ :=
    read r { mirrors with }
  rw [file]
  exact absorbs.delivered { mirrors' with }

theorem saveSection_first (wellFormed : WellFormed s.blocks) (nonempty : s.blocks ≠ []) :
    ∃ bytes s', saveSection 1 limit s = (.ok bytes, s') ∧ Settled s' ∧ s'.host = s.host ∧
      s'.blocks = sortRamList s.blocks ∧ Delivers (fun r => Knows r s.blocks) [bytes] s' := by
  have ready : Settled (s.emptied.entered 1) := by
    exact Settled.start wellFormed nonempty
  obtain ⟨s', run, carries, -⟩ := ramSaveLive_run limit (by decide) ready
  obtain ⟨settled', host, blocks, bytes, file, read⟩ := carries
  refine ⟨_, _, saveSection_run run, { settled' with }, host, blocks,
    fun r knows => ?_⟩
  obtain ⟨count, r', absorbs, mirrors⟩ := read r (Mirrors.start knows)
  have listed : Absorbs 1 (blockList (sortRamList s.blocks)) r r := by
    refine Absorbs.of_record ?_ fun tail => loadRecord_blockList wellFormed knows
    rw [blockList, length_append, Wire.length_be]
    omega
  have opened : s'.file = blockList (sortRamList s.blocks) ++ bytes := file
  rw [opened]
  exact (listed.trans absorbs).delivered { mirrors with }

end Sections

section Events

variable {s : Outgoing} {r : Incoming}

theorem mem_pages_of_perm {blocks blocks' : List RAMBlock} (perm : blocks'.Perm blocks) :
    page ∈ pages blocks' ↔ page ∈ pages blocks := by
  rw [mem_pages, mem_pages, perm.mem_iff]

/-- What an event leaves alone: the set of blocks and the position of the walk; and it clears no
dirty bit. -/
structure Disturbs (s s' : Outgoing) : Prop where
  perm : s'.blocks.Perm s.blocks
  lastBlock : s'.lastBlock = s.lastBlock
  lastOffset : s'.lastOffset = s.lastOffset
  dirty : ∀ page, s.dirty page = true → s'.dirty page = true

theorem Disturbs.refl (s : Outgoing) : Disturbs s s := ⟨.refl _, rfl, rfl, fun _ => id⟩

theorem GuestEvent.disturbs (event : GuestEvent) (s : Outgoing) : Disturbs s (event.apply s) := by
  cases event with
  | write block offset value =>
    rw [apply]
    split
    · refine ⟨.refl _, rfl, rfl, fun page dirty => ?_⟩
      have : getDirty s.physDirty (pageAddr page) = true := dirty
      rw [Outgoing.dirty, getDirty_setDirty, this, Bool.or_true]
    · exact Disturbs.refl s
  | touch block =>
    rw [apply]
    split
    case isTrue member => exact ⟨(perm_cons_erase member).symm, rfl, rfl, fun _ => id⟩
    case isFalse => exact Disturbs.refl s

theorem Settled.disturb {s' : Outgoing} (settled : Settled s) (disturbs : Disturbs s s') :
    Settled s' where
  wellFormed := settled.wellFormed.perm disturbs.perm
  nonempty empty := settled.nonempty (perm_nil.mp (empty ▸ disturbs.perm.symm))
  fresh none := by
    obtain ⟨zero, dirty⟩ := settled.fresh (disturbs.lastBlock ▸ none)
    refine ⟨disturbs.lastOffset.trans zero, fun page member => disturbs.dirty page ?_⟩
    exact dirty page ((mem_pages_of_perm disturbs.perm).mp member)
  resting block last := by
    rw [mem_pages_of_perm disturbs.perm, disturbs.lastOffset]
    exact settled.resting block (disturbs.lastBlock ▸ last)

/-- A write either sets the dirty bit of a page or leaves the page alone. -/
theorem write_clean (wellFormed : WellFormed s.blocks) {block : RAMBlock} {offset : Nat}
    (member : block ∈ s.blocks) (listed : page ∈ pages s.blocks)
    (clean : getDirty (setDirty s.physDirty (block.offset + offset)) (pageAddr page) = false)
    {i : Nat} (inside : i < targetPageSize) :
    ¬ (page.1.idstr = block.idstr ∧ page.2 + i = offset) := by
  rintro ⟨sameName, rfl⟩
  obtain ⟨inList, ⟨k, place⟩, -⟩ := mem_pages.mp listed
  have sameBlock : page.1 = block :=
    inj_on_of_nodup_map wellFormed.distinct inList member sameName
  obtain ⟨n, aligned⟩ := (wellFormed.aligned block member).1
  rw [getDirty_setDirty, Bool.or_eq_false_iff, decide_eq_false_iff_not] at clean
  refine clean.1 ?_
  rw [pageAddr, sameBlock]
  simp only [targetPageSize] at *
  omega

theorem Mirrors.apply (wellFormed : WellFormed s.blocks) (mirrors : Mirrors s r)
    (event : GuestEvent) : Mirrors (event.apply s) r := by
  have disturbs := event.disturbs s
  refine ⟨⟨mirrors.knows.distinct, fun block member => ?_⟩, ?_, ?_⟩
  · exact mirrors.knows.known block (disturbs.perm.mem_iff.mp member)
  · rw [disturbs.lastBlock]
    exact mirrors.remembers
  · intro page member clean i inside
    have listed := (mem_pages_of_perm disturbs.perm).mp member
    have before : s.dirty page = false := by
      cases dirty : s.dirty page with
      | false => rfl
      | true => exact absurd (disturbs.dirty page dirty) (by simp [clean])
    rw [mirrors.clean page listed before i inside]
    cases event with
    | write block offset value =>
      rw [GuestEvent.apply] at clean ⊢
      split
      case isTrue valid =>
        rw [if_pos valid] at clean
        exact (if_neg (write_clean wellFormed valid.1 listed clean inside)).symm
      case isFalse => rfl
    | touch block =>
      rw [GuestEvent.apply]
      split <;> rfl

theorem events_keep (events : List GuestEvent) (settled : Settled s) :
    Settled (events.foldl GuestEvent.apply s) ∧
      (events.foldl GuestEvent.apply s).blocks.Perm s.blocks ∧
      ∀ r, Mirrors s r → Mirrors (events.foldl GuestEvent.apply s) r := by
  induction events generalizing s with
  | nil => exact ⟨settled, .refl _, fun _ => id⟩
  | cons event events ih =>
    have disturbs := event.disturbs s
    obtain ⟨settled', perm, mirrors⟩ := ih (settled.disturb disturbs)
    exact ⟨settled', perm.trans disturbs.perm,
      fun r before => mirrors r (before.apply settled.wellFormed event)⟩

end Events

section Migration

variable {s : Outgoing}

theorem saveRounds_run (rounds : List Round) (settled : Settled s) :
    ∃ sections s', saveRounds rounds s = (.ok sections, s') ∧ Settled s' ∧
      s'.blocks.Perm s.blocks ∧ Delivers (Mirrors s) sections s' := by
  induction rounds generalizing s with
  | nil => exact ⟨[], s, rfl, settled, .refl _, fun r mirrors => ⟨r, rfl, mirrors⟩⟩
  | cons round rounds ih =>
    obtain ⟨settled₁, perm₁, keeps⟩ := events_keep round.events settled
    obtain ⟨bytes, s₂, run₂, settled₂, -, blocks₂, delivers₂, -⟩ :=
      saveSection_later round.limit (.inl rfl) settled₁
    obtain ⟨sections, s₃, run₃, settled₃, perm₃, delivers₃⟩ := ih settled₂
    refine ⟨bytes :: sections, s₃, ?_, settled₃, ?_, ?_⟩
    · rw [saveRounds, modify_bind, bind_of_ok run₂, bind_of_ok run₃]
      rfl
    · exact perm₃.trans (blocks₂ ▸ perm₁)
    · have early : Delivers (Mirrors s) [bytes] s₂ :=
        fun r mirrors => delivers₂ r (keeps r mirrors)
      exact early.trans delivers₃

/-- Migration converges: whatever the guest does between the calls and however the file is limited,
the sections of the three stages can be written and loaded, and loading them leaves the incoming
side with the memory that the outgoing side has when stage 3 starts. -/
theorem migration_converges (s : Outgoing) (r : Incoming) (wellFormed : WellFormed s.blocks)
    (nonempty : s.blocks ≠ []) (knows : Knows r s.blocks) (firstLimit : Nat → Bool)
    (rounds : List Round) (last : Round) :
    ∃ sections s₃ final s₄ r', saveBefore firstLimit rounds last.events s = (.ok sections, s₃) ∧
      saveSection 3 last.limit s₃ = (.ok final, s₄) ∧ s₄.host = s₃.host ∧
      loadSections (sections ++ [final]) r = (.ok (), r') ∧
      ∀ block ∈ s.blocks, ∀ offset < block.length,
        r'.host block.idstr offset = s₃.host block.idstr offset := by
  obtain ⟨first, s₁, run₁, settled₁, -, blocks₁, delivers₁⟩ :=
    saveSection_first firstLimit wellFormed nonempty
  obtain ⟨others, s₂, run₂, settled₂, perm₂, delivers₂⟩ := saveRounds_run rounds settled₁
  obtain ⟨settled₃, perm₃, keeps⟩ := events_keep last.events settled₂
  obtain ⟨final, s₄, run₄, settled₄, host₄, blocks₄, delivers₄, clean⟩ :=
    saveSection_later last.limit (.inr rfl) settled₃
  have delivers := (Delivers.trans delivers₁ delivers₂).trans
    fun r mirrors => delivers₄ r (keeps r mirrors)
  obtain ⟨r', loaded, mirrors⟩ := delivers r knows
  refine ⟨first :: others, _, final, s₄, r', ?_, run₄, host₄, loaded, ?_⟩
  · rw [saveBefore, bind_of_ok run₁, bind_of_ok run₂, modify_bind]
    rfl
  intro block member offset inside
  have listed : block ∈ s₄.blocks := by
    rw [blocks₄, perm₃.mem_iff, perm₂.mem_iff, blocks₁]
    exact (sortRamList_perm s.blocks).mem_iff.mpr member
  have page : (block, targetPageSize * (offset / targetPageSize)) ∈ pages s₄.blocks :=
    mem_pages.mpr ⟨listed, dvd_mul_right _ _, lt_of_le_of_lt (mul_div_le _ _) inside⟩
  have agree := mirrors.clean _ page (clean rfl _ page) (offset % targetPageSize)
    (mod_lt _ (by decide))
  simp only [div_add_mod] at agree
  rw [agree, host₄]

/-- A machine with one page of RAM. -/
def onePage : RAMBlock := ⟨[0x61], 0, 4096⟩

/-- An outgoing side on which nothing has been sent. -/
def idle (blocks : List RAMBlock) : Outgoing where
  blocks := blocks
  host _ _ := 0
  physDirty _ := 0
  lastBlock := none
  lastOffset := 0
  bytesTransferred := 0
  inMigration := false
  file := []

theorem onePage_converges :
    ∃ sections s₃ final s₄ r',
      saveBefore (fun _ => true) [⟨[], fun _ => false⟩] [.write onePage 5 1] (idle [onePage]) =
        (.ok sections, s₃) ∧
      saveSection 3 (fun _ => true) s₃ = (.ok final, s₄) ∧ s₄.host = s₃.host ∧
      loadSections (sections ++ [final]) ⟨[onePage], fun _ _ => 7, none, ⟨[], false⟩, []⟩ =
        (.ok (), r') ∧
      ∀ block ∈ [onePage], ∀ offset < block.length,
        r'.host block.idstr offset = s₃.host block.idstr offset := by
  have wellFormed : WellFormed [onePage] := by constructor <;> decide
  have knows : Knows ⟨[onePage], fun _ _ => 7, none, ⟨[], false⟩, []⟩ [onePage] :=
    ⟨by decide, fun block member => ⟨block, member, rfl, rfl⟩⟩
  exact migration_converges (idle [onePage]) _ wellFormed (by decide) knows _ _
    ⟨[.write onePage 5 1], fun _ => true⟩

/-- Without a block, or with a single block of length zero, `ram_save_block` follows a null
pointer. -/
theorem noPages_aborts :
    (saveSection 1 (fun _ => false) (idle [])).1 = .abort ∧
      (saveSection 1 (fun _ => false) (idle [⟨[0x61], 0, 0⟩])).1 = .abort :=
  ⟨rfl, rfl⟩

end Migration

end Qemu.Migration
