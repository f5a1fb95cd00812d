import Qemu.Migration.RamStream

/-!
# What an incoming stream can write

`ram_load` never looks at the memory it fills, so a stream stands for a list of stores.  A store
goes to the block the stream names and to the offset the stream gives, with nothing to hold the two
together: it stays inside the block if and only if the records of the stream do.
-/

namespace Qemu.Migration

open Prog List Incoming Wire

variable {α β : Type} {r : Incoming} (fuel total : Nat) (addr flags : Nat)

/-! ## Stores -/

/-- Bytes stored at an offset of a block. -/
structure Store where
  block : RAMBlock
  offset : Nat
  bytes : List (BitVec 8)

def storeAll (host : HostMemory) (stores : List Store) : HostMemory :=
  stores.foldl (fun host store => storeBytes host (store.block, store.offset) store.bytes) host

/-- A store writes to an offset of the memory of a name. -/
def Store.Covers (store : Store) (id : Idstr) (offset : Nat) : Prop :=
  id = store.block.idstr ∧ store.offset ≤ offset ∧ offset < store.offset + store.bytes.length

theorem storeBytes_of_covers {store : Store} {id : Idstr} {offset : Nat}
    (covers : store.Covers id offset) :
    ∃ byte, ∀ host, storeBytes host (store.block, store.offset) store.bytes id offset = byte := by
  obtain ⟨name, low, high⟩ := covers
  have index : offset - store.offset < store.bytes.length := by omega
  refine ⟨store.bytes[offset - store.offset], fun host => ?_⟩
  rw [storeBytes, if_pos ⟨name, low⟩, getElem?_eq_getElem index, Option.getD_some]

theorem storeBytes_of_not_covers {store : Store} {id : Idstr} {offset : Nat}
    (apart : ¬ store.Covers id offset) (host : HostMemory) :
    storeBytes host (store.block, store.offset) store.bytes id offset = host id offset := by
  unfold storeBytes
  split_ifs with inside
  · have behind : store.bytes.length ≤ offset - store.offset := by
      by_contra within
      exact apart ⟨inside.1, inside.2, by omega⟩
    rw [getElem?_eq_none behind, Option.getD_none]
  · rfl

/-- A place that some store covers holds a byte of the stream in the end, any other what it held
before. -/
theorem storeAll_place (stores : List Store) (id : Idstr) (offset : Nat) :
    ((∃ store ∈ stores, store.Covers id offset) ∧
        ∃ byte, ∀ host, storeAll host stores id offset = byte) ∨
      ((∀ store ∈ stores, ¬ store.Covers id offset) ∧
        ∀ host, storeAll host stores id offset = host id offset) := by
  induction stores with
  | nil => exact .inr ⟨by simp, fun _ => rfl⟩
  | cons store rest ih =>
    rcases ih with ⟨⟨later, member, covers⟩, byte, last⟩ | ⟨apart, kept⟩
    · exact .inl ⟨⟨later, mem_cons_of_mem _ member, covers⟩, byte, fun host => last _⟩
    · by_cases covers : store.Covers id offset
      · obtain ⟨byte, stored⟩ := storeBytes_of_covers covers
        exact .inl ⟨⟨store, mem_cons_self, covers⟩, byte,
          fun host => (kept _).trans (stored host)⟩
      · refine .inr ⟨?_, fun host => (kept _).trans (storeBytes_of_not_covers covers host)⟩
        intro other member
        rcases mem_cons.mp member with rfl | member
        · exact covers
        · exact apart other member

theorem changed_iff_covered (stores : List Store) (id : Idstr) (offset : Nat) :
    (∃ host, storeAll host stores id offset ≠ host id offset) ↔
      ∃ store ∈ stores, store.Covers id offset := by
  rcases storeAll_place stores id offset with ⟨covered, byte, stored⟩ | ⟨apart, kept⟩
  · refine ⟨fun _ => covered, fun _ => ⟨fun _ _ => byte + 1, ?_⟩⟩
    rw [stored]
    exact fun same => by simp at same
  · constructor
    · rintro ⟨host, changed⟩
      exact absurd (kept host) changed
    · rintro ⟨store, member, covers⟩
      exact absurd covers (apart store member)

/-! ## Programs that read the stream -/

/-- The same machine with other contents of its memory. -/
def Incoming.withHost (r : Incoming) (host : HostMemory) : Incoming := { r with host := host }

/-- The block of the previous record is one of the machine's. -/
def Incoming.Known (r : Incoming) : Prop := ∀ block, r.block = some block → block ∈ r.blocks

/-- A program reads forward in the stream and keeps the blocks. -/
structure Streams (program : Load α) : Prop where
  shorter : ∀ r, (program r).2.file.rest.length ≤ r.file.rest.length
  failed : ∀ r, r.file.failed = true → (program r).2.file.failed = true
  blocks : ∀ r, (program r).2.blocks = r.blocks
  known : ∀ r, r.Known → (program r).2.Known

/-- A program neither reads nor writes the memory. -/
def Quiet (program : Load α) : Prop :=
  ∀ r host, program (r.withHost host) = ((program r).1, (program r).2.withHost host)

section Rules

variable {first : Load α} {next : α → Load β}

theorem streams_fixed {outcome : Outcome LoadError α} : Streams fun r => (outcome, r) where
  shorter _ := le_refl _
  failed _ failed := failed
  blocks _ := rfl
  known _ known := known

theorem streams_bind (firstStreams : Streams first) (nextStreams : ∀ value, Streams (next value)) :
    Streams (first >>= next) where
  shorter r := bind_state (firstStreams.shorter r) fun value after before =>
    ((nextStreams value).shorter after).trans before
  failed r failed := bind_state (firstStreams.failed r failed) fun value after before =>
    (nextStreams value).failed after before
  blocks r := bind_state (firstStreams.blocks r) fun value after before =>
    ((nextStreams value).blocks after).trans before
  known r known := bind_state (firstStreams.known r known) fun value after before =>
    (nextStreams value).known after before

theorem streams_get {next : Incoming → Load α} (nextStreams : ∀ r, Streams (next r)) :
    Streams (get >>= next) where
  shorter r := (nextStreams r).shorter r
  failed r := (nextStreams r).failed r
  blocks r := (nextStreams r).blocks r
  known r := (nextStreams r).known r

theorem streams_ite {condition : Prop} [Decidable condition] {yes no : Load α}
    (yesStreams : Streams yes) (noStreams : Streams no) :
    Streams (if condition then yes else no) := by
  split_ifs
  · exact yesStreams
  · exact noStreams

/-- A read of the stream goes forward, and an error stays. -/
def Forward (feed after : Feed) : Prop :=
  after.rest.length ≤ feed.rest.length ∧ (feed.failed = true → after.failed = true)

theorem streams_fetch {read : Feed → α × Feed} (forward : ∀ feed, Forward feed (read feed).2) :
    Streams (fetch read) where
  shorter r := (forward r.file).1
  failed r := (forward r.file).2
  blocks _ := rfl
  known _ known := known

theorem quiet_bind (firstQuiet : Quiet first) (nextQuiet : ∀ value, Quiet (next value)) :
    Quiet (first >>= next) := by
  intro r host
  rw [bind_apply, bind_apply, firstQuiet r host]
  rcases first r with ⟨value | code | _ | _, after⟩
  · exact nextQuiet value after host
  all_goals rfl

theorem quiet_get {next : Incoming → Load α} (nextQuiet : ∀ r, Quiet (next r))
    (blind : ∀ r host, next (r.withHost host) = next r) : Quiet (get >>= next) := by
  intro r host
  rw [get_bind, get_bind, blind]
  exact nextQuiet r r host

theorem quiet_ite {condition : Prop} [Decidable condition] {yes no : Load α}
    (yesQuiet : Quiet yes) (noQuiet : Quiet no) : Quiet (if condition then yes else no) := by
  split_ifs
  · exact yesQuiet
  · exact noQuiet

end Rules

/-! ## The parts of a record -/

section Parts

theorem forward_byte (feed : Feed) : Forward feed feed.byte.2 := by
  unfold Forward Feed.byte
  split <;> simp_all

theorem forward_beFrom (k before : Nat) (feed : Feed) : Forward feed (feed.beFrom k before).2 := by
  induction k generalizing before feed with
  | zero => exact ⟨le_refl _, id⟩
  | succ k ih =>
    obtain ⟨shorter, failed⟩ := forward_byte feed
    have later := ih (before * 256 + feed.byte.1.toNat) feed.byte.2
    exact ⟨later.1.trans shorter, later.2 ∘ failed⟩

theorem streams_getByte : Streams qemuGetByte := streams_fetch forward_byte

theorem streams_getBuffer (size : Nat) : Streams (qemuGetBuffer size) :=
  streams_fetch fun feed => ⟨by simp [Feed.bytes], fun failed => by simp [Feed.bytes, failed]⟩

theorem streams_getRamAddr : Streams getRamAddr :=
  streams_bind (streams_fetch (forward_beFrom 8 0)) fun _ => streams_fixed

theorem streams_getIdstr : Streams getIdstr :=
  streams_bind streams_getByte fun _ => streams_bind (streams_getBuffer _) fun _ =>
    streams_get fun _ => streams_fixed

theorem quiet_getRamAddr : Quiet getRamAddr := fun _ _ => rfl

theorem streams_syncBlocks : Streams (syncBlocks fuel total) := by
  induction fuel generalizing total with
  | zero => exact streams_fixed
  | succ fuel ih =>
    refine streams_ite streams_fixed ?_
    refine streams_bind streams_getIdstr fun id => ?_
    refine streams_bind streams_getRamAddr fun length => ?_
    refine streams_get fun r => ?_
    split
    · exact streams_fixed
    · exact streams_ite streams_fixed (ih _)

theorem quiet_syncBlocks : Quiet (syncBlocks fuel total) := by
  induction fuel generalizing total with
  | zero => exact fun _ _ => rfl
  | succ fuel ih =>
    refine quiet_ite (fun _ _ => rfl) ?_
    refine quiet_bind (fun _ _ => rfl) fun id => quiet_bind quiet_getRamAddr fun length => ?_
    refine quiet_get (fun r => ?_) fun _ _ => rfl
    split
    · exact fun _ _ => rfl
    · exact quiet_ite (fun _ _ => rfl) (ih _)

end Parts

/-- What a record says before its page, once its first word is read. -/
def headRest (word : Nat) : Load (Nat × Nat) := do
  let flags := word % targetPageSize
  let addr := word - flags
  if flags &&& ramSaveFlagMemSize ≠ 0 then loadMemSize 4 addr else pure ()
  pure (addr, flags)

/-- What a record says before its page: the address and the flags. -/
def recordHead : Load (Nat × Nat) := getRamAddr >>= headRest

def recordEnd (flags : Nat) : Load Bool := do
  let r ← Prog.get
  if r.file.failed then Prog.throw .eIo else pure (flags &&& ramSaveFlagEos ≠ 0)

theorem loadRecord_eq (r : Incoming) :
    loadRecord 4 r = (recordHead >>= fun head =>
      loadPage 4 head.1 head.2 >>= fun _ => recordEnd head.2) r := by
  unfold loadRecord recordHead headRest recordEnd
  simp only [bind_apply]
  rcases getRamAddr r with ⟨word | code | _ | _, after⟩
  · simp only
    split_ifs
    · simp only [bind_apply]
      rcases loadMemSize 4 (word - word % targetPageSize) after with ⟨_ | _ | _ | _, _⟩ <;> rfl
    · rfl
  all_goals rfl

theorem streams_headRest (word : Nat) : Streams (headRest word) := by
  unfold headRest
  simp only
  split_ifs
  · exact streams_bind (streams_get fun _ => streams_syncBlocks _ _) fun _ => streams_fixed
  · exact streams_fixed

theorem streams_recordHead : Streams recordHead := streams_bind streams_getRamAddr streams_headRest

theorem quiet_recordHead : Quiet recordHead := by
  refine quiet_bind quiet_getRamAddr fun word => ?_
  unfold headRest
  simp only
  split_ifs
  · exact quiet_bind (quiet_get (fun _ => quiet_syncBlocks _ _) fun _ _ => rfl) fun _ _ _ => rfl
  · exact fun _ _ => rfl

/-! ## Block lists -/

def Incoming.nameAhead (r : Incoming) : Idstr :=
  let len := r.file.byte.1.toNat
  let id := (r.file.byte.2.bytes len).1
  ((id ++ r.stale.drop id.length).take len).takeWhile (· != 0)

/-- The incoming side behind the name. -/
def Incoming.skipName (r : Incoming) : Incoming :=
  { r with file := (r.file.byte.2.bytes r.file.byte.1.toNat).2 }

theorem skipName_lt (more : r.file.rest ≠ []) :
    r.skipName.file.rest.length < r.file.rest.length := by
  obtain ⟨blocks, host, block, ⟨rest, failed⟩, stale⟩ := r
  cases rest with
  | nil => exact absurd rfl more
  | cons byte rest =>
    simp only [skipName, Feed.byte_cons, Feed.bytes, length_drop, length_cons]
    omega

section

variable (r : Incoming)

theorem getIdstr_eq : getIdstr r = (.ok r.nameAhead, r.skipName) := rfl

/-- The number ahead in the stream, as a `ram_addr_t`. -/
def Incoming.addrAhead : Nat := (r.file.be 8).1 % ramAddrRange

def Incoming.skipAddr : Incoming := { r with file := (r.file.be 8).2 }

theorem getRamAddr_eq : getRamAddr r = (.ok r.addrAhead, r.skipAddr) := rfl

def Incoming.lookup (id : Idstr) : Option RAMBlock :=
  r.blocks.find? fun block => decide (block.idstr = id)

end

/-- The stream breaks off in a list of blocks that has bytes left to account for, and the zeros that
are read from then on describe a block of the machine. -/
def ListStalls : Nat → Nat → Incoming → Prop
  | 0, _, _ => False
  | count + 1, total, r =>
    total ≠ 0 ∧
      if r.file.rest = [] then ∃ block, r.lookup [] = some block ∧ block.length = 0
      else ∃ block, r.lookup r.nameAhead = some block ∧ block.length = r.skipName.addrAhead ∧
        ListStalls count ((total + (ramAddrRange - block.length)) % ramAddrRange)
          r.skipName.skipAddr

theorem syncBlocks_succ (r : Incoming) :
    syncBlocks (fuel + 1) total r =
      if total = 0 then (.ok (), r)
      else
        match r.lookup r.nameAhead with
        | none => (.error .eInval, r.skipName.skipAddr)
        | some block =>
          if block.length ≠ r.skipName.addrAhead then (.error .eInval, r.skipName.skipAddr)
          else syncBlocks fuel
            ((total + (ramAddrRange - r.skipName.addrAhead)) % ramAddrRange)
            r.skipName.skipAddr := by
  rw [syncBlocks]
  split_ifs with done
  · rfl
  · rw [bind_of_ok (getIdstr_eq r), bind_of_ok (getRamAddr_eq _), get_bind]
    have same : (r.skipName.skipAddr.blocks.find? fun block => decide (block.idstr = r.nameAhead))
        = r.lookup r.nameAhead := rfl
    rw [same]
    cases r.lookup r.nameAhead with
    | none => rfl
    | some block =>
      simp only
      split_ifs <;> rfl

/-- Behind the end of the stream an entry of the list is all zeros. -/
theorem entry_of_end (ended : r.file.rest = []) :
    r.nameAhead = [] ∧ r.skipName.addrAhead = 0 ∧ r.skipName.skipAddr.file.rest = [] := by
  obtain ⟨blocks, host, block, ⟨rest, failed⟩, stale⟩ := r
  obtain rfl : rest = [] := ended
  refine ⟨by simp [nameAhead, Feed.byte], ?_, rfl⟩
  have skipped : ({ blocks, host, block, file := ⟨[], failed⟩, stale } : Incoming).skipName.file =
      (⟨[], true⟩ : Feed) := by simp [skipName, Feed.byte, Feed.bytes]
  rw [addrAhead, skipped]
  have zero : (Feed.be 8 ⟨[], true⟩).1 = 0 := by simp [Feed.be, Feed.beFrom, Feed.byte]
  rw [zero, Nat.zero_mod]

theorem total_kept {total : Nat} (small : total < ramAddrRange) :
    (total + (ramAddrRange - 0)) % ramAddrRange = total := by
  rw [Nat.sub_zero, Nat.add_mod_right, Nat.mod_eq_of_lt small]

theorem syncBlocks_stuck {total : Nat} {block : RAMBlock} (left : total ≠ 0)
    (small : total < ramAddrRange) (empty : block.length = 0) (fuel : Nat) {r : Incoming}
    (ended : r.file.rest = []) (found : r.lookup [] = some block) :
    (syncBlocks fuel total r).1 = .hang := by
  induction fuel generalizing r with
  | zero => rfl
  | succ fuel ih =>
    obtain ⟨name, length, still⟩ := entry_of_end ended
    rw [syncBlocks_succ, if_neg left, name, found, length]
    simp only
    rw [if_neg (by simp [empty]), total_kept small]
    exact ih still found

section

variable (r : Incoming)

theorem syncBlocks_hang_iff (small : total < ramAddrRange) (enough : r.file.rest.length < fuel) :
    (syncBlocks fuel total r).1 = .hang ↔ ListStalls fuel total r := by
  induction fuel generalizing total r with
  | zero => exact absurd enough (Nat.not_lt_zero _)
  | succ fuel ih =>
    rw [syncBlocks_succ, ListStalls]
    by_cases done : total = 0
    · simp [done]
    rw [if_neg done]
    by_cases ended : r.file.rest = []
    · obtain ⟨name, length, still⟩ := entry_of_end ended
      rw [if_pos ended, name, length]
      cases found : r.lookup [] with
      | none => simp
      | some block =>
        simp only
        split_ifs with differs
        · simp [differs]
        · have empty : block.length = 0 := by simpa using differs
          rw [total_kept small]
          exact ⟨fun _ => ⟨done, block, rfl, empty⟩, fun _ =>
            syncBlocks_stuck done small empty fuel still found⟩
    · rw [if_neg ended]
      cases found : r.lookup r.nameAhead with
      | none => simp
      | some block =>
        simp only
        split_ifs with differs
        · simp [differs]
        · have agree : block.length = r.skipName.addrAhead := by simpa using differs
          have shorter : r.skipName.skipAddr.file.rest.length < fuel := by
            have behind : r.skipName.skipAddr.file.rest.length ≤
                r.skipName.file.rest.length := streams_getRamAddr.shorter r.skipName
            have name := skipName_lt ended
            omega
          rw [ih _ _ (Nat.mod_lt _ (by decide)) shorter]
          simp [done, agree]

/-! ## Pages -/

/-- The incoming side behind the name of a page record, with the block it stands for. -/
def Incoming.select (flags : Nat) : Incoming :=
  if flags &&& ramSaveFlagContinue ≠ 0 then r
  else { r.skipName with block := r.lookup r.nameAhead }

theorem hostFromStreamOffset_eq :
    hostFromStreamOffset addr flags r =
      (.ok ((r.select flags).block.map fun block => (block, addr)), r.select flags) := by
  unfold hostFromStreamOffset select
  split_ifs <;> rfl

/-- The bytes that the page part of a record stores. -/
def Incoming.pageAhead (flags : Nat) : List (BitVec 8) :=
  if flags &&& ramSaveFlagCompress ≠ 0 then
    List.replicate targetPageSize (r.select flags).file.byte.1
  else if flags &&& ramSaveFlagPage ≠ 0 then (r.select flags).file.rest.take targetPageSize
  else []

def pageStores (addr flags : Nat) : List Store :=
  match (r.select flags).block with
  | some block => [⟨block, addr, r.pageAhead flags⟩]
  | none => []

/-- The page ahead lies in the block the record stands for.  A block that is not there is noticed
for a page of equal bytes only. -/
def PageFits (addr flags : Nat) : Prop :=
  r.pageAhead flags = [] ∨
    match (r.select flags).block with
    | some block => addr + (r.pageAhead flags).length ≤ block.length
    | none => flags &&& ramSaveFlagCompress ≠ 0

/-- A store stays in its block. -/
def Store.Inside (store : Store) : Prop :=
  store.bytes = [] ∨ store.offset + store.bytes.length ≤ store.block.length

/-- How the page part of a record ends. -/
def pageOutcome (flags : Nat) : Outcome LoadError Unit :=
  match (r.select flags).block with
  | some _ => .ok ()
  | none =>
    if flags &&& ramSaveFlagCompress ≠ 0 then .error .eInval
    else if r.pageAhead flags = [] then .ok () else .abort

end

theorem select_withHost (flags : Nat) (host : HostMemory) :
    (r.withHost host).select flags = (r.select flags).withHost host := by
  unfold select
  split_ifs <;> rfl

theorem storeBytes_nil (host : HostMemory) (target : RAMBlock × Nat) :
    storeBytes host target [] = host := by
  funext id offset
  simp [storeBytes]

/-- The page part of a record makes its store and nothing else. -/
theorem loadPage_eq (r : Incoming) :
    ∃ after : Incoming, ∀ host, loadPage 4 addr flags (r.withHost host) =
      (pageOutcome r flags, after.withHost (storeAll host (pageStores r addr flags))) := by
  have located (host : HostMemory) := hostFromStreamOffset_eq addr flags (r.withHost host)
  simp only [select_withHost] at located
  unfold loadPage pageOutcome pageStores pageAhead
  generalize r.select flags = chosen at located ⊢
  by_cases compress : flags &&& ramSaveFlagCompress ≠ 0
  · simp only [if_pos compress, pageTarget]
    obtain ⟨blocks, old, _ | block, file, stale⟩ := chosen
    · refine ⟨⟨blocks, old, none, file, stale⟩, fun host => ?_⟩
      rw [if_neg (by decide), bind_of_ok (located host)]
      rfl
    · refine ⟨⟨blocks, old, some block, file.byte.2, stale⟩, fun host => ?_⟩
      rw [if_neg (by decide), bind_of_ok (located host)]
      rfl
  by_cases page : flags &&& ramSaveFlagPage ≠ 0
  · simp only [if_neg compress, if_pos page, pageTarget]
    obtain ⟨blocks, old, _ | block, file, stale⟩ := chosen
    · refine ⟨⟨blocks, old, none, (file.bytes targetPageSize).2, stale⟩, fun host => ?_⟩
      rw [if_neg (by decide), bind_of_ok (located host), qemuGetBuffer]
      simp only [withHost, Option.map_none, bind_apply, fetch, Feed.bytes, storePage]
      split_ifs <;> rfl
    · refine ⟨⟨blocks, old, some block, (file.bytes targetPageSize).2, stale⟩, fun host => ?_⟩
      rw [if_neg (by decide), bind_of_ok (located host)]
      rfl
  · simp only [if_neg compress, if_neg page]
    refine ⟨r, fun host => ?_⟩
    obtain ⟨blocks, old, _ | block, file, stale⟩ := chosen
    · rfl
    · simp only [storeAll, foldl_cons, foldl_nil, storeBytes_nil]
      rfl

/-- The page part of a record is harmless exactly if the page fits. -/
theorem pageFits_iff (r : Incoming) :
    PageFits r addr flags ↔
      pageOutcome r flags ≠ .abort ∧ ∀ store ∈ pageStores r addr flags, store.Inside := by
  unfold PageFits pageOutcome pageStores Store.Inside
  cases (r.select flags).block with
  | some block => simp
  | none =>
    split_ifs with compress empty
    · simp [compress]
    · simp [empty]
    · simp [empty, compress]

theorem pageStores_known {addr flags : Nat} (known : r.Known) :
    ∀ store ∈ pageStores r addr flags, store.block ∈ r.blocks := by
  intro store member
  unfold pageStores at member
  split at member
  · next block selected =>
    rw [mem_singleton.mp member]
    unfold select at selected
    split_ifs at selected
    · exact known block selected
    · exact mem_of_find?_eq_some selected
  · cases member

theorem streams_hostFromStreamOffset : Streams (hostFromStreamOffset addr flags) := by
  have selects (id : Idstr) : Streams (modify fun r =>
      { r with block := r.blocks.find? fun block => decide (block.idstr = id) } : Load Unit) :=
    { shorter := fun _ => le_refl _
      failed := fun _ failed => failed
      blocks := fun _ => rfl
      known := fun _ _ _ found => mem_of_find?_eq_some found }
  refine streams_ite (streams_get fun _ => streams_fixed) ?_
  refine streams_bind streams_getIdstr fun id => streams_bind (selects id) fun _ => ?_
  exact streams_get fun _ => streams_fixed

theorem streams_loadPage : Streams (loadPage 4 addr flags) := by
  have stores (target : RAMBlock × Nat) (bytes : List (BitVec 8)) : Streams (modify
      fun r => { r with host := storeBytes r.host target bytes } : Load Unit) :=
    { shorter := fun _ => le_refl _
      failed := fun _ failed => failed
      blocks := fun _ => rfl
      known := fun _ known => known }
  refine streams_ite ?_ (streams_ite ?_ streams_fixed)
  · refine streams_bind (streams_hostFromStreamOffset addr flags) fun host => ?_
    cases host with
    | none => exact streams_fixed
    | some target => exact streams_bind streams_getByte fun _ => stores target _
  · refine streams_bind (streams_hostFromStreamOffset addr flags) fun host => ?_
    refine streams_bind (streams_getBuffer _) fun page => ?_
    cases host with
    | none => exact streams_ite streams_fixed streams_fixed
    | some target => exact stores target page

/-! ## Records -/

section

variable (r : Incoming)

def recordStores : List Store :=
  match recordHead r with
  | (.ok head, after) => pageStores after head.1 head.2
  | _ => []

/-- The list of blocks of a record, if it has one, comes to an end, and its page, if it has one,
lies in the block the record stands for. -/
def RecordFits : Prop :=
  (r.addrAhead % targetPageSize &&& ramSaveFlagMemSize ≠ 0 →
    ¬ ListStalls (r.skipAddr.file.rest.length + 1)
      (r.addrAhead - r.addrAhead % targetPageSize) r.skipAddr) ∧
  ∀ addr flags after, recordHead r = (.ok (addr, flags), after) → PageFits after addr flags

theorem loadRecord_blind (host : HostMemory) :
    loadRecord 4 (r.withHost host) =
      ((loadRecord 4 r).1, (loadRecord 4 r).2.withHost (storeAll host (recordStores r))) := by
  simp only [loadRecord_eq, bind_apply, quiet_recordHead r host]
  unfold recordStores
  rcases recordHead r with ⟨head | code | _ | _, after⟩
  · obtain ⟨last, page⟩ := loadPage_eq head.1 head.2 after
    have own : loadPage 4 head.1 head.2 after = _ := page after.host
    simp only [page, own]
    rcases pageOutcome after head.2 with value | code | _ | _
    · simp only [recordEnd, get_bind, withHost]
      split_ifs <;> rfl
    all_goals rfl
  all_goals rfl

theorem recordHead_eq :
    recordHead r =
      if r.addrAhead % targetPageSize &&& ramSaveFlagMemSize ≠ 0 then
        (syncBlocks (r.skipAddr.file.rest.length + 1)
          (r.addrAhead - r.addrAhead % targetPageSize) >>= fun _ =>
            pure (r.addrAhead - r.addrAhead % targetPageSize, r.addrAhead % targetPageSize))
          r.skipAddr
      else (.ok (r.addrAhead - r.addrAhead % targetPageSize, r.addrAhead % targetPageSize),
        r.skipAddr) := by
  rw [recordHead, bind_of_ok (getRamAddr_eq r), headRest]
  split_ifs <;> rfl

theorem syncBlocks_not_abort : (syncBlocks fuel total r).1 ≠ .abort := by
  induction fuel generalizing total r with
  | zero => exact (nomatch ·)
  | succ fuel ih =>
    rw [syncBlocks_succ]
    split_ifs
    · exact (nomatch ·)
    · cases r.lookup r.nameAhead with
      | none => exact (nomatch ·)
      | some block =>
        simp only
        split_ifs
        · exact (nomatch ·)
        · exact ih _ _

theorem recordHead_hang_iff :
    (recordHead r).1 = .hang ↔
      r.addrAhead % targetPageSize &&& ramSaveFlagMemSize ≠ 0 ∧
        ListStalls (r.skipAddr.file.rest.length + 1)
          (r.addrAhead - r.addrAhead % targetPageSize) r.skipAddr := by
  have small : r.addrAhead < ramAddrRange := Nat.mod_lt _ (by decide)
  rw [recordHead_eq, ← syncBlocks_hang_iff _ _ _ (by omega) (Nat.lt_succ_self _)]
  split_ifs with list
  · rw [bind_apply]
    generalize syncBlocks _ _ _ = run
    rcases run with ⟨_ | _ | _ | _, _⟩ <;> simp [list]
  · simp [list]

theorem recordHead_not_abort : (recordHead r).1 ≠ .abort := by
  rw [recordHead_eq]
  split_ifs
  · rw [bind_apply]
    generalize run : syncBlocks _ _ _ = list
    rcases list with ⟨_ | _ | _ | _, _⟩ <;> simp
    exact syncBlocks_not_abort _ _ _ (congrArg Prod.fst run)
  · exact (nomatch ·)

theorem pageOutcome_not_hang (flags : Nat) : pageOutcome r flags ≠ .hang := by
  unfold pageOutcome
  split
  · exact (nomatch ·)
  · split_ifs <;> exact (nomatch ·)

theorem recordFits_iff :
    RecordFits r ↔ (loadRecord 4 r).1 ≠ .hang ∧ (loadRecord 4 r).1 ≠ .abort ∧
      ∀ store ∈ recordStores r, store.Inside := by
  have noAbort := recordHead_not_abort r
  unfold RecordFits
  rw [loadRecord_eq, bind_apply, recordStores, ← not_and, ← recordHead_hang_iff]
  generalize recordHead r = head at noAbort ⊢
  obtain ⟨⟨addr, flags⟩ | code | _ | _, after⟩ := head
  · obtain ⟨last, page⟩ := loadPage_eq addr flags after
    have own : loadPage 4 addr flags after = _ := page after.host
    have ended (r : Incoming) : (recordEnd flags r).1 ≠ .hang ∧ (recordEnd flags r).1 ≠ .abort := by
      simp only [recordEnd, get_bind]
      split_ifs <;> simp
    have fits := pageFits_iff addr flags after
    have noHang := pageOutcome_not_hang after flags
    have only : (¬ (.ok (addr, flags) : Outcome LoadError (Nat × Nat)) = .hang ∧
        ∀ addr' flags' after',
          ((.ok (addr, flags), after) : Outcome LoadError (Nat × Nat) × Incoming)
          = (.ok (addr', flags'), after') → PageFits after' addr' flags') ↔
        PageFits after addr flags := by
      constructor
      · exact fun all => all.2 addr flags after rfl
      · rintro inside
        refine ⟨(nomatch ·), ?_⟩
        rintro _ _ _ ⟨⟩
        exact inside
    simp only [bind_apply, own]
    rw [only, fits]
    generalize pageOutcome after flags = outcome at noHang ⊢
    cases outcome with
    | ok value => simp [ended]
    | error code | abort => simp
    | hang => exact absurd rfl noHang
  · simp
  · exact absurd rfl noAbort
  · simp

end

theorem streams_recordEnd (flags : Nat) : Streams (recordEnd flags) :=
  streams_get fun _ => streams_ite streams_fixed streams_fixed

theorem streams_loadRecord : Streams (loadRecord 4) := by
  have whole := funext loadRecord_eq
  rw [whole]
  exact streams_bind streams_recordHead fun head =>
    streams_bind (streams_loadPage _ _) fun _ => streams_recordEnd _

theorem recordStores_known (known : r.Known) :
    ∀ store ∈ recordStores r, store.block ∈ r.blocks := by
  have headKnown := streams_recordHead.known r known
  have blocks := streams_recordHead.blocks r
  unfold recordStores
  rcases run : recordHead r with ⟨head | code | _ | _, after⟩
  · rw [run] at headKnown blocks
    rw [← blocks]
    exact pageStores_known headKnown
  all_goals simp

/-! ## Loading -/

/-- A record is read that is not the last. -/
def Next (r r' : Incoming) : Prop := loadRecord 4 r = (.ok false, r')

theorem skipAddr_lt (more : r.file.rest ≠ []) :
    r.skipAddr.file.rest.length < r.file.rest.length := by
  obtain ⟨blocks, host, block, ⟨rest, failed⟩, stale⟩ := r
  cases rest with
  | nil => exact absurd rfl more
  | cons byte rest =>
    exact Nat.lt_succ_of_le (forward_beFrom 7 (0 * 256 + byte.toNat) ⟨rest, failed⟩).1

theorem skipAddr_failed (ended : r.file.rest = []) : r.skipAddr.file.failed = true := by
  obtain ⟨blocks, host, block, ⟨rest, failed⟩, stale⟩ := r
  obtain rfl : rest = [] := ended
  rfl

/-- A record that is read without error takes something of the stream. -/
theorem next_shorter {r' : Incoming} (next : Next r r') :
    r'.file.rest.length < r.file.rest.length := by
  have intact : r'.file.failed = false := by
    unfold Next at next
    rw [loadRecord_eq] at next
    obtain ⟨head, middle, -, later⟩ := bind_eq_ok.mp next
    obtain ⟨-, last, -, ended⟩ := bind_eq_ok.mp later
    rw [recordEnd, get_bind] at ended
    split_ifs at ended with failed
    · cases ended
    · simp only [pure_apply, Prod.mk.injEq] at ended
      rw [← ended.2]
      simpa using failed
  have rest := streams_bind (streams_headRest r.addrAhead) fun head =>
    streams_bind (streams_loadPage head.1 head.2) fun _ => streams_recordEnd head.2
  have after : (headRest r.addrAhead >>= fun head =>
      loadPage 4 head.1 head.2 >>= fun _ => recordEnd head.2) r.skipAddr = (.ok false, r') := by
    rw [← next, loadRecord_eq, bind_apply, bind_apply, recordHead, bind_of_ok (getRamAddr_eq r)]
  by_cases ended : r.file.rest = []
  · have failed := rest.failed r.skipAddr (skipAddr_failed ended)
    rw [after, intact] at failed
    cases failed
  · have shorter := rest.shorter r.skipAddr
    rw [after] at shorter
    exact lt_of_le_of_lt shorter (skipAddr_lt ended)

def loadStores : Nat → Incoming → List Store
  | 0, _ => []
  | fuel + 1, r =>
    recordStores r ++
      match loadRecord 4 r with
      | (.ok false, after) => loadStores fuel after
      | _ => []

theorem loadRecords_succ (fuel : Nat) (r : Incoming) :
    loadRecords 4 (fuel + 1) r =
      match loadRecord 4 r with
      | (.ok last, after) => if last then (.ok (), after) else loadRecords 4 fuel after
      | (.error code, after) => (.error code, after)
      | (.abort, after) => (.abort, after)
      | (.hang, after) => (.hang, after) := by
  rw [loadRecords, bind_apply]
  rcases loadRecord 4 r with ⟨last | code | _ | _, after⟩
  · simp only
    split_ifs <;> rfl
  all_goals rfl

theorem loadRecords_blind (fuel : Nat) (r : Incoming) (host : HostMemory) :
    loadRecords 4 fuel (r.withHost host) =
      ((loadRecords 4 fuel r).1,
        (loadRecords 4 fuel r).2.withHost (storeAll host (loadStores fuel r))) := by
  induction fuel generalizing r host with
  | zero => rfl
  | succ fuel ih =>
    rw [loadRecords_succ, loadRecords_succ, loadRecord_blind, loadStores]
    unfold storeAll
    rw [foldl_append]
    rcases loadRecord 4 r with ⟨(_ | _) | code | _ | _, after⟩
    · exact ih after _
    all_goals rfl

theorem loadStores_known (fuel : Nat) (r : Incoming) (known : r.Known) :
    ∀ store ∈ loadStores fuel r, store.block ∈ r.blocks := by
  induction fuel generalizing r with
  | zero => simp [loadStores]
  | succ fuel ih =>
    intro store member
    rcases mem_append.mp member with first | later
    · exact recordStores_known known store first
    · have nextKnown := streams_loadRecord.known r known
      have blocks := streams_loadRecord.blocks r
      rcases run : loadRecord 4 r with ⟨(_ | _) | code | _ | _, after⟩
      all_goals rw [run] at later nextKnown blocks
      · rw [← blocks]
        exact ih after nextKnown store later
      all_goals cases later

theorem loadRecords_safe_iff (fuel : Nat) (r : Incoming) (enough : r.file.rest.length < fuel) :
    ((loadRecords 4 fuel r).1 ≠ .hang ∧ (loadRecords 4 fuel r).1 ≠ .abort ∧
        ∀ store ∈ loadStores fuel r, store.Inside) ↔
      ∀ r', Relation.ReflTransGen Next r r' → RecordFits r' := by
  induction fuel generalizing r with
  | zero => exact absurd enough (Nat.not_lt_zero _)
  | succ fuel ih =>
    have fits := recordFits_iff r
    rw [loadRecords_succ, loadStores]
    by_cases more : ∃ after, Next r after
    · obtain ⟨after, next⟩ := more
      have shorter := next_shorter next
      have later := ih after (by omega)
      have only (r' : Incoming) :
          Relation.ReflTransGen Next r r' ↔ r' = r ∨ Relation.ReflTransGen Next after r' := by
        rw [Relation.ReflTransGen.cases_head_iff]
        constructor
        · rintro (rfl | ⟨other, step, reached⟩)
          · exact .inl rfl
          · have same : other = after := congrArg Prod.snd (Eq.trans (symm step) next)
            exact .inr (same ▸ reached)
        · rintro (rfl | reached)
          · exact .inl rfl
          · exact .inr ⟨after, next, reached⟩
      have run : loadRecord 4 r = (.ok false, after) := next
      rw [run] at fits ⊢
      simp only [only, forall_eq_or_imp, fits, ← later, forall_mem_append]
      simp
      tauto
    · have only (r' : Incoming) : Relation.ReflTransGen Next r r' ↔ r' = r := by
        rw [Relation.ReflTransGen.cases_head_iff]
        constructor
        · rintro (rfl | ⟨other, step, -⟩)
          · rfl
          · exact absurd ⟨other, step⟩ more
        · rintro rfl
          exact .inl rfl
      simp only [only, forall_eq, fits]
      rcases run : loadRecord 4 r with ⟨(_ | _) | code | _ | _, after⟩
      · exact absurd ⟨after, run⟩ more
      all_goals simp

/-! ## The whole load -/

/-- Whatever the memory holds, `ram_load` comes back with a result or an error code, and only memory
of the machine's blocks changes. -/
structure LoadSafe (r : Incoming) : Prop where
  returns : (ramLoad 4 r).1 = .ok () ∨ ∃ code, (ramLoad 4 r).1 = .error code
  confined : ∀ host id offset,
    (ramLoad 4 (r.withHost host)).2.host id offset ≠ host id offset →
      ∃ block ∈ r.blocks, block.idstr = id ∧ offset < block.length

theorem returned_iff (outcome : Outcome LoadError Unit) :
    (outcome = .ok () ∨ ∃ code, outcome = .error code) ↔ outcome ≠ .hang ∧ outcome ≠ .abort := by
  cases outcome <;> simp

/-- Stores that stay in their blocks are those that change memory of the blocks only. -/
theorem stores_inside_iff {blocks : List RAMBlock} {stores : List Store}
    (distinct : (blocks.map RAMBlock.idstr).Nodup)
    (known : ∀ store ∈ stores, store.block ∈ blocks) :
    (∀ store ∈ stores, store.Inside) ↔
      ∀ (host : HostMemory) id offset, storeAll host stores id offset ≠ host id offset →
        ∃ block ∈ blocks, block.idstr = id ∧ offset < block.length := by
  constructor
  · intro inside host id offset changed
    obtain ⟨store, member, name, low, high⟩ :=
      (changed_iff_covered stores id offset).mp ⟨host, changed⟩
    refine ⟨store.block, known store member, name.symm, ?_⟩
    rcases inside store member with empty | fits
    · simp only [empty, length_nil] at high
      omega
    · omega
  · intro confined store member
    by_contra outside
    unfold Store.Inside at outside
    push Not at outside
    obtain ⟨bytes, behind⟩ := outside
    have positive := length_pos_of_ne_nil bytes
    have covers : store.Covers store.block.idstr (store.offset + (store.bytes.length - 1)) :=
      ⟨rfl, by omega, by omega⟩
    obtain ⟨host, changed⟩ := (changed_iff_covered stores _ _).mpr ⟨store, member, covers⟩
    obtain ⟨block, inList, name, below⟩ := confined host _ _ changed
    have same : block = store.block :=
      inj_on_of_nodup_map distinct inList (known store member) name
    rw [same] at below
    omega

/-- A machine with a page of RAM under the name `a`, and a stream. -/
def onePageFrom (bytes : List (BitVec 8)) : Incoming :=
  ⟨[⟨[0x61], 0, 4096⟩], fun _ _ => 0, none, ⟨bytes, false⟩, []⟩

end Qemu.Migration
