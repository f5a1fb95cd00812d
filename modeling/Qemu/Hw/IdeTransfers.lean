import Qemu.Hw.IdeBus

/-!
# IDE transfers inside the sector buffer

Every PIO transfer is set up inside the first sixteen sectors of the buffer, by the sector
functions, by the packet commands and by the callbacks of DMA requests alike.
-/

namespace Qemu.Hw.Ide

open Status IDEBus
open Function (update_of_ne update update_self)

variable {bus : IDEBus} {s : Bool} {h : Host} {buf : Nat → BitVec 8} {error : Option Nat}

/-! ## The invariant -/

/-- A reply is sent from the buffer; no sector is read. -/
structure Transfer.Replying (t : Transfer) : Prop where
  noSector : t.lba = -1
  elementary : t.elementaryTransferSize = 0
  room : t.packetTransferSize ≤ 0 ∨ t.ioBufferIndex + t.packetTransferSize ≤ 2052

/-- Sectors of the medium are sent through the buffer. -/
structure Transfer.Reading (t : Transfer) : Prop where
  lba : 0 ≤ t.lba
  sectorSize : t.cdSectorSize = 2048 ∨ t.cdSectorSize = 2352

structure Transfer.Sound (t : Transfer) : Prop where
  mult : t.multSectors ≤ maxMultSectors
  req : t.reqNbSectors ≤ maxMultSectors
  ptr : 0 ≤ t.dataPtr
  limit : t.dataEnd ≤ 8192
  index : 0 ≤ t.ioBufferIndex
  packet : t.endTransferFunc = .atapiCmd → t.dataEnd = 12
  reply : t.endTransferFunc = .atapiCmdReplyEnd → t.Replying ∨ t.Reading

/-- The next `size` bytes of the buffer are handed to the data port. -/
def Transfer.sent (t : Transfer) (size : Int) : Transfer :=
  { t with
    packetTransferSize := t.packetTransferSize - size
    elementaryTransferSize := t.elementaryTransferSize - size
    ioBufferIndex := t.ioBufferIndex + size
    endTransferFunc := .atapiCmdReplyEnd
    dataPtr := t.ioBufferIndex
    dataEnd := t.ioBufferIndex + size }

namespace Transfer.Sound

variable {t : Transfer} {size : Int}

theorem sent_replying (old : t.Sound) (replying : t.Replying) (nonneg : 0 ≤ size)
    (inside : size ≤ t.packetTransferSize) (left : 0 < t.packetTransferSize) :
    (({ t with elementaryTransferSize := size } : Transfer).sent size).Sound := by
  have index := old.index
  have room := replying.room
  exact
    { old with
      ptr := index
      limit := by simp only [sent]; omega
      index := by simp only [sent]; omega
      packet := fun isPacket => nomatch isPacket
      reply := fun _ => .inl
        { noSector := replying.noSector
          elementary := by simp [sent]
          room := .inr (by simp only [sent]; omega) } }

theorem sent_reading (old : t.Sound) (reading : t.Reading) (elementary : Int) (nonneg : 0 ≤ size)
    (inside : t.ioBufferIndex + size ≤ t.cdSectorSize) :
    (({ t with elementaryTransferSize := elementary } : Transfer).sent size).Sound := by
  have index := old.index
  have sectorSize := reading.sectorSize
  exact
    { old with
      ptr := index
      limit := by simp only [sent]; omega
      index := by simp only [sent]; omega
      packet := fun isPacket => nomatch isPacket
      reply := fun _ => .inr { reading with } }

end Transfer.Sound

def IDEBus.transfers (bus : IDEBus) (s : Bool) : Transfer := (bus.ifs s).transfer

def IDEBus.Sound (bus : IDEBus) : Prop := ∀ unit, (bus.transfers unit).Sound

/-! ## What leaves the transfers alone -/

namespace IDEBus

theorem on_transfers {f : IDEState → IDEState} (frame : ∀ d, (f d).transfer = d.transfer) :
    (bus.on s f).transfers = bus.transfers := by
  funext unit
  by_cases same : unit = s
  · subst same
    simp [transfers, on, frame]
  · simp [transfers, on, update_of_ne same]

variable (f : IDEState → IDEState)

@[simp] theorem on_dma : (bus.on s f).dma = bus.dma := rfl

@[simp] theorem on_unit : (bus.on s f).unit = bus.unit := rfl

@[simp] theorem on_ifs : (bus.on s f).ifs s = f (bus.ifs s) := by
  simp [on]

@[simp] theorem setStatus_transfers (value : BitVec 8) :
    (bus.setStatus s value).transfers = bus.transfers := on_transfers fun _ => rfl

@[simp] theorem setError_transfers (value : BitVec 8) :
    (bus.setError s value).transfers = bus.transfers := on_transfers fun _ => rfl

@[simp] theorem setNsector_transfers (value : BitVec 32) :
    (bus.setNsector s value).transfers = bus.transfers := on_transfers fun _ => rfl

@[simp] theorem takeNsector_transfers (n : Int) :
    (bus.takeNsector s n).transfers = bus.transfers := setNsector_transfers _

@[simp] theorem setIoBufferSize_transfers (size : Int) :
    (bus.setIoBufferSize s size).transfers = bus.transfers := on_transfers fun _ => rfl

@[simp] theorem fill_transfers (data : Nat → BitVec 8) :
    (bus.fill s data).transfers = bus.transfers := on_transfers fun _ => rfl

@[simp] theorem setMediaChanged_transfers (value : Bool) :
    (bus.setMediaChanged s value).transfers = bus.transfers := on_transfers fun _ => rfl

@[simp] theorem setSense_transfers (senseKey asc : BitVec 8) :
    (bus.setSense s senseKey asc).transfers = bus.transfers := on_transfers fun _ => rfl

@[simp] theorem setReason_transfers (reason : BitVec 32) :
    (bus.setReason s reason).transfers = bus.transfers := setNsector_transfers _

@[simp] theorem setSignature_transfers : (bus.setSignature s).transfers = bus.transfers :=
  on_transfers fun _ => rfl

@[simp] theorem cmdLba48Transform_transfers (lba48 : Bool) :
    (bus.cmdLba48Transform s lba48).transfers = bus.transfers := on_transfers fun _ => rfl

@[simp] theorem setSector_transfers (sectorNum : Int) :
    (bus.setSector s sectorNum).transfers = bus.transfers := by
  refine on_transfers fun d => ?_
  split_ifs <;> rfl

@[simp] theorem setIrq_transfers : bus.setIrq.transfers = bus.transfers := by
  unfold setIrq
  split_ifs <;> rfl

@[simp] theorem setInactive_transfers : bus.setInactive.transfers = bus.transfers := rfl

@[simp] theorem launch_transfers (cb : AioCallback) :
    (bus.launch s cb).transfers = bus.transfers := rfl

@[simp] theorem prepareBuf_transfers (prdBytes : Nat) :
    (bus.prepareBuf prdBytes).transfers = bus.transfers := by
  unfold prepareBuf
  split <;> simp

@[simp] theorem dmaAdvance_transfers : (bus.dmaAdvance s).transfers = bus.transfers := by
  simp only [dmaAdvance]
  split_ifs <;> simp

@[simp] theorem abortCommand_transfers : (bus.abortCommand s).transfers = bus.transfers := by
  simp [abortCommand]

@[simp] theorem abortCmd_transfers : (bus.abortCmd s).transfers = bus.transfers := by
  simp [abortCmd]

@[simp] theorem succeed_transfers : (bus.succeed s).transfers = bus.transfers := by
  simp [succeed]

@[simp] theorem rwError_transfers : (bus.rwError s).transfers = bus.transfers := by
  simp [rwError]

@[simp] theorem atapiCmdOk_transfers : (bus.atapiCmdOk s).transfers = bus.transfers := by
  simp [atapiCmdOk]

@[simp] theorem atapiCmdError_transfers (senseKey asc : BitVec 8) :
    (bus.atapiCmdError s senseKey asc).transfers = bus.transfers := by
  simp [atapiCmdError]

@[simp] theorem atapiIoError_transfers (error : Nat) :
    (bus.atapiIoError s error).transfers = bus.transfers := by
  unfold atapiIoError
  split_ifs <;> simp

@[simp] theorem invalidField_transfers : (bus.invalidField s).transfers = bus.transfers := by
  simp [invalidField]

@[simp] theorem atapiCmdCheckStatus_transfers :
    (bus.atapiCmdCheckStatus s).transfers = bus.transfers := by
  simp [atapiCmdCheckStatus]

@[simp] theorem reportChange_transfers : (bus.reportChange s).transfers = bus.transfers := by
  rw [reportChange, setSense_transfers, on_transfers fun d => ?_]
  · exact atapiCmdError_transfers _ _
  · rfl

@[simp] theorem eventStatusMedia_transfers (h : Host) :
    (bus.eventStatusMedia s h).transfers = bus.transfers := by
  unfold eventStatusMedia
  split_ifs
  · rfl
  · exact on_transfers fun _ => rfl

@[simp] theorem execSetfeatures_transfers : (bus.execSetfeatures s).transfers = bus.transfers := by
  simp only [execSetfeatures]
  split_ifs <;> simp

/-! ## What sets them up -/

theorem on_transfers_update :
    (bus.on s f).transfers = update bus.transfers s (f (bus.ifs s)).transfer := by
  funext unit
  by_cases same : unit = s
  · subst same
    simp [transfers]
  · simp [transfers, on, update_of_ne same]

@[simp] theorem setTransfer_transfers (f : Transfer → Transfer) :
    (bus.setTransfer s f).transfers = update bus.transfers s (f (bus.transfers s)) :=
  on_transfers_update _

@[simp] theorem ifs_transfer : (bus.ifs s).transfer = bus.transfers s := rfl

theorem transferStart_transfers (start size : Int) (func : EndTransferFunc) :
    (bus.transferStart s start size func).transfers =
      update bus.transfers s
        { bus.transfers s with
          endTransferFunc := func, dataPtr := start, dataEnd := start + size } := by
  simp only [transferStart]
  split_ifs <;> simp

theorem transferStop_transfers :
    (bus.transferStop s).transfers =
      update bus.transfers s
        { bus.transfers s with endTransferFunc := .transferStop, dataPtr := 0, dataEnd := 0 } := by
  simp [transferStop]

theorem atapiDmaAdvance_transfers (h : Host) :
    (bus.atapiDmaAdvance s h).transfers =
      update bus.transfers s
        { bus.transfers s with
          lba := if (bus.transfers s).lba = -1 then -1 else (bus.transfers s).lba +
            if (bus.transfers s).cdSectorSize = 2352 then 1 else (bus.ifs s).ioBufferSize / 2048
          packetTransferSize :=
            (bus.transfers s).packetTransferSize - (bus.ifs s).ioBufferSize } := by
  simp only [atapiDmaAdvance]
  split_ifs <;> simp_all

namespace Sound

section

variable (sound : bus.Sound)

include sound

theorem congr {other : IDEBus} (same : other.transfers = bus.transfers) :
    other.Sound := fun unit => same ▸ sound unit

theorem update {other : IDEBus} {t : Transfer}
    (same : other.transfers = update bus.transfers s t) (next : t.Sound) :
    other.Sound := by
  intro unit
  rw [same]
  by_cases isSelf : unit = s
  · subst isSelf
    simpa using next
  · simpa [update_of_ne isSelf] using sound unit

theorem setTransfer {f : Transfer → Transfer} (next : (f (bus.transfers s)).Sound) :
    (bus.setTransfer s f).Sound :=
  sound.update (setTransfer_transfers f) next

/-- A transfer other than a reply may be set up at the start of the buffer. -/
theorem transferStart {size : Int} {func : EndTransferFunc} (noReply : func ≠ .atapiCmdReplyEnd)
    (packet : func = .atapiCmd → size = 12) (fits : size ≤ 8192) :
    (bus.transferStart s 0 size func).Sound :=
  sound.update (transferStart_transfers 0 size func)
    { sound s with
      ptr := le_refl 0
      limit := by simpa using fits
      packet := fun isPacket => by simpa using packet isPacket
      reply := fun isReply => absurd isReply noReply }

theorem transferStop : (bus.transferStop s).Sound :=
  sound.update transferStop_transfers
    { sound s with
      ptr := le_refl 0
      limit := (by decide : (0 : Int) ≤ 8192)
      packet := fun isPacket => nomatch isPacket
      reply := fun isReply => nomatch isReply }

theorem dmaError : (bus.dmaError s).Sound :=
  (sound.transferStop (s := s)).congr (by simp [IDEBus.dmaError])

theorem handleRwError {error : Nat} {op : BitVec 8} : (bus.handleRwError s h error op).1.Sound := by
  unfold IDEBus.handleRwError
  split_ifs
  · exact sound
  · exact sound.congr rfl
  · exact sound.dmaError
  · exact sound.congr rwError_transfers

theorem unlessError {op : BitVec 8} {rest : IDEBus → IDEBus}
    (restSound : ∀ after, after.Sound → (rest after).Sound) :
    (bus.unlessError s h error op rest).Sound := by
  cases error with
  | none => exact restSound bus sound
  | some error =>
    simp only [unlessError]
    split_ifs
    · exact sound.handleRwError
    · exact restSound _ sound.handleRwError

end

/-! ## PIO sectors -/

section

variable (sound : bus.Sound)

include sound

theorem chunkSectors_le : 512 * bus.chunkSectors s ≤ 8192 := by
  have req := (sound s).req
  simp only [chunkSectors, ifs_transfer, maxMultSectors] at req ⊢
  omega

theorem sectorRead : (bus.sectorRead s h).Sound := by
  have prepared : ((bus.setStatus s (readyStat ||| seekStat)).setError s 0).Sound :=
    sound.congr (by simp)
  have fits := prepared.chunkSectors_le (s := s)
  simp only [IDEBus.sectorRead]
  generalize ((bus.setStatus s (readyStat ||| seekStat)).setError s 0).chunkSectors s = n at fits ⊢
  split_ifs
  · exact prepared.transferStop
  · refine (prepared.congr (fill_transfers h.data)).unlessError fun after afterSound => ?_
    have started : (after.transferStart s 0 (512 * n) .sectorRead).Sound :=
      afterSound.transferStart (by decide) (fun isPacket => nomatch isPacket) fits
    exact started.congr (by simp)

theorem sectorWrite : (bus.sectorWrite s h).Sound := by
  have prepared : (bus.setStatus s (readyStat ||| seekStat)).Sound := sound.congr (by simp)
  simp only [IDEBus.sectorWrite]
  refine prepared.unlessError fun after afterSound => ?_
  generalize (bus.setStatus s (readyStat ||| seekStat)).chunkSectors s = n
  have taken : (after.takeNsector s n).Sound := afterSound.congr (takeNsector_transfers n)
  have fits := taken.chunkSectors_le (s := s)
  have stopped := taken.transferStop (s := s)
  have started : ((after.takeNsector s n).transferStart s 0
      (512 * (after.takeNsector s n).chunkSectors s) .sectorWrite).Sound :=
    taken.transferStart (by decide) (fun isPacket => nomatch isPacket) fits
  split_ifs
  · exact stopped.congr (by simp)
  · exact started.congr (by simp)
  · exact stopped.congr (by simp)
  · exact started.congr (by simp)

/-! ## Flushing and DMA -/

theorem flushCb : (bus.flushCb s h error).Sound :=
  sound.unlessError fun _ afterSound => afterSound.congr (by simp)

theorem flushCache : (bus.flushCache s h).Sound := by
  unfold IDEBus.flushCache
  split_ifs
  · exact sound.congr rfl
  · exact sound.flushCb
  · exact sound.flushCb

/-- The buffer index may go back to the start of the buffer in every transfer. -/
theorem resetIndex : (bus.setTransfer s fun t => { t with ioBufferIndex := 0 }).Sound := by
  have old := sound s
  refine sound.setTransfer
    { old with
      index := le_refl 0
      reply := fun isReply => ?_ }
  rcases old.reply isReply with replying | reading
  · have index := old.index
    refine .inl { replying with room := ?_ }
    rcases replying.room with done | room
    · exact .inl done
    · exact .inr (by simp only; omega)
  · exact .inr { reading with }

theorem dmaPass {prdBytes : Nat} {start : IDEBus → IDEBus}
    (startSound : ∀ after, after.Sound → (start after).Sound) :
    (bus.dmaPass s prdBytes start).Sound := by
  have advanced : (bus.dmaAdvance s).Sound := sound.congr dmaAdvance_transfers
  have reset := advanced.resetIndex (s := s)
  simp only [IDEBus.dmaPass]
  split_ifs
  · exact advanced.congr (by simp)
  · exact reset.congr (by simp)
  · exact startSound _ (reset.congr (by simp))

theorem dmaCb : (bus.dmaCb s h error).Sound := by
  refine sound.unlessError fun after afterSound => afterSound.dmaPass fun last lastSound => ?_
  split_ifs
  · exact lastSound.congr rfl
  · exact lastSound.unlessError fun _ endSound => endSound.dmaPass fun _ sound => sound

end

/-! ## ATAPI DMA -/

/-- What is left of a reply shrinks by more than the bus master moves. -/
theorem atapiDmaMove {size moved : Int} {t : Transfer} (old : t.Sound) (sizePos : 0 < size)
    (movedNonneg : 0 ≤ moved) (movedLe : moved ≤ max 0 (size - t.ioBufferIndex)) :
    Transfer.Sound { t with
      lba := if t.lba = -1 then -1 else t.lba + if t.cdSectorSize = 2352 then 1 else size / 2048
      packetTransferSize := t.packetTransferSize - size
      ioBufferIndex := t.ioBufferIndex + moved } := by
  have index := old.index
  refine
    { old with
      index := by simp only; omega
      reply := fun isReply => ?_ }
  rcases old.reply isReply with replying | reading
  · have room := replying.room
    refine .inl ⟨by simp [replying.noSector], replying.elementary, ?_⟩
    simp only
    omega
  · have lba := reading.lba
    refine .inr ⟨?_, reading.sectorSize⟩
    simp only
    split_ifs <;> omega

section

variable (sound : bus.Sound)

include sound

theorem atapiDmaNext : (bus.atapiDmaNext s h).Sound := by
  have reset := sound.resetIndex (s := s)
  simp only [IDEBus.atapiDmaNext]
  split_ifs
  · exact sound.congr (by simp)
  · exact reset.congr (by simp)
  · exact reset.congr (by simp)
  · exact reset.congr (by simp)
  · exact reset.congr (by simp)

/-- A completed chunk of an ATAPI transfer is moved out of the buffer of the drive it belongs to. -/
theorem atapiDmaAdvance (pending : 0 < (bus.ifs s).ioBufferSize) (own : bus.dma.unit ≠ some !s) :
    ((bus.atapiDmaAdvance s h).rwBuf h.prdBytes).1.Sound := by
  have advanced (moved : Int) (nonneg : 0 ≤ moved)
      (most : moved ≤ max 0 ((bus.ifs s).ioBufferSize - (bus.transfers s).ioBufferIndex)) :=
    atapiDmaMove (sound s) pending nonneg most
  have unitSame : (bus.atapiDmaAdvance s h).dma = bus.dma := by
    simp only [IDEBus.atapiDmaAdvance]
    split_ifs <;> rfl
  have sizeSame :
      ((bus.atapiDmaAdvance s h).ifs s).ioBufferSize = (bus.ifs s).ioBufferSize := by
    simp only [IDEBus.atapiDmaAdvance, IDEBus.setTransfer, on_ifs]
    split_ifs <;> simp [fill]
  have transfers := @atapiDmaAdvance_transfers bus s h
  unfold rwBuf
  rw [unitSame]
  cases unit : bus.dma.unit with
  | none => exact sound.update transfers (by simpa using advanced 0 (le_refl 0) (by omega))
  | some other =>
    obtain rfl : other = s := by
      cases other <;> cases s <;> simp_all
    have moved := advanced
      (min (max 0 ((bus.ifs other).ioBufferSize - (bus.transfers other).ioBufferIndex))
        h.prdBytes) (by omega) (by omega)
    refine sound.update (s := other) ?_ moved
    simp [transfers, sizeSame]

theorem atapiCmdReadDmaCb (own : bus.dma.unit ≠ some !s) :
    (bus.atapiCmdReadDmaCb s h error).Sound := by
  cases error with
  | some error => exact sound.congr (by simp [atapiCmdReadDmaCb])
  | none =>
    simp only [atapiCmdReadDmaCb]
    split_ifs with pending more
    · exact (sound.atapiDmaAdvance pending own).atapiDmaNext
    · exact (sound.atapiDmaAdvance pending own).congr rfl
    · exact sound.atapiDmaNext

theorem callback {cb : AioCallback} (own : cb = .atapiCmdReadDmaCb → bus.dma.unit ≠ some !s) :
    (bus.callback s h error cb).Sound := by
  cases cb with
  | dmaCb => exact sound.dmaCb
  | atapiCmdReadDmaCb => exact sound.atapiCmdReadDmaCb (own rfl)
  | flushCb => exact sound.flushCb

theorem runDma : (bus.runDma h).Sound := by
  unfold IDEBus.runDma
  split
  · next unit cb isUnit _ =>
    refine sound.callback fun _ => ?_
    rw [isUnit]
    cases unit <;> decide
  · exact sound

theorem startDma {cb : AioCallback} : (bus.startDma s h cb).Sound := by
  simp only [IDEBus.startDma]
  split_ifs
  · exact runDma sound
  · exact sound

theorem setDmaCmd {cmd : IdeDmaCmd} : (bus.setDmaCmd s cmd).Sound := by
  refine (sound.resetIndex (s := s)).congr ?_
  rw [IDEBus.setDmaCmd, on_transfers fun d => ?_]
  · exact setIoBufferSize_transfers 0
  · rfl

theorem sectorStartDma {cmd : IdeDmaCmd} : (bus.sectorStartDma s h cmd).Sound := by
  have prepared : (bus.setStatus s (readyStat ||| seekStat ||| drqStat ||| busyStat)).Sound :=
    sound.congr (by simp)
  exact prepared.setDmaCmd.startDma

end

/-! ## Replies -/

theorem atapiByteCount_bounds (left : 0 < (bus.transfers s).packetTransferSize) :
    0 ≤ bus.atapiByteCount s ∧
      bus.atapiByteCount s ≤ (bus.transfers s).packetTransferSize := by
  simp only [atapiByteCount, ifs_transfer]
  split_ifs <;> omega

theorem atapiSend_transfers (size : Int) :
    (bus.atapiSend s size).transfers =
      Function.update bus.transfers s ((bus.transfers s).sent size) := by
  simp [atapiSend, transferStart_transfers, Transfer.sent]

theorem atapiContinue (sound : bus.Sound) (reading : (bus.transfers s).Reading)
    (more : 0 < (bus.transfers s).elementaryTransferSize)
    (inside : (bus.transfers s).ioBufferIndex < (bus.transfers s).cdSectorSize) :
    (bus.atapiContinue s).Sound := by
  refine sound.update (atapiSend_transfers _) ?_
  rw [ifs_transfer]
  exact (sound s).sent_reading reading _ (by omega) (by omega)

section

variable (sound : bus.Sound) (left : 0 < (bus.transfers s).packetTransferSize)
  (ready : (bus.transfers s).Replying ∨ (bus.transfers s).Reading ∧
    (bus.transfers s).ioBufferIndex < (bus.transfers s).cdSectorSize)

include sound left ready

theorem atapiBegin : (bus.atapiBegin s).Sound := by
  obtain ⟨nonneg, most⟩ := @atapiByteCount_bounds (bus.setReason s 2) s (by simpa using left)
  rw [setReason_transfers] at most
  simp only [IDEBus.atapiBegin]
  generalize (bus.setReason s 2).atapiByteCount s = size at nonneg most ⊢
  generalize isBetween : ((bus.setReason s 2).on s fun d =>
    { d with
      lcyl := BitVec.ofInt 8 size
      hcyl := BitVec.ofInt 8 (size / 2 ^ 8)
      transfer := { d.transfer with elementaryTransferSize := size } }) = between
  have transfers : between.transfers = Function.update bus.transfers s
      { bus.transfers s with elementaryTransferSize := size } := by
    rw [← isBetween, on_transfers_update, setReason_transfers, ifs_transfer, setReason_transfers]
  have self : between.transfers s = { bus.transfers s with elementaryTransferSize := size } := by
    rw [transfers, update_self]
  refine sound.update (s := s) (t := (between.transfers s).sent
    (atapiChunk (between.transfers s) size)) ?_ ?_
  · rw [setIrq_transfers, atapiSend_transfers, ifs_transfer, transfers, Function.update_idem]
  · rw [self]
    rcases ready with replying | ⟨reading, inside⟩
    · rw [atapiChunk, if_neg (by simpa using replying.noSector)]
      exact (sound s).sent_replying replying nonneg most left
    · have lba := reading.lba
      rw [atapiChunk, if_pos (by simp only; omega)]
      exact (sound s).sent_reading reading size (by simp only; omega) (by simp only; omega)

theorem atapiProceed : (bus.atapiProceed s).Sound := by
  unfold IDEBus.atapiProceed
  split_ifs with more
  · rcases ready with replying | ⟨reading, inside⟩
    · exact absurd more (by simp [replying.elementary])
    · exact sound.atapiContinue reading more inside
  · exact sound.atapiBegin left ready

end

theorem atapiCmdReplyEnd {h : Host} (sound : bus.Sound)
    (ready : (bus.transfers s).Replying ∨ (bus.transfers s).lba ≠ -1 ∧
      (0 ≤ (bus.transfers s).lba ∨
        (bus.transfers s).cdSectorSize ≤ (bus.transfers s).ioBufferIndex) ∧
      ((bus.transfers s).cdSectorSize = 2048 ∨ (bus.transfers s).cdSectorSize = 2352)) :
    (bus.atapiCmdReplyEnd s h).Sound := by
  rw [IDEBus.atapiCmdReplyEnd, ifs_transfer]
  dsimp only
  split_ifs with done sector
  · exact (sound.transferStop (s := s)).congr (by simp [atapiReplyDone])
  · have filled : (bus.fill s h.data).Sound := sound.congr (fill_transfers _)
    cases isRead : cdReadSector h (bus.transfers s).lba (bus.transfers s).cdSectorSize with
    | some error => exact (filled.transferStop (s := s)).congr (by simp)
    | none =>
      obtain replying | ⟨-, -, sectorSize⟩ := ready
      · exact absurd replying.noSector sector.1
      have lba : 0 ≤ (bus.transfers s).lba := by
        by_contra negative
        simp [cdReadSector, sectorSize, not_le.mp negative] at isRead
      have reading : Transfer.Reading { bus.transfers s with
          lba := (bus.transfers s).lba + 1, ioBufferIndex := 0 } :=
        ⟨by simp only; omega, sectorSize⟩
      have started := filled.setTransfer (s := s)
        (f := fun t => { t with lba := t.lba + 1, ioBufferIndex := 0 })
        { filled s with
          index := le_refl 0
          reply := fun _ => .inr (by simpa using reading) }
      refine started.atapiProceed ?_ (.inr ?_)
      · simpa using done
      · simp only [setTransfer_transfers, fill_transfers, update_self]
        exact ⟨reading, by omega⟩
  · refine sound.atapiProceed (by omega) ?_
    obtain replying | ⟨noSector, lba, sectorSize⟩ := ready
    · exact .inl replying
    · have inside : (bus.transfers s).ioBufferIndex < (bus.transfers s).cdSectorSize := by
        by_contra outside
        exact sector ⟨noSector, by omega⟩
      exact .inr ⟨⟨by omega, sectorSize⟩, inside⟩

/-! ## Packet commands -/

section

variable (sound : bus.Sound)

include sound

theorem cmdStartStopUnit : (bus.cmdStartStopUnit s h buf).Sound := by
  unfold IDEBus.cmdStartStopUnit
  split
  · exact sound.congr atapiCmdOk_transfers
  · split_ifs
    all_goals exact sound.congr (atapiCmdError_transfers _ _)

variable (isPacket : (bus.transfers s).endTransferFunc = .atapiCmd)

include isPacket

/-- A reply of a few bytes to the packet that is in the buffer. -/
theorem atapiCmdReply {size maxSize : Int} (small : size ≤ 2052) :
    (bus.atapiCmdReply s h size maxSize).Sound := by
  have old := sound s
  have started : ((bus.setTransfer s (replyTransfer (min size maxSize))).setIoBufferSize s
      (min size maxSize)).Sound := by
    refine (sound.setTransfer (s := s) (f := replyTransfer (min size maxSize))
      { old with
        index := le_refl 0
        reply := fun isReply => ?_ }).congr (by simp)
    rw [replyTransfer, isPacket] at isReply
    cases isReply
  simp only [IDEBus.atapiCmdReply]
  split_ifs
  · exact startDma (started.congr (by simp))
  · refine atapiCmdReplyEnd (started.congr (by simp)) (.inl ?_)
    simp only [setStatus_transfers, setIoBufferSize_transfers, setTransfer_transfers,
      update_self]
    exact ⟨rfl, rfl, .inr (by simp only [replyTransfer]; omega)⟩

theorem reply {size maxSize : Int} (small : size ≤ 2052) : (bus.reply s h size maxSize).Sound :=
  (sound.congr (fill_transfers h.data)).atapiCmdReply (by simpa using isPacket) small

theorem atapiCmdRead {lba nbSectors sectorSize : Int}
    (isSize : sectorSize = 2048 ∨ sectorSize = 2352)
    (forward : (bus.ifs s).atapiDma = false → lba ≠ -1) :
    (bus.atapiCmdRead s h lba nbSectors sectorSize).Sound := by
  have old := sound s
  have noReply : (bus.transfers s).endTransferFunc ≠ .atapiCmdReplyEnd := by simp [isPacket]
  unfold IDEBus.atapiCmdRead
  split_ifs with dma
  · refine startDma (sound.update (s := s) (by simp; rfl) ?_)
    exact
      { old with
        index := le_refl 0
        reply := fun isReply => absurd isReply noReply }
  · refine atapiCmdReplyEnd (sound.update (s := s) (by simp; rfl) ?_) (.inr ?_)
    · exact
        { old with
          index := by simp only; omega
          reply := fun isReply => absurd isReply noReply }
    · simpa using ⟨forward (by simpa using dma), isSize⟩

section

variable (forward : (bus.ifs s).atapiDma = false → ube32ToCpu buf 2 ≠ -1)

include forward

theorem cmdRead : (bus.cmdRead s h buf).Sound := by
  simp only [IDEBus.cmdRead]
  generalize (if buf 0 = 0x28 then ube16ToCpu buf 7 else ube32ToCpu buf 6) = nbSectors
  split_ifs
  · exact sound.congr atapiCmdOk_transfers
  · exact sound.atapiCmdRead isPacket (.inl rfl) forward

theorem cmdReadCd : (bus.cmdReadCd s h buf).Sound := by
  simp only [IDEBus.cmdReadCd]
  split_ifs
  · exact sound.congr atapiCmdOk_transfers
  · exact sound.congr atapiCmdOk_transfers
  · exact sound.atapiCmdRead isPacket (.inl rfl) forward
  · exact sound.atapiCmdRead isPacket (.inr rfl) forward
  · exact sound.congr invalidField_transfers

end

theorem cmdGetEventStatusNotification : (bus.cmdGetEventStatusNotification s h buf).Sound := by
  simp only [IDEBus.cmdGetEventStatusNotification]
  split_ifs
  · exact sound.congr invalidField_transfers
  · exact (sound.congr (eventStatusMedia_transfers h)).reply (by simpa using isPacket) (by decide)
  · exact sound.reply isPacket (by decide)

theorem cmdRequestSense : (bus.cmdRequestSense s h buf).Sound := by
  have cleared : (bus.on s fun d => { d with senseKey := 0 }).transfers = bus.transfers :=
    on_transfers fun _ => rfl
  simp only [IDEBus.cmdRequestSense]
  split_ifs
  · exact (sound.congr cleared).reply (by rw [cleared]; exact isPacket) (by decide)
  · exact sound.reply isPacket (by decide)

theorem cmdModeSense {buf : Nat → BitVec 8} : (bus.cmdModeSense s h buf).Sound := by
  have pages : ∀ code size, modePage code = some size → size ≤ 2052 := by
    intro code size isPage
    unfold modePage at isPage
    split at isPage <;> simp_all <;> omega
  simp only [IDEBus.cmdModeSense]
  generalize (if buf 0 = 0x5a then ube16ToCpu buf 7 else (buf 4).toNat) = maxLen
  split_ifs
  · split
    · next size isPage => exact sound.reply isPacket (pages _ size isPage)
    · exact sound.congr invalidField_transfers
  · exact sound.congr invalidField_transfers
  · exact sound.congr (atapiCmdError_transfers _ _)

theorem cmdReadTocPmaAtip : (bus.cmdReadTocPmaAtip s h buf).Sound := by
  have lengths : ∀ track len, cdromReadToc track = some len → len ≤ 2052 := by
    intro track len isLength
    unfold cdromReadToc at isLength
    split_ifs at isLength
    all_goals
      obtain rfl := Option.some.inj isLength
      decide
  simp only [IDEBus.cmdReadTocPmaAtip]
  split_ifs
  · split
    · next len isLength => exact sound.reply isPacket (lengths _ len isLength)
    · exact sound.congr invalidField_transfers
  · exact sound.reply isPacket (by decide)
  · exact sound.reply isPacket (by decide)
  · exact sound.congr invalidField_transfers

theorem cmdReadDvdStructure : (bus.cmdReadDvdStructure s h buf).Sound := by
  have lengths : ∀ format layer size, bus.dvdReadStructure s format layer = .ok size →
      size ≤ 2052 := by
    intro format layer size isLength
    unfold dvdReadStructure at isLength
    split at isLength
    · split_ifs at isLength
      obtain rfl := Except.ok.inj isLength
      decide
    all_goals first
      | (obtain rfl := Except.ok.inj isLength; decide)
      | cases isLength
  simp only [IDEBus.cmdReadDvdStructure]
  generalize (if 6 < ube16ToCpu buf 8 then 0 else buf 6) = layer
  split_ifs
  · exact sound.congr (atapiCmdError_transfers _ _)
  · exact sound.congr invalidField_transfers
  · split
    · next size isLength => exact sound.reply isPacket (lengths _ layer size isLength)
    · exact sound.congr (by simp)
  · exact sound.congr (by simp)

theorem atapiHandler {h : Host} {buf : Nat → BitVec 8} {command : AtapiCommand}
    (forward : (bus.ifs s).atapiDma = false → command = .read ∨ command = .readCd →
      ube32ToCpu buf 2 ≠ -1) :
    (bus.atapiHandler s h buf command).Sound := by
  cases command with
  | testUnitReady | preventAllowMediumRemoval | setSpeed => exact sound.congr atapiCmdOk_transfers
  | requestSense => exact sound.cmdRequestSense isPacket
  | inquiry | readCdvdCapacity | mechanismStatus => exact sound.reply isPacket (by decide)
  | modeSense => exact sound.cmdModeSense isPacket
  | startStopUnit => exact sound.cmdStartStopUnit
  | read => exact sound.cmdRead isPacket fun pio => forward pio (.inl rfl)
  | seek =>
    simp only [IDEBus.atapiHandler, cmdSeek]
    split_ifs
    · exact sound.congr (atapiCmdError_transfers _ _)
    · exact sound.congr atapiCmdOk_transfers
  | readTocPmaAtip => exact sound.cmdReadTocPmaAtip isPacket
  | getConfiguration =>
    simp only [IDEBus.atapiHandler, cmdGetConfiguration]
    split_ifs
    · exact sound.congr invalidField_transfers
    · exact sound.reply isPacket (by decide)
  | getEventStatusNotification => exact sound.cmdGetEventStatusNotification isPacket
  | readDvdStructure => exact sound.cmdReadDvdStructure isPacket
  | readCd => exact sound.cmdReadCd isPacket fun pio => forward pio (.inr rfl)

end

end Sound

end IDEBus

/-- The packet in the buffer asks to read, without DMA, the sector whose number stands for "no
sector read". -/
def IDEState.ReadsNoSector (d : IDEState) : Prop :=
  d.transfer.endTransferFunc = .atapiCmd ∧ d.atapiDma = false ∧
    (atapiCmdTable (d.ioBuffer 0) = some .read ∨
      atapiCmdTable (d.ioBuffer 0) = some .readCd) ∧
    ube32ToCpu d.ioBuffer 2 = -1

namespace IDEBus.Sound

theorem atapiCmd (sound : bus.Sound) (isPacket : (bus.transfers s).endTransferFunc = .atapiCmd)
    (forward : ¬ (bus.ifs s).ReadsNoSector) : (bus.atapiCmd s h).Sound := by
  simp only [IDEBus.atapiCmd]
  split_ifs
  · exact sound.congr atapiCmdCheckStatus_transfers
  · exact sound.congr reportChange_transfers
  · exact sound.congr (atapiCmdError_transfers _ _)
  · split
    · next command isCommand =>
      refine sound.atapiHandler isPacket fun pio isRead backwards => forward ?_
      refine ⟨isPacket, pio, ?_, backwards⟩
      rw [isCommand]
      exact isRead.imp (congrArg some) (congrArg some)
    · exact sound.congr (atapiCmdError_transfers _ _)

end IDEBus.Sound

end Qemu.Hw.Ide
