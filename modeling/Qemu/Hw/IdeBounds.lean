import Qemu.Hw.IdeTransfers

/-!
# Bounds of the IDE data port

The data port keeps to the sector buffer as long as it is not used behind the end of a transfer,
which DMA commands invite by raising DRQ over a transfer that is used up; as long as no packet asks
for the sector that marks "no sector read"; and as long as the bus master moves the data of the
drive whose request completes.
-/

namespace Qemu.Hw.Ide

open Status Function List IDEBus DataPort

variable {bus : IDEBus} {s : Bool} {h : Host} {lba48 : Bool} {extra : Nat} {val : BitVec 8}
variable {count : Nat}

namespace IDEBus.Sound

/-! ## Commands -/

section

variable (sound : bus.Sound)

include sound

theorem answer : (bus.answer s h).Sound := by
  have filled : ((bus.fill s h.data).setStatus s (readyStat ||| seekStat)).Sound :=
    sound.congr (by simp)
  have started : (((bus.fill s h.data).setStatus s (readyStat ||| seekStat)).transferStart s 0 512
      .transferStop).Sound :=
    filled.transferStart (by decide) nofun (by decide)
  exact started.congr setIrq_transfers

theorem setMultSectors (small : count ≤ maxMultSectors) : (bus.setMultSectors s count).Sound :=
  sound.setTransfer
    { sound s with
      mult := small
      reply := fun isReply => ((sound s).reply isReply).imp (fun r => { r with }) fun r =>
        { r with } }

theorem setReqNbSectors (small : count ≤ maxMultSectors) : (bus.setReqNbSectors s count).Sound :=
  sound.setTransfer
    { sound s with
      req := small
      reply := fun isReply => ((sound s).reply isReply).imp (fun r => { r with }) fun r =>
        { r with } }

theorem execSetmult : (bus.execSetmult s).Sound := by
  have off := sound.setMultSectors (s := s) (Nat.zero_le _)
  simp only [IDEBus.execSetmult]
  split_ifs with isCfata tooMany
  · exact off.congr (by simp)
  · exact sound.congr (by simp)
  · have small : ((bus.ifs s).nsector &&& 0xff).toNat ≤ maxMultSectors := by
      by_contra many
      exact tooMany ⟨by omega, .inl (by omega)⟩
    exact (sound.setMultSectors (s := s) small).congr (by simp)

theorem startWrite (small : count ≤ maxMultSectors) : (bus.startWrite s lba48 count).Sound :=
  setReqNbSectors (sound.congr (by simp)) small

theorem execRead : (bus.execRead s h lba48).Sound := by
  unfold IDEBus.execRead
  split_ifs
  · exact sound.congr abortCmd_transfers
  · have transformed : (bus.cmdLba48Transform s lba48).Sound := sound.congr (by simp)
    exact (transformed.setReqNbSectors (by decide)).sectorRead

theorem execWrite : (bus.execWrite s lba48).Sound := by
  have started : (bus.startWrite s lba48 1).Sound := sound.startWrite (by decide)
  have transfer : ((bus.startWrite s lba48 1).transferStart s 0 512 .sectorWrite).Sound :=
    started.transferStart (by decide) nofun (by decide)
  exact transfer.congr (setMediaChanged_transfers true)

theorem execMultread : (bus.execMultread s h lba48).Sound := by
  simp only [IDEBus.execMultread]
  split_ifs
  · exact sound.congr abortCmd_transfers
  · have transformed : (bus.cmdLba48Transform s lba48).Sound := sound.congr (by simp)
    exact (transformed.setReqNbSectors (sound s).mult).sectorRead

theorem execMultwrite : (bus.execMultwrite s lba48).Sound := by
  simp only [IDEBus.execMultwrite]
  split_ifs
  · exact sound.congr abortCmd_transfers
  · have started : (bus.startWrite s lba48 (bus.ifs s).transfer.multSectors).Sound :=
      sound.startWrite (sound s).mult
    generalize bus.startWrite s lba48 (bus.ifs s).transfer.multSectors = begun at started ⊢
    have transfer : (begun.transferStart s 0 (512 * begun.chunkSectors s) .sectorWrite).Sound :=
      started.transferStart (by decide) nofun started.chunkSectors_le
    exact transfer.congr (setMediaChanged_transfers true)

theorem execPacketcmd : (bus.execPacketcmd s).Sound := by
  simp only [IDEBus.execPacketcmd]
  split_ifs
  · exact sound.congr abortCmd_transfers
  · exact sound.congr abortCmd_transfers
  · refine transferStart (sound.congr ?_) (by decide) (fun _ => rfl) (by decide)
    rw [on_transfers fun d => ?_]
    · exact setStatus_transfers _
    · rfl

theorem cfataMetadata {fits : IDEBus → IDEBus} (fitsSound : (fits bus).Sound) :
    (bus.cfataMetadata s fits).Sound := by
  unfold IDEBus.cfataMetadata
  split_ifs
  · exact sound.congr (by simp)
  · exact fitsSound

theorem execAccessMetadataStorage : (bus.execAccessMetadataStorage s h).Sound := by
  have finish (after : IDEBus) (afterSound : after.Sound) :
      (((after.transferStart s 0 512 .transferStop).setStatus s 0).setIrq).Sound := by
    have started : (after.transferStart s 0 512 .transferStop).Sound :=
      afterSound.transferStart (by decide) nofun (by decide)
    exact started.congr (by simp)
  have filled : (bus.fill s h.data).Sound := sound.congr (fill_transfers _)
  simp only [IDEBus.execAccessMetadataStorage]
  split_ifs
  · exact sound.congr abortCmd_transfers
  · exact finish _ filled
  · exact finish _ (sound.cfataMetadata filled)
  · exact finish _ (sound.cfataMetadata (sound.congr (setMediaChanged_transfers false)))
  · exact sound.congr abortCmd_transfers

theorem onCfata {rest : IDEBus → IDEBus} (restSound : (rest bus).Sound) :
    (bus.onCfata s rest).Sound := by
  unfold IDEBus.onCfata
  split_ifs
  · exact sound.congr abortCmd_transfers
  · exact restSound

theorem on_frame {f : IDEState → IDEState} (frame : ∀ d, (f d).transfer = d.transfer) :
    (bus.on s f).Sound :=
  sound.congr (on_transfers frame)

theorem succeed : (bus.succeed s).Sound := sound.congr succeed_transfers

theorem execSmart : (bus.execSmart s h).Sound := by
  have aborted : (bus.abortCmd s).Sound := sound.congr abortCmd_transfers
  simp only [IDEBus.execSmart]
  split_ifs
  · exact aborted
  · exact aborted
  · exact succeed (sound.on_frame fun _ => rfl)
  · exact succeed (sound.on_frame fun _ => rfl)
  · unfold smartAttrAutosave
    dsimp only
    split_ifs
    · exact succeed (sound.on_frame fun _ => rfl)
    · exact succeed (sound.on_frame fun _ => rfl)
    · exact aborted
  · refine succeed (sound.on_frame fun d => ?_)
    split_ifs <;> rfl
  · exact sound.answer
  · exact sound.answer
  · exact aborted
  · unfold smartExecuteOffline
    split_ifs
    · exact succeed (sound.on_frame fun _ => rfl)
    · exact aborted
  · exact aborted

theorem execute {command : AtaCommand} : (bus.execute s h command).Sound := by
  have aborted : (bus.abortCmd s).Sound := sound.congr abortCmd_transfers
  have errorSet (value : BitVec 8) : (bus.setError s value).Sound :=
    sound.congr (setError_transfers value)
  have transformed (lba48 : Bool) : (bus.cmdLba48Transform s lba48).Sound :=
    sound.congr (cmdLba48Transform_transfers lba48)
  cases command with
  | dsm =>
    simp only [IDEBus.execute, execDsm]
    split_ifs
    · exact sound.sectorStartDma
    · exact aborted
  | identify =>
    simp only [IDEBus.execute, execIdentify]
    split_ifs
    · exact sound.answer
    · exact sound.congr (by simp)
    · exact aborted
  | specify => exact (errorSet 0).succeed
  | setmult => exact sound.execSetmult
  | verify lba48 => exact (transformed lba48).succeed
  | read lba48 => exact sound.execRead
  | write lba48 => exact sound.execWrite
  | multread lba48 => exact sound.execMultread
  | multwrite lba48 => exact sound.execMultwrite
  | readdma lba48 =>
    simp only [IDEBus.execute, execReaddma]
    split_ifs
    · exact aborted
    · exact (transformed lba48).sectorStartDma
  | writedma lba48 =>
    simp only [IDEBus.execute, execWritedma]
    split_ifs
    · exact aborted
    · exact (transformed lba48).sectorStartDma.congr (setMediaChanged_transfers true)
  | readNativeMax lba48 | checkpowermode | standby => exact sound.congr (by simp [IDEBus.execute])
  | setfeatures => exact sound.congr execSetfeatures_transfers
  | flushCache => exact sound.flushCache
  | seek =>
    simp only [IDEBus.execute]
    split_ifs
    · exact aborted
    · exact sound.succeed
  | pidentify =>
    simp only [IDEBus.execute, execPidentify]
    split_ifs
    · exact sound.answer
    · exact aborted
  | diagnose => exact sound.congr (by simp [IDEBus.execute, execDiagnose])
  | srst =>
    simp only [IDEBus.execute, execSrst]
    split_ifs
    · exact aborted
    · exact sound.congr (by simp)
  | packetcmd => exact sound.execPacketcmd
  | reqExtErrorCode => exact sound.onCfata (errorSet 0x09).succeed
  | eraseSectors | wearLevel => exact sound.onCfata (sound.congr (by simp))
  | translateSector => exact sound.onCfata (errorSet 0).answer
  | accessMetadataStorage => exact sound.execAccessMetadataStorage
  | senseCondition =>
    refine sound.onCfata ?_
    split_ifs
    · exact sound.congr (by simp)
    · exact aborted
  | smart => exact sound.execSmart

theorem execCmd : (bus.execCmd h val).Sound := by
  simp only [IDEBus.execCmd]
  split_ifs
  · exact sound
  · exact sound
  · split
    · exact sound.execute
    · exact sound.congr abortCmd_transfers

end

/-! ## Registers and resets -/

theorem onBoth {f : IDEState → IDEState} (sound : bus.Sound)
    (frame : ∀ d, (f d).transfer = d.transfer) : (bus.onBoth f).Sound :=
  (sound.on_frame frame).on_frame frame

theorem ioportWrite {addr : BitVec 3} (sound : bus.Sound) : (bus.ioportWrite h addr val).Sound := by
  unfold IDEBus.ioportWrite
  split_ifs
  · exact sound.execCmd
  · exact sound
  · have first : (bus.on false fun d => { d with select := (val &&& ~~~ 0x10) ||| 0xa0 }).Sound :=
      sound.on_frame fun _ => rfl
    have second : ((bus.on false fun d => { d with select := (val &&& ~~~ 0x10) ||| 0xa0 }).on true
        fun d => { d with select := (val ||| 0x10) ||| 0xa0 }).Sound :=
      first.on_frame fun _ => rfl
    exact second
  · refine sound.onBoth fun d => ?_
    unfold writeRegister
    split <;> rfl

theorem setSignature (sound : bus.Sound) : (bus.setSignature s).Sound :=
  sound.congr setSignature_transfers

theorem cmdWrite (sound : bus.Sound) : (bus.cmdWrite val).Sound := by
  have raised : bus.resetRise.Sound := sound.onBoth fun _ => rfl
  have fallen : bus.resetFall.Sound :=
    setSignature (setSignature (sound.onBoth fun _ => rfl))
  simp only [IDEBus.cmdWrite]
  split_ifs
  · exact raised
  · exact fallen
  · exact sound

theorem reset_transfers : (bus.reset s).transfers = Function.update bus.transfers s
    { bus.transfers s with
      multSectors := if (bus.ifs s).driveKind = .cfata then 0 else maxMultSectors
      packetTransferSize := 0, elementaryTransferSize := 0, ioBufferIndex := 0
      cdSectorSize := 0, reqNbSectors := 0
      endTransferFunc := .dummyTransferStop, dataPtr := 0, dataEnd := 0 } := by
  rw [reset, dummyTransferStop, on_transfers fun d => ?_, setTransfer_transfers,
    setSignature_transfers, on_transfers_update, update_idem, update_self]
  · rfl
  · rfl

/-- A reset makes the transfer of a drive sound, whatever it was. -/
theorem reset_self : ((bus.reset s).transfers s).Sound := by
  rw [reset_transfers, update_self]
  constructor
  · simp only
    split_ifs <;> decide
  all_goals simp [maxMultSectors]

theorem reset_both : ((bus.reset false).reset true).Sound := by
  intro unit
  cases unit with
  | true => exact reset_self
  | false =>
    rw [reset_transfers, update_of_ne (by decide)]
    exact reset_self

theorem busReset : bus.busReset.Sound := by
  have cleared (start : IDEBus) : (((start.reset false).reset true).onBoth clearHob).Sound :=
    reset_both.onBoth fun _ => rfl
  have same (start : IDEBus) (dma : BMDMAState) (sound : start.Sound) :
      ({ start with dma := dma } : IDEBus).Sound := sound
  exact same _ _ (cleared _)

/-! ## The data port -/

section

variable (sound : bus.Sound)

include sound

theorem dummyTransferStop (isDummy : (bus.transfers s).endTransferFunc = .dummyTransferStop) :
    (bus.dummyTransferStop s).Sound := by
  refine sound.update (s := s) (t := { bus.transfers s with dataPtr := 0, dataEnd := 0 }) ?_
    { sound s with
      ptr := le_refl 0
      limit := (by decide : (0 : Int) ≤ 8192)
      packet := fun isPacket => ?_
      reply := fun isReply => ?_ }
  · rw [IDEBus.dummyTransferStop, on_transfers fun d => ?_]
    · exact setTransfer_transfers _
    · rfl
  · exact nomatch isDummy.symm.trans isPacket
  · exact nomatch isDummy.symm.trans isReply

theorem endTransfer (forward : ¬ (bus.ifs s).ReadsNoSector) :
    (bus.endTransfer s h (bus.transfers s).endTransferFunc).Sound := by
  cases func : (bus.transfers s).endTransferFunc with
  | sectorRead => exact sound.sectorRead
  | sectorWrite => exact sound.sectorWrite
  | transferStop => exact sound.transferStop
  | atapiCmd => exact sound.atapiCmd func forward
  | atapiCmdReplyEnd =>
    refine sound.atapiCmdReplyEnd (((sound s).reply func).imp_right fun reading => ?_)
    have lba := reading.lba
    exact ⟨by omega, .inl lba, reading.sectorSize⟩
  | dummyTransferStop => exact sound.dummyTransferStop func

theorem advanceData {h : Host} {width : Nat}
    (forward : (bus.transfers bus.unit).dataEnd ≤ (bus.transfers bus.unit).dataPtr + width →
 ¬ (bus.ifs bus.unit).ReadsNoSector) : (bus.advanceData h width).Sound := by
  have old := sound bus.unit
  have ptr := old.ptr
  have moved : (bus.setTransfer bus.unit fun t => { t with dataPtr := t.dataPtr + width }).Sound :=
    sound.setTransfer
      { old with
        ptr := by simp only; omega
        reply := fun isReply => (old.reply isReply).imp (fun r => { r with }) fun r => { r with } }
  simp only [IDEBus.advanceData]
  split_ifs with atEnd
  · refine moved.endTransfer fun backwards => ?_
    simp only [ifs_transfer, setTransfer_transfers, update_self] at atEnd
    simp only [IDEBus.setTransfer, on_ifs] at backwards
    exact forward atEnd backwards
  · exact moved

theorem dataWrite {bytes : List (BitVec 8)} (few : bytes.length ≤ 4)
    (forward : ∀ offset, bus.dataOffset false = some offset → ¬ (bus.ifs bus.unit).ReadsNoSector) :
    (bus.dataWrite h bytes).Sound := by
  unfold IDEBus.dataWrite
  split
  · next offset isOffset =>
    have isPtr : (bus.transfers bus.unit).dataPtr = offset := by
      simp only [dataOffset] at isOffset
      split_ifs at isOffset
      exact Option.some.inj isOffset
    have stored : (bus.storeData offset bytes).Sound := sound.on_frame fun _ => rfl
    have transfers : (bus.storeData offset bytes).transfers = bus.transfers :=
      on_transfers fun _ => rfl
    refine stored.advanceData fun atEnd backwards => forward offset isOffset ?_
    obtain ⟨isPacket, pio, isRead, noSector⟩ := backwards
    rw [ifs_transfer, transfers] at isPacket
    have packetEnd := (sound bus.unit).packet isPacket
    rw [transfers] at atEnd
    have kept (i : Nat) (early : i < 8) :
        ((bus.storeData offset bytes).ifs bus.unit).ioBuffer i =
          (bus.ifs bus.unit).ioBuffer i := by
      rw [storeData, on_ifs]
      exact if_neg (by simp only [storeData, on_unit] at atEnd; omega)
    refine ⟨isPacket, by simpa [storeData] using pio, ?_, ?_⟩
    · rw [← kept 0 (by decide)]
      exact isRead
    · unfold ube32ToCpu at noSector ⊢
      rw [← kept 2 (by decide), ← kept (2 + 1) (by decide), ← kept (2 + 2) (by decide),
        ← kept (2 + 3) (by decide)]
      exact noSector
  · exact sound

theorem dataRead {width : Nat}
    (forward : ∀ offset, bus.dataOffset true = some offset → ¬ (bus.ifs bus.unit).ReadsNoSector) :
    (bus.dataRead h width).Sound := by
  unfold IDEBus.dataRead
  split
  · next offset isOffset => exact sound.advanceData fun _ => forward offset isOffset
  · exact sound

/-! ## The bus master and the block layer -/

theorem bmdmaCmdWriteb : (bus.bmdmaCmdWriteb h val).Sound := by
  simp only [IDEBus.bmdmaCmdWriteb]
  split_ifs
  · exact @runDma { bus with dma := { bus.dma with dmaing := true } } h sound
  · exact sound

theorem restartDma {cmd : IdeDmaCmd} : (bus.restartDma s h cmd).Sound := by
  have prepared : ((bus.setSector s bus.dma.sectorNum).setNsector s bus.dma.nsector).Sound :=
    sound.congr (by simp)
  exact prepared.setDmaCmd.startDma

theorem restartRequest {op : BitVec 8} : (bus.restartRequest s h op).Sound := by
  unfold IDEBus.restartRequest
  split_ifs
  · exact sound.restartDma
  · exact sound.restartDma
  · exact sound.restartDma
  · exact sound.sectorRead
  · exact sound.sectorWrite
  · exact sound.flushCache
  · exact sound

theorem bmdmaRestartBh : (bus.bmdmaRestartBh h).Sound := by
  unfold IDEBus.bmdmaRestartBh
  split
  · exact sound
  · exact @restartRequest { bus with errorStatus := 0 } _ h sound _

theorem complete {unit : Bool} {cb : AioCallback} {error : Option Nat}
    (own : cb = .atapiCmdReadDmaCb → bus.dma.unit ≠ some !unit) :
    (bus.complete h unit cb error).Sound := by
  simp only [IDEBus.complete]
  split_ifs
  · refine callback (congr sound ?_) own
    exact fill_transfers _
  · refine callback (congr sound ?_) own
    rfl
  · exact sound

theorem cdromChangeCb : (bus.cdromChangeCb s h).Sound := by
  have changed : (bus.on s fun d =>
      { d with nbSectors := h.nbSectors, cdromChanged := true, newMedia := true }).Sound :=
    sound.on_frame fun _ => rfl
  exact changed.congr setIrq_transfers

end

end IDEBus.Sound

/-! ## Runs -/

/-- An access of the data port finds a transfer that is not used up, and is not about to read "no
sector"; a completed ATAPI request does not find the other drive on the bus master. -/
def Event.Orderly (event : Event) (bus : IDEBus) : Prop :=
  match event with
  | .data port => ∀ offset, bus.dataOffset port.out = some offset →
      (offset = 0 ∨ offset ≤ (bus.ifs bus.unit).transfer.dataEnd) ∧
        ¬ (bus.ifs bus.unit).ReadsNoSector
  | .complete unit .atapiCmdReadDmaCb _ => bus.dma.unit ≠ some !unit
  | _ => True

/-- The states a bus can get to after a reset through events that are allowed where they happen. -/
inductive Reached (allowed : Event → IDEBus → Prop) (start : IDEBus) : IDEBus → Prop
  | reset : Reached allowed start start.busReset
  | step {bus : IDEBus} (reached : Reached allowed start bus) (event : Event) (h : Host)
      (isAllowed : allowed event bus) : Reached allowed start (event.step h bus)

theorem Reached.run {start : IDEBus} (reached : Reached (fun _ _ => True) start bus)
    (events : List (Event × Host)) :
    Reached (fun _ _ => True) start
      (events.foldl (fun bus event => event.1.step event.2 bus) bus) := by
  induction events generalizing bus with
  | nil => exact reached
  | cons event rest ih => exact ih (reached.step event.1 event.2 trivial)

theorem Event.step_sound {event : Event} (sound : bus.Sound) (orderly : event.Orderly bus) :
    (event.step h bus).Sound := by
  cases event with
  | ioportWrite addr val => exact sound.ioportWrite
  | statusRead => exact sound
  | cmdWrite val => exact sound.cmdWrite
  | data port =>
    have forward (offset : Int) (isOffset : bus.dataOffset port.out = some offset) :=
      (orderly offset isOffset).2
    cases port with
    | writew val | writel val => exact sound.dataWrite (by simp) forward
    | readw | readl => exact sound.dataRead forward
  | bmdmaCmdWriteb val => exact sound.bmdmaCmdWriteb
  | complete unit cb error =>
    refine sound.complete fun isAtapi => ?_
    subst isAtapi
    exact orderly
  | restart => exact sound.bmdmaRestartBh
  | sectorWriteTimer => exact sound.congr setIrq_transfers
  | cdromChange unit => exact sound.cdromChangeCb
  | busReset => exact Sound.busReset

theorem Reached.sound {start : IDEBus} (reached : Reached Event.Orderly start bus) : bus.Sound := by
  induction reached with
  | reset => exact Sound.busReset
  | step _ event h orderly ih => exact event.step_sound ih orderly

/-- In an orderly run every access of the data port stays in the sector buffer. -/
theorem dataPort_inside {start : IDEBus} (reached : Reached Event.Orderly start bus)
    (port : DataPort) (orderly : (Event.data port).Orderly bus) :
    ∀ i ∈ port.touches bus, 0 ≤ i ∧ i < ioBufferLength := by
  have sound := reached.sound bus.unit
  have ptr := sound.ptr
  have limit := sound.limit
  have narrow : port.width ≤ 4 := by cases port <;> simp [width]
  intro i member
  unfold touches at member
  cases isOffset : bus.dataOffset port.out with
  | none => simp [isOffset] at member
  | some offset =>
    have inside := (orderly offset isOffset).1
    have isPtr : (bus.transfers bus.unit).dataPtr = offset := by
      simp only [dataOffset] at isOffset
      split_ifs at isOffset
      exact Option.some.inj isOffset
    rw [isOffset] at member
    obtain ⟨j, below, rfl⟩ := mem_map.mp member
    rw [mem_range] at below
    rw [ifs_transfer] at inside
    have length : (ioBufferLength : Int) = 131076 := by decide
    omega

def IDEState.powerOn (kind : IDEDriveKind) (bs : Bool) : IDEState where
  driveKind := kind
  bs := bs
  heads := 16
  sectors := 63
  nbSectors := 64
  feature := 0
  error := 0
  nsector := 0
  sector := 0
  lcyl := 0
  hcyl := 0
  hobFeature := 0
  hobNsector := 0
  hobSector := 0
  hobLcyl := 0
  hobHcyl := 0
  select := 0
  status := 0
  lba48 := false
  newMedia := false
  senseKey := 0
  asc := 0
  cdromChanged := false
  atapiDma := false
  ioBufferSize := 0
  transfer := ⟨0, 0, .dummyTransferStop, 0, 0, 0, 0, 0, 0, 0⟩
  ioBuffer := fun _ => 0
  mdataSize := 0
  mediaChanged := false
  dmaCmd := .read
  smartEnabled := true
  smartAutosave := true
  smartErrors := false
  smartSelftestCount := 0

/-- A bus with one CD drive. -/
def cdBus : IDEBus where
  ifs unit := .powerOn (if unit then .hd else .cd) !unit
  unit := false
  cmd := 0
  irq := false
  errorStatus := 0
  dma := ⟨none, none, false, 0, 0, 0, none, []⟩

def calmHost : Host where
  blockError := none
  onError := .report
  submitted := true
  data := fun _ => 0
  prdBytes := 2048
  inserted := true
  trayOpen := false
  ejectError := none
  lateIrq := false
  nbSectors := 64

/-- The CD drive waits for a packet. -/
def packetBus : IDEBus := (Event.ioportWrite 7 0xa0).step calmHost cdBus.busReset

theorem packetBus_inside :
    (DataPort.writel 0).touches packetBus = [0, 1, 2, 3] ∧
      ∀ i ∈ (DataPort.writel 0).touches packetBus, 0 ≤ i ∧ i < ioBufferLength := by
  refine ⟨by decide, ?_⟩
  refine dataPort_inside (.step .reset (.ioportWrite 7 0xa0) calmHost trivial) (.writel 0) ?_
  intro offset isOffset
  have isZero : offset = 0 := by
    have : packetBus.dataOffset false = some 0 := by decide
    exact (Option.some.inj (this.symm.trans isOffset)).symm
  refine ⟨.inl isZero, ?_⟩
  rintro ⟨-, -, isRead, -⟩
  revert isRead
  decide

/-! ### A packet that is sent again and again -/

/-- A DMA read was started by the packet in the buffer, and the data port was used `extra` times
since. -/
structure Repeating (extra : Nat) (bus : IDEBus) : Prop where
  unit : bus.unit = false
  drq : has (bus.ifs false).status drqStat
  func : (bus.ifs false).transfer.endTransferFunc = .atapiCmd
  ptr : (bus.ifs false).transfer.dataPtr = 12 + 4 * extra
  limit : (bus.ifs false).transfer.dataEnd = 12
  dma : (bus.ifs false).atapiDma
  sense : (bus.ifs false).senseKey = 0
  unchanged : (bus.ifs false).cdromChanged = false
  opcode : (bus.ifs false).ioBuffer 0 = 0x28
  countHigh : (bus.ifs false).ioBuffer 7 = 0
  countLow : (bus.ifs false).ioBuffer 8 = 1
  idle : bus.dma.dmaing = false

def readPacket : List (Event × Host) :=
  [(.ioportWrite 1 0x01, calmHost), (.ioportWrite 7 0xa0, calmHost),
    (.data (.writel 0x28), calmHost), (.data (.writel 0), calmHost),
    (.data (.writel 1), calmHost)]

def packetSent : IDEBus :=
  readPacket.foldl (fun bus event => event.1.step event.2 bus) cdBus.busReset

theorem repeating_packetSent : Repeating 0 packetSent := by
  constructor
  all_goals decide +kernel

section

variable (repeating : Repeating extra bus)

include repeating

/-- The packet is taken for a new one when the data port is used again. -/
theorem Repeating.atapiCmd (h : Host) :
    bus.atapiCmd false h =
      bus.atapiCmdReadDma false h (ube32ToCpu (bus.ifs false).ioBuffer 2) 1 2048 := by
  have count : ube16ToCpu (bus.ifs false).ioBuffer 7 = 1 := by
    rw [ube16ToCpu, repeating.countHigh, repeating.countLow]
    rfl
  have isRead : atapiCmdTable ((bus.ifs false).ioBuffer 0) = some .read := by
    rw [repeating.opcode]
    rfl
  simp only [IDEBus.atapiCmd, repeating.sense, repeating.unchanged, isRead]
  simp [senseUnitAttention, AtapiCommand.checkReady, atapiHandler,
    cmdRead, repeating.opcode, count, atapiCmdRead, repeating.dma]

theorem Repeating.readDma (h : Host) (lba : Int) :
    Repeating extra (bus.atapiCmdReadDma false h lba 1 2048) := by
  rw [atapiCmdReadDma, startDma]
  split
  · next busy => cases repeating.idle.symm.trans busy
  · refine { repeating with drq := ?_ }
    simp only [setStatus, on_ifs]
    decide

theorem Repeating.offset : bus.dataOffset false = some ((12 : Int) + 4 * extra) := by
  simp [dataOffset, repeating.unit, repeating.drq, repeating.func, isPioOut,
    repeating.ptr, - ifs_transfer]

/-- The word is stored behind the packet, and the data pointer moves on. -/
theorem Repeating.move (bytes : List (BitVec 8)) :
    Repeating (extra + 1) ((bus.storeData (12 + 4 * extra) bytes).setTransfer false
      fun t => { t with dataPtr := t.dataPtr + 4 }) := by
  have ptr := repeating.ptr
  rw [storeData, repeating.unit]
  refine { repeating with ptr := ?ptr, opcode := ?opcode, countHigh := ?high, countLow := ?low }
  case ptr =>
    simp only [setTransfer, on_ifs]
    omega
  case opcode => exact (if_neg (by omega)).trans repeating.opcode
  case high => exact (if_neg (by omega)).trans repeating.countHigh
  case low => exact (if_neg (by omega)).trans repeating.countLow

theorem Repeating.step : Repeating (extra + 1) ((Event.data (.writel 0)).step calmHost bus) := by
  simp only [Event.step, DataPort.step, dataWrite, repeating.offset]
  have moved := repeating.move ((range 4).map fun i => (0 : BitVec 32).extractLsb' (8 * i) 8)
  have isUnit : (bus.storeData (12 + 4 * extra)
      ((range 4).map fun i => (0 : BitVec 32).extractLsb' (8 * i) 8)).unit = false :=
    repeating.unit
  simp only [advanceData, isUnit, length_map, length_range, Nat.cast_ofNat]
  rw [if_pos (by rw [moved.ptr, moved.limit]; omega), moved.func, endTransfer, moved.atapiCmd]
  exact moved.readDma _ _

end

/-- Every access of the data port after a packet that asked for DMA moves the data pointer on, until
it leaves the buffer. -/
theorem packetDma_overruns :
    ∃ bus, Reached (fun _ _ => True) cdBus bus ∧
      (ioBufferLength : Int) ∈ (DataPort.writel 0).touches bus := by
  have sent : Reached (fun _ _ => True) cdBus packetSent := Reached.reset.run readPacket
  have run (extra : Nat) :
      ∃ bus, Reached (fun _ _ => True) cdBus bus ∧ Repeating extra bus := by
    induction extra with
    | zero => exact ⟨packetSent, sent, repeating_packetSent⟩
    | succ extra ih =>
      obtain ⟨bus, reached, repeating⟩ := ih
      exact ⟨_, reached.step (.data (.writel 0)) calmHost trivial, repeating.step⟩
  obtain ⟨bus, reached, repeating⟩ := run 32766
  refine ⟨bus, reached, ?_⟩
  have offset : bus.dataOffset (writel 0).out = some ((12 : Int) + 4 * (32766 : Nat)) :=
    repeating.offset
  rw [touches, offset]
  exact mem_map.mpr ⟨0, by decide, by decide⟩

end Qemu.Hw.Ide
