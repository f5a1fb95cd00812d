import Qemu.Hw.IdeAtapi

/-!
# The IDE bus

The command register, the task file and the data port of an IDE bus, and the events that drive it:
accesses of the guest, completions of the block layer, and restarts after an error.
-/

namespace Qemu.Hw.Ide

open Status

/-- The commands of `ide_exec_cmd`, with the commands that share a case under one name. -/
inductive AtaCommand
  | dsm
  | identify
  | specify
  | setmult
  | verify (lba48 : Bool)
  | read (lba48 : Bool)
  | write (lba48 : Bool)
  | multread (lba48 : Bool)
  | multwrite (lba48 : Bool)
  | readdma (lba48 : Bool)
  | writedma (lba48 : Bool)
  | readNativeMax (lba48 : Bool)
  | checkpowermode
  | setfeatures
  | flushCache
  | standby
  | seek
  | pidentify
  | diagnose
  | srst
  | packetcmd
  | reqExtErrorCode
  | eraseSectors
  | wearLevel
  | translateSector
  | accessMetadataStorage
  | senseCondition
  | smart
  deriving DecidableEq

def AtaCommand.ofByte (val : BitVec 8) : Option AtaCommand :=
  match val with
  | 0x03 => some .reqExtErrorCode
  | 0x06 => some .dsm
  | 0x08 => some .srst
  | 0x10 | 0x91 => some .specify
  | 0x20 | 0x21 => some (.read false)
  | 0x24 => some (.read true)
  | 0x25 => some (.readdma true)
  | 0x27 => some (.readNativeMax true)
  | 0x29 => some (.multread true)
  | 0x30 | 0x31 | 0x38 | 0x3c => some (.write false)
  | 0x34 => some (.write true)
  | 0x35 => some (.writedma true)
  | 0x39 => some (.multwrite true)
  | 0x40 | 0x41 => some (.verify false)
  | 0x42 => some (.verify true)
  | 0x70 => some .seek
  | 0x87 => some .translateSector
  | 0x90 => some .diagnose
  | 0x94 | 0x95 | 0x96 | 0x97 | 0x99 => some .standby
  | 0x98 | 0xe5 => some .checkpowermode
  | 0xa0 => some .packetcmd
  | 0xa1 => some .pidentify
  | 0xb0 => some .smart
  | 0xb8 => some .accessMetadataStorage
  | 0xc0 => some .eraseSectors
  | 0xc4 => some (.multread false)
  | 0xc5 | 0xcd => some (.multwrite false)
  | 0xc6 => some .setmult
  | 0xc8 | 0xc9 => some (.readdma false)
  | 0xca | 0xcb => some (.writedma false)
  | 0xe0 | 0xe1 | 0xe2 | 0xe3 | 0xe6 => some .standby
  | 0xe7 | 0xea => some .flushCache
  | 0xec => some .identify
  | 0xef => some .setfeatures
  | 0xf0 => some .senseCondition
  | 0xf5 => some .wearLevel
  | 0xf8 => some (.readNativeMax false)
  | _ => none

namespace IDEBus

variable (bus : IDEBus) (s : Bool)

/-! ## Commands without data -/

def abortCmd : IDEBus := (bus.abortCommand s).setIrq

def succeed : IDEBus := (bus.setStatus s (readyStat ||| seekStat)).setIrq

def setSignature : IDEBus := bus.on s fun d =>
  { d with
    select := d.select &&& 0xf0, nsector := 1, sector := 1
    lcyl := if d.driveKind = .cd then 0x14 else if d.bs then 0 else 0xff
    hcyl := if d.driveKind = .cd then 0xeb else if d.bs then 0 else 0xff }

def cmdLba48Transform (lba48 : Bool) : IDEBus := bus.on s fun d =>
  { d with
    lba48 := lba48
    nsector :=
      if lba48 then
        if d.nsector = 0 ∧ d.hobNsector = 0 then 65536
        else (d.hobNsector.setWidth 32 <<< 8) ||| d.nsector
      else if d.nsector = 0 then 256 else d.nsector }

def setMultSectors (count : Nat) : IDEBus :=
  bus.setTransfer s fun t => { t with multSectors := count }

def setReqNbSectors (count : Nat) : IDEBus :=
  bus.setTransfer s fun t => { t with reqNbSectors := count }

def execSetmult : IDEBus :=
  let d := bus.ifs s
  let count := (d.nsector &&& 0xff).toNat
  let bus :=
    if d.driveKind = .cfata ∧ d.nsector = 0 then
      (bus.setMultSectors s 0).setStatus s (readyStat ||| seekStat)
    else if count ≠ 0 ∧ (maxMultSectors < count ∨ d.nsector &&& (d.nsector - 1) ≠ 0) then
      bus.abortCommand s
    else (bus.setMultSectors s count).setStatus s (readyStat ||| seekStat)
  bus.setIrq

/-- The features that `WIN_SETFEATURES` accepts without effect. -/
def quietFeatures : List (BitVec 8) :=
  [0xcc, 0x66, 0x02, 0x82, 0xaa, 0x55, 0x05, 0x85, 0x69, 0x67, 0x96, 0x9a, 0x42, 0xc2]

/-- Setting the transfer mode changes the identify data only. -/
def execSetfeatures : IDEBus :=
  let d := bus.ifs s
  if !d.bs then bus.abortCmd s
  else if d.feature ∈ quietFeatures then bus.succeed s
  else if d.feature = 0x03 ∧ d.nsector >>> 3 ∈ [0x00#32, 0x01, 0x02, 0x04, 0x08] then bus.succeed s
  else bus.abortCmd s

/-! ## Commands that move data -/

variable (h : Host)

/-- The device has filled the buffer with one sector for the guest to read. -/
def answer : IDEBus :=
  (((bus.fill s h.data).setStatus s (readyStat ||| seekStat)).transferStart s 0 512
    .transferStop).setIrq

def execIdentify : IDEBus :=
  let d := bus.ifs s
  if d.bs ∧ d.driveKind ≠ .cd then bus.answer s h
  else if d.driveKind = .cd then (bus.setSignature s).abortCmd s
  else bus.abortCmd s

def execPidentify : IDEBus :=
  if (bus.ifs s).driveKind = .cd then bus.answer s h else bus.abortCmd s

section

variable (lba48 : Bool)

/-- The common start of the PIO write commands. -/
def startWrite (count : Nat) : IDEBus :=
  (((bus.cmdLba48Transform s lba48).setError s 0).setStatus s
    (seekStat ||| readyStat)).setReqNbSectors s count

def execRead : IDEBus :=
  if !(bus.ifs s).bs then bus.abortCmd s
  else ((bus.cmdLba48Transform s lba48).setReqNbSectors s 1).sectorRead s h

def execWrite : IDEBus :=
  ((bus.startWrite s lba48 1).transferStart s 0 512 .sectorWrite).setMediaChanged s true

def execMultread : IDEBus :=
  let count := (bus.ifs s).transfer.multSectors
  if count = 0 then bus.abortCmd s
  else ((bus.cmdLba48Transform s lba48).setReqNbSectors s count).sectorRead s h

def execMultwrite : IDEBus :=
  let count := (bus.ifs s).transfer.multSectors
  if count = 0 then bus.abortCmd s
  else
    let bus := bus.startWrite s lba48 count
    (bus.transferStart s 0 (512 * bus.chunkSectors s) .sectorWrite).setMediaChanged s true

def execReaddma : IDEBus :=
  if !(bus.ifs s).bs then bus.abortCmd s
  else (bus.cmdLba48Transform s lba48).sectorStartDma s h .read

def execWritedma : IDEBus :=
  if !(bus.ifs s).bs then bus.abortCmd s
  else ((bus.cmdLba48Transform s lba48).sectorStartDma s h .write).setMediaChanged s true

end

def execDsm : IDEBus :=
  if (bus.ifs s).feature = 0x01 ∧ (bus.ifs s).bs then bus.sectorStartDma s h .trim
  else bus.abortCmd s

def execPacketcmd : IDEBus :=
  let d := bus.ifs s
  if d.driveKind ≠ .cd then bus.abortCmd s
  else if has d.feature 0x02 then bus.abortCmd s
  else
    let bus := (bus.setStatus s (readyStat ||| seekStat)).on s fun d =>
      { d with atapiDma := has d.feature 0x01, nsector := 1 }
    bus.transferStart s 0 atapiPacketSize .atapiCmd

/-! ## CF-ATA and SMART -/

/-- The offset into the metadata that the cylinder registers name. -/
def mdataOffset : Int := ((bus.ifs s).hcyl.toNat * 2 ^ 16 + (bus.ifs s).lcyl.toNat) * 512

/-- A metadata access that is refused leaves an error behind. -/
def cfataMetadata (fits : IDEBus → IDEBus) : IDEBus :=
  if (bus.ifs s).mdataSize + 2 < bus.mdataOffset s then
    (bus.setStatus s errStat).setError s abrtErr
  else fits bus

def execAccessMetadataStorage : IDEBus :=
  let d := bus.ifs s
  let finish (bus : IDEBus) : IDEBus :=
    ((bus.transferStart s 0 512 .transferStop).setStatus s 0).setIrq
  if d.driveKind ≠ .cfata then bus.abortCmd s
  else if d.feature = 0x02 then finish (bus.fill s h.data)
  else if d.feature = 0x03 then finish (bus.cfataMetadata s fun bus => bus.fill s h.data)
  else if d.feature = 0x04 then finish (bus.cfataMetadata s fun bus => bus.setMediaChanged s false)
  else bus.abortCmd s

/-- The commands that only a CF card knows. -/
def onCfata (rest : IDEBus → IDEBus) : IDEBus :=
  if (bus.ifs s).driveKind ≠ .cfata then bus.abortCmd s else rest bus

def smartAttrAutosave : IDEBus :=
  let d := bus.ifs s
  if d.sector = 0x00 then (bus.on s fun d => { d with smartAutosave := false }).succeed s
  else if d.sector = 0xf1 then (bus.on s fun d => { d with smartAutosave := true }).succeed s
  else bus.abortCmd s

def smartStatus : IDEBus :=
  (bus.on s fun d =>
    if d.smartErrors then { d with hcyl := 0x2c, lcyl := 0xf4 }
    else { d with hcyl := 0xc2, lcyl := 0x4f }).succeed s

def smartExecuteOffline : IDEBus :=
  if (bus.ifs s).sector ∈ [0#8, 1, 2] then
    (bus.on s fun d =>
      { d with smartSelftestCount :=
          if 21 < d.smartSelftestCount + 1 then 0 else d.smartSelftestCount + 1 }).succeed s
  else bus.abortCmd s

def execSmart : IDEBus :=
  let d := bus.ifs s
  if d.driveKind = .cd ∨ d.hcyl ≠ 0xc2 ∨ d.lcyl ≠ 0x4f then bus.abortCmd s
  else if !d.smartEnabled ∧ d.feature ≠ 0xd8 then bus.abortCmd s
  else if d.feature = 0xd9 then (bus.on s fun d => { d with smartEnabled := false }).succeed s
  else if d.feature = 0xd8 then (bus.on s fun d => { d with smartEnabled := true }).succeed s
  else if d.feature = 0xd2 then bus.smartAttrAutosave s
  else if d.feature = 0xda then bus.smartStatus s
  else if d.feature = 0xd1 ∨ d.feature = 0xd0 then bus.answer s h
  else if d.feature = 0xd5 then
    if d.sector = 0x01 ∨ d.sector = 0x06 then bus.answer s h else bus.abortCmd s
  else if d.feature = 0xd4 then bus.smartExecuteOffline s
  else bus.abortCmd s

/-! ## The command register -/

def execDiagnose : IDEBus :=
  (((bus.setSignature s).setStatus s
    (if (bus.ifs s).driveKind = .cd then 0 else readyStat ||| seekStat)).setError s 0x01).setIrq

def execSrst : IDEBus :=
  if (bus.ifs s).driveKind ≠ .cd then bus.abortCmd s
  else ((bus.setSignature s).setStatus s 0).setError s 0x01

def execute : AtaCommand → IDEBus
  | .dsm => bus.execDsm s h
  | .identify => bus.execIdentify s h
  | .specify => (bus.setError s 0).succeed s
  | .setmult => bus.execSetmult s
  | .verify lba48 => (bus.cmdLba48Transform s lba48).succeed s
  | .read lba48 => bus.execRead s h lba48
  | .write lba48 => bus.execWrite s lba48
  | .multread lba48 => bus.execMultread s h lba48
  | .multwrite lba48 => bus.execMultwrite s lba48
  | .readdma lba48 => bus.execReaddma s h lba48
  | .writedma lba48 => bus.execWritedma s h lba48
  | .readNativeMax lba48 =>
    ((bus.cmdLba48Transform s lba48).setSector s ((bus.ifs s).nbSectors - 1)).succeed s
  | .checkpowermode => ((bus.setError s 0).setNsector s 0xff).succeed s
  | .setfeatures => bus.execSetfeatures s
  | .flushCache => bus.flushCache s h
  | .standby => (bus.setStatus s readyStat).setIrq
  | .seek => if (bus.ifs s).driveKind = .cd then bus.abortCmd s else bus.succeed s
  | .pidentify => bus.execPidentify s h
  | .diagnose => bus.execDiagnose s
  | .srst => bus.execSrst s
  | .packetcmd => bus.execPacketcmd s
  | .reqExtErrorCode => bus.onCfata s fun bus => (bus.setError s 0x09).succeed s
  | .eraseSectors =>
    bus.onCfata s fun bus => ((bus.setMediaChanged s true).setError s 0).succeed s
  | .wearLevel => bus.onCfata s fun bus => ((bus.setNsector s 0).setError s 0).succeed s
  | .translateSector => bus.onCfata s fun bus => (bus.setError s 0).answer s h
  | .accessMetadataStorage => bus.execAccessMetadataStorage s h
  | .senseCondition => bus.onCfata s fun bus =>
    if (bus.ifs s).feature = 0x01 then (bus.setNsector s 0x50).succeed s else bus.abortCmd s
  | .smart => bus.execSmart s h

def execCmd (val : BitVec 8) : IDEBus :=
  let s := bus.unit
  let d := bus.ifs s
  if s ∧ !d.bs then bus
  else if has d.status (busyStat ||| drqStat) ∧ val ≠ 0x08 then bus
  else
    match AtaCommand.ofByte val with
    | some command => bus.execute s h command
    | none => bus.abortCmd s

/-! ## The task file -/

/-- A write to the task file reaches both drives. -/
def onBoth (f : IDEState → IDEState) : IDEBus := (bus.on false f).on true f

def clearHob (d : IDEState) : IDEState := { d with select := d.select &&& ~~~ 0x80 }

def selectDrive (val : BitVec 8) : IDEBus :=
  { (bus.on false fun d => { d with select := (val &&& ~~~ 0x10) ||| 0xa0 }).on true fun d =>
      { d with select := (val ||| 0x10) ||| 0xa0 } with unit := has val 0x10 }

/-- A register behind the data port, of the task file of one drive. -/
def writeRegister (addr : BitVec 3) (val : BitVec 8) (d : IDEState) : IDEState :=
  match addr with
  | 1 => { clearHob d with hobFeature := d.feature, feature := val }
  | 2 => { clearHob d with hobNsector := d.nsector.setWidth 8, nsector := val.setWidth 32 }
  | 3 => { clearHob d with hobSector := d.sector, sector := val }
  | 4 => { clearHob d with hobLcyl := d.lcyl, lcyl := val }
  | 5 => { clearHob d with hobHcyl := d.hcyl, hcyl := val }
  | _ => d

def ioportWrite (addr : BitVec 3) (val : BitVec 8) : IDEBus :=
  if addr = 7 then bus.execCmd h val
  else if has (bus.ifs bus.unit).status (busyStat ||| drqStat) then bus
  else if addr = 6 then bus.selectDrive val
  else bus.onBoth (writeRegister addr val)

/-- Both drives are held in reset. -/
def resetRise : IDEBus :=
  bus.onBoth fun d => { d with status := busyStat ||| seekStat, error := 0x01 }

def resetFall : IDEBus :=
  ((bus.onBoth fun d =>
    { d with status := if d.driveKind = .cd then 0 else readyStat ||| seekStat }).setSignature
    false).setSignature true

def cmdWrite (val : BitVec 8) : IDEBus :=
  let bus :=
    if !has bus.cmd ideCmdReset ∧ has val ideCmdReset then bus.resetRise
    else if has bus.cmd ideCmdReset ∧ !has val ideCmdReset then bus.resetFall
    else bus
  { bus with cmd := val }

/-! ## The data port -/

def isPioOut : EndTransferFunc → Bool
  | .sectorWrite | .atapiCmd => false
  | .sectorRead | .transferStop | .atapiCmdReplyEnd | .dummyTransferStop => true

def dummyTransferStop : IDEBus :=
  (bus.setTransfer s fun t => { t with dataPtr := 0, dataEnd := 0 }).on s fun d =>
    { d with ioBuffer := fun i => if i < 4 then 0xff else d.ioBuffer i }

def endTransfer : EndTransferFunc → IDEBus
  | .sectorRead => bus.sectorRead s h
  | .sectorWrite => bus.sectorWrite s h
  | .transferStop => bus.transferStop s
  | .atapiCmd => bus.atapiCmd s h
  | .atapiCmdReplyEnd => bus.atapiCmdReplyEnd s h
  | .dummyTransferStop => bus.dummyTransferStop s

/-- The offset of the buffer that an access in this direction touches, if it touches one. -/
def dataOffset (out : Bool) : Option Int :=
  let d := bus.ifs bus.unit
  if has d.status drqStat ∧ isPioOut d.transfer.endTransferFunc = out then some d.transfer.dataPtr
  else none

/-- Move the data pointer, and go on when the end is reached. -/
def advanceData (width : Nat) : IDEBus :=
  let s := bus.unit
  let bus := bus.setTransfer s fun t => { t with dataPtr := t.dataPtr + width }
  let t := (bus.ifs s).transfer
  if t.dataEnd ≤ t.dataPtr then bus.endTransfer s h t.endTransferFunc else bus

/-- Bytes behind the buffer are lost to the model. -/
def storeData (offset : Int) (bytes : List (BitVec 8)) : IDEBus :=
  bus.on bus.unit fun d =>
    { d with ioBuffer := fun i =>
        if offset ≤ i ∧ i < offset + bytes.length then bytes.getD (i - offset).toNat 0
        else d.ioBuffer i }

/-- `ide_data_writew` and `ide_data_writel`, with the bytes in the order of the buffer. -/
def dataWrite (bytes : List (BitVec 8)) : IDEBus :=
  match bus.dataOffset false with
  | some offset => (bus.storeData offset bytes).advanceData h bytes.length
  | none => bus

def dataRead (width : Nat) : IDEBus :=
  match bus.dataOffset true with
  | some _ => bus.advanceData h width
  | none => bus

/-! ## Reset, the bus master and the block layer -/

def reset (s : Bool) : IDEBus :=
  (bus.on s fun d =>
    { d with
      feature := 0, error := 0, nsector := 0, sector := 0, lcyl := 0, hcyl := 0
      hobFeature := 0, hobSector := 0, hobNsector := 0, hobLcyl := 0, hobHcyl := 0
      select := 0xa0, status := readyStat ||| seekStat, lba48 := false
      senseKey := 0, asc := 0, cdromChanged := false, atapiDma := false
      ioBufferSize := 0, mediaChanged := false
      transfer := { d.transfer with
        multSectors := if d.driveKind = .cfata then 0 else maxMultSectors
        packetTransferSize := 0, elementaryTransferSize := 0, ioBufferIndex := 0
        cdSectorSize := 0, reqNbSectors := 0
        endTransferFunc := .dummyTransferStop } }).setSignature s |>.dummyTransferStop s

def bmdmaReset (dma : BMDMAState) : BMDMAState :=
  { dma with
    aiocb := none
    inFlight := match dma.aiocb with
      | some request => dma.inFlight.erase request
      | none => dma.inFlight
    dmaCb := if dma.dmaing then none else dma.dmaCb
    unit := if dma.dmaing then none else dma.unit
    dmaing := false, cmd := 0, sectorNum := 0, nsector := 0 }

/-- `ide_bus_reset` with the reset of the bus master. -/
def busReset : IDEBus :=
  let bus := { bus with unit := false, cmd := 0 }
  let bus := ((bus.reset false).reset true).onBoth clearHob
  { bus with dma := bmdmaReset bus.dma }

/-- `bmdma_cmd_writeb`.  The completions that `qemu_aio_flush` waits for are events before this
one. -/
def bmdmaCmdWriteb (val : BitVec 8) : IDEBus :=
  let bus :=
    if has val 0x01 ∧ !has bus.dma.cmd 0x01 ∧ !bus.dma.dmaing then
      { bus with dma := { bus.dma with dmaing := true } }.runDma h
    else bus
  { bus with dma := { bus.dma with cmd := val &&& 0x09 } }

def restartDma (cmd : IdeDmaCmd) : IDEBus :=
  (((bus.setSector s bus.dma.sectorNum).setNsector s bus.dma.nsector).setDmaCmd s cmd).startDma s h
    .dmaCb

/-- The request that was stopped by an error is made again. -/
def restartRequest (op : BitVec 8) : IDEBus :=
  if has op bmStatusDmaRetry then
    if has op bmStatusRetryTrim then bus.restartDma s h .trim
    else bus.restartDma s h (if has op bmStatusRetryRead then .read else .write)
  else if has op bmStatusPioRetry then
    if has op bmStatusRetryRead then bus.sectorRead s h else bus.sectorWrite s h
  else if has op bmStatusRetryFlush then bus.flushCache s h
  else bus

def bmdmaRestartBh : IDEBus :=
  match bus.dma.unit with
  | none => bus
  | some unit => { bus with errorStatus := 0 }.restartRequest unit h bus.errorStatus

/-- A request of the block layer completes. -/
def complete (unit : Bool) (cb : AioCallback) (error : Option Nat) : IDEBus :=
  if (unit, cb) ∈ bus.dma.inFlight then
    let bus := { bus with dma := { bus.dma with inFlight := bus.dma.inFlight.erase (unit, cb) } }
    let bus := if cb = .atapiCmdReadDmaCb then bus.fill unit h.data else bus
    bus.callback unit h error cb
  else bus

def cdromChangeCb : IDEBus :=
  (bus.on s fun d =>
    { d with nbSectors := h.nbSectors, cdromChanged := true, newMedia := true }).setIrq

end IDEBus

/-! ## Events -/

/-- An access of the data port with the low bytes first. -/
inductive DataPort
  | writew (val : BitVec 16)
  | readw
  | writel (val : BitVec 32)
  | readl

namespace DataPort

def width : DataPort → Nat
  | .writew _ | .readw => 2
  | .writel _ | .readl => 4

/-- Data go from the device to the guest. -/
def out : DataPort → Bool
  | .readw | .readl => true
  | .writew _ | .writel _ => false

def step (port : DataPort) (h : Host) (bus : IDEBus) : IDEBus :=
  match port with
  | .writew val => bus.dataWrite h ((List.range 2).map fun i => val.extractLsb' (8 * i) 8)
  | .writel val => bus.dataWrite h ((List.range 4).map fun i => val.extractLsb' (8 * i) 8)
  | .readw => bus.dataRead h 2
  | .readl => bus.dataRead h 4

/-- The bytes of the buffer that an access touches. -/
def touches (port : DataPort) (bus : IDEBus) : List Int :=
  match bus.dataOffset port.out with
  | some offset => (List.range port.width).map fun i : Nat => offset + (i : Int)
  | none => []

end DataPort

inductive Event
  | ioportWrite (addr : BitVec 3) (val : BitVec 8)
  | statusRead
  | cmdWrite (val : BitVec 8)
  | data (port : DataPort)
  | bmdmaCmdWriteb (val : BitVec 8)
  | complete (unit : Bool) (cb : AioCallback) (error : Option Nat)
  | restart
  | sectorWriteTimer
  | cdromChange (unit : Bool)
  | busReset

def Event.step (event : Event) (h : Host) (bus : IDEBus) : IDEBus :=
  match event with
  | .ioportWrite addr val => bus.ioportWrite h addr val
  | .statusRead => { bus with irq := false }
  | .cmdWrite val => bus.cmdWrite val
  | .data port => port.step h bus
  | .bmdmaCmdWriteb val => bus.bmdmaCmdWriteb h val
  | .complete unit cb error => bus.complete h unit cb error
  | .restart => bus.bmdmaRestartBh h
  | .sectorWriteTimer => bus.setIrq
  | .cdromChange unit => bus.cdromChangeCb unit h
  | .busReset => bus.busReset

end Qemu.Hw.Ide
