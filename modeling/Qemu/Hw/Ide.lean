import Qemu.Lib.Status

/-!
# IDE drives: sectors and DMA

The drives of one IDE bus with their sector buffers and the bus master that moves data behind their
back.  A function of the source that takes an `IDEState *` takes the unit of the drive and the bus.
Pointers into `io_buffer` are offsets, and the contents a device leaves in the buffer are the
host's.
-/

namespace Qemu.Hw.Ide

open Status

/-! ## The state -/

def errStat : BitVec 8 := 0x01
def drqStat : BitVec 8 := 0x08
def seekStat : BitVec 8 := 0x10
def readyStat : BitVec 8 := 0x40
def busyStat : BitVec 8 := 0x80
def mcErr : BitVec 8 := 0x20
def abrtErr : BitVec 8 := 0x04

def bmStatusDmaRetry : BitVec 8 := 0x08
def bmStatusPioRetry : BitVec 8 := 0x10
def bmStatusRetryRead : BitVec 8 := 0x20
def bmStatusRetryFlush : BitVec 8 := 0x40
def bmStatusRetryTrim : BitVec 8 := 0x80

def ideCmdDisableIrq : BitVec 8 := 0x02
def ideCmdReset : BitVec 8 := 0x04

def ideDmaBufSectors : Nat := 256
def maxMultSectors : Nat := 16

/-- What `ide_init_drive` and friends allocate for `io_buffer`. -/
def ioBufferLength : Nat := ideDmaBufSectors * 512 + 4

inductive IDEDriveKind
  | hd
  | cd
  | cfata
  deriving DecidableEq

inductive EndTransferFunc
  | sectorRead
  | sectorWrite
  | transferStop
  | atapiCmd
  | atapiCmdReplyEnd
  | dummyTransferStop
  deriving DecidableEq

inductive IdeDmaCmd
  | read
  | write
  | trim
  deriving DecidableEq

/-- The completion callbacks of asynchronous requests. -/
inductive AioCallback
  | dmaCb
  | atapiCmdReadDmaCb
  | flushCb
  deriving DecidableEq

inductive BlockErrorAction
  | report
  | ignore
  | stopEnospc
  | stopAny
  deriving DecidableEq

/-- The part of an `IDEState` that decides which bytes the data port touches. -/
structure Transfer where
  dataPtr : Int
  dataEnd : Int
  endTransferFunc : EndTransferFunc
  multSectors : Nat
  reqNbSectors : Nat
  packetTransferSize : Int
  elementaryTransferSize : Int
  ioBufferIndex : Int
  lba : Int
  cdSectorSize : Int

structure IDEState where
  driveKind : IDEDriveKind
  /-- A block device is attached. -/
  bs : Bool
  heads : Nat
  sectors : Nat
  nbSectors : Int
  feature : BitVec 8
  error : BitVec 8
  nsector : BitVec 32
  sector : BitVec 8
  lcyl : BitVec 8
  hcyl : BitVec 8
  hobFeature : BitVec 8
  hobNsector : BitVec 8
  hobSector : BitVec 8
  hobLcyl : BitVec 8
  hobHcyl : BitVec 8
  select : BitVec 8
  status : BitVec 8
  lba48 : Bool
  newMedia : Bool
  senseKey : BitVec 8
  asc : BitVec 8
  cdromChanged : Bool
  atapiDma : Bool
  ioBufferSize : Int
  transfer : Transfer
  ioBuffer : Nat → BitVec 8
  mdataSize : Int
  mediaChanged : Bool
  dmaCmd : IdeDmaCmd
  smartEnabled : Bool
  smartAutosave : Bool
  smartErrors : Bool
  smartSelftestCount : Nat

/-- The bus master: `dmaing` is the only bit of its status that the drives read, `aiocb` the request
a bus reset cancels, and `inFlight` every request the block layer has yet to complete. -/
structure BMDMAState where
  unit : Option Bool
  dmaCb : Option AioCallback
  dmaing : Bool
  cmd : BitVec 8
  sectorNum : Int
  nsector : BitVec 32
  aiocb : Option (Bool × AioCallback)
  inFlight : List (Bool × AioCallback)

structure IDEBus where
  ifs : Bool → IDEState
  unit : Bool
  cmd : BitVec 8
  irq : Bool
  errorStatus : BitVec 8
  dma : BMDMAState

/-- What the host answers while an event is handled. -/
structure Host where
  /-- The error of the block requests, if they fail. -/
  blockError : Option Nat
  onError : BlockErrorAction
  /-- An asynchronous request could be submitted. -/
  submitted : Bool
  /-- The contents of the sector buffer after the device has written to it. -/
  data : Nat → BitVec 8
  /-- The bytes described by what is left of the PRD table. -/
  prdBytes : Nat
  inserted : Bool
  trayOpen : Bool
  ejectError : Option Nat
  /-- The interrupt of a written sector comes later (`win2k_install_hack`). -/
  lateIrq : Bool
  nbSectors : Int

def enospc : Nat := 28
def enomedium : Nat := 123
def ebusy : Nat := 16
def eIo : Nat := 5

namespace IDEBus

variable (bus : IDEBus) (s : Bool)

def on (f : IDEState → IDEState) : IDEBus :=
  { bus with ifs := Function.update bus.ifs s (f (bus.ifs s)) }

def setStatus (value : BitVec 8) : IDEBus := bus.on s fun d => { d with status := value }

def setError (value : BitVec 8) : IDEBus := bus.on s fun d => { d with error := value }

def setNsector (value : BitVec 32) : IDEBus := bus.on s fun d => { d with nsector := value }

/-- `s->nsector -= n`. -/
def takeNsector (n : Int) : IDEBus := bus.setNsector s ((bus.ifs s).nsector - BitVec.ofInt 32 n)

def setTransfer (f : Transfer → Transfer) : IDEBus :=
  bus.on s fun d => { d with transfer := f d.transfer }

def setIoBufferSize (size : Int) : IDEBus := bus.on s fun d => { d with ioBufferSize := size }

/-- The device writes to the sector buffer. -/
def fill (data : Nat → BitVec 8) : IDEBus := bus.on s fun d => { d with ioBuffer := data }

def setIrq : IDEBus :=
  if has bus.cmd ideCmdDisableIrq then bus else { bus with irq := true }

def setMediaChanged (value : Bool) : IDEBus := bus.on s fun d => { d with mediaChanged := value }

/-! ## Transfers and sector numbers -/

def abortCommand : IDEBus := (bus.setStatus s (readyStat ||| errStat)).setError s abrtErr

def transferStart (start size : Int) (func : EndTransferFunc) : IDEBus :=
  let bus := bus.setTransfer s fun t =>
    { t with endTransferFunc := func, dataPtr := start, dataEnd := start + size }
  if has (bus.ifs s).status errStat then bus
  else bus.setStatus s ((bus.ifs s).status ||| drqStat)

def transferStop : IDEBus :=
  let bus := bus.setTransfer s fun t =>
    { t with endTransferFunc := .transferStop, dataPtr := 0, dataEnd := 0 }
  bus.setStatus s ((bus.ifs s).status &&& ~~~ drqStat)

def getSector : Int :=
  let d := bus.ifs s
  if has d.select 0x40 then
    if d.lba48 then
      (d.hobHcyl ++ d.hobLcyl ++ d.hobSector ++ d.hcyl ++ d.lcyl ++ d.sector).toNat
    else ((d.select &&& 0x0f) ++ d.hcyl ++ d.lcyl ++ d.sector).toNat
  else (d.hcyl ++ d.lcyl).toNat * d.heads * d.sectors +
    (d.select &&& 0x0f).toNat * d.sectors + (d.sector.toNat - 1)

def setSector (sectorNum : Int) : IDEBus := bus.on s fun d =>
  let byte (shift : Nat) : BitVec 8 := BitVec.ofInt 8 (sectorNum / 2 ^ shift)
  if has d.select 0x40 then
    if d.lba48 then
      { d with
        sector := byte 0, lcyl := byte 8, hcyl := byte 16
        hobSector := byte 24, hobLcyl := byte 32, hobHcyl := byte 40 }
    else
      { d with
        select := (d.select &&& 0xf0) ||| byte 24
        hcyl := byte 16, lcyl := byte 8, sector := byte 0 }
  else
    let cyl := BitVec.ofInt 32 (sectorNum.tdiv (d.heads * d.sectors))
    let r := BitVec.ofInt 32 (sectorNum.tmod (d.heads * d.sectors))
    let track := BitVec.ofNat 32 d.sectors
    { d with
      hcyl := (cyl >>> 8).setWidth 8
      lcyl := cyl.setWidth 8
      select := (d.select &&& 0xf0) ||| ((r / track) &&& 0x0f).setWidth 8
      sector := (r % track + 1).setWidth 8 }

/-! ## Errors -/

def rwError : IDEBus := (bus.abortCommand s).setIrq

/-- `ide_set_inactive` with the bus master's `set_inactive`. -/
def setInactive : IDEBus :=
  { bus with dma := { bus.dma with aiocb := none, dmaing := false, dmaCb := none, unit := none } }

def dmaError : IDEBus :=
  (((bus.transferStop s).setError s abrtErr).setStatus s (readyStat ||| errStat)).setInactive.setIrq

/-- The request is stopped with the virtual machine, to be restarted with it. -/
def stopRequest (op : BitVec 8) : IDEBus :=
  { bus with dma := { bus.dma with unit := some s }, errorStatus := op }

variable (h : Host)

/-- `ide_handle_rw_error`: whether the caller has to give up. -/
def handleRwError (error : Nat) (op : BitVec 8) : IDEBus × Bool :=
  if h.onError = .ignore then (bus, false)
  else if (error = enospc ∧ h.onError = .stopEnospc) ∨ h.onError = .stopAny then
    (bus.stopRequest s op, true)
  else if has op bmStatusDmaRetry then (bus.dmaError s, true)
  else (bus.rwError s, true)

variable (error : Option Nat)

/-- The error handling in front of the rest of a request. -/
def unlessError (op : BitVec 8) (rest : IDEBus → IDEBus) : IDEBus :=
  match error with
  | none => rest bus
  | some error =>
    let (bus, stop) := bus.handleRwError s h error op
    if stop then bus else rest bus

/-! ## PIO sectors -/

def chunkSectors : Int := min (bus.ifs s).nsector.toInt (bus.ifs s).transfer.reqNbSectors

def sectorRead : IDEBus :=
  let bus := (bus.setStatus s (readyStat ||| seekStat)).setError s 0
  let sectorNum := bus.getSector s
  if (bus.ifs s).nsector = 0 then bus.transferStop s
  else
    let n := bus.chunkSectors s
    (bus.fill s h.data).unlessError s h h.blockError (bmStatusPioRetry ||| bmStatusRetryRead)
      fun bus => (((bus.transferStart s 0 (512 * n) .sectorRead).setIrq).setSector s
        (sectorNum + n)).takeNsector s n

def sectorWrite : IDEBus :=
  let bus := bus.setStatus s (readyStat ||| seekStat)
  let sectorNum := bus.getSector s
  let n := bus.chunkSectors s
  bus.unlessError s h h.blockError bmStatusPioRetry fun bus =>
    let bus := bus.takeNsector s n
    let bus := if (bus.ifs s).nsector = 0 then bus.transferStop s
      else bus.transferStart s 0 (512 * bus.chunkSectors s) .sectorWrite
    let bus := bus.setSector s (sectorNum + n)
    if h.lateIrq then bus else bus.setIrq

/-! ## Flushing -/

def flushCb : IDEBus :=
  bus.unlessError s h error bmStatusRetryFlush fun bus =>
    (bus.setStatus s (readyStat ||| seekStat)).setIrq

/-- The block layer has taken the request; `ide_flush_cache` does not remember it. -/
def submit (cb : AioCallback) : IDEBus :=
  { bus with dma := { bus.dma with inFlight := (s, cb) :: bus.dma.inFlight } }

def flushCache : IDEBus :=
  if (bus.ifs s).bs then
    if h.submitted then bus.submit s .flushCb else bus.flushCb s h (some eIo)
  else bus.flushCb s h none

/-! ## DMA -/

/-- A request that becomes the `aiocb` of the bus. -/
def launch (cb : AioCallback) : IDEBus :=
  { bus.submit s cb with dma := { (bus.submit s cb).dma with aiocb := some (s, cb) } }

/-- `bmdma_prepare_buf`: the drive whose buffer is set up is the bus master's. -/
def prepareBuf (prdBytes : Nat) : IDEBus :=
  match bus.dma.unit with
  | none => bus
  | some unit => bus.setIoBufferSize unit prdBytes

/-- `bmdma_rw_buf`: whether the whole chunk was moved. -/
def rwBuf (prdBytes : Nat) : IDEBus × Bool :=
  match bus.dma.unit with
  | none => (bus, false)
  | some unit =>
    let left := max 0 ((bus.ifs unit).ioBufferSize - (bus.ifs unit).transfer.ioBufferIndex)
    (bus.setTransfer unit fun t =>
      { t with ioBufferIndex := t.ioBufferIndex + min left prdBytes }, left ≤ prdBytes)

def dmaRetryOp : BitVec 8 :=
  match (bus.ifs s).dmaCmd with
  | .read => bmStatusDmaRetry ||| bmStatusRetryRead
  | .trim => bmStatusDmaRetry ||| bmStatusRetryTrim
  | .write => bmStatusDmaRetry

/-- Account for the sectors that were moved. -/
def dmaAdvance : IDEBus :=
  let n := (bus.ifs s).ioBufferSize / 512
  if 0 < n then (bus.setSector s (bus.getSector s + n)).takeNsector s n else bus

/-- One pass of `ide_dma_cb`. -/
def dmaPass (prdBytes : Nat) (start : IDEBus → IDEBus) : IDEBus :=
  let bus := bus.dmaAdvance s
  if (bus.ifs s).nsector = 0 then
    (bus.setStatus s (readyStat ||| seekStat)).setIrq.setInactive
  else
    let bus := bus.setTransfer s fun t => { t with ioBufferIndex := 0 }
    let bus := bus.setIoBufferSize s ((bus.ifs s).nsector.toInt * 512)
    let bus := bus.prepareBuf prdBytes
    if prdBytes = 0 then bus.setInactive else start bus

/-- `ide_dma_cb`.  After a request that could not be submitted the PRD table is used up, so the
second pass ends the transfer. -/
def dmaCb : IDEBus :=
  bus.unlessError s h error (bus.dmaRetryOp s) fun bus =>
    bus.dmaPass s h.prdBytes fun bus =>
      if h.submitted then bus.launch s .dmaCb
      else bus.unlessError s h (some 1) (bus.dmaRetryOp s) fun bus => bus.dmaPass s 0 id

/-! ## ATAPI DMA -/

def senseNotReady : BitVec 8 := 2
def senseIllegalRequest : BitVec 8 := 5
def senseUnitAttention : BitVec 8 := 6

def ascIllegalOpcode : BitVec 8 := 0x20
def ascLogicalBlockOor : BitVec 8 := 0x21
def ascInvFieldInCmdPacket : BitVec 8 := 0x24
def ascMediumMayHaveChanged : BitVec 8 := 0x28
def ascIncompatibleFormat : BitVec 8 := 0x30
def ascSavingParametersNotSupported : BitVec 8 := 0x39
def ascMediumNotPresent : BitVec 8 := 0x3a
def ascMediaRemovalPrevented : BitVec 8 := 0x53

/-- `s->nsector = (s->nsector & ~7) | reason`. -/
def setReason (reason : BitVec 32) : IDEBus :=
  bus.setNsector s (((bus.ifs s).nsector &&& ~~~ 7) ||| reason)

def setSense (senseKey asc : BitVec 8) : IDEBus :=
  bus.on s fun d => { d with senseKey := senseKey, asc := asc }

def atapiCmdOk : IDEBus :=
  (((bus.setError s 0).setStatus s (readyStat ||| seekStat)).setReason s 3).setIrq

def atapiCmdError (senseKey asc : BitVec 8) : IDEBus :=
  ((((bus.setError s (senseKey <<< 4)).setStatus s (readyStat ||| errStat)).setReason s 3).setSense
    s senseKey asc).setIrq

def atapiIoError (error : Nat) : IDEBus :=
  if error = enomedium then bus.atapiCmdError s senseNotReady ascMediumNotPresent
  else bus.atapiCmdError s senseIllegalRequest ascLogicalBlockOor

/-- Account for the chunk of an ATAPI transfer that was read. -/
def atapiDmaAdvance : IDEBus :=
  let size := (bus.ifs s).ioBufferSize
  let t := (bus.ifs s).transfer
  let raw := t.lba ≠ -1 ∧ t.cdSectorSize = 2352
  let bus := if raw then bus.fill s h.data else bus
  bus.setTransfer s fun t =>
    { t with
      lba := if t.lba = -1 then -1 else t.lba + if t.cdSectorSize = 2352 then 1 else size / 2048
      packetTransferSize := t.packetTransferSize - size }

/-- The second half of `ide_atapi_cmd_read_dma_cb`. -/
def atapiDmaNext : IDEBus :=
  let t := (bus.ifs s).transfer
  if t.packetTransferSize ≤ 0 then
    ((bus.setStatus s (readyStat ||| seekStat)).setReason s 3).setIrq.setInactive
  else
    let bus := bus.setTransfer s fun t => { t with ioBufferIndex := 0 }
    let bus := bus.setIoBufferSize s
      (if t.cdSectorSize = 2352 then t.cdSectorSize
       else min (t.packetTransferSize / 2048) (ideDmaBufSectors / 4) * 2048)
    if h.submitted ∧ 0 ≤ t.lba then bus.launch s .atapiCmdReadDmaCb
    else (bus.atapiCmdError s senseNotReady ascMediumNotPresent).setInactive

def atapiCmdReadDmaCb : IDEBus :=
  match error with
  | some error => (bus.atapiIoError s error).setInactive
  | none =>
    if 0 < (bus.ifs s).ioBufferSize then
      let (bus, more) := (bus.atapiDmaAdvance s h).rwBuf h.prdBytes
      if more then bus.atapiDmaNext s h else bus.setInactive
    else bus.atapiDmaNext s h

/-! ## Starting DMA -/

def callback : AioCallback → IDEBus
  | .dmaCb => bus.dmaCb s h error
  | .atapiCmdReadDmaCb => bus.atapiCmdReadDmaCb s h error
  | .flushCb => bus.flushCb s h error

/-- `bm->dma_cb(bmdma_active_if(bm), 0)`, if there is a callback. -/
def runDma : IDEBus :=
  match bus.dma.unit, bus.dma.dmaCb with
  | some unit, some cb => bus.callback unit h none cb
  | _, _ => bus

def startDma (cb : AioCallback) : IDEBus :=
  let bus := { bus with dma := { bus.dma with
    unit := some s, dmaCb := some cb
    sectorNum := bus.getSector s, nsector := (bus.ifs s).nsector } }
  if bus.dma.dmaing then bus.runDma h else bus

/-- The drive is told what to move before a DMA command starts. -/
def setDmaCmd (cmd : IdeDmaCmd) : IDEBus :=
  let bus := bus.setTransfer s fun t => { t with ioBufferIndex := 0 }
  (bus.setIoBufferSize s 0).on s fun d => { d with dmaCmd := cmd }

def sectorStartDma (cmd : IdeDmaCmd) : IDEBus :=
  ((bus.setStatus s (readyStat ||| seekStat ||| drqStat ||| busyStat)).setDmaCmd s cmd).startDma s h
    .dmaCb

end IDEBus

end Qemu.Hw.Ide
