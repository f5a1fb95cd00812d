import Qemu.Hw.Ide

/-!
# ATAPI packet commands

A packet is twelve bytes at the start of the sector buffer.  Commands answer with a reply of a few
bytes in the same buffer, or read sectors of the medium through it, one at a time.
-/

namespace Qemu.Hw.Ide

open Status

def atapiPacketSize : Nat := 12
def cdMaxSectors : Int := 80 * 60 * 75 * 2048 / 512

/-- The value of a C `int` after an operation that may overflow. -/
def wrap32 (value : Int) : Int := (BitVec.ofInt 32 value).toInt

def ube16ToCpu (buf : Nat → BitVec 8) (i : Nat) : Int := (buf i ++ buf (i + 1)).toNat

def ube32ToCpu (buf : Nat → BitVec 8) (i : Nat) : Int :=
  (buf i ++ buf (i + 1) ++ buf (i + 2) ++ buf (i + 3)).toInt

namespace IDEBus

variable (bus : IDEBus) (s : Bool)

def mediaPresent : Bool := 0 < (bus.ifs s).nbSectors

def mediaIsCd : Bool := bus.mediaPresent s && (bus.ifs s).nbSectors ≤ cdMaxSectors

def totalSectors : Int := (bus.ifs s).nbSectors / 4

variable (h : Host)

/-- `cd_read_sector`: the block layer refuses sectors in front of the medium. -/
def cdReadSector (lba sectorSize : Int) : Option Nat :=
  if sectorSize = 2048 ∨ sectorSize = 2352 then
    if lba < 0 then some (if h.inserted then eIo else enomedium) else h.blockError
  else some eIo

/-! ## The transfer of a reply -/

def atapiReplyDone : IDEBus :=
  (((bus.transferStop s).setStatus s (readyStat ||| seekStat)).setReason s 3).setIrq

/-- Hand the next `size` bytes of the buffer to the data port. -/
def atapiSend (size : Int) : IDEBus :=
  let bus := bus.setTransfer s fun t =>
    { t with
      packetTransferSize := t.packetTransferSize - size
      elementaryTransferSize := t.elementaryTransferSize - size
      ioBufferIndex := t.ioBufferIndex + size }
  bus.transferStart s ((bus.ifs s).transfer.ioBufferIndex - size) size .atapiCmdReplyEnd

/-- Go on with an elementary transfer. -/
def atapiContinue : IDEBus :=
  let t := (bus.ifs s).transfer
  bus.atapiSend s (min (t.cdSectorSize - t.ioBufferIndex) t.elementaryTransferSize)

/-- The byte count the guest has asked for, or what is left if that is less. -/
def atapiByteCount : Int :=
  let d := bus.ifs s
  let limit : Int := (d.hcyl ++ d.lcyl).toNat
  let limit := if limit = 0xffff then limit - 1 else limit
  let size := d.transfer.packetTransferSize
  if limit < size then limit - limit % 2 else size

/-- The bytes of a transfer that are sent at once: never more than one sector. -/
def atapiChunk (t : Transfer) (size : Int) : Int :=
  if t.lba ≠ -1 then min size (t.cdSectorSize - t.ioBufferIndex) else size

/-- Start an elementary transfer. -/
def atapiBegin : IDEBus :=
  let bus := bus.setReason s 2
  let size := bus.atapiByteCount s
  let bus := bus.on s fun d =>
    { d with
      lcyl := BitVec.ofInt 8 size
      hcyl := BitVec.ofInt 8 (size / 2 ^ 8)
      transfer := { d.transfer with elementaryTransferSize := size } }
  (bus.atapiSend s (atapiChunk (bus.ifs s).transfer size)).setIrq

def atapiProceed : IDEBus :=
  if 0 < (bus.ifs s).transfer.elementaryTransferSize then bus.atapiContinue s
  else bus.atapiBegin s

def atapiCmdReplyEnd : IDEBus :=
  let t := (bus.ifs s).transfer
  if t.packetTransferSize ≤ 0 then bus.atapiReplyDone s
  else if t.lba ≠ -1 ∧ t.cdSectorSize ≤ t.ioBufferIndex then
    let bus := bus.fill s h.data
    match cdReadSector h t.lba t.cdSectorSize with
    | some error => (bus.transferStop s).atapiIoError s error
    | none => (bus.setTransfer s fun t =>
      { t with lba := t.lba + 1, ioBufferIndex := 0 }).atapiProceed s
  else bus.atapiProceed s

/-- The transfer state of a reply: no sector is read. -/
def replyTransfer (size : Int) (t : Transfer) : Transfer :=
  { t with
    lba := -1, packetTransferSize := size, elementaryTransferSize := 0, ioBufferIndex := 0 }

def atapiCmdReply (size maxSize : Int) : IDEBus :=
  let size := min size maxSize
  let bus := (bus.setTransfer s (replyTransfer size)).setIoBufferSize s size
  if (bus.ifs s).atapiDma then
    (bus.setStatus s (readyStat ||| seekStat ||| drqStat)).startDma s h .atapiCmdReadDmaCb
  else (bus.setStatus s (readyStat ||| seekStat)).atapiCmdReplyEnd s h

def atapiCmdCheckStatus : IDEBus :=
  (((bus.setError s (mcErr ||| senseUnitAttention <<< 4)).setStatus s errStat).setNsector s
    0).setIrq

/-! ## Reading sectors -/

variable (lba nbSectors sectorSize : Int)

def atapiCmdReadPio : IDEBus :=
  let bus := bus.setTransfer s fun t =>
    { t with
      lba := lba
      packetTransferSize := wrap32 (nbSectors * sectorSize)
      elementaryTransferSize := 0
      ioBufferIndex := sectorSize
      cdSectorSize := sectorSize }
  (bus.setStatus s (readyStat ||| seekStat)).atapiCmdReplyEnd s h

def atapiCmdReadDma : IDEBus :=
  let bus := bus.setTransfer s fun t =>
    { t with
      lba := lba
      packetTransferSize := wrap32 (nbSectors * sectorSize)
      ioBufferIndex := 0
      cdSectorSize := sectorSize }
  ((bus.setIoBufferSize s 0).setStatus s
    (readyStat ||| seekStat ||| drqStat ||| busyStat)).startDma s h .atapiCmdReadDmaCb

def atapiCmdRead : IDEBus :=
  if (bus.ifs s).atapiDma then bus.atapiCmdReadDma s h lba nbSectors sectorSize
  else bus.atapiCmdReadPio s h lba nbSectors sectorSize

/-! ## The commands -/

/-- A command whose reply was written to the buffer. -/
def reply (size maxSize : Int) : IDEBus := (bus.fill s h.data).atapiCmdReply s h size maxSize

def invalidField : IDEBus := bus.atapiCmdError s senseIllegalRequest ascInvFieldInCmdPacket

/-- `ide_dvd_read_structure`: the length of the structure, or the additional sense code. -/
def dvdReadStructure (format layer : BitVec 8) : Except (BitVec 8) Int :=
  match format with
  | 0x00 =>
    if layer ≠ 0 then .error ascInvFieldInCmdPacket
    else if bus.totalSectors s = 0 then .error ascMediumNotPresent
    else .ok (2048 + 4)
  | 0x01 => .ok (4 + 4)
  | 0x04 => .ok (2048 + 4)
  | 0xff => .ok (16 + 4)
  | _ => .error ascInvFieldInCmdPacket

/-- `event_status_media`: the new medium is reported once. -/
def eventStatusMedia : IDEBus :=
  if h.trayOpen then bus else bus.on s fun d => { d with newMedia := false }

section

variable (buf : Nat → BitVec 8)

def cmdGetEventStatusNotification : IDEBus :=
  let maxLen := ube16ToCpu buf 7
  if !has (buf 1) 0x01 then bus.invalidField s
  else if has (buf 4) 0x10 then (bus.eventStatusMedia s h).reply s h 8 maxLen
  else bus.reply s h 4 maxLen

def cmdRequestSense : IDEBus :=
  let bus := if (bus.ifs s).senseKey = senseUnitAttention then
    bus.on s fun d => { d with senseKey := 0 } else bus
  bus.reply s h 18 (buf 4).toNat

def cmdInquiry : IDEBus := bus.reply s h 36 (buf 4).toNat

def cmdGetConfiguration : IDEBus :=
  if buf 2 ≠ 0 ∨ buf 3 ≠ 0 then bus.invalidField s
  else bus.reply s h (12 + 4 + 4) (min (ube16ToCpu buf 7) 512)

/-- The lengths of the mode pages, by page code. -/
def modePage (code : BitVec 8) : Option Int :=
  match code with
  | 0x01 => some 16
  | 0x0e => some 24
  | 0x2a => some 28
  | _ => none

def cmdModeSense : IDEBus :=
  let maxLen := if buf 0 = 0x5a then ube16ToCpu buf 7 else (buf 4).toNat
  let action := buf 2 >>> 6
  if action = 0 then
    match modePage (buf 2 &&& 0x3f) with
    | some size => bus.reply s h size maxLen
    | none => bus.invalidField s
  else if action = 1 ∨ action = 2 then bus.invalidField s
  else bus.atapiCmdError s senseIllegalRequest ascSavingParametersNotSupported

def cmdRead : IDEBus :=
  let nbSectors := if buf 0 = 0x28 then ube16ToCpu buf 7 else ube32ToCpu buf 6
  if nbSectors = 0 then bus.atapiCmdOk s
  else bus.atapiCmdRead s h (ube32ToCpu buf 2) nbSectors 2048

def cmdReadCd : IDEBus :=
  let nbSectors : Int := (buf 6 ++ buf 7 ++ buf 8).toNat
  if nbSectors = 0 then bus.atapiCmdOk s
  else if buf 9 &&& 0xf8 = 0x00 then bus.atapiCmdOk s
  else if buf 9 &&& 0xf8 = 0x10 then bus.atapiCmdRead s h (ube32ToCpu buf 2) nbSectors 2048
  else if buf 9 &&& 0xf8 = 0xf8 then bus.atapiCmdRead s h (ube32ToCpu buf 2) nbSectors 2352
  else bus.invalidField s

/-- The block address is compared as an unsigned number. -/
def cmdSeek : IDEBus :=
  if bus.totalSectors s ≤ (buf 2 ++ buf 3 ++ buf 4 ++ buf 5).toNat then
    bus.atapiCmdError s senseIllegalRequest ascLogicalBlockOor
  else bus.atapiCmdOk s

def cmdStartStopUnit : IDEBus :=
  match if has (buf 4) 0x02 then h.ejectError else none with
  | none => bus.atapiCmdOk s
  | some error =>
    if error = ebusy then
      bus.atapiCmdError s (if h.inserted then senseIllegalRequest else senseNotReady)
        ascMediaRemovalPrevented
    else bus.atapiCmdError s senseNotReady ascMediumNotPresent

def cmdMechanismStatus : IDEBus := bus.reply s h 8 (ube16ToCpu buf 8)

def cdromReadToc (startTrack : BitVec 8) : Option Int :=
  if startTrack ≤ 1 then some 20 else if startTrack = 0xaa then some 12 else none

def cdromReadTocRaw : Int := 48

def cmdReadTocPmaAtip : IDEBus :=
  let maxLen := ube16ToCpu buf 7
  let format := buf 9 >>> 6
  if format = 0 then
    match cdromReadToc (buf 6) with
    | some len => bus.reply s h len maxLen
    | none => bus.invalidField s
  else if format = 1 then bus.reply s h 12 maxLen
  else if format = 2 then bus.reply s h cdromReadTocRaw maxLen
  else bus.invalidField s

def cmdReadCdvdCapacity : IDEBus := bus.reply s h 8 8

/-- The layer is read from the packet after its reply was cleared. -/
def cmdReadDvdStructure : IDEBus :=
  let maxLen := ube16ToCpu buf 8
  let format := buf 7
  if format < 0xff ∧ bus.mediaIsCd s then
    bus.atapiCmdError s senseIllegalRequest ascIncompatibleFormat
  else if format < 0xff ∧ !bus.mediaPresent s then bus.invalidField s
  else if (format < 0x80 ∨ format = 0xff) ∧ buf 1 = 0 then
    match bus.dvdReadStructure s format (if 6 < maxLen then 0 else buf 6) with
    | .ok size => bus.reply s h size maxLen
    | .error asc => (bus.fill s h.data).atapiCmdError s senseIllegalRequest asc
  else (bus.fill s h.data).invalidField s

end

inductive AtapiCommand
  | testUnitReady
  | requestSense
  | inquiry
  | modeSense
  | startStopUnit
  | preventAllowMediumRemoval
  | readCdvdCapacity
  | read
  | seek
  | readTocPmaAtip
  | getConfiguration
  | getEventStatusNotification
  | readDvdStructure
  | setSpeed
  | mechanismStatus
  | readCd
  deriving DecidableEq

def atapiCmdTable (opcode : BitVec 8) : Option AtapiCommand :=
  match opcode with
  | 0x00 => some .testUnitReady
  | 0x03 => some .requestSense
  | 0x12 => some .inquiry
  | 0x1a => some .modeSense
  | 0x1b => some .startStopUnit
  | 0x1e => some .preventAllowMediumRemoval
  | 0x25 => some .readCdvdCapacity
  | 0x28 => some .read
  | 0x2b => some .seek
  | 0x43 => some .readTocPmaAtip
  | 0x46 => some .getConfiguration
  | 0x4a => some .getEventStatusNotification
  | 0x5a => some .modeSense
  | 0xa8 => some .read
  | 0xad => some .readDvdStructure
  | 0xbb => some .setSpeed
  | 0xbd => some .mechanismStatus
  | 0xbe => some .readCd
  | _ => none

/-- The commands that may run under a unit attention condition. -/
def AtapiCommand.allowUa : AtapiCommand → Bool
  | .requestSense | .inquiry | .getConfiguration | .getEventStatusNotification => true
  | _ => false

/-- The commands that need a medium. -/
def AtapiCommand.checkReady : AtapiCommand → Bool
  | .testUnitReady | .readCdvdCapacity | .seek | .readTocPmaAtip => true
  | _ => false

def atapiHandler (buf : Nat → BitVec 8) : AtapiCommand → IDEBus
  | .testUnitReady => bus.atapiCmdOk s
  | .requestSense => bus.cmdRequestSense s h buf
  | .inquiry => bus.cmdInquiry s h buf
  | .modeSense => bus.cmdModeSense s h buf
  | .startStopUnit => bus.cmdStartStopUnit s h buf
  | .preventAllowMediumRemoval => bus.atapiCmdOk s
  | .readCdvdCapacity => bus.cmdReadCdvdCapacity s h
  | .read => bus.cmdRead s h buf
  | .seek => bus.cmdSeek s buf
  | .readTocPmaAtip => bus.cmdReadTocPmaAtip s h buf
  | .getConfiguration => bus.cmdGetConfiguration s h buf
  | .getEventStatusNotification => bus.cmdGetEventStatusNotification s h buf
  | .readDvdStructure => bus.cmdReadDvdStructure s h buf
  | .setSpeed => bus.atapiCmdOk s
  | .mechanismStatus => bus.cmdMechanismStatus s h buf
  | .readCd => bus.cmdReadCd s h buf

/-- A changed medium is reported as removed, then as changed. -/
def reportChange : IDEBus :=
  ((bus.atapiCmdError s senseNotReady ascMediumNotPresent).on s fun d =>
    { d with cdromChanged := false }).setSense s senseUnitAttention ascMediumMayHaveChanged

def atapiCmd : IDEBus :=
  let d := bus.ifs s
  let command := atapiCmdTable (d.ioBuffer 0)
  if d.senseKey = senseUnitAttention ∧ !command.any AtapiCommand.allowUa then
    bus.atapiCmdCheckStatus s
  else if h.inserted ∧ d.cdromChanged then bus.reportChange s
  else if command.any AtapiCommand.checkReady ∧ (!bus.mediaPresent s ∨ !h.inserted) then
    bus.atapiCmdError s senseNotReady ascMediumNotPresent
  else
    match command with
    | some command => bus.atapiHandler s h d.ioBuffer command
    | none => bus.atapiCmdError s senseIllegalRequest ascIllegalOpcode

end IDEBus

end Qemu.Hw.Ide
