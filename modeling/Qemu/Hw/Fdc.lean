import Qemu.Lib.Prog
import Qemu.Lib.Status

/-!
# The floppy disk controller

The controller of `hw/fdc.c` keeps commands, sector data and results in one buffer of
`FD_SECTOR_LEN` bytes, which the guest reaches through the data register.  Every access to that
buffer is checked here, and one outside it ends the step with the index as a fault.
-/

namespace Qemu.Hw.Fdc

open Status Prog

local instance neZeroTwo : NeZero 2 := ⟨two_ne_zero⟩

abbrev sectorLen : Nat := 512

inductive Dir where
  | write
  | read
  | scanE
  | scanL
  | scanH
  deriving DecidableEq, Repr

namespace Dir

/-- One of the three scan commands. -/
def isScan : Dir → Bool
  | scanE | scanL | scanH => true
  | write | read => false

end Dir

def stateMulti : BitVec 8 := 0x01
def stateFormat : BitVec 8 := 0x02
def stateSeek : BitVec 8 := 0x04

def sr0Seek : BitVec 8 := 0x20
def sr0AbnTerm : BitVec 8 := 0x40
def sr0InvCmd : BitVec 8 := 0x80
def sr0RdyChg : BitVec 8 := 0xc0
def sr1Ec : BitVec 8 := 0x80
def sr2Seh : BitVec 8 := 0x08

def sraNDrv2 : BitVec 8 := 0x40
def sraIntPend : BitVec 8 := 0x80

def srbMtr0 : BitVec 8 := 0x01
def srbMtr1 : BitVec 8 := 0x02
def srbDr0 : BitVec 8 := 0x20

def dorNReset : BitVec 8 := 0x04
def dorDmaEn : BitVec 8 := 0x08
def dorMotEn0 : BitVec 8 := 0x10
def dorMotEn1 : BitVec 8 := 0x20

def tdrBootSel : BitVec 8 := 0x04

def dsrPwrDown : BitVec 8 := 0x40
def dsrSwReset : BitVec 8 := 0x80

def msrCmdBusy : BitVec 8 := 0x10
def msrNonDma : BitVec 8 := 0x20
def msrDio : BitVec 8 := 0x40
def msrRqm : BitVec 8 := 0x80

def resetSenseiCount : Int := 4

/-- `FDrive`, with `FDISK_DBL_SIDES` as a truth value and `bs != NULL` as `hasBs`. -/
structure FDrive where
  hasBs : Bool
  perpendicular : BitVec 8
  head : BitVec 8
  track : BitVec 8
  sect : BitVec 8
  dblSides : Bool
  lastSect : BitVec 8
  maxTrack : BitVec 8
  ro : BitVec 8

/-- `FDCtrl`.  There are two drives (`MAX_FD`), so `cur_drv`, which is always masked with
`FD_DOR_SELMASK`, is one of two values. -/
structure FDCtrl where
  version : BitVec 8
  irq : Bool
  hasDma : Bool
  dreq : Bool
  resultTimer : Bool
  sra : BitVec 8
  srb : BitVec 8
  dor : BitVec 8
  tdr : BitVec 8
  dsr : BitVec 8
  msr : BitVec 8
  curDrv : Fin 2
  status0 : BitVec 8
  fifo : Fin sectorLen → BitVec 8
  dataPos : BitVec 32
  dataLen : BitVec 32
  dataState : BitVec 8
  dataDir : Dir
  eot : BitVec 8
  timer0 : BitVec 8
  timer1 : BitVec 8
  precompTrk : BitVec 8
  config : BitVec 8
  lock : BitVec 8
  pwrd : BitVec 8
  sun4m : Bool
  drives : Fin 2 → FDrive
  resetSensei : Int

/-- What `bdrv_is_read_only` and `bdrv_get_floppy_geometry_hint` say of an inserted medium. -/
structure Medium where
  ro : BitVec 8
  nbHeads : Nat
  maxTrack : BitVec 8
  lastSect : BitVec 8

/-- The answers that the rest of the machine gives during one step. -/
structure Env where
  /-- `bdrv_read` of one sector, by position in the transfer, drive and sector. -/
  bdrvRead : BitVec 32 → Fin 2 → Int → Option (Fin sectorLen → BitVec 8)
  /-- Whether `bdrv_write` succeeds. -/
  bdrvWrite : BitVec 32 → Fin 2 → Int → (Fin sectorLen → BitVec 8) → Bool
  dmaMode : Nat
  /-- The guest memory that `DMA_read_memory` reads, by position in the transfer. -/
  dmaByte : Nat → BitVec 8
  mediaChanged : Fin 2 → Bool
  /-- The medium in a drive, if one is inserted. -/
  medium : Fin 2 → Option Medium

/-- An access to `fdctrl->fifo` outside the buffer. -/
structure Fault where
  index : Int
  deriving DecidableEq, Repr

abbrev FdcProg := Prog FDCtrl Fault

/-! ## The buffer -/

variable (index : Int)

/-- The index lies inside the buffer. -/
def Inside : Prop := 0 ≤ index ∧ index < sectorLen

instance (index : Int) : Decidable (Inside index) :=
  inferInstanceAs (Decidable (0 ≤ index ∧ index < sectorLen))

/-- The byte of the buffer that an index inside it names. -/
def slot : Fin sectorLen := Fin.ofNat sectorLen index.toNat

/-- Read `fdctrl->fifo[index]`. -/
def fifoGet : FdcProg (BitVec 8) := fun s =>
  if Inside index then (.ok (s.fifo (slot index)), s) else (.error ⟨index⟩, s)

/-- Store a byte at an index inside the buffer. -/
def fifoPut (value : BitVec 8) (s : FDCtrl) : FDCtrl :=
  { s with fifo := Function.update s.fifo (slot index) value }

/-- Write `fdctrl->fifo[index]`. -/
def fifoSet (value : BitVec 8) : FdcProg Unit := fun s =>
  if Inside index then (.ok (), fifoPut index value s) else (.error ⟨index⟩, s)

/-- Read `len` bytes from `fdctrl->fifo + start`. -/
def fifoRead (start : Nat) : Nat → FdcProg (List (BitVec 8))
  | 0 => pure []
  | len + 1 => do
      let byte ← fifoGet start
      let rest ← fifoRead (start + 1) len
      pure (byte :: rest)

/-- Copy bytes to `fdctrl->fifo + start`. -/
def fifoWrite (start : Nat) : List (BitVec 8) → FdcProg Unit
  | [] => pure ()
  | byte :: rest => do
      fifoSet start byte
      fifoWrite (start + 1) rest

/-! ## Drives -/

def fdSectorCalc (head track sect lastSect : BitVec 8) : Int :=
  ((track.toNat : Int) * 2 + head.toNat) * lastSect.toNat + sect.toNat - 1

def fdSector (drv : FDrive) : Int := fdSectorCalc drv.head drv.track drv.sect drv.lastSect

/-- `fd_seek`: its return code and the drive after it. -/
def fdSeek (drv : FDrive) (head track sect : BitVec 8) : Nat × FDrive :=
  if drv.maxTrack < track ∨ head ≠ 0 ∧ drv.dblSides = false then (2, drv)
  else if drv.lastSect < sect then (3, drv)
  else if fdSectorCalc head track sect drv.lastSect ≠ fdSector drv then
    (if drv.track ≠ track then 1 else 0, { drv with head := head, track := track, sect := sect })
  else (0, drv)

def fdRecalibrate (drv : FDrive) : FDrive := { drv with head := 0, track := 0, sect := 1 }

def fdRevalidate (medium : Option Medium) (drv : FDrive) : FDrive :=
  match drv.hasBs, medium with
  | true, some medium =>
    { drv with
      dblSides := medium.nbHeads ≠ 1
      maxTrack := medium.maxTrack
      lastSect := medium.lastSect
      ro := medium.ro }
  | _, _ => { drv with lastSect := 0, maxTrack := 0, dblSides := false }

/-- The slot that `drv0` points to. -/
def drv0 (s : FDCtrl) : Fin 2 := if has s.tdr tdrBootSel then 1 else 0

/-- The slot that `drv1` points to. -/
def drv1 (s : FDCtrl) : Fin 2 := if has s.tdr tdrBootSel then 0 else 1

def getCurDrv (s : FDCtrl) : Fin 2 := if s.curDrv = 0 then drv0 s else drv1 s

/-- `GET_CUR_DRV`, as a byte. -/
def curDrvBits (s : FDCtrl) : BitVec 8 := BitVec.ofNat 8 s.curDrv

/-- `SET_CUR_DRV(fdctrl, value & FD_DOR_SELMASK)`. -/
def setCurDrv (value : BitVec 8) (s : FDCtrl) : FDCtrl :=
  { s with curDrv := if has value 0x01 then 1 else 0 }

def updateDrive (drive : Fin 2) (update : FDrive → FDrive) (s : FDCtrl) : FDCtrl :=
  { s with drives := Function.update s.drives drive (update (s.drives drive)) }

/-! ## Interrupts and reset -/

def resetIrq (s : FDCtrl) : FDCtrl :=
  if has s.sra sraIntPend then { s with irq := false, sra := s.sra &&& ~~~ sraIntPend } else s

def raiseIrq (status0 : BitVec 8) (s : FDCtrl) : FDCtrl :=
  if s.sun4m && has s.msr msrCmdBusy then
    { s with
      msr := s.msr &&& ~~~ msrCmdBusy ||| (msrRqm ||| msrDio)
      status0 := status0 }
  else
    { s with
      irq := if has s.sra sraIntPend then s.irq else true
      sra := if has s.sra sraIntPend then s.sra else s.sra ||| sraIntPend
      resetSensei := 0
      status0 := status0 }

def resetFifo (s : FDCtrl) : FDCtrl :=
  { s with dataDir := .write, dataPos := 0, msr := s.msr &&& ~~~ (msrCmdBusy ||| msrDio) }

def setFifo (fifoLen : BitVec 32) (doIrq : Bool) (s : FDCtrl) : FDCtrl :=
  let ready := { s with
    dataDir := .read
    dataLen := fifoLen
    dataPos := 0
    msr := s.msr ||| (msrCmdBusy ||| msrRqm ||| msrDio) }
  if doIrq then raiseIrq 0x00 ready else ready

def reset (doIrq : Bool) (s : FDCtrl) : FDCtrl :=
  let s := resetIrq s
  let s := resetFifo { s with
    sra := if (s.drives 1).hasBs then 0 else sraNDrv2
    srb := 0xc0
    curDrv := 0
    dor := dorNReset ||| (if s.hasDma then dorDmaEn else 0)
    msr := msrRqm
    dataPos := 0
    dataLen := 0
    dataState := 0
    dataDir := .write
    drives := fun drive => fdRecalibrate (s.drives drive) }
  if doIrq then { raiseIrq sr0RdyChg s with resetSensei := resetSenseiCount } else s

/-! ## Transfers -/

def unimplemented (_ : Dir) : FdcProg Unit := do
  fifoSet 0 sr0InvCmd
  modify (setFifo 1 false)

/-- `fdctrl_seek_to_next_sect`: its return value, and the drive after it. -/
def seekNext (eot dataState : BitVec 8) (drv : FDrive) : Bool × FDrive :=
  if drv.lastSect ≤ drv.sect ∨ drv.sect = eot then
    let first := { drv with sect := 1 }
    if has dataState stateMulti then
      if drv.head = 0 ∧ drv.dblSides = true then (true, { first with head := 1 })
      else (drv.dblSides, { first with head := 0, track := drv.track + 1 })
    else (false, { first with track := drv.track + 1 })
  else (true, { drv with sect := drv.sect + 1 })

def seekToNextSect (drive : Fin 2) : FdcProg Bool := fun s =>
  let next := seekNext s.eot s.dataState (s.drives drive)
  (.ok next.1, updateDrive drive (fun _ => next.2) s)

variable (env : Env)

/-- `bdrv_read` of the drive's sector to the buffer, which is cleared when the read fails.  Without
a block device the call dereferences a null pointer. -/
def readSector (drive : Fin 2) : FdcProg Unit := do
  let s ← get
  if (s.drives drive).hasBs then
    match env.bdrvRead s.dataPos drive (fdSector (s.drives drive)) with
    | some sector => modify fun s => { s with fifo := sector }
    | none => modify fun s => { s with fifo := fun _ => 0 }
  else abort

def writeSector (drive : Fin 2) : FdcProg Bool := do
  let s ← get
  if (s.drives drive).hasBs then
    pure (env.bdrvWrite s.dataPos drive (fdSector (s.drives drive)) s.fifo)
  else abort

def stopTransfer (status0 status1 status2 : BitVec 8) : FdcProg Unit := do
  let s ← get
  let drv := s.drives (getCurDrv s)
  fifoSet 0 (status0 ||| (drv.head <<< 2) ||| curDrvBits s)
  fifoSet 1 status1
  fifoSet 2 status2
  fifoSet 3 drv.track
  fifoSet 4 drv.head
  fifoSet 5 drv.sect
  fifoSet 6 2
  modify fun s => setFifo 7 true { s with
    dataDir := .read
    dreq := if has s.msr msrNonDma then s.dreq else false
    msr := (s.msr ||| (msrRqm ||| msrDio)) &&& ~~~ msrNonDma }

/-- The end of a transfer whose seek failed: the position asked for is reported back. -/
def stopAt (status1 kt kh ks : BitVec 8) : FdcProg Unit := do
  stopTransfer sr0AbnTerm status1 0x00
  fifoSet 3 kt
  fifoSet 4 kh
  fifoSet 5 ks

/-- `data_len` of a transfer, in the unsigned arithmetic of the field. -/
def transferLen (command sizeCode eot ks dtl : BitVec 8) : BitVec 32 :=
  if sizeCode = 0 then dtl.setWidth 32
  else
    let sectors : Int := (eot.toNat : Int) - ks.toNat + 1 +
      if has command 0x80 then (eot.toNat : Int) else 0
    BitVec.ofNat 32 (128 <<< min sizeCode.toNat 7) * BitVec.ofInt 32 sectors

/-- The DMA channel is programmed for the direction of the command. -/
def DmaFits (dmaMode : Nat) (direction : Dir) : Prop :=
  direction.isScan = true ∧ dmaMode >>> 2 % 4 = 0 ∨
    direction = .write ∧ dmaMode >>> 2 % 4 = 2 ∨
    direction = .read ∧ dmaMode >>> 2 % 4 = 1

instance (dmaMode : Nat) (direction : Dir) : Decidable (DmaFits dmaMode direction) :=
  inferInstanceAs (Decidable (_ ∨ _))

/-- The part of `fdctrl_start_transfer` after the seek: wait for the DMA controller, or hand the
data register to the guest. -/
def launch (direction : Dir) (s : FDCtrl) : FDCtrl :=
  if has s.dor dorDmaEn = true ∧ DmaFits env.dmaMode direction then
    { s with msr := s.msr &&& ~~~ msrRqm, dreq := true }
  else
    raiseIrq 0x00 { s with
      msr := s.msr ||| msrNonDma ||| if direction = .write then 0 else msrDio }

def transferState (command : BitVec 8) (didSeek : Bool) (dataState : BitVec 8) : BitVec 8 :=
  let multi := if has command 0x80 then dataState ||| stateMulti else dataState &&& ~~~ stateMulti
  if didSeek then multi ||| stateSeek else multi &&& ~~~ stateSeek

def startTransfer (direction : Dir) : FdcProg Unit := do
  let unit ← fifoGet 1
  modify (setCurDrv unit)
  let s ← get
  let kt ← fifoGet 2
  let kh ← fifoGet 3
  let ks ← fifoGet 4
  let sought := fdSeek (s.drives (getCurDrv s)) kh kt ks
  modify (updateDrive (getCurDrv s) fun _ => sought.2)
  if sought.1 = 2 then stopAt 0x00 kt kh ks
  else if sought.1 = 3 then stopAt sr1Ec kt kh ks
  else do
    let command ← fifoGet 0
    let sizeCode ← fifoGet 5
    let eot ← fifoGet 6
    let dtl ← if sizeCode = 0 then fifoGet 8 else pure 0
    modify fun s => launch env direction { s with
      dataDir := direction
      dataPos := 0
      msr := s.msr ||| msrCmdBusy
      dataState := transferState command (sought.1 = 1) s.dataState
      dataLen := transferLen command sizeCode eot ks dtl
      eot := eot }

def startTransferDel (_ : Dir) : FdcProg Unit := stopTransfer (sr0AbnTerm ||| sr0Seek) 0x00 0x00

/-- The sign of `memcmp`. -/
def memcmp : List (BitVec 8) → List (BitVec 8) → Int
  | left :: lefts, right :: rights =>
    if left < right then -1 else if right < left then 1 else memcmp lefts rights
  | _, _ => 0

/-- How the loop of `fdctrl_transfer_handler` is left. -/
inductive LoopEnd where
  /-- At the label `end_transfer`. -/
  | endTransfer
  /-- At the label `transfer_error`. -/
  | transferError

/-- The `switch` on the direction in the loop of `fdctrl_transfer_handler`; `none` goes on. -/
def transferChunk (drive : Fin 2) (relPos len : Nat) : FdcProg (Option LoopEnd) := do
  let s ← get
  let guestBytes := (List.range len).map fun i => env.dmaByte (s.dataPos.toNat + i)
  match s.dataDir with
  | .read => do
      let _ ← fifoRead relPos len
      pure none
  | .write => do
      fifoWrite relPos guestBytes
      let written ← writeSector env drive
      if written then pure none
      else do
        stopTransfer (sr0AbnTerm ||| sr0Seek) 0x00 0x00
        pure (some .transferError)
  | scan => do
      let sector ← fifoRead relPos len
      let order := memcmp guestBytes sector
      if order = 0 ∨ order < 0 ∧ scan = .scanL ∨ 0 < order ∧ scan = .scanH then
        pure (some .endTransfer)
      else pure none

/-- The sector is read first unless all of it will be written. -/
def preload (drive : Fin 2) (relPos len : Nat) : FdcProg Unit := do
  let s ← get
  if s.dataDir ≠ .write ∨ len < sectorLen ∨ relPos ≠ 0 then readSector env drive else pure ()

/-- `data_pos += len`, and the seek at the end of a sector: whether the loop goes on. -/
def advanceChunk (drive : Fin 2) (len : Nat) : FdcProg Bool := do
  modify fun s => { s with dataPos := s.dataPos + BitVec.ofNat 32 len }
  let s ← get
  if s.dataPos.toNat % sectorLen = 0 then seekToNextSect drive else pure true

/-- One round of the loop of `fdctrl_transfer_handler`; `none` goes on. -/
def transferRound (drive : Fin 2) (dmaLen : Nat) : FdcProg (Option LoopEnd) := do
  let s ← get
  let relPos := s.dataPos.toNat % sectorLen
  let len := min (dmaLen - s.dataPos.toNat) (sectorLen - relPos)
  preload env drive relPos len
  let left ← transferChunk env drive relPos len
  match left with
  | some label => pure (some label)
  | none => do
      let goOn ← advanceChunk drive len
      pure (if goOn then none else some .endTransfer)

/-- The loop of `fdctrl_transfer_handler`.  Every round moves `data_pos` on, so `dma_len` rounds are
enough. -/
def transferLoop (env : Env) (drive : Fin 2) (dmaLen : Nat) : Nat → FdcProg LoopEnd
  | 0 => do
      let s ← get
      if s.dataPos.toNat < dmaLen then hang else pure .endTransfer
  | rounds + 1 => do
      let s ← get
      if s.dataPos.toNat < dmaLen then do
        let left ← transferRound env drive dmaLen
        match left with
        | some label => pure label
        | none => transferLoop env drive dmaLen rounds
      else pure .endTransfer

/-- `fdctrl_transfer_handler`.  After a scan `status2` is `FD_SR2_SEH` whatever the comparison
found. -/
def transferHandler (dmaLen : Nat) : FdcProg Unit := do
  let s ← get
  let drive := getCurDrv s
  let dmaLen := min dmaLen s.dataLen.toNat
  if has s.msr msrRqm then pure ()
  else if (s.drives drive).hasBs = false then
    if s.dataDir = .write then stopTransfer (sr0AbnTerm ||| sr0Seek) 0x00 0x00
    else stopTransfer sr0AbnTerm 0x00 0x00
  else do
    let label ← transferLoop env drive dmaLen dmaLen
    match label with
    | .transferError => pure ()
    | .endTransfer => do
        let after ← get
        modify fun t => { t with dataLen := t.dataLen - (t.dataPos - s.dataPos) }
        stopTransfer (if has after.dataState stateSeek then sr0Seek else 0x00) 0x00
          (if after.dataDir.isScan then sr2Seh else 0x00)

/-! ## Commands -/

def formatSector : FdcProg Unit := do
  let unit ← fifoGet 1
  modify (setCurDrv unit)
  let s ← get
  let drive := getCurDrv s
  let kt ← fifoGet 6
  let kh ← fifoGet 7
  let ks ← fifoGet 8
  let sought := fdSeek (s.drives drive) kh kt ks
  modify (updateDrive drive fun _ => sought.2)
  if sought.1 = 2 then stopAt 0x00 kt kh ks
  else if sought.1 = 3 then stopAt sr1Ec kt kh ks
  else do
    modify fun s => { s with
      dataState := if sought.1 = 1 then s.dataState ||| stateSeek else s.dataState
      fifo := fun _ => 0 }
    let written ← if sought.2.hasBs then writeSector env drive else pure false
    if written = false then stopTransfer (sr0AbnTerm ||| sr0Seek) 0x00 0x00
    else if sought.2.sect = sought.2.lastSect then do
      modify fun s => { s with dataState := s.dataState &&& ~~~ stateFormat }
      let s ← get
      stopTransfer (if has s.dataState stateSeek then sr0Seek else 0x00) 0x00 0x00
    else modify fun s => { s with dataPos := 0, dataLen := 4 }

def handleLock (_ : Dir) : FdcProg Unit := do
  let command ← fifoGet 0
  let lock : BitVec 8 := if has command 0x80 then 1 else 0
  modify fun s => { s with lock := lock }
  fifoSet 0 (lock <<< 4)
  modify (setFifo 1 (lock = 1))

def handleDumpreg (_ : Dir) : FdcProg Unit := do
  let s ← get
  let cur := s.drives (getCurDrv s)
  fifoWrite 0 [(s.drives (drv0 s)).track, (s.drives (drv1 s)).track, 0, 0, s.timer0,
    (s.timer1 <<< 1) ||| (if has s.dor dorDmaEn then 1 else 0), cur.lastSect,
    (s.lock <<< 7) ||| (cur.perpendicular <<< 2), s.config, s.precompTrk]
  modify (setFifo 10 false)

def handleVersion (_ : Dir) : FdcProg Unit := do
  let s ← get
  fifoSet 0 s.version
  modify (setFifo 1 true)

def handlePartid (_ : Dir) : FdcProg Unit := do
  fifoSet 0 0x41
  modify (setFifo 1 false)

def handleRestore (_ : Dir) : FdcProg Unit := do
  let s ← get
  let track0 ← fifoGet 3
  let track1 ← fifoGet 4
  let timer0 ← fifoGet 7
  let timer1 ← fifoGet 8
  let lastSect ← fifoGet 9
  let flags ← fifoGet 10
  let config ← fifoGet 11
  let precompTrk ← fifoGet 12
  let pwrd ← fifoGet 13
  modify (updateDrive (drv0 s) fun drv => { drv with track := track0 })
  modify (updateDrive (drv1 s) fun drv => { drv with track := track1 })
  modify (updateDrive (getCurDrv s) fun drv =>
    { drv with lastSect := lastSect, perpendicular := (flags >>> 2) &&& 0xf })
  modify fun s => resetFifo { s with
    timer0 := timer0
    timer1 := timer1
    lock := flags >>> 7
    config := config
    precompTrk := precompTrk
    pwrd := pwrd }

def handleSave (_ : Dir) : FdcProg Unit := do
  let s ← get
  let cur := s.drives (getCurDrv s)
  fifoWrite 0 [0, 0, (s.drives (drv0 s)).track, (s.drives (drv1 s)).track, 0, 0, s.timer0, s.timer1,
    cur.lastSect, (s.lock <<< 7) ||| (cur.perpendicular <<< 2), s.config, s.precompTrk, s.pwrd,
    0, 0]
  modify (setFifo 15 true)

def handleReadid (_ : Dir) : FdcProg Unit := do
  let s ← get
  let unit ← fifoGet 1
  modify (updateDrive (getCurDrv s) fun drv => { drv with head := (unit >>> 2) &&& 1 })
  modify fun s => { s with resultTimer := true }

/-- `fdctrl_handle_format_track`.  The format flag is set and cleared again before the return. -/
def handleFormatTrack (_ : Dir) : FdcProg Unit := do
  let unit ← fifoGet 1
  modify (setCurDrv unit)
  let command ← fifoGet 0
  modify fun s => { s with
    dataState := transferState command false (s.dataState ||| stateFormat) }
  let s ← get
  let lastSect ← fifoGet 3
  modify (updateDrive (getCurDrv s) fun drv => { drv with lastSect := lastSect })
  modify fun s => { s with dataState := s.dataState &&& ~~~ stateFormat }
  stopTransfer 0x00 0x00 0x00

def handleSpecify (_ : Dir) : FdcProg Unit := do
  let first ← fifoGet 1
  let second ← fifoGet 2
  modify fun s => resetFifo { s with
    timer0 := (first >>> 4) &&& 0xf
    timer1 := second >>> 1
    dor := if has second 0x01 then s.dor &&& ~~~ dorDmaEn else s.dor ||| dorDmaEn }

def handleSenseDriveStatus (_ : Dir) : FdcProg Unit := do
  let unit ← fifoGet 1
  modify (setCurDrv unit)
  let s ← get
  modify (updateDrive (getCurDrv s) fun drv => { drv with head := (unit >>> 2) &&& 1 })
  let s ← get
  let drv := s.drives (getCurDrv s)
  fifoSet 0 ((drv.ro <<< 6) ||| (if drv.track = 0 then 0x10 else 0x00) ||| (drv.head <<< 2) |||
    curDrvBits s ||| 0x28)
  modify (setFifo 1 false)

def handleRecalibrate (_ : Dir) : FdcProg Unit := do
  let unit ← fifoGet 1
  modify (setCurDrv unit)
  let s ← get
  modify (updateDrive (getCurDrv s) fdRecalibrate)
  modify fun s => raiseIrq sr0Seek (resetFifo s)

def handleSenseInterruptStatus (_ : Dir) : FdcProg Unit := do
  let s ← get
  let drv := s.drives (getCurDrv s)
  if 0 < s.resetSensei then do
    fifoSet 0 (sr0RdyChg + BitVec.ofInt 8 (resetSenseiCount - s.resetSensei))
    modify fun s => { s with resetSensei := s.resetSensei - 1 }
  else fifoSet 0 (sr0Seek ||| (drv.head <<< 2) ||| curDrvBits s)
  fifoSet 1 drv.track
  modify fun s => { resetIrq (setFifo 2 false s) with status0 := sr0RdyChg }

def handleSeek (_ : Dir) : FdcProg Unit := do
  let unit ← fifoGet 1
  modify fun s => resetFifo (setCurDrv unit s)
  let s ← get
  let track ← fifoGet 2
  if (s.drives (getCurDrv s)).maxTrack < track then
    modify (raiseIrq (sr0AbnTerm ||| sr0Seek))
  else do
    modify (updateDrive (getCurDrv s) fun drv => { drv with track := track })
    modify (raiseIrq sr0Seek)

def handlePerpendicularMode (_ : Dir) : FdcProg Unit := do
  let s ← get
  let mode ← fifoGet 1
  modify (updateDrive (getCurDrv s) fun drv =>
    if has mode 0x80 then { drv with perpendicular := mode &&& 0x7 } else drv)
  modify resetFifo

def handleConfigure (_ : Dir) : FdcProg Unit := do
  let config ← fifoGet 2
  let precompTrk ← fifoGet 3
  modify fun s => resetFifo { s with config := config, precompTrk := precompTrk }

def handlePowerdownMode (_ : Dir) : FdcProg Unit := do
  let mode ← fifoGet 1
  modify fun s => { s with pwrd := mode }
  fifoSet 0 mode
  modify (setFifo 1 true)

def handleOption (_ : Dir) : FdcProg Unit := modify resetFifo

/-- `fdctrl_handle_drive_specification_command`.  Without the done bit in the last byte nothing
happens: `data_len` is six here. -/
def handleDriveSpecificationCommand (_ : Dir) : FdcProg Unit := do
  let s ← get
  let drv := s.drives (getCurDrv s)
  let last ← fifoGet (s.dataPos - 1).toNat
  if has last 0x80 then
    if has last 0x40 then do
      let first ← fifoGet 1
      fifoSet 0 first
      fifoSet 2 0
      fifoSet 3 0
      modify (setFifo 4 true)
    else modify resetFifo
  else if 7 < s.dataLen then do
    fifoSet 0 (0x80 ||| (drv.head <<< 2) ||| curDrvBits s)
    modify (setFifo 1 true)
  else pure ()

def handleRelativeSeekOut (_ : Dir) : FdcProg Unit := do
  let unit ← fifoGet 1
  modify (setCurDrv unit)
  let s ← get
  let count ← fifoGet 2
  modify (updateDrive (getCurDrv s) fun drv =>
    if drv.maxTrack.toNat ≤ count.toNat + drv.track.toNat then
      { drv with track := drv.maxTrack - 1 }
    else { drv with track := drv.track + count })
  modify fun s => raiseIrq sr0Seek (resetFifo s)

def handleRelativeSeekIn (_ : Dir) : FdcProg Unit := do
  let unit ← fifoGet 1
  modify (setCurDrv unit)
  let s ← get
  let count ← fifoGet 2
  modify (updateDrive (getCurDrv s) fun drv =>
    if drv.track < count then { drv with track := 0 }
    else { drv with track := drv.track - count })
  modify fun s => raiseIrq sr0Seek (resetFifo s)

/-- An entry of `handlers`. -/
structure Handler where
  value : BitVec 8
  mask : BitVec 8
  parameters : Nat
  handler : Dir → FdcProg Unit
  direction : Dir

/-- The entry every command byte matches. -/
def unknownHandler : Handler := ⟨0, 0, 0, unimplemented, .write⟩

/-- `handlers`.  Entries without a direction have direction 0. -/
def handlers : List Handler := [
  ⟨0x06, 0x1f, 8, startTransfer env, .read⟩,
  ⟨0x05, 0x3f, 8, startTransfer env, .write⟩,
  ⟨0x0f, 0xff, 2, handleSeek, .write⟩,
  ⟨0x08, 0xff, 0, handleSenseInterruptStatus, .write⟩,
  ⟨0x07, 0xff, 1, handleRecalibrate, .write⟩,
  ⟨0x0d, 0xbf, 5, handleFormatTrack, .write⟩,
  ⟨0x02, 0xbf, 8, startTransfer env, .read⟩,
  ⟨0x4e, 0xff, 17, handleRestore, .write⟩,
  ⟨0x2e, 0xff, 0, handleSave, .write⟩,
  ⟨0x0c, 0x1f, 8, startTransferDel, .read⟩,
  ⟨0x11, 0x1f, 8, startTransfer env, .scanE⟩,
  ⟨0x16, 0x1f, 8, unimplemented, .write⟩,
  ⟨0x19, 0x1f, 8, startTransfer env, .scanL⟩,
  ⟨0x1d, 0x1f, 8, startTransfer env, .scanH⟩,
  ⟨0x09, 0x3f, 8, startTransferDel, .write⟩,
  ⟨0x0a, 0xbf, 1, handleReadid, .write⟩,
  ⟨0x03, 0xff, 2, handleSpecify, .write⟩,
  ⟨0x04, 0xff, 1, handleSenseDriveStatus, .write⟩,
  ⟨0x12, 0xff, 1, handlePerpendicularMode, .write⟩,
  ⟨0x13, 0xff, 3, handleConfigure, .write⟩,
  ⟨0x17, 0xff, 2, handlePowerdownMode, .write⟩,
  ⟨0x33, 0xff, 1, handleOption, .write⟩,
  ⟨0x8e, 0xff, 5, handleDriveSpecificationCommand, .write⟩,
  ⟨0x8f, 0xff, 2, handleRelativeSeekOut, .write⟩,
  ⟨0xcd, 0xff, 10, unimplemented, .write⟩,
  ⟨0xcf, 0xff, 2, handleRelativeSeekIn, .write⟩,
  ⟨0x14, 0x7f, 0, handleLock, .write⟩,
  ⟨0x0e, 0xff, 0, handleDumpreg, .write⟩,
  ⟨0x10, 0xff, 0, handleVersion, .write⟩,
  ⟨0x18, 0xff, 0, handlePartid, .write⟩,
  ⟨0x05, 0x1f, 8, startTransfer env, .write⟩]

/-- `handlers[command_to_handler[value]]`: the table is filled from the last entry to the first, so
the first entry that matches stays. -/
def commandToHandler (value : BitVec 8) : Handler :=
  ((handlers env).find? fun entry => value &&& entry.mask = entry.value).getD unknownHandler

/-! ## Registers -/

/-- The controller takes a byte through the data register. -/
def AcceptsWrite (s : FDCtrl) : Prop :=
  has s.dor dorNReset = true ∧ has s.msr msrRqm = true ∧ has s.msr msrDio = false

instance (s : FDCtrl) : Decidable (AcceptsWrite s) := inferInstanceAs (Decidable (_ ∧ _))

/-- The controller gives a byte through the data register. -/
def AcceptsRead (s : FDCtrl) : Prop := has s.msr msrRqm = true ∧ has s.msr msrDio = true

instance (s : FDCtrl) : Decidable (AcceptsRead s) := inferInstanceAs (Decidable (_ ∧ _))

/-- `pos %= FD_SECTOR_LEN` on the `int` that holds `data_pos`. -/
def sectorPos (dataPos : BitVec 32) : Int := dataPos.toInt.tmod sectorLen

/-- `fdctrl->data_pos++`. -/
def advance (s : FDCtrl) : FDCtrl := { s with dataPos := s.dataPos + 1 }

/-- The end of a sector in `fdctrl_write_data`: whether the function goes on. -/
def flushSector (pos : Int) : FdcProg Bool := do
  let s ← get
  if pos = sectorLen - 1 ∨ s.dataPos = s.dataLen then do
    let written ← writeSector env (getCurDrv s)
    if written then seekToNextSect (getCurDrv s) else pure false
  else pure true

section

variable (value : BitVec 8)

/-- The part of `fdctrl_write_data` for sector data. -/
def writeSectorByte : FdcProg Unit := do
  let s ← get
  modify advance
  fifoSet (sectorPos s.dataPos) value
  let goOn ← flushSector env (sectorPos s.dataPos)
  let s ← get
  if goOn = true ∧ s.dataPos = s.dataLen then stopTransfer sr0Seek 0x00 0x00
  else pure ()

/-- The first byte of a command says how many there are. -/
def expect (s : FDCtrl) : FDCtrl :=
  if s.dataPos = 0 then
    { s with dataLen := BitVec.ofNat 32 ((commandToHandler env value).parameters + 1) }
  else s

/-- The end of `fdctrl_write_data`: with all parameters there the command runs. -/
def runCommand : FdcProg Unit := do
  let s ← get
  if s.dataPos = s.dataLen then
    if has s.dataState stateFormat then formatSector env
    else do
      let command ← fifoGet 0
      let entry := commandToHandler env command
      entry.handler entry.direction
  else pure ()

/-- The part of `fdctrl_write_data` for a command and its parameters. -/
def writeCommandByte : FdcProg Unit := do
  modify (expect env value)
  let s ← get
  fifoSet s.dataPos.toNat value
  modify advance
  runCommand env

/-- `fdctrl->dsr &= ~FD_DSR_PWRDOWN`. -/
def wake (s : FDCtrl) : FDCtrl := { s with dsr := s.dsr &&& ~~~ dsrPwrDown }

def writeData : FdcProg Unit := do
  let s ← get
  if AcceptsWrite s then do
    modify wake
    if has s.msr msrNonDma then writeSectorByte env value else writeCommandByte env value
  else pure ()

/-- The seek in `fdctrl_read_data` before every sector but the first. -/
def seekUnlessFirst : FdcProg Bool := do
  let s ← get
  if s.dataPos ≠ 0 then seekToNextSect (getCurDrv s) else pure true

/-- The refill at the start of `fdctrl_read_data` for sector data: whether the byte can be read. -/
def refill : FdcProg Bool := do
  let s ← get
  if sectorPos s.dataPos = 0 then do
    let found ← seekUnlessFirst
    if found then do
      readSector env (getCurDrv s)
      pure true
    else pure false
  else pure true

/-- The end of `fdctrl_read_data`. -/
def finishRead : FdcProg Unit := do
  let s ← get
  if s.dataPos = s.dataLen then do
    modify fun s => { s with dataPos := 0 }
    if has s.msr msrNonDma then stopTransfer sr0Seek 0x00 0x00
    else modify fun s => resetIrq (resetFifo s)
  else pure ()

/-- The part of `fdctrl_read_data` that takes a byte from the buffer. -/
def readByte : FdcProg (BitVec 32) := do
  let byte ← fifoGet index
  modify advance
  finishRead
  pure (byte.setWidth 32)

def readData : FdcProg (BitVec 32) := do
  modify wake
  let s ← get
  if AcceptsRead s then
    if has s.msr msrNonDma then do
      let filled ← refill env
      if filled then readByte (sectorPos s.dataPos) else pure 0
    else readByte s.dataPos.toInt
  else pure 0

def runResultTimer : FdcProg Unit := do
  modify fun s => { s with resultTimer := false }
  let s ← get
  modify (updateDrive (getCurDrv s) fun drv =>
    if drv.lastSect ≠ 0 then { drv with sect := drv.sect % drv.lastSect + 1 } else drv)
  stopTransfer 0x00 0x00 0x00

section

variable (s : FDCtrl)

/-- The motor and drive lines in `fdctrl_write_dor`. -/
def setLines : FDCtrl :=
  let put := fun srb bit line => if has value bit then srb ||| line else srb &&& ~~~ line
  { s with srb := put (put (put s.srb dorMotEn0 srbMtr0) dorMotEn1 srbMtr1) 0x01 srbDr0 }

/-- The reset in `fdctrl_write_dor`, when the line goes up. -/
def leaveReset : FDCtrl :=
  if has value dorNReset = true ∧ has s.dor dorNReset = false then wake (reset true s) else s

def writeDor : FDCtrl := { setCurDrv value (leaveReset value (setLines value s)) with dor := value }

def writeTape : FDCtrl :=
  if has s.dor dorNReset then { s with tdr := value &&& tdrBootSel } else s

/-- The reset bit in `fdctrl_write_rate`, which clears itself. -/
def softReset : FDCtrl :=
  let fresh := reset true { s with dor := s.dor &&& ~~~ dorNReset }
  { fresh with dor := fresh.dor ||| dorNReset }

def writeRate : FDCtrl :=
  if has s.dor dorNReset then
    let s := if has value dsrSwReset then softReset s else s
    let s := if has value dsrPwrDown then reset true s else s
    { s with dsr := value }
  else s

end

end

/-- `fdctrl_read_main_status`: the state after it. -/
def readMainStatus (s : FDCtrl) : BitVec 32 × FDCtrl :=
  let awake := { wake s with dor := s.dor ||| dorNReset }
  if s.sun4m then ((s.msr ||| msrDio).setWidth 32, resetIrq awake)
  else (s.msr.setWidth 32, awake)

def mediaChanged (drive : Fin 2) (s : FDCtrl) : Bool × FDCtrl :=
  if (s.drives drive).hasBs && env.mediaChanged drive then
    (true, updateDrive drive (fdRevalidate (env.medium drive)) s)
  else (false, s)

/-- `fdctrl_read_dir`.  The second drive is asked only when the first has not changed. -/
def readDir (s : FDCtrl) : BitVec 32 × FDCtrl :=
  let first := mediaChanged env (drv0 s) s
  let answer := if first.1 then first else mediaChanged env (drv1 s) first.2
  (if answer.1 then 0x80 else 0, answer.2)

/-- Run a step that returns a value and touches no buffer. -/
def observe (step : FDCtrl → BitVec 32 × FDCtrl) : FdcProg (BitVec 32) := fun s =>
  (.ok (step s).1, (step s).2)

def read (reg : BitVec 32) : FdcProg (BitVec 32) :=
  if reg = 0x00 then observe fun s => (s.sra.setWidth 32, s)
  else if reg = 0x01 then observe fun s => (s.srb.setWidth 32, s)
  else if reg = 0x02 then observe fun s => ((s.dor ||| curDrvBits s).setWidth 32, s)
  else if reg = 0x03 then observe fun s => (s.tdr.setWidth 32, s)
  else if reg = 0x04 then observe readMainStatus
  else if reg = 0x05 then readData env
  else if reg = 0x07 then observe (readDir env)
  else observe fun s => (-1, s)

/-- `fdctrl_write`.  Every register looks at the low byte only. -/
def write (reg value : BitVec 32) : FdcProg Unit :=
  let byte := value.setWidth 8
  if reg = 0x02 then modify (writeDor byte)
  else if reg = 0x03 then modify (writeTape byte)
  else if reg = 0x04 then modify (writeRate byte)
  else if reg = 0x05 then writeData env byte
  else pure ()

/-! ## The machine -/

/-- What the rest of the machine does to the controller.  A DMA transfer comes from `channel_run`,
which passes `(base[COUNT] + 1) << ncont` with sixteen bits of count. -/
inductive Op where
  | read (reg : BitVec 32)
  | write (reg value : BitVec 32)
  | dma (count : BitVec 16) (ncont : Fin 2)
  | timer
  | reset

def step : Op → FdcProg Unit
  | .read reg => do
      let _ ← read env reg
      pure ()
  | .write reg value => write env reg value
  | .dma count ncont => transferHandler env ((count.toNat + 1) <<< (ncont : Nat))
  | .timer => do
      let s ← get
      if s.resultTimer then runResultTimer else pure ()
  | .reset => modify (Fdc.reset false)

end Qemu.Hw.Fdc
