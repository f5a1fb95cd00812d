import Qemu.Hw.Fdc
import Qemu.Lib.Faultless

/-!
# The index of the floppy controller's buffer

Between two steps the controller is in one of four phases, which the main status register tells
apart: it waits for DMA, it moves sector data through the data register, it gives a result, or it
takes a command.  In the last two the position in the buffer is bounded by `data_len`, which is at
most 18.
-/

namespace Qemu.Hw.Fdc

open Status Prog BitVec List Faultless

variable {tolerated : Fault → Prop} {env : Env} {s : FDCtrl} {direction : Dir} {value : BitVec 8}
variable {drive : Fin 2} {status0 : BitVec 8} {n : Nat} {index : Int}

/-! ## Phases -/

/-- What the registers say about position and length between two steps. -/
structure Phase (msr dataState : BitVec 8) (dataPos dataLen : BitVec 32) : Prop where
  noFormat : has dataState stateFormat = false
  result : has msr msrNonDma = false → has msr msrDio = true →
    dataPos.toNat < dataLen.toNat ∧ dataLen.toNat ≤ 18
  command : has msr msrNonDma = false → has msr msrRqm = true → has msr msrDio = false →
    dataPos = 0 ∨ dataPos.toNat ≤ dataLen.toNat ∧ dataLen.toNat ≤ 18

/-- The controller between two steps. -/
def Orderly (s : FDCtrl) : Prop := Phase s.msr s.dataState s.dataPos s.dataLen

/-- The program has only tolerated faults and leaves the controller orderly. -/
abbrev Settles {α : Type} (tolerated : Fault → Prop) (program : FdcProg α) (s : FDCtrl) : Prop :=
  Faultless tolerated program s fun _ after => Orderly after

abbrev NoFormat (s : FDCtrl) : Prop := has s.dataState stateFormat = false

theorem resetFifo_orderly {dataState : BitVec 8} (noFormat : has dataState stateFormat = false)
    (same : s.dataState = dataState) : Orderly (resetFifo s) where
  noFormat := (congrArg (has · stateFormat) same).trans noFormat
  result := by
    intro _ given
    simp only [resetFifo] at given
    rw [has_clear_of_le (by decide)] at given
    cases given
  command := fun _ _ _ => .inl rfl

theorem resetIrq_orderly (orderly : Orderly s) : Orderly (resetIrq s) := by
  unfold resetIrq
  split <;> exact orderly

theorem raiseIrq_orderly (idle : has s.msr msrCmdBusy = false) (orderly : Orderly s) :
    Orderly (raiseIrq status0 s) := by
  unfold raiseIrq
  rw [idle, Bool.and_false, if_neg (by decide)]
  exact orderly

theorem raiseIrq_noFormat (noFormat : NoFormat s) : NoFormat (raiseIrq status0 s) := by
  unfold raiseIrq
  split <;> exact noFormat

theorem raiseIrq_nonDma : has (raiseIrq status0 s).msr msrNonDma = has s.msr msrNonDma := by
  have others : has (msrRqm ||| msrDio) msrNonDma = false := by decide
  unfold raiseIrq
  split
  · rw [has_or, has_clear_of_disjoint (by decide), others, Bool.or_false]
  · rfl

theorem orderly_of_nonDma (noFormat : NoFormat s) (nonDma : has s.msr msrNonDma = true) :
    Orderly s := by
  refine ⟨noFormat, fun off => ?_, fun off => ?_⟩
  all_goals exact nomatch nonDma.symm.trans off

theorem resetFifo_idle : has (resetFifo s).msr msrCmdBusy = false := has_clear_of_le (by decide)

theorem setFifo_orderly {dataState : BitVec 8} {fifoLen : BitVec 32} {doIrq : Bool}
    (noFormat : has dataState stateFormat = false) (same : s.dataState = dataState)
    (given : 0 < fifoLen.toNat ∧ fifoLen.toNat ≤ 18) : Orderly (setFifo fifoLen doIrq s) := by
  have clear : NoFormat s := (congrArg (has · stateFormat) same).trans noFormat
  have isDio : has msrDio msrDio = true := by decide
  have phase {msr : BitVec 8} (dio : has msr msrDio = true) :
      Phase msr s.dataState 0 fifoLen := by
    refine ⟨clear, fun _ _ => given, fun _ _ taken => ?_⟩
    rw [dio] at taken
    cases taken
  have ready : has (s.msr ||| (msrCmdBusy ||| msrRqm ||| msrDio)) msrDio = true := by
    simp [isDio]
  cases doIrq with
  | false => exact phase ready
  | true =>
    simp only [setFifo, if_true, raiseIrq]
    split
    · refine phase ?_
      simp [isDio]
    · exact phase ready

theorem reset_orderly (doIrq : Bool) (s : FDCtrl) : Orderly (reset doIrq s) := by
  have plain : Orderly (reset false s) := resetFifo_orderly has_zero rfl
  cases doIrq with
  | false => exact plain
  | true =>
    have idle : has (reset false s).msr msrCmdBusy = false := resetFifo_idle
    have raised : Orderly (raiseIrq sr0RdyChg (reset false s)) := raiseIrq_orderly idle plain
    exact raised

/-! ## Updates that leave the phase alone -/

section Frames

variable {index : Int} {value : BitVec 8} {drive : Fin 2} {update : FDrive → FDrive}

@[simp] theorem fifoPut_dataState : (fifoPut index value s).dataState = s.dataState := rfl

@[simp] theorem updateDrive_dataState : (updateDrive drive update s).dataState = s.dataState := rfl

@[simp] theorem setCurDrv_dataState : (setCurDrv value s).dataState = s.dataState := rfl

@[simp] theorem updateDrive_msr : (updateDrive drive update s).msr = s.msr := rfl

@[simp] theorem wake_orderly : Orderly (wake s) ↔ Orderly s := Iff.rfl

@[simp] theorem updateDrive_orderly : Orderly (updateDrive drive update s) ↔ Orderly s := Iff.rfl

@[simp] theorem fifoPut_orderly : Orderly (fifoPut index value s) ↔ Orderly s := Iff.rfl

end Frames

/-! ## Accesses to the buffer -/

@[simp] theorem faultless_fifoGet {post : BitVec 8 → FDCtrl → Prop} (inside : Inside index) :
    Faultless tolerated (fifoGet index) s post ↔ post (s.fifo (slot index)) s :=
  faultless_of_run (if_pos inside)

@[simp] theorem faultless_fifoSet {post : Unit → FDCtrl → Prop} (inside : Inside index) :
    Faultless tolerated (fifoSet index value) s post ↔
      post () (fifoPut index value s) :=
  faultless_of_run (if_pos inside)

theorem fifoRead_faultless {start len : Nat} (inside : start + len ≤ sectorLen) :
    Faultless tolerated (fifoRead start len) s fun _ after => after = s := by
  induction len generalizing start with
  | zero => exact faultless_pure.mpr rfl
  | succ len induction =>
    have here : Inside start := ⟨by omega, by omega⟩
    have rest : Faultless tolerated (fifoRead (start + 1) len) s fun _ after => after = s :=
      induction (by omega)
    rw [fifoRead, faultless_bind, faultless_fifoGet here]
    exact rest.bind fun _ _ same => faultless_pure.mpr same

/-- The sector data in the buffer is all that differs. -/
def SameButFifo (s t : FDCtrl) : Prop := ∃ fifo, t = { s with fifo := fifo }

theorem fifoWrite_faultless {start : Nat} {bytes : List (BitVec 8)}
    (inside : start + bytes.length ≤ sectorLen) :
    Faultless tolerated (fifoWrite start bytes) s fun _ => SameButFifo s := by
  induction bytes generalizing start s with
  | nil => exact faultless_pure.mpr ⟨s.fifo, rfl⟩
  | cons byte rest induction =>
    rw [length_cons] at inside
    have here : Inside start := ⟨by omega, by omega⟩
    rw [fifoWrite, faultless_bind, faultless_fifoSet here]
    refine (induction (s := fifoPut start byte s) (by omega)).mono ?_
    rintro ⟨⟩ after ⟨fifo, rfl⟩
    exact ⟨fifo, rfl⟩

/-! ## Drives and sectors -/

@[simp] theorem faultless_seekToNextSect {post : Bool → FDCtrl → Prop} :
    Faultless tolerated (seekToNextSect drive) s post ↔
      post (seekNext s.eot s.dataState (s.drives drive)).1
        (updateDrive drive (fun _ => (seekNext s.eot s.dataState (s.drives drive)).2) s) :=
  faultless_of_run rfl

theorem readSector_faultless :
    Faultless tolerated (readSector env drive) s fun _ => SameButFifo s := by
  rw [readSector, faultless_bind, faultless_get]
  refine ite (fun _ => ?_) fun _ => faultless_abort
  split
  · next sector _ => exact faultless_modify.mpr ⟨sector, rfl⟩
  · exact faultless_modify.mpr ⟨fun _ => 0, rfl⟩

theorem writeSector_faultless :
    Faultless tolerated (writeSector env drive) s fun _ after => after = s := by
  rw [writeSector, faultless_bind, faultless_get]
  exact ite (fun _ => faultless_pure.mpr rfl) fun _ => faultless_abort

theorem stopTransfer_faultless {status0 status1 status2 : BitVec 8} (noFormat : NoFormat s) :
    Settles tolerated (stopTransfer status0 status1 status2) s := by
  simp (disch := decide) only [stopTransfer, faultless_bind, faultless_get, faultless_fifoSet,
    faultless_modify]
  exact setFifo_orderly noFormat (by simp) (by decide)

theorem stopAt_faultless {status1 kt kh ks : BitVec 8} (noFormat : NoFormat s) :
    Settles tolerated (stopAt status1 kt kh ks) s := by
  refine (stopTransfer_faultless noFormat).bind ?_
  intro _ after orderly
  simpa (disch := decide) only [faultless_bind, faultless_fifoSet, fifoPut_orderly] using orderly

/-! ## Commands -/

/-- The last byte of a command has been stored. -/
structure Complete (s : FDCtrl) : Prop where
  noFormat : NoFormat s
  nonDma : has s.msr msrNonDma = false
  dio : has s.msr msrDio = false
  positive : 0 < s.dataPos.toNat
  full : s.dataPos = s.dataLen
  short : s.dataLen.toNat ≤ 18

theorem Complete.orderly (complete : Complete s) : Orderly s where
  noFormat := complete.noFormat
  result := by
    intro _ given
    rw [complete.dio] at given
    cases given
  command := fun _ _ _ => .inr ⟨by rw [complete.full], complete.short⟩

/-- The commands that have no result and raise no interrupt, or that raise it after the reset of the
buffer. -/
theorem resetFifo_raiseIrq_orderly {dataState : BitVec 8}
    (noFormat : has dataState stateFormat = false) (same : s.dataState = dataState) :
    Orderly (raiseIrq status0 (resetFifo s)) :=
  raiseIrq_orderly resetFifo_idle (resetFifo_orderly noFormat same)

theorem launch_orderly (noFormat : NoFormat s) (dio : has s.msr msrDio = false) :
    Orderly (launch env direction s) := by
  have here : has msrNonDma msrNonDma = true := by decide
  by_cases waits : has s.dor dorDmaEn = true ∧ DmaFits env.dmaMode direction
  · rw [launch, if_pos waits]
    refine ⟨noFormat, fun _ given => ?_, fun _ ready => ?_⟩
    · rw [has_clear_of_disjoint (by decide), dio] at given
      cases given
    · rw [has_clear_of_le (by decide)] at ready
      cases ready
  · rw [launch, if_neg waits]
    refine orderly_of_nonDma (raiseIrq_noFormat noFormat) ?_
    rw [raiseIrq_nonDma]
    simp [here]

theorem transferState_noFormat {command dataState : BitVec 8} {didSeek : Bool} :
    has (transferState command didSeek dataState) stateFormat = has dataState stateFormat := by
  have multi : has stateMulti stateFormat = false := by decide
  have seek : has stateSeek stateFormat = false := by decide
  simp only [transferState]
  split_ifs <;> simp (disch := decide) only [has_or, has_clear_of_disjoint, multi, seek,
    Bool.or_false]

section

variable (complete : Complete s)

include complete

theorem startTransfer_faultless : Settles tolerated (startTransfer env direction) s := by
  simp (disch := decide) only [startTransfer, faultless_bind, faultless_get, faultless_fifoGet,
    faultless_modify]
  refine ite (fun _ => ?_) fun _ => ?_
  · exact stopAt_faultless complete.noFormat
  refine ite (fun _ => ?_) fun _ => ?_
  · exact stopAt_faultless complete.noFormat
  simp (disch := decide) only [faultless_bind, faultless_fifoGet]
  have noFormat : ∀ command didSeek, has (transferState command didSeek s.dataState) stateFormat =
      false := fun command didSeek => transferState_noFormat.trans complete.noFormat
  have dio : has (s.msr ||| msrCmdBusy) msrDio = false := by
    rw [has_or, complete.dio]
    decide
  refine ite (fun _ => ?_) fun _ => ?_
  · simp (disch := decide) only [faultless_bind, faultless_fifoGet, faultless_modify]
    exact launch_orderly (noFormat _ _) dio
  · simp only [faultless_bind, faultless_pure, faultless_modify]
    exact launch_orderly (noFormat _ _) dio

theorem startTransferDel_faultless : Settles tolerated (startTransferDel direction) s :=
  stopTransfer_faultless complete.noFormat

/-- The commands whose answer is stored before the result phase. -/
theorem answering_faultless : ∀ handler ∈ [unimplemented, handleLock, handleVersion, handlePartid,
    handleSenseDriveStatus, handlePowerdownMode], Settles tolerated (handler direction) s := by
  simp only [forall_mem_cons, not_mem_nil, false_imp_iff, implies_true, and_true]
  refine ⟨?_, ?_, ?_, ?_, ?_, ?_⟩
  all_goals
    simp (disch := decide) only [unimplemented, handleLock, handleVersion, handlePartid,
      handleSenseDriveStatus, handlePowerdownMode, faultless_bind, faultless_get,
      faultless_fifoGet, faultless_fifoSet, faultless_modify]
    exact setFifo_orderly complete.noFormat (by simp) (by decide)

/-- The commands without a result. -/
theorem silent_faultless : ∀ handler ∈ [handleRestore, handleSpecify, handlePerpendicularMode,
    handleConfigure, handleOption], Settles tolerated (handler direction) s := by
  simp only [forall_mem_cons, not_mem_nil, false_imp_iff, implies_true, and_true]
  refine ⟨?_, ?_, ?_, ?_, ?_⟩
  all_goals
    simp (disch := decide) only [handleRestore, handleSpecify, handlePerpendicularMode,
      handleConfigure, handleOption, faultless_bind, faultless_get, faultless_fifoGet,
      faultless_modify]
    exact resetFifo_orderly complete.noFormat (by simp)

/-- The commands that end with an interrupt. -/
theorem interrupting_faultless : ∀ handler ∈ [handleRecalibrate, handleRelativeSeekOut,
    handleRelativeSeekIn], Settles tolerated (handler direction) s := by
  simp only [forall_mem_cons, not_mem_nil, false_imp_iff, implies_true, and_true]
  refine ⟨?_, ?_, ?_⟩
  all_goals
    simp (disch := decide) only [handleRecalibrate, handleRelativeSeekOut, handleRelativeSeekIn,
      faultless_bind, faultless_get, faultless_fifoGet, faultless_modify]
    exact resetFifo_raiseIrq_orderly complete.noFormat (by simp)

/-- The commands that give a copy of the registers. -/
theorem dumping_faultless : ∀ handler ∈ [handleDumpreg, handleSave],
    Settles tolerated (handler direction) s := by
  simp only [forall_mem_cons, not_mem_nil, false_imp_iff, implies_true, and_true]
  constructor
  all_goals
    simp only [handleDumpreg, handleSave]
    rw [Settles, faultless_bind, faultless_get]
    refine bind (fifoWrite_faultless (by simp [sectorLen])) ?_
    rintro ⟨⟩ after ⟨fifo, rfl⟩
    rw [faultless_modify]
    exact setFifo_orderly complete.noFormat (by simp) (by decide)

/-- READ ID leaves the command in the buffer: position and length stay as they are. -/
theorem handleReadid_faultless : Settles tolerated (handleReadid direction) s := by
  simp (disch := decide) only [handleReadid, faultless_bind, faultless_get, faultless_fifoGet,
    faultless_modify]
  exact complete.orderly

end

theorem handleFormatTrack_faultless : Settles tolerated (handleFormatTrack direction) s := by
  simp (disch := decide) only [handleFormatTrack, faultless_bind, faultless_get,
    faultless_fifoGet, faultless_modify]
  exact stopTransfer_faultless (has_clear_of_le (by decide))

section

variable (complete : Complete s)

include complete

theorem handleSenseInterruptStatus_faultless :
    Settles tolerated (handleSenseInterruptStatus direction) s := by
  simp only [handleSenseInterruptStatus, faultless_bind, faultless_get]
  refine ite (fun _ => ?_) fun _ => ?_
  all_goals
    simp (disch := decide) only [faultless_bind, faultless_fifoSet, faultless_modify]
    exact resetIrq_orderly (setFifo_orderly complete.noFormat (by simp) (by decide))

theorem handleSeek_faultless : Settles tolerated (handleSeek direction) s := by
  simp (disch := decide) only [handleSeek, faultless_bind, faultless_get, faultless_fifoGet,
    faultless_modify]
  refine ite (fun _ => ?_) fun _ => ?_
  · rw [faultless_modify]
    exact resetFifo_raiseIrq_orderly complete.noFormat (by simp)
  · simp only [faultless_bind, faultless_modify]
    have idle : has (resetFifo (setCurDrv (s.fifo (slot 1)) s)).msr msrCmdBusy = false :=
      resetFifo_idle
    have orderly : Orderly (resetFifo (setCurDrv (s.fifo (slot 1)) s)) :=
      resetFifo_orderly complete.noFormat (by simp)
    exact raiseIrq_orderly (by simpa using idle) (by simpa using orderly)

theorem Complete.last_inside : Inside (s.dataPos - 1).toNat := by
  have positive := complete.positive
  have short : s.dataPos.toNat ≤ 18 := complete.full ▸ complete.short
  have previous : (s.dataPos - 1).toNat = s.dataPos.toNat - 1 :=
    toNat_sub_of_le (le_def.mpr positive)
  exact ⟨by omega, by simp only [sectorLen]; omega⟩

theorem handleDriveSpecificationCommand_faultless :
    Settles tolerated (handleDriveSpecificationCommand direction) s := by
  rw [Settles, handleDriveSpecificationCommand, faultless_bind, faultless_get, faultless_bind,
    faultless_fifoGet complete.last_inside]
  refine ite (fun _ => ?_) fun _ => ?_
  · refine ite (fun _ => ?_) fun _ => ?_
    · simp (disch := decide) only [faultless_bind, faultless_fifoGet, faultless_fifoSet,
        faultless_modify]
      exact setFifo_orderly complete.noFormat (by simp) (by decide)
    · rw [faultless_modify]
      exact resetFifo_orderly complete.noFormat (by simp)
  · refine ite (fun _ => ?_) fun _ => faultless_pure.mpr complete.orderly
    simp (disch := decide) only [faultless_bind, faultless_fifoSet, faultless_modify]
    exact setFifo_orderly complete.noFormat (by simp) (by decide)

end

theorem handlers_parameters : ∀ entry ∈ handlers env, entry.parameters ≤ 17 := by
  simp [handlers]

theorem handlers_faultless : ∀ entry ∈ handlers env, ∀ s, Complete s →
    Settles tolerated (entry.handler entry.direction) s := by
  simp only [handlers, forall_mem_cons, not_mem_nil, false_imp_iff, implies_true, and_true]
  exact ⟨fun _ => startTransfer_faultless, fun _ => startTransfer_faultless,
    fun _ => handleSeek_faultless, fun _ => handleSenseInterruptStatus_faultless,
    fun _ c => interrupting_faultless c _ (by simp), fun _ _ => handleFormatTrack_faultless,
    fun _ => startTransfer_faultless, fun _ c => silent_faultless c _ (by simp),
    fun _ c => dumping_faultless c _ (by simp), fun _ => startTransferDel_faultless,
    fun _ => startTransfer_faultless, fun _ c => answering_faultless c _ (by simp),
    fun _ => startTransfer_faultless, fun _ => startTransfer_faultless,
    fun _ => startTransferDel_faultless, fun _ => handleReadid_faultless,
    fun _ c => silent_faultless c _ (by simp), fun _ c => answering_faultless c _ (by simp),
    fun _ c => silent_faultless c _ (by simp), fun _ c => silent_faultless c _ (by simp),
    fun _ c => answering_faultless c _ (by simp), fun _ c => silent_faultless c _ (by simp),
    fun _ => handleDriveSpecificationCommand_faultless,
    fun _ c => interrupting_faultless c _ (by simp), fun _ c => answering_faultless c _ (by simp),
    fun _ c => interrupting_faultless c _ (by simp), fun _ c => answering_faultless c _ (by simp),
    fun _ c => dumping_faultless c _ (by simp), fun _ c => answering_faultless c _ (by simp),
    fun _ c => answering_faultless c _ (by simp), fun _ => startTransfer_faultless⟩

theorem commandToHandler_parameters (value : BitVec 8) :
    (commandToHandler env value).parameters ≤ 17 := by
  unfold commandToHandler
  cases found : (handlers env).find? fun entry => value &&& entry.mask = entry.value with
  | none => exact Nat.zero_le 17
  | some entry => exact handlers_parameters entry (mem_of_find?_eq_some found)

theorem commandToHandler_faultless (value : BitVec 8) (complete : Complete s) :
    Settles tolerated
      ((commandToHandler env value).handler (commandToHandler env value).direction) s := by
  unfold commandToHandler
  cases found : (handlers env).find? fun entry => value &&& entry.mask = entry.value with
  | none => exact answering_faultless complete _ mem_cons_self
  | some entry => exact handlers_faultless entry (mem_of_find?_eq_some found) s complete

/-! ## The data register -/

theorem sectorPos_lt (dataPos : BitVec 32) : sectorPos dataPos < sectorLen :=
  Int.tmod_lt_of_pos _ (by decide)

theorem sectorPos_nonneg {dataPos : BitVec 32} (low : dataPos.toNat < 2 ^ 31) :
    0 ≤ sectorPos dataPos := by
  have sign : 0 ≤ dataPos.toInt := by
    rw [toInt_eq_toNat_cond]
    split <;> omega
  exact Int.tmod_nonneg _ sign

/-- The faults that are left when the guest keeps to the command protocol. -/
def Backwards (s : FDCtrl) (fault : Fault) : Prop :=
  fault.index < 0 ∧ has s.msr msrNonDma = true ∧ 2 ^ 31 ≤ s.dataPos.toNat

/-- An index of sector data that is outside the buffer lies before it. -/
theorem backwards_of_outside (nonDma : has s.msr msrNonDma = true)
    (outside : ¬ Inside (sectorPos s.dataPos)) : Backwards s ⟨sectorPos s.dataPos⟩ := by
  have negative : sectorPos s.dataPos < 0 := by
    by_contra nonneg
    exact outside ⟨by omega, sectorPos_lt s.dataPos⟩
  have high : 2 ^ 31 ≤ s.dataPos.toNat := by
    by_contra low
    have nonneg : 0 ≤ sectorPos s.dataPos := sectorPos_nonneg (by omega)
    omega
  exact ⟨negative, nonDma, high⟩

/-- An access whose index may be outside only where that is tolerated. -/
theorem access_faultless {α : Type} {access : FdcProg α} {result : α} {after : FDCtrl}
    {post : α → FDCtrl → Prop}
    (run : access s = if Inside index then (.ok result, after) else (.error ⟨index⟩, s))
    (inside : Inside index → post result after) (outside : ¬ Inside index → tolerated ⟨index⟩) :
    Faultless tolerated access s post := by
  by_cases here : Inside index
  · exact (faultless_of_run (run.trans (if_pos here))).mpr (inside here)
  · exact (faultless_of_failure (run.trans (if_neg here))).mpr (outside here)

/-- Sector data goes through the data register. -/
structure Streaming (s : FDCtrl) : Prop where
  noFormat : NoFormat s
  nonDma : has s.msr msrNonDma = true

section

variable (streaming : Streaming s)

include streaming

theorem Streaming.orderly : Orderly s := orderly_of_nonDma streaming.noFormat streaming.nonDma

theorem Streaming.seek :
    Faultless tolerated (seekToNextSect drive) s fun _ after => Streaming after :=
  faultless_seekToNextSect.mpr ⟨streaming.noFormat, streaming.nonDma⟩

theorem Streaming.flushSector {pos : Int} :
    Faultless tolerated (flushSector env pos) s fun _ after => Streaming after := by
  rw [Fdc.flushSector, faultless_bind, faultless_get]
  refine ite (fun _ => ?_) fun _ => faultless_pure.mpr streaming
  refine writeSector_faultless.bind ?_
  rintro written after rfl
  exact ite (fun _ => streaming.seek) fun _ => faultless_pure.mpr streaming

theorem writeSectorByte_faultless : Settles (Backwards s) (writeSectorByte env value) s := by
  rw [Settles, writeSectorByte, faultless_bind, faultless_get, faultless_bind, faultless_modify,
    faultless_bind]
  refine access_faultless rfl (fun _ => ?_) fun outside => ?_
  · have going : Streaming (fifoPut (sectorPos s.dataPos) value (advance s)) :=
      ⟨streaming.noFormat, streaming.nonDma⟩
    refine going.flushSector.bind fun goOn after streaming => ?_
    rw [faultless_bind, faultless_get]
    refine ite (fun _ => stopTransfer_faultless streaming.noFormat) fun _ => ?_
    exact faultless_pure.mpr streaming.orderly
  · exact backwards_of_outside streaming.nonDma outside

theorem Streaming.refill : Faultless tolerated (refill env) s fun _ after => Streaming after := by
  rw [Fdc.refill, faultless_bind, faultless_get]
  refine ite (fun _ => ?_) fun _ => faultless_pure.mpr streaming
  have sought : Faultless tolerated seekUnlessFirst s fun _ after => Streaming after := by
    rw [seekUnlessFirst, faultless_bind, faultless_get]
    exact ite (fun _ => streaming.seek) fun _ => faultless_pure.mpr streaming
  refine sought.bind fun found after streaming => ?_
  refine ite (fun _ => ?_) fun _ => faultless_pure.mpr streaming
  refine readSector_faultless.bind ?_
  rintro ⟨⟩ after ⟨fifo, rfl⟩
  exact faultless_pure.mpr ⟨streaming.noFormat, streaming.nonDma⟩

theorem readSectorByte_faultless {start : FDCtrl} (nonDma : has start.msr msrNonDma = true) :
    Settles (Backwards start) (readByte (sectorPos start.dataPos)) s := by
  rw [Settles, readByte, faultless_bind]
  refine access_faultless rfl (fun _ => ?_) (backwards_of_outside nonDma)
  rw [faultless_bind, faultless_modify, faultless_bind]
  have going : Streaming (advance s) := ⟨streaming.noFormat, streaming.nonDma⟩
  have finished : Settles (Backwards start) finishRead (advance s) := by
    rw [Settles, finishRead, faultless_bind, faultless_get]
    refine ite (fun _ => ?_) fun _ => faultless_pure.mpr going.orderly
    rw [faultless_bind, faultless_modify, if_pos going.nonDma]
    exact stopTransfer_faultless going.noFormat
  exact finished.mono fun _ _ orderly => faultless_pure.mpr orderly

end

/-- A byte of a result: the last one takes the controller back to the command phase. -/
theorem readResultByte_faultless (orderly : Orderly s) (nonDma : has s.msr msrNonDma = false)
    (accepts : AcceptsRead s) : Settles tolerated (readByte s.dataPos.toInt) s := by
  obtain ⟨before, short⟩ := orderly.result nonDma accepts.2
  have position : s.dataPos.toInt = s.dataPos.toNat := by
    rw [toInt_eq_toNat_cond, if_pos (by omega)]
  have inside : Inside s.dataPos.toInt := by
    unfold Inside sectorLen
    omega
  have next : (advance s).dataPos.toNat = s.dataPos.toNat + 1 := by
    exact toNat_add_of_lt (by simp; omega)
  rw [Settles, readByte, faultless_bind, faultless_fifoGet inside, faultless_bind, faultless_modify,
    faultless_bind]
  have finished : Settles tolerated finishRead (advance s) := by
    rw [Settles, finishRead, faultless_bind, faultless_get]
    refine ite (fun _ => ?_) fun more => faultless_pure.mpr ?_
    · have still : ¬ has (advance s).msr msrNonDma = true := by
        rw [show (advance s).msr = s.msr from rfl, nonDma]
        decide
      rw [faultless_bind, faultless_modify, if_neg still, faultless_modify]
      exact resetIrq_orderly (resetFifo_orderly orderly.noFormat rfl)
    · have different : (advance s).dataPos.toNat ≠ s.dataLen.toNat := fun same =>
      more (eq_of_toNat_eq same)
      have less : (advance s).dataPos.toNat < s.dataLen.toNat := by omega
      refine ⟨orderly.noFormat, fun _ _ => ⟨less, short⟩, fun _ _ taken => ?_⟩
      exact nomatch accepts.2.symm.trans taken
  exact finished.mono fun _ _ done => faultless_pure.mpr done

theorem readData_faultless (orderly : Orderly s) : Settles (Backwards s) (readData env) s := by
  rw [Settles, readData, faultless_bind, faultless_modify, faultless_bind, faultless_get]
  refine ite (fun accepts => ?_) fun _ => faultless_pure.mpr orderly
  refine ite (fun nonDma => ?_) fun nonDma => ?_
  · have streaming : Streaming (wake s) :=
      ⟨orderly.noFormat, nonDma⟩
    refine streaming.refill.bind fun filled after going => ?_
    refine ite (fun _ => ?_) fun _ => faultless_pure.mpr going.orderly
    exact readSectorByte_faultless going nonDma
  · exact readResultByte_faultless (s := wake s) orderly
      (Bool.eq_false_iff.mpr nonDma) accepts

/-- No byte is given to the data register after the last byte of a command that is still in the
buffer. -/
def CommandOpen (s : FDCtrl) : Prop :=
  AcceptsWrite s → has s.msr msrNonDma = false → s.dataPos ≠ 0 → s.dataPos ≠ s.dataLen

theorem expect_open (orderly : Orderly s) (accepts : AcceptsWrite s)
    (nonDma : has s.msr msrNonDma = false) (isOpen : CommandOpen s) :
    (expect env value s).dataPos.toNat < (expect env value s).dataLen.toNat ∧
      (expect env value s).dataLen.toNat ≤ 18 := by
  by_cases first : s.dataPos = 0
  · have parameters : (commandToHandler env value).parameters ≤ 17 :=
      commandToHandler_parameters value
    rw [expect, if_pos first]
    rw [first, toNat_ofNat, Nat.mod_eq_of_lt (by omega)]
    exact ⟨Nat.succ_pos _, by omega⟩
  · rw [expect, if_neg first]
    have bounds := (orderly.command nonDma accepts.2.1 accepts.2.2).resolve_left first
    have different : s.dataPos.toNat ≠ s.dataLen.toNat := fun same =>
      isOpen accepts nonDma first (eq_of_toNat_eq same)
    omega

theorem expect_phase :
    (expect env value s).msr = s.msr ∧ (expect env value s).dataState = s.dataState := by
  unfold expect
  split <;> exact ⟨rfl, rfl⟩

/-- A byte of a command: after the last one the command runs. -/
theorem writeCommandByte_faultless (orderly : Orderly s) (accepts : AcceptsWrite s)
    (nonDma : has s.msr msrNonDma = false) (isOpen : CommandOpen s) :
    Settles tolerated (writeCommandByte env value) s := by
  obtain ⟨before, short⟩ := @expect_open env s value orderly accepts nonDma isOpen
  obtain ⟨msr, dataState⟩ := @expect_phase env s value
  rw [Settles, writeCommandByte, faultless_bind, faultless_modify]
  generalize expect env value s = t at before short msr dataState ⊢
  have inside : Inside t.dataPos.toNat := by
    unfold Inside sectorLen
    omega
  rw [faultless_bind, faultless_get, faultless_bind, faultless_fifoSet inside, faultless_bind,
    faultless_modify, runCommand, faultless_bind, faultless_get]
  have next : (t.dataPos + 1).toNat = t.dataPos.toNat + 1 := toNat_add_of_lt (by simp; omega)
  have noFormat : has t.dataState stateFormat = false := dataState ▸ orderly.noFormat
  refine ite (fun full => ?_) fun more => faultless_pure.mpr ?_
  · have complete : Complete (advance (fifoPut t.dataPos.toNat value t)) := by
      refine ⟨noFormat, ?_, ?_, ?_, full, short⟩
      · exact msr ▸ nonDma
      · exact msr ▸ accepts.2.2
      · show 0 < (t.dataPos + 1).toNat
        omega
    have plain :
        ¬ has (advance (fifoPut t.dataPos.toNat value t)).dataState stateFormat = true := by
      rw [complete.noFormat]
      decide
    rw [if_neg plain]
    simp (disch := decide) only [faultless_bind, faultless_fifoGet]
    exact commandToHandler_faultless _ complete
  · have less : (t.dataPos + 1).toNat ≤ t.dataLen.toNat := by omega
    refine ⟨noFormat, fun _ given => ?_, fun _ _ _ => .inr ⟨less, short⟩⟩
    have taken : has t.msr msrDio = false := msr ▸ accepts.2.2
    cases taken.symm.trans given

theorem writeData_faultless (orderly : Orderly s) (isOpen : CommandOpen s) :
    Settles (Backwards s) (writeData env value) s := by
  rw [Settles, writeData, faultless_bind, faultless_get]
  refine ite (fun accepts => ?_) fun _ => faultless_pure.mpr orderly
  rw [faultless_bind, faultless_modify]
  refine ite (fun nonDma => ?_) fun nonDma => ?_
  · exact writeSectorByte_faultless (s := wake s)
      ⟨orderly.noFormat, nonDma⟩
  · exact writeCommandByte_faultless (s := wake s) orderly
      accepts (Bool.eq_false_iff.mpr nonDma) isOpen

/-! ## DMA transfers -/

/-- How a part of the transfer loop may end. -/
def LoopPost (label : LoopEnd) (after : FDCtrl) : Prop :=
  match label with
  | .endTransfer => NoFormat after
  | .transferError => Orderly after

theorem transferChunk_faultless {relPos len : Nat} (noFormat : NoFormat s)
    (inside : relPos + len ≤ sectorLen) :
    Faultless tolerated (transferChunk env drive relPos len) s fun left after =>
      match left with
      | none => SameButFifo s after
      | some label => LoopPost label after := by
  have whole : ∀ bytes : List (BitVec 8), bytes.length = len →
      relPos + bytes.length ≤ sectorLen := fun bytes length => length ▸ inside
  simp only [transferChunk, faultless_bind, faultless_get]
  split
  · refine (fifoRead_faultless inside).bind ?_
    rintro bytes after rfl
    exact faultless_pure.mpr ⟨after.fifo, rfl⟩
  · refine (fifoWrite_faultless (whole _ (by simp))).bind ?_
    rintro ⟨⟩ after ⟨fifo, rfl⟩
    refine writeSector_faultless.bind ?_
    rintro written after rfl
    refine ite (fun _ => faultless_pure.mpr ⟨fifo, rfl⟩) fun _ => ?_
    refine (stopTransfer_faultless (s := { s with fifo := fifo }) noFormat).bind ?_
    intro _ after orderly
    exact faultless_pure.mpr orderly
  · refine (fifoRead_faultless inside).bind ?_
    rintro bytes after rfl
    refine ite (fun _ => faultless_pure.mpr noFormat) fun _ => ?_
    exact faultless_pure.mpr ⟨after.fifo, rfl⟩

theorem preload_faultless {relPos len : Nat} :
    Faultless tolerated (preload env drive relPos len) s fun _ => SameButFifo s := by
  rw [preload, faultless_bind, faultless_get]
  refine ite (fun _ => readSector_faultless) fun _ => ?_
  exact faultless_pure.mpr ⟨s.fifo, rfl⟩

theorem advanceChunk_faultless {len : Nat} (noFormat : NoFormat s)
    (fits : s.dataPos.toNat + len < 2 ^ 32) :
    Faultless tolerated (advanceChunk drive len) s fun _ after =>
      NoFormat after ∧ after.dataPos.toNat = s.dataPos.toNat + len := by
  have next : (s.dataPos + BitVec.ofNat 32 len).toNat = s.dataPos.toNat + len := by
    rw [toNat_add, toNat_ofNat, Nat.mod_eq_of_lt (b := 2 ^ 32) (a := len) (by omega)]
    exact Nat.mod_eq_of_lt fits
  rw [advanceChunk, faultless_bind, faultless_modify, faultless_bind, faultless_get]
  refine ite (fun _ => ?_) fun _ => ?_
  · exact faultless_seekToNextSect.mpr ⟨noFormat, next⟩
  · exact faultless_pure.mpr ⟨noFormat, next⟩

/-- A round moves at least one byte, within the buffer and within the transfer. -/
theorem transferRound_faultless {dmaLen : Nat} (noFormat : NoFormat s) (fits : dmaLen < 2 ^ 32)
    (more : s.dataPos.toNat < dmaLen) :
    Faultless tolerated (transferRound env drive dmaLen) s fun left after =>
      match left with
      | none => NoFormat after ∧ s.dataPos.toNat < after.dataPos.toNat
      | some label => LoopPost label after := by
  simp only [transferRound, faultless_bind, faultless_get]
  have room : s.dataPos.toNat % sectorLen < sectorLen := Nat.mod_lt _ (by decide)
  generalize s.dataPos.toNat % sectorLen = relPos at room
  have positive : 0 < min (dmaLen - s.dataPos.toNat) (sectorLen - relPos) := by omega
  have inside : relPos + min (dmaLen - s.dataPos.toNat) (sectorLen - relPos) ≤ sectorLen := by
    omega
  have within : s.dataPos.toNat + min (dmaLen - s.dataPos.toNat) (sectorLen - relPos) < 2 ^ 32 := by
    omega
  refine preload_faultless.mono ?_
  rintro ⟨⟩ after ⟨fifo, rfl⟩
  refine (transferChunk_faultless (s := { s with fifo := fifo }) noFormat inside).mono ?_
  intro left after ended
  cases left with
  | some label => exact faultless_pure.mpr ended
  | none =>
    obtain ⟨sector, rfl⟩ := ended
    simp only [faultless_bind]
    refine (advanceChunk_faultless (s := { s with fifo := sector }) noFormat within).mono ?_
    rintro goOn after ⟨clear, position⟩
    rw [faultless_pure]
    cases goOn with
    | false => exact clear
    | true =>
      refine ⟨clear, ?_⟩
      rw [position]
      exact Nat.lt_add_of_pos_right positive

theorem transferLoop_faultless {dmaLen rounds : Nat} (noFormat : NoFormat s)
    (fits : dmaLen < 2 ^ 32) (enough : dmaLen ≤ s.dataPos.toNat + rounds) :
    Faultless tolerated (transferLoop env drive dmaLen rounds) s LoopPost := by
  induction rounds generalizing s with
  | zero =>
    rw [transferLoop, faultless_bind, faultless_get, if_neg (by omega)]
    exact faultless_pure.mpr noFormat
  | succ rounds induction =>
    rw [transferLoop, faultless_bind, faultless_get]
    refine ite (fun more => ?_) fun _ => faultless_pure.mpr noFormat
    refine (transferRound_faultless noFormat fits more).bind ?_
    intro left after ended
    cases left with
    | some label => exact faultless_pure.mpr ended
    | none => exact induction ended.1 (by omega)

theorem transferHandler_faultless {dmaLen : Nat} (orderly : Orderly s) :
    Settles tolerated (transferHandler env dmaLen) s := by
  simp only [transferHandler, faultless_bind, faultless_get]
  have fits : min dmaLen s.dataLen.toNat < 2 ^ 32 := by
    omega
  refine ite (fun _ => faultless_pure.mpr orderly) fun _ => ?_
  refine ite (fun _ => ?_) fun _ => ?_
  · exact ite (fun _ => stopTransfer_faultless orderly.noFormat)
      fun _ => stopTransfer_faultless orderly.noFormat
  · refine (transferLoop_faultless orderly.noFormat fits (Nat.le_add_left _ _)).bind ?_
    intro label after ended
    cases label with
    | transferError => exact faultless_pure.mpr ended
    | endTransfer =>
      simp only [faultless_bind, faultless_get, faultless_modify]
      exact stopTransfer_faultless ended

/-! ## The other registers -/

theorem softReset_orderly : Orderly (softReset s) := by
  have fresh : Orderly (reset true { s with dor := s.dor &&& ~~~ dorNReset }) :=
    reset_orderly true _
  exact fresh

theorem observe_faultless {look : FDCtrl → BitVec 32 × FDCtrl} (orderly : Orderly (look s).2) :
    Settles tolerated (observe look) s := by
  have run : observe look s = (.ok (look s).1, (look s).2) := rfl
  exact (faultless_of_run run).mpr orderly

section

variable (orderly : Orderly s)

include orderly

theorem leaveReset_orderly : Orderly (leaveReset value s) := by
  unfold leaveReset
  split
  · exact wake_orderly.mpr (reset_orderly true s)
  · exact orderly

theorem writeDor_orderly : Orderly (writeDor value s) := by
  have fresh : Orderly (leaveReset value (setLines value s)) := leaveReset_orderly orderly
  exact fresh

theorem writeTape_orderly : Orderly (writeTape value s) := by
  unfold writeTape
  split <;> exact orderly

theorem writeRate_orderly : Orderly (writeRate value s) := by
  have first : Orderly (if has value dsrSwReset then softReset s else s) := by
    split
    · exact softReset_orderly
    · exact orderly
  unfold writeRate
  split
  · generalize (if has value dsrSwReset then softReset s else s) = t at first ⊢
    have second : Orderly (if has value dsrPwrDown then reset true t else t) := by
      split
      · exact reset_orderly true t
      · exact first
    exact second
  · exact orderly

theorem readMainStatus_orderly : Orderly (readMainStatus s).2 := by
  simp only [readMainStatus]
  split
  · exact resetIrq_orderly orderly
  · exact orderly

theorem mediaChanged_orderly : Orderly (mediaChanged env drive s).2 := by
  unfold mediaChanged
  split <;> exact orderly

theorem readDir_orderly : Orderly (readDir env s).2 := by
  simp only [readDir]
  split
  · exact mediaChanged_orderly orderly
  · exact mediaChanged_orderly (mediaChanged_orderly orderly)

theorem read_faultless {reg : BitVec 32} :
    Settles (fun fault => reg = 0x05 ∧ Backwards s fault) (read env reg) s := by
  iterate 4 refine ite (fun _ => observe_faultless orderly) fun _ => ?_
  refine ite (fun _ => observe_faultless (readMainStatus_orderly orderly)) fun _ => ?_
  refine ite (fun data => ?_) fun _ => ?_
  · exact (readData_faultless orderly).tolerate fun _ back => ⟨data, back⟩
  refine ite (fun _ => observe_faultless (readDir_orderly orderly)) fun _ => ?_
  exact observe_faultless orderly

theorem write_faultless {reg value : BitVec 32} (isOpen : reg = 0x05 → CommandOpen s) :
    Settles (fun fault => reg = 0x05 ∧ Backwards s fault) (write env reg value) s := by
  refine ite (fun _ => faultless_modify.mpr (writeDor_orderly orderly)) fun _ => ?_
  refine ite (fun _ => faultless_modify.mpr (writeTape_orderly orderly)) fun _ => ?_
  refine ite (fun _ => faultless_modify.mpr (writeRate_orderly orderly)) fun _ => ?_
  refine ite (fun data => ?_) fun _ => faultless_pure.mpr orderly
  exact (writeData_faultless orderly (isOpen data)).tolerate fun _ back => ⟨data, back⟩

theorem runResultTimer_faultless : Settles tolerated runResultTimer s := by
  rw [Settles, runResultTimer, faultless_bind, faultless_modify, faultless_bind, faultless_get,
    faultless_bind, faultless_modify]
  exact stopTransfer_faultless orderly.noFormat

end

/-! ## Runs -/

/-- The guest gives no byte to a command that is complete. -/
def KeepsProtocol : Op → FDCtrl → Prop
  | .write reg _, s => reg = 0x05 → CommandOpen s
  | _, _ => True

/-- Sector data is moved below position `2 ^ 31`, where `data_pos` is not negative as an `int`. -/
def StaysLow : Op → FDCtrl → Prop
  | .read reg, s | .write reg _, s =>
    reg = 0x05 → has s.msr msrNonDma = true → s.dataPos.toNat < 2 ^ 31
  | _, _ => True

/-- A reset and any number of steps that all meet a condition. -/
inductive Run (meets : Op → FDCtrl → Prop) : FDCtrl → Prop
  | start (s : FDCtrl) : Run meets (reset false s)
  | next {s after : FDCtrl} (env : Env) (op : Op) (run : Run meets s) (met : meets op s)
      (ended : step env op s = (.ok (), after)) : Run meets after

/-- The faults that are left when the guest keeps to the protocol. -/
def Strays (op : Op) (s : FDCtrl) (fault : Fault) : Prop := fault.index < 0 ∧ ¬ StaysLow op s

theorem step_faultless {op : Op} (orderly : Orderly s) (keeps : KeepsProtocol op s) :
    Settles (Strays op s) (step env op) s := by
  have strays {reg : BitVec 32} {fault : Fault} (back : reg = 0x05 ∧ Backwards s fault) :
      fault.index < 0 ∧
        ¬ (reg = 0x05 → has s.msr msrNonDma = true → s.dataPos.toNat < 2 ^ 31) :=
    ⟨back.2.1, fun low => not_lt.mpr back.2.2.2 (low back.1 back.2.2.1)⟩
  cases op with
  | read reg =>
    refine ((read_faultless orderly).tolerate fun _ => strays).bind fun _ after done => ?_
    exact faultless_pure.mpr done
  | write reg value => exact (write_faultless orderly keeps).tolerate fun _ => strays
  | dma count ncont => exact transferHandler_faultless orderly
  | timer =>
    rw [Settles, step, faultless_bind, faultless_get]
    exact ite (fun _ => runResultTimer_faultless orderly)
      fun _ => faultless_pure.mpr orderly
  | reset => exact faultless_modify.mpr (reset_orderly false s)

theorem run_orderly {meets : Op → FDCtrl → Prop} (keeps : ∀ op s, meets op s → KeepsProtocol op s)
    (run : Run meets s) : Orderly s := by
  induction run with
  | start s => exact reset_orderly false s
  | next env op _ met ended orderly =>
    exact (faultless_of_run ended).mp (step_faultless orderly (keeps op _ met))

/-- In every run that keeps to the command protocol an access to the buffer has an index below 512;
if moreover no transfer goes past `2 ^ 31` bytes, no access is outside the buffer. -/
theorem fifo_index_inside (s : FDCtrl) (env : Env) (op : Op) (keeps : KeepsProtocol op s) :
    (Run KeepsProtocol s → ∀ index after, step env op s = (.error ⟨index⟩, after) → index < 512) ∧
    (Run (fun op s => KeepsProtocol op s ∧ StaysLow op s) s → StaysLow op s →
      ∀ fault after, step env op s ≠ (.error fault, after)) := by
  constructor
  · intro run index after failed
    have orderly : Orderly s := run_orderly (fun _ _ keeps => keeps) run
    have strays : Strays op s ⟨index⟩ :=
      (faultless_of_failure failed).mp (step_faultless orderly keeps)
    exact lt_trans strays.1 (by decide)
  · intro run low fault after failed
    have orderly : Orderly s := run_orderly (fun _ _ both => both.1) run
    have strays : Strays op s fault :=
      (faultless_of_failure failed).mp (step_faultless orderly keeps)
    exact strays.2 low

/-! ## Runs that leave the buffer -/

/-- A machine whose drives answer every request with zeros. -/
def quiet : Env where
  bdrvRead := fun _ _ _ => some fun _ => 0
  bdrvWrite := fun _ _ _ _ => true
  dmaMode := 0
  dmaByte := fun _ => 0
  mediaChanged := fun _ => false
  medium := fun _ => none

/-- A 1.44 MB drive. -/
def drive144 : FDrive where
  hasBs := true
  perpendicular := 0
  head := 0
  track := 0
  sect := 1
  dblSides := true
  lastSect := 18
  maxTrack := 80
  ro := 0

local instance twoDrives : NeZero 2 := neZeroTwo

/-- A controller without a DMA channel and with two drives. -/
def powerOn : FDCtrl where
  version := 0x90
  irq := false
  hasDma := false
  dreq := false
  resultTimer := false
  sra := 0
  srb := 0
  dor := 0
  tdr := 0
  dsr := 0
  msr := 0
  curDrv := 0
  status0 := 0
  fifo := fun _ => 0
  dataPos := 0
  dataLen := 0
  dataState := 0
  dataDir := .write
  eot := 0
  timer0 := 0
  timer1 := 0
  precompTrk := 0
  config := 0
  lock := 0
  pwrd := 0
  sun4m := false
  drives := fun _ => drive144
  resetSensei := 0

theorem powerOn_sense_inside :
    step quiet (.write 0x05 0x08) (reset false powerOn) ≠
      (.error ⟨512⟩, reset false powerOn) :=
  (fifo_index_inside _ quiet (.write 0x05 0x08) fun _ _ _ started => absurd rfl started).2
    (.start powerOn) (fun _ nonDma => absurd nonDma (by decide)) ⟨512⟩ (reset false powerOn)

/-- The command phase with `n` bytes in the buffer, past the length of the command. -/
structure RunsOn (n : Nat) (s : FDCtrl) : Prop where
  accepts : AcceptsWrite s
  nonDma : has s.msr msrNonDma = false
  position : s.dataPos.toNat = n
  past : s.dataLen.toNat ≤ n
  positive : 0 < n

theorem RunsOn.step_eq (runsOn : RunsOn n s) :
    step env (.write 0x05 0) s =
      (fifoSet n 0 >>= fun _ => modify advance >>= fun _ => runCommand env) (wake s) := by
  have started : s.dataPos ≠ 0 := by
    intro zero
    have position := runsOn.position
    rw [zero] at position
    exact absurd position (ne_of_lt runsOn.positive)
  have command : ¬ has s.msr msrNonDma = true := by
    rw [runsOn.nonDma]
    decide
  have same : expect env 0 (wake s) = wake s := if_neg started
  have position : (wake s).dataPos.toNat = n := runsOn.position
  show writeData env 0 s = _
  rw [writeData, get_bind, if_pos runsOn.accepts, modify_bind, if_neg command, writeCommandByte,
    modify_bind, same, get_bind, position]

theorem RunsOn.write (runsOn : RunsOn n s) (room : n < sectorLen) :
    ∃ after, step env (.write 0x05 0) s = (.ok (), after) ∧ RunsOn (n + 1) after := by
  have inside : Inside n := ⟨by omega, by omega⟩
  have position := runsOn.position
  have past := runsOn.past
  unfold sectorLen at room
  have next : (s.dataPos + 1).toNat = n + 1 := by
    rw [toNat_add, position]
    exact Nat.mod_eq_of_lt (by simp; omega)
  have different : s.dataPos + 1 ≠ s.dataLen := by
    intro same
    have lengths := congrArg BitVec.toNat same
    omega
  have stored : fifoSet n 0 (wake s) = (.ok (), fifoPut n 0 (wake s)) := if_pos inside
  refine ⟨advance (fifoPut n 0 (wake s)), ?_, ?_⟩
  · rw [runsOn.step_eq, bind_of_ok stored, modify_bind, runCommand, get_bind]
    exact congrFun (if_neg different) _
  · exact ⟨runsOn.accepts, runsOn.nonDma, next, Nat.le_succ_of_le past, Nat.succ_pos n⟩

theorem RunsOn.overrun (runsOn : RunsOn sectorLen s) :
    (step env (.write 0x05 0) s).1 = .error ⟨512⟩ := by
  have failed : fifoSet sectorLen 0 (wake s) = (.error ⟨512⟩, wake s) := if_neg (by decide)
  rw [runsOn.step_eq, bind_of_error failed]

/-- Sector data is read without an end at position `n`, on a drive where every seek succeeds. -/
structure Reads (n : Nat) (s : FDCtrl) : Prop where
  accepts : AcceptsRead s
  nonDma : has s.msr msrNonDma = true
  multi : has s.dataState stateMulti = true
  position : s.dataPos.toNat = n
  endless : s.dataLen = 0
  hasBs : (s.drives (getCurDrv s)).hasBs = true
  dblSides : (s.drives (getCurDrv s)).dblSides = true

theorem seekNext_of_multi {eot dataState : BitVec 8} {drv : FDrive}
    (multi : has dataState stateMulti = true) (dblSides : drv.dblSides = true) :
    (seekNext eot dataState drv).1 = true ∧
      (seekNext eot dataState drv).2.hasBs = drv.hasBs ∧
      (seekNext eot dataState drv).2.dblSides = true := by
  simp only [seekNext, multi, if_true]
  split
  · split
    · exact ⟨rfl, rfl, dblSides⟩
    · exact ⟨dblSides, rfl, dblSides⟩
  · exact ⟨rfl, rfl, dblSides⟩

theorem Reads.seek (reads : Reads n s) :
    ∃ after, seekUnlessFirst s = (.ok true, after) ∧ Reads n after ∧
      getCurDrv after = getCurDrv s := by
  by_cases first : s.dataPos ≠ 0
  · obtain ⟨found, hasBs, dblSides⟩ :=
      @seekNext_of_multi s.eot s.dataState (s.drives (getCurDrv s)) reads.multi reads.dblSides
    have moved : ∀ drv, (updateDrive (getCurDrv s) (fun _ => drv) s).drives
        (getCurDrv (updateDrive (getCurDrv s) (fun _ => drv) s)) = drv := by
      intro drv
      exact Function.update_self (getCurDrv s) drv s.drives
    refine ⟨updateDrive (getCurDrv s)
      (fun _ => (seekNext s.eot s.dataState (s.drives (getCurDrv s))).2) s, ?_, ?_, rfl⟩
    · rw [seekUnlessFirst, get_bind, if_pos first, seekToNextSect, found]
    · refine { reads with hasBs := ?_, dblSides := ?_ }
      · rw [moved, hasBs, reads.hasBs]
      · rw [moved, dblSides]
  · refine ⟨s, ?_, reads, rfl⟩
    rw [seekUnlessFirst, get_bind, if_neg first]
    rfl

theorem Reads.refill (reads : Reads n s) :
    ∃ after, refill quiet s = (.ok true, after) ∧ Reads n after := by
  by_cases boundary : sectorPos s.dataPos = 0
  · obtain ⟨after, sought, still, sameDrive⟩ := reads.seek
    have filled : readSector quiet (getCurDrv s) after =
        (.ok (), { after with fifo := fun _ => 0 }) := by
      rw [readSector, get_bind, ← sameDrive, if_pos still.hasBs]
      rfl
    refine ⟨{ after with fifo := fun _ => 0 }, ?_, ?_⟩
    · rw [Fdc.refill, get_bind, if_pos boundary, bind_of_ok sought, if_pos rfl, bind_of_ok filled]
      rfl
    · exact { still with }
  · refine ⟨s, ?_, reads⟩
    rw [Fdc.refill, get_bind, if_neg boundary]
    rfl

theorem Reads.step_eq (reads : Reads n s) :
    ∃ after, Reads n after ∧ step quiet (.read 0x05) s =
      (readByte (sectorPos s.dataPos) >>= fun _ => pure ()) after := by
  have awake : Reads n (wake s) := { reads with }
  obtain ⟨after, filled, still⟩ := awake.refill
  refine ⟨after, still, ?_⟩
  have data : readData quiet s = readByte (sectorPos s.dataPos) after := by
    rw [readData, modify_bind, get_bind, if_pos awake.accepts, if_pos awake.nonDma,
      bind_of_ok filled, if_pos rfl]
    rfl
  show (readData quiet >>= fun _ => pure ()) s = _
  rw [bind_apply, data, bind_apply]

theorem Reads.inside (reads : Reads n s) (low : n ≤ 2 ^ 31) : Inside (sectorPos s.dataPos) := by
  have position := reads.position
  refine ⟨?_, sectorPos_lt s.dataPos⟩
  rcases lt_or_eq_of_le low with below | rfl
  · exact sectorPos_nonneg (by omega)
  · have exact' : s.dataPos = BitVec.ofNat 32 (2 ^ 31) := eq_of_toNat_eq position
    rw [exact']
    decide

theorem Reads.read (reads : Reads n s) (low : n ≤ 2 ^ 31) :
    ∃ after, step quiet (.read 0x05) s = (.ok (), after) ∧ Reads (n + 1) after := by
  obtain ⟨filled, still, stepEq⟩ := reads.step_eq
  have position := still.position
  have next : (filled.dataPos + 1).toNat = n + 1 := by
    rw [toNat_add, position]
    exact Nat.mod_eq_of_lt (by simp; omega)
  have different : filled.dataPos + 1 ≠ filled.dataLen := by
    rw [still.endless]
    intro same
    rw [same] at next
    exact absurd next (by simp)
  have got : fifoGet (sectorPos s.dataPos) filled =
      (.ok (filled.fifo (slot (sectorPos s.dataPos))), filled) := if_pos (reads.inside low)
  have finished : finishRead (advance filled) = (.ok (), advance filled) := by
    have more : ¬ (advance filled).dataPos = (advance filled).dataLen := different
    rw [finishRead, get_bind, if_neg more]
    rfl
  have byte : readByte (sectorPos s.dataPos) filled =
      (.ok ((filled.fifo (slot (sectorPos s.dataPos))).setWidth 32), advance filled) := by
    rw [readByte, bind_of_ok got, modify_bind, bind_of_ok finished]
    rfl
  refine ⟨advance filled, ?_, ?_⟩
  · rw [stepEq, bind_of_ok byte]
    rfl
  · exact { still with position := next }

theorem sectorPos_beyond : sectorPos (BitVec.ofNat 32 (2 ^ 31 + 1)) = -511 := by decide

theorem Reads.underrun (reads : Reads (2 ^ 31 + 1) s) :
    (step quiet (.read 0x05) s).1 = .error ⟨-511⟩ := by
  obtain ⟨filled, -, stepEq⟩ := reads.step_eq
  have here : s.dataPos = BitVec.ofNat 32 (2 ^ 31 + 1) := eq_of_toNat_eq reads.position
  have failed : fifoGet (-511) filled = (.error ⟨-511⟩, filled) := if_neg (by decide)
  have byte : readByte (sectorPos s.dataPos) filled = (.error ⟨-511⟩, filled) := by
    rw [here, sectorPos_beyond, readByte, bind_of_error failed]
  rw [stepEq, bind_of_error byte]

def readIdCommand : List Op := [.write 0x05 0x0a, .write 0x05 0]

/-- READ over both sides from sector 1 to sector 0, which makes `data_len` zero. -/
def readCommand : List Op :=
  [.write 0x05 0xc6, .write 0x05 0, .write 0x05 0, .write 0x05 0, .write 0x05 1, .write 0x05 2,
    .write 0x05 0, .write 0x05 0, .write 0x05 0]

/-- After READ ID further bytes are stored past the end of the buffer, and an endless READ takes the
index before its start. -/
theorem readId_read_outside :
    (forEach (step quiet) (readIdCommand ++ List.replicate 511 (.write 0x05 0))
      (reset false powerOn)).1 = .error ⟨512⟩ ∧
    (forEach (step quiet) (readCommand ++ List.replicate (2 ^ 31 + 2) (.read 0x05))
      (reset false powerOn)).1 = .error ⟨-511⟩ := by
  constructor
  · rw [forEach_append_of_ok (by decide)]
    have past : RunsOn 2 (forEach (step quiet) readIdCommand (reset false powerOn)).2 := by
      constructor <;> decide
    exact forEach_replicate_error RunsOn.write RunsOn.overrun past (by decide)
  · rw [forEach_append_of_ok (by decide)]
    have start : Reads 0 (forEach (step quiet) readCommand (reset false powerOn)).2 := by
      constructor <;> decide
    exact forEach_replicate_error (fun reads low => reads.read (Nat.le_of_lt_succ low))
      Reads.underrun start (zero_add (2 ^ 31 + 1))

end Qemu.Hw.Fdc
