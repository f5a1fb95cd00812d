import Mathlib

/-!
# The range check in front of a format driver

`bdrv_read`, `bdrv_write`, `bdrv_aio_readv` and `bdrv_aio_writev` check a request against the length
of the device before they hand it to the driver.  The check converts sectors to bytes: the offset in
64 bits, the size in a `size_t`, which has 32 bits here.
-/

namespace Qemu.Block

variable {bs : BlockDriverState}

/-- The driver functions the check consults: `bdrv_is_inserted` and `bdrv_getlength`, if the driver
has them, with what they return. -/
structure BlockDriver where
  isInserted : Option Bool
  getlength : Option (BitVec 64)

/-- `BlockDriverState`, as far as requests are checked and recorded in it. -/
structure BlockDriverState where
  drv : Option BlockDriver
  trayOpen : Bool
  growable : Bool
  removable : Bool
  readOnly : Bool
  totalSectors : BitVec 64
  /-- The dirty chunks, if they are tracked. -/
  dirtyBitmap : Option (Int → Bool)
  wrHighestSector : BitVec 64

/-- How a request is refused: an error code, or `NULL` from the asynchronous functions. -/
inductive Refusal where
  | eNoMedium
  | eAcces
  | eIo
  | null
  deriving DecidableEq, Repr

/-- The functions that take requests. -/
inductive Entry where
  | read
  | write
  | aioReadv
  | aioWritev
  deriving DecidableEq, Repr

/-- The request as it is passed to the driver. -/
structure DriverCall where
  entry : Entry
  sectorNum : BitVec 64
  nbSectors : BitVec 32
  deriving DecidableEq, Repr

section

variable (bs : BlockDriverState) (sectorNum : BitVec 64) (nbSectors : BitVec 32)

def bdrvIsInserted : Bool :=
  match bs.drv with
  | none => false
  | some drv => drv.isInserted.getD (!bs.trayOpen)

/-- `bdrv_getlength`, in bytes; negative if there is no driver. -/
def bdrvGetlength : BitVec 64 :=
  match bs.drv with
  | none => BitVec.ofInt 64 (-123)
  | some drv =>
    if bs.growable ∨ bs.removable then drv.getlength.getD (bs.totalSectors * 512)
    else bs.totalSectors * 512

def bdrvCheckByteRequest (offset : BitVec 64) (size : BitVec 32) : Option Refusal :=
  if bdrvIsInserted bs = false then some .eNoMedium
  else if bs.growable then none
  else if offset.toInt < 0 then some .eIo
  else if (bdrvGetlength bs).toInt < offset.toInt ∨
      (bdrvGetlength bs).toInt - offset.toInt < size.toNat then some .eIo
  else none

/-- `bdrv_check_request`: both products are taken in 64 bits, the second is then cut to a `size_t`. -/
def bdrvCheckRequest : Option Refusal :=
  bdrvCheckByteRequest bs (sectorNum * 512) ((nbSectors.signExtend 64 * 512).setWidth 32)

/-- `set_dirty_bitmap` with `dirty` set, in chunks of 2048 sectors. -/
def setDirtyBitmap (bitmap : Int → Bool) (sectorNum : BitVec 64) (nbSectors : BitVec 32) :
    Int → Bool := fun chunk =>
  (sectorNum.toInt.tdiv 2048 ≤ chunk ∧
    chunk ≤ (sectorNum + nbSectors.signExtend 64 - 1).toInt.tdiv 2048) || bitmap chunk

/-- `bdrv_read` and `bdrv_aio_readv` up to the call of the driver; they differ in how they refuse. -/
def submitRead (entry : Entry) (noMedium failed : Refusal) (bs : BlockDriverState)
    (sectorNum : BitVec 64) (nbSectors : BitVec 32) :
    Except Refusal (DriverCall × BlockDriverState) :=
  if bs.drv.isNone then .error noMedium
  else if (bdrvCheckRequest bs sectorNum nbSectors).isSome then .error failed
  else .ok (⟨entry, sectorNum, nbSectors⟩, bs)

def bdrvRead := submitRead .read .eNoMedium .eIo

def bdrvAioReadv := submitRead .aioReadv .null .null

def bdrvWrite : Except Refusal (DriverCall × BlockDriverState) :=
  if bs.drv.isNone then .error .eNoMedium
  else if bs.readOnly then .error .eAcces
  else if (bdrvCheckRequest bs sectorNum nbSectors).isSome then .error .eIo
  else
    let last := sectorNum + nbSectors.signExtend 64 - 1
    .ok (⟨.write, sectorNum, nbSectors⟩, { bs with
      dirtyBitmap := bs.dirtyBitmap.map fun bitmap => setDirtyBitmap bitmap sectorNum nbSectors
      wrHighestSector := if bs.wrHighestSector < last then last else bs.wrHighestSector })

/-- `bdrv_aio_writev` up to the call of the driver; the dirty bitmap and `wr_highest_sector` are
brought up to date later. -/
def bdrvAioWritev : Except Refusal (DriverCall × BlockDriverState) :=
  if bs.drv.isNone then .error .null
  else if bs.readOnly then .error .null
  else if (bdrvCheckRequest bs sectorNum nbSectors).isSome then .error .null
  else .ok (⟨.aioWritev, sectorNum, nbSectors⟩, bs)

def Entry.run : Entry → BlockDriverState → BitVec 64 → BitVec 32 →
    Except Refusal (DriverCall × BlockDriverState)
  | .read => bdrvRead
  | .write => bdrvWrite
  | .aioReadv => bdrvAioReadv
  | .aioWritev => bdrvAioWritev

/-- The request gets to the driver. -/
def Entry.Passes (entry : Entry) (bs : BlockDriverState) (sectorNum : BitVec 64)
    (nbSectors : BitVec 32) : Prop :=
  ∃ bs', entry.run bs sectorNum nbSectors = .ok (⟨entry, sectorNum, nbSectors⟩, bs')

/-- The device takes requests of this kind at all. -/
def Entry.Takes (entry : Entry) (bs : BlockDriverState) : Prop :=
  bdrvIsInserted bs = true ∧
    match entry with
    | .read | .aioReadv => True
    | .write | .aioWritev => bs.readOnly = false

/-- The request, in mathematical integers, lies on the device. -/
def OnDevice : Prop :=
  0 ≤ sectorNum.toInt ∧ 0 ≤ nbSectors.toInt ∧
    sectorNum.toInt + nbSectors.toInt ≤ (bdrvGetlength bs).toInt / 512

/-- A product of the check does not fit its type. -/
def Wraps : Prop :=
  sectorNum.toInt < -2 ^ 54 ∨ 2 ^ 54 ≤ sectorNum.toInt ∨ nbSectors.toInt < 0 ∨
    2 ^ 23 ≤ nbSectors.toInt

/-- The byte range that is left of the request after the products have wrapped lies on the device. -/
def WrappedFits : Prop :=
  0 ≤ (sectorNum.toInt * 512).bmod (2 ^ 64) ∧
    (sectorNum.toInt * 512).bmod (2 ^ 64) + nbSectors.toInt * 512 % 2 ^ 32 ≤
      (bdrvGetlength bs).toInt

end

instance (bs : BlockDriverState) (sectorNum : BitVec 64) (nbSectors : BitVec 32) :
    Decidable (OnDevice bs sectorNum nbSectors) := inferInstanceAs (Decidable (_ ∧ _))

instance (sectorNum : BitVec 64) (nbSectors : BitVec 32) : Decidable (Wraps sectorNum nbSectors) :=
  inferInstanceAs (Decidable (_ ∨ _))

instance (bs : BlockDriverState) (sectorNum : BitVec 64) (nbSectors : BitVec 32) :
    Decidable (WrappedFits bs sectorNum nbSectors) := inferInstanceAs (Decidable (_ ∧ _))

theorem offset_toInt (sectorNum : BitVec 64) :
    (sectorNum * 512).toInt = (sectorNum.toInt * 512).bmod (2 ^ 64) := by
  rw [BitVec.toInt_mul]
  rfl

theorem size_toNat (nbSectors : BitVec 32) :
    (((nbSectors.signExtend 64 * 512).setWidth 32).toNat : Int) =
      nbSectors.toInt * 512 % 2 ^ 32 := by
  have product : ((nbSectors.signExtend 64 * 512).setWidth 32).toNat =
      (nbSectors.toInt % 2 ^ 64).toNat * 512 % 2 ^ 64 % 2 ^ 32 := by
    rfl
  omega

theorem bdrvCheckRequest_eq_none (fixed : bs.growable = false) (sectorNum : BitVec 64)
    (nbSectors : BitVec 32) :
    bdrvCheckRequest bs sectorNum nbSectors = none ↔
      bdrvIsInserted bs = true ∧ WrappedFits bs sectorNum nbSectors := by
  rw [bdrvCheckRequest, bdrvCheckByteRequest, WrappedFits, offset_toInt, size_toNat]
  cases inserted : bdrvIsInserted bs with
  | false => simp
  | true =>
    rw [fixed, if_neg (by simp), if_neg Bool.false_ne_true]
    split
    · exact iff_of_false (by simp) (by omega)
    · split
      · exact iff_of_false (by simp) (by omega)
      · exact iff_of_true rfl ⟨rfl, by omega⟩

theorem ok_of_refusal {condition : Prop} [Decidable condition] {refusal : Refusal}
    {call : DriverCall × BlockDriverState} {rest : Except Refusal (DriverCall × BlockDriverState)} :
    (if condition then .error refusal else rest) = .ok call ↔ ¬ condition ∧ rest = .ok call := by
  split
  · next holds => exact iff_of_false (by simp) fun both => both.1 holds
  · next fails => exact (and_iff_right fails).symm

/-- A request passes exactly when the device takes it and its byte range, as far as it has not been
lost, fits. -/
theorem passes_iff (fixed : bs.growable = false) (entry : Entry) (sectorNum : BitVec 64)
    (nbSectors : BitVec 32) :
    entry.Passes bs sectorNum nbSectors ↔
      entry.Takes bs ∧ WrappedFits bs sectorNum nbSectors := by
  have checked := bdrvCheckRequest_eq_none fixed sectorNum nbSectors
  have open_check : (¬ bs.drv = none ∧ bdrvCheckRequest bs sectorNum nbSectors = none) ↔
      bdrvIsInserted bs = true ∧ WrappedFits bs sectorNum nbSectors := by
    rw [checked]
    refine ⟨fun both => both.2, fun both => ⟨fun none => ?_, both⟩⟩
    simp [bdrvIsInserted, none] at both
  cases entry with
  | read =>
    simp only [Entry.Passes, Entry.run, bdrvRead, submitRead, ok_of_refusal, Entry.Takes]
    simpa [and_assoc] using open_check
  | aioReadv =>
    simp only [Entry.Passes, Entry.run, bdrvAioReadv, submitRead, ok_of_refusal, Entry.Takes]
    simpa [and_assoc] using open_check
  | write =>
    simp only [Entry.Passes, Entry.run, bdrvWrite, ok_of_refusal, Entry.Takes]
    simp
    tauto
  | aioWritev =>
    simp only [Entry.Passes, Entry.run, bdrvAioWritev, ok_of_refusal, Entry.Takes]
    simp
    tauto

/-- A request whose products fit their types gets to the driver only if it lies on the device. -/
theorem onDevice_of_fits {sectorNum : BitVec 64} {nbSectors : BitVec 32}
    (exact : ¬ Wraps sectorNum nbSectors) (fits : WrappedFits bs sectorNum nbSectors) :
    OnDevice bs sectorNum nbSectors := by
  unfold Wraps at exact
  unfold WrappedFits at fits
  unfold OnDevice
  have offset : (sectorNum.toInt * 512).bmod (2 ^ 64) = sectorNum.toInt * 512 :=
    Int.bmod_eq_of_le (by omega) (by omega)
  omega

/-- On a device that does not grow, a request that gets to a driver lies on the device, unless its
products wrap, what they wrap to fits, and the request itself does not. -/
theorem passes_onDevice_iff {bs : BlockDriverState} (fixed : bs.growable = false) (entry : Entry)
    (sectorNum : BitVec 64) (nbSectors : BitVec 32) :
    (entry.Passes bs sectorNum nbSectors → OnDevice bs sectorNum nbSectors) ↔
      ¬ (entry.Takes bs ∧ Wraps sectorNum nbSectors ∧ WrappedFits bs sectorNum nbSectors ∧
        ¬ OnDevice bs sectorNum nbSectors) := by
  rw [passes_iff fixed]
  constructor
  · rintro inside ⟨takes, -, fits, outside⟩
    exact outside (inside ⟨takes, fits⟩)
  · rintro allowed ⟨takes, fits⟩
    by_contra outside
    have wraps : Wraps sectorNum nbSectors := by
      by_contra exact
      exact outside (onDevice_of_fits exact fits)
    exact allowed ⟨takes, wraps, fits, outside⟩

/-- A writable device of eight sectors. -/
def smallDevice : BlockDriverState where
  drv := some { isInserted := none, getlength := none }
  trayOpen := false
  growable := false
  removable := false
  readOnly := false
  totalSectors := 8
  dirtyBitmap := none
  wrHighestSector := 0

theorem smallDevice_last_sector :
    Entry.write.Passes smallDevice 7 1 ∧ OnDevice smallDevice 7 1 := by
  have passes : Entry.write.Passes smallDevice 7 1 :=
    (passes_iff rfl _ _ _).mpr ⟨⟨rfl, rfl⟩, by decide +kernel⟩
  refine ⟨passes, (passes_onDevice_iff rfl .write 7 1).mpr (fun both => ?_) passes⟩
  obtain ⟨-, wraps, -⟩ := both
  revert wraps
  decide

/-- The sector `2 ^ 55` is written as far as the check can see at the offset 0. -/
theorem smallDevice_passes_beyond :
    smallDevice.growable = false ∧ Entry.write.Passes smallDevice (2 ^ 55) 1 ∧
      ¬ OnDevice smallDevice (2 ^ 55) 1 := by
  refine ⟨rfl, (passes_iff rfl _ _ _).mpr ⟨⟨rfl, rfl⟩, ?_⟩, ?_⟩
  · decide +kernel
  · decide +kernel

end Qemu.Block
