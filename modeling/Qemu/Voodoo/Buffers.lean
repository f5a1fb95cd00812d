import Mathlib

/-!
# Voodoo colour buffers

The registers of `hw/voodoo.c` that decide where the colour buffers lie, the layout of the frame
buffer and the rotation of the buffers.  Drawing, texture and clipping registers change none of
this; their writes are the `other` register here.
-/

namespace Qemu.Voodoo

open Function BitVec

variable {v : VoodooState} {reg : VoodooReg}

abbrev UINT32 := BitVec 32

abbrev UINT8 := BitVec 8

inductive VoodooType where
  | voodoo1
  | voodoo1Dtmu
  | voodoo2
  deriving DecidableEq, Repr

/-- `type < VOODOO_2`. -/
def VoodooType.first : VoodooType → Bool
  | .voodoo2 => false
  | _ => true

/-- Registers that the buffers depend on; all the others are `other`. -/
inductive VoodooReg where
  | swapbufferCMD
  | fbiInit4 | backPorch | videoDimensions
  | fbiInit0 | fbiInit1 | fbiInit2 | fbiInit3
  | hSync | vSync
  | fbiInit5 | fbiInit6 | fbiInit7
  | fbiSwapHistory
  | other
  deriving DecidableEq, Repr

def VoodooReg.ofNum : Nat → VoodooReg
  | 0x4a => swapbufferCMD
  | 0x80 => fbiInit4
  | 0x82 => backPorch
  | 0x83 => videoDimensions
  | 0x84 => fbiInit0
  | 0x85 => fbiInit1
  | 0x86 => fbiInit2
  | 0x87 => fbiInit3
  | 0x88 => hSync
  | 0x89 => vSync
  | 0x91 => fbiInit5
  | 0x92 => fbiInit6
  | 0x93 => fbiInit7
  | 0x96 => fbiSwapHistory
  | _ => other

def registerAliasMap : List Nat := [
  0x00, 0x01, 0x02, 0x03, 0x04, 0x05, 0x06, 0x07,
  0x08, 0x10, 0x18, 0x09, 0x11, 0x19, 0x0a, 0x12,
  0x1a, 0x0b, 0x13, 0x1b, 0x0c, 0x14, 0x1c, 0x0d,
  0x15, 0x1d, 0x0e, 0x16, 0x1e, 0x0f, 0x17, 0x1f,
  0x20, 0x21, 0x22, 0x23, 0x24, 0x25, 0x26, 0x27,
  0x28, 0x30, 0x38, 0x29, 0x31, 0x39, 0x2a, 0x32,
  0x3a, 0x2b, 0x33, 0x3b, 0x2c, 0x34, 0x3c, 0x2d,
  0x35, 0x3d, 0x2e, 0x36, 0x3e, 0x2f, 0x37, 0x3f]

/-- The frame buffer interface. -/
structure FbiState where
  mask : UINT32
  rgboffs : Fin 3 → UINT32
  auxoffs : UINT32
  frontbuf : UINT8
  backbuf : UINT8
  vblankDontSwap : Bool
  width : UINT32
  height : UINT32
  tileWidth : UINT32
  tileHeight : UINT32
  xTiles : UINT32
  rowpixels : UINT32
  fifoSize : UINT32
  yorigin : UINT32

structure VoodooState where
  type : VoodooType
  ogl : Bool
  active : Bool
  reg : VoodooReg → UINT32
  /-- The `REGISTER_WRITE` bit of `regaccess`. -/
  writable : Nat → Bool
  chipmask : UINT32
  altRegmap : Bool
  initEnable : UINT32
  fbi : FbiState

namespace VoodooState

def setReg (v : VoodooState) (reg : VoodooReg) (data : UINT32) : VoodooState :=
  { v with reg := Function.update v.reg reg data }

end VoodooState

def field (value : UINT32) (shift : Nat) (mask : UINT32) : UINT32 := (value >>> shift) &&& mask

/-- `(UINT32)(~0)`: there is no such buffer. -/
def noBuffer : UINT32 := ~~~0

/-! ## Layout -/

section

variable (v : VoodooState)

def memoryConfig : UINT32 :=
  let tripleBuf := field (v.reg .fbiInit2) 4 1
  if v.type = .voodoo2 ∧ tripleBuf = 0 then field (v.reg .fbiInit5) 9 3 else tripleBuf

/-- Offset of the third colour buffer before it is clamped. -/
def thirdOffset (config bufferPages : UINT32) : UINT32 :=
  if config = 1 ∨ config = 2 then 2 * bufferPages * 0x1000 else noBuffer

/-- Offset of the auxiliary buffer before it is clamped. -/
def auxOffset (config bufferPages : UINT32) : UINT32 :=
  if config = 1 then noBuffer
  else if config = 2 then 3 * bufferPages * 0x1000
  else 2 * bufferPages * 0x1000

def clampOffset (mask offset : UINT32) : UINT32 :=
  if offset ≠ noBuffer ∧ mask.ult offset then mask else offset

def fifoSize : UINT32 :=
  let start := field (v.reg .fbiInit4) 8 0x3ff
  let stop := field (v.reg .fbiInit4) 18 0x3ff
  let last := if (v.fbi.mask / 0x1000).ult stop then v.fbi.mask / 0x1000 else stop
  if start.ule last ∧ field (v.reg .fbiInit0) 13 1 ≠ 0 then
    let size := (last + 1 - start) * 0x1000 / 4
    if (65536 * 2 : UINT32).ult size then 65536 * 2 else size
  else 0

/-- The number of tiles in a row. -/
def xTiles : UINT32 :=
  let tiles := field (v.reg .fbiInit1) 4 0xf
  if v.type = .voodoo2 then
    (tiles <<< 1) ||| (field (v.reg .fbiInit1) 24 1 <<< 5) ||| field (v.reg .fbiInit6) 30 1
  else tiles

/-- A buffer index that the layout with two buffers does not have. -/
def resetIndex (index : UINT8) : UINT8 := if index = 2 then 0 else index

def recomputeVideoMemory : VoodooState :=
  let bufferPages := field (v.reg .fbiInit2) 11 0x1ff
  let config := memoryConfig v
  let tileWidth := if v.type.first then 64 else 32
  let third := clampOffset v.fbi.mask (thirdOffset config bufferPages)
  let two := third = noBuffer
  { v with
    fbi := { v.fbi with
      tileWidth
      tileHeight := if v.type.first then 16 else 32
      xTiles := xTiles v
      rowpixels := tileWidth * xTiles v
      rgboffs := ![clampOffset v.fbi.mask 0, clampOffset v.fbi.mask (bufferPages * 0x1000), third]
      auxoffs := clampOffset v.fbi.mask (auxOffset config bufferPages)
      fifoSize := fifoSize v
      frontbuf := if two then resetIndex v.fbi.frontbuf else v.fbi.frontbuf
      backbuf := if two then resetIndex v.fbi.backbuf else v.fbi.backbuf } }

/-! ## Rotation -/

def nextOfThree (index : UINT8) : UINT8 := BitVec.ofNat 8 ((index.toNat + 1) % 3)

variable (fbi : FbiState)

/-- Next front and back buffer. -/
def rotateBuffers : FbiState :=
  if fbi.rgboffs 2 = noBuffer then
    let frontbuf := 1 - fbi.frontbuf
    { fbi with frontbuf, backbuf := 1 - frontbuf }
  else
    let frontbuf := nextOfThree fbi.frontbuf
    { fbi with frontbuf, backbuf := nextOfThree frontbuf }

def voodooSwapBuffers : VoodooState :=
  if v.ogl && v.active then v
  else
    let v := v.setReg .fbiSwapHistory (v.reg .fbiSwapHistory <<< 4)
    if v.type.first || !v.fbi.vblankDontSwap then { v with fbi := rotateBuffers v.fbi } else v

def swapbuffer (data : UINT32) : VoodooState :=
  voodooSwapBuffers { v with fbi := { v.fbi with vblankDontSwap := field data 9 1 ≠ 0 } }

/-! ## Register writes -/

/-- The timing registers: a complete set of them gives the screen size. -/
def writeTiming (reg : VoodooReg) (data : UINT32) : VoodooState :=
  let v := v.setReg reg data
  if v.reg .hSync ≠ 0 ∧ v.reg .vSync ≠ 0 ∧ v.reg .videoDimensions ≠ 0 then
    let hvis := field (v.reg .videoDimensions) 0 0x3ff
    let vvis := field (v.reg .videoDimensions) 16 0x3ff
    let v := { v with fbi := { v.fbi with
      width := (hvis + 1) &&& ~~~1, height := (vvis + 1) &&& ~~~1 } }
    if reg = .videoDimensions then recomputeVideoMemory v else v
  else v

def hwInitEnabled : Bool := field v.initEnable 0 1 ≠ 0

def writeInit (reg : VoodooReg) (data : UINT32) : VoodooState :=
  if hwInitEnabled v then recomputeVideoMemory (v.setReg reg data) else v

/-- `fbiInit3` also sets up the register map and the origin. -/
def writeInit3 (data : UINT32) : VoodooState :=
  if hwInitEnabled v then
    recomputeVideoMemory { v.setReg .fbiInit3 data with
      altRegmap := field data 0 1 ≠ 0
      fbi := { v.fbi with yorigin := field data 22 0x3ff } }
  else v

/-- The switch of `register_w`, for chips that include the frame buffer interface or not. -/
def writeRegister (reg : VoodooReg) (fbiChip : Bool) (data : UINT32) : VoodooState :=
  match reg with
  | .swapbufferCMD => swapbuffer v data
  | .hSync | .vSync | .backPorch | .videoDimensions =>
    if fbiChip then writeTiming v reg data else v
  | .fbiInit5 | .fbiInit6 =>
    if v.type.first then v else if fbiChip then writeInit v reg data else v
  | .fbiInit0 | .fbiInit1 | .fbiInit2 | .fbiInit4 => if fbiChip then writeInit v reg data else v
  | .fbiInit3 => if fbiChip then writeInit3 v data else v
  | .fbiInit7 | .fbiSwapHistory => if fbiChip then v.setReg reg data else v
  | .other => v

def registerNum (offset : UINT32) : Nat :=
  if offset &&& 0x800c0 = 0x80000 ∧ v.altRegmap = true then
    registerAliasMap.getD (offset &&& 0x3f).toNat 0
  else (offset &&& 0xff).toNat

def registerW (offset data : UINT32) : VoodooState :=
  let selected := field offset 8 0xf
  let chips := (if selected = 0 then 0xf else selected) &&& v.chipmask
  let regnum := registerNum v offset
  if v.writable regnum then
    writeRegister v (VoodooReg.ofNum regnum) (chips &&& 1 ≠ 0) data
  else v

/-! ## Start and runs -/

def initFbi (fbmem : Nat) : FbiState where
  mask := BitVec.ofNat 32 (fbmem - 1)
  rgboffs _ := 0
  auxoffs := noBuffer
  frontbuf := 0
  backbuf := 1
  vblankDontSwap := false
  width := 640
  height := 480
  tileWidth := 0
  tileHeight := 0
  xTiles := 0
  rowpixels := 640
  fifoSize := 0
  yorigin := 0

/-- `voodoo_init`; both models of the first generation are set up alike. -/
def voodooInit (voodoo2 : Bool) (ogl : Bool) (writable : Nat → Bool) : VoodooState :=
  recomputeVideoMemory {
    type := if voodoo2 then .voodoo2 else .voodoo1Dtmu
    ogl
    active := false
    reg := fun
      | .fbiInit0 => (1 <<< 4) ||| (0x10 <<< 6)
      | .fbiInit1 => (1 <<< 1) ||| (1 <<< 8) ||| (1 <<< 12) ||| (2 <<< 20)
      | .fbiInit2 => (1 <<< 6) ||| (0x100 <<< 23)
      | .fbiInit3 => (2 <<< 13) ||| (0xf <<< 17)
      | .fbiInit4 => 1 <<< 0
      | _ => 0
    writable
    chipmask := 0x7
    altRegmap := false
    initEnable := 0
    fbi := initFbi (4 <<< 20) }

/-- What happens to the card. -/
inductive VoodooOp where
  | registerW (offset data : UINT32)
  /-- A swap at the vertical blank. -/
  | swapBuffers
  /-- `voodoo_activate`, with the success of the OpenGL set-up. -/
  | activate (oglReady : Bool)
  /-- `voodoo_leave`. -/
  | leave

def VoodooOp.apply : VoodooOp → VoodooState
  | .registerW offset data => Voodoo.registerW v offset data
  | .swapBuffers => voodooSwapBuffers v
  | .activate oglReady => { v with active := true, ogl := v.ogl && oglReady }
  | .leave => { v with active := false }

def runVoodooOps (ops : List VoodooOp) (v : VoodooState) : VoodooState := ops.foldl VoodooOp.apply v

/-! ## Valid buffers -/

/-- The number of colour buffers that are laid out. -/
def bufferCount : Nat := if fbi.rgboffs 2 = noBuffer then 2 else 3

/-- The buffer of this index exists and starts inside the frame buffer. -/
structure ValidBuffer (fbi : FbiState) (index : UINT8) : Prop where
  below : index.toNat < bufferCount fbi
  inside : ∃ i : Fin 3, i.val = index.toNat ∧ fbi.rgboffs i ≤ fbi.mask

structure ValidBuffers (fbi : FbiState) : Prop where
  distinct : fbi.frontbuf ≠ fbi.backbuf
  front : ValidBuffer fbi fbi.frontbuf
  back : ValidBuffer fbi fbi.backbuf

/-- Every buffer that is laid out starts inside the frame buffer. -/
structure LaidOut (fbi : FbiState) : Prop where
  first : fbi.rgboffs 0 ≤ fbi.mask
  second : fbi.rgboffs 1 ≤ fbi.mask
  third : fbi.rgboffs 2 = noBuffer ∨ fbi.rgboffs 2 ≤ fbi.mask

theorem bufferCount_le : bufferCount fbi ≤ 3 := by
  unfold bufferCount
  split <;> omega

theorem two_le_bufferCount : 2 ≤ bufferCount fbi := by
  unfold bufferCount
  split <;> omega

theorem LaidOut.validBuffer {fbi : FbiState} (laid : LaidOut fbi) {index : UINT8}
    (below : index.toNat < bufferCount fbi) : ValidBuffer fbi index := by
  refine ⟨below, ?_⟩
  have small : index.toNat < 3 := lt_of_lt_of_le below (bufferCount_le fbi)
  refine ⟨⟨index.toNat, small⟩, rfl, ?_⟩
  have cases : index.toNat = 0 ∨ index.toNat = 1 ∨ index.toNat = 2 := by omega
  rcases cases with zero | one | two
  · exact (congrArg (fbi.rgboffs · ≤ fbi.mask) (Fin.ext zero)).mpr laid.first
  · exact (congrArg (fbi.rgboffs · ≤ fbi.mask) (Fin.ext one)).mpr laid.second
  · have third : fbi.rgboffs 2 ≤ fbi.mask := by
      rcases laid.third with none | inside
      · rw [bufferCount, if_pos none, two] at below
        omega
      · exact inside
    exact (congrArg (fbi.rgboffs · ≤ fbi.mask) (Fin.ext two)).mpr third

/-! ### The layout -/

theorem clampOffset_le {mask offset : UINT32} (exists' : offset ≠ noBuffer) :
    clampOffset mask offset ≤ mask := by
  unfold clampOffset
  split
  · exact BitVec.le_refl mask
  · next inside =>
    have notAbove : ¬ mask.ult offset := fun above => inside ⟨exists', above⟩
    simpa [BitVec.ult, le_def] using notAbove

theorem clampOffset_ne {mask offset : UINT32} (exists' : offset ≠ noBuffer) :
    clampOffset mask offset ≠ noBuffer := by
  unfold clampOffset
  split
  · next above =>
    have bound : offset.toNat ≤ noBuffer.toNat := by
      rw [show noBuffer.toNat = 2 ^ 32 - 1 from rfl]
      omega
    have smaller : mask.toNat < offset.toNat := by simpa [BitVec.ult] using above.2
    intro last
    rw [last] at smaller
    omega
  · exact exists'

theorem clampOffset_noBuffer (mask : UINT32) : clampOffset mask noBuffer = noBuffer := by
  simp [clampOffset]

theorem page_ne_noBuffer (pages : UINT32) : pages * 0x1000 ≠ noBuffer := by
  intro equal
  have aligned : (pages * 0x1000).toNat % 0x1000 = 0 := by
    rw [toNat_mul, show (0x1000 : UINT32).toNat = 4096 from rfl]
    omega
  rw [equal] at aligned
  cases aligned

theorem laidOut_recompute : LaidOut (recomputeVideoMemory v).fbi where
  first := clampOffset_le (by decide : (0 : UINT32) ≠ noBuffer)
  second := clampOffset_le (page_ne_noBuffer _)
  third := by
    change clampOffset _ (thirdOffset _ _) = _ ∨ clampOffset _ (thirdOffset _ _) ≤ _
    unfold thirdOffset
    split
    · exact Or.inr (clampOffset_le (page_ne_noBuffer _))
    · exact Or.inl (clampOffset_noBuffer _)

theorem recompute_two_iff :
    (recomputeVideoMemory v).fbi.rgboffs 2 = noBuffer ↔
      ¬ (memoryConfig v = 1 ∨ memoryConfig v = 2) := by
  change clampOffset _ (thirdOffset _ _) = _ ↔ _
  unfold thirdOffset
  split
  · next three =>
    refine iff_of_false ?_ (not_not.mpr three)
    exact clampOffset_ne (page_ne_noBuffer _)
  · next two => exact iff_of_true (clampOffset_noBuffer _) two

end

theorem resetIndex_of_lt {index : UINT8} (below : index.toNat < 2) : resetIndex index = index := by
  refine if_neg fun two => ?_
  rw [two] at below
  exact absurd below (by decide)

theorem recompute_indices_two (two : (recomputeVideoMemory v).fbi.rgboffs 2 = noBuffer) :
    (recomputeVideoMemory v).fbi.frontbuf = resetIndex v.fbi.frontbuf ∧
      (recomputeVideoMemory v).fbi.backbuf = resetIndex v.fbi.backbuf :=
  ⟨if_pos two, if_pos two⟩

/-- Valid buffers stay valid in a new layout that has the buffers in use. -/
theorem validBuffers_recompute (valid : ValidBuffers v.fbi)
    (fits : bufferCount v.fbi ≤ bufferCount (recomputeVideoMemory v).fbi) :
    ValidBuffers (recomputeVideoMemory v).fbi := by
  have kept : (recomputeVideoMemory v).fbi.frontbuf = v.fbi.frontbuf ∧
      (recomputeVideoMemory v).fbi.backbuf = v.fbi.backbuf := by
    by_cases two : (recomputeVideoMemory v).fbi.rgboffs 2 = noBuffer
    · obtain ⟨front, back⟩ := recompute_indices_two two
      rw [bufferCount, bufferCount, if_pos two] at fits
      have count : bufferCount v.fbi = 2 := by
        have := two_le_bufferCount v.fbi
        unfold bufferCount at this ⊢
        omega
      rw [front, back]
      exact ⟨resetIndex_of_lt (count ▸ valid.front.below),
        resetIndex_of_lt (count ▸ valid.back.below)⟩
    · exact ⟨if_neg two, if_neg two⟩
  have laid := laidOut_recompute v
  refine ⟨?_, laid.validBuffer ?_, laid.validBuffer ?_⟩
  · rw [kept.1, kept.2]
    exact valid.distinct
  · rw [kept.1]
    exact lt_of_lt_of_le valid.front.below fits
  · rw [kept.2]
    exact lt_of_lt_of_le valid.back.below fits

/-! ### The rotation -/

theorem nextOfThree_toNat (index : UINT8) : (nextOfThree index).toNat = (index.toNat + 1) % 3 := by
  rw [nextOfThree, toNat_ofNat]
  omega

theorem validBuffers_rotate {fbi : FbiState} (laid : LaidOut fbi) (valid : ValidBuffers fbi) :
    ValidBuffers (rotateBuffers fbi) := by
  by_cases two : fbi.rgboffs 2 = noBuffer
  · have below := valid.front.below
    rw [bufferCount, if_pos two] at below
    have index : fbi.frontbuf = 0 ∨ fbi.frontbuf = 1 := by
      have cases : fbi.frontbuf.toNat = 0 ∨ fbi.frontbuf.toNat = 1 := by omega
      exact cases.imp (fun zero => eq_of_toNat_eq zero)
        fun one => eq_of_toNat_eq one
    have laid' : LaidOut (rotateBuffers fbi) := by
      rw [rotateBuffers, if_pos two]
      exact { laid with }
    have count : bufferCount (rotateBuffers fbi) = 2 := by
      rw [rotateBuffers, if_pos two]
      exact if_pos two
    have front : (rotateBuffers fbi).frontbuf = 1 - fbi.frontbuf := by
      rw [rotateBuffers, if_pos two]
    have back : (rotateBuffers fbi).backbuf = 1 - (1 - fbi.frontbuf) := by
      rw [rotateBuffers, if_pos two]
    refine ⟨?_, laid'.validBuffer ?_, laid'.validBuffer ?_⟩
    all_goals
      simp only [front, back, count]
      rcases index with zero | one
    all_goals first | (rw [zero]; decide) | (rw [one]; decide)
  · have laid' : LaidOut (rotateBuffers fbi) := by
      rw [rotateBuffers, if_neg two]
      exact { laid with }
    have count : bufferCount (rotateBuffers fbi) = 3 := by
      rw [rotateBuffers, if_neg two]
      exact if_neg two
    have front : (rotateBuffers fbi).frontbuf = nextOfThree fbi.frontbuf := by
      rw [rotateBuffers, if_neg two]
    have back : (rotateBuffers fbi).backbuf = nextOfThree (nextOfThree fbi.frontbuf) := by
      rw [rotateBuffers, if_neg two]
    refine ⟨?_, laid'.validBuffer ?_, laid'.validBuffer ?_⟩
    · rw [front, back]
      intro equal
      have same := congrArg BitVec.toNat equal
      rw [nextOfThree_toNat (nextOfThree _), nextOfThree_toNat] at same
      omega
    · rw [front, count, nextOfThree_toNat]
      omega
    · rw [back, count, nextOfThree_toNat]
      omega

/-! ## Every run -/

/-- The buffers are valid and laid out, there are two of them, and the registers that could lay
out a third one are locked. -/
structure TwoBuffers (v : VoodooState) : Prop where
  locked : hwInitEnabled v = false
  config : memoryConfig v = 0
  two : v.fbi.rgboffs 2 = noBuffer
  laid : LaidOut v.fbi
  valid : ValidBuffers v.fbi

section

variable (inv : TwoBuffers v)

include inv

theorem TwoBuffers.setReg (data : UINT32) (ne2 : reg ≠ .fbiInit2) (ne5 : reg ≠ .fbiInit5) :
    TwoBuffers (v.setReg reg data) := by
  have same : memoryConfig (v.setReg reg data) = memoryConfig v := by
    simp only [memoryConfig, VoodooState.setReg, update_of_ne ne2.symm, update_of_ne ne5.symm]
  exact { inv with config := same.trans inv.config }

theorem TwoBuffers.display (vblankDontSwap : Bool) (width height : UINT32) :
    TwoBuffers { v with fbi := { v.fbi with vblankDontSwap, width, height } } :=
  { inv with
    laid := { inv.laid with }
    valid := ⟨inv.valid.distinct, { inv.valid.front with }, { inv.valid.back with }⟩ }

theorem TwoBuffers.recompute : TwoBuffers (recomputeVideoMemory v) := by
  have two : (recomputeVideoMemory v).fbi.rgboffs 2 = noBuffer := by
    rw [recompute_two_iff, inv.config]
    decide
  have fits : bufferCount v.fbi ≤ bufferCount (recomputeVideoMemory v).fbi := by
    rw [bufferCount, bufferCount, if_pos inv.two, if_pos two]
  exact ⟨inv.locked, inv.config, two, laidOut_recompute v, validBuffers_recompute inv.valid fits⟩

theorem TwoBuffers.swap : TwoBuffers (voodooSwapBuffers v) := by
  have history : TwoBuffers (v.setReg .fbiSwapHistory (v.reg .fbiSwapHistory <<< 4)) :=
    inv.setReg _ (by decide) (by decide)
  simp only [voodooSwapBuffers]
  split
  · exact inv
  · split
    · have laid : LaidOut (rotateBuffers v.fbi) := by
        rw [rotateBuffers, if_pos inv.two]
        exact ⟨inv.laid.first, inv.laid.second, inv.laid.third⟩
      have two : (rotateBuffers v.fbi).rgboffs 2 = noBuffer := by
        rw [rotateBuffers, if_pos inv.two]
        exact inv.two
      exact ⟨history.locked, history.config, two, laid, validBuffers_rotate inv.laid inv.valid⟩
    · exact history

theorem TwoBuffers.timing (data : UINT32) (ne2 : reg ≠ .fbiInit2) (ne5 : reg ≠ .fbiInit5) :
    TwoBuffers (writeTiming v reg data) := by
  have written := inv.setReg data ne2 ne5
  simp only [writeTiming]
  split
  · have sized := written.display v.fbi.vblankDontSwap
    split
    · exact (sized _ _).recompute
    · exact sized _ _
  · exact written

theorem TwoBuffers.writeRegister (reg : VoodooReg) (fbiChip : Bool) (data : UINT32) :
    TwoBuffers (writeRegister v reg fbiChip data) := by
  have init : ∀ reg, writeInit v reg data = v := fun reg => by
    rw [writeInit, inv.locked]
    rfl
  have init3 : writeInit3 v data = v := by
    rw [writeInit3, inv.locked]
    rfl
  cases reg with
  | swapbufferCMD => exact (inv.display _ v.fbi.width v.fbi.height).swap
  | hSync | vSync | backPorch | videoDimensions =>
    cases fbiChip
    · exact inv
    · exact inv.timing data (by decide) (by decide)
  | fbiInit0 | fbiInit1 | fbiInit2 | fbiInit4 | fbiInit5 | fbiInit6 =>
    simpa [Voodoo.writeRegister, init] using inv
  | fbiInit3 => simpa [Voodoo.writeRegister, init3] using inv
  | fbiInit7 | fbiSwapHistory =>
    cases fbiChip
    · exact inv
    · exact inv.setReg data (by decide) (by decide)
  | other => exact inv

theorem TwoBuffers.apply (op : VoodooOp) : TwoBuffers (op.apply v) := by
  cases op with
  | registerW offset data =>
    change TwoBuffers (registerW v offset data)
    simp only [registerW]
    split
    · exact inv.writeRegister _ _ _
    · exact inv
  | swapBuffers => exact inv.swap
  | activate oglReady | leave => exact { inv with }

theorem TwoBuffers.run (ops : List VoodooOp) : TwoBuffers (runVoodooOps ops v) := by
  induction ops generalizing v with
  | nil => exact inv
  | cons op ops ih => exact ih (inv.apply op)

end

theorem twoBuffers_init (voodoo2 ogl : Bool) (writable : Nat → Bool) :
    TwoBuffers (voodooInit voodoo2 ogl writable) := by
  have config : memoryConfig (voodooInit voodoo2 ogl writable) = 0 := by
    cases voodoo2 <;> simp [voodooInit, recomputeVideoMemory, memoryConfig, field]
  have two : (voodooInit voodoo2 ogl writable).fbi.rgboffs 2 = noBuffer := by
    refine (recompute_two_iff _).mpr ?_
    change ¬ (memoryConfig (voodooInit voodoo2 ogl writable) = 1 ∨
      memoryConfig (voodooInit voodoo2 ogl writable) = 2)
    rw [config]
    decide
  have laid : LaidOut (voodooInit voodoo2 ogl writable).fbi := laidOut_recompute _
  have front : (voodooInit voodoo2 ogl writable).fbi.frontbuf = 0 := (recompute_indices_two two).1
  have back : (voodooInit voodoo2 ogl writable).fbi.backbuf = 1 := (recompute_indices_two two).2
  have locked : hwInitEnabled (voodooInit voodoo2 ogl writable) = false := by
    simp [voodooInit, recomputeVideoMemory, hwInitEnabled, field]
  refine ⟨locked, config, two, laid, ?_, laid.validBuffer ?_, laid.validBuffer ?_⟩
  · rw [front, back]
    decide
  · rw [front, bufferCount, if_pos two]
    decide
  · rw [back, bufferCount, if_pos two]
    decide

end Qemu.Voodoo
