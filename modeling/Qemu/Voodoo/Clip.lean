import Qemu.Lib.Scan
import Qemu.Voodoo.Buffers

/-!
# Clipping

Three paths of `hw/voodoo.c` draw pixels inside the clip window: `raster_generic` cuts the span of a
triangle on one line, the pixel pipeline of `lfb_w` tests the pixel, and `fastfill` takes the window
as the rectangle to fill.  The texture, colour and depth parts of the pixel pipeline are left open:
they are what a `Chip` does with a pixel.  A pixel is named by its column and by the line it is drawn
on; the origin of the lines decides which row of the screen that is.
-/

namespace Qemu.Voodoo

open Scan Nat
open BitVec hiding or_comm

variable {v : VoodooState} {y : Int}

/-- The frame buffer holds the auxiliary buffer and small rows. -/
structure Framed (fbi : FbiState) : Prop where
  mask : fbi.mask.toNat < 2 ^ 22
  aux : fbi.auxoffs ≠ noBuffer → fbi.auxoffs.toNat ≤ fbi.mask.toNat
  rowpixels : fbi.rowpixels.toNat ≤ 2 ^ 12

theorem field_le (value : UINT32) (shift : Nat) (mask : UINT32) :
    (field value shift mask).toNat ≤ mask.toNat := by
  exact and_le_right

theorem xTiles_lt (v : VoodooState) : (xTiles v).toNat < 2 ^ 6 := by
  have tiles : (field (v.reg .fbiInit1) 4 0xf).toNat ≤ 15 := field_le _ 4 0xf
  have sixth : (field (v.reg .fbiInit1) 24 1).toNat ≤ 1 := field_le _ 24 1
  have lowest : (field (v.reg .fbiInit6) 30 1).toNat ≤ 1 := field_le _ 30 1
  unfold xTiles
  dsimp only
  split
  · rw [toNat_or, toNat_or, toNat_shiftLeft, toNat_shiftLeft, Nat.shiftLeft_eq, Nat.shiftLeft_eq]
    exact or_lt_two_pow (or_lt_two_pow (by omega) (by omega)) (by omega)
  · omega

theorem Framed.recompute (framed : Framed v.fbi) : Framed (recomputeVideoMemory v).fbi where
  mask := framed.mask
  aux := by
    change clampOffset _ (auxOffset _ _) ≠ _ → (clampOffset _ (auxOffset _ _)).toNat ≤ _
    intro hasAux
    refine le_def.mp (clampOffset_le fun none => hasAux ?_)
    rw [none, clampOffset_noBuffer]
  rowpixels := by
    have tiles := xTiles_lt v
    have tile : (if v.type.first then (64 : UINT32) else 32).toNat ≤ 64 := by
      split <;> decide
    have product := Nat.mul_le_mul tile (le_of_lt tiles)
    exact le_trans (mod_le _ _) product

theorem Framed.swap (framed : Framed v.fbi) : Framed (voodooSwapBuffers v).fbi := by
  have rotated : Framed (rotateBuffers v.fbi) := by
    unfold rotateBuffers
    split <;> exact { framed with }
  unfold voodooSwapBuffers
  dsimp only
  split
  · exact framed
  · split
    · exact rotated
    · exact framed

theorem Framed.writeRegister (framed : Framed v.fbi) (reg : VoodooReg) (fbiChip : Bool)
    (data : UINT32) : Framed (writeRegister v reg fbiChip data).fbi := by
  have guarded : ∀ {condition : Prop} [Decidable condition] {w : VoodooState},
      Framed w.fbi → Framed (if condition then w else v).fbi := by
    intro condition _ w done
    split
    · exact done
    · exact framed
  have timing : ∀ reg, Framed (writeTiming v reg data).fbi := by
    intro reg
    unfold writeTiming
    dsimp only
    split
    · split
      · exact recompute { framed with }
      · exact { framed with }
    · exact framed
  have init : ∀ reg, Framed (writeInit v reg data).fbi := fun reg =>
    guarded (recompute framed)
  cases reg with
  | swapbufferCMD => exact swap { framed with }
  | hSync | vSync | backPorch | videoDimensions => exact guarded (timing _)
  | fbiInit0 | fbiInit1 | fbiInit2 | fbiInit4 => exact guarded (init _)
  | fbiInit5 | fbiInit6 =>
    unfold Voodoo.writeRegister
    dsimp only
    split
    · exact framed
    · exact guarded (init _)
  | fbiInit3 => exact guarded (guarded (recompute { framed with }))
  | fbiInit7 | fbiSwapHistory => exact guarded framed
  | other => exact framed

theorem initFbi_framed {fbmem : Nat} (some : 0 < fbmem) (small : fbmem ≤ 2 ^ 22) :
    Framed (initFbi fbmem) where
  mask := by
    change (BitVec.ofNat 32 (fbmem - 1)).toNat < _
    rw [toNat_ofNat]
    omega
  aux hasAux := absurd rfl hasAux
  rowpixels := by
    change (640 : UINT32).toNat ≤ _
    decide

/-- The registers that decide which pixels are drawn. -/
structure DrawState where
  fbzMode : UINT32
  lfbMode : UINT32
  clipLeftRight : UINT32
  clipLowYHighY : UINT32
  fbi : FbiState
  framed : Framed fbi

structure Pixel where
  x : Int
  y : Int
  deriving DecidableEq, Repr

/-- What happens to a pixel once clipping has let it through. -/
structure Chip (σ : Type) where
  /-- The stipple, depth, chroma key, alpha mask and alpha tests. -/
  test : Pixel → σ → Bool × σ
  /-- `PIXEL_PIPELINE_FINISH`, with the colours that belong to the pixel. -/
  write : Pixel → σ → σ
  /-- A pixel of `raster_fastfill` in the colour buffer. -/
  fillRgb : Pixel → σ → σ
  /-- A pixel of `raster_fastfill` in the auxiliary buffer. -/
  fillAux : Pixel → σ → σ
  /-- A write of `lfb_w` without the pixel pipeline. -/
  raw : Pixel → σ → σ

variable {σ : Type}

def flag (value : UINT32) (bit : Nat) : Bool := field value bit 1 ≠ 0

namespace DrawState

variable (v : DrawState)

def enableClipping : Bool := flag v.fbzMode 0

def rgbBufferMask : Bool := flag v.fbzMode 9

def auxBufferMask : Bool := flag v.fbzMode 10

def drawBuffer : UINT32 := field v.fbzMode 14 3

def yOrigin : Bool := flag v.fbzMode 17

def clipLeft : Int := (field v.clipLeftRight 16 0x3ff).toNat

def clipRight : Int := (field v.clipLeftRight 0 0x3ff).toNat

def clipLowY : Int := (field v.clipLowYHighY 16 0x3ff).toNat

def clipHighY : Int := (field v.clipLowYHighY 0 0x3ff).toNat

/-- `scry`: the row of the screen for a line. -/
def scry (y : Int) : Int :=
  if v.yOrigin then ((v.fbi.yorigin - BitVec.ofInt 32 y) &&& 0x3ff).toNat else y

/-- The clip window: half-open in both directions, in rows of the screen. -/
def InWindow (pixel : Pixel) : Prop :=
  (v.clipLeft ≤ pixel.x ∧ pixel.x < v.clipRight) ∧
    (v.clipLowY ≤ v.scry pixel.y ∧ v.scry pixel.y < v.clipHighY)

instance (pixel : Pixel) : Decidable (v.InWindow pixel) :=
  inferInstanceAs (Decidable ((_ ∧ _) ∧ (_ ∧ _)))

end DrawState

/-! ## Triangles -/

def pixelPipeline (chip : Chip σ) (pixel : Pixel) (s : σ) : σ :=
  let verdict := chip.test pixel s
  if verdict.1 then chip.write pixel verdict.2 else verdict.2

/-- `raster_generic` for one line. -/
def rasterGeneric (v : DrawState) (chip : Chip σ) (y startx stopx : Int) (s : σ) : σ :=
  let scry := v.scry y
  if v.enableClipping then
    if scry < v.clipLowY ∨ v.clipHighY ≤ scry then s
    else
      let startx := if startx < v.clipLeft then v.clipLeft else startx
      let stopx := if v.clipRight ≤ stopx then v.clipRight - 1 else stopx
      loop startx stopx (fun x => pixelPipeline chip ⟨x, y⟩) s
  else loop startx stopx (fun x => pixelPipeline chip ⟨x, y⟩) s

/-- The lines of a triangle and the two edges on each of them, rounded to pixels. -/
structure Triangle where
  v1y : Int
  v3y : Int
  edges : Int → Int × Int

def Triangle.extent (t : Triangle) (y : Int) : Int × Int :=
  let istartx := min (t.edges y).1 (t.edges y).2
  let istopx := max (t.edges y).1 (t.edges y).2
  if istopx ≤ istartx then (0, 0) else (istartx, istopx)

def polyRenderTriangle (v : DrawState) (chip : Chip σ) (t : Triangle) (s : σ) : σ :=
  if t.v3y - t.v1y ≤ 0 then s
  else loop t.v1y t.v3y
    (fun y => rasterGeneric v chip y (t.extent y).1 (t.extent y).2) s

/-- `triangle`: a reserved draw buffer draws nothing. -/
def triangle (v : DrawState) (chip : Chip σ) (t : Triangle) (s : σ) : σ :=
  if v.drawBuffer = 0 ∨ v.drawBuffer = 1 then polyRenderTriangle v chip t s else s

/-! ## Fast fill -/

/-- The row of the auxiliary buffer runs over the end of the frame buffer. -/
def auxOverrun (fbi : FbiState) (scry stopx : Int) : Prop :=
  fbi.mask ≤ fbi.auxoffs + 2 * (BitVec.ofInt 32 scry * fbi.rowpixels + BitVec.ofInt 32 stopx)

instance (fbi : FbiState) (scry stopx : Int) : Decidable (auxOverrun fbi scry stopx) :=
  inferInstanceAs (Decidable (_ ≤ _))

/-- The end of the row of the auxiliary buffer that is still in the frame buffer. -/
def auxStop (fbi : FbiState) (scry stopx : Int) : Int :=
  if auxOverrun fbi scry stopx then
    ((fbi.mask - fbi.auxoffs) / 2 - BitVec.ofInt 32 scry * fbi.rowpixels).toInt
  else stopx

/-- The auxiliary buffer is there and is to be filled. -/
def FillsAux (v : DrawState) : Prop := v.auxBufferMask = true ∧ v.fbi.auxoffs ≠ noBuffer

instance (v : DrawState) : Decidable (FillsAux v) := inferInstanceAs (Decidable (_ ∧ _))

section

variable (v : DrawState)

/-- `raster_fastfill` for one line. -/
def rasterFastfill (chip : Chip σ) (y startx stopx : Int) (s : σ) : σ :=
  let s := if v.rgbBufferMask then
    rowLoop startx stopx (fun x => chip.fillRgb ⟨x, y⟩) s else s
  if FillsAux v then
    let auxStopx := auxStop v.fbi (v.scry y) stopx
    if auxOverrun v.fbi (v.scry y) stopx ∧ (auxStopx < 0 ∨ auxStopx < startx) then s
    else rowLoop startx auxStopx (fun x => chip.fillAux ⟨x, y⟩) s
  else s

/-- `poly_render_triangle_custom` with the same extent on every line. -/
def polyRenderTriangleCustom (chip : Chip σ)
    (startscanline numscanlines startx stopx : Int) (s : σ) : σ :=
  loop startscanline (startscanline + numscanlines)
    (fun y => rasterFastfill v chip y startx stopx) s

/-- The blocks of 64 lines of `fastfill`. -/
def fastfillBlocks (v : DrawState) (chip : Chip σ) (sx ex ey y : Int) (s : σ) : σ :=
  if y < ey then
    fastfillBlocks v chip sx ex ey (y + 64)
      (polyRenderTriangleCustom v chip y (min (ey - y) 64) sx ex s)
  else s
termination_by (ey - y).toNat

def fastfill (v : DrawState) (chip : Chip σ) (s : σ) : σ :=
  if !v.rgbBufferMask && !v.auxBufferMask then s
  else fastfillBlocks v chip v.clipLeft v.clipRight v.clipHighY v.clipLowY s

/-! ## Linear frame buffer -/

/-- The pixels that a write format has, four bits each, and whether the offset counts pairs. -/
def lfbFormat (format : UINT32) : Option (UINT32 × Bool) :=
  match format.toNat with
  | 0 | 1 => some (0x11, true)
  | 2 => some (0x33, true)
  | 4 => some (0x01, false)
  | 5 => some (0x03, false)
  | 12 | 13 => some (0x09, false)
  | 14 => some (0x0b, false)
  | 15 => some (0x44, true)
  | _ => none

def flipEndian (value : UINT32) : UINT32 :=
  (value <<< 24) ||| (value >>> 24) ||| ((value &&& 0xff00) <<< 8) ||| ((value &&& 0xff0000) >>> 8)

/-- The access mask after byte swizzling and word swapping. -/
def lfbAccess (memMask : UINT32) : UINT32 :=
  let swizzled := if flag v.lfbMode 12 then flipEndian memMask else memMask
  if flag v.lfbMode 11 then (swizzled <<< 16) ||| (swizzled >>> 16) else swizzled

/-- Drop the pixels whose half of the data is not written. -/
def lfbMask (access mask : UINT32) : UINT32 :=
  let low := if access &&& 0xffff = 0 then mask &&& ~~~ (0x0f - 8) else mask
  if access &&& 0xffff0000 = 0 then low &&& ~~~ (0xf0 + 8) else low

/-- The loop over up to two pixels. -/
def lfbLoop (body : Int → σ → σ) (mask : Nat) (x : Int) (s : σ) : σ :=
  if mask = 0 then s
  else lfbLoop body (mask / 16) (x + 1) (if mask % 16 ≠ 0 then body x s else s)
termination_by mask

/-- `lfb_w`: where a write goes, if its format and its buffer are not reserved. -/
def lfbTarget (offset memMask : UINT32) : Option (Nat × Pixel) :=
  match lfbFormat (field v.lfbMode 0 0xf) with
  | none => none
  | some (mask, pairs) =>
    let offset := if pairs then offset <<< 1 else offset
    let mask := lfbMask (lfbAccess v memMask) mask
    if field v.lfbMode 4 3 = 0 ∨ field v.lfbMode 4 3 = 1 then
      some (mask.toNat, ⟨(field offset 0 0x3ff).toNat, (field offset 10 0x3ff).toNat⟩)
    else none

/-- One pixel of a pipelined write. -/
def lfbPixel (chip : Chip σ) (y x : Int) (s : σ) : σ :=
  if v.enableClipping = true ∧ (x < v.clipLeft ∨ v.clipRight ≤ x ∨ v.scry y < v.clipLowY ∨
      v.clipHighY ≤ v.scry y) then s
  else pixelPipeline chip ⟨x, y⟩ s

def lfbW (chip : Chip σ) (offset memMask : UINT32) (s : σ) : σ :=
  match lfbTarget v offset memMask with
  | none => s
  | some (mask, pixel) =>
    if flag v.lfbMode 8 then lfbLoop (lfbPixel v chip pixel.y) mask pixel.x s
    else lfbLoop (fun x => chip.raw ⟨x, pixel.y⟩) mask pixel.x s

/-! ## One window for all -/

inductive DrawCommand where
  | triangle (t : Triangle)
  | fastfill
  | lfbW (offset memMask : UINT32)

def DrawCommand.draw (chip : Chip σ) : DrawCommand → σ → σ
  | .triangle t => Voodoo.triangle v chip t
  | .fastfill => Voodoo.fastfill v chip
  | .lfbW offset memMask => Voodoo.lfbW v chip offset memMask

/-- Do something to the pixels of the window only. -/
def clipped (body : Pixel → σ → σ) (y x : Int) (s : σ) : σ :=
  if v.InWindow ⟨x, y⟩ then body ⟨x, y⟩ s else s

/-- A whole line of the screen, as far as it is in the window. -/
def clippedLine (chip : Chip σ) (y : Int) (s : σ) : σ :=
  let s := if v.rgbBufferMask then
    loop 0 1024 (clipped v (fun pixel => chip.fillRgb pixel) y) s else s
  if FillsAux v then
    loop 0 1024 (clipped v (fun pixel s =>
      if pixel.x < auxStop v.fbi (v.scry y) v.clipRight then chip.fillAux pixel s else s) y) s
  else s

/-- What the command should draw: of the pixels of its shape, those in the window go through the
other tests. -/
def DrawCommand.drawClipped (chip : Chip σ) : DrawCommand → σ → σ
  | .triangle t => fun s =>
    if v.drawBuffer = 0 ∨ v.drawBuffer = 1 then
      loop t.v1y t.v3y (fun y => loop (t.extent y).1 (t.extent y).2
        (clipped v (pixelPipeline chip) y)) s
    else s
  | .fastfill => loop 0 1024 (clippedLine v chip)
  | .lfbW offset memMask => fun s =>
    match lfbTarget v offset memMask with
    | none => s
    | some (mask, pixel) =>
      if flag v.lfbMode 8 then lfbLoop (clipped v (pixelPipeline chip) pixel.y) mask pixel.x s
      else lfbLoop (fun x => chip.raw ⟨x, pixel.y⟩) mask pixel.x s

/-- The command draws what it should, whatever the other parts of the chip do. -/
def DrawCommand.Honours (command : DrawCommand) : Prop :=
  ∀ (σ : Type) (chip : Chip σ) (s : σ), command.draw v chip s = command.drawClipped v chip s

end

/-! ## Triangles on a line -/

section
variable (v : DrawState)

def RowInWindow (y : Int) : Prop := v.clipLowY ≤ v.scry y ∧ v.scry y < v.clipHighY

instance (y : Int) : Decidable (RowInWindow v y) := inferInstanceAs (Decidable (_ ∧ _))

/-- Clipping a line pixel by pixel is cutting it at the window. -/
theorem loop_clipped (body : Pixel → σ → σ) (y startx stopx : Int) (s : σ) :
    loop startx stopx (clipped v body y) s =
      if RowInWindow v y then
        loop (max startx v.clipLeft) (min stopx v.clipRight) (fun x => body ⟨x, y⟩) s
      else s := by
  by_cases row : RowInWindow v y
  · rw [if_pos row, ← loop_clip]
    refine loop_congr fun x _ _ => ?_
    funext s
    exact if_congr (and_iff_left row) rfl rfl
  · rw [if_neg row]
    exact loop_skip fun x s _ _ => if_neg fun inside => row inside.2

theorem rasterGeneric_clipping (enabled : v.enableClipping = true) (chip : Chip σ)
    (y startx stopx : Int) (s : σ) :
    rasterGeneric v chip y startx stopx s =
      if RowInWindow v y then
        loop (max startx v.clipLeft) (if v.clipRight ≤ stopx then v.clipRight - 1 else stopx)
          (fun x => pixelPipeline chip ⟨x, y⟩) s
      else s := by
  have first : (if startx < v.clipLeft then v.clipLeft else startx) = max startx v.clipLeft := by
    split <;> omega
  unfold rasterGeneric
  rw [if_pos enabled]
  by_cases row : RowInWindow v y
  · have inside := row
    unfold RowInWindow at inside
    rw [if_pos row, if_neg (by omega), first]
  · have outside := row
    unfold RowInWindow at outside
    rw [if_neg row, if_pos (by omega)]

/-- The span of the triangle does not reach the last column of the window and beyond. -/
def SpanFair (startx stopx : Int) : Prop :=
  max startx v.clipLeft < v.clipRight → stopx < v.clipRight

/-- The line comes out right unless its span covers the last column of the window. -/
theorem rasterGeneric_fair (enabled : v.enableClipping = true) (chip : Chip σ)
    {y startx stopx : Int} (fair : RowInWindow v y → SpanFair v startx stopx) (s : σ) :
    rasterGeneric v chip y startx stopx s =
      loop startx stopx (clipped v (pixelPipeline chip) y) s := by
  rw [rasterGeneric_clipping v enabled, loop_clipped]
  by_cases row : RowInWindow v y
  · by_cases reaches : v.clipRight ≤ stopx
    · have empty : v.clipRight ≤ max startx v.clipLeft := by
        have := fair row
        unfold SpanFair at this
        omega
      rw [loop_empty (by omega), loop_empty (by omega)]
    · rw [if_neg reaches, min_eq_left (by omega)]
  · rw [if_neg row, if_neg row]

/-- A chip that lets every pixel pass and lists the pixels it gets. -/
def recorder : Chip (List Pixel) where
  test _ s := (true, s)
  write pixel s := pixel :: s
  fillRgb pixel s := pixel :: s
  fillAux pixel s := pixel :: s
  raw pixel s := pixel :: s

theorem mem_recorded_line (pixel : Pixel) (y startx stopx : Int) (s : List Pixel) :
    pixel ∈ loop startx stopx (fun x s => (⟨x, y⟩ : Pixel) :: s) s ↔
      pixel ∈ s ∨ (pixel.y = y ∧ startx ≤ pixel.x ∧ pixel.x < stopx) := by
  have records : ∀ (x : Int) (s : List Pixel),
      pixel ∈ (⟨x, y⟩ : Pixel) :: s ↔ pixel ∈ s ∨ pixel = ⟨x, y⟩ := by
    intro x s
    rw [List.mem_cons, or_comm]
  rw [mem_loop records]
  refine or_congr_right ⟨?_, ?_⟩
  · rintro ⟨x, above, below, rfl⟩
    exact ⟨rfl, above, below⟩
  · rintro ⟨rfl, above, below⟩
    exact ⟨pixel.x, above, below, rfl⟩

theorem mem_recorded_row (pixel : Pixel) (y startx stopx : Int) (s : List Pixel) :
    pixel ∈ (if RowInWindow v y then loop startx stopx (fun x s => (⟨x, y⟩ : Pixel) :: s) s
        else s) ↔
      pixel ∈ s ∨ (pixel.y = y ∧ RowInWindow v y ∧ startx ≤ pixel.x ∧ pixel.x < stopx) := by
  by_cases row : RowInWindow v y
  · rw [if_pos row, mem_recorded_line]
    simp only [row, true_and]
  · rw [if_neg row]
    simp only [row, false_and, and_false, or_false]

/-- A triangle is clipped right exactly when none of its lines in the window covers the last column
of the window. -/
theorem triangle_honours_iff (enabled : v.enableClipping = true) (t : Triangle) :
    (DrawCommand.triangle t).Honours v ↔
      (v.drawBuffer = 0 ∨ v.drawBuffer = 1 → ∀ y, t.v1y ≤ y → y < t.v3y → RowInWindow v y →
        SpanFair v (t.extent y).1 (t.extent y).2) := by
  by_cases drawable : v.drawBuffer = 0 ∨ v.drawBuffer = 1
  · have draws : ∀ {σ : Type} (chip : Chip σ) (s : σ),
        (DrawCommand.triangle t).draw v chip s = loop t.v1y t.v3y
          (fun y => rasterGeneric v chip y (t.extent y).1 (t.extent y).2) s := by
      intro σ chip s
      change triangle v chip t s = _
      rw [triangle, if_pos drawable, polyRenderTriangle]
      split
      · rw [loop_empty (by omega)]
      · rfl
    have should : ∀ {σ : Type} (chip : Chip σ) (s : σ),
        (DrawCommand.triangle t).drawClipped v chip s = loop t.v1y t.v3y
          (fun y => loop (t.extent y).1 (t.extent y).2 (clipped v (pixelPipeline chip) y)) s := by
      intro σ chip s
      exact if_pos drawable
    rw [imp_iff_right drawable]
    constructor
    · intro honours y early late row reaches
      by_contra beyond
      have same := honours _ recorder []
      rw [draws, should] at same
      have listed : (⟨v.clipRight - 1, y⟩ : Pixel) ∈ loop t.v1y t.v3y
          (fun y => loop (t.extent y).1 (t.extent y).2
            (clipped v (pixelPipeline recorder) y)) [] := by
        refine (mem_loop (fun y s => (iff_of_eq (congrArg (_ ∈ ·) (loop_clipped v
          (pixelPipeline recorder) y (t.extent y).1 (t.extent y).2 s))).trans
            (mem_recorded_row v _ y _ _ s)) []).mpr (Or.inr ?_)
        refine ⟨y, early, late, rfl, row, ?_, ?_⟩
        · change _ ≤ v.clipRight - 1
          omega
        · change v.clipRight - 1 < _
          omega
      rw [← same, mem_loop (fun y s => (iff_of_eq (congrArg (_ ∈ ·)
        (rasterGeneric_clipping v enabled recorder y (t.extent y).1 (t.extent y).2 s))).trans
          (mem_recorded_row v _ y _ _ s)) []] at listed
      rcases listed with impossible | ⟨y', -, -, same', -, -, short⟩
      · cases impossible
      · exact absurd short (by change ¬ v.clipRight - 1 < _; omega)
    · intro fair σ chip s
      rw [draws, should]
      refine loop_congr fun y early late => ?_
      funext s
      exact rasterGeneric_fair v enabled chip (fair y early late) s
  · refine iff_of_true (fun _ chip s => ?_) fun contrary => absurd contrary drawable
    exact (if_neg drawable).trans (if_neg drawable).symm

/-! ## Fast fill -/

theorem clip_bounds : 0 ≤ v.clipLeft ∧ 0 ≤ v.clipRight ∧ v.clipRight < 1024 ∧ 0 ≤ v.clipLowY ∧
    v.clipHighY < 1024 := by
  have below : ∀ value shift, (field value shift 0x3ff).toNat < 1024 := by
    intro value shift
    exact lt_of_le_of_lt and_le_right (by decide)
  have right := below v.clipLeftRight 0
  have high := below v.clipLowYHighY 0
  unfold DrawState.clipLeft DrawState.clipRight DrawState.clipLowY DrawState.clipHighY
  omega

section

variable (chip : Chip σ)

theorem fastfillBlocks_eq (sx ex ey y : Int) (s : σ) :
    fastfillBlocks v chip sx ex ey y s =
      loop y ey (fun y => rasterFastfill v chip y sx ex) s := by
  fun_induction fastfillBlocks v chip sx ex ey y s with
  | case1 y s more ih =>
    rw [ih, polyRenderTriangleCustom]
    by_cases last : ey - y ≤ 64
    · have whole : y + (ey - y) = ey := by omega
      rw [loop_empty (by omega), min_eq_left last, whole]
    · rw [min_eq_right (by omega), loop_append (by omega) (by omega)]
  | case2 y s done => rw [loop_empty (by omega)]

/-- The cut at the end of the frame buffer never makes a row longer. -/
theorem auxStop_le {fbi : FbiState} (framed : Framed fbi) (hasAux : fbi.auxoffs ≠ noBuffer)
    {scry stopx : Nat} (small : scry < 1024) (narrow : stopx < 1024) :
    auxStop fbi scry stopx ≤ stopx := by
  unfold auxStop
  split
  · next overrun =>
    have aux := framed.aux hasAux
    have rows : scry * fbi.rowpixels.toNat ≤ 1023 * 2 ^ 12 :=
      Nat.mul_le_mul (by omega) framed.rowpixels
    have two : (2 : UINT32).toNat = 2 := rfl
    unfold auxOverrun at overrun
    rw [le_def] at overrun
    simp only [two, ofInt_natCast, toNat_add, toNat_mul, toNat_ofNat,
      toNat_sub, toNat_udiv, toInt_eq_toNat_cond] at overrun ⊢
    rw [mod_eq_of_lt (by omega : scry < 2 ^ 32)] at overrun ⊢
    omega
  · exact le_refl _

theorem scry_lt (above : 0 ≤ y) (below : y < 1024) : ∃ row : Nat, v.scry y = row ∧ row < 1024 := by
  unfold DrawState.scry
  split
  · refine ⟨_, rfl, ?_⟩
    exact lt_of_le_of_lt and_le_right (by decide)
  · exact ⟨y.toNat, by omega, by omega⟩

def fillLine (y startx stopx auxStopx : Int) (s : σ) : σ :=
  let s := if v.rgbBufferMask then
    loop startx stopx (fun x => chip.fillRgb ⟨x, y⟩) s else s
  if FillsAux v then loop startx auxStopx (fun x => chip.fillAux ⟨x, y⟩) s else s

theorem rasterFastfill_eq (y : Int) {startx : Int} (above : 0 ≤ startx)
    (stopx : Int) (s : σ) :
    rasterFastfill v chip y startx stopx s =
      fillLine v chip y startx stopx (auxStop v.fbi (v.scry y) stopx) s := by
  unfold rasterFastfill fillLine
  simp only [rowLoop_eq_loop]
  by_cases fills : FillsAux v
  · rw [if_pos fills, if_pos fills]
    split
    · next cut => exact (loop_empty (by omega)).symm
    · rfl
  · rw [if_neg fills, if_neg fills]

theorem clippedLine_eq (above : 0 ≤ y) (below : y < 1024) (s : σ) :
    clippedLine v chip y s = if RowInWindow v y then
      fillLine v chip y v.clipLeft v.clipRight (auxStop v.fbi (v.scry y) v.clipRight) s else s := by
  obtain ⟨left, right, narrow, -, -⟩ := clip_bounds v
  obtain ⟨row, isRow, small⟩ := scry_lt v above below
  unfold clippedLine
  simp only [loop_clipped]
  by_cases inside : RowInWindow v y
  · simp only [if_pos inside, fillLine]
    rw [max_eq_right left, min_eq_right (le_of_lt narrow)]
    by_cases fills : FillsAux v
    · have shorter : auxStop v.fbi (v.scry y) v.clipRight ≤ v.clipRight := by
        have cut := auxStop_le v.framed fills.2 small (by omega : v.clipRight.toNat < 1024)
        rwa [Int.toNat_of_nonneg right, ← isRow] at cut
      rw [if_pos fills, if_pos fills]
      have cut : ∀ filled, loop v.clipLeft v.clipRight (fun x s =>
          if v.clipLeft ≤ x ∧ x < auxStop v.fbi (v.scry y) v.clipRight then
            chip.fillAux ⟨x, y⟩ s else s) filled =
          loop v.clipLeft (auxStop v.fbi (v.scry y) v.clipRight)
            (fun x => chip.fillAux ⟨x, y⟩) filled := by
        intro filled
        rw [loop_clip, max_eq_right (le_refl _), min_eq_right shorter]
      rw [← cut]
      refine loop_congr fun x first _ => ?_
      funext s
      exact if_congr (and_iff_right first).symm rfl rfl
    · rw [if_neg fills, if_neg fills]
  · simp only [if_neg inside, ite_self]

/-- The line gets at least one pixel. -/
def FillsLine (y : Int) : Prop :=
  (v.rgbBufferMask = true ∧ v.clipLeft < v.clipRight) ∨
    (FillsAux v ∧ v.clipLeft < auxStop v.fbi (v.scry y) v.clipRight)

theorem mem_fillLine (pixel : Pixel) (y startx stopx auxStopx : Int) (s : List Pixel) :
    pixel ∈ fillLine v recorder y startx stopx auxStopx s ↔
      pixel ∈ s ∨ (pixel.y = y ∧ startx ≤ pixel.x ∧
        ((v.rgbBufferMask = true ∧ pixel.x < stopx) ∨ (FillsAux v ∧ pixel.x < auxStopx))) := by
  unfold fillLine
  have rgb : pixel ∈ (if v.rgbBufferMask then
      loop startx stopx (fun x => recorder.fillRgb ⟨x, y⟩) s else s) ↔
      pixel ∈ s ∨ (pixel.y = y ∧ startx ≤ pixel.x ∧ v.rgbBufferMask = true ∧ pixel.x < stopx) := by
    by_cases filled : v.rgbBufferMask = true
    · rw [if_pos filled]
      refine (mem_recorded_line pixel y startx stopx s).trans ?_
      simp only [filled, true_and]
    · simp [filled]
  by_cases fills : FillsAux v
  · simp only [if_pos fills]
    refine (mem_recorded_line pixel y startx auxStopx _).trans ?_
    tauto
  · simp only [if_neg fills]
    rw [rgb]
    simp only [fills, false_and, or_false]

theorem fillLine_idle (idle : ¬ FillsLine v y) (s : σ) :
    fillLine v chip y v.clipLeft v.clipRight (auxStop v.fbi (v.scry y) v.clipRight) s = s := by
  obtain ⟨noRgb, noAux⟩ := not_or.mp idle
  have rgb : (if v.rgbBufferMask then
      loop v.clipLeft v.clipRight (fun x => chip.fillRgb ⟨x, y⟩) s else s) = s := by
    split
    · next masked =>
      have empty := fun wide => noRgb ⟨masked, wide⟩
      exact loop_empty (not_lt.mp empty)
    · rfl
  unfold fillLine
  simp only [rgb]
  split
  · next fills =>
    have empty := fun wide => noAux ⟨fills, wide⟩
    exact loop_empty (not_lt.mp empty)
  · rfl

/-- `fastfill` fills the lines from `clipLowY` to `clipHighY`. -/
theorem fastfill_eq (s : σ) :
    fastfill v chip s = loop 0 1024 (fun y s =>
      if v.clipLowY ≤ y ∧ y < v.clipHighY then
        fillLine v chip y v.clipLeft v.clipRight (auxStop v.fbi (v.scry y) v.clipRight) s
      else s) s := by
  obtain ⟨left, right, -, low, high⟩ := clip_bounds v
  have lines : loop v.clipLowY v.clipHighY
      (fun y => rasterFastfill v chip y v.clipLeft v.clipRight) s =
      loop v.clipLowY v.clipHighY (fun y =>
        fillLine v chip y v.clipLeft v.clipRight (auxStop v.fbi (v.scry y) v.clipRight)) s := by
    refine loop_congr fun y _ _ => ?_
    funext s
    exact rasterFastfill_eq v chip y left v.clipRight s
  rw [loop_clip, max_eq_right low, min_eq_right (le_of_lt high), ← lines, fastfill]
  split
  · next unmasked =>
    rw [Bool.and_eq_true, Bool.not_eq_true', Bool.not_eq_true'] at unmasked
    rw [lines]
    refine (loop_skip fun y s _ _ => fillLine_idle v chip ?_ s).symm
    rintro (⟨rgb, -⟩ | ⟨⟨aux, -⟩, -⟩)
    · exact nomatch unmasked.1.symm.trans rgb
    · exact nomatch unmasked.2.symm.trans aux
  · exact fastfillBlocks_eq v chip _ _ _ _ s

end

/-- The lines that `fastfill` fills are those that go to rows of the window. -/
def FillFair : Prop :=
  ∀ y, 0 ≤ y → y < 1024 → FillsLine v y → (v.clipLowY ≤ y ∧ y < v.clipHighY ↔ RowInWindow v y)

theorem fastfill_honours_iff : DrawCommand.fastfill.Honours v ↔ FillFair v := by
  have should : ∀ {σ : Type} (chip : Chip σ) (s : σ),
      DrawCommand.fastfill.drawClipped v chip s = loop 0 1024 (fun y s =>
        if RowInWindow v y then
          fillLine v chip y v.clipLeft v.clipRight (auxStop v.fbi (v.scry y) v.clipRight) s
        else s) s := by
    intro σ chip s
    refine loop_congr fun y above below => ?_
    funext s
    exact clippedLine_eq v chip above below s
  constructor
  · intro honours y above below fills
    have same := honours _ recorder []
    rw [should] at same
    have same := (fastfill_eq v recorder []).symm.trans same
    have first : ∀ (inside : Int → Prop) [DecidablePred inside],
        (⟨v.clipLeft, y⟩ : Pixel) ∈ loop 0 1024 (fun y s => if inside y then
          fillLine v recorder y v.clipLeft v.clipRight (auxStop v.fbi (v.scry y) v.clipRight) s
          else s) [] ↔ inside y := by
      intro inside _
      have records : ∀ (line : Int) (s : List Pixel), (⟨v.clipLeft, y⟩ : Pixel) ∈
          (if inside line then fillLine v recorder line v.clipLeft v.clipRight
            (auxStop v.fbi (v.scry line) v.clipRight) s else s) ↔
          (⟨v.clipLeft, y⟩ : Pixel) ∈ s ∨ (y = line ∧ inside line ∧ FillsLine v line) := by
        intro line s
        by_cases drawn : inside line
        · rw [if_pos drawn, mem_fillLine]
          simp [drawn, FillsLine]
        · simp [drawn]
      rw [mem_loop records]
      constructor
      · rintro (impossible | ⟨line, -, -, rfl, drawn, -⟩)
        · cases impossible
        · exact drawn
      · intro drawn
        exact Or.inr ⟨y, above, below, rfl, drawn, fills⟩
    rw [← first fun y => v.clipLowY ≤ y ∧ y < v.clipHighY, same, first]
  · intro fair σ chip s
    rw [should]
    refine (fastfill_eq v chip s).trans (loop_congr fun y above below => ?_)
    funext s
    by_cases fills : FillsLine v y
    · exact if_congr (fair y above below fills) rfl rfl
    · rw [fillLine_idle v chip fills, ite_self, ite_self]

/-! ## Linear frame buffer -/

theorem lfbW_honours (enabled : v.enableClipping = true) (offset memMask : UINT32) :
    (DrawCommand.lfbW offset memMask).Honours v := by
  intro σ chip s
  have pixel : ∀ y, lfbPixel v chip y = clipped v (pixelPipeline chip) y := by
    intro y
    funext x s
    have inside : v.InWindow ⟨x, y⟩ ↔ ¬ (x < v.clipLeft ∨ v.clipRight ≤ x ∨
        v.scry y < v.clipLowY ∨ v.clipHighY ≤ v.scry y) := by
      unfold DrawState.InWindow
      dsimp only
      omega
    unfold lfbPixel clipped
    simp only [enabled, true_and, inside, ite_not]
  simp only [DrawCommand.draw, DrawCommand.drawClipped, lfbW, pixel]

/-- What each path needs to keep to the window. -/
def DrawCommand.Fair : DrawCommand → Prop
  | .triangle t => v.drawBuffer = 0 ∨ v.drawBuffer = 1 → ∀ y, t.v1y ≤ y → y < t.v3y →
      RowInWindow v y → SpanFair v (t.extent y).1 (t.extent y).2
  | .fastfill => FillFair v
  | .lfbW _ _ => True

/-- A window of ten columns and ten rows, with clipping and the colour buffer enabled. -/
def tenByTen (fbzMode : UINT32) : DrawState where
  fbzMode := fbzMode ||| 0x201
  lfbMode := 0
  clipLeftRight := 10
  clipLowYHighY := 10
  fbi := { initFbi (4 <<< 20) with yorigin := 100 }
  framed := by
    have framed : Framed (initFbi (4 <<< 20)) := initFbi_framed (by decide) (by decide)
    exact ⟨framed.mask, framed.aux, framed.rowpixels⟩

/-- A rectangle of lines with the same span. -/
def block (startx stopx : Int) : Triangle := ⟨0, 4, fun _ => (startx, stopx)⟩

end

end Qemu.Voodoo
