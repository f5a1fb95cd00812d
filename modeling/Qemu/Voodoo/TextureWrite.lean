import Qemu.Voodoo.Ncc

/-!
# Texture uploads

`texture_w` masks the address of a texel to the texture memory and then writes four bytes from
there.
-/

namespace Qemu.Voodoo

variable {t : TmuState} {sequential : Bool} {offset data : UINT32}

/-- The first byte that a write to a texture goes to. -/
def TmuState.texelAddress (t : TmuState) (sequential : Bool) (offset : UINT32) : Nat :=
  let level := field offset 15 0xf
  let row := field offset 7 0xff * ((t.wmask >>> level) + 1)
  if t.format.ult 8 then
    let column := if sequential then (offset <<< 2) &&& 0xfc else (offset <<< 1) &&& 0xfc
    ((t.lodoffset level.toNat + (row + column)) &&& t.mask).toNat
  else
    let address := t.lodoffset level.toNat + 2 * (row + ((offset <<< 1) &&& 0xfe))
    ((address &&& t.mask) >>> 1 <<< 1).toNat

/-- The bytes of a word in the order that the unit asks for. -/
def TmuState.swizzle (t : TmuState) (data : UINT32) : UINT32 :=
  let lod := t.reg .tLOD
  let data := if field lod 25 1 ≠ 0 then
    (data <<< 24) ||| (data >>> 24) ||| ((data &&& 0xff00) <<< 8) ||| ((data &&& 0xff0000) >>> 8)
    else data
  if field lod 26 1 ≠ 0 then (data >>> 16) ||| (data <<< 16) else data

theorem textureStore_ram : (textureStore sequential offset data t).ram =
    if 8 < (field offset 15 0xf).toNat then t.ram
    else storeTexture t.ram (t.texelAddress sequential offset) (t.swizzle data) := by
  unfold textureStore TmuState.texelAddress
  dsimp only
  split
  · rfl
  · split <;> rfl

/-- A word of four equal bytes keeps them, whatever their order. -/
theorem swizzle_top (t : TmuState) (byte : UINT8) :
    (t.swizzle (byte ++ byte ++ byte ++ byte) >>> (8 * 3)).setWidth 8 = byte := by
  have kept : ∀ b, let data : UINT32 := b ++ b ++ b ++ b
      ((data <<< 24) ||| (data >>> 24) ||| ((data &&& 0xff00) <<< 8) |||
        ((data &&& 0xff0000) >>> 8)) = data ∧ ((data >>> 16) ||| (data <<< 16)) = data ∧
        (data >>> (8 * 3)).setWidth 8 = b := by
    decide +kernel
  obtain ⟨flipped, swapped, top⟩ := kept byte
  unfold TmuState.swizzle
  simp only [flipped, ite_self, swapped]
  exact top

theorem textureWrite_eq_none : textureWrite sequential offset data t = none ↔
    field (t.reg .tLOD) 27 1 ≠ 0 ∨ (t.regdirty ∧ t.separateFilters) := by
  unfold textureWrite
  split_ifs <;> simp_all only [ne_eq, not_false_eq_true, Bool.false_eq_true, and_self, and_false,
    false_and, or_true, true_or, or_self]

/-- A base address for which the smallest level of detail has the last four bytes. -/
def lastTexels : List TexOp := [.registerW 0xc3 0x7d555]

end Qemu.Voodoo
