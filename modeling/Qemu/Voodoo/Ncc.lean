import Qemu.Voodoo.Buffers

/-!
# NCC tables

A texture unit has two tables of packed Y, I and Q values.  `ncc_table_update` expands a table into
256 colours, which textures of the YIQ formats use as their palette.  `dirty` says that a table has
changed since its last expansion, `regdirty` that a texture register has changed since the parameters
were last computed; only `prepare_tmu` looks at both.  The ghost field `written` keeps the value that
was last written to each register of a table.
-/

namespace Qemu.Voodoo

open Function BitVec Option
open Function (update)

local instance neZeroTwo : NeZero 2 := ⟨two_ne_zero⟩

variable {reg : Fin 12 → UINT32} {regnum : Fin 12} {v after : TexState}

structure NccTable where
  dirty : Bool
  reg : Fin 12 → UINT32
  y : Fin 16 → Int
  ir : Fin 4 → Int
  ig : Fin 4 → Int
  ib : Fin 4 → Int
  qr : Fin 4 → Int
  qg : Fin 4 → Int
  qb : Fin 4 → Int
  texel : Fin 256 → UINT32
  written : Fin 12 → UINT32

/-- The registers that `recompute_texture_params` reads, and those of the unused base addresses. -/
inductive TexReg where
  | textureMode | tLOD | tDetail | texBaseAddr | texBaseAddr1 | texBaseAddr2 | texBaseAddr38
  deriving DecidableEq, Repr

/-- What `lookup` points to. -/
inductive Lookup where
  | ncc (table : Fin 2)
  /-- The table of a format that is not a YIQ format. -/
  | format (number : UINT32)
  deriving DecidableEq, Repr

structure TmuState where
  ram : Nat → UINT8
  mask : UINT32
  reg : TexReg → UINT32
  regdirty : Bool
  lodmin : UINT32
  lodmax : UINT32
  lodbias : Int
  lodmask : UINT32
  wmask : UINT32
  hmask : UINT32
  lodoffset : Nat → UINT32
  detailmax : UINT32
  detailbias : Int
  detailscale : UINT32
  ncc : Fin 2 → NccTable
  /-- The table that the entries of `texel` for the YIQ formats point to. -/
  texelNcc : Fin 2
  lookup : Lookup
  palette : UINT32 → UINT32
  palettea : UINT32 → UINT32

/-! ## Tables -/

def makeArgb (a r g b : UINT32) : UINT32 := (a <<< 24) ||| (r <<< 16) ||| (g <<< 8) ||| b

/-- A byte of a register with four packed Y values. -/
def packedY (data : UINT32) (index : Nat) : Int := ((data >>> (8 * index)) &&& 0xff).toNat

/-- `(INT32)(data << shift) >> 23`. -/
def packedIq (data : UINT32) (shift : Nat) : Int := ((data <<< shift).sshiftRight 23).toInt

/-- `CLAMP(value, 0, 255)`. -/
def clampByte (value : Int) : UINT32 :=
  BitVec.ofInt 32 (if value < 0 then 0 else if 255 < value then 255 else value)

/-- The part of `ncc_table_write` that stores a register. -/
def nccStore (n : NccTable) (regnum : Fin 12) (data : UINT32) : NccTable :=
  let n := { n with reg := update n.reg regnum data, dirty := true }
  let index : Fin 4 := ⟨regnum.val % 4, Nat.mod_lt _ (by decide)⟩
  if regnum.val < 4 then
    { n with y := fun i => if i.val / 4 = regnum.val then packedY data (i.val % 4) else n.y i }
  else if regnum.val < 8 then
    { n with
      ir := update n.ir index (packedIq data 5)
      ig := update n.ig index (packedIq data 14)
      ib := update n.ib index (packedIq data 23) }
  else
    { n with
      qr := update n.qr index (packedIq data 5)
      qg := update n.qg index (packedIq data 14)
      qb := update n.qb index (packedIq data 23) }

/-- The write goes to the palette, which the first table only has. -/
def paletteWrite (table : Fin 2) (regnum : Fin 12) (data : UINT32) : Bool :=
  4 ≤ regnum.val && data.msb && table.val == 0

/-- `ncc_table_write`; `voodoo2` says whether there is a palette with alpha. -/
def nccTableWrite (voodoo2 : Bool) (table : Fin 2) (regnum : Fin 12) (data : UINT32)
    (t : TmuState) : TmuState :=
  if paletteWrite table regnum data then
    let index := ((data >>> 23) &&& 0xfe) ||| BitVec.ofNat 32 (regnum.val % 2)
    let a := ((data >>> 16) &&& 0xfc) ||| ((data >>> 22) &&& 0x03)
    let r := ((data >>> 10) &&& 0xfc) ||| ((data >>> 16) &&& 0x03)
    let g := ((data >>> 4) &&& 0xfc) ||| ((data >>> 10) &&& 0x03)
    let b := ((data <<< 2) &&& 0xfc) ||| ((data >>> 4) &&& 0x03)
    { t with
      palette := update t.palette index (0xff000000 ||| data)
      palettea := if voodoo2 then update t.palettea index (makeArgb a r g b)
        else t.palettea }
  else
    let n := t.ncc table
    let n := { n with written := update n.written regnum data }
    let n := if data = n.reg regnum then n else nccStore n regnum data
    { t with ncc := update t.ncc table n }

/-- One colour of an expanded table. -/
def nccColour (y : Fin 16 → Int) (ir ig ib qr qg qb : Fin 4 → Int) (i : Fin 256) : UINT32 :=
  let vi : Fin 4 := ⟨i.val / 4 % 4, Nat.mod_lt _ (by decide)⟩
  let vq : Fin 4 := ⟨i.val % 4, Nat.mod_lt _ (by decide)⟩
  let intensity := y ⟨i.val / 16 % 16, Nat.mod_lt _ (by decide)⟩
  makeArgb 0xff (clampByte (intensity + (ir vi + qr vq))) (clampByte (intensity + (ig vi + qg vq)))
    (clampByte (intensity + (ib vi + qb vq)))

def nccTableUpdate (n : NccTable) : NccTable :=
  { n with texel := nccColour n.y n.ir n.ig n.ib n.qr n.qg n.qb, dirty := false }

/-! ## Texture parameters -/

section

variable (t : TmuState)

def TmuState.format : UINT32 := field (t.reg .textureMode) 8 0xf

def TmuState.nccSelect : Fin 2 :=
  if field (t.reg .textureMode) 5 1 = 0 then 0 else 1

/-- The texture mode selects a YIQ format. -/
def TmuState.usesNcc : Bool := t.format &&& 7 = 1

/-- The entry of `texel` for a format. -/
def TmuState.texel (format : UINT32) : Lookup :=
  if format = 1 ∨ format = 9 then .ncc t.texelNcc else .format format

/-- The size of a level of detail; the small ones take four texels at least. -/
def lodSize (wmask hmask : UINT32) (lod : Nat) : UINT32 :=
  let size := ((wmask >>> lod) + 1) * ((hmask >>> lod) + 1)
  if 3 ≤ lod ∧ size.ult 4 then 4 else size

/-- The base address of a level of detail. -/
def lodBase (base lodmask wmask hmask bppscale : UINT32) : Nat → UINT32
  | 0 => base
  | lod + 1 =>
    let base := lodBase base lodmask wmask hmask bppscale lod
    if lodmask.getLsbD lod then base + (lodSize wmask hmask lod <<< bppscale) else base

/-- A six-bit bias: `(INT8)(value << 2) << shift`. -/
def signedBias (value : UINT32) (shift : Nat) : Int := ((value <<< 2).setWidth 8).toInt * 2 ^ shift

/-- `recompute_texture_params`, up to the check of the filters. -/
def recomputeTextureParams : TmuState :=
  let lod := t.reg .tLOD
  let lodmask := if field lod 19 1 ≠ 0 then if field lod 18 1 = 0 then 0x155 else 0x0aa else 0x1ff
  let wider := field lod 20 1 ≠ 0
  let hmask := if wider then (0xff : UINT32) >>> (field lod 21 3) else 0xff
  let wmask := if wider then 0xff else (0xff : UINT32) >>> (field lod 21 3)
  let bppscale := t.format >>> 3
  let base := (t.reg .texBaseAddr &&& 0x0fffff) <<< 3
  let t := { t with
    lodmin := field lod 0 0x3f <<< 6
    lodmax := field lod 6 0x3f <<< 6
    lodbias := signedBias (field lod 12 0x3f) 4
    lodmask, wmask, hmask
    lodoffset := fun level => lodBase base lodmask wmask hmask bppscale level &&& t.mask
    texelNcc := t.nccSelect
    detailmax := field (t.reg .tDetail) 0 0xff
    detailbias := signedBias (field (t.reg .tDetail) 8 0x3f) 6
    detailscale := field (t.reg .tDetail) 14 7
    regdirty := false }
  { t with lookup := t.texel t.format }

/-- Separate RGBA filters end the emulation. -/
def TmuState.separateFilters : Bool := field (t.reg .tDetail) 21 1 ≠ 0

/-- The part of `prepare_tmu` that concerns the tables; `none` if the emulation ends. -/
def prepareTmu : Option TmuState :=
  if t.regdirty then
    if t.separateFilters then none
    else
      let t := recomputeTextureParams t
      if t.usesNcc then
        let n := t.ncc t.nccSelect
        some { t with
          texelNcc := t.nccSelect
          ncc := update t.ncc t.nccSelect (if n.dirty then nccTableUpdate n else n) }
      else some t
  else some t

/-- Write the low bytes of a value to texture memory. -/
def storeTexture (ram : Nat → UINT8) (address : Nat) (data : UINT32) : Nat → UINT8 := fun i =>
  if address ≤ i ∧ i < address + 4 then (data >>> (8 * (i - address))).setWidth 8 else ram i

/-- `texture_w` for a unit, after its parameters are up to date; `sequential` is the download mode
of the first unit. -/
def textureStore (sequential : Bool) (offset data : UINT32) (t : TmuState) : TmuState :=
  let lod := t.reg .tLOD
  let data := if field lod 25 1 ≠ 0 then
    (data <<< 24) ||| (data >>> 24) ||| ((data &&& 0xff00) <<< 8) ||| ((data &&& 0xff0000) >>> 8)
    else data
  let data := if field lod 26 1 ≠ 0 then (data >>> 16) ||| (data <<< 16) else data
  let level := field offset 15 0xf
  let tt := field offset 7 0xff
  if 8 < level.toNat then t
  else if t.format.ult 8 then
    let ts := if sequential then (offset <<< 2) &&& 0xfc else (offset <<< 1) &&& 0xfc
    let address := t.lodoffset level.toNat + (tt * ((t.wmask >>> level) + 1) + ts)
    { t with ram := storeTexture t.ram (address &&& t.mask).toNat data }
  else
    let ts := (offset <<< 1) &&& 0xfe
    let address := t.lodoffset level.toNat + 2 * (tt * ((t.wmask >>> level) + 1) + ts)
    { t with ram := storeTexture t.ram ((address &&& t.mask) >>> 1 <<< 1).toNat data }

/-- The parameters with which `texture_w` writes. -/
def TmuState.current : TmuState :=
  if t.regdirty then recomputeTextureParams t else t

end

/-- `texture_w` for a unit; a direct write ends the emulation. -/
def textureWrite (sequential : Bool) (offset data : UINT32) (t : TmuState) : Option TmuState :=
  if field (t.reg .tLOD) 27 1 ≠ 0 then none
  else if t.regdirty then
    if t.separateFilters then none
    else some (textureStore sequential offset data (recomputeTextureParams t))
  else some (textureStore sequential offset data t)

/-! ## The chips -/

structure TexState where
  chip : VoodooState
  tmu : Fin 2 → TmuState

def TexReg.ofNum : Nat → Option TexReg
  | 0xc0 => some textureMode
  | 0xc1 => some tLOD
  | 0xc2 => some tDetail
  | 0xc3 => some texBaseAddr
  | 0xc4 => some texBaseAddr1
  | 0xc5 => some texBaseAddr2
  | 0xc6 => some texBaseAddr38
  | _ => none

/-- The table and the register of a table that a register number names: `nccTable` is 0xc9. -/
def nccRegister (regnum : Nat) : Option (Fin 2 × Fin 12) :=
  if inside : 0xc9 ≤ regnum ∧ regnum < 0xc9 + 24 then
    some (⟨(regnum - 0xc9) / 12, by omega⟩, ⟨(regnum - 0xc9) % 12, by omega⟩)
  else none

/-- What a register write does to a texture unit that it addresses. -/
def writeTmu (voodoo2 : Bool) (regnum : Nat) (data : UINT32) (t : TmuState) : TmuState :=
  match TexReg.ofNum regnum, nccRegister regnum with
  | some reg, _ => { t with reg := update t.reg reg data, regdirty := true }
  | none, some (table, reg) => nccTableWrite voodoo2 table reg data t
  | none, none => t

/-- A register write addresses a texture unit. -/
def addressesTmu (v : VoodooState) (offset : UINT32) (unit : Fin 2) : Bool :=
  let selected := field offset 8 0xf
  let chips := (if selected = 0 then 0xf else selected) &&& v.chipmask
  chips.getLsbD (unit.val + 1)

inductive TexOp where
  | registerW (offset data : UINT32)
  | textureW (offset data : UINT32)
  /-- `triangle` with so many texture units: what `triangle_create_work_item` prepares. -/
  | triangle (texcount : Nat)

def TexState.prepare (v : TexState) (unit : Fin 2) : Option TexState :=
  (prepareTmu (v.tmu unit)).map fun t => { v with tmu := update v.tmu unit t }

def TexOp.apply (v : TexState) : TexOp → Option TexState
  | .registerW offset data =>
    let regnum := registerNum v.chip offset
    some {
      chip := Voodoo.registerW v.chip offset data
      tmu := fun unit => if v.chip.writable regnum ∧ addressesTmu v.chip offset unit then
        writeTmu (!v.chip.type.first) regnum data (v.tmu unit) else v.tmu unit }
  | .textureW offset data =>
    let sequential := field ((v.tmu 0).reg .textureMode) 31 1 ≠ 0
    let tmunum := field offset 19 3
    if known : tmunum.toNat < 2 then
      if v.chip.chipmask.getLsbD (tmunum.toNat + 1) then
        (textureWrite sequential offset data (v.tmu ⟨tmunum.toNat, known⟩)).map fun t =>
          { v with tmu := update v.tmu ⟨tmunum.toNat, known⟩ t }
      else some v
    else some v
  | .triangle texcount =>
    if texcount = 0 then some v
    else if texcount = 1 then v.prepare 0
    else v.prepare 0 >>= fun v => v.prepare 1

/-- `init_tmu` for a unit with so much memory. -/
def initTmu (tmem : Nat) : TmuState where
  ram _ := 0
  mask := BitVec.ofNat 32 (tmem - 1)
  reg _ := 0
  regdirty := true
  lodmin := 0
  lodmax := 0
  lodbias := 0
  lodmask := 0
  wmask := 0
  hmask := 0
  lodoffset _ := 0
  detailmax := 0
  detailbias := 0
  detailscale := 0
  ncc _ := { dirty := true, reg := fun _ => 0, y := fun _ => 0, ir := fun _ => 0, ig := fun _ => 0
             ib := fun _ => 0, qr := fun _ => 0, qg := fun _ => 0, qb := fun _ => 0
             texel := fun _ => 0, written := fun _ => 0 }
  texelNcc := 0
  lookup := .format 0
  palette _ := 0
  palettea _ := 0

def initTex (voodoo2 ogl : Bool) (writable : Nat → Bool) : TexState where
  chip := voodooInit voodoo2 ogl writable
  tmu _ := initTmu (4 <<< 20)

inductive TexReachable : TexState → Prop
  | init (voodoo2 ogl : Bool) (writable : Nat → Bool) : TexReachable (initTex voodoo2 ogl writable)
  | step {v after : TexState} (op : TexOp) (reachable : TexReachable v)
      (run : op.apply v = some after) : TexReachable after

/-! ## Current tables -/

/-- The expansion of the values in the registers of a table. -/
def nccExpansion (reg : Fin 12 → UINT32) : Fin 256 → UINT32 :=
  nccColour (fun i => packedY (reg ⟨i.val / 4, by omega⟩) (i.val % 4))
    (fun i => packedIq (reg ⟨4 + i.val, by omega⟩) 5)
    (fun i => packedIq (reg ⟨4 + i.val, by omega⟩) 14)
    (fun i => packedIq (reg ⟨4 + i.val, by omega⟩) 23)
    (fun i => packedIq (reg ⟨8 + i.val, by omega⟩) 5)
    (fun i => packedIq (reg ⟨8 + i.val, by omega⟩) 14)
    (fun i => packedIq (reg ⟨8 + i.val, by omega⟩) 23)

/-- The table holds the values written last, unpacked, and is clean only if it is expanded. -/
structure NccTable.Tracks (n : NccTable) : Prop where
  reg : n.reg = n.written
  y : ∀ i : Fin 16, n.y i = packedY (n.reg ⟨i.val / 4, by omega⟩) (i.val % 4)
  ir : ∀ i : Fin 4, n.ir i = packedIq (n.reg ⟨4 + i.val, by omega⟩) 5
  ig : ∀ i : Fin 4, n.ig i = packedIq (n.reg ⟨4 + i.val, by omega⟩) 14
  ib : ∀ i : Fin 4, n.ib i = packedIq (n.reg ⟨4 + i.val, by omega⟩) 23
  qr : ∀ i : Fin 4, n.qr i = packedIq (n.reg ⟨8 + i.val, by omega⟩) 5
  qg : ∀ i : Fin 4, n.qg i = packedIq (n.reg ⟨8 + i.val, by omega⟩) 14
  qb : ∀ i : Fin 4, n.qb i = packedIq (n.reg ⟨8 + i.val, by omega⟩) 23
  clean : n.dirty = false → n.texel = nccExpansion n.written

/-- The tables track their registers, and the lookup is the one for the texture mode unless the
parameters are out of date. -/
structure TmuState.Tracks (t : TmuState) : Prop where
  ncc : ∀ table, (t.ncc table).Tracks
  lookup : t.regdirty = false → t.texelNcc = t.nccSelect ∧ t.lookup = t.texel t.format

variable {n : NccTable} {t : TmuState}

/-- Updating an unpacked entry is unpacking an updated register. -/
theorem update_unpacked {base : Nat} (fits : base + 3 < 12) {values : Fin 4 → Int} {shift : Nat}
    (tracks : ∀ i, values i = packedIq (reg ⟨base + i.val, by omega⟩) shift) {index : Fin 4}
    (position : regnum.val = base + index.val) {data : UINT32} (i : Fin 4) :
    update values index (packedIq data shift) i =
      packedIq (update reg regnum data ⟨base + i.val, by omega⟩) shift := by
  by_cases same : i = index
  · subst same
    have position : (⟨base + i.val, by omega⟩ : Fin 12) = regnum := Fin.ext position.symm
    rw [update_self, position, update_self]
  · have other : (⟨base + i.val, by omega⟩ : Fin 12) ≠ regnum := by
      intro equal
      have values := congrArg Fin.val equal
      exact same (Fin.ext (by simp only at values; omega))
    rw [update_of_ne same, update_of_ne other, tracks]

/-- A register outside a group of registers does not change what is unpacked from the group. -/
theorem unpacked_of_other {base : Nat} (fits : base + 3 < 12) {values : Fin 4 → Int} {shift : Nat}
    (tracks : ∀ i, values i = packedIq (reg ⟨base + i.val, by omega⟩) shift)
    (outside : regnum.val < base ∨ base + 4 ≤ regnum.val) {data : UINT32} (i : Fin 4) :
    values i = packedIq (update reg regnum data ⟨base + i.val, by omega⟩) shift := by
  have other : (⟨base + i.val, by omega⟩ : Fin 12) ≠ regnum := by
    intro equal
    have values := congrArg Fin.val equal
    simp only at values
    omega
  rw [update_of_ne other, tracks]

theorem packedY_update {y : Fin 16 → Int}
    (tracks : ∀ i, y i = packedY (reg ⟨i.val / 4, by omega⟩) (i.val % 4)) (regnum : Fin 12)
    {data : UINT32} (i : Fin 16) :
    (if i.val / 4 = regnum.val then packedY data (i.val % 4) else y i) =
      packedY (update reg regnum data ⟨i.val / 4, by omega⟩) (i.val % 4) := by
  by_cases same : i.val / 4 = regnum.val
  · have position : (⟨i.val / 4, by omega⟩ : Fin 12) = regnum := Fin.ext same
    rw [if_pos same, position, update_self]
  · have other : (⟨i.val / 4, by omega⟩ : Fin 12) ≠ regnum := fun equal =>
    same (congrArg Fin.val equal)
    rw [if_neg same, update_of_ne other, tracks]

theorem NccTable.Tracks.store (tracks : n.Tracks) {data : UINT32} :
    (nccStore { n with written := update n.written regnum data } regnum data).Tracks := by
  have written : update n.reg regnum data = update n.written regnum data := by
    rw [tracks.reg]
  unfold nccStore
  split
  · exact {
      reg := written
      y := packedY_update tracks.y regnum
      ir := unpacked_of_other (by decide) tracks.ir (by omega)
      ig := unpacked_of_other (by decide) tracks.ig (by omega)
      ib := unpacked_of_other (by decide) tracks.ib (by omega)
      qr := unpacked_of_other (by decide) tracks.qr (by omega)
      qg := unpacked_of_other (by decide) tracks.qg (by omega)
      qb := unpacked_of_other (by decide) tracks.qb (by omega)
      clean := nofun }
  · split
    · have position : regnum.val = 4 + regnum.val % 4 := by omega
      exact {
        reg := written
        y := fun i => by rw [← packedY_update tracks.y, if_neg (by omega)]
        ir := update_unpacked (by decide) tracks.ir position
        ig := update_unpacked (by decide) tracks.ig position
        ib := update_unpacked (by decide) tracks.ib position
        qr := unpacked_of_other (by decide) tracks.qr (by omega)
        qg := unpacked_of_other (by decide) tracks.qg (by omega)
        qb := unpacked_of_other (by decide) tracks.qb (by omega)
        clean := nofun }
    · have position : regnum.val = 8 + regnum.val % 4 := by omega
      exact {
        reg := written
        y := fun i => by rw [← packedY_update tracks.y, if_neg (by omega)]
        ir := unpacked_of_other (by decide) tracks.ir (by omega)
        ig := unpacked_of_other (by decide) tracks.ig (by omega)
        ib := unpacked_of_other (by decide) tracks.ib (by omega)
        qr := update_unpacked (by decide) tracks.qr position
        qg := update_unpacked (by decide) tracks.qg position
        qb := update_unpacked (by decide) tracks.qb position
        clean := nofun }

theorem NccTable.Tracks.expands (tracks : n.Tracks) :
    nccColour n.y n.ir n.ig n.ib n.qr n.qg n.qb = nccExpansion n.written := by
  unfold nccExpansion
  rw [funext tracks.y, funext tracks.ir, funext tracks.ig, funext tracks.ib, funext tracks.qr,
    funext tracks.qg, funext tracks.qb, tracks.reg]

theorem NccTable.Tracks.update (tracks : n.Tracks) : (nccTableUpdate n).Tracks :=
  { tracks with clean := fun _ => tracks.expands }

theorem NccTable.Tracks.write (tracks : n.Tracks) (regnum : Fin 12) (data : UINT32) :
    (if data = n.reg regnum then
      { n with written := Function.update n.written regnum data }
    else nccStore { n with written := Function.update n.written regnum data } regnum data).Tracks := by
  split
  · next same =>
    have unchanged : Function.update n.written regnum data = n.written := by
      rw [same, tracks.reg, update_eq_self]
    rw [unchanged]
    exact tracks
  · exact tracks.store

section

variable (tracks : t.Tracks)

include tracks

theorem TmuState.Tracks.withTable {table : Fin 2} (new : n.Tracks) (other : Fin 2) :
    (update t.ncc table n other).Tracks :=
  (forall_update_iff t.ncc fun _ => NccTable.Tracks).mpr ⟨new, fun other _ => tracks.ncc other⟩ other

theorem TmuState.Tracks.nccTableWrite (voodoo2 : Bool) (table : Fin 2) (regnum : Fin 12)
    (data : UINT32) : (nccTableWrite voodoo2 table regnum data t).Tracks := by
  unfold Voodoo.nccTableWrite
  split
  · exact ⟨tracks.ncc, tracks.lookup⟩
  · exact ⟨tracks.withTable ((tracks.ncc table).write regnum data), tracks.lookup⟩

theorem TmuState.Tracks.writeTmu (voodoo2 : Bool) (regnum : Nat) (data : UINT32) :
    (writeTmu voodoo2 regnum data t).Tracks := by
  unfold Voodoo.writeTmu
  split
  · exact ⟨tracks.ncc, nofun⟩
  · exact tracks.nccTableWrite voodoo2 _ _ data
  · exact tracks

theorem TmuState.Tracks.recompute : (recomputeTextureParams t).Tracks :=
  ⟨tracks.ncc, fun _ => ⟨rfl, rfl⟩⟩

theorem TmuState.Tracks.textureStore (sequential : Bool) (offset data : UINT32) :
    (textureStore sequential offset data t).Tracks := by
  unfold Voodoo.textureStore
  dsimp only
  split
  · exact tracks
  · split <;> exact ⟨tracks.ncc, tracks.lookup⟩

end

theorem textureWrite_run {sequential : Bool} {offset data : UINT32} {after : TmuState}
    (run : textureWrite sequential offset data t = some after) :
    after = textureStore sequential offset data t.current := by
  unfold textureWrite at run
  unfold TmuState.current
  split at run
  · cases run
  · split at run
    · next dirty =>
      split at run
      · cases run
      · rw [if_pos dirty]
        exact (some.inj run).symm
    · next clean =>
      rw [if_neg clean]
      exact (some.inj run).symm

theorem TmuState.Tracks.current (tracks : t.Tracks) : t.current.Tracks := by
  unfold TmuState.current
  split
  · exact tracks.recompute
  · exact tracks

/-- The table that a unit uses after it has been prepared with dirty parameters. -/
def preparedTable (n : NccTable) : NccTable := if n.dirty then nccTableUpdate n else n

theorem NccTable.Tracks.prepared (tracks : n.Tracks) :
    (preparedTable n).Tracks ∧ (preparedTable n).texel = nccExpansion n.written := by
  unfold preparedTable
  split
  · exact ⟨tracks.update, tracks.expands⟩
  · next clean => exact ⟨tracks, tracks.clean (Bool.eq_false_iff.mpr clean)⟩

theorem TmuState.Tracks.prepareTmu (tracks : t.Tracks) {after : TmuState}
    (run : prepareTmu t = some after) : after.Tracks := by
  unfold Voodoo.prepareTmu at run
  split at run
  · split at run
    · cases run
    · dsimp only at run
      split at run
      · obtain rfl := some.inj run
        refine ⟨tracks.recompute.withTable ?_, fun _ => ⟨rfl, rfl⟩⟩
        exact (tracks.recompute.ncc _).prepared.1
      · obtain rfl := some.inj run
        exact tracks.recompute
  · obtain rfl := some.inj run
    exact tracks

theorem packedY_zero (index : Nat) : packedY 0 index = 0 := by simp [packedY]

theorem packedIq_zero (shift : Nat) : packedIq 0 shift = 0 := by simp [packedIq]

theorem initTmu_tracks (tmem : Nat) : (initTmu tmem).Tracks where
  ncc _ := {
    reg := rfl
    y := fun _ => (packedY_zero _).symm
    ir := fun _ => (packedIq_zero 5).symm
    ig := fun _ => (packedIq_zero 14).symm
    ib := fun _ => (packedIq_zero 23).symm
    qr := fun _ => (packedIq_zero 5).symm
    qg := fun _ => (packedIq_zero 14).symm
    qb := fun _ => (packedIq_zero 23).symm
    clean := nofun }
  lookup := nofun

/-- One unit changes, to one whose tables track their registers. -/
theorem tracks_withUnit {v : TexState} (tracks : ∀ unit, (v.tmu unit).Tracks) {unit : Fin 2}
    (new : t.Tracks) (other : Fin 2) : (update v.tmu unit t other).Tracks :=
  (forall_update_iff v.tmu fun _ => TmuState.Tracks).mpr ⟨new, fun other _ => tracks other⟩ other

theorem tracks_prepare (tracks : ∀ unit, (v.tmu unit).Tracks) {unit : Fin 2}
    (run : v.prepare unit = some after) (other : Fin 2) : (after.tmu other).Tracks := by
  obtain ⟨prepared, prepare, rfl⟩ := map_eq_some_iff.mp run
  exact tracks_withUnit tracks ((tracks unit).prepareTmu prepare) other

/-- Every operation keeps the tables and the lookups of both units in step. -/
theorem tracks_step (tracks : ∀ unit, (v.tmu unit).Tracks) {op : TexOp}
    (run : op.apply v = some after) (unit : Fin 2) : (after.tmu unit).Tracks := by
  cases op with
  | registerW offset data =>
    obtain rfl := some.inj run
    dsimp only
    split
    · exact (tracks unit).writeTmu _ _ _
    · exact tracks unit
  | textureW offset data =>
    unfold TexOp.apply at run
    dsimp only at run
    split at run
    · split at run
      · obtain ⟨written, write, rfl⟩ := map_eq_some_iff.mp run
        rw [textureWrite_run write]
        exact tracks_withUnit tracks ((tracks _).current.textureStore _ _ _) unit
      · obtain rfl := some.inj run
        exact tracks unit
    · obtain rfl := some.inj run
      exact tracks unit
  | triangle texcount =>
    unfold TexOp.apply at run
    dsimp only at run
    split at run
    · obtain rfl := some.inj run
      exact tracks unit
    · split at run
      · exact tracks_prepare tracks run unit
      · obtain ⟨middle, first, second⟩ := bind_eq_some_iff.mp run
        exact tracks_prepare (tracks_prepare tracks first) second unit

theorem TexReachable.tracks {v : TexState} (reachable : TexReachable v) (unit : Fin 2) :
    (v.tmu unit).Tracks := by
  induction reachable generalizing unit with
  | init voodoo2 ogl writable => exact initTmu_tracks _
  | step op _ run ih => exact tracks_step ih run unit

/-! ## Draws -/

/-- The palette that a draw reads through `lookup`, if that is an expanded table. -/
def TmuState.drawPalette (t : TmuState) : Option (Fin 256 → UINT32) :=
  match t.lookup with
  | .ncc table => some (t.ncc table).texel
  | .format _ => none

theorem texel_of_usesNcc (yiq : t.usesNcc = true) : t.texel t.format = .ncc t.texelNcc := by
  refine if_pos ?_
  have low : (t.format &&& 7).toNat = 1 := congrArg BitVec.toNat (of_decide_eq_true yiq)
  have small : t.format.toNat ≤ 15 := by
    exact Nat.and_le_right
  have mod : t.format.toNat % 2 ^ 3 = 1 := by
    rw [← Nat.and_two_pow_sub_one_eq_mod]
    exact low
  have cases : t.format.toNat = 1 ∨ t.format.toNat = 9 := by omega
  exact cases.imp (fun one => eq_of_toNat_eq one) fun nine => eq_of_toNat_eq nine

/-- A draw with a YIQ texture uses the expansion of the values written last, if and only if the
parameters are dirty, the selected table is clean, or its old expansion happens to be right. -/
theorem drawPalette_current_iff {v : TexState} (reachable : TexReachable v) {unit : Fin 2}
    (yiq : (v.tmu unit).usesNcc = true) {prepared : TmuState}
    (prepare : prepareTmu (v.tmu unit) = some prepared) :
    prepared.drawPalette = some (nccExpansion ((v.tmu unit).ncc (v.tmu unit).nccSelect).written) ↔
      (v.tmu unit).regdirty = true ∨
        ((v.tmu unit).ncc (v.tmu unit).nccSelect).dirty = false ∨
        ((v.tmu unit).ncc (v.tmu unit).nccSelect).texel =
          nccExpansion ((v.tmu unit).ncc (v.tmu unit).nccSelect).written := by
  have tracks := reachable.tracks unit
  generalize v.tmu unit = t at yiq prepare tracks
  by_cases dirty : t.regdirty = true
  · refine iff_of_true ?_ (Or.inl dirty)
    have recomputed : (recomputeTextureParams t).usesNcc = true := yiq
    have lookup : (recomputeTextureParams t).lookup = .ncc t.nccSelect :=
      texel_of_usesNcc recomputed
    unfold prepareTmu at prepare
    rw [if_pos dirty] at prepare
    split at prepare
    · cases prepare
    · rw [if_pos recomputed] at prepare
      obtain rfl := some.inj prepare
      simp only [lookup]
      have current := (tracks.ncc t.nccSelect).prepared.2
      exact congrArg some ((congrArg NccTable.texel (update_self ..)).trans current)
  · have clean : t.regdirty = false := Bool.eq_false_iff.mpr dirty
    obtain ⟨selected, lookup⟩ := tracks.lookup clean
    rw [texel_of_usesNcc yiq, selected] at lookup
    unfold prepareTmu at prepare
    rw [if_neg dirty] at prepare
    obtain rfl := some.inj prepare
    unfold TmuState.drawPalette
    simp only [lookup, clean, some.injEq, Bool.false_eq_true, false_or]
    exact ⟨Or.inr, fun current => current.elim (tracks.ncc t.nccSelect).clean id⟩

/-- Operations, one after the other. -/
def runTexOps : List TexOp → TexState → Option TexState
  | [], v => some v
  | op :: ops, v => op.apply v >>= runTexOps ops

theorem TexReachable.run (reachable : TexReachable v) {ops : List TexOp}
    (run : runTexOps ops v = some after) : TexReachable after := by
  induction ops generalizing v with
  | nil =>
    obtain rfl := some.inj run
    exact reachable
  | cons op ops ih =>
    obtain ⟨middle, first, rest⟩ := bind_eq_some_iff.mp run
    exact ih (.step op reachable first) rest

/-- A run of the first card with all its registers writable; where the emulation ends, the state it
started in. -/
def texStateAfter (ops : List TexOp) : TexState :=
  (runTexOps ops (initTex false false fun _ => true)).getD (initTex false false fun _ => true)

theorem texStateAfter_reachable {ops : List TexOp}
    (finishes : (runTexOps ops (initTex false false fun _ => true)).isSome = true) :
    TexReachable (texStateAfter ops) := by
  obtain ⟨after, run⟩ := isSome_iff_exists.mp finishes
  have isAfter : texStateAfter ops = after := by rw [texStateAfter, run, getD_some]
  exact (TexReachable.init false false fun _ => true).run (isAfter ▸ run)

/-- A Y value, then the texture mode for the first YIQ format. -/
def tableThenMode : List TexOp := [.registerW 0xc9 0xff, .registerW 0xc0 0x100]

theorem tableThenMode_current :
    ∃ prepared, prepareTmu ((texStateAfter tableThenMode).tmu 0) = some prepared ∧
      prepared.drawPalette =
        some (nccExpansion (((texStateAfter tableThenMode).tmu 0).ncc 0).written) := by
  obtain ⟨prepared, prepare⟩ := isSome_iff_exists.mp
    (by decide : (prepareTmu ((texStateAfter tableThenMode).tmu 0)).isSome = true)
  have reachable : TexReachable (texStateAfter tableThenMode) :=
    texStateAfter_reachable (by decide)
  exact ⟨prepared, prepare,
    (drawPalette_current_iff reachable (by decide) prepare).mpr (Or.inl (by decide))⟩

/-- The palette that the next draw of the first unit gets after a run. -/
def nextPalette (ops : List TexOp) : Option (Fin 256 → UINT32) :=
  prepareTmu ((texStateAfter ops).tmu 0) >>= TmuState.drawPalette

/-- The texture mode, a draw, and only then the Y value. -/
def drawThenTable : List TexOp := [.registerW 0xc0 0x100, .triangle 1, .registerW 0xc9 0xff]

/-- The Y value and the texture mode, then an upload of texels. -/
def tableThenUpload : List TexOp :=
  [.registerW 0xc9 0xff, .registerW 0xc0 0x100, .textureW 0x200000 0]

/-- After the run, the next draw with a YIQ texture gets a wrong first colour. -/
def StaleAfter (ops : List TexOp) : Prop :=
  TexReachable (texStateAfter ops) ∧ ((texStateAfter ops).tmu 0).usesNcc = true ∧
    ∃ palette, nextPalette ops = some palette ∧
      palette 0 ≠ nccExpansion (((texStateAfter ops).tmu 0).ncc 0).written 0

theorem drawThenTable_tableThenUpload_stale :
    StaleAfter drawThenTable ∧ StaleAfter tableThenUpload :=
  ⟨⟨texStateAfter_reachable (by decide), by decide, _, rfl, by decide⟩,
    ⟨texStateAfter_reachable (by decide), by decide, _, rfl, by decide⟩⟩

end Qemu.Voodoo
