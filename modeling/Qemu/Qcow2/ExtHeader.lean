import Qemu.Lib.BigEndian
import Qemu.Qcow2.Cache

/-!
# Header extensions

`qcow2_update_ext_header` rewrites the backing file name and the backing format behind the header,
without a marker for the end of the extensions.  It is compared with what `qcow2_open` reads back.
-/

namespace Qemu.Qcow2.ExtHeader

open Block Prog List BigEndian Nat

/-- A C string, without its terminating zero. -/
abbrev CString := { chars : List UInt8 // 0 ∉ chars }

/-- The characters behind a pointer, none for a null pointer. -/
def chars (str : Option CString) : List UInt8 := (str.map (·.1)).getD []

/-- The C string in an array. -/
def cString (array : List UInt8) : List UInt8 := array.takeWhile (· ≠ 0)

/-- The first `count` bytes of a buffer. -/
def front (buffer : Buffer) (count : Nat) : List UInt8 := (range count).map buffer

/-- `(n + 7) & ~7`. -/
def roundUp (n : Nat) : Nat := (n + 7) / 8 * 8

/-- `sizeof(QCowHeader)`. -/
def headerSize : Nat := 72

/-- `QCOW2_EXT_MAGIC_BACKING_FORMAT`. -/
def backingFormatMagic : Nat := 0xe2792aca

/-! ## Writing -/

/-- `backing_fmt_len`. -/
def backingFmtLen (backingFmt : Option CString) : Nat :=
  if backingFmt.isSome then roundUp (8 + (chars backingFmt).length) else 0

/-- The extension, the format, its padding and the name, copied to `buf` one after the other. -/
def extBuffer (backingFile backingFmt : Option CString) : Buffer :=
  let ext := overwrite (bytes 4 backingFormatMagic) 4 4
    (bytes 4 (chars backingFmt).length)
  let fmt := overwrite ext 8 (backingFmtLen backingFmt - 8) ((chars backingFmt).getD · 0)
  overwrite fmt (backingFmtLen backingFmt) (chars backingFile).length ((chars backingFile).getD · 0)

def qcow2UpdateExtHeader (g : Geometry) (backingFile backingFmt : Option CString) :
    FileProg Unit := do
  throwIf (backingFmt.isSome ∧ backingFile.isNone) .EINVAL
  let extSize := (chars backingFile).length + backingFmtLen backingFmt
  throwIf (g.clusterSize < headerSize + extSize) .ENOSPC
  let backingFileOffset := if backingFile.isSome then headerSize + backingFmtLen backingFmt else 0
  bdrvPwriteSync .plain headerSize (extBuffer backingFile backingFmt) extSize
  bdrvPwriteSync .plain 8 (bytes 8 backingFileOffset) 8
  bdrvPwriteSync .plain 16 (bytes 4 (chars backingFile).length) 4

/-! ## Reading -/

/-- The result is `bs->backing_format`, or the error number that is returned.  The first argument
bounds the rounds of the loop. -/
def qcow2ReadExtensions : Nat → Nat → Nat → List UInt8 → FileProg (Except Nat (List UInt8))
  | 0, _, _, _ => hang
  | rounds + 1, offset, endOffset, format =>
    if offset < endOffset then do
      match ← attempt (bdrvPread offset) with
      | .error _ => return .error 1
      | .ok ext =>
        let len := read ext 4 4
        let next := roundUp (offset + 8 + len)
        if read ext 4 0 = 0 then return .ok format
        else if read ext 4 0 = backingFormatMagic then
          if 16 ≤ len then return .error 2
          else match ← attempt (bdrvPread (offset + 8)) with
            | .error _ => return .error 3
            | .ok array => qcow2ReadExtensions rounds next endOffset (front array len)
        else qcow2ReadExtensions rounds next endOffset format
    else return .ok format

/-- The part of `qcow2_open` that sets `bs->backing_file` and `bs->backing_format`. -/
def openBacking (g : Geometry) : FileProg (List UInt8 × List UInt8) := do
  let header ← bdrvPread 0
  let backingFileOffset := read header 8 8
  let extEnd := if backingFileOffset ≠ 0 then backingFileOffset else g.clusterSize
  match ← qcow2ReadExtensions (extEnd + 1) headerSize extEnd [] with
  | .error _ => throw .EINVAL
  | .ok format =>
    if backingFileOffset ≠ 0 then
      let array ← bdrvPread backingFileOffset
      return (cString (front array (min (read header 4 16) 1023)), cString format)
    else return ([], cString format)

/-! ## The extensions of a header -/

structure Extension where
  magic : Nat
  data : List UInt8

/-- The extensions between two offsets, up to the first one with magic zero. -/
def extensions (bytes : Buffer) (offset endOffset : Nat) : List Extension :=
  if offset < endOffset ∧ read bytes 4 offset ≠ 0 then
    let len := read bytes 4 (offset + 4)
    ⟨read bytes 4 offset, front (slice bytes (offset + 8)) len⟩ ::
      extensions bytes (roundUp (offset + 8 + len)) endOffset
  else []
termination_by endOffset - offset
decreasing_by simp only [roundUp]; omega

/-- The format after some extensions, if none of the formats is too long. -/
def lastFormat (format : List UInt8) : List Extension → Except Nat (List UInt8)
  | [] => .ok format
  | ext :: rest =>
    if ext.magic = backingFormatMagic then
      if 16 ≤ ext.data.length then .error 2 else lastFormat ext.data rest
    else lastFormat format rest

theorem read_slice (bytes : Buffer) (offset k position : Nat) :
    read (slice bytes offset) k position = read bytes k (offset + position) :=
  read_congr fun i _ => by rw [slice, add_assoc]

theorem read_field {bytes : Buffer} {k position value : Nat}
    (same : ∀ i < k, bytes (position + i) = BigEndian.bytes k value i) :
    read bytes k position = value % 256 ^ k := by
  rw [← read_bytes k k value (le_refl k), Nat.sub_self]
  exact read_congr fun i below => by rw [same i below, zero_add]

theorem length_front (buffer : Buffer) (count : Nat) : (front buffer count).length = count := by
  rw [front, length_map, length_range]

/-- The loop looks at the extensions of the header one after the other. -/
theorem qcow2ReadExtensions_eq {file : BlockFile} {rounds offset endOffset : Nat}
    (quiet : file.faults = []) (enough : endOffset - offset < rounds) (format : List UInt8) :
    qcow2ReadExtensions rounds offset endOffset format file =
      (.ok (lastFormat format (extensions file.bytes offset endOffset)), file) := by
  have fetch (position : Nat) := attempt_of_ok (bdrvPread_ok quiet position)
  induction rounds generalizing offset format with
  | zero => omega
  | succ rounds ih =>
    rw [qcow2ReadExtensions, extensions]
    split
    · next inside =>
      have next_lt : ∀ len, endOffset - roundUp (offset + 8 + len) < rounds := by
        intro len
        rw [roundUp]
        omega
      rw [bind_of_ok (fetch offset)]
      simp only [read_slice, add_zero, inside, true_and]
      split
      · next last => rw [if_neg (not_not.mpr last), lastFormat, pure_apply]
      · rw [lastFormat, length_front]
        split
        · split
          · rfl
          · rw [bind_of_ok (fetch (offset + 8))]
            exact ih (next_lt _) _
        · exact ih (next_lt _) _
    · next outside => simp [outside, lastFormat]

/-- The formats among some extensions. -/
def formats (exts : List Extension) : List Extension := exts.filter (·.magic = backingFormatMagic)

theorem lastFormat_eq_ok {exts : List Extension} {format result : List UInt8} :
    lastFormat format exts = .ok result ↔ (∀ ext ∈ formats exts, ext.data.length < 16) ∧
      ((formats exts).getLast?.map (·.data)).getD format = result := by
  induction exts generalizing format with
  | nil => simp [lastFormat, formats]
  | cons ext rest ih =>
    rw [lastFormat]
    split
    · next isFormat =>
      have cons : formats (ext :: rest) = ext :: formats rest :=
        filter_cons_of_pos (by simpa using isFormat)
      rw [cons, forall_mem_cons, getLast?_cons]
      split
      · next long =>
        simp [not_lt.mpr long]
      · next fits =>
        rw [ih, and_assoc, and_iff_right (Nat.lt_of_not_le fits)]
        cases (formats rest).getLast? <;> rfl
    · next other =>
      have skip : formats (ext :: rest) = formats rest := filter_cons_of_neg (by simpa using other)
      rw [ih, skip]

/-- Only the bytes from the first extension on matter. -/
theorem extensions_congr {bytes bytes' : Buffer} {offset endOffset : Nat}
    (same : ∀ i, offset ≤ i → bytes i = bytes' i) :
    extensions bytes offset endOffset = extensions bytes' offset endOffset := by
  have field : ∀ {start}, (∀ i, start ≤ i → bytes i = bytes' i) → ∀ position, start ≤ position →
      read bytes' 4 position = read bytes 4 position :=
    fun same position behind => read_congr fun i _ => (same _ (by omega)).symm
  fun_induction extensions bytes offset endOffset with
  | case1 offset more len ih =>
    have rest := ih fun i behind => same i (by rw [roundUp] at behind; omega)
    have data : front (slice bytes (offset + 8)) len = front (slice bytes' (offset + 8)) len :=
      map_congr_left fun i _ => same _ (by omega)
    rw [rest, data, extensions.eq_1 bytes' offset, field same offset (by omega),
      field same (offset + 4) (by omega), if_pos more]
  | case2 offset stops => rw [extensions, field same offset (by omega), if_neg stops]

/-! ## Round trip -/

section

variable (backingFile backingFmt : Option CString)

/-- What the update leaves in the header. -/
structure Updated (old new : Buffer) : Prop where
  named : backingFmt.isSome → backingFile.isSome
  buffer : ∀ i < (chars backingFile).length + backingFmtLen backingFmt,
    new (headerSize + i) = extBuffer backingFile backingFmt i
  behind : ∀ i, headerSize + ((chars backingFile).length + backingFmtLen backingFmt) ≤ i →
    new i = old i
  offset : read new 8 8 =
    (if backingFile.isSome then headerSize + backingFmtLen backingFmt else 0) % 256 ^ 8
  size : read new 4 16 = (chars backingFile).length % 256 ^ 4

theorem update_updated (g : Geometry) (file : BlockFile) :
    Ensures (qcow2UpdateExtHeader g backingFile backingFmt) file fun _ after =>
      Updated backingFile backingFmt file.bytes after.bytes := by
  refine ensures_bind.mpr (ensures_throwIf.mpr fun named => ?_)
  refine ensures_bind.mpr (ensures_throwIf.mpr fun _ => ?_)
  refine ensures_bind.mpr fun _ first run => ensures_bind.mpr fun _ second run' _ after run'' => ?_
  rw [bdrvPwriteSync_bytes run'', bdrvPwriteSync_bytes run', bdrvPwriteSync_bytes run, headerSize]
  constructor
  · cases backingFmt <;> cases backingFile <;> simp_all
  · intro i inside
    rw [headerSize, overwrite_outside (by omega), overwrite_outside (by omega),
      overwrite_inside (by omega) (by omega), Nat.add_sub_cancel_left]
  · intro i beyond
    rw [headerSize] at beyond
    rw [overwrite_outside (by omega), overwrite_outside (by omega), overwrite_outside (by omega)]
  · refine read_field fun i below => ?_
    rw [overwrite_outside (by omega), overwrite_inside (by omega) (by omega),
      Nat.add_sub_cancel_left]
    rfl
  · refine read_field fun i below => ?_
    rw [overwrite_inside (by omega) (by omega), Nat.add_sub_cancel_left]

end

theorem front_eq {buffer : Buffer} {list : List UInt8}
    (same : ∀ i < list.length, buffer i = list.getD i 0) : front buffer list.length = list := by
  refine ext_getElem (length_front _ _) fun i _ inside => ?_
  simp only [front, getElem_map, getElem_range, same i inside, getD_eq_getElem?_getD,
    getElem?_eq_getElem inside, Option.getD_some]

theorem cString_chars (str : Option CString) : cString (chars str) = chars str := by
  cases str with
  | none => rfl
  | some str =>
    refine takeWhile_eq_self_iff.mpr fun c member => ?_
    simpa using fun zero : c = 0 => str.2 (zero ▸ member)

theorem openBacking_eq {g : Geometry} {file : BlockFile} {offset : Nat} (quiet : file.faults = [])
    (stored : read file.bytes 8 8 = offset) :
    (openBacking g file).1 =
      match lastFormat [] (extensions file.bytes headerSize
        (if offset ≠ 0 then offset else g.clusterSize)) with
      | .error _ => .error .EINVAL
      | .ok format => .ok (if offset ≠ 0 then cString (front (slice file.bytes offset)
          (min (read file.bytes 4 16) 1023)) else [], cString format) := by
  rw [openBacking, bind_of_ok (bdrvPread_ok quiet 0)]
  simp only [read_slice, zero_add, stored]
  rw [bind_of_ok (qcow2ReadExtensions_eq quiet (by omega) [])]
  generalize lastFormat [] _ = found
  cases found with
  | error code => rfl
  | ok format =>
    dsimp only
    split
    · rw [bind_of_ok (bdrvPread_ok quiet _)]
      rfl
    · rfl

section

variable {backingFile backingFmt : Option CString} {old new : Buffer}
  (updated : Updated backingFile backingFmt old new)

include updated

theorem extensions_updated (short : (chars backingFmt).length < 16) :
    lastFormat [] (extensions new headerSize (headerSize + backingFmtLen backingFmt)) =
      .ok (chars backingFmt) := by
  cases backingFmt with
  | none =>
    rw [extensions, if_neg (by simp [backingFmtLen])]
    rfl
  | some fmt =>
    have len : backingFmtLen (some fmt) = (fmt.1.length + 15) / 8 * 8 := by
      simp only [backingFmtLen, chars, roundUp]
      simp
      omega
    have magic : read new 4 headerSize = backingFormatMagic := by
      refine (read_field fun i below => ?_).trans (mod_eq_of_lt (by decide))
      rw [updated.buffer i (by omega), extBuffer, overwrite_outside (by omega),
        overwrite_outside (by omega), overwrite_outside (by omega)]
    have size : read new 4 (headerSize + 4) = fmt.1.length := by
      refine (read_field fun i below => ?_).trans
        (mod_eq_of_lt (lt_trans short (by decide)))
      rw [add_assoc, updated.buffer _ (by omega), extBuffer, overwrite_outside (by omega),
        overwrite_outside (by omega), overwrite_inside (by omega) (by omega),
        Nat.add_sub_cancel_left]
      rfl
    have data : front (slice new (headerSize + 8)) fmt.1.length = fmt.1 := by
      refine front_eq fun i below => ?_
      rw [slice, add_assoc, updated.buffer _ (by omega), extBuffer,
        overwrite_outside (by omega), overwrite_inside (by omega) (by omega),
        Nat.add_sub_cancel_left]
      rfl
    rw [extensions, if_pos ⟨by omega, by rw [magic]; decide⟩]
    dsimp only
    rw [magic, size, data, extensions, if_neg (by rw [roundUp, len, headerSize]; omega)]
    exact (if_pos rfl).trans (if_neg (not_le.mpr short))

theorem name_updated (short : (chars backingFile).length ≤ 1023) :
    cString (front (slice new (headerSize + backingFmtLen backingFmt))
      (min (read new 4 16) 1023)) = chars backingFile := by
  have size : (chars backingFile).length % 256 ^ 4 = (chars backingFile).length :=
    mod_eq_of_lt (by omega)
  rw [updated.size, size, min_eq_left short, front_eq, cString_chars]
  intro i below
  rw [slice, add_assoc, updated.buffer _ (by omega), extBuffer,
    overwrite_inside (by omega) (by omega), Nat.add_sub_cancel_left]

end

/-- The last format found in the old header is empty, and none is too long. -/
def LeavesNoFormat (g : Geometry) (old : Buffer) : Prop :=
  (∀ ext ∈ formats (extensions old headerSize g.clusterSize), ext.data.length < 16) ∧
    cString (((formats (extensions old headerSize g.clusterSize)).getLast?.map (·.data)).getD []) =
      []

/-- A header that was updated is read back as it was written exactly when there is a backing file,
or the bytes behind the header happen to hold no format. -/
theorem ext_header_round_trip_iff (g : Geometry) (file : BlockFile)
    (backingFile backingFmt : Option CString) (short : (chars backingFile).length ≤ 1023)
    (fmtShort : (chars backingFmt).length < 16) :
    Ensures (qcow2UpdateExtHeader g backingFile backingFmt) file fun _ after =>
      ((openBacking g { after with faults := [] }).1 = .ok (chars backingFile, chars backingFmt) ↔
        backingFile.isSome ∨ LeavesNoFormat g file.bytes) := by
  refine (update_updated backingFile backingFmt g file).mono fun _ after updated => ?_
  rw [@openBacking_eq g { after with faults := [] } _ rfl updated.offset]
  cases backingFile with
  | none =>
    have unformatted : backingFmt = none := by
      cases backingFmt with
      | none => rfl
      | some fmt => exact absurd (updated.named rfl) (by decide)
    subst unformatted
    have same : extensions after.bytes headerSize g.clusterSize =
        extensions file.bytes headerSize g.clusterSize := extensions_congr updated.behind
    simp only [Option.isSome_none, Bool.false_eq_true, if_false, zero_mod, ne_eq, not_true,
      false_or]
    have formats : LeavesNoFormat g file.bytes ↔ ∃ format, lastFormat []
        (extensions file.bytes headerSize g.clusterSize) = .ok format ∧ cString format = [] := by
      simp [LeavesNoFormat, lastFormat_eq_ok, and_assoc]
    rw [same, formats]
    generalize lastFormat [] _ = found
    cases found with
    | error code => simp
    | ok format => simp [chars]
  | some name =>
    have fits : backingFmtLen backingFmt ≤ 24 := by
      rw [backingFmtLen]
      split
      · rw [roundUp]
        omega
      · omega
    have offset : (headerSize + backingFmtLen backingFmt) % 256 ^ 8 =
        headerSize + backingFmtLen backingFmt := mod_eq_of_lt (by rw [headerSize]; omega)
    have present : headerSize + backingFmtLen backingFmt ≠ 0 := by rw [headerSize]; omega
    simp only [Option.isSome_some, if_true, offset, present, ne_eq, not_false_eq_true]
    rw [extensions_updated updated fmtShort, name_updated updated short]
    simp [cString_chars]

/-- An image with the format `raw` behind its header. -/
def formatted : BlockFile where
  bytes i := [0xe2, 0x79, 0x2a, 0xca, 0, 0, 0, 3, 114, 97, 119].getD (i - headerSize) 0
  events := []
  faults := []
  cached := false

theorem named_header_round_trip :
    ∃ after, qcow2UpdateExtHeader ⟨9, by decide, by decide⟩ (some ⟨[97], by decide⟩)
        (some ⟨[113, 99, 111, 119], by decide⟩) formatted = (.ok (), after) ∧
      (openBacking ⟨9, by decide, by decide⟩ { after with faults := [] }).1 =
        .ok ([97], [113, 99, 111, 119]) :=
  ⟨_, rfl, (ext_header_round_trip_iff _ formatted (some ⟨[97], by decide⟩)
    (some ⟨[113, 99, 111, 119], by decide⟩) (by decide) (by decide) () _ rfl).mpr (.inl rfl)⟩

/-- When the backing file is removed, its format stays behind the header. -/
theorem removed_backing_file_keeps_format :
    ∃ after, qcow2UpdateExtHeader ⟨9, by decide, by decide⟩ none none formatted = (.ok (), after) ∧
      (openBacking ⟨9, by decide, by decide⟩ { after with faults := [] }).1 =
        .ok ([], [114, 97, 119]) :=
  ⟨_, rfl, rfl⟩

end Qemu.Qcow2.ExtHeader
