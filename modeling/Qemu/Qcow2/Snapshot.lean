import Qemu.Qcow2.TableGrowth

/-!
# Snapshots

This file embeds how `block/qcow2-snapshot.c` adds a snapshot to an image and writes the table of
all snapshots.  The refcount functions are programs over the rest of the driver state.
-/

namespace Qemu.Qcow2.Snapshot

open Block Prog

/-- A snapshot; its strings are kept without the terminating zero. -/
structure QCowSnapshot where
  l1TableOffset : BitVec 64
  l1Size : BitVec 32
  idStr : List UInt8
  name : List UInt8
  vmStateSize : BitVec 32
  dateSec : BitVec 32
  dateNsec : BitVec 32
  vmClockNsec : BitVec 64
  deriving DecidableEq

structure QEMUSnapshotInfo where
  idStr : List UInt8
  name : List UInt8
  vmStateSize : BitVec 32
  dateSec : BitVec 32
  dateNsec : BitVec 32
  vmClockNsec : BitVec 64

/-- The part of `BDRVQcowState` on which the snapshot functions work. -/
structure SnapshotState extends BDRVQcowState where
  l1TableOffset : Nat
  /-- `snapshots`, whose length is `nb_snapshots`. -/
  snapshots : List QCowSnapshot
  snapshotsOffset : Nat
  snapshotsSize : Int

/-- Programs which return a negative number on failure. -/
abbrev SnapshotProg := Prog SnapshotState Int

/-- The functions of `block/qcow2-refcount.c` that are called. -/
structure RefcountFunctions where
  updateSnapshotRefcount : (l1TableOffset l1Size : Nat) → (addend : Int) → QcowProg Unit
  allocClusters : (size : Int) → QcowProg Nat
  freeClusters : (offset : Nat) → (size : Int) → QcowProg Unit

/-- `-errno`. -/
def negative : Errno → Int
  | .EINVAL => -22
  | .ENOENT => -2
  | .ENOSPC => -28
  | .EFBIG => -27
  | _ => -5

/-- A call which works on the rest of the driver state; `fail` is what the caller returns if it
fails. -/
def call {α : Type} (program : QcowProg α) (fail : Errno → Int) : SnapshotProg α := fun s =>
  let (outcome, driver) := program s.toBDRVQcowState
  (match outcome with
    | .ok value => .ok value
    | .error code => .error (fail code)
    | .abort => .abort
    | .hang => .hang,
   { s with toBDRVQcowState := driver })

/-- A call whose result is ignored. -/
def run {α : Type} (program : QcowProg α) : SnapshotProg Unit := do
  let _ ← call (attempt program) negative

def pwriteSync (offset : Nat) (source : Buffer) (count : Nat) : SnapshotProg Unit :=
  call (onCaches (onFile (bdrvPwriteSync .plain offset source count))) fun _ => -1

/-! ## The table -/

def alignOffset (offset n : Nat) : Nat := (offset + n - 1) / n * n

/-- Position, width and value of the fields of a `QCowSnapshotHeader`. -/
def QCowSnapshot.fields (sn : QCowSnapshot) : List (Nat × Nat × Nat) :=
  [(0, 8, sn.l1TableOffset.toNat), (8, 4, sn.l1Size.toNat), (32, 4, sn.vmStateSize.toNat),
    (16, 4, sn.dateSec.toNat), (20, 4, sn.dateNsec.toNat), (24, 8, sn.vmClockNsec.toNat),
    (12, 2, sn.idStr.length), (14, 2, sn.name.length)]

/-- The header of a snapshot as it is stored. -/
def QCowSnapshot.header (sn : QCowSnapshot) : Buffer :=
  sn.fields.foldl (fun h field => overwrite h field.1 field.2.1
    (BigEndian.bytes field.2.1 field.2.2)) fun _ => 0

/-- `sizeof(QCowSnapshotHeader)`. -/
def headerSize : Nat := 40

def recordEnd (offset : Nat) (sn : QCowSnapshot) : Nat :=
  alignOffset offset 8 + headerSize + sn.idStr.length + sn.name.length

def writeRecords : Nat → List QCowSnapshot → SnapshotProg Unit
  | _, [] => pure ()
  | offset, sn :: rest => do
      let start := alignOffset offset 8
      pwriteSync start sn.header headerSize
      pwriteSync (start + headerSize) (sn.idStr.getD · 0) sn.idStr.length
      pwriteSync (start + headerSize + sn.idStr.length) (sn.name.getD · 0) sn.name.length
      writeRecords (recordEnd offset sn) rest

def qcow2WriteSnapshots (refcounts : RefcountFunctions) : SnapshotProg Unit := do
  let s ← get
  let snapshotsSize := (BitVec.ofNat 32 (s.snapshots.foldl recordEnd 0)).toInt
  let snapshotsOffset ← call (do
    let offset ← attempt (refcounts.allocClusters snapshotsSize)
    let _ ← attempt (onCaches (onFile bdrvFlush))
    inspect fun _ => offset) negative
  writeRecords snapshotsOffset s.snapshots
  pwriteSync 64 (BigEndian.bytes 8 snapshotsOffset) 8
  pwriteSync 60 (BigEndian.bytes 4 s.snapshots.length) 4
  run (refcounts.freeClusters s.snapshotsOffset s.snapshotsSize)
  modify fun s => { s with snapshotsOffset, snapshotsSize }

/-! ## A new snapshot -/

/-- `strtoul` in base ten, with a `long` of 32 bits. -/
def strtoul (str : List UInt8) : Nat :=
  let str := str.dropWhile fun c => c = 32 ∨ 9 ≤ c ∧ c ≤ 13
  let digits := if str.head? = some 43 ∨ str.head? = some 45 then str.tail else str
  let value := (digits.takeWhile fun c => 48 ≤ c ∧ c ≤ 57).foldl
    (fun value c => value * 10 + (c.toNat - 48)) 0
  if 2 ^ 32 ≤ value then 2 ^ 32 - 1
  else if str.head? = some 45 then (2 ^ 32 - value) % 2 ^ 32 else value

/-- `find_new_snapshot_id`, with `int` numbers. -/
def findNewSnapshotId (snapshots : List QCowSnapshot) : List UInt8 :=
  let idMax := snapshots.foldl
    (fun idMax sn => max idMax (BitVec.ofNat 32 (strtoul sn.idStr)).toInt) 0
  (toString (BitVec.ofInt 32 (idMax + 1)).toInt).toUTF8.toList

/-- `qcow2_snapshot_create` up to the copy of the list: the new snapshot, whose L1 table has been
written. -/
def prepareSnapshot (refcounts : RefcountFunctions) (info : QEMUSnapshotInfo) :
    SnapshotProg QCowSnapshot := do
  let s ← get
  let idStr := if info.idStr = [] then findNewSnapshotId s.snapshots else info.idStr
  throwIf (idStr ∈ s.snapshots.map (·.idStr)) (negative .ENOENT)
  call (refcounts.updateSnapshotRefcount s.l1TableOffset s.l1Table.length 1) fun _ => -1
  let l1TableOffset ← call (refcounts.allocClusters (s.l1Table.length * 8)) fun _ => -1
  run (onCaches (onFile bdrvFlush))
  let s ← get
  pwriteSync l1TableOffset (TableGrowth.storedTable (s.l1Table.map (·.toNat)))
    (s.l1Table.length * 8)
  return { idStr, name := info.name, l1TableOffset := BitVec.ofNat 64 l1TableOffset
           l1Size := BitVec.ofNat 32 s.l1Table.length, vmStateSize := info.vmStateSize
           dateSec := info.dateSec, dateNsec := info.dateNsec, vmClockNsec := info.vmClockNsec }

/-- The list with one more snapshot. -/
def SnapshotState.add (s : SnapshotState) (sn : QCowSnapshot) : SnapshotState :=
  { s with snapshots := s.snapshots ++ [sn] }

def qcow2SnapshotCreate (refcounts : RefcountFunctions) (info : QEMUSnapshotInfo) :
    SnapshotProg Unit := do
  let sn ← prepareSnapshot refcounts info
  modify (·.add sn)
  match ← attempt (qcow2WriteSnapshots refcounts) with
  | .ok _ => pure ()
  | .error _ => throw (-1)

/-! ## The list in memory -/

section Keeps

variable {α β : Type} {refcounts : RefcountFunctions}

/-- The program does not touch the list. -/
def Keeps (program : SnapshotProg α) : Prop := ∀ s, (program s).2.snapshots = s.snapshots

theorem keeps_pure (value : α) : Keeps (pure value) := fun _ => rfl

theorem keeps_get : Keeps get := fun _ => rfl

theorem keeps_call {program : QcowProg α} {fail : Errno → Int} : Keeps (call program fail) :=
  fun _ => rfl

theorem Keeps.bind {first : SnapshotProg α} {next : α → SnapshotProg β} (keeps : Keeps first)
    (later : ∀ value, Keeps (next value)) : Keeps (first >>= next) := by
  intro s
  have same := keeps s
  rw [bind_apply]
  split
  · next value after run =>
    rw [later value after, ← same, run]
  · next run => rw [← same, run]
  · next run => rw [← same, run]
  · next run => rw [← same, run]

theorem keeps_throwIf {bad : Prop} [Decidable bad] {code : Int} :
    Keeps (throwIf bad code : SnapshotProg Unit) := by
  intro s
  rw [throwIf]
  split <;> rfl

theorem keeps_run {program : QcowProg α} : Keeps (run program) :=
  keeps_call.bind fun _ => keeps_pure _

theorem keeps_writeRecords {offset : Nat} {records : List QCowSnapshot} :
    Keeps (writeRecords offset records) := by
  induction records generalizing offset with
  | nil => exact keeps_pure ()
  | cons sn rest ih =>
    exact keeps_call.bind fun _ => keeps_call.bind fun _ =>
      keeps_call.bind fun _ => ih

theorem keeps_qcow2WriteSnapshots : Keeps (qcow2WriteSnapshots refcounts) :=
  keeps_get.bind fun _ => keeps_call.bind fun _ => keeps_writeRecords.bind fun _ =>
    keeps_call.bind fun _ => keeps_call.bind fun _ => keeps_run.bind fun _ _ => rfl

theorem keeps_prepareSnapshot (info : QEMUSnapshotInfo) : Keeps (prepareSnapshot refcounts info) :=
  keeps_get.bind fun _ => keeps_throwIf.bind fun _ => keeps_call.bind fun _ =>
    keeps_call.bind fun _ => keeps_run.bind fun _ => keeps_get.bind fun _ =>
      keeps_call.bind fun _ => keeps_pure _

end Keeps

/-- Everything succeeds until the new list is in place, and then the table cannot be written. -/
def FailsLate (refcounts : RefcountFunctions) (info : QEMUSnapshotInfo) (s : SnapshotState) : Prop :=
  ∃ sn prepared code after, prepareSnapshot refcounts info s = (.ok sn, prepared) ∧
    qcow2WriteSnapshots refcounts (prepared.add sn) = (.error code, after)

/-- A failed creation keeps the list exactly when no step fails after the list has been replaced. -/
theorem failed_create_keeps_iff (refcounts : RefcountFunctions) (info : QEMUSnapshotInfo)
    (s : SnapshotState) :
    (∀ code after, qcow2SnapshotCreate refcounts info s = (.error code, after) →
      after.snapshots = s.snapshots) ↔ ¬ FailsLate refcounts info s := by
  have kept := @keeps_prepareSnapshot refcounts info s
  rw [FailsLate, qcow2SnapshotCreate, bind_apply]
  rcases prepared : prepareSnapshot refcounts info s with ⟨sn | code | _ | _, middle⟩
  · rw [prepared] at kept
    have kept' := @keeps_qcow2WriteSnapshots refcounts (middle.add sn)
    simp only [bind_apply, modify_apply, attempt]
    rcases written : qcow2WriteSnapshots refcounts (middle.add sn) with ⟨_ | code | _ | _, after⟩
    · simp [written]
    · rw [written] at kept'
      refine iff_of_false (fun keeps => ?_) fun late => late ⟨sn, middle, code, after, rfl, written⟩
      have same := keeps (-1) after rfl
      rw [← kept, kept'] at same
      exact absurd (congrArg List.length same) (by simp [SnapshotState.add])
    · simp [written]
    · simp [written]
  · rw [prepared] at kept
    simpa using kept
  · simp
  · simp

def freeRefcounts : RefcountFunctions where
  updateSnapshotRefcount _ _ _ := pure ()
  allocClusters _ := pure 512
  freeClusters _ _ := pure ()

/-- An image without snapshots, whose fourth request will fail. -/
def noSnapshots : SnapshotState where
  caches := ⟨⟨fun _ => 0, [], [none, none, none, some .ENOSPC], false⟩,
    qcow2CacheCreate 16 false fun _ _ => 0, qcow2CacheCreate 4 false fun _ _ => 0⟩
  l1Table := []
  refcountTable := []
  refcountTableOffset := 0
  freeClusterIndex := 0
  l1TableOffset := 0
  snapshots := []
  snapshotsOffset := 0
  snapshotsSize := 0

theorem failed_create_adds_snapshot :
    (qcow2SnapshotCreate freeRefcounts ⟨[49], [], 0, 0, 0, 0⟩ noSnapshots).1 = .error (-1) ∧
      (qcow2SnapshotCreate freeRefcounts ⟨[49], [], 0, 0, 0, 0⟩ noSnapshots).2.snapshots.length = 1 := by
  decide

end Qemu.Qcow2.Snapshot
