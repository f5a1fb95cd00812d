import Qemu.Lib.Prog

/-!
# The protocol layer below an image format

`BlockFile` is `bs->file` as a format driver sees it: a growable byte string read by `bdrv_pread`
and changed by `bdrv_pwrite`, with `bdrv_flush` as a barrier.  Every request consults a schedule of
faults, and every write and flush is recorded in the order in which it reached the file.
-/

namespace Qemu.Block

open Prog

/-- Error codes returned by the modelled calls, without their sign. -/
inductive Errno where
  | EIO
  | EINVAL
  | ENOENT
  | ENOSPC
  | EFBIG
  deriving DecidableEq, Repr

/-- The `BLKDBG_EVENT` that announces a write request; `plain` where the source announces none. -/
inductive WriteSite where
  | plain
  | l1Update
  | l1GrowWriteTable
  | l1GrowActivateTable
  | l2Update
  | writeAio
  | cowWrite
  | refblockUpdatePart
  | refblockAllocHookup
  | refblockAllocWriteBlocks
  | refblockAllocWriteTable
  | refblockAllocSwitchTable
  deriving DecidableEq, Repr

/-- A change request that reached the file. -/
inductive IoEvent where
  /-- `count` bytes written at `offset`. -/
  | pwrite (site : WriteSite) (offset count : Nat)
  /-- A barrier: every earlier write is stable. -/
  | flush
  deriving DecidableEq, Repr

/-- Byte buffers are addressed from zero; a buffer's length is kept by whoever owns it. -/
abbrev Buffer := Nat → UInt8

/-- State of the protocol-level device under an image. -/
structure BlockFile where
  /-- File content; bytes past the end of the file read as zero. -/
  bytes : Buffer
  /-- Requests completed so far, oldest first. -/
  events : List IoEvent
  /-- Outcome of each request still to come; requests past the end of the list succeed. -/
  faults : List (Option Errno)
  /-- Whether `BDRV_O_CACHE_MASK` bits are set, so that `bdrv_pwrite_sync` needs a flush. -/
  cached : Bool

abbrev FileProg := Prog BlockFile Errno

def overwrite (bytes : Buffer) (offset count : Nat) (source : Buffer) : Buffer := fun position =>
  if offset ≤ position ∧ position < offset + count then source (position - offset)
  else bytes position

/-- The buffer that starts at `offset` of another one. -/
def slice (bytes : Buffer) (offset : Nat) : Buffer := fun position => bytes (offset + position)

/-- Let the schedule decide whether the next request fails. -/
def nextRequest : FileProg Unit := fun file =>
  match file.faults with
  | [] => (.ok (), file)
  | none :: later => (.ok (), { file with faults := later })
  | some code :: later => (.error code, { file with faults := later })

/-- Read from the file; the caller knows how many bytes of the result it asked for. -/
def bdrvPread (offset : Nat) : FileProg Buffer := do
  nextRequest
  let file ← Prog.get
  return slice file.bytes offset

def bdrvPwrite (site : WriteSite) (offset : Nat) (source : Buffer) (count : Nat) :
    FileProg Unit := do
  nextRequest
  Prog.modify fun file =>
    { file with
      bytes := overwrite file.bytes offset count source
      events := file.events ++ [.pwrite site offset count] }

/-- Make all earlier writes stable. -/
def bdrvFlush : FileProg Unit := do
  nextRequest
  Prog.modify fun file => { file with events := file.events ++ [.flush] }

/-- Write and, unless the file is opened with `O_DSYNC`, flush; the flush result is ignored. -/
def bdrvPwriteSync (site : WriteSite) (offset : Nat) (source : Buffer) (count : Nat) :
    FileProg Unit := do
  bdrvPwrite site offset source count
  let file ← Prog.get
  if file.cached then
    let _ ← Prog.attempt bdrvFlush
    return ()
  else
    return ()

section Overwrite

variable {bytes source : Buffer} {offset count position : Nat}

theorem overwrite_inside (lower : offset ≤ position) (upper : position < offset + count) :
    overwrite bytes offset count source position = source (position - offset) := by
  simp [overwrite, lower, upper]

theorem overwrite_outside (outside : position < offset ∨ offset + count ≤ position) :
    overwrite bytes offset count source position = bytes position := by
  rw [overwrite, if_neg]
  omega

end Overwrite

section Bytes

variable {file after : BlockFile}

theorem nextRequest_bytes (file : BlockFile) : (nextRequest file).2.bytes = file.bytes := by
  rw [nextRequest]
  split <;> rfl

theorem bdrvFlush_bytes (file : BlockFile) : (bdrvFlush file).2.bytes = file.bytes := by
  have same := nextRequest_bytes file
  rw [bdrvFlush, bind_apply]
  split <;> simp_all

theorem bdrvPwrite_bytes {site : WriteSite} {offset count : Nat} {source : Buffer}
    (run : bdrvPwrite site offset source count file = (.ok (), after)) :
    after.bytes = overwrite file.bytes offset count source := by
  obtain ⟨_, middle, request, written⟩ := bind_eq_ok.mp run
  have same : middle.bytes = file.bytes := by
    rw [← nextRequest_bytes file, request]
  rw [← same, ← (Prod.mk.inj written).2]

/-- A completed synchronous write changes the content as a plain one does. -/
theorem bdrvPwriteSync_bytes {site : WriteSite} {offset count : Nat} {source : Buffer}
    (run : bdrvPwriteSync site offset source count file = (.ok (), after)) :
    after.bytes = overwrite file.bytes offset count source := by
  obtain ⟨_, middle, write, rest⟩ := bind_eq_ok.mp run
  rw [← bdrvPwrite_bytes write]
  rw [get_bind] at rest
  split at rest
  · obtain ⟨_, last, flush, final⟩ := bind_eq_ok.mp rest
    have kept := bdrvFlush_bytes middle
    rw [← (Prod.mk.inj final).2]
    rcases attempt_eq_ok.mp flush with ⟨_, _, done⟩ | ⟨_, _, done⟩ <;>
    · rw [done] at kept
      exact kept
  · rw [← (Prod.mk.inj rest).2]

end Bytes

section FaultFree

variable {file : BlockFile}

@[simp] theorem nextRequest_ok (quiet : file.faults = []) : nextRequest file = (.ok (), file) := by
  rw [nextRequest, quiet]

@[simp] theorem bdrvPread_ok (quiet : file.faults = []) (offset : Nat) :
    bdrvPread offset file = (.ok (slice file.bytes offset), file) := by
  rw [bdrvPread, bind_of_ok (nextRequest_ok quiet)]
  rfl

def BlockFile.written (file : BlockFile) (site : WriteSite) (offset : Nat) (source : Buffer)
    (count : Nat) : BlockFile :=
  { file with
    bytes := overwrite file.bytes offset count source
    events := file.events ++ [.pwrite site offset count] }

/-- The file after one completed barrier. -/
def BlockFile.flushed (file : BlockFile) : BlockFile :=
  { file with events := file.events ++ [.flush] }

@[simp] theorem bdrvPwrite_ok (quiet : file.faults = []) (site : WriteSite) (offset : Nat)
    (source : Buffer) (count : Nat) :
    bdrvPwrite site offset source count file =
      (.ok (), file.written site offset source count) := by
  rw [bdrvPwrite, bind_of_ok (nextRequest_ok quiet)]
  rfl

@[simp] theorem bdrvFlush_ok (quiet : file.faults = []) :
    bdrvFlush file = (.ok (), file.flushed) := by
  rw [bdrvFlush, bind_of_ok (nextRequest_ok quiet)]
  rfl

end FaultFree

end Qemu.Block
