import Qemu.Block.Iovec

/-!
# Batched writes

`bdrv_aio_multiwrite` sorts a batch of write requests by start sector, merges neighbours and submits
what is left.  The submitted requests run at the same time: their sectors reach the disk in any
order, and each may complete while later ones are still being submitted.
-/

namespace Qemu.Block

variable {ω : Type}

def iovMax : Nat := 1024

/-- `BlockRequest`.  The handle stands for the callback and its argument. -/
structure BlockRequest (ω : Type) where
  sector : Int
  nbSectors : Int
  qiov : QemuIovec (BitVec 8)
  handle : ω
  deriving DecidableEq, Repr

namespace BlockRequest

/-- The request writes a sector. -/
def Covers (req : BlockRequest ω) (x : Int) : Prop :=
  req.sector ≤ x ∧ x < req.sector + req.nbSectors

instance (req : BlockRequest ω) (x : Int) : Decidable (req.Covers x) :=
  inferInstanceAs (Decidable (_ ∧ _))

/-- What the request writes to a sector. -/
def data (req : BlockRequest ω) (x : Int) : List (BitVec 8) :=
  (req.qiov.bytes.drop ((x - req.sector).toNat * 512)).take 512

def sectors (req : BlockRequest ω) : List Int :=
  (List.range req.nbSectors.toNat).map fun i : Nat => req.sector + (i : Int)

end BlockRequest

def multiwriteReqCompare (req1 req2 : BlockRequest ω) : Int :=
  if req2.sector < req1.sector then 1 else if req1.sector < req2.sector then -1 else 0

/-- What `qsort` may make of an array: requests that compare equal come in any order. -/
def Qsort (reqs sorted : List (BlockRequest ω)) : Prop :=
  sorted.Perm reqs ∧ sorted.Pairwise fun a b => multiwriteReqCompare a b ≤ 0

/-- `bdrv_merge_requests` of the driver, if it has one. -/
abbrev MergeRequests (ω : Type) := Option (BlockRequest ω → BlockRequest ω → Bool)

variable (driver : MergeRequests ω) (out next : BlockRequest ω)

/-- Whether `multiwrite_merge` merges a request into the one before it. -/
def mergeable : Bool :=
  let merge := decide (next.sector ≤ out.sector + out.nbSectors)
  let merge := merge || driver.any fun mergeRequests => mergeRequests out next
  merge && decide (out.qiov.niov + next.qiov.niov + 1 ≤ iovMax)

/-- The vector of the merged request: the first up to the start of the second, zeros for a gap, and
the second. -/
def mergedQiov : QemuIovec (BitVec 8) :=
  let size := (((next.sector - out.sector) * 512) % 2 ^ 32).toNat
  let oldreqLast := out.sector + out.nbSectors
  let qiov := QemuIovec.init.concat out.qiov size
  let qiov :=
    if oldreqLast < next.sector then
      qiov.add (List.replicate (((next.sector - oldreqLast) * 512) % 2 ^ 32).toNat 0)
    else qiov
  qiov.concat next.qiov next.qiov.size

def mergeInto : BlockRequest ω :=
  { out with
    nbSectors := (mergedQiov out next).size / 512
    qiov := mergedQiov out next }

/-- `reqs[0 .. outidx)` and `reqs[outidx]` after one round of the loop of `multiwrite_merge`. -/
def mergeStep :
    Option (List (BlockRequest ω) × BlockRequest ω) → BlockRequest ω →
      Option (List (BlockRequest ω) × BlockRequest ω)
  | none, next => some ([], next)
  | some (done, out), next =>
    if mergeable driver out next then some (done, mergeInto out next)
    else some (done ++ [out], next)

/-- `multiwrite_merge` after the sort: the requests that remain. -/
def multiwriteMerge (sorted : List (BlockRequest ω)) : List (BlockRequest ω) :=
  match sorted.foldl (mergeStep driver) none with
  | none => []
  | some (done, out) => done ++ [out]

/-! ## Submission and completion -/

structure MultiwriteCB (ω : Type) where
  error : Int
  numRequests : Int
  callbacks : List ω

/-- A submitted request with the sectors that have not reached the disk yet. -/
structure Flight (ω : Type) where
  req : BlockRequest ω
  left : List Int

/-- A batch between the call and the end of all its requests. -/
structure Batch (ω : Type) where
  disk : Int → List (BitVec 8)
  /-- The merged requests that the loop has not submitted yet. -/
  waiting : List (BlockRequest ω)
  /-- The number of rounds of the loop so far. -/
  submitted : Nat
  flights : List (Flight ω)
  /-- The dummy request is still open. -/
  dummy : Bool
  mcb : MultiwriteCB ω
  /-- The callbacks that have run, with their argument. -/
  calls : List (ω × Int)
  /-- `reqs[i].error` has been set: the call has failed and nothing else happens. -/
  failed : Bool

def multiwriteUserCb (b : Batch ω) : Batch ω :=
  { b with calls := b.calls ++ b.mcb.callbacks.map fun handle => (handle, b.mcb.error) }

def multiwriteCb (ret : Int) (b : Batch ω) : Batch ω :=
  let error := if ret < 0 ∧ b.mcb.error = 0 then ret else b.mcb.error
  let after := { b with
    mcb := { b.mcb with error := error, numRequests := b.mcb.numRequests - 1 } }
  if after.mcb.numRequests = 0 then multiwriteUserCb after else after

/-- `bdrv_aio_multiwrite` up to its loop, for a device with a medium. -/
def bdrvAioMultiwrite (reqs sorted : List (BlockRequest ω)) (disk : Int → List (BitVec 8)) : Batch ω where
  disk := disk
  waiting := multiwriteMerge driver sorted
  submitted := 0
  flights := []
  dummy := !reqs.isEmpty
  mcb := ⟨0, if reqs.isEmpty then 0 else 1, reqs.map fun req => req.handle⟩
  calls := []
  failed := false

/-- What happens to a batch. -/
inductive BatchEvent where
  | submit
  | refuse
  | land
  | complete (ret : Int)
  | finish
  deriving DecidableEq, Repr

/-- One step of the loop of `bdrv_aio_multiwrite` or of the requests in flight. -/
inductive BatchStep : Batch ω → BatchEvent → Batch ω → Prop
  /-- `bdrv_aio_writev` takes the next request. -/
  | submit {b : Batch ω} {req : BlockRequest ω} {rest : List (BlockRequest ω)}
      (next : b.waiting = req :: rest) (dummy : b.dummy = true) :
      BatchStep b .submit { b with
        waiting := rest
        submitted := b.submitted + 1
        flights := b.flights ++ [⟨req, req.sectors⟩]
        mcb := { b.mcb with numRequests := b.mcb.numRequests + 1 } }
  /-- `bdrv_aio_writev` returns `NULL` for the first request. -/
  | refuseFirst {b : Batch ω} {req : BlockRequest ω} {rest : List (BlockRequest ω)}
      (next : b.waiting = req :: rest) (dummy : b.dummy = true) (first : b.submitted = 0) :
      BatchStep b .refuse { b with waiting := [], dummy := false, failed := true }
  /-- `bdrv_aio_writev` returns `NULL` for a later one. -/
  | refuseLater {b : Batch ω} {req : BlockRequest ω} {rest : List (BlockRequest ω)}
      (next : b.waiting = req :: rest) (dummy : b.dummy = true) (later : 0 < b.submitted) :
      BatchStep b .refuse (multiwriteCb (-5) { b with
        waiting := []
        mcb := { b.mcb with numRequests := b.mcb.numRequests + 1 } })
  /-- A sector of a request in flight reaches the disk. -/
  | land {b : Batch ω} {before after : List (Flight ω)} {req : BlockRequest ω}
      {early late : List Int} {x : Int}
      (found : b.flights = before ++ ⟨req, early ++ x :: late⟩ :: after) :
      BatchStep b .land { b with
        disk := Function.update b.disk x (req.data x)
        flights := before ++ ⟨req, early ++ late⟩ :: after }
  /-- A request all of whose sectors are on the disk completes. -/
  | complete {b : Batch ω} {before after : List (Flight ω)} {req : BlockRequest ω} {ret : Int}
      (found : b.flights = before ++ ⟨req, []⟩ :: after) :
      BatchStep b (.complete ret) (multiwriteCb ret { b with flights := before ++ after })
  /-- The loop is over and the dummy request completes. -/
  | finish {b : Batch ω} (ended : b.waiting = []) (dummy : b.dummy = true) :
      BatchStep b .finish (multiwriteCb 0 { b with dummy := false })

/-- The event is not a failure. -/
def BatchEvent.Succeeds : BatchEvent → Prop
  | .refuse => False
  | .complete ret => ret = 0
  | _ => True

/-- A run in which all submissions and completions are successful. -/
inductive GoodRun (b : Batch ω) : Batch ω → Prop
  | start : GoodRun b b
  | next {middle after : Batch ω} {event : BatchEvent} (run : GoodRun b middle)
      (good : event.Succeeds) (step : BatchStep middle event after) : GoodRun b after

/-- Nothing is left to do. -/
def Batch.Completed (b : Batch ω) : Prop := b.waiting = [] ∧ b.flights = [] ∧ b.dummy = false

end Qemu.Block
