import SplitReader.Wire.Json
import SplitReader.Work.ReadOperation

/-! # Progress reports

The worker reports to a control plane how far the work on an item has come. The answer to a
report may propose an earlier stop, which is then requested of the running read. An answer can
also fail to arrive, which ends nothing.
-/

set_option autoImplicit false

namespace SplitReader

structure WorkContext where
  workItemId : String
  workerId : String
  deriving DecidableEq, Repr, Inhabited

structure ProgressReport where
  context : WorkContext
  progress : Progress
  elementsRead : UInt64
  bytesRead : UInt64
  stopPosition : Option Position
  isFinished : Bool
  deriving DecidableEq, Repr, Inhabited

inductive ControlReply where
  | nothing
  | propose (proposed : Progress)
  | failed (text : String)
  deriving DecidableEq, Repr, Inhabited

/-- A control plane: the answer to a report after those that were sent before. -/
abbrev ControlPlane := List ProgressReport → ProgressReport → ControlReply

/-- The control plane that takes every report and proposes nothing. -/
def ControlPlane.silent : ControlPlane := fun _ _ => .nothing

namespace ReadOperation

variable {S α : Type}

/-- The report on an operation as it is. -/
def report (r : BoundedReader S α) (context : WorkContext) (op : ReadOperation S) :
    ProgressReport where
  context := context
  progress := op.progress r
  elementsRead := op.counters.elements
  bytesRead := op.counters.bytes
  stopPosition := op.stopPosition
  isFinished := op.isFinished

/-- Sends one report and requests the split that the answer proposes. -/
def reportOnce (r : BoundedReader S α) (context : WorkContext)
    (control : ProgressReport → ControlReply) (op : ReadOperation S) :
    Except WorkerError (Option Position) × ReadOperation S :=
  match control (op.report r context) with
  | .nothing => (.ok none, op)
  | .propose proposed =>
      let (answer, op) := op.requestSplit r proposed
      (.ok answer, op)
  | .failed text => (.error (.progressUpdate text), op)

end ReadOperation

/-! ## Written form -/

/-- The JSON text of a report, without the time at which it was made. -/
def ProgressReport.writeJson (r : ProgressReport) : String :=
  Json.Writer.object
    [("work_item_id", Json.Writer.text r.context.workItemId),
      ("worker_id", Json.Writer.text r.context.workerId),
      ("progress", r.progress.writeJson),
      ("elements_read", Json.Writer.natural r.elementsRead.toNat),
      ("bytes_read", Json.Writer.natural r.bytesRead.toNat),
      ("stop_position", Json.Writer.optional Position.writeJson r.stopPosition),
      ("finished", Json.Writer.bool r.isFinished)]

end SplitReader
