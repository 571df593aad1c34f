import SplitReader.Source.Session
import SplitReader.Work.Execution
import SplitReader.Work.ItemJson

/-! # Running work items

A work item is loaded from a file, turned into the source that it describes, and executed. The
records reach the sink as raw bytes.
-/

set_option autoImplicit false

namespace SplitReader

namespace WorkItem

def ofBytes (bytes : List UInt8) : Except WorkerError WorkItem :=
  match Utf8.decode bytes with
  | .error _ => .error (.io .notText)
  | .ok _ => (json.decode bytes).mapError .workItem

def load (files : Files) (path : String) : Except WorkerError WorkItem :=
  match files.lookup path with
  | .error e => .error (.io e)
  | .ok (_, .directory) => .error (.io .isDirectory)
  | .ok (_, .regular bytes) => ofBytes bytes

end WorkItem

def SourceSpec.source (files : Files) : SourceSpec → Except SourceError Source
  | inMemory records .utf8 start stop =>
      (MemorySource.new (records.map Utf8.encode) (start.map Int64.toInt)
        (stop.map Int64.toInt)).map .memory
  | inMemory records .byteString start stop =>
      (MemorySource.ofByteStrings records (start.map Int64.toInt) (stop.map Int64.toInt)).map
        .memory
  | textFile path start stop => (TextSource.new files path start stop).map .text

namespace WorkItem

/-- A reader of raw records: its state is the range and nothing of the codec. -/
abbrev RawReader := RangeReader × Unit

def openReader (files : Files) (w : WorkItem) : Except WorkerError RawReader :=
  match w.source.source files with
  | .error e => .error (.source e)
  | .ok source =>
      match source.reader files with
      | .error e => .error (.source e)
      | .ok reader => .ok (reader, ())

def setup (files : Files) (workerId : String) (sink : Nat → List UInt8 → Verdict)
    (control : ControlPlane) (w : WorkItem) : Setup RawReader (List UInt8) where
  reader := RangeReader.bounded files Codec.bytes.decoder
  sink := sink
  control := control
  context := { workItemId := w.id, workerId }

structure Outcome where
  result : Except WorkerError Execution.Summary
  handed : List (List UInt8)
  reports : List ProgressReport

/-- Executes a work item with a sink and a control plane, where reports are due while the sink
holds certain records. -/
def run (files : Files) (workerId : String) (sink : Nat → List UInt8 → Verdict)
    (control : ControlPlane) (due : Nat → Nat) (dueInAll : Nat) (w : WorkItem) : Outcome :=
  match w.openReader files with
  | .error e => { result := .error e, handed := [], reports := [] }
  | .ok reader =>
      let u := w.setup files workerId sink control
      let x := Execution.run u due dueInAll reader
      { result := (x.result? u).getD (.error .join), handed := x.handed, reports := x.reports }

end WorkItem

end SplitReader
