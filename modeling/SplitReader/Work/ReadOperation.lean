import SplitReader.BoundedReader
import SplitReader.Counters
import SplitReader.Work.Error

/-! # Read operations

A read operation drives one reader to its end and hands every element to a sink. It counts
what is read, remembers the stop position that was accepted last, and is marked as finished
when a run has come to an end: by exhaustion, by an error of the source, or by an error of the
sink. A crash in the sink or in the reader leaves the operation unfinished.

The control side looks at the operation and asks for splits at any time, also while the sink
holds an element. A finished operation refuses every split, since nobody reads on.
-/

set_option autoImplicit false

namespace SplitReader

/-- A reader with what is known of its reading. -/
structure ReadOperation (S : Type) where
  reader : S
  counters : ReadCounters := {}
  stopPosition : Option Position := none
  /-- A run has come to an end. -/
  isFinished : Bool := false
  deriving DecidableEq, Repr

/-! ## Sinks -/

/-- What a sink asks of the operation while it holds an element. -/
inductive SinkRequest where
  | split (proposed : Progress)
  | inspect
  deriving DecidableEq, Repr

/-- What the control side sees of an operation. -/
structure ReadStatus where
  progress : Progress
  stopPosition : Option Position
  counters : ReadCounters
  isFinished : Bool
  deriving DecidableEq, Repr

inductive SinkReply where
  | split (answer : Option Position)
  | status (answer : ReadStatus)
  deriving DecidableEq, Repr

/-- How a sink lets go of an element. -/
inductive Verdict where
  | accept
  | refuse (e : WorkerError)
  | crash (text : String)
  deriving DecidableEq, Repr

/-- Takes elements, by their number within the run. While it holds one it makes requests, and
then it lets go of it. -/
abbrev Sink (α : Type) := Nat → α → List SinkRequest × Verdict

def Sink.all {α : Type} : Sink α := fun _ _ => ([], .accept)

/-! ## Steps -/

namespace ReadOperation

variable {S α : Type}

def progress (r : BoundedReader S α) (op : ReadOperation S) : Progress := r.progress op.reader

def status (r : BoundedReader S α) (op : ReadOperation S) : ReadStatus where
  progress := op.progress r
  stopPosition := op.stopPosition
  counters := op.counters
  isFinished := op.isFinished

/-- Lets the reader judge a proposed stop position and remembers it if it was accepted. -/
def applySplit (r : BoundedReader S α) (proposed : Progress) (op : ReadOperation S) :
    Option Position × ReadOperation S :=
  match r.trySplit proposed op.reader with
  | .ok (position, reader) => (some position, { op with reader, stopPosition := some position })
  | .error _ => (none, op)

/-- Proposes a stop position. A finished operation refuses it. -/
def requestSplit (r : BoundedReader S α) (proposed : Progress) (op : ReadOperation S) :
    Option Position × ReadOperation S :=
  if op.isFinished then (none, op) else op.applySplit r proposed

/-- Reads the next element, if one is left, and counts it. -/
def take (r : BoundedReader S α) (op : ReadOperation S) :
    Outcome SourceError (Option α) × ReadOperation S :=
  match r.tryNext op.reader with
  | (.value (some d), reader) =>
      (.value (some d.element), { op with reader, counters := op.counters.countRecord d.byteLength })
  | (.value none, reader) => (.value none, { op with reader })
  | (.failed e, reader) => (.failed e, { op with reader })
  | (.crashed text, reader) => (.crashed text, { op with reader })

def finish (op : ReadOperation S) : ReadOperation S := { op with isFinished := true }

def serve (r : BoundedReader S α) (op : ReadOperation S) :
    SinkRequest → SinkReply × ReadOperation S
  | .split proposed =>
      let (answer, op) := op.requestSplit r proposed
      (.split answer, op)
  | .inspect => (.status (op.status r), op)

def serveAll (r : BoundedReader S α) (op : ReadOperation S) :
    List SinkRequest → List SinkReply × ReadOperation S
  | [] => ([], op)
  | request :: requests =>
      let (reply, op) := op.serve r request
      let (replies, op) := op.serveAll r requests
      (reply :: replies, op)

/-! ## Runs -/

inductive Ending where
  | exhausted (delivered : Nat)
  | failed (e : WorkerError)
  | crashed (text : String)
  /-- The run was not followed to its end. -/
  | unfinished
  deriving DecidableEq, Repr

structure Run (S α : Type) where
  ending : Ending
  /-- The elements that were handed to the sink, the one that it refused included. -/
  handed : List α
  replies : List SinkReply
  operation : ReadOperation S
  deriving DecidableEq, Repr

/-- Follows a run for a number of reads, where so many elements were delivered before. -/
def runFor (r : BoundedReader S α) (sink : Sink α) :
    Nat → Nat → ReadOperation S → Run S α
  | 0, _, op => { ending := .unfinished, handed := [], replies := [], operation := op }
  | reads + 1, delivered, op =>
      match op.take r with
      | (.value none, op) =>
          { ending := .exhausted delivered, handed := [], replies := [], operation := op.finish }
      | (.failed e, op) =>
          { ending := .failed (.source e), handed := [], replies := [], operation := op.finish }
      | (.crashed text, op) =>
          { ending := .crashed text, handed := [], replies := [], operation := op }
      | (.value (some a), op) =>
          let (requests, verdict) := sink delivered a
          let (replies, op) := op.serveAll r requests
          match verdict with
          | .accept =>
              let rest := runFor r sink reads (delivered + 1) op
              { rest with handed := a :: rest.handed, replies := replies ++ rest.replies }
          | .refuse e => { ending := .failed e, handed := [a], replies, operation := op.finish }
          | .crash text => { ending := .crashed text, handed := [a], replies, operation := op }

/-- Hands every element that is left to a sink. One read more than there are elements left is
enough to meet the end. -/
def run (r : BoundedReader S α) (sink : Sink α) (op : ReadOperation S) : Run S α :=
  runFor r sink (r.remaining op.reader + 1) 0 op

end ReadOperation

end SplitReader
