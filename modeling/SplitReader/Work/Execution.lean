import SplitReader.Work.Report

/-! # Executions of a work item

Two tasks share a read operation while a work item is executed. The reading task hands every
element to the sink. The reporting task sends one report after the other and requests the
splits that the answers propose; it starts a last report when the reading task is over, and
the work is done when that one is answered, too. Neither task waits for the other in between.

An execution is cut into the steps that others can see: a record is read, counted, its bytes
are counted, the element is handed over, the sink lets go of it; a report is put together from
one piece of the state after the other and sent when it is complete; a proposed split first finds
the operation unfinished and is judged later. A schedule says whose turn it is. Every statement
about all schedules covers what threads can do.
-/

set_option autoImplicit false

namespace SplitReader

inductive TaskEnd where
  | exhausted (delivered : Nat)
  | failed (e : WorkerError)
  | crashed (text : String)
  deriving DecidableEq, Repr

/-- Where the reading task stands. -/
inductive Reading (α : Type) where
  | start
  /-- A record was read and is not counted. -/
  | taken (d : Delivered α)
  /-- The record is counted and its bytes are not. -/
  | counted (d : Delivered α)
  | ready (a : α)
  | held (a : α)
  /-- The run has come to an end and the operation is not marked. -/
  | ending (e : TaskEnd)
  | over (e : TaskEnd)
  deriving DecidableEq, Repr

/-- Where the reporting task stands. A report takes the progress, the number of records, the number
of bytes, the stop position and the mark from the operation, in this order and at different times.
What its answer proposes is judged only if the operation is found unfinished then. -/
inductive Reporting where
  | idle
  | withProgress (progress : Progress)
  | withElements (progress : Progress) (elements : UInt64)
  | withBytes (progress : Progress) (elements bytes : UInt64)
  | withStop (progress : Progress) (elements bytes : UInt64) (stop : Option Position)
  /-- The report is complete, with the mark of the operation as it was then, and is not sent. -/
  | composed (report : ProgressReport)
  | proposed (p : Progress)
  /-- A split is proposed, and the operation was found unfinished. -/
  | admitted (p : Progress)
  deriving DecidableEq, Repr

/-- How far the work is: reports are sent from time to time, then the reading task is over and the
last report is due, and then that one is answered. -/
inductive Stage where
  | periodic
  | final
  | done
  deriving DecidableEq, Repr

structure Setup (S α : Type) where
  reader : BoundedReader S α
  /-- What becomes of an element, by its number. -/
  sink : Nat → α → Verdict
  control : ControlPlane
  context : WorkContext

/-- The state of an execution: the operation that both tasks share, where each of them stands, and
what was handed over and reported so far. -/
structure Execution (S α : Type) where
  operation : ReadOperation S
  reading : Reading α := .start
  reporting : Reporting := .idle
  stage : Stage := .periodic
  /-- How many elements the sink has taken. -/
  delivered : Nat := 0
  /-- The elements that were handed to the sink, in order. -/
  handed : List α := []
  reports : List ProgressReport := []

/-- Whose turn it is. -/
inductive Turn where
  | reader
  | reporter
  /-- The end of the reading task is noticed. -/
  | coordinator
  deriving DecidableEq, Repr

namespace Execution

variable {S α : Type}

/-! ## The reading task -/

def readStep (u : Setup S α) (x : Execution S α) : Execution S α :=
  let (outcome, reader) := u.reader.tryNext x.operation.reader
  let x := { x with operation := { x.operation with reader } }
  match outcome with
  | .value (some d) => { x with reading := .taken d }
  | .value none => { x with reading := .ending (.exhausted x.delivered) }
  | .failed e => { x with reading := .ending (.failed (.source e)) }
  | .crashed text => { x with reading := .over (.crashed text) }

def releaseStep (u : Setup S α) (a : α) (x : Execution S α) : Execution S α :=
  match u.sink x.delivered a with
  | .accept => { x with delivered := x.delivered + 1, reading := .start }
  | .refuse e => { x with reading := .ending (.failed e) }
  | .crash text => { x with reading := .over (.crashed text) }

def stepReader (u : Setup S α) (x : Execution S α) : Execution S α :=
  match x.reading with
  | .start => x.readStep u
  | .taken d =>
      let counters := x.operation.counters.add 1 0
      { x with operation := { x.operation with counters }, reading := .counted d }
  | .counted d =>
      let counters := x.operation.counters.add 0 (UInt64.ofNat d.byteLength)
      { x with operation := { x.operation with counters }, reading := .ready d.element }
  | .ready a => { x with handed := x.handed ++ [a], reading := .held a }
  | .held a => x.releaseStep u a
  | .ending e => { x with operation := x.operation.finish, reading := .over e }
  | .over _ => x

/-! ## The reporting task -/

/-- The reporting task is between two reports: it goes on, or the work is done if this was the
last report. -/
def settle (x : Execution S α) : Execution S α :=
  { x with reporting := .idle, stage := if x.stage = .final then .done else x.stage }

/-- Sends a report and looks at the answer. -/
def sendStep (u : Setup S α) (report : ProgressReport) (x : Execution S α) : Execution S α :=
  let answer := u.control x.reports report
  let x := { x with reports := x.reports ++ [report] }
  match answer with
  | .propose p => { x with reporting := .proposed p }
  | .nothing | .failed _ => x.settle

def stepReporter (u : Setup S α) (x : Execution S α) : Execution S α :=
  match x.reporting with
  | .idle =>
      if x.stage = .done then x
      else { x with reporting := .withProgress (x.operation.progress u.reader) }
  | .withProgress p => { x with reporting := .withElements p x.operation.counters.elements }
  | .withElements p n => { x with reporting := .withBytes p n x.operation.counters.bytes }
  | .withBytes p n b => { x with reporting := .withStop p n b x.operation.stopPosition }
  | .withStop p n b stop =>
      let report : ProgressReport :=
        { context := u.context
          progress := p
          elementsRead := n
          bytesRead := b
          stopPosition := stop
          isFinished := x.operation.isFinished }
      { x with reporting := .composed report }
  | .composed report => x.sendStep u report
  | .proposed p => if x.operation.isFinished then x.settle else { x with reporting := .admitted p }
  | .admitted p => { x with operation := (x.operation.applySplit u.reader p).2 }.settle

/-! ## Executions -/

/-- Turns to the last report when the reading task is over and no report is under way. -/
def stepCoordinator (x : Execution S α) : Execution S α :=
  match x.reading, x.reporting, x.stage with
  | .over _, .idle, .periodic => { x with stage := .final }
  | _, _, _ => x

/-- One step of the task whose turn it is. A task that cannot move stays where it is. -/
def step (u : Setup S α) (x : Execution S α) : Turn → Execution S α
  | .reader => x.stepReader u
  | .reporter => x.stepReporter u
  | .coordinator => x.stepCoordinator

def runSchedule (u : Setup S α) (x : Execution S α) (schedule : List Turn) : Execution S α :=
  schedule.foldl (step u) x

/-- The state after a number of steps of a scheduler that looks at the state. -/
def runWith (u : Setup S α) (scheduler : Execution S α → Turn) :
    Nat → Execution S α → Execution S α
  | 0, x => x
  | steps + 1, x => if x.stage = .done then x else runWith u scheduler steps (x.step u (scheduler x))

def start (reader : S) : Execution S α := { operation := { reader } }

/-! ## Results -/

/-- What is known of a work item that was read to its end. -/
structure Summary where
  workItemId : String
  elementsRead : UInt64
  bytesRead : UInt64
  finalProgress : Progress
  stopPosition : Option Position
  deriving DecidableEq, Repr, Inhabited

def summary (u : Setup S α) (x : Execution S α) : Summary where
  workItemId := u.context.workItemId
  elementsRead := x.operation.counters.elements
  bytesRead := x.operation.counters.bytes
  finalProgress := x.operation.progress u.reader
  stopPosition := x.operation.stopPosition

/-- The result of the work, once it is done. -/
def result? (u : Setup S α) (x : Execution S α) : Option (Except WorkerError Summary) :=
  match x.stage, x.reading with
  | .done, .over (.exhausted _) => some (.ok (x.summary u))
  | .done, .over (.failed e) => some (.error e)
  | .done, .over (.crashed _) => some (.error .join)
  | _, _ => none

def Summary.writeJson (s : Summary) : String :=
  Json.Writer.object
    [("work_item_id", Json.Writer.text s.workItemId),
      ("elements_read", Json.Writer.natural s.elementsRead.toNat),
      ("bytes_read", Json.Writer.natural s.bytesRead.toNat),
      ("final_progress", s.finalProgress.writeJson),
      ("stop_position", Json.Writer.optional Position.writeJson s.stopPosition)]

/-! ## A scheduler -/

/-- The scheduler that lets the reading task go on, except while the sink holds an element
before which more reports are due: then the reporting task sends them. Due reports are counted
from the first one, by the number of the element that is held. -/
def heldReports (due : Nat → Nat) (x : Execution S α) : Turn :=
  match x.reading with
  | .held _ =>
      if x.reporting ≠ .idle ∨ x.reports.length < due x.delivered then .reporter else .reader
  | .over _ => if x.stage = .periodic ∧ x.reporting = .idle then .coordinator else .reporter
  | _ => .reader

/-- The most steps that one record or one report takes, with the end of the task or the turn to
the last report. -/
def stepsPerUnit : Nat := 9

/-- Executes the work to its end under a scheduler that lets due reports through. -/
def run (u : Setup S α) (due : Nat → Nat) (dueInAll : Nat) (reader : S) : Execution S α :=
  runWith u (heldReports due) (stepsPerUnit * (u.reader.remaining reader + dueInAll + 2))
    (start reader)

end Execution

end SplitReader
