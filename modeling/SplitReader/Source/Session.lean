import SplitReader.Source.Memory
import SplitReader.Source.TextFile

/-! # Sessions

A session is everything that happens around one source: observers are registered, readers are
opened and used in any order, and the file behind the source may change. All readers share the
observers that were registered before they were opened, and the decoder. An observer is told
of every record that is read from a reader that was opened after it was registered.

Every observer of a session is fresh when it is registered, and is registered once. A source as such
takes any observer, also one that has counted before or is registered already and is then told of
every record twice.
-/

set_option autoImplicit false

namespace SplitReader

/-! ## Sources -/

inductive Source where
  | memory (s : MemorySource)
  | text (s : TextSource)
  deriving DecidableEq, Repr, Inhabited

namespace Source

def reader (files : Files) : Source → Except SourceError RangeReader
  | memory s => .ok s.reader
  | text s => s.reader files

def start : Source → Nat
  | memory s => s.start
  | text s => s.start

def stop : Source → Nat
  | memory s => s.stop
  | text s => s.stop

def describe (observers : Observers) : Source → String
  | memory s => s.describe observers
  | text s => s.describe

end Source

/-! ## Sessions -/

structure OpenReader where
  range : RangeReader
  /-- How many observers were registered when it was opened. -/
  observers : Nat
  deriving DecidableEq, Repr, Inhabited

/-- The state of a session. -/
structure Session (σ : Type) where
  source : Source
  files : Files
  codec : σ
  observers : Observers := []
  readers : List OpenReader := []

namespace Session

inductive Call where
  | hasNext
  /-- The next record, or a failure. -/
  | next
  /-- The next record, if one is left. -/
  | tryNext
  | progress
  | trySplit (proposed : Progress)
  /-- An earlier stop position, without the reason for which it is refused. -/
  | split (proposed : Progress)
  | elements (limit : Option Nat)

/-- An operation in a session. Readers go by their numbers. -/
inductive Action where
  | openReader
  /-- Registers a fresh observer. -/
  | register
  /-- Puts another file, or none, in the place of the one that the source names. -/
  | replaceFile (node : Option FileNode)
  /-- Writes the file that the source names again in place. -/
  | rewriteFile (node : FileNode)
  | call (reader : Nat) (call : Call)

/-- The answer to an operation in a session. -/
inductive Reply (α : Type) where
  | opened (answer : Except SourceError Nat)
  | registered (number : Nat)
  | done
  | noReader
  | hasNext (answer : Bool)
  | next (answer : Outcome SourceError α)
  | tryNext (answer : Outcome SourceError (Option α))
  | progress (answer : Progress)
  | trySplit (answer : Except SplitRejection Position)
  | split (answer : Option Position)
  | elements (items : List (Except SourceError α)) (hasEnded : Bool)
  | elementsCrashed (text : String)

variable {σ α : Type}

/-- The name of the file behind the source. -/
def path (s : Session σ) : String :=
  match s.source with
  | .memory _ => ""
  | .text t => t.path

/-- Puts a reader and the decoder back after they were used. -/
def putBack (number : Nat) (r : OpenReader) (used : RangeReader × σ) (s : Session σ) : Session σ :=
  { s with readers := s.readers.set number { r with range := used.1 }, codec := used.2 }

/-- Tells the observers of a reader of some records. -/
def notify (r : OpenReader) (byteLengths : List Nat) (s : Session σ) : Session σ :=
  let (own, others) := s.observers.splitAt r.observers
  { s with observers := byteLengths.foldl (fun os n => Observers.notify n os) own ++ others }

def performCall (decoder : Decoder σ α) (number : Nat) (r : OpenReader) (s : Session σ) :
    Call → Reply α × Session σ
  | .hasNext => (.hasNext r.range.tracker.hasNext, s)
  | .next =>
      let (outcome, used) := (RangeReader.bounded s.files decoder).next (r.range, s.codec)
      let s := s.putBack number r used
      match outcome with
      | .value d => (.next (.value d.element), s.notify r [d.byteLength])
      | .failed e => (.next (.failed e), s)
      | .crashed text => (.next (.crashed text), s)
  | .tryNext =>
      let (outcome, used) := (RangeReader.bounded s.files decoder).tryNext (r.range, s.codec)
      let s := s.putBack number r used
      match outcome with
      | .value (some d) => (.tryNext (.value (some d.element)), s.notify r [d.byteLength])
      | .value none => (.tryNext (.value none), s)
      | .failed e => (.tryNext (.failed e), s)
      | .crashed text => (.tryNext (.crashed text), s)
  | .progress => (.progress r.range.tracker.progress, s)
  | .trySplit proposed =>
      match (RangeReader.bounded s.files decoder).trySplit proposed (r.range, s.codec) with
      | .ok (position, used) => (.trySplit (.ok position), s.putBack number r used)
      | .error reason => (.trySplit (.error reason), s)
  | .split proposed =>
      let (answer, used) :=
        (RangeReader.bounded s.files decoder).split proposed (r.range, s.codec)
      (.split answer, s.putBack number r used)
  | .elements limit =>
      let run := (RangeReader.bounded s.files decoder).elements limit (r.range, s.codec)
      let s := s.putBack number r run.pull.state
      let s := s.notify r (run.items.filterMap fun x => x.toOption.map Delivered.byteLength)
      match run.crash with
      | some text => (.elementsCrashed text, s)
      | none => (.elements (run.items.map fun x => x.map Delivered.element) run.hasEnded, s)

def perform (decoder : Decoder σ α) (s : Session σ) : Action → Reply α × Session σ
  | .openReader =>
      match s.source.reader s.files with
      | .ok range =>
          let r := { range, observers := s.observers.length }
          (.opened (.ok s.readers.length), { s with readers := s.readers ++ [r] })
      | .error e => (.opened (.error e), s)
  | .register => (.registered s.observers.length, { s with observers := s.observers ++ [{}] })
  | .replaceFile (some node) => (.done, { s with files := s.files.put s.path node })
  | .replaceFile none => (.done, { s with files := s.files.remove s.path })
  | .rewriteFile node => (.done, { s with files := s.files.overwrite s.path node })
  | .call i call =>
      match s.readers[i]? with
      | some r => s.performCall decoder i r call
      | none => (.noReader, s)

def performAll (decoder : Decoder σ α) (s : Session σ) :
    List Action → List (Reply α) × Session σ
  | [] => ([], s)
  | action :: actions =>
      let (reply, s) := s.perform decoder action
      let (replies, s) := s.performAll decoder actions
      (reply :: replies, s)

end Session

end SplitReader
