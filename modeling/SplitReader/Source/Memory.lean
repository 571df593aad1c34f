import SplitReader.Counters
import SplitReader.Source.Range

/-! # In-memory sources

A source over records that are at hand. Its offsets are record numbers.

Records that travel inside a text are written with one character for every byte. A character
above U+00FF stands for no byte; the first one in the first record that holds one is reported,
before any fault of the bounds.
-/

set_option autoImplicit false

namespace SplitReader

/-- A range of a list of records. -/
structure MemorySource where
  records : List (List UInt8)
  start : Nat
  /-- The number behind the last record of the range. -/
  stop : Nat
  deriving DecidableEq, Repr, Inhabited

namespace MemorySource

/-- The range of a list of records that optional bounds name. -/
def new (records : List (List UInt8)) (start stop : Option Int) :
    Except SourceError MemorySource :=
  match resolveBounds records.length start stop with
  | .ok (start, stop) => .ok { records, start, stop }
  | .error e => .error (.invalidArgument (.bounds e))

/-- The byte that a character stands for. -/
def byteOfChar? (c : Char) : Option UInt8 :=
  if c.toNat < 0x100 then some (UInt8.ofNat c.toNat) else none

def bytesOfChars (record : Nat) : List Char → Except SourceError (List UInt8)
  | [] => .ok []
  | c :: cs =>
      match byteOfChar? c with
      | none => .error (.invalidArgument (.recordChar record c))
      | some b => (bytesOfChars record cs).map (b :: ·)

def bytesOfRecords : Nat → List String → Except SourceError (List (List UInt8))
  | _, [] => .ok []
  | record, s :: ss =>
      match bytesOfChars record s.toList with
      | .error e => .error e
      | .ok bytes => (bytesOfRecords (record + 1) ss).map (bytes :: ·)

/-- The range of a list of records with one character for every byte. -/
def ofByteStrings (records : List String) (start stop : Option Int) :
    Except SourceError MemorySource :=
  match bytesOfRecords 0 records with
  | .error e => .error e
  | .ok records => new records start stop

def length (s : MemorySource) : Nat := s.stop - s.start

def isEmpty (s : MemorySource) : Bool := s.start == s.stop

def reader (s : MemorySource) : RangeReader where
  tracker := .new .recordIndex s.start s.stop
  supply := .records s.records

def describe (observers : Observers) (s : MemorySource) : String :=
  "InMemorySource \x7b records: " ++ Decimal.natural s.records.length ++ ", start_index: " ++
    Decimal.natural s.start ++ ", end_index: " ++ Decimal.natural s.stop ++ ", observers: " ++
    observers.describe ++ " \x7d"

end MemorySource

end SplitReader
