import SplitReader.BoundedReader
import SplitReader.LineReader
import SplitReader.Source.Files
import SplitReader.Tracker

/-! # Readers of a range

The readers of all sources are alike: a tracker owns the unread window, and a supply gives the
bytes of the record at an offset together with the offset behind it. Both are asked inside one
claim, and the decoder after the supply, so the window moves only if the record was there and
was decoded.

Two supplies are known. One is a list of records, counted one by one. The other is a file that
is read line by line, where the offset of a record is the number of bytes before it.
-/

set_option autoImplicit false

namespace SplitReader

/-! ## Supplies -/

inductive Supply where
  | records (records : List (List UInt8))
  | lines (file : Nat) (reader : LineReader)
  deriving DecidableEq, Repr, Inhabited

namespace Supply

/-- The text of the crash of a read past the end of a list. -/
def outOfBounds (length index : Nat) : String :=
  "index out of bounds: the len is " ++ Decimal.natural length ++ " but the index is " ++
    Decimal.natural index

/-- The record at an offset, and the offset of the record behind it. -/
def fetch (files : Files) (offset : Nat) :
    Supply → Outcome SourceError (List UInt8 × Nat) × Supply
  | records rs =>
      match rs[offset]? with
      | some bytes => (.value (bytes, offset + 1), records rs)
      | none => (.crashed (outOfBounds rs.length offset), records rs)
  | lines file reader =>
      match reader.readLineAt offset { node := files.node file } with
      | (.ok (bytes, used), reader, _) => (.value (bytes, offset + used), lines file reader)
      | (.error e, reader, _) => (.failed (.io e), lines file reader)

end Supply

/-! ## Readers -/

/-- A reader of a range of records. -/
structure RangeReader where
  tracker : Tracker
  supply : Supply
  deriving DecidableEq, Repr, Inhabited

namespace RangeReader

variable {σ α : Type}

def readRecord (files : Files) (decoder : Decoder σ α) (offset : Nat) (s : Supply × σ) :
    Outcome SourceError (Delivered α × Nat) × Supply × σ :=
  match s.1.fetch files offset with
  | (.value (bytes, following), supply) =>
      match decoder.decode bytes s.2 with
      | (.value a, codec) => (.value (⟨a, bytes.length⟩, following), supply, codec)
      | (.failed e, codec) => (.failed (.decode offset e), supply, codec)
      | (.crashed text, codec) => (.crashed text, supply, codec)
  | (.failed e, supply) => (.failed e, supply, s.2)
  | (.crashed text, supply) => (.crashed text, supply, s.2)

def tryNext (files : Files) (decoder : Decoder σ α) (s : RangeReader × σ) :
    Outcome SourceError (Option (Delivered α)) × RangeReader × σ :=
  match s.1.tracker.claim (readRecord files decoder) (s.1.supply, s.2) with
  | (outcome, tracker, supply, codec) => (outcome, { tracker, supply }, codec)

def trySplit (proposed : Progress) (r : RangeReader) :
    Except SplitRejection (Position × RangeReader) :=
  (r.tracker.split proposed).map fun (position, tracker) => (position, { r with tracker })

/-- What can be asked of a reader of a range, with given files and a given decoder. -/
def bounded (files : Files) (decoder : Decoder σ α) : BoundedReader (RangeReader × σ) α where
  hasNext s := s.1.tracker.hasNext
  tryNext := tryNext files decoder
  progress s := s.1.tracker.progress
  trySplit proposed s := (s.1.trySplit proposed).map fun (position, r) => (position, r, s.2)
  remaining s := s.1.tracker.window.stop - s.1.tracker.window.index

def endPosition (r : RangeReader) : Nat := r.tracker.window.stop

def describe (r : RangeReader) : String :=
  let name :=
    match r.supply with
    | .records _ => "InMemorySourceIterator"
    | .lines _ _ => "TextLineIterator"
  name ++ " \x7b tracker: " ++ r.tracker.describe ++ " \x7d"

end RangeReader

end SplitReader
