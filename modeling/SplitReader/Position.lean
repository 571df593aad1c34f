import SplitReader.Text.Decimal

/-! # Positions

A position marks a place in the record space of a source. There are several kinds, because
sources count differently; a source understands one kind and refuses the others. Two
positions of one kind are ordered by their payload, positions of different kinds are
unordered, and the end of the range follows every other position.
-/

set_option autoImplicit false

namespace SplitReader

/-- A place in a record space. -/
inductive Position where
  /-- The zero-based number of a record in a sequence. -/
  | recordIndex (index : UInt64)
  /-- The number of bytes before a record of a file or stream. -/
  | byteOffset (offset : UInt64)
  | key (key : String)
  /-- A place in shuffled data, opaque to readers. -/
  | shufflePosition (place : String)
  | endOfRange
  deriving DecidableEq, Repr, Inhabited

namespace Position

/-- The name of the kind of a position: its tag in every written form. -/
def kindName : Position → String
  | recordIndex _ => "record_index"
  | byteOffset _ => "byte_offset"
  | key _ => "key"
  | shufflePosition _ => "shuffle_position"
  | endOfRange => "end"

/-- The names of all kinds, in the order in which they are numbered. -/
def kindNames : List String :=
  ["record_index", "byte_offset", "key", "shuffle_position", "end"]

def recordIndex? : Position → Option UInt64
  | recordIndex index => some index
  | _ => none

def byteOffset? : Position → Option UInt64
  | byteOffset offset => some offset
  | _ => none

/-- The order of two positions, or nothing when they are not comparable: they are when they
are of one kind, or when one of them is the end. -/
def compare? : Position → Position → Option Ordering
  | endOfRange, endOfRange => some .eq
  | endOfRange, _ => some .gt
  | _, endOfRange => some .lt
  | recordIndex a, recordIndex b => some (compare a b)
  | byteOffset a, byteOffset b => some (compare a b)
  | key a, key b => some (compare a b)
  | shufflePosition a, shufflePosition b => some (compare a b)
  | _, _ => none

def isBefore (a b : Position) : Bool := a.compare? b == some .lt

/-- One position is not after another, and the two are comparable. -/
def isAtMost (a b : Position) : Bool :=
  match a.compare? b with
  | some .lt | some .eq => true
  | _ => false

def display : Position → String
  | recordIndex index => "record_index=" ++ Decimal.natural index.toNat
  | byteOffset offset => "byte_offset=" ++ Decimal.natural offset.toNat
  | key k => "key=" ++ k
  | shufflePosition place => "shuffle_position=" ++ place
  | endOfRange => "end"

end Position

end SplitReader
