import SplitReader.Position

/-! # Kinds of offsets

The offsets of a reader are plain numbers. Its offset kind says as which positions they are
shown, and which positions name an offset of it.
-/

set_option autoImplicit false

namespace SplitReader

/-- What the offsets of a reader count. -/
inductive OffsetKind where
  | recordIndex
  | byteOffset
  deriving DecidableEq, Repr, Inhabited

namespace OffsetKind

def position : OffsetKind → Nat → Position
  | recordIndex, offset => .recordIndex (UInt64.ofNat offset)
  | byteOffset, offset => .byteOffset (UInt64.ofNat offset)

/-- The offset that a position names, if it is of this kind. -/
def offset? (kind : OffsetKind) (position : Position) : Option Nat :=
  match kind with
  | recordIndex => position.recordIndex?.map UInt64.toNat
  | byteOffset => position.byteOffset?.map UInt64.toNat

def display : OffsetKind → String
  | recordIndex => "RecordIndex"
  | byteOffset => "ByteOffset"

end OffsetKind

end SplitReader
