import SplitReader.Position

/-! # Refused splits

A proposal to stop earlier may be refused. That is a normal answer of the split protocol and
not a failure: the reader keeps its range.
-/

set_option autoImplicit false

namespace SplitReader

/-- Why a proposed stop was not applied. -/
inductive SplitRejection where
  | missingPosition
  /-- The proposal names a position of a kind that the source does not count in. -/
  | unsupportedPosition (kindName : String)
  | notAfterCurrent (proposed current : Nat)
  /-- The proposed stop does not lower the present one. -/
  | notBeforeStop (proposed stop : Nat)
  | notSplittable
  deriving DecidableEq, Repr, Inhabited

namespace SplitRejection

/-- The refusal of a position for its kind. -/
def unsupported (position : Position) : SplitRejection := .unsupportedPosition position.kindName

def message : SplitRejection → String
  | missingPosition => "proposed stop carries no position"
  | unsupportedPosition kindName =>
      "stop position of kind `" ++ kindName ++ "` is not supported by this source"
  | notAfterCurrent proposed current =>
      "proposed stop " ++ Decimal.natural proposed ++ " is not after the current position " ++
        Decimal.natural current
  | notBeforeStop proposed stop =>
      "proposed stop " ++ Decimal.natural proposed ++ " does not shrink the current stop " ++
        Decimal.natural stop
  | notSplittable => "source does not support dynamic splitting"

end SplitRejection

end SplitReader
