/-! # Events

A small record of a number and a name: the plainest element that has named fields.
-/

set_option autoImplicit false

namespace SplitReader

/-- A numbered and named record. -/
structure Event where
  id : UInt32
  name : String
  deriving DecidableEq, Repr, Inhabited

end SplitReader
