/-! # Outcomes

A step of a read gives a value, or fails with an error, or crashes. A failure is an answer;
a crash unwinds through the reader, which must leave its state fit for the next call all the
same.
-/

set_option autoImplicit false

namespace SplitReader

/-- What became of a step. -/
inductive Outcome (ε α : Type) where
  | value (a : α)
  | failed (e : ε)
  | crashed (text : String)
  deriving DecidableEq, Repr

namespace Outcome

variable {ε ε' α β : Type}

def map (f : α → β) : Outcome ε α → Outcome ε β
  | value a => value (f a)
  | failed e => failed e
  | crashed text => crashed text

def mapError (f : ε → ε') : Outcome ε α → Outcome ε' α
  | value a => value a
  | failed e => failed (f e)
  | crashed text => crashed text

/-- The outcome of a step that cannot crash. -/
def ofExcept : Except ε α → Outcome ε α
  | .ok a => value a
  | .error e => failed e

end Outcome

end SplitReader
