import SplitReader.Text.Decimal

/-! # Read counters

An observer of a source is told of every record that is read from it. The stock observer keeps
two totals, of records and of bytes. Totals are machine words and wrap around.
-/

set_option autoImplicit false

namespace SplitReader

structure ReadCounters where
  elements : UInt64 := 0
  bytes : UInt64 := 0
  deriving DecidableEq, Repr, Inhabited

namespace ReadCounters

def add (count byteLength : UInt64) (c : ReadCounters) : ReadCounters :=
  { elements := c.elements + count, bytes := c.bytes + byteLength }

def countRecord (byteLength : Nat) (c : ReadCounters) : ReadCounters :=
  c.add 1 (UInt64.ofNat byteLength)

end ReadCounters

/-- The counters of a list of observers, each of them registered once. -/
abbrev Observers := List ReadCounters

namespace Observers

def notify (byteLength : Nat) (os : Observers) : Observers :=
  os.map (ReadCounters.countRecord byteLength)

def describe (os : Observers) : String :=
  "Observers \x7b len: " ++ Decimal.natural os.length ++ " \x7d"

end Observers

end SplitReader
