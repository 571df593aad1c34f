import SplitReader.Text.Decimal
import SplitReader.Word

/-! # Bounds of a range

A caller names a range of a sequence by an optional start and an optional end. The bounds
are signed, as callers write them; a missing start is zero and a missing end is the length.
Bounds past the length are lowered to it. A negative start is refused, and so is an end
before the start, where the start counts as already lowered.
-/

set_option autoImplicit false

namespace SplitReader

/-- Why a pair of bounds is refused. -/
inductive BoundsError where
  | negativeStart (start : Int)
  /-- The end lies before the resolved start. -/
  | endBeforeStart (stop : Int) (start : Nat)
  deriving DecidableEq, Repr, Inhabited

def BoundsError.message : BoundsError → String
  | negativeStart start => "start index should be >= 0, got " ++ Decimal.integer start
  | endBeforeStart stop start =>
      "end index should be >= start index " ++ Decimal.natural start ++ ", got " ++ Decimal.integer stop

/-- The first offset of a range over `length` items. -/
def resolveStart (length : Nat) : Option Int → Except BoundsError Nat
  | none => .ok 0
  | some start => if start < 0 then .error (.negativeStart start) else .ok (min start.toNat length)

/-- The offset after the last of a range over `length` items that begins at `start`. -/
def resolveStop (length start : Nat) : Option Int → Except BoundsError Nat
  | none => .ok length
  | some stop =>
      if stop < start then .error (.endBeforeStart stop start) else .ok (min stop.toNat length)

/-- The half-open range that a pair of optional bounds names in a sequence of `length` items. -/
def resolveBounds (length : Nat) (start stop : Option Int) : Except BoundsError (Nat × Nat) := do
  let first ← resolveStart length start
  let past ← resolveStop length first stop
  return (first, past)

def maxSignedWord : Nat := Word.signedBound - 1

/-- An unsigned offset as a signed bound: offsets past the largest signed word are lowered
to it. -/
def signedBound (offset : UInt64) : Int := min offset.toNat maxSignedWord

/-- The range of byte offsets that a pair of unsigned bounds names in a file. -/
def resolveOffsets (length : Nat) (start stop : Option UInt64) :
    Except BoundsError (Nat × Nat) :=
  resolveBounds length (start.map signedBound) (stop.map signedBound)

end SplitReader
