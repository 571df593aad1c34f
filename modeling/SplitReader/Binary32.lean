/-! # Single precision numbers as bit patterns

A share of completed work is a binary floating point number of 32 bits. It is kept as its
bit pattern, so that every value, the several not-a-numbers included, is told apart from
every other. Sign, exponent and fraction are read off the pattern.
-/

set_option autoImplicit false

namespace SplitReader

/-- A floating point number of 32 bits. -/
structure Binary32 where
  /-- One sign bit, eight bits of exponent and twenty-three of fraction. -/
  bits : UInt32
  deriving DecidableEq, Repr, Inhabited

namespace Binary32

def fractions : Nat := 8388608

def exponents : Nat := 256

def isNegative (x : Binary32) : Bool := x.bits.toNat / fractions / exponents == 1

def biasedExponent (x : Binary32) : Nat := x.bits.toNat / fractions % exponents

def fraction (x : Binary32) : Nat := x.bits.toNat % fractions

/-- Neither infinite nor not a number. -/
def isFinite (x : Binary32) : Bool := x.biasedExponent != 255

def isNaN (x : Binary32) : Bool := x.biasedExponent == 255 && x.fraction != 0

def isZero (x : Binary32) : Bool := x.biasedExponent == 0 && x.fraction == 0

/-- Equality of the numbers: not a number differs from itself, and the two zeros are equal. -/
def numEq (x y : Binary32) : Bool :=
  !x.isNaN && !y.isNaN && (x == y || (x.isZero && y.isZero))

/-- The nearest single precision number to a double precision one. -/
def ofFloat (x : Float) : Binary32 := ⟨x.toFloat32.toBits⟩

end Binary32

end SplitReader
