import SplitReader.Binary32
import SplitReader.Text.Decimal

/-! # Shortest decimal text of floating point numbers

A finite floating point number is a whole number times a power of two. All reals of a small
interval round to it. Its shortest text has the fewest digits among the decimals of that
interval, and among those the value closest to the number; of two that are equally close, the
one with the even last digit. The search runs over the grids of one digit, two digits and so
on, and on each grid only the two neighbours of the number can be the closest, so everything
is exact arithmetic on natural numbers.

How the digits are laid out, with a point or with an exponent, is a matter of the format that
uses them and is kept apart.
-/

set_option autoImplicit false

namespace SplitReader.Shortest

/-! ## The digits -/

/-- A positive floating point number: `mantissa * 2 ^ exponent`. -/
structure Scaled where
  mantissa : Nat
  exponent : Int
  /-- The gap to the next smaller number is half the gap to the next larger one. -/
  isNarrowBelow : Bool

structure Ratio where
  num : Nat
  den : Nat

/-- A natural number times a power of ten is compared with a ratio. -/
def compareScaled (d : Nat) (k : Int) (r : Ratio) : Ordering :=
  if 0 ≤ k then compare (d * Nat.pow 10 k.natAbs * r.den) r.num
  else compare (d * r.den) (r.num * Nat.pow 10 k.natAbs)

/-- A quarter of the unit of the mantissa, times a natural number. -/
def Scaled.quarters (x : Scaled) (n : Nat) : Ratio :=
  let e := x.exponent - 2
  if 0 ≤ e then ⟨n * Nat.pow 2 e.natAbs, 1⟩ else ⟨n, Nat.pow 2 e.natAbs⟩

def Scaled.value (x : Scaled) : Ratio := x.quarters (4 * x.mantissa)

/-- The lower end of the interval that rounds to the number. -/
def Scaled.low (x : Scaled) : Ratio :=
  x.quarters (4 * x.mantissa - if x.isNarrowBelow then 1 else 2)

def Scaled.high (x : Scaled) : Ratio := x.quarters (4 * x.mantissa + 2)

/-- A decimal rounds to the number. The ends of the interval do so if the mantissa is even. -/
def Scaled.holds (x : Scaled) (d : Nat) (k : Int) : Bool :=
  let ends := x.mantissa % 2 == 0
  (match compareScaled d k x.low with | .gt => true | .eq => ends | .lt => false) &&
    (match compareScaled d k x.high with | .lt => true | .eq => ends | .gt => false)

/-- The place of the first digit of a ratio: the power of ten that is at most the ratio while
ten times that power is not. -/
def Ratio.firstPlace (r : Ratio) : Int :=
  let guess : Int := (Decimal.digits r.num).length - (Decimal.digits r.den).length
  match compareScaled 1 guess r with
  | .gt => guess - 1
  | _ => guess

/-- The whole number of units of a power of ten that a ratio contains. -/
def Ratio.floorAt (r : Ratio) (k : Int) : Nat :=
  if 0 ≤ k then r.num / (r.den * Nat.pow 10 k.natAbs) else r.num * Nat.pow 10 k.natAbs / r.den

/-- Of two neighbouring decimals, the one closer to a ratio; of two equally close ones, the
even one. -/
def Ratio.closer (r : Ratio) (d : Nat) (k : Int) : Nat :=
  match compareScaled (2 * d + 1) k ⟨2 * r.num, r.den⟩ with
  | .gt => d
  | .lt => d + 1
  | .eq => if d % 2 = 0 then d else d + 1

/-- The decimal of a grid that rounds to the number and is closest to it, if there is one. -/
def Scaled.onGrid? (x : Scaled) (k : Int) : Option Nat :=
  let d := x.value.floorAt k
  match x.holds d k, x.holds (d + 1) k with
  | true, true => some (x.value.closer d k)
  | true, false => some d
  | false, true => some (d + 1)
  | false, false => none

/-- Searches the grids from a power of ten downwards, on at most so many grids. -/
def Scaled.search (x : Scaled) : Nat → Int → Nat × Int
  | 0, k => (x.value.floorAt k, k)
  | grids + 1, k =>
      match x.onGrid? k with
      | some d => (d, k)
      | none => x.search grids (k - 1)

/-- Takes zeros off the end of a decimal. -/
def stripZeros (d : Nat) (k : Int) : Nat × Int :=
  if d ≠ 0 ∧ d % 10 = 0 then stripZeros (d / 10) (k + 1) else (d, k)
termination_by d
decreasing_by omega

/-- The most digits that a number of at most double precision needs. -/
def maxDigits : Nat := 17

/-- The shortest decimal of a positive number: its digits, and the place of the last one. -/
def Scaled.decimal (x : Scaled) : Nat × Int :=
  let (d, k) := x.search maxDigits x.value.firstPlace
  stripZeros d k

/-! ## The layout -/

/-- How digits become text. -/
structure Layout where
  /-- From how many digits before the point on an exponent is used, if ever. -/
  maxWhole : Option Nat
  /-- From how many zeros behind the point on an exponent is used, if ever. -/
  maxZeros : Option Nat
  /-- A whole number is written with a zero behind the point. -/
  keepsPoint : Bool
  /-- An exponent that is not negative is written with a plus. -/
  signsExponent : Bool

def zeros (n : Nat) : String := String.ofList (List.replicate n '0')

def isWithin (limit : Option Nat) (n : Nat) : Bool :=
  match limit with
  | none => true
  | some most => n ≤ most

def Layout.exponent (l : Layout) (e : Int) : String :=
  (if l.signsExponent && 0 ≤ e then "+" else "") ++ Decimal.integer e

/-- The text of the decimal `d * 10 ^ k`. -/
def Layout.text (l : Layout) (d : Nat) (k : Int) : String :=
  let ds := Decimal.naturalChars d
  let whole : Int := ds.length + k
  if 0 ≤ k ∧ isWithin l.maxWhole whole.natAbs then
    String.ofList ds ++ zeros k.natAbs ++ (if l.keepsPoint then ".0" else "")
  else if 0 < whole ∧ isWithin l.maxWhole whole.natAbs then
    String.ofList (ds.take whole.natAbs) ++ "." ++ String.ofList (ds.drop whole.natAbs)
  else if whole ≤ 0 ∧ isWithin l.maxZeros whole.natAbs then
    "0." ++ zeros whole.natAbs ++ String.ofList ds
  else
    String.ofList (ds.take 1) ++
      (if ds.length = 1 then "" else "." ++ String.ofList (ds.drop 1)) ++
      "e" ++ l.exponent (whole - 1)

def Layout.zero (l : Layout) : String := if l.keepsPoint then "0.0" else "0"

/-- The text of a number by its sign and its absolute value, if that is not zero. -/
def Layout.signed (l : Layout) (isNegative : Bool) (x : Scaled) : String :=
  let size :=
    if x.mantissa = 0 then l.zero
    else
      let (d, k) := x.decimal
      l.text d k
  if isNegative then "-" ++ size else size

/-! ## The two precisions -/

/-- The absolute value of a finite number by its stored exponent and fraction. -/
def ofFields (fractionBits : Nat) (bias : Int) (biased fraction : Nat) : Scaled :=
  if biased = 0 then ⟨fraction, 1 - bias - fractionBits, false⟩
  else ⟨Nat.pow 2 fractionBits + fraction, biased - bias - fractionBits, fraction == 0 && 1 < biased⟩

def ofBinary32 (x : Binary32) : Scaled := ofFields 23 127 x.biasedExponent x.fraction

def ofFloat (x : Float) : Scaled :=
  let bits := x.toBits.toNat
  ofFields 52 1023 (bits / Nat.pow 2 52 % Nat.pow 2 11) (bits % Nat.pow 2 52)

end SplitReader.Shortest
