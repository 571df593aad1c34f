import SplitReader.Json.Error
import SplitReader.Word

/-! # JSON numbers

A number without fraction and exponent that fits a machine word is read exactly. Every other
number is read as a significand of at most one word and a power of ten; digits that no longer
fit the significand are counted before the point and dropped after it. Its floating point
value is found from these parts by one or more floating point multiplications or divisions,
and is therefore close to the written number, but not always the closest one.
-/

set_option autoImplicit false

namespace SplitReader.Json

/-- A number as it is read. -/
inductive Numeral where
  | natural (n : UInt64)
  | negative (n : Int64)
  /-- Any other number: a significand times a power of ten. -/
  | scaled (isNegative : Bool) (significand : UInt64) (exponent : Int)
  deriving DecidableEq, Repr, Inhabited

namespace Numeral

/-! ## Values -/

def powerOfTen (n : Nat) : Float := Float.ofScientific 1 false n

def maxPower : Nat := 308

/-- Multiplies by a power of ten. Nothing if the product is past the largest number. -/
def scale (x : Float) (exponent : Int) : Option Float :=
  if exponent.natAbs ≤ maxPower then
    if exponent < 0 then
      some (x / powerOfTen exponent.natAbs)
    else
      let y := x * powerOfTen exponent.natAbs
      if y.isInf then none else some y
  else if x == 0 then
    some x
  else if 0 ≤ exponent then
    none
  else
    scale (x / powerOfTen maxPower) (exponent + maxPower)
termination_by exponent.natAbs
decreasing_by unfold maxPower at *; omega

/-- The floating point value of a number, unless it is out of range. -/
def toFloat? : Numeral → Option Float
  | natural n => some n.toFloat
  | negative n => some n.toFloat
  | scaled isNegative significand exponent =>
      (scale significand.toFloat exponent).map fun x => if isNegative then -x else x

/-! ## Reading -/

def isDigit (b : UInt8) : Bool := 0x30 ≤ b.toNat && b.toNat ≤ 0x39

def digitValue (b : UInt8) : Nat := b.toNat - 0x30

/-- Adds a digit before the point to a significand. As soon as one does not fit, it and all
that follow are only counted. -/
def pushWhole (acc : Nat × Nat) (digit : Nat) : Nat × Nat :=
  if acc.2 = 0 ∧ acc.1 * 10 + digit < UInt64.size then (acc.1 * 10 + digit, 0)
  else (acc.1, acc.2 + 1)

/-- The significand of the digits before the point, with the number of digits that did not
fit. -/
def wholePart (ds : List Nat) : Nat × Nat := ds.foldl pushWhole (0, 0)

/-- Adds digits behind the point to a significand with a power of ten. As soon as one does
not fit, it and all that follow are dropped. -/
def pushFraction (significand : Nat) (exponent : Int) : List Nat → Nat × Int
  | [] => (significand, exponent)
  | d :: ds =>
      if significand * 10 + d < UInt64.size then
        pushFraction (significand * 10 + d) (exponent - 1) ds
      else
        (significand, exponent)

def ofParts (isNegative : Bool) (significand : Nat) (exponent : Int) : Numeral :=
  .scaled isNegative (UInt64.ofNat significand) exponent

/-- The number of a sign and the digits of a whole number. A negative number that no signed
word holds is a floating point one, and so is the negative zero. -/
def ofWhole (isNegative : Bool) (significand dropped : Nat) : Numeral :=
  if dropped ≠ 0 then ofParts isNegative significand dropped
  else if !isNegative then .natural (UInt64.ofNat significand)
  else if significand = 0 ∨ Word.signedBound < significand then ofParts true significand 0
  else .negative (Int64.ofInt (-significand))

def noDigit (bytes : List UInt8) : Error := if bytes.isEmpty then .endOfText else .malformed

/-- Reads a run of digits, at least one, and gives it with the bytes behind it. -/
def scanDigits (bytes : List UInt8) : Except Error (List Nat × List UInt8) :=
  match bytes.takeWhile isDigit with
  | [] => .error (noDigit bytes)
  | run => .ok (run.map digitValue, bytes.dropWhile isDigit)

/-- Reads the optional sign of an exponent, and says whether it is a minus. -/
def scanSign (bytes : List UInt8) : Bool × List UInt8 :=
  match bytes with
  | [] => (false, [])
  | s :: rest => if s = 0x2D then (true, rest) else if s = 0x2B then (false, rest) else (false, bytes)

def shiftOf (isNegative : Bool) (ds : List Nat) : Int :=
  let size : Nat := ds.foldl (fun n d => n * 10 + d) 0
  if isNegative then -size else size

def scanExponent (bytes : List UInt8) : Except Error (Option Int × List UInt8) :=
  match bytes with
  | [] => .ok (none, [])
  | e :: rest =>
      if e = 0x65 ∨ e = 0x45 then
        match scanDigits (scanSign rest).2 with
        | .error e => .error e
        | .ok (ds, left) => .ok (some (shiftOf (scanSign rest).1 ds), left)
      else
        .ok (none, bytes)

def scanFraction (bytes : List UInt8) : Except Error (Option (List Nat) × List UInt8) :=
  match bytes with
  | [] => .ok (none, [])
  | point :: rest =>
      if point = 0x2E then
        match scanDigits rest with
        | .error e => .error e
        | .ok (ds, left) => .ok (some ds, left)
      else
        .ok (none, bytes)

/-- Reads the digits before the point: a lone zero, or digits that begin with another one. -/
def scanWhole (bytes : List UInt8) : Except Error (List Nat × List UInt8) :=
  match bytes with
  | [] => .error .endOfText
  | b :: rest =>
      if b = 0x30 then
        match rest with
        | [] => .ok ([0], [])
        | c :: _ => if isDigit c then .error .malformed else .ok ([0], rest)
      else
        scanDigits bytes

def scanMagnitude (isNegative : Bool) (bytes : List UInt8) :
    Except Error (Numeral × List UInt8) := do
  let (whole, afterWhole) ← scanWhole bytes
  let (significand, dropped) := wholePart whole
  let (fraction, afterFraction) ← scanFraction afterWhole
  let (exponent, left) ← scanExponent afterFraction
  match fraction, exponent with
  | none, none => return (ofWhole isNegative significand dropped, left)
  | none, some shift => return (ofParts isNegative significand (dropped + shift), left)
  | some ds, shift =>
      let (significand, point) := pushFraction significand dropped ds
      return (ofParts isNegative significand (point + shift.getD 0), left)

def scan (bytes : List UInt8) : Except Error (Numeral × List UInt8) :=
  match bytes with
  | [] => .error .endOfText
  | b :: rest => if b = 0x2D then scanMagnitude true rest else scanMagnitude false bytes

/-! ## Reading shortens the text -/

/-- A run of digits is not empty. -/
theorem length_lt_of_scanDigits {bytes left : List UInt8} {ds : List Nat}
    (h : scanDigits bytes = .ok (ds, left)) : left.length < bytes.length := by
  unfold scanDigits at h
  split at h
  · cases h
  · next run hrun =>
    cases h
    have hsum := congrArg List.length (List.takeWhile_append_dropWhile (p := isDigit) (l := bytes))
    rw [List.length_append] at hsum
    have hpos := List.length_pos_iff.2 hrun
    omega

theorem length_scanSign_le (bytes : List UInt8) : (scanSign bytes).2.length ≤ bytes.length := by
  unfold scanSign
  repeat' split
  all_goals simp

theorem length_le_of_scanExponent {bytes left : List UInt8} {shift : Option Int}
    (h : scanExponent bytes = .ok (shift, left)) : left.length ≤ bytes.length := by
  unfold scanExponent at h
  split at h
  · cases h
    exact Nat.le_refl _
  · next e rest =>
    split at h
    · split at h
      · cases h
      · next hds =>
        cases h
        have h1 := length_lt_of_scanDigits hds
        have h2 := length_scanSign_le rest
        simp only [List.length_cons]
        omega
    · cases h
      exact Nat.le_refl _

theorem length_le_of_scanFraction {bytes left : List UInt8} {ds : Option (List Nat)}
    (h : scanFraction bytes = .ok (ds, left)) : left.length ≤ bytes.length := by
  unfold scanFraction at h
  split at h
  · cases h
    exact Nat.le_refl _
  · split at h
    · split at h
      · cases h
      · next hds =>
        cases h
        have := length_lt_of_scanDigits hds
        simp only [List.length_cons]
        omega
    · cases h
      exact Nat.le_refl _

theorem length_lt_of_scanWhole {bytes left : List UInt8} {ds : List Nat}
    (h : scanWhole bytes = .ok (ds, left)) : left.length < bytes.length := by
  unfold scanWhole at h
  split at h
  · cases h
  · split at h
    · split at h
      · cases h
        simp
      · split at h
        · cases h
        · cases h
          simp
    · exact length_lt_of_scanDigits h

theorem length_lt_of_scanMagnitude {isNegative : Bool} {bytes left : List UInt8} {n : Numeral}
    (h : scanMagnitude isNegative bytes = .ok (n, left)) : left.length < bytes.length := by
  unfold scanMagnitude at h
  cases hw : scanWhole bytes with
  | error e => simp [hw, bind, Except.bind] at h
  | ok w =>
    cases hf : scanFraction w.2 with
    | error e => simp [hw, hf, bind, Except.bind] at h
    | ok f =>
      cases he : scanExponent f.2 with
      | error e => simp [hw, hf, he, bind, Except.bind] at h
      | ok x =>
        have h1 : w.2.length < bytes.length := length_lt_of_scanWhole hw
        have h2 : f.2.length ≤ w.2.length := length_le_of_scanFraction hf
        have h3 : x.2.length ≤ f.2.length := length_le_of_scanExponent he
        have hleft : left = x.2 := by
          simp only [hw, hf, he, bind, Except.bind, pure, Except.pure] at h
          split at h <;> cases h <;> rfl
        subst hleft
        omega

/-- A number is not empty. -/
theorem length_le_of_scan {b : UInt8} {rest left : List UInt8} {n : Numeral}
    (h : scan (b :: rest) = .ok (n, left)) : left.length ≤ rest.length := by
  unfold scan at h
  split at h
  · cases h
  · next heq =>
    cases heq
    split at h
    · exact Nat.le_of_lt (length_lt_of_scanMagnitude h)
    · have := length_lt_of_scanMagnitude h
      simp only [List.length_cons] at this
      omega

end Numeral

end SplitReader.Json
