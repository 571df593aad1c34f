import SplitReader.Settings.Value
import SplitReader.Word

/-! # TOML scalars

The values that are written without quotes: truth values, whole numbers in four bases, floating
point numbers, dates and times. Underscores may stand between two digits. A date or time is
kept as its text in the one usual form.
-/

set_option autoImplicit false

namespace SplitReader.Toml

/-! ## Numbers -/

/-- Takes underscores out of a run of digits, where each must stand between two digits. -/
def plainDigits (isDigit : Char → Bool) : List Char → Option (List Char)
  | [] => none
  | [c] => if isDigit c then some [c] else none
  | c :: '_' :: rest =>
      if isDigit c then (plainDigits isDigit rest).map (c :: ·) else none
  | c :: rest => if isDigit c then (plainDigits isDigit rest).map (c :: ·) else none

def isDecimal (c : Char) : Bool := '0' ≤ c && c ≤ '9'

def digitValue (c : Char) : Nat :=
  if isDecimal c then c.toNat - 0x30
  else if 'a' ≤ c ∧ c ≤ 'f' then c.toNat - 0x57
  else if 'A' ≤ c ∧ c ≤ 'F' then c.toNat - 0x37
  else 16

def ofDigits (base : Nat) (ds : List Char) : Nat :=
  ds.foldl (fun n d => n * base + digitValue d) 0

/-- A value that is written without quotes. -/
inductive Scalar where
  | plain (v : SettingValue)
  /-- A date, a time or both, as its text. -/
  | moment (text : String)

def Scalar.value : Scalar → SettingValue
  | plain v => v
  | moment text => .text text

/-- Whole numbers are signed words. -/
def inRange? (n : Int) : Option SettingValue :=
  if Word.isSigned n then some (.integer n) else none

/-- A whole number with a prefix that names its base. -/
def based? (base : Nat) (cs : List Char) : Option SettingValue := do
  let ds ← plainDigits (fun c => digitValue c < base) cs
  inRange? (ofDigits base ds)

/-- Splits off a sign, and says whether it is a minus. -/
def splitSign : List Char → Bool × List Char
  | '-' :: rest => (true, rest)
  | '+' :: rest => (false, rest)
  | cs => (false, cs)

/-- The digits of the whole part of a decimal number. A zero in front is refused, unless it is
all there is. -/
def wholeDigits? (cs : List Char) : Option (List Char) := do
  let ds ← plainDigits isDecimal cs
  if ds.head? = some '0' ∧ 1 < ds.length then none else some ds

def decimal? (cs : List Char) : Option SettingValue := do
  let (isNegative, cs) := splitSign cs
  let n := ofDigits 10 (← wholeDigits? cs)
  inRange? (if isNegative then -(n : Int) else n)

/-- The power of ten behind the letter of an exponent. -/
def exponent? (cs : List Char) : Option Int := do
  let (isNegative, cs) := splitSign cs
  let n := ofDigits 10 (← plainDigits isDecimal cs)
  some (if isNegative then -(n : Int) else n)

/-- The largest power of ten that makes a difference. -/
def maxExponent : Nat := 100000

def floatOf (digits : Nat) (exponent : Int) : Float :=
  let size := min exponent.natAbs maxExponent
  Float.ofScientific digits (exponent < 0) size

/-- A floating point number: a whole part, and a fraction or an exponent or both. -/
def float? (cs : List Char) : Option SettingValue := do
  let (isNegative, cs) := splitSign cs
  let isMark (c : Char) : Bool := c = 'e' || c = 'E'
  let mantissa := cs.takeWhile fun c => !isMark c
  let exponent ←
    match cs.dropWhile fun c => !isMark c with
    | [] => some 0
    | _ :: ds => exponent? ds
  let whole ← wholeDigits? (mantissa.takeWhile (· ≠ '.'))
  let fraction ←
    match mantissa.dropWhile (· ≠ '.') with
    | [] => if mantissa.length = cs.length then none else some []
    | _ :: ds => plainDigits isDecimal ds
  let x := floatOf (ofDigits 10 (whole ++ fraction)) (exponent - fraction.length)
  let y := if isNegative then -x else x
  if y.isInf && !isNegative then none else some (.float y)

/-- The words for numbers that have no digits. -/
def special? (cs : List Char) : Option SettingValue :=
  let (isNegative, name) := splitSign cs
  let infinity : Float := 1.0 / 0.0
  match String.ofList name with
  | "inf" => some (.float (if isNegative then -infinity else infinity))
  | "nan" => some (.float (0.0 / 0.0))
  | _ => none

/-! ## Dates and times -/

def fixedDigits (count : Nat) (cs : List Char) : Option (Nat × List Char) :=
  let ds := cs.take count
  if ds.length = count ∧ ds.all isDecimal then some (ofDigits 10 ds, cs.drop count) else none

def mark (c : Char) : List Char → Option (List Char)
  | d :: rest => if c = d then some rest else none
  | [] => none

def daysOf (year month : Nat) : Nat :=
  if month = 2 then
    if year % 4 = 0 ∧ (year % 100 ≠ 0 ∨ year % 400 = 0) then 29 else 28
  else if month = 4 ∨ month = 6 ∨ month = 9 ∨ month = 11 then 30
  else 31

/-- A number in so many digits. -/
def padded (width n : Nat) : String :=
  let ds := Decimal.naturalChars n
  String.ofList (List.replicate (width - ds.length) '0' ++ ds)

/-- Which times of the day and which offsets there are. -/
structure Clock where
  lastHour : Nat
  /-- Whether an offset may have so many hours and minutes. -/
  hasOffset : Nat → Nat → Bool

/-- The clock of times that stand in a document as they are. -/
def Clock.strict : Clock where
  lastHour := 23
  hasOffset hour minute := hour ≤ 23 && minute ≤ 59

def dayMinutes : Nat := 24 * 60

/-- The clock of times that stand in quotes. It knows the end of a day, and offsets of up to one
day in any form. -/
def Clock.quoted : Clock where
  lastHour := 24
  hasOffset hour minute := hour * 60 + minute ≤ dayMinutes

def date? (cs : List Char) : Option (String × List Char) := do
  let (year, cs) ← fixedDigits 4 cs
  let (month, cs) ← fixedDigits 2 (← mark '-' cs)
  let (day, cs) ← fixedDigits 2 (← mark '-' cs)
  if month = 0 ∨ 12 < month ∨ day = 0 ∨ daysOf year month < day then none
  else some (padded 4 year ++ "-" ++ padded 2 month ++ "-" ++ padded 2 day, cs)

/-- The digits of a fraction of a second: at most nine, and no zeros at the end. -/
def fractionText (ds : List Char) : String :=
  let kept := ((ds.take 9).reverse.dropWhile (· = '0')).reverse
  if kept.isEmpty then "" else "." ++ String.ofList kept

def Clock.time? (k : Clock) (cs : List Char) : Option (String × List Char) := do
  let (hour, cs) ← fixedDigits 2 cs
  let (minute, cs) ← fixedDigits 2 (← mark ':' cs)
  let (second, cs) ← fixedDigits 2 (← mark ':' cs)
  if k.lastHour < hour ∨ 59 < minute ∨ 60 < second then none
  else
    let whole := padded 2 hour ++ ":" ++ padded 2 minute ++ ":" ++ padded 2 second
    match cs with
    | '.' :: rest =>
        let ds := rest.takeWhile isDecimal
        if ds.isEmpty then none else some (whole ++ fractionText ds, rest.dropWhile isDecimal)
    | _ => some (whole, cs)

/-- The text of an offset of so many minutes. No offset at all is written with a plus. -/
def offsetText (sign : String) (minutes : Nat) : String :=
  (if minutes = 0 then "+" else sign) ++ padded 2 (minutes / 60) ++ ":" ++ padded 2 (minutes % 60)

def Clock.offset? (k : Clock) : List Char → Option (String × List Char)
  | 'Z' :: rest | 'z' :: rest => some ("Z", rest)
  | '+' :: rest => numeric "+" rest
  | '-' :: rest => numeric "-" rest
  | cs => some ("", cs)
where
  numeric (sign : String) (cs : List Char) : Option (String × List Char) := do
    let (hour, cs) ← fixedDigits 2 cs
    let (minute, cs) ← fixedDigits 2 (← mark ':' cs)
    if k.hasOffset hour minute then some (offsetText sign (hour * 60 + minute), cs) else none

/-- A date, a time of the day, or both, as its text. -/
def Clock.moment? (k : Clock) (cs : List Char) : Option String := do
  match date? cs with
  | some (date, []) => some date
  | some (date, separator :: rest) =>
      if separator ≠ 'T' ∧ separator ≠ 't' ∧ separator ≠ ' ' then none
      let (time, rest) ← k.time? rest
      let (offset, rest) ← k.offset? rest
      if rest.isEmpty then some (date ++ "T" ++ time ++ offset) else none
  | none =>
      match ← k.time? cs with
      | (time, []) => some time
      | _ => none

/-! ## Any scalar -/

def plain? (cs : List Char) : Option SettingValue :=
  match cs with
  | '0' :: 'x' :: ds => based? 16 ds
  | '0' :: 'o' :: ds => based? 8 ds
  | '0' :: 'b' :: ds => based? 2 ds
  | _ =>
      match String.ofList cs with
      | "true" => some (.bool true)
      | "false" => some (.bool false)
      | _ => special? cs <|> decimal? cs <|> float? cs

def scalar? (cs : List Char) : Option Scalar :=
  (plain? cs).map .plain <|> (Clock.strict.moment? cs).map .moment

def isScalarChar (c : Char) : Bool :=
  isDecimal c || ('a' ≤ c && c ≤ 'z') || ('A' ≤ c && c ≤ 'Z') || c = '_' || c = '-' || c = '+' ||
    c = '.' || c = ':'

/-- Cuts a scalar off the front. One blank may stand between a date and a time. -/
def cutScalar (cs : List Char) : List Char × List Char :=
  let run := cs.takeWhile isScalarChar
  let rest := cs.dropWhile isScalarChar
  match date? run, rest with
  | some (_, []), ' ' :: c :: more =>
      if isDecimal c then
        (run ++ ' ' :: (c :: more).takeWhile isScalarChar, (c :: more).dropWhile isScalarChar)
      else (run, rest)
  | _, _ => (run, rest)

end SplitReader.Toml
