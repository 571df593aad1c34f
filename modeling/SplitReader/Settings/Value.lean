import SplitReader.Text.Shortest
import SplitReader.Word

/-! # Setting values

Settings come from files of two formats and from the environment. Whatever the format, a
setting is one of a few kinds of values. Scalars stand in for each other where that makes
sense: numbers and truth values for texts, and texts and truth values for numbers.
-/

set_option autoImplicit false

namespace SplitReader

inductive SettingValue where
  | null
  | bool (b : Bool)
  | integer (n : Int)
  | float (x : Float)
  | text (s : String)
  /-- A list, by its length and its entries with their numbers. Entries that are not there are
  no values. -/
  | list (length : Nat) (entries : List (Nat × SettingValue))
  /-- A table, with its keys in some order. -/
  | table (members : List (String × SettingValue))
  deriving Inhabited

namespace SettingValue

def ofItems (vs : List SettingValue) : SettingValue :=
  .list vs.length (vs.zipIdx.map fun (v, i) => (i, v))

/-- The numbers in texts: all digits, and a point only before a fraction. -/
def numberLayout : Shortest.Layout where
  maxWhole := none
  maxZeros := none
  keepsPoint := false
  signsExponent := false

def floatText (x : Float) : String :=
  if x.isNaN then "NaN"
  else if x.isInf then (if x < 0 then "-inf" else "inf")
  else numberLayout.signed (Word.signedBound ≤ x.toBits.toNat) (Shortest.ofFloat x)

def asText? : SettingValue → Option String
  | text s => some s
  | bool b => some (if b then "true" else "false")
  | integer n => some (Decimal.integer n)
  | float x => some (floatText x)
  | null | list _ _ | table _ => none

/-- The number that a text stands for: a word for a truth value in any case, or decimal digits
behind an optional plus. -/
def wordOfText? (s : String) : Option UInt64 :=
  match s.toLower with
  | "true" | "on" | "yes" => some 1
  | "false" | "off" | "no" => some 0
  | _ =>
      let digits :=
        match s.toList with
        | '+' :: rest => rest
        | cs => cs
      match Decimal.natural? digits with
      | some n => if n < UInt64.size then some (UInt64.ofNat n) else none
      | none => none

/-- The number that a value stands for. Floating point numbers are rounded to the nearest whole
number, a half away from zero, and held to the range of words. -/
def asWord? : SettingValue → Option UInt64
  | integer n => if 0 ≤ n ∧ n < UInt64.size then some (UInt64.ofNat n.toNat) else none
  | float x => some x.round.toUInt64
  | bool b => some (if b then 1 else 0)
  | text s => wordOfText? s
  | null | list _ _ | table _ => none

end SettingValue

end SplitReader
