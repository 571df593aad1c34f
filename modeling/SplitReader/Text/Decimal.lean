/-! # Decimal digits

Natural numbers as decimal text, and back.
-/

set_option autoImplicit false

namespace SplitReader.Decimal

def digitChar (d : Nat) : Char := Char.ofNat (0x30 + d)

/-- The decimal digits of a number, the highest first. Zero has one digit. -/
def digits (n : Nat) : List Nat :=
  if n < 10 then [n] else digits (n / 10) ++ [n % 10]
termination_by n
decreasing_by omega

def naturalChars (n : Nat) : List Char := (digits n).map digitChar

def natural (n : Nat) : String := String.ofList (naturalChars n)

def integer (n : Int) : String :=
  if n < 0 then "-" ++ natural n.natAbs else natural n.natAbs

/-- The number that decimal digits write, the highest first. -/
def ofDigits (ds : List Nat) : Nat := ds.foldl (fun n d => n * 10 + d) 0

def digit? (c : Char) : Option Nat :=
  if '0' ≤ c ∧ c ≤ '9' then some (c.toNat - 0x30) else none

/-- The number that a text of decimal digits writes. An empty text writes none. -/
def natural? (cs : List Char) : Option Nat :=
  if cs.isEmpty then none else (cs.mapM digit?).map ofDigits

end SplitReader.Decimal
