/-! # Hexadecimal digits

Numbers in base sixteen. They are written in small letters without zeros in front, and read in
letters of either case.
-/

set_option autoImplicit false

namespace SplitReader.Hexadecimal

/-! ## Writing -/

def digit (n : Nat) : Char := if n < 10 then Char.ofNat (0x30 + n) else Char.ofNat (0x57 + n)

def digits (n : Nat) : List Char :=
  if n < 16 then [digit n] else digits (n / 16) ++ [digit (n % 16)]
termination_by n
decreasing_by omega

def byte (b : UInt8) : List Char := [digit (b.toNat / 16), digit (b.toNat % 16)]

/-! ## Reading -/

def value? (c : Char) : Option Nat :=
  if '0' ≤ c ∧ c ≤ '9' then some (c.toNat - 0x30)
  else if 'a' ≤ c ∧ c ≤ 'f' then some (c.toNat - 0x57)
  else if 'A' ≤ c ∧ c ≤ 'F' then some (c.toNat - 0x37)
  else none

def number? (ds : List Char) : Option Nat := do
  return (← ds.mapM value?).foldl (fun n d => n * 16 + d) 0

/-- The character whose number some digits give. Halves of pairs are no characters. -/
def char? (ds : List Char) : Option Char := do
  let n ← number? ds
  if n < 0xD800 ∨ (0xE000 ≤ n ∧ n < 0x110000) then some (Char.ofNat n) else none

end SplitReader.Hexadecimal
