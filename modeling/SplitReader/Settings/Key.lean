import SplitReader.Text.Decimal
import SplitReader.Word

/-! # Keys of settings

A key is a path: a name, and behind it further names after points and numbers in square
brackets. A text that is no path is one name as it stands. Capital letters of a name count as
small ones.
-/

set_option autoImplicit false

namespace SplitReader

inductive SettingKey.Step where
  | member (name : String)
  /-- To the entry of a list. Negative numbers count from the end. -/
  | entry (index : Int)
  deriving DecidableEq, Repr

/-- What a key leads to. -/
structure SettingKey where
  name : String
  steps : List SettingKey.Step
  deriving DecidableEq, Repr, Inhabited

namespace SettingKey

/-- The small letter of a capital one. Besides the letters of ASCII there is one more character
whose small letter is among them, the sign of the kelvin. -/
def smallChar (c : Char) : Char := if c.toNat = 0x212A then 'k' else c.toLower

def small (cs : List Char) : List Char := cs.map smallChar

def nameOf (cs : List Char) : String := String.ofList (small cs)

def isNameChar (c : Char) : Bool := c.isAlphanum || c = '_' || c = '-' || c = ' '

def isBlank (c : Char) : Bool := c = ' ' || c = '\t'

/-- Takes a number and the closing bracket off the front. Numbers are signed words. -/
def index? (cs : List Char) : Option (Int × List Char) := do
  let cs := cs.dropWhile isBlank
  let (isNegative, cs) :=
    match cs with
    | '-' :: rest => (true, rest)
    | cs => (false, cs)
  let n ← Decimal.natural? (cs.takeWhile Char.isDigit)
  let i : Int := if isNegative then -n else n
  match (cs.dropWhile Char.isDigit).dropWhile isBlank with
  | ']' :: rest => if Word.isSigned i then some (i, rest) else none
  | _ => none

/-- The steps that a text goes on with, if it has at most so many and is well formed. -/
def steps? : Nat → List Char → Option (List Step)
  | _, [] => some []
  | most + 1, '.' :: rest =>
      let name := rest.takeWhile isNameChar
      if name.isEmpty then none
      else (steps? most (rest.dropWhile isNameChar)).map (.member (nameOf name) :: ·)
  | most + 1, '[' :: rest =>
      match index? rest with
      | some (i, rest) => (steps? most rest).map (.entry i :: ·)
      | none => none
  | _, _ => none

def ofText (s : String) : SettingKey :=
  let cs := s.toList
  let name := cs.takeWhile isNameChar
  let rest := cs.dropWhile isNameChar
  match name, steps? rest.length rest with
  | _ :: _, some steps => { name := nameOf name, steps }
  | _, _ => { name := nameOf cs, steps := [] }

end SettingKey

end SplitReader
