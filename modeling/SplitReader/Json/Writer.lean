import SplitReader.Text.Decimal
import SplitReader.Text.Hexadecimal

/-! # Writing JSON

Values are written without blanks. In a text, quotes, backslashes and control characters are
escaped, the common control characters by a letter and the others by four lower case
hexadecimal digits; every other character stands for itself.
-/

set_option autoImplicit false

namespace SplitReader.Json.Writer

/-- The form of a character between quotes. -/
def escape (c : Char) : List Char :=
  match c.toNat with
  | 0x22 => ['\\', '"']
  | 0x5C => ['\\', '\\']
  | 0x08 => ['\\', 'b']
  | 0x09 => ['\\', 't']
  | 0x0A => ['\\', 'n']
  | 0x0C => ['\\', 'f']
  | 0x0D => ['\\', 'r']
  | n => if n < 0x20 then ['\\', 'u', '0', '0'] ++ Hexadecimal.byte c.toUInt8 else [c]

def text (s : String) : String := String.ofList ('"' :: s.toList.flatMap escape ++ ['"'])

def null : String := "null"

def bool (b : Bool) : String := if b then "true" else "false"

def natural (n : Nat) : String := Decimal.natural n

def integer (n : Int) : String := Decimal.integer n

/-- A value, or the word for none. -/
def optional {α : Type} (write : α → String) : Option α → String
  | none => null
  | some a => write a

/-- Written values with commas between them. -/
def separated : List String → String
  | [] => ""
  | [a] => a
  | a :: as => a ++ "," ++ separated as

def array (items : List String) : String := "[" ++ separated items ++ "]"

def member (key value : String) : String := text key ++ ":" ++ value

def object (members : List (String × String)) : String :=
  "\x7b" ++ separated (members.map fun (key, value) => member key value) ++ "\x7d"

end SplitReader.Json.Writer
