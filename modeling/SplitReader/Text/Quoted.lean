import SplitReader.Text.Combining
import SplitReader.Text.Hexadecimal
import SplitReader.Text.Invisible

/-! # Quoted text in messages

A message that shows a character or a text puts it between quotes. The common control
characters, the backslash and the quote in use are escaped by a backslash and a letter or
themselves; other characters that cannot be seen, or that would merge with the one before
them, are shown by their number.
-/

set_option autoImplicit false

namespace SplitReader.Text

/-- The number of a character as it is shown in a text. -/
def numberForm (c : Char) : List Char :=
  ['\\', 'u', '\x7b'] ++ Hexadecimal.digits c.toNat ++ ['\x7d']

/-- The form of a character between quotes of the given kind. -/
def escapeWithin (quote c : Char) : List Char :=
  match c.toNat with
  | 0x00 => ['\\', '0']
  | 0x09 => ['\\', 't']
  | 0x0A => ['\\', 'n']
  | 0x0D => ['\\', 'r']
  | 0x5C => ['\\', '\\']
  | _ =>
      if c = quote then ['\\', c]
      else if isCombining c || isInvisible c then numberForm c
      else [c]

def quotedChar (c : Char) : String :=
  String.ofList ('\'' :: escapeWithin '\'' c ++ ['\''])

def quoted (s : String) : String :=
  String.ofList ('"' :: s.toList.flatMap (escapeWithin '"') ++ ['"'])

end SplitReader.Text
