import SplitReader.Text.Hexadecimal

/-! # Lines of the log

A terminal takes some control characters as commands. In the log they are shown by their
numbers, so that no message can command the terminal. Characters that only move to another
place, such as line ends, are left as they are.
-/

set_option autoImplicit false

namespace SplitReader.LogLine

/-- The commands among the control characters of ASCII: the bell, the step back, the new page,
the escape and the deletion. -/
def commands : List Nat := [0x07, 0x08, 0x0C, 0x1B, 0x7F]

/-- The form of a character in the log. -/
def escape (c : Char) : List Char :=
  let n := c.toNat
  if commands.contains n then ['\\', 'x'] ++ Hexadecimal.byte n.toUInt8
  else if 0x80 ≤ n ∧ n ≤ 0x9F then ['\\', 'u', '\x7b'] ++ Hexadecimal.digits n ++ ['\x7d']
  else [c]

def escaped (s : String) : String := String.ofList (s.toList.flatMap escape)

/-- The part of a text in the log that stands on its first line. -/
def first (s : String) : String :=
  let line := s.toList.takeWhile (· ≠ '\n')
  String.ofList (if line.getLast? = some '\r' then line.dropLast else line)

end SplitReader.LogLine
