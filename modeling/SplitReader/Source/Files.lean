import SplitReader.Device

/-! # Files

A file system as far as readers see it: files with a number each, and names that lead to
numbers. A reader that was opened keeps the number. A new file of an old name has another
number, so the reader goes on with the old one; a file that is written again in place keeps
its number.
-/

set_option autoImplicit false

namespace SplitReader

/-- The files of a system and their names. -/
structure Files where
  nodes : List FileNode := []
  names : List (String × Nat) := []
  deriving DecidableEq, Repr, Inhabited

namespace Files

def number? (path : String) (fs : Files) : Option Nat := fs.names.lookup path

def node (number : Nat) (fs : Files) : FileNode := fs.nodes.getD number (.regular [])

/-- The number of bytes that a name must stay below. -/
def maxName : Nat := 4096

/-- The largest number of bytes of a part of a name between two slashes. -/
def maxPart : Nat := 255

/-- The name, or one of its parts, is longer than names may be. -/
def isTooLong (path : String) : Bool :=
  maxName ≤ path.utf8ByteSize ||
    (path.toList.splitOn '/').any fun part => maxPart < (String.ofList part).utf8ByteSize

/-- The number and the file that a name leads to. -/
def lookup (path : String) (fs : Files) : Except IoError (Nat × FileNode) :=
  if path.toList.contains '\x00' then .error .zeroInName
  else
    match fs.number? path with
    | some number => .ok (number, fs.node number)
    | none => .error (if isTooLong path then .nameTooLong else .notFound)

/-- Takes a name away. Readers of its file are not affected. -/
def remove (path : String) (fs : Files) : Files :=
  { fs with names := fs.names.filter fun entry => entry.1 != path }

/-- Puts a new file in the place of whatever had its name. -/
def put (path : String) (node : FileNode) (fs : Files) : Files where
  nodes := fs.nodes ++ [node]
  names := (path, fs.nodes.length) :: (fs.remove path).names

/-- Writes the file of a name again in place. -/
def overwrite (path : String) (node : FileNode) (fs : Files) : Files :=
  match fs.number? path with
  | none => fs.put path node
  | some number => { fs with nodes := fs.nodes.set number node }

end Files

end SplitReader
