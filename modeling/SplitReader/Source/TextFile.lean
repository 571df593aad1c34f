import SplitReader.Source.Range

/-! # Text file sources

A source over the lines of a file. Its offsets are byte offsets. A line belongs to the range
that contains its first byte, so adjacent ranges share no line and miss none. A range that
begins inside the file therefore skips to the first line start in it or behind it: reading one
line from the byte before the range finds that place, also when the range begins with a line.
-/

set_option autoImplicit false

namespace SplitReader

/-- A range of byte offsets of a file. -/
structure TextSource where
  path : String
  start : Nat
  /-- The offset behind the range. -/
  stop : Nat
  deriving DecidableEq, Repr, Inhabited

namespace TextSource

def ofLength (path : String) (length : Nat) (start stop : Option UInt64) :
    Except SourceError TextSource :=
  match resolveOffsets length start stop with
  | .ok (start, stop) => .ok { path, start, stop }
  | .error e => .error (.invalidArgument (.bounds e))

/-- The range of a file that optional bounds name. -/
def new (files : Files) (path : String) (start stop : Option UInt64) :
    Except SourceError TextSource :=
  match files.lookup path with
  | .error e => .error (.io e)
  | .ok (_, node) => ofLength path node.length start stop

/-- The first line start at or behind an offset, with the file read so far. -/
def skipTo (start : Nat) (d : Device) : Except IoError (Nat × BufferedFile) :=
  if start = 0 then .ok (0, {})
  else
    match (BufferedFile.seek (start - 1)).readLine d with
    | (.ok (skipped, file), _) => .ok (start - 1 + skipped.length, file)
    | (.error e, _) => .error e

def readerOn (file : Nat) (node : FileNode) (s : TextSource) : Except SourceError RangeReader :=
  match skipTo s.start { node } with
  | .error e => .error (.io e)
  | .ok (first, buffered) =>
      .ok
        { tracker := .new .byteOffset first s.stop
          supply := .lines file { file := buffered, offset := some first } }

def reader (files : Files) (s : TextSource) : Except SourceError RangeReader :=
  match files.lookup s.path with
  | .error e => .error (.io e)
  | .ok (file, node) => s.readerOn file node

def describe (s : TextSource) : String :=
  "TextLineSource \x7b path: " ++ Text.quoted s.path ++ ", start_offset: " ++
    Decimal.natural s.start ++ ", end_offset: " ++ Decimal.natural s.stop ++ " \x7d"

end TextSource

end SplitReader
