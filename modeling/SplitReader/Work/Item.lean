/-! # Work items

A work item is one unit of assigned work: an identifier and the description of a bounded range
of some source. The records of an in-memory source are carried as texts, which stand for bytes
in one of two ways.
-/

set_option autoImplicit false

namespace SplitReader

/-- How a text stands for the bytes of a record. -/
inductive RecordEncoding where
  | utf8
  /-- One byte for every character, which must not be above U+00FF. -/
  | byteString
  deriving DecidableEq, Repr, Inhabited

namespace RecordEncoding

def name : RecordEncoding → String
  | utf8 => "utf8"
  | byteString => "byte_string"

/-- The names of all encodings, in the order in which they are numbered. -/
def names : List String := [utf8.name, byteString.name]

def ofName? (s : String) : Option RecordEncoding :=
  if s = utf8.name then some utf8 else if s = byteString.name then some byteString else none

end RecordEncoding

/-- A bounded range of records. -/
inductive SourceSpec where
  | inMemory (records : List String) (encoding : RecordEncoding) (start stop : Option Int64)
  /-- The lines of a file that begin in a range of byte offsets. -/
  | textFile (path : String) (start stop : Option UInt64)
  deriving DecidableEq, Repr, Inhabited

/-- One unit of assigned work. -/
structure WorkItem where
  id : String
  source : SourceSpec
  deriving DecidableEq, Repr, Inhabited

end SplitReader
