import SplitReader.Json.Reader

/-! # JSON values of any shape

Where the type of a value is only known after a part of it was read, the whole value is kept
as a tree first. Trees nest only so deep: an opening bracket past the limit is a fault.
-/

set_option autoImplicit false

namespace SplitReader.Json

/-- A JSON value. An object keeps its members in the order of the text, equal keys included. -/
inductive Value where
  | null
  | bool (b : Bool)
  | number (n : Numeral)
  | text (s : String)
  | array (items : List Value)
  | object (members : List (String × Value))
  deriving Inhabited

namespace Value

/-- How many containers a text may nest. -/
def depthLimit : Nat := 127

/-- Reads a value that nests at most so many containers. -/
def read : Nat → Reader Value
  | _, [] => .error .endOfText
  | _, .null :: rest => .ok (.null, rest)
  | _, .bool b :: rest => .ok (.bool b, rest)
  | _, .number n :: rest => (Reader.checked n).map fun n => (.number n, rest)
  | _, .text content :: rest => content.map fun s => (.text s, rest)
  | depth + 1, .beginArray :: rest => do
      let (items, rest) ← Reader.elements (read depth) rest
      return (.array items, ← Reader.endArray rest)
  | depth + 1, .beginObject :: rest => do
      let step := fun key (ms : List (String × Value)) tokens => do
        let (v, rest) ← read depth (← Reader.afterColon tokens)
        return ((key, v) :: ms, rest)
      let (ms, rest) ← Reader.members step [] rest
      return (.object ms.reverse, ← Reader.endObject rest)
  | 0, .beginArray :: _ => .error .malformed
  | 0, .beginObject :: _ => .error .malformed
  | _, t :: _ => .error (Reader.refusal t)

def ofBytes (bytes : List UInt8) : Except Error Value := Reader.run (read depthLimit) bytes

def member? (key : String) : Value → Option Value
  | object members => members.lookup key
  | _ => none

end Value

end SplitReader.Json
