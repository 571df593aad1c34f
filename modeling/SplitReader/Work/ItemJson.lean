import SplitReader.Json.Format
import SplitReader.Json.Value
import SplitReader.Work.Item

/-! # JSON form of work items

A work item is an object of its identifier and its source. A source is an object whose member
`kind` says which other members it has; that member may stand anywhere, so the others are kept
as trees until it is known. Bounds may be missing or empty, and a missing encoding is UTF-8.
Members that are not known are skipped. Written items name every member and write empty bounds
out.
-/

set_option autoImplicit false

namespace SplitReader

open Json

/-! ## Parts of a source -/

namespace SourceSpec

def inMemoryKind : String := "in_memory"

def textFileKind : String := "text_file"

def kindNames : List String := [inMemoryKind, textFileKind]

def readKind : Reader String := fun tokens => do
  let (name, rest) ← Format.string.read tokens
  if kindNames.contains name then return (name, rest)
  else throw (.unknownVariant name kindNames)

def textOf : Value → Except Json.Error String
  | .text s => .ok s
  | _ => .error .mismatch

def textsOf : Value → Except Json.Error (List String)
  | .array items => items.mapM textOf
  | _ => .error .mismatch

/-- The signed bound that a value is. -/
def signedOf : Value → Except Json.Error (Option Int64)
  | .null => .ok none
  | .number (.natural n) =>
      if n.toNat < Word.signedBound then .ok (some (Int64.ofNat n.toNat)) else .error .mismatch
  | .number (.negative n) => .ok (some n)
  | _ => .error .mismatch

/-- The unsigned bound that a value is. -/
def unsignedOf : Value → Except Json.Error (Option UInt64)
  | .null => .ok none
  | .number (.natural n) => .ok (some n)
  | _ => .error .mismatch

def encodingNamed (name : String) : Except Json.Error RecordEncoding :=
  match RecordEncoding.ofName? name with
  | some encoding => .ok encoding
  | none => .error (.unknownVariant name RecordEncoding.names)

/-- The encoding that a value names: by a text, or by an object of one member that is empty. -/
def encodingOf : Value → Except Json.Error RecordEncoding
  | .text name => encodingNamed name
  | .object [(name, content)] => do
      let encoding ← encodingNamed name
      match content with
      | .null | .object [] => return encoding
      | _ => throw .mismatch
  | _ => .error .mismatch

/-- Keeps the value of a field that must not have occurred before. -/
def keep {α : Type} (name : String) (read : Value → Except Json.Error α) (seen : Option α)
    (v : Value) : Except Json.Error (Option α) :=
  match seen with
  | some _ => .error (.duplicateField name)
  | none => (read v).map some

/-! ## In-memory sources -/

/-- The fields of an in-memory source that were read so far. A bound that was read can be the word
for none. -/
structure MemoryFields where
  records : Option (List String) := none
  encoding : Option RecordEncoding := none
  start : Option (Option Int64) := none
  stop : Option (Option Int64) := none

/-- Keeps one member of an in-memory source and leaves out others. -/
def keepMemoryField (seen : MemoryFields) (m : String × Value) :
    Except Json.Error MemoryFields :=
  match m.1 with
  | "records" => (keep m.1 textsOf seen.records m.2).map fun x => { seen with records := x }
  | "encoding" => (keep m.1 encodingOf seen.encoding m.2).map fun x => { seen with encoding := x }
  | "start_index" => (keep m.1 signedOf seen.start m.2).map fun x => { seen with start := x }
  | "end_index" => (keep m.1 signedOf seen.stop m.2).map fun x => { seen with stop := x }
  | _ => .ok seen

def memoryOfMembers (ms : List (String × Value)) : Except Json.Error SourceSpec := do
  let seen ← ms.foldlM keepMemoryField {}
  let records ← Reader.required "records" seen.records
  return .inMemory records (seen.encoding.getD .utf8) seen.start.join seen.stop.join

/-- The in-memory source of the elements of an array, of which only the first must be there. -/
def memoryOfItems : List Value → Except Json.Error SourceSpec
  | [] => .error .mismatch
  | records :: more => do
      let records ← textsOf records
      let encoding ← (more[0]?.map encodingOf).getD (.ok .utf8)
      let start ← (more[1]?.map signedOf).getD (.ok none)
      let stop ← (more[2]?.map signedOf).getD (.ok none)
      if 3 < more.length then throw .mismatch
      return .inMemory records encoding start stop

/-! ## Text file sources -/

/-- The fields of a text file source that were read so far. -/
structure TextFields where
  path : Option String := none
  start : Option (Option UInt64) := none
  stop : Option (Option UInt64) := none

/-- Keeps one member of a text file source and leaves out others. -/
def keepTextField (seen : TextFields) (m : String × Value) : Except Json.Error TextFields :=
  match m.1 with
  | "path" => (keep m.1 textOf seen.path m.2).map fun x => { seen with path := x }
  | "start_offset" => (keep m.1 unsignedOf seen.start m.2).map fun x => { seen with start := x }
  | "end_offset" => (keep m.1 unsignedOf seen.stop m.2).map fun x => { seen with stop := x }
  | _ => .ok seen

def textOfMembers (ms : List (String × Value)) : Except Json.Error SourceSpec := do
  let seen ← ms.foldlM keepTextField {}
  let path ← Reader.required "path" seen.path
  return .textFile path seen.start.join seen.stop.join

/-- The text file source of the elements of an array, of which only the first must be there. -/
def textOfItems : List Value → Except Json.Error SourceSpec
  | [] => .error .mismatch
  | path :: more => do
      let path ← textOf path
      let start ← (more[0]?.map unsignedOf).getD (.ok none)
      let stop ← (more[1]?.map unsignedOf).getD (.ok none)
      if 2 < more.length then throw .mismatch
      return .textFile path start stop

/-! ## Sources -/

/-- How many containers a member of a source may nest: two fewer than a whole text may, since
the work item and its source are open. -/
def memberDepth : Nat := Value.depthLimit - 2

/-- The kind and the other members of a source that were read so far, the last one first. -/
structure Fields where
  kind : Option String := none
  others : List (String × Value) := []

def readField (name : String) (seen : Fields) : Reader Fields := fun tokens =>
  match name with
  | "kind" => do
      let (kind, rest) ← Reader.field name readKind seen.kind tokens
      return ({ seen with kind }, rest)
  | _ => do
      let (v, rest) ← Value.read memberDepth (← Reader.afterColon tokens)
      return ({ seen with others := (name, v) :: seen.others }, rest)

/-- Where the members of a source come from. -/
inductive Parts where
  | members (ms : List (String × Value))
  | items (vs : List Value)

/-- The source of a kind and its other parts. -/
def ofParts (kind : String) : Parts → Except Json.Error SourceSpec
  | .members ms => if kind = inMemoryKind then memoryOfMembers ms else textOfMembers ms
  | .items vs => if kind = inMemoryKind then memoryOfItems vs else textOfItems vs

def readParts : Reader (String × Parts) :=
  Reader.structured
    (fun tokens => do
      let (seen, rest) ← Reader.members readField {} tokens
      let kind ← Reader.required "kind" seen.kind
      return ((kind, .members seen.others.reverse), rest))
    (fun tokens => do
      match ← Reader.element true readKind tokens with
      | (none, _) => throw (.missingField "kind")
      | (some kind, rest) =>
          let (vs, rest) ←
            Reader.elementsFrom (Value.read memberDepth) (rest.length + 1) false rest
          return ((kind, .items vs), rest))

def readJson : Reader SourceSpec := fun tokens => do
  let ((kind, parts), rest) ← readParts tokens
  return (← ofParts kind parts, rest)

def writeJson : SourceSpec → String
  | inMemory records encoding start stop =>
      Writer.object
        [("kind", Writer.text inMemoryKind), ("records", Format.string.list.write records),
          ("encoding", Writer.text encoding.name),
          ("start_index", Format.int64.optional.write start),
          ("end_index", Format.int64.optional.write stop)]
  | textFile path start stop =>
      Writer.object
        [("kind", Writer.text textFileKind), ("path", Writer.text path),
          ("start_offset", Format.uint64.optional.write start),
          ("end_offset", Format.uint64.optional.write stop)]

end SourceSpec

/-! ## Work items -/

namespace WorkItem

def readField (name : String) (seen : Option String × Option SourceSpec) :
    Reader (Option String × Option SourceSpec) := fun tokens =>
  match name with
  | "id" => do
      let (id, rest) ← Reader.field name Format.string.read seen.1 tokens
      return ((id, seen.2), rest)
  | "source" => do
      let (source, rest) ← Reader.field name SourceSpec.readJson seen.2 tokens
      return ((seen.1, source), rest)
  | _ => Reader.ignored seen tokens

def readJson : Reader WorkItem :=
  Reader.structured
    (fun tokens => do
      let (seen, rest) ← Reader.members readField (none, none) tokens
      let id ← Reader.required "id" seen.1
      let source ← Reader.required "source" seen.2
      return (⟨id, source⟩, rest))
    (fun tokens => do
      let (id, rest) ← Reader.requiredElement true Format.string.read tokens
      let (source, rest) ← Reader.requiredElement false SourceSpec.readJson rest
      return (⟨id, source⟩, rest))

def writeJson (w : WorkItem) : String :=
  Writer.object [("id", Writer.text w.id), ("source", w.source.writeJson)]

def json : Format WorkItem := { read := readJson, write := writeJson }

end WorkItem

end SplitReader
