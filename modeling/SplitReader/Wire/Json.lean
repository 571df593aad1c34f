import SplitReader.Event
import SplitReader.Json.Format
import SplitReader.Progress

/-! # JSON forms of positions, progresses and events

A position is an object with one member that is named for the kind of the position, and the
end is the name of its kind alone. A progress and an event are objects of their fields; a
progress leaves out the share of completed work and the remaining time where there is none.
-/

set_option autoImplicit false

namespace SplitReader

open Json

/-! ## Positions -/

namespace Position

def readPayload (kind : String) : Reader Position := fun tokens =>
  match kind with
  | "record_index" => (Format.uint64.read tokens).map fun (n, rest) => (.recordIndex n, rest)
  | "byte_offset" => (Format.uint64.read tokens).map fun (n, rest) => (.byteOffset n, rest)
  | "key" => (Format.string.read tokens).map fun (s, rest) => (.key s, rest)
  | "shuffle_position" =>
      (Format.string.read tokens).map fun (s, rest) => (.shufflePosition s, rest)
  | _ => (Reader.single Reader.unit tokens).map fun (_, rest) => (.endOfRange, rest)

/-- A text that is the name of a kind. -/
def kindOf (name : String) : Except Json.Error String :=
  if kindNames.contains name then .ok name else .error (.unknownVariant name kindNames)

/-- Reads a position: an object of one member, or the name of the one kind that has no
payload. The name of the member is a key like that of any object, and what is no text in its place
breaks the grammar. -/
def readJson : Reader Position
  | .beginObject :: rest => do
      let (name, rest) ← Reader.key rest
      let kind ← kindOf name
      let (position, rest) ← readPayload kind (← Reader.afterColon rest)
      return (position, ← Reader.endObject rest)
  | tokens => do
      let (name, rest) ← Reader.key tokens
      let kind ← kindOf name
      if kind = "end" then return (.endOfRange, rest) else throw .mismatch

def writeJson : Position → String
  | recordIndex n => Writer.object [("record_index", Format.uint64.write n)]
  | byteOffset n => Writer.object [("byte_offset", Format.uint64.write n)]
  | key k => Writer.object [("key", Format.string.write k)]
  | shufflePosition place => Writer.object [("shuffle_position", Format.string.write place)]
  | endOfRange => Writer.text "end"

def json : Format Position := { read := readJson, write := writeJson }

end Position

/-! ## Lengths of time -/

namespace Duration

def ofRead (secs : UInt64) (nanos : UInt32) : Except Json.Error Duration :=
  match ofParts? secs nanos with
  | some d => .ok d
  | none => .error .mismatch

/-- Reads one field of a length of time. No other fields are allowed. -/
def readField (name : String) (seen : Option UInt64 × Option UInt32) :
    Reader (Option UInt64 × Option UInt32) := fun tokens =>
  match name with
  | "secs" => do
      let (secs, rest) ← Reader.field "secs" Format.uint64.read seen.1 tokens
      return ((secs, seen.2), rest)
  | "nanos" => do
      let (nanos, rest) ← Reader.field "nanos" Format.uint32.read seen.2 tokens
      return ((seen.1, nanos), rest)
  | _ => throw .mismatch

def readJson : Reader Duration :=
  Reader.structured
    (fun tokens => do
      let (seen, rest) ← Reader.members readField (none, none) tokens
      let secs ← Reader.required "secs" seen.1
      let nanos ← Reader.required "nanos" seen.2
      return (← ofRead secs nanos, rest))
    (fun tokens => do
      let (secs, rest) ← Reader.requiredElement true Format.uint64.read tokens
      let (nanos, rest) ← Reader.requiredElement false Format.uint32.read rest
      return (← ofRead secs nanos, rest))

def writeJson (d : Duration) : String :=
  Writer.object [("secs", Format.uint64.write d.secs), ("nanos", Format.uint32.write d.nanos)]

def json : Format Duration := { read := readJson, write := writeJson }

end Duration

/-! ## Progresses -/

namespace Progress

/-- The fields of a progress that were read so far. A field that was read can hold the word for
none. -/
structure Fields where
  position : Option (Option Position) := none
  percentComplete : Option (Option Binary32) := none
  remainingTime : Option (Option Duration) := none

/-- Reads one field of a progress and skips others. -/
def readField (name : String) (seen : Fields) : Reader Fields := fun tokens =>
  match name with
  | "position" => do
      let (position, rest) ←
        Reader.field name Position.json.optional.read seen.position tokens
      return ({ seen with position }, rest)
  | "percent_complete" => do
      let (percentComplete, rest) ←
        Reader.field name Format.binary32.optional.read seen.percentComplete tokens
      return ({ seen with percentComplete }, rest)
  | "remaining_time" => do
      let (remainingTime, rest) ←
        Reader.field name Duration.json.optional.read seen.remainingTime tokens
      return ({ seen with remainingTime }, rest)
  | _ => Reader.ignored seen tokens

/-- Reads a progress. Every field may be missing in an object, and the last two in an array. -/
def readJson : Reader Progress :=
  Reader.structured
    (fun tokens => do
      let (seen, rest) ← Reader.members readField {} tokens
      return (⟨seen.position.join, seen.percentComplete.join, seen.remainingTime.join⟩, rest))
    (fun tokens => do
      let (position, rest) ← Reader.requiredElement true Position.json.optional.read tokens
      let (percent, rest) ← Reader.element false Format.binary32.optional.read rest
      let (time, rest) ← Reader.element false Duration.json.optional.read rest
      return (⟨position, percent.join, time.join⟩, rest))

def writeJson (p : Progress) : String :=
  Writer.object <|
    [("position", Position.json.optional.write p.position)] ++
    (p.percentComplete.toList.map fun x => ("percent_complete", Format.binary32.write x)) ++
    (p.remainingTime.toList.map fun d => ("remaining_time", Duration.json.write d))

def json : Format Progress := { read := readJson, write := writeJson }

end Progress

/-! ## Events -/

namespace Event

/-- Reads one field of an event and skips others. -/
def readField (name : String) (seen : Option UInt32 × Option String) :
    Reader (Option UInt32 × Option String) := fun tokens =>
  match name with
  | "id" => do
      let (id, rest) ← Reader.field name Format.uint32.read seen.1 tokens
      return ((id, seen.2), rest)
  | "name" => do
      let (text, rest) ← Reader.field name Format.string.read seen.2 tokens
      return ((seen.1, text), rest)
  | _ => Reader.ignored seen tokens

def readJson : Reader Event :=
  Reader.structured
    (fun tokens => do
      let (seen, rest) ← Reader.members readField (none, none) tokens
      let id ← Reader.required "id" seen.1
      let name ← Reader.required "name" seen.2
      return (⟨id, name⟩, rest))
    (fun tokens => do
      let (id, rest) ← Reader.requiredElement true Format.uint32.read tokens
      let (name, rest) ← Reader.requiredElement false Format.string.read rest
      return (⟨id, name⟩, rest))

def writeJson (e : Event) : String :=
  Writer.object [("id", Format.uint32.write e.id), ("name", Format.string.write e.name)]

def json : Format Event := { read := readJson, write := writeJson }

end Event

end SplitReader
