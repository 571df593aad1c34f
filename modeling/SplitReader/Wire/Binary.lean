import SplitReader.Binary.Format
import SplitReader.Event
import SplitReader.Progress

/-! # Binary forms of positions, progresses and events

A position is the number of its kind and its payload. A progress and an event are their fields
in order. A progress leaves out the share of completed work and the remaining time where there
is none; since nothing marks the gap, only a progress that has both is read back as it was.
-/

set_option autoImplicit false

namespace SplitReader

open Binary

/-! ## Positions -/

namespace Position

/-- The number of the kind of a position. -/
def choice : Position → UInt32
  | recordIndex _ => 0
  | byteOffset _ => 1
  | key _ => 2
  | shufflePosition _ => 3
  | endOfRange => 4

def readBinary : Binary.Reader Position := fun bytes =>
  match Format.uint32.read bytes with
  | .error e => .error e
  | .ok (choice, rest) =>
      match choice.toNat with
      | 0 => (Format.uint64.read rest).map fun (n, rest) => (.recordIndex n, rest)
      | 1 => (Format.uint64.read rest).map fun (n, rest) => (.byteOffset n, rest)
      | 2 => (Format.string.read rest).map fun (s, rest) => (.key s, rest)
      | 3 => (Format.string.read rest).map fun (s, rest) => (.shufflePosition s, rest)
      | 4 => .ok (.endOfRange, rest)
      | n => .error (.invalidChoice n kindNames.length)

def writePayload : Position → List UInt8
  | recordIndex n | byteOffset n => Format.uint64.write n
  | key s | shufflePosition s => Format.string.write s
  | endOfRange => []

def binary : Binary.Format Position where
  read := readBinary
  write p := Format.uint32.write p.choice ++ p.writePayload

end Position

/-! ## Lengths of time -/

def Duration.binary : Binary.Format Duration where
  read bytes := do
    let (secs, rest) ← Format.uint64.read bytes
    let (nanos, rest) ← Format.uint32.read rest
    match Duration.ofParts? secs nanos with
    | some d => return (d, rest)
    | none => throw .durationOverflow
  write d := Format.uint64.write d.secs ++ Format.uint32.write d.nanos

/-! ## Progresses -/

/-- The binary form of single precision numbers: their bits. -/
def Binary32.binary : Binary.Format Binary32 where
  read bytes := (Format.uint32.read bytes).map fun (bits, rest) => (⟨bits⟩, rest)
  write x := Format.uint32.write x.bits

def Progress.binary : Binary.Format Progress where
  read bytes := do
    let (position, rest) ← Position.binary.optional.read bytes
    let (percentComplete, rest) ← Binary32.binary.optional.read rest
    let (remainingTime, rest) ← Duration.binary.optional.read rest
    return ({ position, percentComplete, remainingTime }, rest)
  write p :=
    Position.binary.optional.write p.position ++
      (if p.percentComplete.isSome then Binary32.binary.optional.write p.percentComplete else []) ++
      (if p.remainingTime.isSome then Duration.binary.optional.write p.remainingTime else [])

/-! ## Events -/

def Event.binary : Binary.Format Event where
  read bytes := do
    let (id, rest) ← Format.uint32.read bytes
    let (name, rest) ← Format.string.read rest
    return ({ id, name }, rest)
  write e := Format.uint32.write e.id ++ Format.string.write e.name

end SplitReader
