import SplitReader.Device

/-! # Reading lines

A line reader gives the line that begins at a given offset of a file. Bytes are fetched in
blocks, and bytes that were fetched and not used wait in a buffer, so a line that follows the
last one is read without moving the device. For that the reader remembers the offset at which
it stands. It forgets the offset before every read and learns it again only when the read has
succeeded: a read that fails half way leaves the reader somewhere unknown, and the next one
moves the device first.

The terminator of a line, a line feed with or without a carriage return before it, is cut off.
-/

set_option autoImplicit false

namespace SplitReader

/-! ## Buffered files -/

/-- The place of a device and the bytes that were fetched before it and not used. -/
structure BufferedFile where
  /-- The offset from which the next block is fetched. -/
  position : Nat := 0
  /-- The bytes before it that were fetched and not used. -/
  buffer : List UInt8 := []
  deriving DecidableEq, Repr, Inhabited

namespace BufferedFile

def blockSize : Nat := 8192

def lineFeed : UInt8 := 0x0A

def carriageReturn : UInt8 := 0x0D

/-- A file that is read from an offset on. Fetched bytes are dropped. Moving is taken to succeed;
what may fail is the read behind it. -/
def seek (offset : Nat) : BufferedFile := { position := offset }

/-- Fetches a block if no bytes are waiting. -/
def fill (f : BufferedFile) (d : Device) : Except IoError BufferedFile × Device :=
  if f.buffer.isEmpty then
    match d.read f.position blockSize with
    | (.ok bytes, d) => (.ok { position := f.position + bytes.length, buffer := bytes }, d)
    | (.error e, d) => (.error e, d)
  else
    (.ok f, d)

/-- How many bytes of a device are not used yet. -/
def unused (f : BufferedFile) (d : Device) : Nat :=
  f.buffer.length + (d.node.content.length - f.position)

/-- Fetching uses nothing. -/
theorem unused_le_of_fill {f f' : BufferedFile} {d d' : Device}
    (h : f.fill d = (.ok f', d')) : f'.unused d' ≤ f.unused d := by
  unfold fill at h
  split at h
  · split at h
    · next bytes d'' hread =>
      cases h
      have h1 := Device.length_le_of_read hread
      have h2 := Device.node_read f.position blockSize d
      rw [hread] at h2
      simp only at h2
      simp only [unused, h2]
      omega
    · cases h
  · cases h
    exact Nat.le_refl _

/-- Reads up to and with the next line feed, or to the end of the file. Gives the bytes, the
file behind them and the device; after a fault the place of the file is not known. -/
def readLine (f : BufferedFile) (d : Device) :
    Except IoError (List UInt8 × BufferedFile) × Device :=
  match _h : f.fill d with
  | (.error e, d) => (.error e, d)
  | (.ok f, d) =>
      if f.buffer.isEmpty then (.ok ([], f), d)
      else if f.buffer.contains lineFeed then
        let line := f.buffer.takeWhile (· != lineFeed) ++ [lineFeed]
        (.ok (line, { f with buffer := f.buffer.drop line.length }), d)
      else
        match readLine { f with buffer := [] } d with
        | (.error e, d) => (.error e, d)
        | (.ok (line, f'), d) => (.ok (f.buffer ++ line, f'), d)
termination_by f.unused d
decreasing_by
  have h1 := unused_le_of_fill _h
  have h2 : 0 < f.buffer.length := by
    cases hb : f.buffer with
    | nil => simp_all
    | cons _ _ => simp
  simp only [unused] at *
  simp only [List.length_nil]
  omega

end BufferedFile

/-! ## Line readers -/

structure LineReader where
  file : BufferedFile
  /-- The offset at which the file stands, if it is known. -/
  offset : Option Nat
  deriving DecidableEq, Repr, Inhabited

namespace LineReader

def stripTerminator (line : List UInt8) : List UInt8 :=
  if line.getLast? = some BufferedFile.lineFeed then
    let body := line.dropLast
    if body.getLast? = some BufferedFile.carriageReturn then body.dropLast else body
  else line

/-- The file at the given offset: as it stands if it is there, or moved. -/
def fileAt (offset : Nat) (l : LineReader) : BufferedFile :=
  if l.offset = some offset then l.file else .seek offset

/-- Reads the line that begins at an offset. Gives it without its terminator, and the number
of bytes it takes up with it. -/
def readLineAt (offset : Nat) (l : LineReader) (d : Device) :
    Except IoError (List UInt8 × Nat) × LineReader × Device :=
  match (l.fileAt offset).readLine d with
  | (.error e, d) => (.error e, { file := l.fileAt offset, offset := none }, d)
  | (.ok (line, file), d) =>
      let l := { file := file, offset := some (offset + line.length) }
      if line.isEmpty then (.error (.endsInside offset), l, d)
      else (.ok (stripTerminator line, line.length), l, d)

end LineReader

end SplitReader
