import SplitReader.Binary.Format
import SplitReader.Json.Format
import SplitReader.Outcome

/-! # Codecs

A codec turns the bytes of a record into an element and back. The stock codecs pass bytes
through, read text, or use a binary or JSON format, and depend on the bytes alone. A reader is
more liberal: its decoder may keep a state from call to call, fail, or crash.
-/

set_option autoImplicit false

namespace SplitReader

inductive CodecError where
  | utf8 (e : Utf8.Error)
  | binary (e : Binary.Error)
  | json (e : Json.Error)
  | other (text : String)
  deriving DecidableEq, Repr, Inhabited

/-- The reason in words, where it has a wording. -/
def CodecError.message? : CodecError → Option String
  | utf8 e => some ("invalid UTF-8: " ++ e.message)
  | binary e => some ("bincode: " ++ e.message)
  | json e => e.message?
  | other text => some text

/-- Turns bytes into elements and back. -/
structure Codec (α : Type) where
  decode : List UInt8 → Except CodecError α
  encode : α → List UInt8

namespace Codec

variable {α : Type}

/-- Passes bytes through untouched. -/
def bytes : Codec (List UInt8) where
  decode bs := .ok bs
  encode bs := bs

def text : Codec String where
  decode bs := (Utf8.decode bs).mapError .utf8
  encode := Utf8.encode

def binary (f : Binary.Format α) : Codec α where
  decode bs := (f.decode bs).mapError .binary
  encode := f.encode

def json (f : Json.Format α) : Codec α where
  decode bs := (f.decode bs).mapError .json
  encode := f.encode

end Codec

/-- Decodes records for a reader. It may keep a state from call to call. -/
structure Decoder (σ α : Type) where
  decode : List UInt8 → σ → Outcome CodecError α × σ

/-- The decoder of a codec. It has no state and never crashes. -/
def Codec.decoder {α : Type} (c : Codec α) : Decoder Unit α where
  decode bytes s := (.ofExcept (c.decode bytes), s)

end SplitReader
