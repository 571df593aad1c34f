import SplitReader.Json.Reader
import SplitReader.Json.Writer
import SplitReader.Text.Shortest
import SplitReader.Word

/-! # JSON formats

A JSON format of a type is a reader of its values beside a writer. Here are the formats of
words, truth values, characters, texts and single precision numbers, and those of lists,
optional values and pairs over other formats.
-/

set_option autoImplicit false

namespace SplitReader.Json

/-- How the values of a type are read from and written as JSON. -/
structure Format (α : Type) where
  read : Reader α
  write : α → String

namespace Format

variable {α β : Type}

def decode (f : Format α) (bytes : List UInt8) : Except Error α := Reader.run f.read bytes

def encode (f : Format α) (a : α) : List UInt8 := Utf8.encode (f.write a)

/-! ## Words, texts and numbers -/

def uint64 : Format UInt64 where
  read := Reader.single fun t => (Reader.naturalBelow UInt64.size t).map UInt64.ofNat
  write n := Writer.natural n.toNat

def uint32 : Format UInt32 where
  read := Reader.single fun t => (Reader.naturalBelow UInt32.size t).map UInt32.ofNat
  write n := Writer.natural n.toNat

def uint8 : Format UInt8 where
  read := Reader.single fun t => (Reader.naturalBelow UInt8.size t).map UInt8.ofNat
  write n := Writer.natural n.toNat

def int64 : Format Int64 where
  read := Reader.single fun t => (Reader.integerBelow Word.signedBound t).map Int64.ofInt
  write n := Writer.integer n.toInt

def int32 : Format Int32 where
  read := Reader.single fun t => (Reader.integerBelow Word.signedHalfBound t).map Int32.ofInt
  write n := Writer.integer n.toInt

def bool : Format Bool where
  read := Reader.single Reader.truth
  write := Writer.bool

def char : Format Char where
  read := Reader.single Reader.character
  write c := Writer.text (String.singleton c)

def string : Format String where
  read := Reader.single Reader.string
  write := Writer.text

/-- How the digits of a number are laid out: from 10^13 on and below 10^-6 with an exponent, which
always has a sign, and never without a point or an exponent. -/
def numberLayout : Shortest.Layout where
  maxWhole := some 13
  maxZeros := some 5
  keepsPoint := true
  signsExponent := true

/-- Single precision numbers. Those that are not finite are written as no value, and no value
is not read as a number. -/
def binary32 : Format Binary32 where
  read := Reader.single Reader.binary32
  write x :=
    if x.isFinite then numberLayout.signed x.isNegative (Shortest.ofBinary32 x) else Writer.null

/-! ## Compound values -/

def optional (f : Format α) : Format (Option α) where
  read := Reader.optional f.read
  write := Writer.optional f.write

def list (f : Format α) : Format (List α) where
  read := Reader.array f.read
  write as := Writer.array (as.map f.write)

def pair (f : Format α) (g : Format β) : Format (α × β) where
  read
    | .beginArray :: rest => do
        let (a, rest) ← Reader.requiredElement true f.read rest
        let (b, rest) ← Reader.requiredElement false g.read rest
        return ((a, b), ← Reader.endArray rest)
    | tokens => .error (Reader.refuse tokens)
  write p := Writer.array [f.write p.1, g.write p.2]

end Format

end SplitReader.Json
