import SplitReader.Text.Utf8

/-! # Binary formats

The binary form of a value has no names and no types in it: the reader must know what it
reads. Words have their full width and the lowest byte first. A text or a list is its length
as a word of 64 bits and then its parts; an optional value is one byte that says whether it is
there; a choice is the number of the alternative as a word of 32 bits. Bytes behind a value
are left alone.
-/

set_option autoImplicit false

namespace SplitReader.Binary

/-- Why bytes were not read as a value. -/
inductive Error where
  | endOfInput
  | shortText
  | invalidBool (found : UInt8)
  | invalidChar
  | invalidText (e : Utf8.Error)
  | invalidOption (found : UInt8)
  | invalidChoice (found alternatives : Nat)
  | durationOverflow
  /-- The form of the value cannot be known without its type names. -/
  | notSelfDescribing
  deriving DecidableEq, Repr, Inhabited

def Error.message : Error → String
  | endOfInput => "io error: unexpected end of file"
  | shortText => "io error: "
  | invalidBool found =>
      "invalid u8 while decoding bool, expected 0 or 1, found " ++ Decimal.natural found.toNat
  | invalidChar => "char is not valid"
  | invalidText e => "string is not valid utf8: " ++ e.message
  | invalidOption found => "tag for enum is not valid, found " ++ Decimal.natural found.toNat
  | invalidChoice found alternatives =>
      "invalid value: integer `" ++ Decimal.natural found ++ "`, expected variant index 0 <= i < " ++
        Decimal.natural alternatives
  | durationOverflow => "overflow deserializing Duration"
  | notSelfDescribing =>
      "Bincode does not support the serde::Deserializer::deserialize_any method"

/-- Takes a value off the front of some bytes. -/
abbrev Reader (α : Type) := List UInt8 → Except Error (α × List UInt8)

/-- How the values of a type are read from and written as bytes. -/
structure Format (α : Type) where
  read : Reader α
  write : α → List UInt8

namespace Format

variable {α β : Type}

def decode (f : Format α) (bytes : List UInt8) : Except Error α :=
  (f.read bytes).map fun (a, _) => a

def encode (f : Format α) (a : α) : List UInt8 := f.write a

/-! ## Words -/

def toLittle : Nat → Nat → List UInt8
  | 0, _ => []
  | width + 1, n => UInt8.ofNat n :: toLittle width (n / 256)

def ofLittle : List UInt8 → Nat
  | [] => 0
  | b :: bs => b.toNat + 256 * ofLittle bs

def readWord (width : Nat) : Reader Nat := fun bytes =>
  if bytes.length < width then .error .endOfInput
  else .ok (ofLittle (bytes.take width), bytes.drop width)

def uint64 : Format UInt64 where
  read bytes := (readWord 8 bytes).map fun (n, rest) => (UInt64.ofNat n, rest)
  write n := toLittle 8 n.toNat

def uint32 : Format UInt32 where
  read bytes := (readWord 4 bytes).map fun (n, rest) => (UInt32.ofNat n, rest)
  write n := toLittle 4 n.toNat

def uint8 : Format UInt8 where
  read bytes := (readWord 1 bytes).map fun (n, rest) => (UInt8.ofNat n, rest)
  write n := toLittle 1 n.toNat

/-- Signed words of 64 bits, in two's complement. -/
def int64 : Format Int64 where
  read bytes := (uint64.read bytes).map fun (n, rest) => (n.toInt64, rest)
  write n := uint64.write n.toUInt64

/-- Signed words of 32 bits, in two's complement. -/
def int32 : Format Int32 where
  read bytes := (uint32.read bytes).map fun (n, rest) => (n.toInt32, rest)
  write n := uint32.write n.toUInt32

/-- Truth values, as zero and one. -/
def bool : Format Bool where
  read bytes := do
    let (n, rest) ← uint8.read bytes
    if n = 0 then return (false, rest)
    else if n = 1 then return (true, rest)
    else throw (.invalidBool n)
  write b := uint8.write (if b then 1 else 0)

/-! ## Texts -/

/-- Characters, in UTF-8 and without a length. -/
def char : Format Char where
  read
    | [] => .error .endOfInput
    | b :: rest =>
        match Utf8.scanChar b rest with
        | .ok (c, rest) => .ok (c, rest)
        | .error _ => .error .invalidChar
  write := Utf8.encodeChar

def string : Format String where
  read bytes := do
    let (length, rest) ← readWord 8 bytes
    if rest.length < length then throw .shortText
    match Utf8.decode (rest.take length) with
    | .ok s => return (s, rest.drop length)
    | .error e => throw (.invalidText e)
  write s := toLittle 8 (Utf8.encode s).length ++ Utf8.encode s

/-! ## Compound values -/

def optional (f : Format α) : Format (Option α) where
  read bytes := do
    let (tag, rest) ← uint8.read bytes
    if tag = 0 then return (none, rest)
    else if tag = 1 then
      let (a, rest) ← f.read rest
      return (some a, rest)
    else throw (.invalidOption tag)
  write
    | none => uint8.write 0
    | some a => uint8.write 1 ++ f.write a

def readMany (read : Reader α) : Nat → Reader (List α)
  | 0, bytes => .ok ([], bytes)
  | count + 1, bytes =>
      match read bytes with
      | .error e => .error e
      | .ok (a, rest) => (readMany read count rest).map fun (as, rest) => (a :: as, rest)

def list (f : Format α) : Format (List α) where
  read bytes := do
    let (count, rest) ← readWord 8 bytes
    readMany f.read count rest
  write as := toLittle 8 as.length ++ as.flatMap f.write

def pair (f : Format α) (g : Format β) : Format (α × β) where
  read bytes := do
    let (a, rest) ← f.read bytes
    let (b, rest) ← g.read rest
    return ((a, b), rest)
  write p := f.write p.1 ++ g.write p.2

end Format

end SplitReader.Binary
