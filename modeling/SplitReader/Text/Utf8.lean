import SplitReader.Text.Decimal

/-! # UTF-8

Text as bytes. Writing gives each character its one form of one to four bytes. Reading accepts
exactly these forms: it refuses forms that are longer than needed, surrogates, numbers past
the last character, stray continuation bytes and characters that are cut short. A refusal
says how many bytes before it are fit, and how many bytes form the unfit part; a text that
ends inside a character has no such count, since more bytes could still complete it.
-/

set_option autoImplicit false

namespace SplitReader.Utf8

/-! ## Writing -/

/-- A continuation byte that carries the six lowest bits of a number. -/
def tailByte (n : Nat) : UInt8 := UInt8.ofNat (0x80 + n % 0x40)

/-- The bytes of a character. -/
def encodeChar (c : Char) : List UInt8 :=
  let n := c.toNat
  if n < 0x80 then
    [UInt8.ofNat n]
  else if n < 0x800 then
    [UInt8.ofNat (0xC0 + n / 0x40), tailByte n]
  else if n < 0x10000 then
    [UInt8.ofNat (0xE0 + n / 0x1000), tailByte (n / 0x40), tailByte n]
  else
    [UInt8.ofNat (0xF0 + n / 0x40000), tailByte (n / 0x1000), tailByte (n / 0x40), tailByte n]

def encodeChars (cs : List Char) : List UInt8 := cs.flatMap encodeChar

def encode (s : String) : List UInt8 := encodeChars s.toList

/-! ## Reading one character -/

def isTail (b : UInt8) : Bool := 0x80 ≤ b.toNat && b.toNat < 0xC0

/-- The low six bits of a continuation byte. -/
def tailBits (b : UInt8) : Nat := b.toNat % 0x40

/-- What the first byte of a character announces. The second byte of a long form is held to a
narrower range where the first one alone does not rule out a number that is too small, too
large or a surrogate. -/
inductive Lead where
  | one
  | two
  /-- Two continuation bytes follow, the first of them from `low` up to `high`. -/
  | three (low high : Nat)
  /-- Three continuation bytes follow, the first of them from `low` up to `high`. -/
  | four (low high : Nat)
  deriving DecidableEq, Repr

/-- What a byte announces as the first one of a character, if it can be one. -/
def lead? (b : UInt8) : Option Lead :=
  let n := b.toNat
  if n < 0x80 then some .one
  else if n < 0xC2 then none
  else if n < 0xE0 then some .two
  else if n = 0xE0 then some (.three 0xA0 0xBF)
  else if n = 0xED then some (.three 0x80 0x9F)
  else if n < 0xF0 then some (.three 0x80 0xBF)
  else if n = 0xF0 then some (.four 0x90 0xBF)
  else if n < 0xF4 then some (.four 0x80 0xBF)
  else if n = 0xF4 then some (.four 0x80 0x8F)
  else none

def isBetween (low high : Nat) (b : UInt8) : Bool := low ≤ b.toNat && b.toNat ≤ high

/-- Reads the character that starts with byte `a` before the bytes `rest`, and gives it with
the bytes behind it. A refusal carries the number of unfit bytes, or nothing if the text ends
inside the character. -/
def scanChar (a : UInt8) (rest : List UInt8) : Except (Option Nat) (Char × List UInt8) :=
  match lead? a with
  | none => .error (some 1)
  | some .one => .ok (Char.ofNat a.toNat, rest)
  | some .two =>
      match rest with
      | [] => .error none
      | b :: rest =>
          if isTail b then .ok (Char.ofNat (a.toNat % 0x20 * 0x40 + tailBits b), rest)
          else .error (some 1)
  | some (.three low high) =>
      match rest with
      | [] => .error none
      | b :: rest =>
          if isBetween low high b then
            match rest with
            | [] => .error none
            | c :: rest =>
                if isTail c then
                  .ok (Char.ofNat (a.toNat % 0x10 * 0x1000 + tailBits b * 0x40 + tailBits c), rest)
                else .error (some 2)
          else .error (some 1)
  | some (.four low high) =>
      match rest with
      | [] => .error none
      | b :: rest =>
          if isBetween low high b then
            match rest with
            | [] => .error none
            | c :: rest =>
                if isTail c then
                  match rest with
                  | [] => .error none
                  | d :: rest =>
                      if isTail d then
                        .ok (Char.ofNat (a.toNat % 0x08 * 0x40000 + tailBits b * 0x1000 +
                          tailBits c * 0x40 + tailBits d), rest)
                      else .error (some 3)
                else .error (some 2)
          else .error (some 1)

theorem length_le_of_scanChar {a : UInt8} {rest left : List UInt8} {c : Char}
    (h : scanChar a rest = .ok (c, left)) : left.length ≤ rest.length := by
  unfold scanChar at h
  repeat' split at h
  all_goals cases h
  all_goals simp +arith

/-! ## Reading a text -/

structure Error where
  /-- How many bytes at the start are a text. -/
  validUpTo : Nat
  /-- How many bytes from there on are unfit, or nothing if the bytes end inside a character. -/
  unfit : Option Nat
  deriving DecidableEq, Repr, Inhabited

def Error.message (e : Error) : String :=
  match e.unfit with
  | some count =>
      "invalid utf-8 sequence of " ++ Decimal.natural count ++ " bytes from index " ++ Decimal.natural e.validUpTo
  | none => "incomplete utf-8 byte sequence from index " ++ Decimal.natural e.validUpTo

/-- The characters of bytes that stand at the given index of a text. -/
def decodeFrom (index : Nat) (bytes : List UInt8) : Except Error (List Char) :=
  match bytes with
  | [] => .ok []
  | a :: rest =>
      match _h : scanChar a rest with
      | .error unfit => .error ⟨index, unfit⟩
      | .ok (c, left) =>
          match decodeFrom (index + (encodeChar c).length) left with
          | .error e => .error e
          | .ok cs => .ok (c :: cs)
termination_by bytes.length
decreasing_by
  have := length_le_of_scanChar _h
  simp only [List.length_cons]
  omega

def decode (bytes : List UInt8) : Except Error String :=
  (decodeFrom 0 bytes).map String.ofList

/-- The mark that stands for bytes that are no text. -/
def replacement : Char := Char.ofNat 0xFFFD

/-- The characters of some bytes, with one mark in place of every unfit part. -/
def decodeLossy (bytes : List UInt8) : List Char :=
  match bytes with
  | [] => []
  | a :: rest =>
      match h : scanChar a rest with
      | .ok (c, left) => c :: decodeLossy left
      | .error (some unfit) => replacement :: decodeLossy (rest.drop (unfit - 1))
      | .error none => [replacement]
termination_by bytes.length
decreasing_by
  · have := length_le_of_scanChar h
    simp only [List.length_cons]
    omega
  · simp only [List.length_cons, List.length_drop]
    omega

end SplitReader.Utf8
