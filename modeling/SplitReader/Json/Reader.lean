import SplitReader.Binary32
import SplitReader.Json.Token

/-! # Reading values off JSON tokens

A reader takes a value off the front of a list of tokens. Readers work from left to right and
stop at the first fault: a value of the wrong type or a second occurrence of a field is a
fault where it stands, a missing field is one at the closing brace, and text behind a value is
one at the very end. A value of a structure may also be written as an array of its fields.
-/

set_option autoImplicit false

namespace SplitReader.Json

abbrev Reader (α : Type) := List Token → Except Error (α × List Token)

namespace Reader

variable {α σ : Type}

/-! ## Single tokens -/

/-- A number that is out of the range of floating point numbers is no number. -/
def checked (n : Numeral) : Except Error Numeral :=
  match n.toFloat? with
  | some _ => .ok n
  | none => .error .malformed

/-- Why a token does not begin a value of the type that is asked for. A fault inside the token
is met first. -/
def refusal : Token → Error
  | .number n =>
      match checked n with
      | .ok _ => .mismatch
      | .error e => e
  | .text (.error e) => e
  | .brokenText read _ | .broken read _ | .brokenNull read => read
  | .null | .bool _ | .text (.ok _) | .beginArray | .beginObject => .mismatch
  | .endArray | .endObject | .comma | .colon => .malformed

/-- The error of tokens that do not begin a value of the type that is asked for. -/
def refuse : List Token → Error
  | [] => .endOfText
  | t :: _ => refusal t

def single (read : Token → Except Error α) : Reader α
  | [] => .error .endOfText
  | t :: rest => (read t).map fun a => (a, rest)

/-- A whole number from zero up to but not including `bound`. -/
def naturalBelow (bound : Nat) : Token → Except Error Nat
  | .number (.natural n) => if n.toNat < bound then .ok n.toNat else .error .mismatch
  | t => .error (refusal t)

/-- A whole number below `bound` and not below its opposite. -/
def integerBelow (bound : Nat) : Token → Except Error Int
  | .number (.natural n) => if n.toNat < bound then .ok n.toNat else .error .mismatch
  | .number (.negative n) => if -(bound : Int) ≤ n.toInt then .ok n.toInt else .error .mismatch
  | t => .error (refusal t)

def truth : Token → Except Error Bool
  | .bool b => .ok b
  | t => .error (refusal t)

def string : Token → Except Error String
  | .text content => content
  | t => .error (refusal t)

/-- A text of exactly one character. -/
def character (t : Token) : Except Error Char := do
  match (← string t).toList with
  | [c] => return c
  | _ => throw .mismatch

/-- A number, as the nearest one of single precision. -/
def binary32 : Token → Except Error Binary32
  | .number (.natural n) => .ok ⟨n.toFloat32.toBits⟩
  | .number (.negative n) => .ok ⟨n.toFloat32.toBits⟩
  | .number n =>
      match n.toFloat? with
      | some x => .ok (.ofFloat x)
      | none => .error .malformed
  | t => .error (refusal t)

def unit : Token → Except Error Unit
  | .null => .ok ()
  | t => .error (refusal t)

/-- The word for no value, or a value. What begins like that word must be that word, whatever
the value is. -/
def optional (read : Reader α) : Reader (Option α)
  | .null :: rest => .ok (none, rest)
  | .brokenNull e :: _ => .error e
  | tokens => (read tokens).map fun (a, rest) => (some a, rest)

/-! ## Skipping a value -/

/-- A container that is open while a value is skipped. -/
inductive Frame where
  | array
  | object
  deriving DecidableEq, Repr

/-- What comes next while a value is skipped. -/
inductive Wanted where
  | value
  /-- The first part of a container, or its end. -/
  | first
  /-- A comma, or the end of a container. -/
  | more
  | key
  | colon
  deriving DecidableEq, Repr

/-- The state behind a complete value: done, or inside a container. -/
def afterValue (frames : List Frame) : Option (List Frame × Wanted) :=
  if frames.isEmpty then none else some (frames, .more)

def skipValueToken (frames : List Frame) :
    Token → Except Error (Option (List Frame × Wanted))
  | .null | .bool _ | .number _ | .text _ => .ok (afterValue frames)
  | .beginArray => .ok (some (.array :: frames, .first))
  | .beginObject => .ok (some (.object :: frames, .first))
  | .brokenText _ skip | .broken _ skip | .brokenNull skip => .error skip
  | .endArray | .endObject | .comma | .colon => .error .malformed

def skipKeyToken (frames : List Frame) : Token → Except Error (Option (List Frame × Wanted))
  | .text _ => .ok (some (frames, .colon))
  | .brokenText _ skip => .error skip
  | _ => .error .malformed

def skipToken : List Frame → Wanted → Token → Except Error (Option (List Frame × Wanted))
  | frames, .value, t => skipValueToken frames t
  | .array :: frames, .first, .endArray => .ok (afterValue frames)
  | .object :: frames, .first, .endObject => .ok (afterValue frames)
  | .object :: frames, .first, t => skipKeyToken (.object :: frames) t
  | frames, .first, t => skipValueToken frames t
  | .array :: frames, .more, .endArray => .ok (afterValue frames)
  | .object :: frames, .more, .endObject => .ok (afterValue frames)
  | .array :: frames, .more, .comma => .ok (some (.array :: frames, .value))
  | .object :: frames, .more, .comma => .ok (some (.object :: frames, .key))
  | _, .more, _ => .error .malformed
  | frames, .key, t => skipKeyToken frames t
  | frames, .colon, .colon => .ok (some (frames, .value))
  | _, .colon, _ => .error .malformed

def skipFrom (frames : List Frame) (wanted : Wanted) : List Token → Except Error (List Token)
  | [] => .error .endOfText
  | t :: rest =>
      match skipToken frames wanted t with
      | .error e => .error e
      | .ok none => .ok rest
      | .ok (some (frames, wanted)) => skipFrom frames wanted rest

/-- Skips a value, whatever it is and however deep it nests. -/
def skipValue (tokens : List Token) : Except Error (List Token) := skipFrom [] .value tokens

/-! ## Arrays -/

/-- Steps to the next element of an array, or to its end. -/
def nextElement (isFirst : Bool) : List Token → Except Error (Option (List Token))
  | [] => .error .endOfText
  | .endArray :: _ => .ok none
  | .comma :: rest =>
      if isFirst then .ok (some (.comma :: rest))
      else
        match rest with
        | [] => .error .endOfText
        | .endArray :: _ => .error .malformed
        | _ => .ok (some rest)
  | tokens => if isFirst then .ok (some tokens) else .error .malformed

def endArray : List Token → Except Error (List Token)
  | [] => .error .endOfText
  | .endArray :: rest => .ok rest
  | _ => .error .malformed

/-- Reads elements up to the end of an array. Every element has at least one token, so the
number of tokens bounds the number of elements. -/
def elementsFrom (read : Reader α) : Nat → Bool → Reader (List α)
  | 0, _, _ => .error .endOfText
  | fuel + 1, isFirst, tokens =>
      match nextElement isFirst tokens with
      | .error e => .error e
      | .ok none => .ok ([], tokens)
      | .ok (some tokens) =>
          match read tokens with
          | .error e => .error e
          | .ok (a, tokens) =>
              match elementsFrom read fuel false tokens with
              | .error e => .error e
              | .ok (as, tokens) => .ok (a :: as, tokens)

/-- Reads the elements behind the opening bracket, up to the end of the array. -/
def elements (read : Reader α) : Reader (List α) := fun tokens =>
  elementsFrom read (tokens.length + 1) true tokens

def array (read : Reader α) : Reader (List α)
  | .beginArray :: rest => do
      let (as, rest) ← elements read rest
      return (as, ← endArray rest)
  | tokens => .error (refuse tokens)

/-- Reads one element of a structure that is written as an array, if it is there. -/
def element (isFirst : Bool) (read : Reader α) : Reader (Option α) := fun tokens => do
  match ← nextElement isFirst tokens with
  | none => return (none, tokens)
  | some tokens =>
      let (a, rest) ← read tokens
      return (some a, rest)

def requiredElement (isFirst : Bool) (read : Reader α) : Reader α := fun tokens => do
  match ← element isFirst read tokens with
  | (some a, rest) => return (a, rest)
  | (none, _) => throw .mismatch

/-! ## Objects -/

def key : Reader String
  | [] => .error .endOfText
  | .text content :: rest => content.map fun k => (k, rest)
  | .brokenText read _ :: _ => .error read
  | _ => .error .malformed

/-- Steps to the next member of an object and reads its key, or steps to the end. -/
def nextKey (isFirst : Bool) : List Token → Except Error (Option (String × List Token))
  | [] => .error .endOfText
  | .endObject :: _ => .ok none
  | .comma :: rest => if isFirst then .error .malformed else (key rest).map some
  | tokens => if isFirst then (key tokens).map some else .error .malformed

def afterColon : List Token → Except Error (List Token)
  | [] => .error .endOfText
  | .colon :: rest => .ok rest
  | _ => .error .malformed

def endObject : List Token → Except Error (List Token)
  | [] => .error .endOfText
  | .endObject :: rest => .ok rest
  | _ => .error .malformed

/-- Reads members up to the end of an object. The step gets a key, what was read so far and
the tokens behind the key. Every member has at least one token, so the number of tokens bounds
the number of members. -/
def membersFrom (step : String → σ → Reader σ) : Nat → Bool → σ → Reader σ
  | 0, _, _, _ => .error .endOfText
  | fuel + 1, isFirst, s, tokens =>
      match nextKey isFirst tokens with
      | .error e => .error e
      | .ok none => .ok (s, tokens)
      | .ok (some (k, tokens)) =>
          match step k s tokens with
          | .error e => .error e
          | .ok (s, tokens) => membersFrom step fuel false s tokens

def members (step : String → σ → Reader σ) (s : σ) : Reader σ := fun tokens =>
  membersFrom step (tokens.length + 1) true s tokens

/-- Reads the value of a field that must not have occurred before. -/
def field (name : String) (read : Reader α) (seen : Option α) : Reader (Option α) := fun tokens =>
  match seen with
  | some _ => .error (.duplicateField name)
  | none => do
      let (a, rest) ← read (← afterColon tokens)
      return (some a, rest)

def ignored (s : σ) : Reader σ := fun tokens => do
  return (s, ← skipValue (← afterColon tokens))

/-- The value of a field that has no default. -/
def required (name : String) : Option α → Except Error α
  | some a => .ok a
  | none => .error (.missingField name)

/-- Reads a structure: from its members, or from its fields in order. -/
def structured (fromMembers fromElements : Reader α) : Reader α
  | .beginObject :: rest => do
      let (a, rest) ← fromMembers rest
      return (a, ← endObject rest)
  | .beginArray :: rest => do
      let (a, rest) ← fromElements rest
      return (a, ← endArray rest)
  | tokens => .error (refuse tokens)

/-! ## Whole texts -/

/-- Reads a text that holds one value and nothing else. -/
def run (read : Reader α) (bytes : List UInt8) : Except Error α := do
  match ← read (Token.ofBytes bytes) with
  | (a, []) => return a
  | (_, _ :: _) => throw .malformed

end Reader

end SplitReader.Json
