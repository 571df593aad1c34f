import SplitReader.Logging.Level
import SplitReader.Logging.Pattern
import SplitReader.Text.BytePlace

/-! # Log directives

A directive says how much is logged by a part of the program. It names the part by the start of
its path, a span in square brackets with the fields that the span must have, or both; and a
level behind an equals sign. A directive of one word is a level for everything, or a part of
which everything is logged.
-/

set_option autoImplicit false

namespace SplitReader

/-- A field that a directive asks for. -/
structure FieldMatch where
  name : String
  hasValue : Bool
  deriving DecidableEq, Repr, Inhabited

/-- How much is logged by a part of the program. -/
structure LogDirective where
  level : LogLevel := .trace
  /-- How the path of the part starts. -/
  target : Option String := none
  span : Option String := none
  /-- The fields of the span, or of the line itself. -/
  fields : List FieldMatch := []
  deriving DecidableEq, Repr, Inhabited

inductive DirectiveError where
  | malformed
  /-- A part of it would begin or end inside of a character. -/
  | splitsCharacter
  deriving DecidableEq, Repr, Inhabited

namespace LogDirective

/-! ## Fields -/

def withoutSign : List Char → List Char
  | '+' :: rest | '-' :: rest => rest
  | cs => cs

/-- Nothing, or the letter of an exponent and digits. -/
def isExponent : List Char → Bool
  | [] => true
  | c :: rest =>
      let ds := withoutSign rest
      (c = 'e' || c = 'E') && !ds.isEmpty && ds.all Char.isDigit

/-- Digits with a point before, among or behind them, and perhaps with an exponent. -/
def isDecimal (cs : List Char) : Bool :=
  let whole := cs.takeWhile Char.isDigit
  match cs.dropWhile Char.isDigit with
  | '.' :: rest =>
      !(whole.isEmpty && (rest.takeWhile Char.isDigit).isEmpty) &&
        isExponent (rest.dropWhile Char.isDigit)
  | rest => !whole.isEmpty && isExponent rest

def wordNumbers : List String := ["inf", "infinity", "nan"]

def isNumeral (cs : List Char) : Bool :=
  let size := withoutSign cs
  isDecimal size || wordNumbers.contains (String.ofList (size.map Char.toLower))

/-- The text of a value is a number or a pattern of texts. -/
def isValue (cs : List Char) : Bool := isNumeral cs || LogPattern.isWellFormed cs

/-- The field that a text asks for: a name, and perhaps a value behind an equals sign. What
stands behind another one does not count. -/
def fieldOf (s : String) : Except DirectiveError FieldMatch :=
  match s.toList.splitOn '=' with
  | name :: value :: _ =>
      if isValue value then .ok { name := String.ofList name, hasValue := true }
      else .error .malformed
  | _ => .ok { name := s, hasValue := false }

/-! ## Reading -/

/-- A character that a path starts with. -/
def startsPath (c : Char) : Bool :=
  c = '-' || c = ':' || c = '_' || Text.isAlphanumeric c

/-- The part of a text between two byte places. -/
def cut (whole : List Char) (first past : Nat) : Except DirectiveError String :=
  match Text.between? first past whole with
  | some cs => .ok (String.ofList cs)
  | none => .error .splitsCharacter

/-- The level from a place on. No text there means everything. -/
def levelAt (whole : List Char) (place : Nat) (d : LogDirective) :
    Except DirectiveError LogDirective := do
  let text ← cut whole place (Text.width whole)
  if text.isEmpty then return { d with level := .trace }
  else
    match LogLevel.ofText? text with
    | some level => return { d with level }
    | none => throw .malformed

/-- What may stand behind a span: nothing, or a level. -/
def afterSpan (whole : List Char) (place : Nat) (d : LogDirective) :
    List Char → Except DirectiveError LogDirective
  | [] => .ok d
  | '=' :: _ => levelAt whole (place + 1) d
  | _ => .error .malformed

def fieldsAt (whole : List Char) (place : Nat) (d : LogDirective) (rest : List Char) :
    Except DirectiveError LogDirective :=
  let body := rest.takeWhile (· ≠ '\x7d')
  let past := place + Text.width body
  match rest.drop body.length with
  | [] => .error .malformed
  | _ :: rest => do
      let text ← cut whole place past
      if text.isEmpty then throw .malformed
      let field ← fieldOf text
      match rest with
      | ']' :: rest => afterSpan whole (past + 2) { d with fields := [field] } rest
      | _ => throw .malformed

def spanAt (whole : List Char) (place : Nat) (d : LogDirective) (rest : List Char) :
    Except DirectiveError LogDirective :=
  let body := rest.takeWhile fun c => c ≠ ']' && c ≠ '\x7b'
  let past := place + Text.width body
  match rest.drop body.length with
  | [] => .error .malformed
  | c :: rest => do
      let name ← cut whole place past
      if c = ']' then afterSpan whole (past + 1) { d with span := some name } rest
      else
        let span := if name.isEmpty then none else some name
        fieldsAt whole (past + 1) { d with span } rest

/-- Reads a directive of one word. -/
def ofWord (s : String) : LogDirective :=
  match LogLevel.ofText? s with
  | some l => { level := l }
  | none => { target := some s }

/-- Reads a directive that starts with a path or is one word. -/
def pathAt (whole body : List Char) : Except DirectiveError LogDirective :=
  let path := body.takeWhile fun c => c ≠ '=' && c ≠ '['
  let past := Text.width path
  match body.drop path.length with
  | [] => .ok (ofWord (String.ofList whole))
  | c :: rest => do
      let target ← cut whole 0 past
      if c = '=' then levelAt whole (past + 1) { target := some target }
      else spanAt whole (past + 1) { target := some target } rest

/-- Reads a directive. The parts are found in the text without the blanks around it, but cut from
the whole text at the same byte places. So blanks in front shift the parts, and may make a place
fall inside of a character. -/
def ofChars (whole : List Char) : Except DirectiveError LogDirective :=
  match Text.trimmed whole with
  | [] => .error .malformed
  | '[' :: rest => spanAt whole 1 {} rest
  | c :: rest => if startsPath c then pathAt whole (c :: rest) else .error .malformed

/-! ## Meaning -/

/-- A directive that can be judged without the values of a span. -/
def isStatic (d : LogDirective) : Bool := d.span.isNone && d.fields.all fun f => !f.hasValue

/-- Whether a directive is about the lines of a part of the program that have certain fields. -/
def isAbout (target : String) (fields : List String) (d : LogDirective) : Bool :=
  d.isStatic && (d.target.all fun t => t.toList.isPrefixOf target.toList) &&
    d.fields.all fun f => fields.contains f.name

/-- How closely a directive describes what it is about: first by the length of the path, then
by the number of fields. -/
def closeness (d : LogDirective) : Nat × Nat :=
  ((d.target.elim 0 fun t => t.utf8ByteSize + 1), d.fields.length)

end LogDirective

end SplitReader
