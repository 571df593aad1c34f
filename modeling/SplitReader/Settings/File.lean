import SplitReader.Json.Value
import SplitReader.Source.Files
import SplitReader.Toml.Document

/-! # Settings files

A settings file is written in TOML or in JSON, and the ending of its name says in which. A file
that is not there, or that has another ending, holds no settings. If there is no file of the
given name, the name is tried with the endings.
-/

set_option autoImplicit false

namespace SplitReader.SettingsFile

inductive Format where
  | toml
  | json
  deriving DecidableEq, Repr

def Format.ending : Format → String
  | toml => "toml"
  | json => "json"

/-- The formats, in the order in which their endings are tried. -/
def formats : List Format := [.toml, .json]

/-- The ending of a file name: what stands behind its last point, unless that is its first
character. -/
def ending? (path : String) : Option String :=
  let name := path.toList.reverse.takeWhile (· ≠ '/')
  let ending := name.takeWhile (· ≠ '.')
  match name.dropWhile (· ≠ '.') with
  | '.' :: _ :: _ => some (String.ofList ending.reverse)
  | _ => none

def content? (files : Files) (path : String) : Option (List UInt8) :=
  match files.lookup path with
  | .ok (_, .regular bytes) => some bytes
  | _ => none

def candidates (path : String) : List String :=
  path :: formats.map fun f => path ++ "." ++ f.ending

def find? (files : Files) (path : String) : Option (Format × List UInt8) := do
  let (name, bytes) ←
    (candidates path).findSome? fun name => (content? files name).map fun bytes => (name, bytes)
  let format ← formats.find? fun f => ending? name = some f.ending
  some (format, bytes)

/-- The text of a file, without a mark of the byte order in front. Faulty bytes are replaced. -/
def textOf (bytes : List UInt8) : String :=
  let body := if [0xEF, 0xBB, 0xBF].isPrefixOf bytes then bytes.drop 3 else bytes
  String.ofList (Utf8.decodeLossy body)

/-! ## JSON -/

/-- The value of a JSON number: whole if it is a signed word. -/
def numberOf (n : Json.Numeral) : SettingValue :=
  match n with
  | .natural w =>
      if w.toNat < Word.signedBound then .integer w.toNat else .float w.toFloat
  | .negative w => .integer w.toInt
  | .scaled _ _ _ => ((n.toFloat?).map .float).getD .null

mutual

def ofJson : Json.Value → SettingValue
  | .null => .null
  | .bool b => .bool b
  | .number n => numberOf n
  | .text s => .text s
  | .array items => .ofItems (ofJsonItems items)
  | .object members => .table (ofJsonMembers members)

def ofJsonItems : List Json.Value → List SettingValue
  | [] => []
  | v :: vs => ofJson v :: ofJsonItems vs

/-- The values that the members of an object stand for. The last member of a name counts. -/
def ofJsonMembers : List (String × Json.Value) → List (String × SettingValue)
  | [] => []
  | (k, v) :: ms =>
      let rest := ofJsonMembers ms
      if (rest.lookup k).isSome then rest else (k, ofJson v) :: rest

end

/-! ## Any format -/

/-- The settings of a text, or nothing if the text is not well formed or is no table. -/
def Format.read : Format → String → Option (List (String × SettingValue))
  | toml, s => Toml.ofText s
  | json, s =>
      match Json.Value.ofBytes (Utf8.encode s) with
      | .ok (.object members) => some (ofJsonMembers members)
      | _ => none

/-- The settings of a file, or nothing if the file is not well formed. -/
def entries? (files : Files) (path : String) : Option (List (String × SettingValue)) :=
  match find? files path with
  | none => some []
  | some (format, bytes) => format.read (textOf bytes)

end SplitReader.SettingsFile
