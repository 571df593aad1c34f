/-! # Errors of reading JSON

A text can end too early, or break the grammar, or be well formed and yet not describe the
value that is asked for. Errors of the last kind are told apart where their reason is one that
callers see by name.
-/

set_option autoImplicit false

namespace SplitReader.Json

/-- Why a text was not read as a value. -/
inductive Error where
  | endOfText
  /-- The text breaks the grammar, or nests too deeply, or holds a number out of range. -/
  | malformed
  /-- A value has the wrong type, is out of range or has the wrong number of parts. -/
  | mismatch
  | missingField (name : String)
  | duplicateField (name : String)
  | unknownVariant (name : String) (expected : List String)
  deriving DecidableEq, Repr, Inhabited

namespace Error

inductive Category where
  | eof
  | grammar
  | data
  deriving DecidableEq, Repr, Inhabited

def category : Error → Category
  | endOfText => .eof
  | malformed => .grammar
  | mismatch | missingField _ | duplicateField _ | unknownVariant _ _ => .data

def expectedNames : List String → String
  | [] => "there are no variants"
  | [a] => "expected `" ++ a ++ "`"
  | [a, b] => "expected `" ++ a ++ "` or `" ++ b ++ "`"
  | a :: names =>
      "expected one of `" ++ a ++ "`" ++
        String.join (names.map fun name => ", `" ++ name ++ "`")

/-- The reason in words, for the errors that have a wording of their own. -/
def message? : Error → Option String
  | endOfText | malformed | mismatch => none
  | missingField name => some ("missing field `" ++ name ++ "`")
  | duplicateField name => some ("duplicate field `" ++ name ++ "`")
  | unknownVariant name expected =>
      some ("unknown variant `" ++ name ++ "`, " ++ expectedNames expected)

end Error

end SplitReader.Json
