import SplitReader.Settings.Key
import SplitReader.Settings.Value

/-! # Settings from the environment

A variable whose name starts with the mark of the settings gives a value to the key that
follows the mark. Two underscores in the key stand for a point. Capital letters count as small
ones, and every value is a text.
-/

set_option autoImplicit false

namespace SplitReader.Environment

abbrev Variables := List (String × String)

/-- What the names of settings start with, in small letters. -/
def mark : String := "floe_worker__"

def withPoints : List Char → List Char
  | '_' :: '_' :: rest => '.' :: withPoints rest
  | c :: rest => c :: withPoints rest
  | [] => []

/-- The key that a variable gives a value to, if its name has the mark. -/
def key? (name : String) : Option String :=
  let cs := SettingKey.small name.toList
  if mark.toList.isPrefixOf cs then some (String.ofList (withPoints (cs.drop mark.length)))
  else none

def entries (vs : Variables) : List (String × SettingValue) :=
  vs.filterMap fun v => (key? v.1).map fun k => (k, .text v.2)

end SplitReader.Environment
