import SplitReader.Association
import SplitReader.Settings.Key
import SplitReader.Settings.Value

/-! # Tables of settings

Settings from all places come together in one table. A value is put where its key leads, and on
the way there tables and lists are made where there are none. A list grows up to the entry that
is asked for; a table joins the table that was there, and any other value takes the place of
what was there.
-/

set_option autoImplicit false

namespace SplitReader

open Association (put)

/-- Why an entry of a list cannot be made. -/
inductive IndexFault where
  | beforeFirst
  | tooLong
  deriving DecidableEq, Repr, Inhabited

def IndexFault.message : IndexFault → String
  | beforeFirst => "attempt to subtract with overflow"
  | tooLong => "capacity overflow"

namespace SettingValue

/-- The members of a table. Other values have none. -/
def members : SettingValue → List (String × SettingValue)
  | table ms => ms
  | _ => []

/-- The length of a list and its entries. Other values have none. -/
def entries : SettingValue → Nat × List (Nat × SettingValue)
  | list length es => (length, es)
  | _ => (0, [])

/-! ## Joining tables -/

mutual

def join (old : SettingValue) : SettingValue → SettingValue
  | table ms => joinMembers old ms
  | v => v

def joinMembers : SettingValue → List (String × SettingValue) → SettingValue
  | old, [] => old
  | old, (k, v) :: ms =>
      let name := SettingKey.nameOf k.toList
      let inner := join ((old.members.lookup name).getD (table [])) v
      joinMembers (table (put name inner old.members)) ms

end

/-! ## Putting values at the end of a path -/

/-- The largest number of entries of a list. An entry takes 96 bytes, and all of them together
take no more than a signed word counts. -/
def maxEntries : Nat := 96076792050570581

def place (length : Nat) (index : Int) : Except IndexFault Nat :=
  if index < 0 then
    if index.natAbs ≤ length then .ok (length - index.natAbs) else .error .beforeFirst
  else if index.natAbs < max length maxEntries then .ok index.natAbs
  else .error .tooLong

/-- Puts a value where the steps of a path lead. An entry of a list is replaced whatever it
was. -/
def putAt (v : SettingValue) : List SettingKey.Step → SettingValue → Except IndexFault SettingValue
  | [], old => .ok (join old v)
  | .member name :: steps, old => do
      let inner ← putAt v steps ((old.members.lookup name).getD (table []))
      return table (put name inner old.members)
  | .entry index :: steps, old => do
      let (length, es) := old.entries
      let i ← place length index
      let inner ←
        match steps with
        | [] => pure v
        | steps => putAt v steps ((es.lookup i).getD null)
      return list (max length (i + 1)) (put i inner es)

end SettingValue

abbrev SettingTable := List (String × SettingValue)

namespace SettingTable

def add (t : SettingTable) (key : SettingKey) (v : SettingValue) :
    Except IndexFault SettingTable := do
  let v ← v.putAt (.member key.name :: key.steps) (.table t)
  return v.members

/-- Puts values where the texts of their keys lead, one after the other. -/
def addAll (es : List (String × SettingValue)) (t : SettingTable) :
    Except IndexFault SettingTable :=
  es.foldlM (fun t e => t.add (.ofText e.1) e.2) t

/-- The table of some settings. They are collected first, and then their names are read as keys
once more: a name that was no path before its letters were made small can be one now. -/
def ofEntries (es : List (String × SettingValue)) : Except IndexFault SettingTable := do
  addAll (← addAll es []) []

end SettingTable

end SplitReader
