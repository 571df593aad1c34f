import SplitReader.Association
import SplitReader.Toml.Lexeme
import SplitReader.Toml.Scalar

/-! # TOML documents

A document is a tree of tables. Headers and keys with points open tables on the way to the one
they name. No name is given twice: a table that a header or a key with points has opened is not
opened again by the other, and a table that is written between braces is closed for good.

Dates and times also have a form as tables: one that begins with a certain key stands for the
date or time that is the text under that key.
-/

set_option autoImplicit false

namespace SplitReader.Toml

open Association (put erase)

/-! ## Trees of tables -/

/-- How a table came to be. -/
inductive Origin where
  /-- On the way to a table that a header names. -/
  | implied
  /-- By a header of its own. -/
  | header
  /-- By a key with points. -/
  | dotted
  deriving DecidableEq, Repr

inductive Node where
  | scalar (s : Scalar)
  | list (items : List Node)
  | braced (members : List (String × Node))
  /-- A table that may get more members. -/
  | table (origin : Origin) (members : List (String × Node))
  /-- A list of tables, the last one first. -/
  | tables (elements : List (List (String × Node)))

abbrev Members := List (String × Node)

/-- Gives a value to a key with parts. Tables on the way are opened by the key, or may be open
already unless a header names them. The table that takes the value in the end must be open to
values without a header. -/
def assign (n : Node) (isOpen : Bool) : List String → Members → Option Members
  | [], _ => none
  | [k], ms =>
      match ms.lookup k, isOpen with
      | none, true => some (put k n ms)
      | _, _ => none
  | k :: ks, ms =>
      match ms.lookup k with
      | none => (assign n true ks []).map fun inner => put k (.table .dotted inner) ms
      | some (.table .header _) => none
      | some (.table origin inner) =>
          (assign n (origin = .dotted) ks inner).map fun inner => put k (.table origin inner) ms
      | some (.tables (last :: earlier)) =>
          (assign n false ks last).map fun last => put k (.tables (last :: earlier)) ms
      | some _ => none

/-- Changes the members among which the end of a path of headers is. Tables on the way are
implied, and a list of tables stands for its last one. -/
def atPath (change : String → Members → Option Members) :
    List String → Members → Option Members
  | [], _ => none
  | [k], ms => change k ms
  | k :: ks, ms =>
      match ms.lookup k with
      | none => (atPath change ks []).map fun inner => put k (.table .implied inner) ms
      | some (.table origin inner) =>
          (atPath change ks inner).map fun inner => put k (.table origin inner) ms
      | some (.tables (last :: earlier)) =>
          (atPath change ks last).map fun last => put k (.tables (last :: earlier)) ms
      | some _ => none

/-- Opens a table by its header. A table that was implied takes its place among the others only
now. -/
def openTable (k : String) (ms : Members) : Option Members :=
  match ms.lookup k with
  | none => some (put k (.table .header []) ms)
  | some (.table .implied inner) => some (put k (.table .header inner) (erase k ms))
  | some _ => none

/-- Opens one more table of a list by its header. -/
def openElement (k : String) (ms : Members) : Option Members :=
  match ms.lookup k with
  | none => some (put k (.tables [[]]) ms)
  | some (.tables elements) => some (put k (.tables ([] :: elements)) ms)
  | some _ => none

def assignTo (ks : List String) (n : Node) (k : String) (ms : Members) : Option Members :=
  match ms.lookup k with
  | some (.table origin inner) =>
      (assign n true ks inner).map fun inner => put k (.table origin inner) ms
  | some (.tables (last :: earlier)) =>
      (assign n true ks last).map fun last => put k (.tables (last :: earlier)) ms
  | _ => none

/-- Gives a value to a key of the table that the last header has opened. -/
def assignIn (path ks : List String) (n : Node) (ms : Members) : Option Members :=
  if path.isEmpty then assign n true ks ms else atPath (assignTo ks n) path ms

/-! ## What a tree stands for -/

/-- The first key of a table that stands for a date or a time. -/
def momentKey : String := "$__toml_private_datetime"

/-- The date or time that a text states. -/
def Node.stated? : Node → Option SettingValue
  | .scalar (.plain (.text s)) => (Clock.quoted.moment? s.toList).map .text
  | _ => none

mutual

def Node.value? : Node → Option SettingValue
  | .scalar s => some s.value
  | .list items => (valuesOfItems items).map .ofItems
  | .braced ms | .table _ ms => valueOfTable ms
  | .tables es => (valuesOfElements es).map fun vs => .ofItems vs.reverse

def valuesOfItems : List Node → Option (List SettingValue)
  | [] => some []
  | n :: ns => do return (← n.value?) :: (← valuesOfItems ns)

def valueOfTable : List (String × Node) → Option SettingValue
  | [] => some (.table [])
  | (k, n) :: ms =>
      if k = momentKey then n.stated?
      else do return .table ((k, ← n.value?) :: (← valuesOfMembers ms))

/-- The values that members of a table stand for. -/
def valuesOfMembers : List (String × Node) → Option (List (String × SettingValue))
  | [] => some []
  | (k, n) :: ms => do return (k, ← n.value?) :: (← valuesOfMembers ms)

def valuesOfElements : List (List (String × Node)) → Option (List SettingValue)
  | [] => some []
  | ms :: es => do return (← valueOfTable ms) :: (← valuesOfElements es)

end

/-! ## Values -/

/-- How deep lists and tables may nest in a value. -/
def depthLimit : Nat := 79

def listTail (value : Parser Node) : Nat → Parser (List Node)
  | 0, _ => none
  | fuel + 1, cs => do
      match ← skipSpace cs with
      | ']' :: rest => some ([], rest)
      | cs =>
          let (n, rest) ← value cs
          match ← skipSpace rest with
          | ']' :: rest => some ([n], rest)
          | ',' :: rest => (listTail value fuel rest).map fun (ns, rest) => (n :: ns, rest)
          | _ => none

def assignment (value : Parser Node) : Parser (List String × Node) := fun cs => do
  match ← key cs with
  | (ks, '=' :: rest) =>
      let (n, rest) ← value (skipBlanks rest)
      some ((ks, n), rest)
  | _ => none

def tableTail (value : Parser Node) : Nat → Members → Parser Members
  | 0, _, _ => none
  | fuel + 1, ms, cs => do
      let ((ks, n), rest) ← assignment value (skipBlanks cs)
      let ms ← assign n true ks ms
      match skipBlanks rest with
      | '\x7d' :: rest => some (ms, rest)
      | ',' :: rest => tableTail value fuel ms rest
      | _ => none

def textValue : Parser Node := fun cs =>
  (text cs).map fun (s, rest) => (.scalar (.plain (.text s)), rest)

def value : Nat → Parser Node
  | _, '"' :: rest => textValue ('"' :: rest)
  | _, '\'' :: rest => textValue ('\'' :: rest)
  | depth + 1, '[' :: rest =>
      (listTail (value depth) (rest.length + 1) rest).map fun (ns, rest) => (.list ns, rest)
  | depth + 1, '\x7b' :: rest =>
      match skipBlanks rest with
      | '\x7d' :: rest => some (.braced [], rest)
      | rest =>
          (tableTail (value depth) (rest.length + 1) [] rest).map fun (ms, rest) =>
            (.braced ms, rest)
  | _, cs =>
      let (run, rest) := cutScalar cs
      (scalar? run).map fun s => (.scalar s, rest)

/-! ## Documents -/

/-- Reads one line, given the tables so far and the path of the last header. -/
def line (path : List String) (ms : Members) (cs : List Char) :
    Option ((List String × Members) × List Char) :=
  match skipBlanks cs with
  | '[' :: '[' :: rest => do
      match ← key (skipBlanks rest) with
      | (path, ']' :: ']' :: rest) =>
          some ((path, ← atPath openElement path ms), ← finishLine rest)
      | _ => none
  | '[' :: rest => do
      match ← key (skipBlanks rest) with
      | (path, ']' :: rest) => some ((path, ← atPath openTable path ms), ← finishLine rest)
      | _ => none
  | cs => do
      let left ← skipComment cs
      if left.isEmpty then some ((path, ms), [])
      else
        match lineEnd left with
        | some rest => some ((path, ms), rest)
        | none =>
            let ((ks, n), rest) ← assignment (value depthLimit) cs
            some ((path, ← assignIn path ks n ms), ← finishLine rest)

def lines : Nat → List String → Members → List Char → Option Members
  | _, _, ms, [] => some ms
  | 0, _, _, _ => none
  | fuel + 1, path, ms, cs => do
      let ((path, ms), rest) ← line path ms cs
      lines fuel path ms rest

/-- The top table of a document, or nothing if the text is no document. -/
def ofText (s : String) : Option (List (String × SettingValue)) := do
  let ms ← lines (s.toList.length + 1) [] [] s.toList
  match ← valueOfTable ms with
  | .table vs => some vs
  | _ => none

end SplitReader.Toml
