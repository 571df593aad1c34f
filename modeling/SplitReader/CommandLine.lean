import SplitReader.Text.Decimal

/-! # The command line

A worker is started with the file of its work item, perhaps with a settings file, and with a
switch for how much it logs. Arguments are read from left to right, and the first fault or
request for information ends the reading.
-/

set_option autoImplicit false

namespace SplitReader

/-- What a worker is asked to do. -/
structure CommandLine where
  workItem : String
  settings : Option String := none
  verbosity : Nat := 0
  deriving DecidableEq, Repr, Inhabited

namespace CommandLine

/-- What a list of arguments asks for. -/
inductive Request where
  | work (c : CommandLine)
  | help
  | version
  | misuse
  deriving DecidableEq, Repr, Inhabited

/-- What the arguments so far have given. -/
structure Draft where
  workItem : Option String := none
  settings : Option String := none
  verbosity : Nat := 0
  deriving DecidableEq, Repr, Inhabited

def Draft.finish (d : Draft) : Request :=
  match d.workItem with
  | some workItem => .work { workItem, settings := d.settings, verbosity := d.verbosity }
  | none => .misuse

inductive Argument where
  /-- A name behind two dashes, with the value behind an equals sign. -/
  | named (name : String) (value : Option String)
  | letters (cs : List Char)
  /-- Two dashes: what follows is no option. -/
  | divider
  | plain (s : String)
  deriving DecidableEq, Repr

/-- Reads one argument. A single dash is a text. -/
def Argument.ofText (s : String) : Argument :=
  match s.toList with
  | ['-', '-'] => .divider
  | '-' :: '-' :: cs =>
      let name := String.ofList (cs.takeWhile (· ≠ '='))
      match cs.dropWhile (· ≠ '=') with
      | [] => .named name none
      | _ :: value => .named name (some (String.ofList value))
  | '-' :: c :: cs => .letters (c :: cs)
  | _ => .plain s

def takeLetters (d : Draft) : List Char → Except Request Draft
  | [] => .ok d
  | 'v' :: cs => takeLetters { d with verbosity := d.verbosity + 1 } cs
  | 'h' :: _ => .error .help
  | 'V' :: _ => .error .version
  | _ :: _ => .error .misuse

/-- The switches without a value. -/
def takeSwitch (d : Draft) : String → Except Request Draft
  | "verbose" => .ok { d with verbosity := d.verbosity + 1 }
  | "help" => .error .help
  | "version" => .error .version
  | _ => .error .misuse

inductive Slot where
  | workItem
  | settings
  deriving DecidableEq, Repr

def Slot.ofName? : String → Option Slot
  | "work-item" => some .workItem
  | "config" => some .settings
  | _ => none

/-- Gives an option its value. No option has two, and the work item has a name that is not
empty. -/
def takeValue (d : Draft) : Slot → String → Except Request Draft
  | .workItem, s =>
      if s.isEmpty ∨ d.workItem.isSome then .error .misuse else .ok { d with workItem := some s }
  | .settings, s =>
      if d.settings.isSome then .error .misuse else .ok { d with settings := some s }

/-- Whether a text can stand as the value of an option that it follows. -/
def isValue (s : String) : Bool :=
  match Argument.ofText s with
  | .plain _ => true
  | _ => false

def readFrom (d : Draft) : List String → Request
  | [] => d.finish
  | arg :: rest =>
      match Argument.ofText arg with
      | .plain _ => .misuse
      | .divider => if rest.isEmpty then d.finish else .misuse
      | .letters cs =>
          match takeLetters d cs with
          | .error r => r
          | .ok d => readFrom d rest
      | .named name value =>
          match Slot.ofName? name, value with
          | none, some _ => .misuse
          | none, none =>
              match takeSwitch d name with
              | .error r => r
              | .ok d => readFrom d rest
          | some o, some s =>
              match takeValue d o s with
              | .error r => r
              | .ok d => readFrom d rest
          | some o, none =>
              match rest with
              | s :: rest =>
                  if !isValue s then .misuse
                  else
                    match takeValue d o s with
                    | .error r => r
                    | .ok d => readFrom d rest
              | [] => .misuse

def read (args : List String) : Request := readFrom {} args

end CommandLine

end SplitReader
