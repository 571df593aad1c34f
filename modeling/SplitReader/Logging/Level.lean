import SplitReader.Text.Decimal

/-! # Log levels

How important a line of the log is, and how much is logged at all. Levels are written by name
in any case, or as numbers.
-/

set_option autoImplicit false

namespace SplitReader

inductive LogLevel where
  | off
  | error
  | warn
  | info
  | debug
  | trace
  deriving DecidableEq, Repr, Inhabited

namespace LogLevel

/-- How much a level lets through. -/
def rank : LogLevel → Nat
  | off => 0
  | error => 1
  | warn => 2
  | info => 3
  | debug => 4
  | trace => 5

def name : LogLevel → String
  | off => "off"
  | error => "error"
  | warn => "warn"
  | info => "info"
  | debug => "debug"
  | trace => "trace"

/-- The levels, by rank. -/
def all : List LogLevel := [off, error, warn, info, debug, trace]

/-- The level of a rank. Past the last level it is everything. -/
def ofRank (n : Nat) : LogLevel := all.getD n trace

/-- The level of a name in any case. -/
def ofName? (s : String) : Option LogLevel := all.find? fun l => l.name = s.toLower

/-- The level of a number, with or without a plus in front. -/
def ofNumber? (s : String) : Option LogLevel := do
  let digits :=
    match s.toList with
    | '+' :: rest => rest
    | cs => cs
  all[← Decimal.natural? digits]?

def ofText? (s : String) : Option LogLevel := ofNumber? s <|> ofName? s

/-- Raises a level by some steps, where silence is no step. A text that is no name of a level is
left as it is. -/
def raised (base : String) (steps : Nat) : String :=
  match ofName? base with
  | none | some off => base
  | some l => (ofRank (l.rank + steps)).name

end LogLevel

end SplitReader
