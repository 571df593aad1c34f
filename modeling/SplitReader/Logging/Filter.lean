import SplitReader.Logging.Directive
import SplitReader.Logging.Line

/-! # Log filters

A filter is a list of directives. Of those about a line, the one that describes it most closely
decides. A list without directives lets only faults through.
-/

set_option autoImplicit false

namespace SplitReader

/-- Which lines are logged. -/
abbrev LogFilter := List LogDirective

namespace LogFilter

def ofDirectives (ds : List LogDirective) : LogFilter :=
  if ds.isEmpty then [{ level := .error }] else ds

def parts (s : String) : List (List Char) :=
  (s.toList.splitOn ',').filter fun cs => !cs.isEmpty

/-- The filter of a list of directives, all of which must be well formed. -/
def strict (s : String) : Except DirectiveError LogFilter :=
  ((parts s).mapM LogDirective.ofChars).map ofDirectives

/-- Reads one more directive, which does not count if it is malformed. -/
def addLenient (ds : List LogDirective) (part : List Char) :
    Except DirectiveError (List LogDirective) :=
  match LogDirective.ofChars part with
  | .ok d => .ok (ds ++ [d])
  | .error .malformed => .ok ds
  | .error .splitsCharacter => .error .splitsCharacter

/-- The filter of a list of directives, where those that are malformed do not count. -/
def lenient (s : String) : Except DirectiveError LogFilter :=
  ((parts s).foldlM addLenient []).map ofDirectives

/-- The closer one of two directives, and the later one of equals. -/
def closer (found : Option LogDirective) (d : LogDirective) : Option LogDirective :=
  match found with
  | none => some d
  | some e =>
      let (length, fields) := d.closeness
      let (length', fields') := e.closeness
      if length' < length ∨ (length' = length ∧ fields' ≤ fields) then some d else some e

/-- The directive that decides about a line. -/
def deciding? (target : String) (fields : List String) (f : LogFilter) : Option LogDirective :=
  (f.filter (·.isAbout target fields)).foldl closer none

def shows (target : String) (fields : List String) (level : LogLevel) (f : LogFilter) : Bool :=
  (f.deciding? target fields).any fun d => level.rank ≤ d.level.rank

/-! ## The first message of the log -/

/-- The variable that holds directives. -/
def directivesVariable : String := "RUST_LOG"

/-- The filter of a process: the directives of the variable, or else those of the settings. -/
def ofProcess (directives : Option String) (logLevel : String) :
    Except DirectiveError LogFilter :=
  match directives.map strict with
  | none | some (.error .malformed) => lenient logLevel
  | some found => found

/-- The part of the program that logs its start. -/
def startTarget : String := "floe_worker::logging"

/-- The level as it is named in the first message of the log, if that message is shown. The
message is one of detail, and its only field is its text. -/
def announced? (logLevel : String) (f : LogFilter) : Option String :=
  if f.shows startTarget ["message"] .debug then some (LogLine.escaped logLevel) else none

end LogFilter

end SplitReader
