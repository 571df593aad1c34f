import SplitReader.CommandLine
import SplitReader.Logging.Filter
import SplitReader.Settings
import SplitReader.Work.Run

/-! # The worker program

A worker reads its arguments, then its settings, starts its log, reads its work item and writes
the records of the item, each with a line feed behind it. Whatever fails ends it, and what was
written before stays written. Settings and levels of the log may be so odd that the worker
crashes over them; then nothing has been written yet.
-/

set_option autoImplicit false

namespace SplitReader

namespace Worker

/-- What a process finds when it starts. -/
structure Surroundings where
  environment : Environment.Variables := []
  files : Files := {}
  /-- Sixteen random bytes. -/
  random : List UInt8 := []
  deriving Inhabited

/-- What a process leaves behind. -/
structure Ending where
  exitCode : Nat
  output : List UInt8 := []
  /-- The level that its log names in its first message, if that message is shown. -/
  announced : Option String := none
  fault : Option WorkerError := none
  deriving Inhabited

def version : String := "floe-worker 0.1.0\n"

def usage : String :=
  "Reads one work item and writes its records to stdout, one per line\n\n" ++
    "Usage: floe-worker [OPTIONS] --work-item <WORK_ITEM>\n\n" ++
    "Options:\n" ++
    "      --work-item <WORK_ITEM>  JSON work item description\n" ++
    "      --config <CONFIG>        Settings file; defaults to $FLOE_WORKER_CONFIG_PATH\n" ++
    "  -v, --verbose...\n" ++
    "  -h, --help                   Print help\n" ++
    "  -V, --version                Print version\n"

/-- A record as it is written. -/
def written (record : List UInt8) : List UInt8 := record ++ [0x0A]

def settingsPath (c : CommandLine) (s : Surroundings) : String :=
  c.settings.getD (Settings.pathOf s.environment)

def settings (c : CommandLine) (s : Surroundings) : Outcome WorkerError Settings :=
  Settings.load s.files (settingsPath c s) s.environment

/-- The level of the log: a name, or a list of directives. -/
def logLevel (c : CommandLine) (set : Settings) : String :=
  LogLevel.raised set.logLevel c.verbosity

/-- What the log of a process shows. -/
def logFilter (c : CommandLine) (s : Surroundings) (set : Settings) :
    Except DirectiveError LogFilter :=
  LogFilter.ofProcess (s.environment.lookup LogFilter.directivesVariable) (logLevel c set)

/-- Works on a work item. Nobody answers the reports, so no split is ever proposed. -/
def perform (s : Surroundings) (set : Settings) (w : WorkItem) : WorkItem.Outcome :=
  w.run s.files (set.identity s.random) (fun _ _ => .accept) .silent (fun _ => 0) 0

def Ending.failed (announced : Option String) (output : List UInt8) (e : WorkerError) : Ending where
  exitCode := 1
  output := output
  announced := announced
  fault := some e

/-- The exit code of a process that has crashed. -/
def crashCode : Nat := 101

/-- Ends a process that crashes before its work. -/
def Ending.crashed : Ending where
  exitCode := crashCode

/-- Works on the item of a file, behind the first message of the log. -/
def workOn (path : String) (s : Surroundings) (set : Settings) (announced : Option String) :
    Ending :=
  match WorkItem.load s.files path with
  | .error e => .failed announced [] e
  | .ok w =>
      let done := perform s set w
      let output := done.handed.flatMap written
      match done.result with
      | .error e => .failed announced output e
      | .ok _ => { exitCode := 0, output, announced }

def work (c : CommandLine) (s : Surroundings) : Ending :=
  match settings c s with
  | .crashed _ => .crashed
  | .failed e => .failed none [] e
  | .value set =>
      match logFilter c s set with
      | .error _ => .crashed
      | .ok filter => workOn c.workItem s set (filter.announced? (logLevel c set))

def run (args : List String) (s : Surroundings) : Ending :=
  match CommandLine.read args with
  | .work c => work c s
  | .help => { exitCode := 0, output := Utf8.encode usage }
  | .version => { exitCode := 0, output := Utf8.encode version }
  | .misuse => { exitCode := 2 }

end Worker

end SplitReader
