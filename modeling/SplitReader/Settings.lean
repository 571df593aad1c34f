import SplitReader.Outcome
import SplitReader.Settings.Environment
import SplitReader.Settings.File
import SplitReader.Settings.Table
import SplitReader.Work.Error

/-! # Settings of a worker

A worker has an identity, an interval between its reports and a level for its log. Each of the
three has a default. A file may set them, and the environment has the last word.
-/

set_option autoImplicit false

namespace SplitReader

structure Settings where
  /-- The identity of the worker. Without one a fresh identity is made up. -/
  workerId : Option String := none
  reportIntervalMs : UInt64 := 1000
  /-- How much is logged: a level, or a list of directives. -/
  logLevel : String := "info"
  deriving DecidableEq, Repr, Inhabited

namespace Settings

/-- The settings in a table, or nothing if one has a value of the wrong kind. -/
def ofTable? (t : SettingTable) : Option Settings := do
  let workerId ←
    match t.lookup "worker_id" with
    | none | some .null => some none
    | some v => v.asText?.map some
  let reportIntervalMs ← (t.lookup "progress_report_interval_ms").elim (some 1000) (·.asWord?)
  let logLevel ← (t.lookup "log_level").elim (some "info") (·.asText?)
  some { workerId, reportIntervalMs, logLevel }

/-- The settings that a file and the environment give. A key that leads before the start of a
list, or too far behind its end, is a crash. -/
def load (files : Files) (path : String) (vs : Environment.Variables) :
    Outcome WorkerError Settings :=
  match SettingsFile.entries? files path with
  | none => .failed .config
  | some es =>
      match SettingTable.ofEntries (es ++ Environment.entries vs) with
      | .error e => .crashed e.message
      | .ok t =>
          match ofTable? t with
          | none => .failed .config
          | some s => .value s

def pathVariable : String := "FLOE_WORKER_CONFIG_PATH"

def defaultPath : String := "crates/worker/config/default.toml"

/-- The name of the settings file, unless the command line gives one. -/
def pathOf (vs : Environment.Variables) : String := (vs.lookup pathVariable).getD defaultPath

/-- The time between two reports in milliseconds. It is never zero. -/
def reportInterval (s : Settings) : UInt64 := max s.reportIntervalMs 1

/-! ## Identities -/

/-- Which of sixteen bytes follow a dash. -/
def dashes : List Nat := [4, 6, 8, 10]

/-- Sixteen random bytes as an identity of 36 characters. Some of their bits are taken to say
that the identity is a random one. -/
def freshId (random : List UInt8) : String :=
  let marked (i : Nat) : UInt8 :=
    let b := random.getD i 0
    if i = 6 then UInt8.ofNat (0x40 + b.toNat % 0x10)
    else if i = 8 then UInt8.ofNat (0x80 + b.toNat % 0x40)
    else b
  String.ofList <| (List.range 16).flatMap fun i =>
    (if i ∈ dashes then ['-'] else []) ++ Hexadecimal.byte (marked i)

/-- The identity of the worker: the one that is set, or a fresh one. -/
def identity (random : List UInt8) (s : Settings) : String := s.workerId.getD (freshId random)

end Settings

end SplitReader
