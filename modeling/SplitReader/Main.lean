import SplitReader.Worker

/-! # The worker as a program

Gathers what the worker finds around it, lets it run, and shows what it leaves behind.
-/

set_option autoImplicit false

namespace SplitReader.Main

def splitAtZeros (bytes : List UInt8) : List (List UInt8) := bytes.splitOn 0

/-- The variable that a text of name, equals sign and value describes. -/
def binding? (bytes : List UInt8) : Option (String × String) := do
  let s ← (Utf8.decode bytes).toOption
  let cs := s.toList
  match cs.dropWhile (· ≠ '=') with
  | _ :: value => some (String.ofList (cs.takeWhile (· ≠ '=')), String.ofList value)
  | [] => none

def bytesOf (path : String) : IO (Option (List UInt8)) := do
  try
    let content ← IO.FS.readBinFile path
    return some content.toList
  catch _ => return none

def environment : IO Environment.Variables := do
  let bytes ← bytesOf "/proc/self/environ"
  return (splitAtZeros (bytes.getD [])).filterMap binding?

/-- Adds a file to those that are known, if it can be read. -/
def gather (files : Files) (path : String) : IO Files := do
  match ← bytesOf path with
  | some bytes => return files.put path (.regular bytes)
  | none => return files

/-- The file that a work item reads, if it is there and names one. -/
def dataPath? (files : Files) (itemPath : String) : Option String :=
  match WorkItem.load files itemPath with
  | .ok ⟨_, .textFile path _ _⟩ => some path
  | _ => none

/-- The files that the worker may ask for. -/
def filesFor (c : CommandLine) (vs : Environment.Variables) : IO Files := do
  let settingsPath := Worker.settingsPath c { environment := vs }
  let files ← (SettingsFile.candidates settingsPath).foldlM gather {}
  let files ← gather files c.workItem
  match dataPath? files c.workItem with
  | some path => gather files path
  | none => return files

def surroundings (args : List String) : IO Worker.Surroundings := do
  let vs ← environment
  let files ←
    match CommandLine.read args with
    | .work c => filesFor c vs
    | _ => pure {}
  return { environment := vs, files, random := (← IO.getRandomBytes 16).toList }

/-- What the process says about its ending on the error stream. -/
def remark (args : List String) (e : Worker.Ending) : List String :=
  let start := e.announced.toList.map fun level => "floe-worker started with log level " ++ level
  let fault := e.fault.toList.map fun f => "Error: " ++ f.message?.getD "the work failed"
  let misuse := if CommandLine.read args = .misuse then [Worker.usage] else []
  let crash := if e.exitCode = Worker.crashCode then ["The worker has crashed"] else []
  start ++ fault ++ misuse ++ crash

end SplitReader.Main

def main (args : List String) : IO UInt32 := do
  let ending := SplitReader.Worker.run args (← SplitReader.Main.surroundings args)
  let out ← IO.getStdout
  out.write (ByteArray.mk ending.output.toArray)
  out.flush
  for line in SplitReader.Main.remark args ending do
    IO.eprintln line
  return UInt32.ofNat ending.exitCode
