import SplitReader.Json.Error
import SplitReader.SourceError

/-! # Errors of workers

What can end the work on an item. The reading task may also crash; to who waits for it that is
an error like the others, without a wording of its own.
-/

set_option autoImplicit false

namespace SplitReader

/-- What can end the work on an item. -/
inductive WorkerError where
  | config
  | source (e : SourceError)
  /-- The medium of the work item or of the output failed. -/
  | io (e : IoError)
  | workItem (e : Json.Error)
  | join
  | progressUpdate (text : String)
  /-- Another fault, of the consumer of the records for instance. -/
  | internal (text : String)
  deriving DecidableEq, Repr, Inhabited

/-- The reason in words, as far as it has a wording of its own. -/
def WorkerError.message? : WorkerError → Option String
  | config => some "Failed to load configuration"
  | source e => e.message?.map ("Source error: " ++ ·)
  | io e => e.message?
  | workItem _ | join => none
  | progressUpdate text => some ("Progress update failed: " ++ text)
  | internal text => some ("An internal error occurred: " ++ text)

end SplitReader
