import SplitReader.Progress
import SplitReader.SourceError
import SplitReader.SplitRejection

/-! # Bounded readers

A bounded reader is a cursor over a bounded range of records. One consumer reads; others may
look at the progress and propose an earlier stop at any time. Reading tests the bound, decodes
the record and moves on in one step, so a split between two steps can end a read early but
never make it fail.

What can be asked of a reader is collected in a record of functions over its state. On top of
it stand three ways to consume a reader: reading until nothing is left, asking first whether
something is left, and pulling elements until the first error.
-/

set_option autoImplicit false

namespace SplitReader

/-- An element, with the number of bytes that its record had. -/
structure Delivered (α : Type) where
  element : α
  byteLength : Nat
  deriving DecidableEq, Repr

/-- What can be asked of a reader with states in `S` and elements in `α`. -/
structure BoundedReader (S α : Type) where
  hasNext : S → Bool
  tryNext : S → Outcome SourceError (Option (Delivered α)) × S
  progress : S → Progress
  /-- Proposes a stop position. A reader that cannot be split refuses every proposal. -/
  trySplit : Progress → S → Except SplitRejection (Position × S) := fun _ _ => .error .notSplittable
  /-- A bound on the number of records that are left. -/
  remaining : S → Nat

namespace BoundedReader

variable {S α : Type}

/-- Reads the next record and fails when the range is exhausted. -/
def next (r : BoundedReader S α) (s : S) : Outcome SourceError (Delivered α) × S :=
  match r.tryNext s with
  | (.value (some d), s) => (.value d, s)
  | (.value none, s) => (.failed .noSuchElement, s)
  | (.failed e, s) => (.failed e, s)
  | (.crashed text, s) => (.crashed text, s)

/-- Proposes a stop position and keeps silent about why it is refused. -/
def split (r : BoundedReader S α) (proposed : Progress) (s : S) : Option Position × S :=
  match r.trySplit proposed s with
  | .ok (position, s) => (some position, s)
  | .error _ => (none, s)

/-! ## Pulling elements -/

/-- A reader from which elements are pulled until the end or the first error. -/
structure Pull (S : Type) where
  state : S
  isDone : Bool := false

/-- What one pull gives: an element or an error, or nothing, or a crash. -/
inductive Pulled (α : Type) where
  | item (x : Except SourceError (Delivered α))
  | ended
  | crashed (text : String)

def pull (r : BoundedReader S α) (p : Pull S) : Pulled α × Pull S :=
  if p.isDone then (.ended, p)
  else
    match r.tryNext p.state with
    | (.value (some d), s) => (.item (.ok d), { p with state := s })
    | (.value none, s) => (.ended, { state := s, isDone := true })
    | (.failed e, s) => (.item (.error e), { state := s, isDone := true })
    | (.crashed text, s) => (.crashed text, { p with state := s })

structure PullRun (S α : Type) where
  items : List (Except SourceError (Delivered α))
  hasEnded : Bool
  crash : Option String
  pull : Pull S

/-- Pulls up to a number of times, and no further than the end. -/
def pullMany (r : BoundedReader S α) : Nat → Pull S → PullRun S α
  | 0, p => { items := [], hasEnded := false, crash := none, pull := p }
  | count + 1, p =>
      match r.pull p with
      | (.ended, p) => { items := [], hasEnded := true, crash := none, pull := p }
      | (.crashed text, p) => { items := [], hasEnded := false, crash := some text, pull := p }
      | (.item x, p) =>
          let rest := r.pullMany count p
          { rest with items := x :: rest.items }

/-- Pulls items from a fresh adapter, up to a limit if there is one. Without a limit, two more
pulls than there are records left are enough to meet the end even behind an error. -/
def elements (r : BoundedReader S α) (limit : Option Nat) (s : S) : PullRun S α :=
  r.pullMany (limit.getD (r.remaining s + 2)) { state := s }

end BoundedReader

end SplitReader
