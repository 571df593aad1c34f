import SplitReader.Binary32
import SplitReader.Duration
import SplitReader.Position

/-! # Progress

A progress says how far a reader has come: where it stands, and optionally which share of
its work is done and how long the rest will take. The same shape carries a proposed stop
position in the other direction, where only the position matters.
-/

set_option autoImplicit false

namespace SplitReader

/-- How far a reader has come, or where it should stop. -/
structure Progress where
  /-- The position of the next unread record. -/
  position : Option Position := none
  percentComplete : Option Binary32 := none
  remainingTime : Option Duration := none
  deriving DecidableEq, Repr, Inhabited

namespace Progress

/-- The progress of a reader that stands at a position, and nothing more. -/
def ofPosition (position : Position) : Progress := { position := some position }

def withPercentComplete (percent : Binary32) (p : Progress) : Progress :=
  { p with percentComplete := some percent }

def withRemainingTime (time : Duration) (p : Progress) : Progress :=
  { p with remainingTime := some time }

/-- Two progresses say the same: like equality, but shares of completed work are compared as
numbers. -/
def sameAs (p q : Progress) : Bool :=
  p.position == q.position && p.remainingTime == q.remainingTime &&
    match p.percentComplete, q.percentComplete with
    | none, none => true
    | some x, some y => x.numEq y
    | _, _ => false

end Progress

end SplitReader
