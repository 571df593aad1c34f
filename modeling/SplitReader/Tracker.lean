import SplitReader.OffsetKind
import SplitReader.Outcome
import SplitReader.Progress
import SplitReader.SplitRejection

/-! # Trackers

A tracker owns the unread window of one reader: the offset of the next unread record and the
offset at which to stop. Claims move the first one up, splits move the second one down, and
every split is judged against the window as it is at that instant. Since a split must lie
strictly after the next unread record, no record that was handed out ever lies behind it.

The window is shared between the reading side and the control side, so every operation is one
indivisible step. A reader that crashes inside a claim leaves its mark on the tracker, and
nothing else.

That a reader moves forward is a debug assertion. The trackers here are those of a build that checks
it, in which a reader that stands still crashes; in any other build the index would follow it.
-/

set_option autoImplicit false

namespace SplitReader

/-! ## Windows -/

/-- The unread window of a reader. The index may pass the stop: a record that begins before
the stop may end behind it. -/
structure Window where
  /-- The offset of the next unread record. -/
  index : Nat
  /-- The offset before which records are read. It is only ever lowered. -/
  stop : Nat
  deriving DecidableEq, Repr, Inhabited

namespace Window

/-- A record is left to read. -/
def hasNext (w : Window) : Bool := w.index < w.stop

/-- Moves the stop to a proposed offset that lies strictly inside the window. -/
def splitAt (proposed : Nat) (w : Window) : Except SplitRejection Window :=
  if proposed ≤ w.index then
    .error (.notAfterCurrent proposed w.index)
  else if w.stop ≤ proposed then
    .error (.notBeforeStop proposed w.stop)
  else
    .ok { w with stop := proposed }

/-- Moves the stop to the position that a proposal names, if it is an offset of the right
kind strictly inside the window. Nothing else in the proposal matters. -/
def split (kind : OffsetKind) (proposed : Progress) (w : Window) :
    Except SplitRejection Window :=
  match proposed.position with
  | none => .error .missingPosition
  | some position =>
      match kind.offset? position with
      | none => .error (.unsupported position)
      | some offset => w.splitAt offset

end Window

/-! ## Trackers -/

/-- The window of one reader, with the kind of its offsets. -/
structure Tracker where
  kind : OffsetKind
  window : Window
  /-- A reader has crashed inside a claim. -/
  crashed : Bool := false
  deriving DecidableEq, Repr, Inhabited

namespace Tracker

variable {ε α ρ : Type}

/-- A fresh tracker over the offsets from `start` up to but not including `stop`. -/
def new (kind : OffsetKind) (start stop : Nat) : Tracker :=
  { kind := kind, window := { index := start, stop := stop } }

def hasNext (t : Tracker) : Bool := t.window.hasNext

def position (t : Tracker) : Position := t.kind.position t.window.index

def progress (t : Tracker) : Progress := .ofPosition t.position

/-- The reason given when a reader does not move forward, in a build with debug assertions. -/
def standstill : String := "cursor must move forward"

/-- Reads the record at the index, if one is left. The reader gets the index and gives a
value and the offset of the record after it. The index moves only if the reader gives a
value and moves forward; the state of the reader itself is kept whatever happens. What is said of
readers that do not move forward holds where debug assertions are checked. -/
def claim (read : Nat → ρ → Outcome ε (α × Nat) × ρ) (t : Tracker) (r : ρ) :
    Outcome ε (Option α) × Tracker × ρ :=
  if t.hasNext then
    match read t.window.index r with
    | (.value (a, following), r) =>
        if t.window.index < following then
          (.value (some a), { t with window := { t.window with index := following } }, r)
        else
          (.crashed standstill, { t with crashed := true }, r)
    | (.failed e, r) => (.failed e, t, r)
    | (.crashed text, r) => (.crashed text, { t with crashed := true }, r)
  else
    (.value none, t, r)

def splitAt (proposed : Nat) (t : Tracker) : Except SplitRejection (Nat × Tracker) :=
  (t.window.splitAt proposed).map fun w => (w.stop, { t with window := w })

def split (proposed : Progress) (t : Tracker) : Except SplitRejection (Position × Tracker) :=
  (t.window.split t.kind proposed).map fun w =>
    (t.kind.position w.stop, { t with window := w })

def describe (t : Tracker) : String :=
  "RangeTracker \x7b kind: " ++ t.kind.display ++ ", cursor: Mutex \x7b data: Cursor \x7b index: " ++
    Decimal.natural t.window.index ++ ", stop: " ++ Decimal.natural t.window.stop ++ " \x7d, poisoned: " ++
    (if t.crashed then "true" else "false") ++ ", .. \x7d \x7d"

end Tracker

end SplitReader
