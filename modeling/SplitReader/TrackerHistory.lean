import SplitReader.Tracker

/-! # Histories of a tracker

A history is a list of operations performed on one tracker in some order, whoever asked for
them. Since every operation is one indivisible step, the runs of a shared tracker are exactly
the histories.
-/

set_option autoImplicit false

namespace SplitReader

namespace Tracker

inductive Action (ε α : Type) where
  /-- Claims the next record with a reader that is a function of the index. -/
  | claim (read : Nat → Outcome ε (α × Nat))
  | splitAt (proposed : Nat)
  | split (proposed : Progress)
  | hasNext
  | progress
  | snapshot

inductive Reply (ε α : Type) where
  | claimed (outcome : Outcome ε (Option α))
  | splitAt (answer : Except SplitRejection Nat)
  | split (answer : Except SplitRejection Position)
  | hasNext (answer : Bool)
  | progress (answer : Progress)
  | snapshot (answer : Window)

variable {ε α : Type}

def perform (t : Tracker) : Action ε α → Reply ε α × Tracker
  | .claim read =>
      let (outcome, t', _) := t.claim (fun index u => (read index, u)) ()
      (.claimed outcome, t')
  | .splitAt proposed =>
      match t.splitAt proposed with
      | .ok (stop, t') => (.splitAt (.ok stop), t')
      | .error reason => (.splitAt (.error reason), t)
  | .split proposed =>
      match t.split proposed with
      | .ok (position, t') => (.split (.ok position), t')
      | .error reason => (.split (.error reason), t)
  | .hasNext => (.hasNext t.hasNext, t)
  | .progress => (.progress t.progress, t)
  | .snapshot => (.snapshot t.window, t)

def performAll (t : Tracker) : List (Action ε α) → List (Reply ε α) × Tracker
  | [] => ([], t)
  | action :: actions =>
      let (reply, t) := t.perform action
      let (replies, t) := t.performAll actions
      (reply :: replies, t)

end Tracker

end SplitReader
