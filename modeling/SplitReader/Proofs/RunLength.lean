import Mathlib.Logic.Function.Iterate
import SplitReader.Proofs.FinishedRead

/-! # How long a run is

A run is a loop. In each turn it reads once, and when it was given an element it hands it to the sink
and answers what the sink asks for (`Run.turn`). The loop has no bound of its own. What ends it is
that the window of the reader gets smaller with every element, from whichever side: a read moves the
index up, and perhaps beyond the stop, and a split moves the stop down. A read that gives no element
ends the run at once, so a file in which nothing is left at the index is read there only once.

So a run hands over at most as many elements as there are offsets in the window when it begins, and
makes one more read at most (`turns_of_run`). The count of reads is the one that the reader keeps
(`CountsReads`), and the files may be other ones at every read.
-/

set_option autoImplicit false

namespace SplitReader

/-! ## Counted reads -/

/-- A reader keeps a count of its reads, and splits do not enter it. -/
structure BoundedReader.CountsReads {S α : Type} (r : BoundedReader S α) (reads : S → Nat) :
    Prop where
  tryNext : ∀ s, reads (r.tryNext s).2 = reads s + 1
  trySplit : ∀ {s s' : S} {proposed : Progress} {position : Position},
    r.trySplit proposed s = .ok (position, s') → reads s' = reads s

theorem RangeReader.boundedThrough_countsReads {σ α : Type} (files : Nat → Files)
    (decoder : Decoder σ α) : (boundedThrough files decoder).CountsReads Prod.snd where
  tryNext := fun s => rfl
  trySplit := by
    intro s s' proposed position h
    cases hsplit : (bounded (files s.2) decoder).trySplit proposed s.1 with
    | error e =>
        simp only [boundedThrough, hsplit] at h
        cases h
    | ok accepted =>
        simp only [boundedThrough, hsplit] at h
        cases h
        rfl

namespace ReadOperation

variable {S α : Type} {r : BoundedReader S α} {sink : Sink α} {reads : S → Nat}

/-- A read counts, leaves no more than there was, and less if it gives an element. -/
theorem take_narrows (hr : r.Narrowing) (hc : r.CountsReads reads) {op op' : ReadOperation S}
    {outcome : Outcome SourceError (Option α)} (h : op.take r = (outcome, op')) :
    reads op'.reader = reads op.reader + 1 ∧ r.remaining op'.reader ≤ r.remaining op.reader ∧
      ∀ a, outcome = .value (some a) → r.remaining op'.reader < r.remaining op.reader := by
  by_cases hsome : ∃ a, outcome = .value (some a)
  · obtain ⟨a, rfl⟩ := hsome
    obtain ⟨d, reader, hnext, -, rfl⟩ := of_take_some h
    have hless := hr.read hnext
    have hcount := hc.tryNext op.reader
    rw [hnext] at hcount
    exact ⟨hcount, Nat.le_of_lt hless, fun _ _ => hless⟩
  · have hmiss : ∀ a, outcome ≠ .value (some a) := fun a ha => hsome ⟨a, ha⟩
    obtain ⟨read, reader, hnext, -, rfl⟩ := of_take_miss h hmiss
    have hcount := hc.tryNext op.reader
    rw [hnext] at hcount
    exact ⟨hcount, hr.miss hnext, fun a ha => absurd ha (hmiss a)⟩

theorem serveAll_of_requestSplit {P : ReadOperation S → Prop}
    (hsplit : ∀ op proposed, P op → P (op.requestSplit r proposed).2) (requests : List SinkRequest) :
    ∀ op, P op → P (op.serveAll r requests).2 := by
  induction requests with
  | nil => exact fun op h => h
  | cons request requests ih =>
      intro op h
      cases request with
      | split proposed => exact ih _ (hsplit op proposed h)
      | inspect => exact ih _ h

/-- A sink that holds an element can lower what is left, and makes no reads. -/
theorem serveAll_narrows (hr : r.Narrowing) (hc : r.CountsReads reads) (requests : List SinkRequest)
    (op : ReadOperation S) :
    reads (op.serveAll r requests).2.reader = reads op.reader ∧
      r.remaining (op.serveAll r requests).2.reader ≤ r.remaining op.reader := by
  refine serveAll_of_requestSplit (P := fun op' => reads op'.reader = reads op.reader ∧
    r.remaining op'.reader ≤ r.remaining op.reader) ?_ requests op ⟨rfl, Nat.le_refl _⟩
  rintro op' proposed ⟨hreads, hle⟩
  unfold requestSplit applySplit
  split
  · exact ⟨hreads, hle⟩
  · split
    · next position reader haccepted =>
      exact ⟨(hc.trySplit haccepted).trans hreads, Nat.le_trans (hr.split haccepted) hle⟩
    · exact ⟨hreads, hle⟩

/-! ## Turns -/

namespace Run

def start (op : ReadOperation S) : Run S α :=
  { ending := .unfinished, handed := [], replies := [], operation := op }

/-- One turn of the loop. Behind the end of the run nothing happens. -/
def turn (r : BoundedReader S α) (sink : Sink α) (x : Run S α) : Run S α :=
  match x.ending with
  | .unfinished =>
      match x.operation.take r with
      | (.value none, op) => { x with ending := .exhausted x.handed.length, operation := op.finish }
      | (.failed e, op) => { x with ending := .failed (.source e), operation := op.finish }
      | (.crashed text, op) => { x with ending := .crashed text, operation := op }
      | (.value (some a), op) =>
          let (requests, verdict) := sink x.handed.length a
          let (replies, op) := op.serveAll r requests
          let held : Run S α :=
            { x with handed := x.handed ++ [a], replies := x.replies ++ replies, operation := op }
          match verdict with
          | .accept => held
          | .refuse e => { held with ending := .failed e, operation := op.finish }
          | .crash text => { held with ending := .crashed text }
  | _ => x

theorem turn_of_ended {x : Run S α} (h : x.ending ≠ .unfinished) : x.turn r sink = x := by
  unfold turn
  split
  · next hgoing => exact absurd hgoing h
  · rfl

theorem iterate_turn_of_ended {x : Run S α} (h : x.ending ≠ .unfinished) (turns : Nat) :
    (turn r sink)^[turns] x = x :=
  Function.iterate_fixed (turn_of_ended h) turns

/-- The run with what was done before it. -/
def behind (handed : List α) (replies : List SinkReply) (x : Run S α) : Run S α :=
  { x with handed := handed ++ x.handed, replies := replies ++ x.replies }

theorem iterate_turn (turns : Nat) : ∀ (handed : List α) (replies : List SinkReply)
    (op : ReadOperation S),
    (turn r sink)^[turns] (⟨.unfinished, handed, replies, op⟩ : Run S α) =
      (runFor r sink turns handed.length op).behind handed replies := by
  induction turns with
  | zero =>
      intro handed replies op
      simp only [Function.iterate_zero_apply, runFor, behind, List.append_nil]
  | succ turns ih =>
      intro handed replies op
      rw [Function.iterate_succ_apply]
      rcases htake : op.take r with ⟨(_ | a) | e | text, taken⟩ <;> simp only [turn, runFor, htake]
      · rw [iterate_turn_of_ended (by simp)]
        simp only [behind, List.append_nil]
      · rcases sink handed.length a with ⟨requests, verdict⟩
        cases verdict with
        | accept =>
            -- The rest of the run goes on behind what was done before this turn and in it.
            simp only [ih, List.length_append, List.length_singleton, behind, List.append_assoc,
              List.singleton_append]
        | refuse e =>
            rw [iterate_turn_of_ended (by simp)]
            rfl
        | crash text =>
            rw [iterate_turn_of_ended (by simp)]
            rfl
      · rw [iterate_turn_of_ended (by simp)]
        simp only [behind, List.append_nil]
      · rw [iterate_turn_of_ended (by simp)]
        simp only [behind, List.append_nil]

/-- A run that is followed for a number of reads is the loop after so many turns. -/
theorem runFor_eq_iterate (turns : Nat) (op : ReadOperation S) :
    runFor r sink turns 0 op = (turn r sink)^[turns] (start op) := by
  have h : (turn r sink)^[turns] (start op) = (runFor r sink turns 0 op).behind [] [] :=
    iterate_turn turns [] [] op
  exact h.symm

/-! ## The bound -/

/-- **What a run comes to does not depend on how far it is followed**, once it is over. -/
theorem iterate_eq_run (hr : r.Narrowing) (op : ReadOperation S) {turns : Nat}
    (h : r.remaining op.reader < turns) : (turn r sink)^[turns] (start op) = op.run r sink := by
  obtain ⟨more, rfl⟩ := Nat.exists_eq_add_of_le (Nat.succ_le_of_lt h)
  rw [Nat.add_comm, Function.iterate_add_apply, ← runFor_eq_iterate]
  exact iterate_turn_of_ended (ending_run_ne_unfinished hr op) more

/-- What a loop has done after some turns, where so much was left and so many reads were made when
it began. -/
structure Within (r : BoundedReader S α) (reads : S → Nat) (left made turns : Nat) (x : Run S α) :
    Prop where
  spent : x.handed.length + r.remaining x.operation.reader ≤ left
  reads_le : reads x.operation.reader ≤ made + x.handed.length + 1
  going : x.ending = .unfinished →
    x.handed.length = turns ∧ reads x.operation.reader = made + turns

variable {left made turns : Nat} {x : Run S α}

theorem within_start (op : ReadOperation S) :
    (start op : Run S α).Within r reads (r.remaining op.reader) (reads op.reader) 0 where
  spent := by simp [start]
  reads_le := by simp [start]
  going := fun _ => ⟨rfl, rfl⟩

/-- A read that gave no element ends the loop, and is the one read more. -/
theorem Within.missed {y : Run S α} (h : x.Within r reads left made turns)
    (hgoing : x.ending = .unfinished) (hended : y.ending ≠ .unfinished)
    (hhanded : y.handed.length = x.handed.length)
    (hcount : reads y.operation.reader = reads x.operation.reader + 1)
    (hleft : r.remaining y.operation.reader ≤ r.remaining x.operation.reader) :
    y.Within r reads left made (turns + 1) := by
  have hspent := h.spent
  obtain ⟨hturns, hmade⟩ := h.going hgoing
  exact ⟨by omega, by omega, fun hunfinished => absurd hunfinished hended⟩

/-- A read that gave an element has used up some of what was left, however the sink lets go of it. -/
theorem Within.gave {y : Run S α} (h : x.Within r reads left made turns)
    (hgoing : x.ending = .unfinished) (hhanded : y.handed.length = x.handed.length + 1)
    (hcount : reads y.operation.reader = reads x.operation.reader + 1)
    (hless : r.remaining y.operation.reader < r.remaining x.operation.reader) :
    y.Within r reads left made (turns + 1) := by
  have hspent := h.spent
  obtain ⟨hturns, hmade⟩ := h.going hgoing
  exact ⟨by omega, by omega, fun _ => ⟨by omega, by omega⟩⟩

/-- **One turn stays within the bound.** -/
theorem Within.turn (hr : r.Narrowing) (hc : r.CountsReads reads)
    (h : x.Within r reads left made turns) :
    (x.turn r sink).Within r reads left made (turns + 1) := by
  by_cases hgoing : x.ending = .unfinished
  · rcases htake : x.operation.take r with ⟨(_ | a) | e | text, taken⟩ <;>
      obtain ⟨hcount, hleft, hless⟩ := take_narrows hr hc htake <;>
      simp only [Run.turn, hgoing, htake]
    · exact h.missed hgoing (by simp) rfl hcount hleft
    · rcases sink x.handed.length a with ⟨requests, verdict⟩
      -- What the sink asks for makes no reads, and gives back nothing of what was read.
      obtain ⟨hserved, hkept⟩ := serveAll_narrows hr hc requests taken
      have hcount' := hserved.trans hcount
      have hless' := Nat.lt_of_le_of_lt hkept (hless a rfl)
      cases verdict <;> exact h.gave hgoing List.length_append hcount' hless'
    · exact h.missed hgoing (by simp) rfl hcount hleft
    · exact h.missed hgoing (by simp) rfl hcount hleft
  · rw [turn_of_ended hgoing]
    exact ⟨h.spent, h.reads_le, fun hunfinished => absurd hunfinished hgoing⟩

/-- **Every loop stays within the bound.** -/
theorem within_iterate (hr : r.Narrowing) (hc : r.CountsReads reads) (op : ReadOperation S)
    (turns : Nat) : ((turn r sink)^[turns] (start op : Run S α)).Within r reads
      (r.remaining op.reader) (reads op.reader) turns := by
  induction turns with
  | zero => exact within_start op
  | succ turns ih =>
      rw [Function.iterate_succ_apply']
      exact ih.turn hr hc

end Run

/-! ## Runs on ranges -/

variable {σ : Type}

/-- **Every run ends.** Let an operation on any range of any source run with any decoder and any
sink, in files that may be other ones at every read. After any number of turns the loop has handed
over at most as many elements as there were offsets in the window when it began, none if the window
was passed or empty, and has made at most one read that gave no element. After more turns than there
were offsets in the window, the loop is over, and what it has come to is the run. -/
theorem turns_of_run (files : Nat → Files) (decoder : Decoder σ α) (sink : Sink α)
    (op : ReadOperation ((RangeReader × σ) × Nat)) :
    let r := RangeReader.boundedThrough files decoder
    let w := op.reader.1.1.tracker.window
    let loop (turns : Nat) := (Run.turn r sink)^[turns] (Run.start op)
    (∀ turns, (loop turns).handed.length ≤ w.stop - w.index ∧
      (loop turns).operation.reader.2 ≤ op.reader.2 + (loop turns).handed.length + 1) ∧
    ∀ turns, w.stop - w.index < turns →
      loop turns = op.run r sink ∧ (op.run r sink).ending ≠ .unfinished := by
  intro r w loop
  have hnarrow : r.Narrowing := RangeReader.boundedThrough_narrowing files decoder
  have hcounts : r.CountsReads Prod.snd := RangeReader.boundedThrough_countsReads files decoder
  refine ⟨fun turns => ?_, fun turns hlt => ⟨?_, ending_run_ne_unfinished hnarrow op⟩⟩
  · have hwithin : (loop turns).Within r Prod.snd (w.stop - w.index) op.reader.2 turns :=
      Run.within_iterate hnarrow hcounts op turns
    exact ⟨Nat.le_trans (Nat.le_add_right _ _) hwithin.spent, hwithin.reads_le⟩
  · exact Run.iterate_eq_run hnarrow op hlt

/-- A fresh reader of twelve bytes of lines. -/
def twelveBytes : RangeReader where
  tracker := .new .byteOffset 0 12
  supply := .lines 0 ⟨{}, some 0⟩

/-- A sink that asks for a stop at the ninth byte whenever it holds an element. -/
def askingSink : Sink (List UInt8) := fun _ _ => ([.split (.ofPosition (.byteOffset 9))], .accept)

/-- Only the first line is left of the file when it is read. The stop moves while the sink holds this
line, the next read finds nothing behind it, and the run is over in two of the thirteen turns. -/
theorem turns_of_run_cutShort :
    let r := RangeReader.boundedThrough (fun _ => { nodes := [.regular [97, 98, 10]] })
      Codec.bytes.decoder
    let op : ReadOperation ((RangeReader × Unit) × Nat) := { reader := ((twelveBytes, ()), 0) }
    let run := op.run r askingSink
    run.handed = [[97, 98]] ∧ run.operation.stopPosition = some (.byteOffset 9) ∧
      run.ending = .failed (.source (.io (.endsInside 3))) ∧ run.operation.reader.2 = 2 ∧
      (Run.turn r askingSink)^[13] (Run.start op) = run := by
  intro r op run
  obtain ⟨-, hover⟩ := turns_of_run (fun _ => { nodes := [.regular [97, 98, 10]] })
    Codec.bytes.decoder askingSink op
  refine ⟨by decide +kernel, by decide +kernel, by decide +kernel, by decide +kernel, ?_⟩
  exact (hover 13 (by decide)).1

end ReadOperation

end SplitReader
