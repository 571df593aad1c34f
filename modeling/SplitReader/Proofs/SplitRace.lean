import Mathlib.Tactic.Set
import SplitReader.Proofs.RangeReader
import SplitReader.Source.Session
import SplitReader.Work.ReadOperation

/-! # Races for an earlier stop

Any number of calls may request a split of one read operation at the same time. Each of them looks
whether the operation is finished, takes a lock, lets the reader judge the proposal, records the
stop that was accepted, and gives the lock back. These are steps of their own, and between two of
them other calls may step, the reader may read and the operation may be marked as finished.

The stop of the reader and the recorded one are two pieces of state, and they differ while a call
has had a stop accepted and has not recorded it. Since it holds the lock in between, no other stop
is accepted meanwhile. So the recorded stop is the one that was accepted last whenever the lock is
free (`stopPosition_of_free`). A call that meets no other does what a request in one step does
(`run_alone`).
-/

set_option autoImplicit false

namespace SplitReader

/-! ## Sources -/

namespace Source

def kind : Source → OffsetKind
  | memory _ => .recordIndex
  | text _ => .byteOffset

theorem of_reader {source : Source} {files : Files} {r : RangeReader}
    (h : source.reader files = .ok r) :
    r.tracker.kind = source.kind ∧ r.tracker.window.stop = source.stop := by
  cases source with
  | memory s =>
      cases h
      exact ⟨rfl, rfl⟩
  | text s =>
      simp only [reader, TextSource.reader] at h
      split at h
      · cases h
      · simp only [TextSource.readerOn] at h
        split at h
        · cases h
        · cases h
          exact ⟨rfl, rfl⟩

end Source

/-! ## Calls in steps -/

/-- Where a call that requests a split stands. -/
inductive RequestStage where
  | asking
  /-- The operation was found unfinished, and the lock is wanted. -/
  | waiting
  /-- The lock is held, and the reader is about to judge the proposal. -/
  | judging
  /-- The reader has accepted a stop, which is not recorded. -/
  | recording (position : Position)
  /-- The answer is known, and the lock is held still. -/
  | leaving (answer : Option Position)
  | returned (answer : Option Position)
  deriving DecidableEq, Repr

namespace RequestStage

/-- The lock is held. -/
def isInside : RequestStage → Bool
  | judging | recording _ | leaving _ => true
  | asking | waiting | returned _ => false

/-- The stop that the call gives or will give, if one is known. -/
def answer? : RequestStage → Option Position
  | recording position => some position
  | leaving answer | returned answer => answer
  | asking | waiting | judging => none

end RequestStage

structure SplitCall where
  proposed : Progress
  stage : RequestStage := .asking
  deriving DecidableEq, Repr

/-- An operation on a reader of a range, with the calls that request splits of it. -/
structure SplitRace (σ : Type) where
  operation : ReadOperation (RangeReader × σ)
  calls : List SplitCall := []
  /-- The number of the call that holds the lock of the recorded stop. -/
  holder : Option Nat := none
  /-- The stops that the reader has accepted, each with the number of its call, in order. -/
  accepted : List (Nat × Position) := []

namespace SplitRace

/-- What may happen. Calls go by their numbers. -/
inductive Move where
  | call (proposed : Progress)
  /-- A call makes its next step. A call that waits for the lock stays where it is. -/
  | advance (number : Nat)
  /-- The reader reads, with the files as it finds them. -/
  | read (files : Files)
  | finish

variable {σ α : Type}

def put (number : Nat) (c : SplitCall) (stage : RequestStage) (x : SplitRace σ) : SplitRace σ :=
  { x with calls := x.calls.set number { c with stage } }

def judge (number : Nat) (c : SplitCall) (x : SplitRace σ) : SplitRace σ :=
  match x.operation.reader.1.trySplit c.proposed with
  | .ok (position, range) =>
      { x.put number c (.recording position) with
        operation := { x.operation with reader := (range, x.operation.reader.2) }
        accepted := x.accepted ++ [(number, position)] }
  | .error _ => x.put number c (.leaving none)

def advance (number : Nat) (c : SplitCall) (x : SplitRace σ) : SplitRace σ :=
  match c.stage with
  | .asking => x.put number c (if x.operation.isFinished then .returned none else .waiting)
  | .waiting =>
      if x.holder = none then { x.put number c .judging with holder := some number } else x
  | .judging => x.judge number c
  | .recording position =>
      { x.put number c (.leaving (some position)) with
        operation := { x.operation with stopPosition := some position } }
  | .leaving answer => { x.put number c (.returned answer) with holder := none }
  | .returned _ => x

/-- Lets one thing happen. Nothing happens to a call that was not made. -/
def step (decoder : Decoder σ α) (x : SplitRace σ) : Move → SplitRace σ
  | .call proposed => { x with calls := x.calls ++ [{ proposed }] }
  | .advance number =>
      match x.calls[number]? with
      | some c => x.advance number c
      | none => x
  | .read files =>
      { x with operation := (x.operation.take (RangeReader.bounded files decoder)).2 }
  | .finish => { x with operation := x.operation.finish }

def run (decoder : Decoder σ α) (x : SplitRace σ) (moves : List Move) : SplitRace σ :=
  moves.foldl (step decoder) x

def lastAccepted (x : SplitRace σ) : Option Position := x.accepted.getLast?.map Prod.snd

variable {x : SplitRace σ} {c : SplitCall} {i j : Nat}

@[simp] theorem operation_put (x : SplitRace σ) (i : Nat) (c : SplitCall) (stage : RequestStage) :
    (x.put i c stage).operation = x.operation := rfl

@[simp] theorem holder_put (x : SplitRace σ) (i : Nat) (c : SplitCall) (stage : RequestStage) :
    (x.put i c stage).holder = x.holder := rfl

@[simp] theorem accepted_put (x : SplitRace σ) (i : Nat) (c : SplitCall) (stage : RequestStage) :
    (x.put i c stage).accepted = x.accepted := rfl

theorem lt_of_call (h : x.calls[i]? = some c) : i < x.calls.length :=
  (List.getElem?_eq_some_iff.mp h).1

theorem call_put (h : x.calls[i]? = some c) (stage : RequestStage) :
    (x.put i c stage).calls[i]? = some { c with stage } :=
  List.getElem?_set_self (lt_of_call h)

theorem put_put (x : SplitRace σ) (i : Nat) (c c' : SplitCall) (stage stage' : RequestStage) :
    (x.put i c stage).put i c' stage' = x.put i c' stage' := by
  simp only [put, List.set_set]

theorem step_advance (decoder : Decoder σ α) (h : x.calls[i]? = some c) :
    x.step decoder (.advance i) = x.advance i c := by
  simp only [step, h]

/-! ## A call on its own -/

theorem run_cons (decoder : Decoder σ α) (x : SplitRace σ) (move : Move) (moves : List Move) :
    x.run decoder (move :: moves) = (x.step decoder move).run decoder moves := rfl

theorem run_replicate_of_returned (decoder : Decoder σ α) {answer : Option Position}
    (h : x.calls[i]? = some c) (hstage : c.stage = .returned answer) (n : Nat) :
    x.run decoder (List.replicate n (.advance i)) = x := by
  induction n with
  | zero => rfl
  | succ n ih =>
      have hstep : x.step decoder (.advance i) = x := by
        rw [step_advance decoder h, advance, hstage]
      rw [List.replicate_succ, run_cons, hstep, ih]

/-- **A call that meets no other is a request in one step.** When the lock is free and nothing
happens but the steps of one call, it answers what the request answers and leaves the operation as
the request leaves it. -/
theorem run_alone {proposed : Progress} (decoder : Decoder σ α) (files : Files)
    (hcall : x.calls[i]? = some { proposed }) (hfree : x.holder = none) :
    let request := x.operation.requestSplit (RangeReader.bounded files decoder) proposed
    let y := x.run decoder (List.replicate 5 (.advance i))
    y.operation = request.2 ∧ y.calls[i]? = some { proposed, stage := .returned request.1 } ∧
      y.holder = none := by
  intro request y
  by_cases hfinished : x.operation.isFinished = true
  · -- A finished operation is left alone at the first step.
    have hrequest : request = (none, x.operation) := if_pos hfinished
    have hfirst : x.step decoder (.advance i) = x.put i { proposed } (.returned none) := by
      rw [step_advance decoder hcall, advance, if_pos hfinished]
    have hy : y = x.put i { proposed } (.returned none) := by
      show x.run decoder (List.replicate 5 (.advance i)) = _
      rw [List.replicate_succ, run_cons, hfirst]
      exact run_replicate_of_returned decoder (call_put hcall _) rfl 4
    rw [hy, hrequest]
    exact ⟨rfl, call_put hcall _, hfree⟩
  · have hrequest : request = x.operation.applySplit (RangeReader.bounded files decoder) proposed :=
      if_neg hfinished
    have hlt := lt_of_call hcall
    -- Found unfinished, the call takes the free lock.
    have hask : x.step decoder (.advance i) = x.put i { proposed } .waiting := by
      rw [step_advance decoder hcall, advance, if_neg hfinished]
    have hlock : (x.put i { proposed } .waiting).step decoder (.advance i) =
        { x.put i { proposed } .judging with holder := some i } := by
      rw [step_advance decoder (call_put hcall _)]
      simp only [advance, holder_put, hfree, if_true, put_put]
      rfl
    have hy : y = SplitRace.run decoder { x.put i { proposed } .judging with holder := some i }
        (List.replicate 3 (.advance i)) := by
      show x.run decoder (List.replicate 5 (.advance i)) = _
      rw [List.replicate_succ, run_cons, hask, List.replicate_succ, run_cons, hlock]
    rw [hy, hrequest, ReadOperation.applySplit]
    cases htry : x.operation.reader.1.trySplit proposed with
    | error reason =>
        simp [RangeReader.bounded, run, step, advance, judge, put, hlt, htry, Except.map]
    | ok judged =>
        simp [RangeReader.bounded, run, step, advance, judge, put, hlt, htry, Except.map]

/-! ## What the lock keeps -/

/-- The call with a number is where the lock is held. -/
def IsInside (x : SplitRace σ) (i : Nat) : Prop :=
  ∃ c, x.calls[i]? = some c ∧ c.stage.isInside = true

theorem isInside_put (h : x.calls[i]? = some c) (stage : RequestStage) :
    (x.put i c stage).IsInside i ↔ stage.isInside = true := by
  constructor
  · rintro ⟨d, hd, hinside⟩
    rw [call_put h] at hd
    cases hd
    exact hinside
  · exact fun hinside => ⟨_, call_put h stage, hinside⟩

theorem call_put_of_ne (hne : j ≠ i) (stage : RequestStage) :
    (x.put i c stage).calls[j]? = x.calls[j]? :=
  List.getElem?_set_ne hne.symm

theorem isInside_put_of_ne (hne : j ≠ i) (stage : RequestStage) :
    (x.put i c stage).IsInside j ↔ x.IsInside j := by
  rw [IsInside, IsInside, call_put_of_ne hne]

/-- The call with a number has had a stop accepted that it has not recorded. -/
def IsRecording (x : SplitRace σ) (i : Nat) (position : Position) : Prop :=
  ∃ c, x.calls[i]? = some c ∧ c.stage = .recording position

/-- What a call gives is a stop that it has proposed and that the reader has accepted from it. -/
def Justified (accepted : List (Nat × Position)) (i : Nat) (c : SplitCall) : Prop :=
  ∀ p, c.stage.answer? = some p → (i, p) ∈ accepted ∧ c.proposed.position = some p

/-- A race is in order: its reader counts in a kind of offsets, and its range ended at first at some
stop. -/
structure InOrder (kind : OffsetKind) (first : Nat) (x : SplitRace σ) : Prop where
  holder : ∀ i, x.holder = some i ↔ x.IsInside i
  counts : x.operation.reader.1.tracker.kind = kind
  firstStop : x.lastAccepted = none → x.operation.reader.1.tracker.window.stop = first
  lastStop : ∀ p, x.lastAccepted = some p →
    kind.offset? p = some x.operation.reader.1.tracker.window.stop
  /-- The stop that was accepted last is recorded, unless a call is about to record it. -/
  recorded : x.operation.stopPosition = x.lastAccepted ∨ ∃ i p, x.IsRecording i p
  recording : ∀ i p, x.IsRecording i p → x.lastAccepted = some p
  justified : ∀ i c, x.calls[i]? = some c → Justified x.accepted i c

variable {kind : OffsetKind} {first : Nat}

/-- A call that is about to record a stop holds the lock. -/
theorem InOrder.holder_of_recording {p : Position} (h : x.InOrder kind first)
    (hrecording : x.IsRecording i p) : x.holder = some i := by
  obtain ⟨c, hc, hstage⟩ := hrecording
  exact (h.holder i).mpr ⟨c, hc, by rw [hstage]; rfl⟩

/-! ### Moves of others -/

/-- The reader may read, and the operation may be finished: no stop moves. -/
theorem InOrder.other (h : x.InOrder kind first) {op : ReadOperation (RangeReader × σ)}
    (hkind : op.reader.1.tracker.kind = x.operation.reader.1.tracker.kind)
    (hstop : op.reader.1.tracker.window.stop = x.operation.reader.1.tracker.window.stop)
    (hrecord : op.stopPosition = x.operation.stopPosition) :
    InOrder kind first { x with operation := op } where
  holder := h.holder
  counts := hkind.trans h.counts
  firstStop hnone := hstop.trans (h.firstStop hnone)
  lastStop p hp := by
    rw [hstop]
    exact h.lastStop p hp
  recorded := by
    rw [hrecord]
    exact h.recorded
  recording := h.recording
  justified := h.justified

/-- A further call may be made: it is outside. -/
theorem InOrder.call (h : x.InOrder kind first) (proposed : Progress) :
    InOrder kind first { x with calls := x.calls ++ [{ proposed }] } := by
  set y : SplitRace σ := { x with calls := x.calls ++ [{ proposed }] } with hy
  have hold : ∀ {j : Nat} {d : SplitCall}, x.calls[j]? = some d → y.calls[j]? = some d := by
    intro j d hd
    rw [hy, List.getElem?_append_left (lt_of_call hd)]
    exact hd
  -- The new call stands last, and the others keep their numbers.
  have hcases : ∀ {j : Nat} {d : SplitCall}, y.calls[j]? = some d →
      x.calls[j]? = some d ∨ d = { proposed } := by
    intro j d hd
    rcases Nat.lt_trichotomy j x.calls.length with hlt | rfl | hgt
    · left
      rwa [hy, List.getElem?_append_left hlt] at hd
    · right
      rw [hy, List.getElem?_concat_length] at hd
      cases hd
      rfl
    · rw [hy, List.getElem?_eq_none (by simp; omega)] at hd
      cases hd
  have hinside : ∀ j, y.IsInside j ↔ x.IsInside j := by
    intro j
    constructor
    · rintro ⟨d, hd, hstage⟩
      rcases hcases hd with hd | rfl
      · exact ⟨d, hd, hstage⟩
      · cases hstage
    · rintro ⟨d, hd, hstage⟩
      exact ⟨d, hold hd, hstage⟩
  refine ⟨fun j => (h.holder j).trans (hinside j).symm, h.counts, h.firstStop, h.lastStop,
    ?_, ?_, ?_⟩
  · rcases h.recorded with heq | ⟨j, p, d, hd, hstage⟩
    · exact Or.inl heq
    · exact Or.inr ⟨j, p, d, hold hd, hstage⟩
  · rintro j p ⟨d, hd, hstage⟩
    rcases hcases hd with hd | rfl
    · exact h.recording j p ⟨d, hd, hstage⟩
    · cases hstage
  · intro j d hd
    rcases hcases hd with hd | rfl
    · exact h.justified j d hd
    · rintro p ⟨⟩

/-! ### Steps of a call -/

/-- Every call but the one that steps stands where it stood. -/
theorem call_put_cases (h : x.calls[i]? = some c) {stage : RequestStage} {d : SplitCall}
    (hd : (x.put i c stage).calls[j]? = some d) :
    (j = i ∧ d = { c with stage }) ∨ (j ≠ i ∧ x.calls[j]? = some d) := by
  by_cases hj : j = i
  · subst hj
    rw [call_put h] at hd
    cases hd
    exact Or.inl ⟨rfl, rfl⟩
  · rw [call_put_of_ne hj] at hd
    exact Or.inr ⟨hj, hd⟩

/-- A call that had no stop to record may step to where it has none, if the lock goes with it. -/
theorem InOrder.put (h : x.InOrder kind first) (hcall : x.calls[i]? = some c)
    {stage : RequestStage} {holder : Option Nat} (hbefore : ∀ p, c.stage ≠ .recording p)
    (hafter : ∀ p, stage ≠ .recording p) (hjustified : Justified x.accepted i { c with stage })
    (hself : holder = some i ↔ stage.isInside = true)
    (hothers : ∀ j, j ≠ i → (holder = some j ↔ x.holder = some j)) :
    InOrder kind first { x.put i c stage with holder } := by
  refine ⟨fun j => ?_, h.counts, h.firstStop, h.lastStop, ?_, ?_, ?_⟩
  · by_cases hj : j = i
    · subst hj
      exact hself.trans (isInside_put hcall stage).symm
    · exact (hothers j hj).trans ((h.holder j).trans (isInside_put_of_ne hj stage).symm)
  · rcases h.recorded with heq | ⟨j, p, d, hd, hstage⟩
    · exact Or.inl heq
    · refine Or.inr ⟨j, p, d, ?_, hstage⟩
      have hj : j ≠ i := by
        rintro rfl
        rw [hcall] at hd
        cases hd
        exact hbefore p hstage
      exact (call_put_of_ne hj stage).trans hd
  · rintro j p ⟨d, hd, hstage⟩
    rcases call_put_cases hcall hd with ⟨rfl, rfl⟩ | ⟨hj, hd⟩
    · exact absurd hstage (hafter p)
    · exact h.recording j p ⟨d, hd, hstage⟩
  · intro j d hd
    rcases call_put_cases hcall hd with ⟨rfl, rfl⟩ | ⟨hj, hd⟩
    · exact hjustified
    · exact h.justified j d hd

theorem InOrder.holder_stays (h : x.InOrder kind first) (hcall : x.calls[i]? = some c)
    (hheld : x.holder = some i) {stage : RequestStage} (hinside : stage.isInside = true) (j : Nat) :
    x.holder = some j ↔ (x.put i c stage).IsInside j := by
  by_cases hj : j = i
  · subst hj
    exact ⟨fun _ => ⟨_, call_put hcall stage, hinside⟩, fun _ => hheld⟩
  · exact (h.holder j).trans (isInside_put_of_ne hj stage).symm

/-- **The reader may judge a proposal**: if it accepts it, the call has a stop to record, and since
it holds the lock no other call has one. -/
theorem InOrder.judge (h : x.InOrder kind first) (hcall : x.calls[i]? = some c)
    (hstage : c.stage = .judging) : (x.judge i c).InOrder kind first := by
  have hheld : x.holder = some i := (h.holder i).mpr ⟨c, hcall, by rw [hstage]; rfl⟩
  unfold SplitRace.judge
  split
  · next position range hsplit =>
    obtain ⟨offset, hword, hproposed, hlo, hhi, hposition, rfl⟩ :=
      RangeReader.trySplit_eq_ok_iff.mp hsplit
    have hposition' : position = kind.position offset := by
      rw [hposition, h.counts]
    have hlast : (x.accepted ++ [(i, position)]).getLast?.map Prod.snd = some position := by
      rw [List.getLast?_concat]
      rfl
    have hsame := call_put hcall (.recording position)
    refine ⟨h.holder_stays hcall hheld rfl, h.counts, fun hnone => ?_, fun p hp => ?_, ?_, ?_, ?_⟩
    · rw [lastAccepted, hlast] at hnone
      cases hnone
    · rw [lastAccepted, hlast] at hp
      cases hp
      exact OffsetKind.offset?_eq_some_iff.mpr ⟨hword, hposition'⟩
    · exact Or.inr ⟨i, position, _, hsame, rfl⟩
    · rintro j p ⟨d, hd, hrecording⟩
      rcases call_put_cases hcall hd with ⟨rfl, rfl⟩ | ⟨hj, hd⟩
      · cases hrecording
        exact hlast
      · -- Another call that records would hold the lock, too.
        have hother := h.holder_of_recording ⟨d, hd, hrecording⟩
        rw [hheld] at hother
        cases hother
        exact absurd rfl hj
    · intro j d hd
      rcases call_put_cases hcall hd with ⟨rfl, rfl⟩ | ⟨hj, hd⟩
      · rintro p ⟨⟩
        exact ⟨List.mem_concat_self, by rw [hproposed, hposition]⟩
      · intro p hp
        obtain ⟨hmem, hown⟩ := h.justified j d hd p hp
        exact ⟨List.mem_append_left _ hmem, hown⟩
  · refine h.put hcall ?_ (by simp) (by rintro p ⟨⟩) ?_ (fun j hj => Iff.rfl)
    · rw [hstage]
      simp
    · exact ⟨fun _ => rfl, fun _ => hheld⟩

/-- **A call may record the stop that was accepted from it**: it is the one accepted last. -/
theorem InOrder.record {position : Position} (h : x.InOrder kind first)
    (hcall : x.calls[i]? = some c) (hstage : c.stage = .recording position) :
    InOrder kind first { x.put i c (.leaving (some position)) with
      operation := { x.operation with stopPosition := some position } } := by
  have hrecording : x.IsRecording i position := ⟨c, hcall, hstage⟩
  have hheld := h.holder_of_recording hrecording
  refine ⟨h.holder_stays hcall hheld rfl, h.counts, h.firstStop, h.lastStop, ?_, ?_, ?_⟩
  · exact Or.inl (h.recording i position hrecording).symm
  · rintro j p ⟨d, hd, hother⟩
    rcases call_put_cases hcall hd with ⟨rfl, rfl⟩ | ⟨hj, hd⟩
    · cases hother
    · exact h.recording j p ⟨d, hd, hother⟩
  · intro j d hd
    rcases call_put_cases hcall hd with ⟨rfl, rfl⟩ | ⟨hj, hd⟩
    · exact fun p hp => h.justified j c hcall p (by rw [hstage]; exact hp)
    · exact h.justified j d hd

/-- **A step of a call keeps a race in order.** -/
theorem InOrder.advance (h : x.InOrder kind first) (hcall : x.calls[i]? = some c) :
    (x.advance i c).InOrder kind first := by
  unfold SplitRace.advance
  -- Outside the lock, the call is not the holder.
  have houtside : c.stage.isInside = false → x.holder ≠ some i := by
    intro hstage hheld
    obtain ⟨d, hd, hinside⟩ := (h.holder i).mp hheld
    rw [hcall] at hd
    cases hd
    rw [hstage] at hinside
    cases hinside
  cases hstage : c.stage with
  | asking =>
      have hout := houtside (by rw [hstage]; rfl)
      simp only
      split
      · exact h.put hcall (by simp [hstage]) (by simp) (by rintro p ⟨⟩)
          ⟨fun hheld => absurd hheld hout, by rintro ⟨⟩⟩ (fun j hj => Iff.rfl)
      · exact h.put hcall (by simp [hstage]) (by simp) (by rintro p ⟨⟩)
          ⟨fun hheld => absurd hheld hout, by rintro ⟨⟩⟩ (fun j hj => Iff.rfl)
  | waiting =>
      simp only
      split
      · next hfree =>
        refine h.put hcall (by simp [hstage]) (by simp) (by rintro p ⟨⟩)
          ⟨fun _ => rfl, fun _ => rfl⟩ ?_
        intro j hj
        rw [hfree]
        exact ⟨fun heq => absurd (Option.some.inj heq).symm hj, by rintro ⟨⟩⟩
      · exact h
  | judging => exact h.judge hcall hstage
  | recording position => exact h.record hcall hstage
  | leaving answer =>
      have hheld : x.holder = some i := (h.holder i).mpr ⟨c, hcall, by rw [hstage]; rfl⟩
      refine h.put hcall (by simp [hstage]) (by simp) ?_ ⟨by rintro ⟨⟩, by rintro ⟨⟩⟩ ?_
      · exact fun p hp => h.justified i c hcall p (by rw [hstage]; exact hp)
      · intro j hj
        rw [hheld]
        exact ⟨by rintro ⟨⟩, fun heq => absurd (Option.some.inj heq).symm hj⟩
  | returned answer => exact h

/-! ## Races -/

theorem stop_take (files : Files) (decoder : Decoder σ α) (op : ReadOperation (RangeReader × σ)) :
    let op' := (op.take (RangeReader.bounded files decoder)).2
    op'.reader.1.tracker.kind = op.reader.1.tracker.kind ∧
      op'.reader.1.tracker.window.stop = op.reader.1.tracker.window.stop ∧
      op'.stopPosition = op.stopPosition := by
  obtain ⟨hkind, hstop⟩ := RangeReader.stop_tryNext files decoder op.reader
  simp only [ReadOperation.take, RangeReader.bounded]
  rcases hread : RangeReader.tryNext files decoder op.reader with ⟨(_ | d) | e | text, s⟩ <;>
    rw [hread] at hkind hstop <;> exact ⟨hkind, hstop, rfl⟩

/-- **One move keeps a race in order.** -/
theorem InOrder.step (h : x.InOrder kind first) (decoder : Decoder σ α) (move : Move) :
    (x.step decoder move).InOrder kind first := by
  cases move with
  | call proposed => exact h.call proposed
  | advance number =>
      simp only [SplitRace.step]
      split
      · next c hcall => exact h.advance hcall
      · exact h
  | read files =>
      obtain ⟨hkind, hstop, hrecord⟩ := stop_take files decoder x.operation
      exact h.other hkind hstop hrecord
  | finish => exact h.other rfl rfl rfl

/-- **Every race stays in order.** -/
theorem InOrder.run (decoder : Decoder σ α) (moves : List Move) :
    ∀ {x : SplitRace σ}, x.InOrder kind first → (x.run decoder moves).InOrder kind first := by
  induction moves with
  | nil => exact fun h => h
  | cons move moves ih => exact fun h => ih (h.step decoder move)

theorem inOrder_start {source : Source} {reader : RangeReader} {files : Files}
    (hreader : source.reader files = .ok reader) (codec : σ) :
    InOrder source.kind source.stop { operation := { reader := (reader, codec) } } := by
  obtain ⟨hkind, hstop⟩ := Source.of_reader hreader
  have hnone : ∀ i, ¬ IsInside { operation := { reader := (reader, codec) } } i := by
    rintro i ⟨c, hc, -⟩
    cases hc
  refine ⟨fun i => ⟨by rintro ⟨⟩, fun h => absurd h (hnone i)⟩, hkind, fun _ => hstop,
    by rintro p ⟨⟩, Or.inl rfl, ?_, by rintro i c ⟨⟩⟩
  rintro i p ⟨c, hc, -⟩
  cases hc

/-- **The recorded stop is the stop of the reader, however many calls race.** Let any number of
calls request splits of an operation on a fresh reader of a source, step by step between reads with
any files and any decoder, and before and behind the end of the operation. Whenever the lock is
free, a stop is recorded exactly if one was ever accepted; as long as none was, the reader has its
first stop, and after that the position of its present stop is what is recorded. A call that gives a
stop has proposed it, and the reader has accepted it from this call. -/
theorem stopPosition_of_free {source : Source} {reader : RangeReader} {files : Files}
    (hreader : source.reader files = .ok reader) (decoder : Decoder σ α) (codec : σ)
    (moves : List Move) :
    let x := run decoder { operation := { reader := (reader, codec) } } moves
    let stop := x.operation.reader.1.endPosition
    (x.holder = none →
      (x.operation.stopPosition = none ↔ x.accepted = []) ∧
      (x.accepted = [] → stop = source.stop) ∧
      (x.accepted ≠ [] →
        x.operation.stopPosition = some (source.kind.position stop) ∧ stop < UInt64.size)) ∧
    ∀ (i : Nat) (c : SplitCall) (p : Position),
      x.calls[i]? = some c → c.stage = .returned (some p) →
        (i, p) ∈ x.accepted ∧ c.proposed.position = some p := by
  intro x stop
  have h : x.InOrder source.kind source.stop := (inOrder_start hreader codec).run decoder moves
  have hempty : x.lastAccepted = none ↔ x.accepted = [] := by
    rw [lastAccepted, Option.map_eq_none_iff, List.getLast?_eq_none_iff]
  refine ⟨fun hfree => ?_, fun i c p hc hstage => ?_⟩
  · -- A call that is about to record a stop would hold the lock.
    have hrecorded : x.operation.stopPosition = x.lastAccepted := by
      rcases h.recorded with heq | ⟨i, p, hrecording⟩
      · exact heq
      · have hheld := h.holder_of_recording hrecording
        rw [hfree] at hheld
        cases hheld
    refine ⟨?_, fun hnever => h.firstStop (hempty.mpr hnever), fun hsome => ?_⟩
    · rw [hrecorded]
      exact hempty
    · obtain ⟨p, hp⟩ := Option.ne_none_iff_exists'.mp (mt hempty.mp hsome)
      obtain ⟨hword, hposition⟩ := OffsetKind.offset?_eq_some_iff.mp (h.lastStop p hp)
      rw [hrecorded, hp, hposition]
      exact ⟨rfl, hword⟩
  · exact h.justified i c hc p (by rw [hstage]; rfl)

/-- Three calls race for ten records. The second one waits for the lock until the first one has
recorded its stop, and the operation ends while the second one holds the lock; the third one comes
too late. -/
def lateSplits : List Move :=
  [.call (.ofPosition (.recordIndex 7)), .call (.ofPosition (.recordIndex 5)), .advance 0,
    .advance 0, .advance 1, .read {}, .advance 0, .advance 1, .read {}, .advance 0, .advance 1,
    .advance 0, .advance 1, .finish, .call (.ofPosition (.recordIndex 4)), .advance 1, .advance 1,
    .advance 2, .advance 1]

def lateRace : SplitRace Unit :=
  run Codec.bytes.decoder
    { operation := { reader := (MemorySource.reader ⟨List.replicate 10 [1], 0, 10⟩, ()) } }
    lateSplits

/-- Both accepted stops were recorded, in the order in which they were accepted. -/
theorem stopPosition_of_free_lateSplits :
    lateRace.holder = none ∧ lateRace.accepted = [(0, .recordIndex 7), (1, .recordIndex 5)] ∧
      lateRace.operation.reader.1.endPosition = 5 ∧
      lateRace.operation.stopPosition = some (.recordIndex 5) ∧
      lateRace.calls.map SplitCall.stage =
        [.returned (some (.recordIndex 7)), .returned (some (.recordIndex 5)), .returned none] := by
  have hreader : Source.reader {} (.memory ⟨List.replicate 10 [1], 0, 10⟩) =
      .ok (MemorySource.reader ⟨List.replicate 10 [1], 0, 10⟩) := rfl
  have hfree : lateRace.holder = none := by decide +kernel
  have haccepted : lateRace.accepted = [(0, .recordIndex 7), (1, .recordIndex 5)] := by
    decide +kernel
  have hstop : lateRace.operation.reader.1.endPosition = 5 := by decide +kernel
  obtain ⟨hrecorded, -⟩ := stopPosition_of_free hreader Codec.bytes.decoder () lateSplits
  obtain ⟨-, -, hlast⟩ := hrecorded hfree
  have hposition : lateRace.operation.stopPosition =
      some (.recordIndex (.ofNat lateRace.operation.reader.1.endPosition)) :=
    (hlast (by rw [← lateRace, haccepted]; simp)).1
  refine ⟨hfree, haccepted, hstop, ?_, by decide +kernel⟩
  rw [hposition, hstop]
  rfl

end SplitRace

end SplitReader
