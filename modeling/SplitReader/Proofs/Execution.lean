import Mathlib.Order.Monotone.Basic
import Mathlib.Tactic.Push
import SplitReader.Proofs.RangeReader
import SplitReader.Work.Execution

/-! # Fair executions come to an end

Whatever the sink and the control plane do, an execution ends under every schedule in which each
task gets its turn again and again, if the reader narrows its range. What is left to do of the
reading task gets less with each of its turns, and a split cannot make it more. The reporting task
is between two reports again and again, so the end of the reading task is noticed at such a moment,
and after that one report is left.

The coordinator can move only between two reports. A schedule may keep its turns away from these
moments, so for the coordinator fairness says more than that its turns do not cease.
-/

set_option autoImplicit false

namespace SplitReader

/-- A measure that goes down again and again before it is zero, and does not go up before that,
reaches zero. -/
theorem exists_eq_zero (f : Nat → Nat) (start : Nat)
    (hle : ∀ n, start ≤ n → f (n + 1) ≤ f n ∨ f n = 0)
    (hlt : ∀ n, start ≤ n → ∃ m, n ≤ m ∧ (f (m + 1) < f m ∨ f m = 0)) :
    ∃ n, start ≤ n ∧ f n = 0 := by
  by_contra hnever
  have hpos : ∀ n, start ≤ n → f n ≠ 0 := fun n hn hzero => hnever ⟨n, hn, hzero⟩
  have hdown : ∀ k n, start ≤ n → f (n + k) ≤ f n := by
    intro k
    induction k with
    | zero => exact fun n hn => Nat.le_refl _
    | succ k ih =>
        intro n hn
        have hn' : start ≤ n + k := by omega
        calc f (n + (k + 1)) ≤ f (n + k) := (hle _ hn').resolve_right (hpos _ hn')
          _ ≤ f n := ih n hn
  -- By strong induction on the value, which each way down makes smaller.
  have habsurd : ∀ v n, start ≤ n → f n = v → False := by
    intro v
    induction v using Nat.strongRecOn with
    | ind v ih =>
        intro n hn hv
        obtain ⟨m, hnm, hm⟩ := hlt n hn
        have hm' : f (m + 1) < f m := hm.resolve_right (hpos m (by omega))
        have hle' := hdown (m - n) n hn
        rw [Nat.add_sub_cancel' hnm] at hle'
        exact ih (f (m + 1)) (by omega) (m + 1) (by omega) rfl
  exact habsurd (f start) start (Nat.le_refl _) rfl

namespace Execution

variable {S α : Type} {u : Setup S α} {x : Execution S α}

/-! ## Ranks -/

/-- How many turns the reading task needs at most, if each of the records that are left is read. -/
def readingRank (u : Setup S α) (x : Execution S α) : Nat :=
  match x.reading with
  | .over _ => 0
  | .ending _ => 1
  | .start => 5 * u.reader.remaining x.operation.reader + 2
  | .held _ => 5 * u.reader.remaining x.operation.reader + 3
  | .ready _ => 5 * u.reader.remaining x.operation.reader + 4
  | .counted _ => 5 * u.reader.remaining x.operation.reader + 5
  | .taken _ => 5 * u.reader.remaining x.operation.reader + 6

end Execution

/-- How many turns the reporting task needs at most to be between two reports. -/
def Reporting.rank : Reporting → Nat
  | idle => 0
  | admitted _ => 1
  | proposed _ => 2
  | composed _ => 3
  | withStop _ _ _ _ => 4
  | withBytes _ _ _ => 5
  | withElements _ _ => 6
  | withProgress _ => 7

namespace Execution

variable {S α : Type} {u : Setup S α} {x : Execution S α}

/-- How many turns the reporting task needs at most once the last report is due. -/
def closingRank (x : Execution S α) : Nat :=
  match x.stage, x.reporting with
  | .periodic, _ => 9
  | .final, .idle => 8
  | .final, reporting => reporting.rank
  | .done, _ => 0

theorem over_of_readingRank_eq_zero (h : x.readingRank u = 0) : ∃ e, x.reading = .over e := by
  unfold readingRank at h
  cases hreading : x.reading with
  | «over» e => exact ⟨e, rfl⟩
  | ending e => simp [hreading] at h
  | start => simp [hreading] at h
  | held a => simp [hreading] at h
  | ready a => simp [hreading] at h
  | counted d => simp [hreading] at h
  | taken d => simp [hreading] at h

/-! ## Turns of the reading task -/

/-- Where a read leaves the reading task, behind so many elements. -/
def behindRead (delivered : Nat) : Outcome SourceError (Option (Delivered α)) → Reading α
  | .value (some d) => .taken d
  | .value none => .ending (.exhausted delivered)
  | .failed e => .ending (.failed (.source e))
  | .crashed text => .over (.crashed text)

theorem readStep_of_tryNext {outcome : Outcome SourceError (Option (Delivered α))} {reader : S}
    (h : u.reader.tryNext x.operation.reader = (outcome, reader)) :
    x.readStep u =
      { x with
        operation := { x.operation with reader }
        reading := behindRead x.delivered outcome } := by
  unfold readStep
  rw [h]
  rcases outcome with (_ | d) | e | text <;> rfl

theorem reporting_stepReader (u : Setup S α) (x : Execution S α) :
    (x.stepReader u).reporting = x.reporting ∧ (x.stepReader u).stage = x.stage := by
  unfold stepReader
  cases x.reading with
  | start =>
      rcases hread : u.reader.tryNext x.operation.reader with ⟨outcome, reader⟩
      simp only [readStep_of_tryNext hread, and_self]
  | held a =>
      simp only [releaseStep]
      cases u.sink x.delivered a <;> exact ⟨rfl, rfl⟩
  | _ => exact ⟨rfl, rfl⟩

theorem reports_stepReader (u : Setup S α) (x : Execution S α) :
    (x.stepReader u).reports = x.reports := by
  unfold stepReader
  cases x.reading with
  | start =>
      rcases hread : u.reader.tryNext x.operation.reader with ⟨outcome, reader⟩
      simp only [readStep_of_tryNext hread]
  | held a =>
      simp only [releaseStep]
      cases u.sink x.delivered a <;> rfl
  | _ => rfl

/-- **A turn of the reading task brings it nearer to its end.** -/
theorem readingRank_stepReader (hu : u.reader.Narrowing) (x : Execution S α) :
    (x.stepReader u).readingRank u < x.readingRank u ∨ x.readingRank u = 0 := by
  unfold stepReader
  cases hreading : x.reading with
  | start =>
      left
      rcases hread : u.reader.tryNext x.operation.reader with ⟨(_ | d) | e | text, reader⟩
      · simp [readStep_of_tryNext hread, behindRead, readingRank, hreading]
      · -- One record less is left, which pays for its way to the sink.
        have hless := hu.read hread
        simp only [readStep_of_tryNext hread, behindRead, readingRank, hreading]
        omega
      · simp [readStep_of_tryNext hread, behindRead, readingRank, hreading]
      · simp [readStep_of_tryNext hread, behindRead, readingRank, hreading]
  | taken d =>
      left
      simp [readingRank, hreading]
  | counted d =>
      left
      simp [readingRank, hreading]
  | ready a =>
      left
      simp [readingRank, hreading]
  | held a =>
      left
      simp only [releaseStep]
      cases u.sink x.delivered a <;> simp [readingRank, hreading]
  | ending e =>
      left
      simp [readingRank, hreading]
  | «over» e =>
      right
      simp [readingRank, hreading]

theorem stepReader_of_over {e : TaskEnd} (h : x.reading = .over e) : x.stepReader u = x := by
  unfold stepReader
  rw [h]

/-! ## Turns of the reporting task -/

theorem stepReporter_of_done (u : Setup S α) (hdone : x.stage = .done)
    (hidle : x.reporting = .idle) : x.stepReporter u = x := by
  unfold stepReporter
  rw [hidle]
  exact if_pos hdone

theorem reading_stepReporter (u : Setup S α) (x : Execution S α) :
    (x.stepReporter u).reading = x.reading ∧ (x.stepReporter u).handed = x.handed := by
  unfold stepReporter
  cases x.reporting with
  | idle =>
      simp only
      split <;> exact ⟨rfl, rfl⟩
  | composed report =>
      simp only [sendStep]
      split <;> exact ⟨rfl, rfl⟩
  | proposed p =>
      simp only
      split <;> exact ⟨rfl, rfl⟩
  | _ => exact ⟨rfl, rfl⟩

/-- A turn of the reporting task changes the operation by a split at most. -/
theorem operation_stepReporter (u : Setup S α) (x : Execution S α) :
    (x.stepReporter u).operation = x.operation ∨
      ∃ p, (x.stepReporter u).operation = (x.operation.applySplit u.reader p).2 := by
  unfold stepReporter
  cases x.reporting with
  | idle =>
      left
      simp only
      split <;> rfl
  | composed report =>
      left
      simp only [sendStep]
      split <;> rfl
  | proposed p =>
      left
      simp only
      split <;> rfl
  | admitted p => exact Or.inr ⟨p, rfl⟩
  | _ => exact Or.inl rfl

theorem remaining_stepReporter_le (hu : u.reader.Narrowing) (x : Execution S α) :
    u.reader.remaining (x.stepReporter u).operation.reader ≤
      u.reader.remaining x.operation.reader := by
  rcases operation_stepReporter u x with hsame | ⟨p, hsplit⟩
  · exact Nat.le_of_eq (by rw [hsame])
  · rw [hsplit]
    unfold ReadOperation.applySplit
    split
    · next position reader haccepted => exact hu.split haccepted
    · exact Nat.le_refl _

theorem readingRank_stepReporter_le (hu : u.reader.Narrowing) (x : Execution S α) :
    (x.stepReporter u).readingRank u ≤ x.readingRank u := by
  obtain ⟨hreading, -⟩ := reading_stepReporter u x
  have hremaining := remaining_stepReporter_le hu x
  unfold readingRank
  rw [hreading]
  cases x.reading <;> simp only <;> omega

/-- **A turn of the reporting task brings it nearer to the end of its report.** -/
theorem rank_stepReporter (u : Setup S α) (x : Execution S α) :
    (x.stepReporter u).reporting.rank < x.reporting.rank ∨ x.reporting.rank = 0 := by
  unfold stepReporter
  cases hreporting : x.reporting with
  | idle => exact Or.inr rfl
  | composed report =>
      left
      simp only [sendStep]
      split <;> simp [Reporting.rank, settle]
  | proposed p =>
      left
      simp only
      split <;> simp [Reporting.rank, settle]
  | _ =>
      left
      simp [Reporting.rank, settle]

/-- **A turn of the reporting task brings the last report nearer to its end.** -/
theorem closingRank_stepReporter (u : Setup S α) (hstage : x.stage ≠ .periodic) :
    (x.stepReporter u).closingRank < x.closingRank ∨ x.closingRank = 0 := by
  unfold stepReporter
  cases hx : x.stage with
  | periodic => exact absurd hx hstage
  | done =>
      right
      simp [closingRank, hx]
  | final =>
      left
      cases hreporting : x.reporting with
      | composed report =>
          simp only [sendStep]
          split <;> simp [closingRank, settle, hx, hreporting, Reporting.rank]
      | proposed p =>
          simp only
          split <;> simp [closingRank, settle, hx, hreporting, Reporting.rank]
      | _ => simp [closingRank, settle, hx, hreporting, Reporting.rank]

/-- The reporting task ends the last report and has no other part in how far the work is. -/
theorem stage_stepReporter (u : Setup S α) (hstage : x.stage ≠ .final) :
    (x.stepReporter u).stage = x.stage := by
  unfold stepReporter
  cases x.reporting with
  | idle =>
      simp only
      split <;> rfl
  | composed report =>
      simp only [sendStep]
      split <;> simp [settle, hstage]
  | proposed p =>
      simp only
      split <;> simp [settle, hstage]
  | _ => simp [settle, hstage]

/-! ## Turns of the coordinator -/

/-- The end of the reading task can be noticed. -/
def CanClose (x : Execution S α) : Prop :=
  (∃ e, x.reading = .over e) ∧ x.reporting = .idle ∧ x.stage = .periodic

theorem stepCoordinator_of_canClose (h : x.CanClose) :
    x.stepCoordinator = { x with stage := .final } := by
  obtain ⟨⟨e, hreading⟩, hreporting, hstage⟩ := h
  unfold stepCoordinator
  rw [hreading, hreporting, hstage]

theorem stepCoordinator_of_not_canClose (h : ¬ x.CanClose) : x.stepCoordinator = x := by
  unfold stepCoordinator
  split
  · next e hreading hreporting hstage => exact absurd ⟨⟨e, hreading⟩, hreporting, hstage⟩ h
  · rfl

/-- **A turn of the coordinator** leaves all but the stage as it is. -/
theorem exists_stepCoordinator_eq (x : Execution S α) :
    ∃ stage, x.stepCoordinator = { x with stage } := by
  by_cases h : x.CanClose
  · exact ⟨_, stepCoordinator_of_canClose h⟩
  · exact ⟨x.stage, stepCoordinator_of_not_canClose h⟩

/-! ## Any turn -/

/-- What every turn keeps is kept under every schedule. -/
theorem runSchedule_of_step {P : Execution S α → Prop}
    (hstep : ∀ {x : Execution S α} (turn : Turn), P x → P (x.step u turn)) (schedule : List Turn) :
    ∀ {x : Execution S α}, P x → P (x.runSchedule u schedule) := by
  induction schedule with
  | nil => exact fun h => h
  | cons turn schedule ih => exact fun h => ih (hstep turn h)

theorem readingRank_step_le (hu : u.reader.Narrowing) (x : Execution S α) (turn : Turn) :
    (x.step u turn).readingRank u ≤ x.readingRank u := by
  cases turn with
  | reader =>
      rcases readingRank_stepReader hu x with hless | hzero
      · exact Nat.le_of_lt hless
      · obtain ⟨e, he⟩ := over_of_readingRank_eq_zero hzero
        exact Nat.le_of_eq (by rw [step, stepReader_of_over he])
  | reporter => exact readingRank_stepReporter_le hu x
  | coordinator =>
      obtain ⟨stage, hstage⟩ := exists_stepCoordinator_eq x
      exact Nat.le_of_eq (by rw [step, hstage]; rfl)

theorem rank_step_le (u : Setup S α) (x : Execution S α) (turn : Turn) :
    (x.step u turn).reporting.rank ≤ x.reporting.rank ∨ x.reporting.rank = 0 := by
  cases turn with
  | reader => exact Or.inl (Nat.le_of_eq (by rw [step, (reporting_stepReader u x).1]))
  | reporter => exact (rank_stepReporter u x).imp_left Nat.le_of_lt
  | coordinator =>
      obtain ⟨stage, hstage⟩ := exists_stepCoordinator_eq x
      exact Or.inl (Nat.le_of_eq (by rw [step, hstage]))

/-- No turn leads away from the end of the last report. -/
theorem closingRank_step_le (u : Setup S α) (x : Execution S α) (turn : Turn) :
    (x.step u turn).closingRank ≤ x.closingRank := by
  cases turn with
  | reader =>
      obtain ⟨hreporting, hstage⟩ := reporting_stepReader u x
      exact Nat.le_of_eq (by rw [step, closingRank, closingRank, hreporting, hstage])
  | reporter =>
      cases hx : x.stage with
      | periodic =>
          have hstage : (x.stepReporter u).stage = .periodic := by
            rw [stage_stepReporter u (by simp [hx]), hx]
          simp [step, closingRank, hx, hstage]
      | final =>
          rcases closingRank_stepReporter u (x := x) (by simp [hx]) with hless | hzero
          · exact Nat.le_of_lt hless
          · cases hreporting : x.reporting <;>
              simp [closingRank, hx, hreporting, Reporting.rank] at hzero
      | done =>
          have hstage : (x.stepReporter u).stage = .done := by
            rw [stage_stepReporter u (by simp [hx]), hx]
          simp [step, closingRank, hstage]
  | coordinator =>
      by_cases h : x.CanClose
      · rw [step, stepCoordinator_of_canClose h]
        simp [closingRank, h.2.1, h.2.2]
      · exact Nat.le_of_eq (by rw [step, stepCoordinator_of_not_canClose h])

theorem closingRank_eq_zero_iff : x.closingRank = 0 ↔ x.stage = .done := by
  cases hstage : x.stage <;> cases hreporting : x.reporting <;>
    simp [closingRank, hstage, hreporting, Reporting.rank]

theorem closingRank_le_eight_iff : x.closingRank ≤ 8 ↔ x.stage ≠ .periodic := by
  cases hstage : x.stage <;> cases hreporting : x.reporting <;>
    simp [closingRank, hstage, hreporting, Reporting.rank]

/-- Only behind the end of the reading task the last report is due. -/
theorem over_of_stage_step {turn : Turn}
    (h : x.stage ≠ .periodic → ∃ e, x.reading = .over e)
    (hstage : (x.step u turn).stage ≠ .periodic) : ∃ e, (x.step u turn).reading = .over e := by
  cases turn with
  | reader =>
      rw [step, (reporting_stepReader u x).2] at hstage
      obtain ⟨e, he⟩ := h hstage
      exact ⟨e, by rw [step, stepReader_of_over he, he]⟩
  | reporter =>
      rw [step, (reading_stepReporter u x).1]
      by_cases hperiodic : x.stage = .periodic
      · rw [step, stage_stepReporter u (by simp [hperiodic])] at hstage
        exact h hstage
      · exact h hperiodic
  | coordinator =>
      by_cases hclose : x.CanClose
      · rw [step, stepCoordinator_of_canClose hclose]
        exact hclose.1
      · rw [step, stepCoordinator_of_not_canClose hclose] at hstage ⊢
        exact h hstage

theorem over_of_stage_runSchedule (u : Setup S α) (schedule : List Turn) :
    ∀ {x : Execution S α}, (x.stage ≠ .periodic → ∃ e, x.reading = .over e) →
      (x.runSchedule u schedule).stage ≠ .periodic →
        ∃ e, (x.runSchedule u schedule).reading = .over e :=
  runSchedule_of_step (P := fun x => x.stage ≠ .periodic → ∃ e, x.reading = .over e)
    (fun _ h => over_of_stage_step h) schedule

/-! ## Fair schedules -/

/-- The state after so many turns of an endless schedule. -/
def trace (u : Setup S α) (x : Execution S α) (turns : Nat → Turn) (n : Nat) : Execution S α :=
  x.runSchedule u ((List.range n).map turns)

theorem trace_succ (u : Setup S α) (x : Execution S α) (turns : Nat → Turn) (n : Nat) :
    trace u x turns (n + 1) = (trace u x turns n).step u (turns n) := by
  rw [trace, trace, runSchedule, runSchedule, List.range_succ, List.map_append, List.foldl_append]
  rfl

theorem antitone_closingRank (u : Setup S α) (x : Execution S α) (turns : Nat → Turn) :
    Antitone fun n => (trace u x turns n).closingRank := by
  refine antitone_nat_of_succ_le fun n => ?_
  rw [trace_succ]
  exact closingRank_step_le u _ _

theorem done_of_le {turns : Nat → Turn} {m n : Nat} (hmn : m ≤ n)
    (h : (trace u x turns m).stage = .done) : (trace u x turns n).stage = .done := by
  rw [← closingRank_eq_zero_iff] at h ⊢
  exact Nat.le_zero.mp (h ▸ antitone_closingRank u x turns hmn)

/-- A schedule in which both tasks get their turns again and again, and the coordinator gets one
when it can move, if it can move again and again. -/
structure Fair (u : Setup S α) (x : Execution S α) (turns : Nat → Turn) : Prop where
  reader : ∀ n, ∃ m, n ≤ m ∧ turns m = .reader
  reporter : ∀ n, ∃ m, n ≤ m ∧ turns m = .reporter
  coordinator : (∀ n, ∃ m, n ≤ m ∧ (trace u x turns m).CanClose) →
    ∃ m, (trace u x turns m).CanClose ∧ turns m = .coordinator

section Fairness

variable {turns : Nat → Turn}

/-- In a fair execution the reading task is over some time, and from then on. -/
theorem Fair.exists_over (hu : u.reader.Narrowing) (h : Fair u x turns) :
    ∃ n, ∀ m, n ≤ m → ∃ e, (trace u x turns m).reading = .over e := by
  have hdown : Antitone fun n => (trace u x turns n).readingRank u := by
    refine antitone_nat_of_succ_le fun n => ?_
    rw [trace_succ]
    exact readingRank_step_le hu _ _
  obtain ⟨n, -, hn⟩ := exists_eq_zero (fun n => (trace u x turns n).readingRank u) 0
    (fun n _ => Or.inl (hdown (Nat.le_succ n)))
    (fun n _ => by
      obtain ⟨m, hm, hturn⟩ := h.reader n
      refine ⟨m, hm, ?_⟩
      rw [trace_succ, hturn]
      exact readingRank_stepReader hu _)
  refine ⟨n, fun m hm => over_of_readingRank_eq_zero (u := u) ?_⟩
  exact Nat.le_zero.mp (hn ▸ hdown hm)

theorem Fair.exists_idle (h : Fair u x turns) (n : Nat) :
    ∃ m, n ≤ m ∧ (trace u x turns m).reporting = .idle := by
  obtain ⟨m, hm, hzero⟩ := exists_eq_zero (fun n => (trace u x turns n).reporting.rank) n
    (fun k _ => by
      rw [trace_succ]
      exact rank_step_le u _ _)
    (fun k _ => by
      obtain ⟨m, hm, hturn⟩ := h.reporter k
      refine ⟨m, hm, ?_⟩
      rw [trace_succ, hturn]
      exact rank_stepReporter u _)
  refine ⟨m, hm, ?_⟩
  cases hreporting : (trace u x turns m).reporting with
  | idle => rfl
  | _ => simp [hreporting, Reporting.rank] at hzero

/-- In a fair execution the last report is due some time, and from then on, unless it is done. -/
theorem Fair.exists_closing (hu : u.reader.Narrowing) (h : Fair u x turns) :
    ∃ n, ∀ m, n ≤ m → (trace u x turns m).stage ≠ .periodic := by
  have hsome : ∃ n, (trace u x turns n).stage ≠ .periodic := by
    by_contra hnever
    push Not at hnever
    obtain ⟨k, hover⟩ := h.exists_over hu
    -- Otherwise the coordinator could move again and again, and would have moved.
    obtain ⟨m, hclose, hturn⟩ := h.coordinator fun n => by
      obtain ⟨m, hm, hidle⟩ := h.exists_idle (max n k)
      exact ⟨m, by omega, hover m (by omega), hidle, hnever m⟩
    have hnext := hnever (m + 1)
    rw [trace_succ, hturn, step, stepCoordinator_of_canClose hclose] at hnext
    cases hnext
  obtain ⟨n, hn⟩ := hsome
  refine ⟨n, fun m hm => closingRank_le_eight_iff.mp ?_⟩
  exact Nat.le_trans (antitone_closingRank u x turns hm) (closingRank_le_eight_iff.mpr hn)

/-- **A fair execution has a result some time.** -/
theorem Fair.exists_result (hu : u.reader.Narrowing) (h : Fair u x turns) :
    ∃ n, ((trace u x turns n).result? u).isSome = true := by
  obtain ⟨k, hover⟩ := h.exists_over hu
  obtain ⟨closing, hclosing⟩ := h.exists_closing hu
  obtain ⟨n, hn, hzero⟩ := exists_eq_zero (fun n => (trace u x turns n).closingRank)
    (max k closing)
    (fun n _ => Or.inl (antitone_closingRank u x turns (Nat.le_succ n)))
    (fun n hn => by
      obtain ⟨m, hm, hturn⟩ := h.reporter n
      refine ⟨m, hm, ?_⟩
      rw [trace_succ, hturn]
      exact closingRank_stepReporter u (hclosing m (by omega)))
  have hdone := closingRank_eq_zero_iff.mp hzero
  obtain ⟨e, he⟩ := hover n (by omega)
  refine ⟨n, ?_⟩
  unfold result?
  rw [hdone, he]
  cases e <;> rfl

/-- A result means that both tasks have come to their end. -/
theorem of_result?_eq_some {result : Except WorkerError Summary}
    (h : x.result? u = some result) :
    x.stage = .done ∧ ∃ e, x.reading = .over e ∧
      ∀ n, e = .exhausted n → result = .ok (x.summary u) := by
  unfold result? at h
  split at h
  · next n hdone hover => exact ⟨hdone, _, hover, fun _ _ => (Option.some.inj h).symm⟩
  · next e hdone hover => exact ⟨hdone, _, hover, by rintro n ⟨⟩⟩
  · next text hdone hover => exact ⟨hdone, _, hover, by rintro n ⟨⟩⟩
  · cases h

end Fairness

end Execution

end SplitReader
