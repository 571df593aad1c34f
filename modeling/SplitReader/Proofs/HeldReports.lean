import SplitReader.Proofs.Execution
import SplitReader.Work.Run

/-! # The scheduler of due reports comes to an end

The scheduler that lets due reports through needs no fairness: each of its turns leaves fewer turns
to come. While reports are sent from time to time, what is left is what the reading task has to do,
the turns of the reports that are due at all, and the turns of the last report; a report that is
under way counts by the turns it still takes (`turnsLeft_step_lt`). The steps that an execution is
given are enough for that, so it has a result (`exists_result_run`), whatever the sink and the
control plane do.
-/

set_option autoImplicit false

namespace SplitReader

/-- The report under way is not sent yet. -/
def Reporting.unsent : Reporting → Nat
  | idle | proposed _ | admitted _ => 0
  | _ => 1

namespace Execution

variable {S α : Type} {u : Setup S α} {x : Execution S α} {due : Nat → Nat} {dueInAll : Nat}

/-! ## Turns that are left -/

/-- How many turns the reporting task needs at most, if so many reports are due in all. -/
def dueRank (dueInAll : Nat) (x : Execution S α) : Nat :=
  x.reporting.rank + 8 * (dueInAll - (x.reports.length + x.reporting.unsent))

/-- How many turns are left at most, if so many reports are due in all. -/
def turnsLeft (u : Setup S α) (dueInAll : Nat) (x : Execution S α) : Nat :=
  x.readingRank u + x.closingRank + if x.stage = .periodic then x.dueRank dueInAll else 0

/-- A turn of the reporting task brings it nearer to the end of the reports that are due, unless
it is between two reports and none is due. -/
theorem dueRank_stepReporter_lt (u : Setup S α) (hperiodic : x.stage = .periodic)
    (hdue : x.reporting = .idle → x.reports.length < dueInAll) :
    (x.stepReporter u).dueRank dueInAll < x.dueRank dueInAll := by
  unfold stepReporter
  cases hreporting : x.reporting with
  | idle =>
      have hless := hdue hreporting
      simp only [hperiodic, reduceCtorEq, if_false, dueRank, hreporting, Reporting.rank,
        Reporting.unsent]
      omega
  | composed report =>
      simp only [sendStep]
      split <;>
        simp only [settle, dueRank, hreporting, Reporting.rank, Reporting.unsent,
          List.length_append, List.length_singleton] <;> omega
  | proposed p =>
      simp only
      split <;>
        simp only [settle, dueRank, hreporting, Reporting.rank, Reporting.unsent] <;> omega
  | _ =>
      simp only [settle, dueRank, hreporting, Reporting.rank, Reporting.unsent]
      omega

theorem turnsLeft_stepReporter_lt (hu : u.reader.Narrowing) (hdone : x.stage ≠ .done)
    (hdue : x.stage = .periodic → x.reporting = .idle → x.reports.length < dueInAll) :
    (x.stepReporter u).turnsLeft u dueInAll < x.turnsLeft u dueInAll := by
  have hreading := readingRank_stepReporter_le hu x
  by_cases hperiodic : x.stage = .periodic
  · have hstage : (x.stepReporter u).stage = .periodic := by
      rw [stage_stepReporter u (by simp [hperiodic]), hperiodic]
    have hless := dueRank_stepReporter_lt u hperiodic (hdue hperiodic)
    simp only [turnsLeft, closingRank, hstage, hperiodic, if_true]
    omega
  · have hpos : x.closingRank ≠ 0 := fun hzero => hdone (closingRank_eq_zero_iff.mp hzero)
    have hless := (closingRank_stepReporter u hperiodic).resolve_right hpos
    -- The last report does not give way to reports from time to time.
    have hstage : (x.stepReporter u).stage ≠ .periodic := by
      have := closingRank_le_eight_iff.mpr hperiodic
      exact closingRank_le_eight_iff.mp (by omega)
    simp only [turnsLeft, hperiodic, hstage, if_false]
    omega

theorem turnsLeft_stepReader_lt (hu : u.reader.Narrowing) (hrunning : ∀ e, x.reading ≠ .over e) :
    (x.stepReader u).turnsLeft u dueInAll < x.turnsLeft u dueInAll := by
  obtain ⟨hreporting, hstage⟩ := reporting_stepReader u x
  have hreports := reports_stepReader u x
  have hpos : x.readingRank u ≠ 0 := by
    intro hzero
    obtain ⟨e, he⟩ := over_of_readingRank_eq_zero hzero
    exact hrunning e he
  have hless := (readingRank_stepReader hu x).resolve_right hpos
  simp only [turnsLeft, closingRank, dueRank, hreporting, hstage, hreports]
  omega

/-- **Each turn of the scheduler leaves fewer turns**, until the work is done. -/
theorem turnsLeft_step_lt (hu : u.reader.Narrowing) (hdue : ∀ n, due n ≤ dueInAll)
    (hdone : x.stage ≠ .done) :
    (x.step u (heldReports due x)).turnsLeft u dueInAll < x.turnsLeft u dueInAll := by
  unfold heldReports
  cases hreading : x.reading with
  | held a =>
      simp only
      split
      · next hreport =>
        refine turnsLeft_stepReporter_lt hu hdone fun _ hidle => ?_
        have hless := hreport.resolve_left fun hne => hne hidle
        exact Nat.lt_of_lt_of_le hless (hdue _)
      · exact turnsLeft_stepReader_lt hu (by simp [hreading])
  | «over» e =>
      simp only
      split
      · next hclose =>
        rw [step, stepCoordinator_of_canClose ⟨⟨e, hreading⟩, hclose.2, hclose.1⟩]
        simp [turnsLeft, closingRank, readingRank, hreading, hclose]
        omega
      · next hclose =>
        exact turnsLeft_stepReporter_lt hu hdone fun hperiodic hidle =>
          absurd ⟨hperiodic, hidle⟩ hclose
  | _ => exact turnsLeft_stepReader_lt hu (by simp [hreading])

theorem stage_runWith (hu : u.reader.Narrowing) (hdue : ∀ n, due n ≤ dueInAll) (steps : Nat) :
    ∀ {x : Execution S α}, x.turnsLeft u dueInAll ≤ steps →
      (runWith u (heldReports due) steps x).stage = .done := by
  induction steps with
  | zero =>
      intro x hsteps
      have hclosing : x.closingRank = 0 := by
        unfold turnsLeft at hsteps
        omega
      exact closingRank_eq_zero_iff.mp hclosing
  | succ steps ih =>
      intro x hsteps
      rw [runWith]
      split
      · assumption
      · next hdone =>
        have hless := turnsLeft_step_lt hu hdue hdone
        exact ih (by omega)

/-! ## Results -/

theorem exists_runWith_eq (u : Setup S α) (scheduler : Execution S α → Turn) (steps : Nat) :
    ∀ x : Execution S α, ∃ schedule, runWith u scheduler steps x = x.runSchedule u schedule := by
  induction steps with
  | zero => exact fun x => ⟨[], rfl⟩
  | succ steps ih =>
      intro x
      rw [runWith]
      split
      · exact ⟨[], rfl⟩
      · obtain ⟨schedule, hschedule⟩ := ih (x.step u (scheduler x))
        exact ⟨scheduler x :: schedule, hschedule⟩

/-- **An execution has a result**, and it follows some schedule, for every reader that narrows its
range, every sink and every control plane. -/
theorem exists_result_run (hu : u.reader.Narrowing) (hdue : ∀ n, due n ≤ dueInAll) (reader : S) :
    ∃ schedule result, run u due dueInAll reader = (start reader).runSchedule u schedule ∧
      (run u due dueInAll reader).result? u = some result := by
  have hsteps : (start reader).turnsLeft u dueInAll ≤
      stepsPerUnit * (u.reader.remaining reader + dueInAll + 2) := by
    simp only [turnsLeft, readingRank, closingRank, dueRank, start, Reporting.rank,
      Reporting.unsent, List.length_nil, if_true, stepsPerUnit]
    omega
  have hdone : (run u due dueInAll reader).stage = .done := stage_runWith hu hdue _ hsteps
  obtain ⟨schedule, hschedule⟩ := exists_runWith_eq u (heldReports due)
    (stepsPerUnit * (u.reader.remaining reader + dueInAll + 2)) (start reader)
  change run u due dueInAll reader = _ at hschedule
  obtain ⟨e, he⟩ : ∃ e, (run u due dueInAll reader).reading = .over e := by
    rw [hschedule] at hdone ⊢
    exact over_of_stage_runSchedule u schedule (fun hne => absurd rfl hne) (by simp [hdone])
  have hresult : ∃ result, (run u due dueInAll reader).result? u = some result := by
    rw [result?, hdone, he]
    cases e <;> exact ⟨_, rfl⟩
  obtain ⟨result, hresult⟩ := hresult
  exact ⟨schedule, result, hschedule, hresult⟩

end Execution

/-- **A work item that can be opened has a result**, namely that of its execution under some
schedule. -/
theorem WorkItem.exists_run_eq {files : Files} {w : WorkItem} {reader : RawReader}
    (hopen : w.openReader files = .ok reader) (workerId : String)
    (sink : Nat → List UInt8 → Verdict) (control : ControlPlane) (due : Nat → Nat) (dueInAll : Nat)
    (hdue : ∀ n, due n ≤ dueInAll) :
    let u := w.setup files workerId sink control
    ∃ schedule result, ((Execution.start reader).runSchedule u schedule).result? u = some result ∧
      w.run files workerId sink control due dueInAll =
        { result
          handed := ((Execution.start reader).runSchedule u schedule).handed
          reports := ((Execution.start reader).runSchedule u schedule).reports } := by
  intro u
  obtain ⟨schedule, result, hrun, hresult⟩ := Execution.exists_result_run (u := u)
    (RangeReader.bounded_narrowing files Codec.bytes.decoder) hdue reader
  refine ⟨schedule, result, hrun ▸ hresult, ?_⟩
  rw [← hrun]
  simp only [run, hopen]
  rw [show Execution.result? (w.setup files workerId sink control) _ = some result from hresult]
  rfl

end SplitReader
