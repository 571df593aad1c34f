import SplitReader.Proofs.Execution
import SplitReader.Work.Run

/-! # Behind the end of a read

What can still happen to a read operation when its reading task is over. A task that ends by
exhaustion or by a failure has marked the operation, so every report that is put together from then
on says that the read is finished, the last one among them, and what an answer proposes is dropped.
Two things can be left over from before the end. A report that was complete may still be sent and
says that the read goes on; what its answer proposes is dropped like the rest. And a proposal that
had found the operation unfinished may still be judged; a reader that has met the end of its range
refuses it, too (`frozen_behind_end`).

A task that crashes does not mark the operation. The last report says that the read goes on, and a
split that its answer proposes can be accepted, although nobody reads the records before it any more
(`split_behind_crash`).
-/

set_option autoImplicit false

namespace SplitReader

def TaskEnd.hasCrashed : TaskEnd → Bool
  | exhausted _ | failed _ => false
  | crashed _ => true

/-- The reports that are complete and not sent, which is one at most. -/
def Reporting.waiting : Reporting → List ProgressReport
  | composed report => [report]
  | _ => []

/-- A reader that has nothing more to give accepts no stop. -/
def BoundedReader.EndsForGood {S α : Type} (r : BoundedReader S α) : Prop :=
  ∀ {s s' : S}, r.tryNext s = (.value none, s') →
    ∀ proposed, ∃ e, r.trySplit proposed s' = .error e

/-- An exhausted window has no room for a stop. -/
theorem RangeReader.bounded_endsForGood {σ α : Type} (files : Files) (decoder : Decoder σ α) :
    (bounded files decoder).EndsForGood := by
  intro s s' hread proposed
  obtain ⟨hover, rfl⟩ := of_tryNext_none hread
  cases hsplit : (bounded files decoder).trySplit proposed s' with
  | error e => exact ⟨e, rfl⟩
  | ok accepted =>
      obtain ⟨hr, -⟩ := bounded_trySplit_eq_ok_iff.mp hsplit
      obtain ⟨offset, -, -, hlo, hhi, -, -⟩ := trySplit_eq_ok_iff.mp hr
      omega

namespace ReadOperation

variable {S α : Type} {r : BoundedReader S α} {op : ReadOperation S}

theorem isFinished_applySplit (r : BoundedReader S α) (proposed : Progress)
    (op : ReadOperation S) : (op.applySplit r proposed).2.isFinished = op.isFinished := by
  unfold applySplit
  split <;> rfl

theorem applySplit_of_refused {proposed : Progress}
    (h : ∃ e, r.trySplit proposed op.reader = .error e) : (op.applySplit r proposed).2 = op := by
  obtain ⟨e, he⟩ := h
  unfold applySplit
  rw [he]

end ReadOperation

namespace Execution

variable {S α : Type} {u : Setup S α} {x y : Execution S α} {e : TaskEnd}

/-! ## Single turns -/

theorem isFinished_stepReporter (u : Setup S α) (x : Execution S α) :
    (x.stepReporter u).operation.isFinished = x.operation.isFinished := by
  rcases operation_stepReporter u x with hsame | ⟨p, hsplit⟩
  · rw [hsame]
  · rw [hsplit, ReadOperation.isFinished_applySplit]

theorem reports_prefix_step (u : Setup S α) (x : Execution S α) (turn : Turn) :
    x.reports <+: (x.step u turn).reports := by
  cases turn with
  | reader => exact ⟨[], by rw [step, reports_stepReader, List.append_nil]⟩
  | reporter =>
      rw [step, stepReporter]
      cases x.reporting with
      | idle =>
          simp only
          split <;> exact List.prefix_rfl
      | composed report =>
          simp only [sendStep]
          split <;> exact List.prefix_append _ _
      | proposed p =>
          simp only
          split <;> exact List.prefix_rfl
      | _ => exact List.prefix_rfl
  | coordinator =>
      obtain ⟨stage, hstage⟩ := exists_stepCoordinator_eq x
      exact ⟨[], by rw [step, hstage, List.append_nil]⟩

/-- All reports that were put together, sent or not. -/
def composedReports (x : Execution S α) : List ProgressReport := x.reports ++ x.reporting.waiting

/-- A report is put together in one turn only. In every other one, the one that sends it among
them, the reports that were put together stay the same. -/
theorem composedReports_stepReporter (u : Setup S α) (x : Execution S α) :
    (x.stepReporter u).composedReports = x.composedReports ∨
      ∃ r : ProgressReport, r.isFinished = x.operation.isFinished ∧
        (x.stepReporter u).composedReports = x.composedReports ++ [r] := by
  unfold stepReporter composedReports
  cases hreporting : x.reporting with
  | idle =>
      left
      simp only
      split
      · rw [hreporting]
      · rfl
  | withStop p n b stop =>
      refine Or.inr ⟨⟨u.context, p, n, b, stop, x.operation.isFinished⟩, rfl, ?_⟩
      simp [Reporting.waiting]
  | composed report =>
      left
      simp only [sendStep]
      split <;> simp [settle, Reporting.waiting]
  | proposed p =>
      left
      simp only
      split <;> rfl
  | _ => exact Or.inl rfl

/-- What is put together in a turn says whether the operation is marked. -/
theorem composedReports_step (u : Setup S α) (x : Execution S α) (turn : Turn) :
    ∃ made, (x.step u turn).composedReports = x.composedReports ++ made ∧
      ∀ r ∈ made, r.isFinished = x.operation.isFinished := by
  have hnothing : ∀ {y : Execution S α}, y.composedReports = x.composedReports →
      ∃ made, y.composedReports = x.composedReports ++ made ∧
        ∀ r ∈ made, r.isFinished = x.operation.isFinished :=
    fun hsame => ⟨[], by rw [hsame, List.append_nil], by simp⟩
  cases turn with
  | reader =>
      refine hnothing ?_
      rw [step, composedReports, reports_stepReader, (reporting_stepReader u x).1]
      rfl
  | reporter =>
      rcases composedReports_stepReporter u x with hsame | ⟨r, hmark, hmade⟩
      · exact hnothing hsame
      · exact ⟨[r], hmade, by simpa using hmark⟩
  | coordinator =>
      obtain ⟨stage, hstage⟩ := exists_stepCoordinator_eq x
      rw [step, hstage]
      exact hnothing rfl

theorem over_step (h : x.reading = .over e) (u : Setup S α) (turn : Turn) :
    (x.step u turn).reading = .over e ∧
      (x.step u turn).operation.isFinished = x.operation.isFinished := by
  cases turn with
  | reader =>
      rw [step, stepReader_of_over h]
      exact ⟨h, rfl⟩
  | reporter =>
      rw [step, (reading_stepReporter u x).1, isFinished_stepReporter]
      exact ⟨h, rfl⟩
  | coordinator =>
      obtain ⟨stage, hstage⟩ := exists_stepCoordinator_eq x
      rw [step, hstage]
      exact ⟨h, rfl⟩

/-- **All reports that are put together behind the end of the reading task** say the same about
it. -/
theorem over_runSchedule (u : Setup S α) (after : List Turn) :
    ∀ {x : Execution S α}, x.reading = .over e →
      (x.runSchedule u after).reading = .over e ∧
        (x.runSchedule u after).operation.isFinished = x.operation.isFinished ∧
        ∃ made, (x.runSchedule u after).composedReports = x.composedReports ++ made ∧
          ∀ r ∈ made, r.isFinished = x.operation.isFinished := by
  induction after with
  | nil => exact fun h => ⟨h, rfl, [], (List.append_nil _).symm, by simp⟩
  | cons turn after ih =>
      intro x h
      obtain ⟨hover, hmark⟩ := over_step h u turn
      obtain ⟨first, hfirst, hfirsts⟩ := composedReports_step u x turn
      obtain ⟨hreading, hfinished, rest, hrest, hrests⟩ := ih hover
      refine ⟨hreading, hfinished.trans hmark, first ++ rest, ?_, ?_⟩
      · rw [← List.append_assoc, ← hfirst]
        exact hrest
      · intro r hr
        rcases List.mem_append.mp hr with hr | hr
        · exact hfirsts r hr
        · exact (hrests r hr).trans hmark

/-- Behind the end, all reports that are sent say the same about it, but for one that was complete
before. -/
theorem sent_behind_over (u : Setup S α) (after : List Turn) (h : x.reading = .over e) :
    ∃ sent, (x.runSchedule u after).reports = x.reports ++ sent ∧
      ∀ r ∈ sent.drop x.reporting.waiting.length, r.isFinished = x.operation.isFinished := by
  obtain ⟨sent, hsent⟩ : x.reports <+: (x.runSchedule u after).reports :=
    runSchedule_of_step (P := fun y => x.reports <+: y.reports)
      (fun {y} turn hprefix => hprefix.trans (reports_prefix_step u y turn)) after List.prefix_rfl
  obtain ⟨-, -, made, hmade, hflags⟩ := over_runSchedule u after h
  refine ⟨sent, hsent.symm, fun r hr => hflags r ?_⟩
  rw [composedReports, composedReports, ← hsent, List.append_assoc, List.append_assoc,
    List.append_cancel_left_eq] at hmade
  have hdrop := congrArg (List.drop x.reporting.waiting.length) hmade
  rw [List.drop_append, List.drop_left] at hdrop
  rw [← hdrop]
  exact List.mem_append_left _ hr

/-! ## The last report -/

/-- The report that was sent last says whether the operation is marked. -/
def LastTells (x : Execution S α) : Prop :=
  ∃ r, x.reports.getLast? = some r ∧ r.isFinished = x.operation.isFinished

/-- The report under way is put together behind the end of the reading task, and says so. -/
def Tells (x : Execution S α) : Prop :=
  match x.reporting with
  | .composed report => report.isFinished = x.operation.isFinished
  | .proposed _ | .admitted _ => x.LastTells
  | _ => True

/-- The last report says whether the operation is marked. -/
structure Closing (x : Execution S α) : Prop where
  ended : x.stage ≠ .periodic → ∃ e, x.reading = .over e
  final : x.stage = .final → x.Tells
  done : x.stage = .done → x.reporting = .idle ∧ x.LastTells

theorem Closing.of_periodic (h : x.stage = .periodic) : x.Closing := by
  constructor <;> intro hnot <;> simp [h] at hnot

theorem Closing.of_final (hover : ∃ e, x.reading = .over e) (h : x.stage = .final)
    (htells : x.Tells) : x.Closing :=
  ⟨fun _ => hover, fun _ => htells, by simp [h]⟩

theorem Closing.of_done (hover : ∃ e, x.reading = .over e) (h : x.stage = .done)
    (hidle : x.reporting = .idle) (hlast : x.LastTells) : x.Closing :=
  ⟨fun _ => hover, by simp [h], fun _ => ⟨hidle, hlast⟩⟩

theorem Closing.stepReader (h : x.Closing) (u : Setup S α) : (x.stepReader u).Closing := by
  by_cases hstage : x.stage = .periodic
  · exact .of_periodic ((reporting_stepReader u x).2.trans hstage)
  · obtain ⟨e, he⟩ := h.ended hstage
    rw [stepReader_of_over he]
    exact h

theorem Closing.stepReporter (h : x.Closing) (u : Setup S α) : (x.stepReporter u).Closing := by
  cases hstage : x.stage with
  | periodic => exact .of_periodic ((stage_stepReporter u (by simp [hstage])).trans hstage)
  | done =>
      rw [stepReporter_of_done u hstage (h.done hstage).1]
      exact h
  | final =>
      have hover := h.ended (by simp [hstage])
      have hsettled : ∀ y : Execution S α, y.stage = .final → y.settle.stage = .done :=
        fun y hy => if_pos hy
      have htells := h.final hstage
      unfold Tells at htells
      unfold Execution.stepReporter
      cases hreporting : x.reporting with
      | idle =>
          simp only [hstage, reduceCtorEq, if_false]
          exact .of_final hover rfl trivial
      | withStop p n b stop => exact .of_final hover hstage rfl
      | composed report =>
          rw [hreporting] at htells
          have hlast : (x.reports ++ [report]).getLast? = some report := List.getLast?_concat
          simp only [sendStep]
          split
          · exact .of_final hover hstage ⟨report, hlast, htells⟩
          · exact .of_done hover (hsettled _ hstage) rfl ⟨report, hlast, htells⟩
          · exact .of_done hover (hsettled _ hstage) rfl ⟨report, hlast, htells⟩
      | proposed p =>
          rw [hreporting] at htells
          simp only
          split
          · exact .of_done hover (hsettled _ hstage) rfl htells
          · exact .of_final hover hstage htells
      | admitted p =>
          rw [hreporting] at htells
          obtain ⟨r, hr, hmark⟩ := htells
          refine .of_done hover (hsettled _ hstage) rfl ⟨r, hr, hmark.trans ?_⟩
          exact (ReadOperation.isFinished_applySplit u.reader p x.operation).symm
      | _ => exact .of_final hover hstage trivial

theorem Closing.stepCoordinator (h : x.Closing) : x.stepCoordinator.Closing := by
  by_cases hclose : x.CanClose
  · rw [stepCoordinator_of_canClose hclose]
    refine .of_final hclose.1 rfl ?_
    rw [Tells, hclose.2.1]
    trivial
  · rw [stepCoordinator_of_not_canClose hclose]
    exact h

theorem Closing.step (h : x.Closing) (u : Setup S α) (turn : Turn) : (x.step u turn).Closing := by
  cases turn with
  | reader => exact h.stepReader u
  | reporter => exact h.stepReporter u
  | coordinator => exact h.stepCoordinator

/-- **Under every schedule the last report says whether the operation is marked.** -/
theorem Closing.runSchedule (h : x.Closing) (u : Setup S α) (schedule : List Turn) :
    (x.runSchedule u schedule).Closing :=
  runSchedule_of_step (fun turn h => h.step u turn) schedule h

/-! ## The mark -/

/-- The operation is marked exactly if the reading task is over and has not crashed. -/
structure Marks (x : Execution S α) : Prop where
  ending : ∀ e, x.reading = .ending e → e.hasCrashed = false
  isFinished : x.operation.isFinished = true ↔ ∃ e, x.reading = .over e ∧ e.hasCrashed = false

theorem Marks.stepReader (h : x.Marks) (u : Setup S α) : (x.stepReader u).Marks := by
  -- A task that is not over has not marked the operation.
  have hunmarked : (∀ e, x.reading ≠ .over e) → x.operation.isFinished = false := by
    intro hnot
    rw [Bool.eq_false_iff, ne_eq, h.isFinished]
    rintro ⟨e, he, -⟩
    exact hnot e he
  unfold Execution.stepReader
  cases hreading : x.reading with
  | start =>
      have hmark := hunmarked (by simp [hreading])
      rcases hread : u.reader.tryNext x.operation.reader with ⟨(_ | d) | e | text, reader⟩ <;>
        simp only [readStep_of_tryNext hread, behindRead] <;>
        constructor <;> simp [hmark, TaskEnd.hasCrashed]
  | taken d =>
      have hmark := hunmarked (by simp [hreading])
      constructor <;> simp [hmark]
  | counted d =>
      have hmark := hunmarked (by simp [hreading])
      constructor <;> simp [hmark]
  | ready a =>
      have hmark := hunmarked (by simp [hreading])
      constructor <;> simp [hmark]
  | held a =>
      have hmark := hunmarked (by simp [hreading])
      simp only [releaseStep]
      cases u.sink x.delivered a <;> constructor <;> simp [hmark, TaskEnd.hasCrashed]
  | ending e =>
      have horderly := h.ending e hreading
      constructor <;> simp [ReadOperation.finish, horderly]
  | «over» e => exact h

theorem Marks.step (h : x.Marks) (u : Setup S α) (turn : Turn) : (x.step u turn).Marks := by
  cases turn with
  | reader => exact h.stepReader u
  | reporter =>
      obtain ⟨hreading, -⟩ := reading_stepReporter u x
      refine ⟨?_, ?_⟩
      · rw [Execution.step, hreading]
        exact h.ending
      · rw [Execution.step, hreading, isFinished_stepReporter]
        exact h.isFinished
  | coordinator =>
      obtain ⟨stage, hstage⟩ := exists_stepCoordinator_eq x
      rw [Execution.step, hstage]
      exact ⟨h.ending, h.isFinished⟩

/-- **Under every schedule** only a task that has not crashed marks the operation. -/
theorem Marks.runSchedule (h : x.Marks) (u : Setup S α) (schedule : List Turn) :
    (x.runSchedule u schedule).Marks :=
  runSchedule_of_step (fun turn h => h.step u turn) schedule h

theorem marks_start (reader : S) : (start reader : Execution S α).Marks :=
  ⟨by rintro e ⟨⟩, by rintro ⟨⟩, by rintro ⟨e, ⟨⟩, -⟩⟩

/-! ## Splits behind the end -/

/-- Nothing was split between two states, except for a proposal that was admitted in the first. -/
def KeptSince (u : Setup S α) (x y : Execution S α) : Prop :=
  (y.operation = x.operation ∧ ∀ p, y.reporting = .admitted p → x.reporting = .admitted p) ∨
    ∃ p, x.reporting = .admitted p ∧ y.operation = (x.operation.applySplit u.reader p).2 ∧
      ∀ q, y.reporting ≠ .admitted q

/-- On a marked operation a turn of the reporting task admits no proposal. -/
theorem KeptSince.stepReporter (h : KeptSince u x y) (hmark : y.operation.isFinished = true) :
    KeptSince u x (y.stepReporter u) := by
  -- Turns that neither judge nor admit a proposal.
  have hquiet : ∀ {z : Execution S α}, z.operation = y.operation →
      (∀ p, z.reporting ≠ .admitted p) → KeptSince u x z := by
    intro z hoperation hreporting
    rcases h with ⟨hsame, -⟩ | ⟨p, hp, hsplit, -⟩
    · exact Or.inl ⟨hoperation.trans hsame, fun p hp => absurd hp (hreporting p)⟩
    · exact Or.inr ⟨p, hp, hoperation.trans hsplit, hreporting⟩
  unfold Execution.stepReporter
  cases hreporting : y.reporting with
  | idle =>
      simp only
      split
      · exact hquiet rfl (by simp [hreporting])
      · exact hquiet rfl (by simp)
  | composed report =>
      simp only [sendStep]
      split <;> exact hquiet rfl (by simp [settle])
  | proposed p =>
      simp only [hmark, if_true]
      exact hquiet rfl (by simp [settle])
  | admitted p =>
      rcases h with ⟨hsame, hadmitted⟩ | ⟨q, -, -, hnone⟩
      · exact Or.inr ⟨p, hadmitted p hreporting, by simp [settle, hsame], by simp [settle]⟩
      · exact absurd hreporting (hnone p)
  | _ => exact hquiet rfl (by simp)

theorem KeptSince.step (h : KeptSince u x y) (hover : y.reading = .over e)
    (hmark : y.operation.isFinished = true) (turn : Turn) : KeptSince u x (y.step u turn) := by
  cases turn with
  | reader =>
      rw [Execution.step, stepReader_of_over hover]
      exact h
  | reporter => exact h.stepReporter hmark
  | coordinator =>
      obtain ⟨stage, hstage⟩ := exists_stepCoordinator_eq y
      rw [Execution.step, hstage]
      exact h

/-- **Behind a marked end** nothing is split but what was admitted before. -/
theorem KeptSince.runSchedule (h : KeptSince u x y) (hover : y.reading = .over e)
    (hmark : y.operation.isFinished = true) (after : List Turn) :
    KeptSince u x (y.runSchedule u after) := by
  -- That the task is over and the operation marked goes through the induction, too.
  have hrun := runSchedule_of_step (u := u)
    (P := fun z => KeptSince u x z ∧ z.reading = .over e ∧ z.operation.isFinished = true)
    (fun turn ⟨hkept, hz, hfinished⟩ =>
      have ⟨hz', hsame⟩ := over_step hz u turn
      ⟨hkept.step hz hfinished turn, hz', hsame.trans hfinished⟩)
    after ⟨h, hover, hmark⟩
  exact hrun.1

/-- A reader that has met the end of its range refuses every stop until the task is over. -/
def Closed (u : Setup S α) (x : Execution S α) : Prop :=
  ∀ n, x.reading = .ending (.exhausted n) ∨ x.reading = .over (.exhausted n) →
    ∀ proposed, ∃ e, u.reader.trySplit proposed x.operation.reader = .error e

theorem Closed.stepReader (hu : u.reader.EndsForGood) (h : x.Closed u) :
    (x.stepReader u).Closed u := by
  unfold Execution.stepReader
  cases hreading : x.reading with
  | start =>
      rcases hread : u.reader.tryNext x.operation.reader with ⟨(_ | d) | e | text, reader⟩
      · rw [readStep_of_tryNext hread]
        exact fun _ _ => hu hread
      all_goals
        rw [readStep_of_tryNext hread]
        rintro n (⟨⟨⟩⟩ | ⟨⟨⟩⟩)
  | held a =>
      simp only [releaseStep]
      cases u.sink x.delivered a <;> rintro n (⟨⟨⟩⟩ | ⟨⟨⟩⟩)
  | ending e =>
      rintro n (⟨⟨⟩⟩ | ⟨⟨⟩⟩)
      exact h n (Or.inl hreading)
  | «over» e => exact h
  | _ => rintro n (⟨⟨⟩⟩ | ⟨⟨⟩⟩)

theorem Closed.step (hu : u.reader.EndsForGood) (h : x.Closed u) (turn : Turn) :
    (x.step u turn).Closed u := by
  cases turn with
  | reader => exact h.stepReader hu
  | reporter =>
      intro n hn
      rw [Execution.step, (reading_stepReporter u x).1] at hn
      have hrefuses := h n hn
      rw [Execution.step]
      rcases operation_stepReporter u x with hsame | ⟨p, hsplit⟩
      · rw [hsame]
        exact hrefuses
      · rw [hsplit, ReadOperation.applySplit_of_refused (hrefuses p)]
        exact hrefuses
  | coordinator =>
      obtain ⟨stage, hstage⟩ := exists_stepCoordinator_eq x
      rw [Execution.step, hstage]
      exact h

theorem Closed.runSchedule (hu : u.reader.EndsForGood) (h : x.Closed u) (schedule : List Turn) :
    (x.runSchedule u schedule).Closed u :=
  runSchedule_of_step (fun turn h => h.step hu turn) schedule h

/-- **Behind the end of a read the operation is frozen, unless the read has crashed.** For every
reader, sink and control plane and every schedule: the reports that are sent when the reading task
is over say that the read is finished if and only if the task has not crashed, but for one report
that was complete before, which can only be the first of them and not the last report of the work.
If the task has not crashed, the operation stays as it is, except that one proposal can still be
judged, namely one that had been admitted before the end; and behind an exhausted range not even
that one, if the reader accepts no stop where it has nothing more to give. -/
theorem frozen_behind_end (u : Setup S α) (reader : S) (before after : List Turn) {e : TaskEnd}
    (hover : ((start reader).runSchedule u before).reading = .over e) :
    let x := (start reader).runSchedule u before
    let y := x.runSchedule u after
    (∃ sent, y.reports = x.reports ++ sent ∧
      ∀ r ∈ sent.drop x.reporting.waiting.length, r.isFinished = true ↔ e.hasCrashed = false) ∧
    (y.stage = .done →
      ∃ r, y.reports.getLast? = some r ∧ (r.isFinished = true ↔ e.hasCrashed = false)) ∧
    (e.hasCrashed = false → y.operation = x.operation ∨
      ∃ p, x.reporting = .admitted p ∧ y.operation = (x.operation.applySplit u.reader p).2) ∧
    ((∃ n, e = .exhausted n) → u.reader.EndsForGood → y.operation = x.operation) := by
  intro x y
  have hmarks : x.Marks := (marks_start reader).runSchedule u before
  have hclosing : y.Closing := ((Closing.of_periodic rfl).runSchedule u before).runSchedule u after
  obtain ⟨-, hsame, -⟩ := over_runSchedule u after hover
  obtain ⟨sent, hsent, hflags⟩ := sent_behind_over u after hover
  have hmark : x.operation.isFinished = true ↔ e.hasCrashed = false := by
    rw [hmarks.isFinished, hover]
    simp
  have hkept : e.hasCrashed = false → y.operation = x.operation ∨
      ∃ p, x.reporting = .admitted p ∧ y.operation = (x.operation.applySplit u.reader p).2 := by
    intro horderly
    have hsince : KeptSince u x y :=
      KeptSince.runSchedule (Or.inl ⟨rfl, fun _ hp => hp⟩) hover (hmark.mpr horderly) after
    rcases hsince with ⟨hsame, -⟩ | ⟨p, hp, hsplit, -⟩
    · exact Or.inl hsame
    · exact Or.inr ⟨p, hp, hsplit⟩
  refine ⟨⟨sent, hsent, fun r hr => ?_⟩, fun hdone => ?_, hkept, ?_⟩
  · rw [hflags r hr]
    exact hmark
  · obtain ⟨-, r, hlast, hflag⟩ := hclosing.done hdone
    refine ⟨r, hlast, ?_⟩
    rw [hflag, hsame]
    exact hmark
  · rintro ⟨n, rfl⟩ hu
    -- The reader had nothing more to give when the end was found, so it refuses what was admitted.
    have hclosed : x.Closed u := Closed.runSchedule hu (by rintro n (⟨⟨⟩⟩ | ⟨⟨⟩⟩)) before
    rcases hkept rfl with hsame | ⟨p, -, hsplit⟩
    · exact hsame
    · rw [hsplit]
      exact ReadOperation.applySplit_of_refused (hclosed n (Or.inr hover) p)

/-- What three records are read with: every answer to a report proposes to stop before the last. -/
def stopsAtTwo (sink : Nat → List UInt8 → Verdict) : Setup WorkItem.RawReader (List UInt8) where
  reader := RangeReader.bounded {} Codec.bytes.decoder
  sink := sink
  control := fun _ _ => .propose (.ofPosition (.recordIndex 2))
  context := ⟨"item", "worker"⟩

def threeLetters : Execution WorkItem.RawReader (List UInt8) :=
  start (MemorySource.reader ⟨[[97], [98], [99]], 0, 3⟩, ())

/-- A split that was admitted before the sink refuses the first record is accepted behind the end,
and the last report, which says that the read is finished, brings no other. Behind an exhausted
range an admitted split is refused. A report that was complete before the range was exhausted is
sent behind the end and says that the read goes on, and the split of its answer is dropped. -/
theorem frozen_behind_end_refusal :
    let u := stopsAtTwo fun _ _ => .refuse (.internal "closed")
    let x := threeLetters.runSchedule u (List.replicate 7 .reporter ++ List.replicate 6 .reader)
    let y := x.runSchedule u (.reporter :: .coordinator :: List.replicate 8 .reporter)
    let v := stopsAtTwo fun _ _ => .accept
    let z := threeLetters.runSchedule v (List.replicate 7 .reporter ++ List.replicate 17 .reader)
    let late := threeLetters.runSchedule v (List.replicate 5 .reporter ++ List.replicate 17 .reader)
    let sent := late.runSchedule v
      (List.replicate 2 .reporter ++ .coordinator :: List.replicate 7 .reporter)
    (x.reading = .over (.failed (.internal "closed")) ∧ x.operation.stopPosition = none ∧
      y.operation.stopPosition = some (.recordIndex 2) ∧
      ∃ sent, y.reports = x.reports ++ sent ∧ ∀ r ∈ sent, r.isFinished = true) ∧
    (z.reading = .over (.exhausted 3) ∧
      z.reporting = .admitted (.ofPosition (.recordIndex 2)) ∧
      ∀ after, (z.runSchedule v after).operation.stopPosition = none) ∧
    late.reading = .over (.exhausted 3) ∧ late.reports = [] ∧
      sent.reports.map ProgressReport.isFinished = [false, true] ∧
      sent.stage = .done ∧ sent.operation.stopPosition = none := by
  intro u x y v z late sent
  have hx : x.reading = .over (.failed (.internal "closed")) := by decide +kernel
  have hz : z.reading = .over (.exhausted 3) := by decide +kernel
  have hidle : x.reporting.waiting = [] := by decide +kernel
  obtain ⟨⟨behind, hsent, hflags⟩, -, -, -⟩ := frozen_behind_end u _ _
    (.reporter :: .coordinator :: List.replicate 8 .reporter) hx
  refine ⟨⟨hx, by decide +kernel, by decide +kernel, behind, hsent, fun r hr => ?_⟩,
    ⟨hz, by decide +kernel, fun after => ?_⟩, by decide +kernel⟩
  · have hlater : r ∈ behind.drop x.reporting.waiting.length := by
      rw [hidle]
      exact hr
    exact (hflags r hlater).mpr rfl
  · obtain ⟨-, -, -, hfrozen⟩ := frozen_behind_end v _ _ after hz
    rw [show (z.runSchedule v after).operation = z.operation from
      hfrozen ⟨3, rfl⟩ (RangeReader.bounded_endsForGood {} _)]
    decide +kernel

/-- **Behind a crash of the sink** the last report says that the read goes on, and the split that
its answer proposes is accepted. -/
theorem split_behind_crash :
    let u := stopsAtTwo fun _ _ => .crash "sink panicked"
    let x := threeLetters.runSchedule u (List.replicate 5 .reader)
    let y := x.runSchedule u (.coordinator :: List.replicate 8 .reporter)
    x.reading = .over (.crashed "sink panicked") ∧ x.reports = [] ∧
      x.operation.stopPosition = none ∧
      y.stage = .done ∧ y.reports.map ProgressReport.isFinished = [false] ∧
      y.operation.stopPosition = some (.recordIndex 2) := by
  decide +kernel

end Execution

end SplitReader
