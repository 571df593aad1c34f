import SplitReader.Proofs.HeldReports
import SplitReader.Proofs.RecordExecution

/-! # Executions that nobody interferes with

If the sink takes every element and the control plane never proposes a stop, the reporting task has
no part in what is read. Under every schedule the sink is handed the elements that reads of the
reader give one after the other, up to the first read without an element, and that read decides the
result (`result_of_isQuiet`). So the schedule makes no difference (`result_unique_of_isQuiet`).

This is said of any reader. What the reads of a given one give is the business of its own lemmas.
-/

set_option autoImplicit false

namespace SplitReader

/-! ## Reads one after the other -/

/-- Reads from a state on give elements, one after the other, and lead to another state. -/
inductive BoundedReader.Yields {S α : Type} (r : BoundedReader S α) (s : S) :
    List (Delivered α) → S → Prop where
  | nothing : Yields r s [] s
  | more {ds : List (Delivered α)} {d : Delivered α} {s' s'' : S} (reads : Yields r s ds s')
      (read : r.tryNext s' = (.value (some d), s'')) : Yields r s (ds ++ [d]) s''

namespace BoundedReader.Yields

variable {S α : Type} {r : BoundedReader S α} {s b c : S} {ds es : List (Delivered α)}

/-- As many reads give the same elements and lead to the same state. -/
theorem unique (h : r.Yields s ds b) (h' : r.Yields s es c) (hlength : ds.length = es.length) :
    ds = es ∧ b = c := by
  induction h generalizing es c with
  | nothing =>
      cases h' with
      | nothing => exact ⟨rfl, rfl⟩
      | more reads read => simp at hlength
  | more reads read ih =>
      cases h' with
      | nothing => simp at hlength
      | more reads' read' =>
          simp only [List.length_append, List.length_singleton, Nat.add_right_cancel_iff] at hlength
          obtain ⟨rfl, rfl⟩ := ih reads' hlength
          rw [read] at read'
          cases read'
          exact ⟨rfl, rfl⟩

/-- Behind fewer reads there is another element. -/
theorem exists_read (h : r.Yields s ds b) (h' : r.Yields s es c) (hlt : ds.length < es.length) :
    ∃ d s', r.tryNext b = (.value (some d), s') := by
  induction h' with
  | nothing => cases hlt
  | more reads read ih =>
      rw [List.length_append, List.length_singleton] at hlt
      rcases Nat.lt_or_eq_of_le (Nat.le_of_lt_succ hlt) with hless | hsame
      · exact ih hless
      · obtain ⟨-, rfl⟩ := h.unique reads hsame
        exact ⟨_, _, read⟩

/-- Reads up to one without an element can be made in one way only. -/
theorem unique_of_none (h : r.Yields s ds b) (h' : r.Yields s es c)
    (hb : ∀ d, (r.tryNext b).1 ≠ .value (some d)) (hc : ∀ d, (r.tryNext c).1 ≠ .value (some d)) :
    ds = es ∧ b = c := by
  rcases Nat.lt_trichotomy ds.length es.length with hlt | hsame | hlt
  · obtain ⟨d, s', hread⟩ := h.exists_read h' hlt
    exact absurd (congrArg Prod.fst hread) (hb d)
  · exact h.unique h' hsame
  · obtain ⟨d, s', hread⟩ := h'.exists_read h hlt
    exact absurd (congrArg Prod.fst hread) (hc d)

end BoundedReader.Yields

/-- How a read ends the reading task, if it does. -/
def TaskEnd.ofRead {α : Type} (delivered : Nat) :
    Outcome SourceError (Option (Delivered α)) → Option TaskEnd
  | .value (some _) => none
  | .value none => some (.exhausted delivered)
  | .failed e => some (.failed (.source e))
  | .crashed text => some (.crashed text)

/-! ## Nobody interferes -/

/-- The sink takes every element, and no answer to a report proposes a stop. -/
structure Setup.IsQuiet {S α : Type} (u : Setup S α) : Prop where
  accepts : ∀ n a, u.sink n a = .accept
  proposesNot : ∀ sent r p, u.control sent r ≠ .propose p

/-- What the result of an execution is when nobody interferes, by the read that ends it. -/
def Setup.resultBehind {S α : Type} (u : Setup S α) (ds : List (Delivered α)) (reader : S) :
    Outcome SourceError (Option (Delivered α)) → Except WorkerError Execution.Summary
  | .value _ =>
      .ok
        { workItemId := u.context.workItemId
          elementsRead := (ReadCounters.total ds).elements
          bytesRead := (ReadCounters.total ds).bytes
          finalProgress := u.reader.progress reader
          stopPosition := none }
  | .failed e => .error (.source e)
  | .crashed _ => .error .join

namespace Execution

variable {S α : Type} {u : Setup S α} {s : S} {x : Execution S α}

/-- The reading task stands behind reads that lead to some state: the reader is in that state, or
was until the read that has ended the task. -/
def StandsBehind (u : Setup S α) (before reader : S) : Reading α → Prop
  | .ending e | .over e => ∃ delivered outcome,
      u.reader.tryNext before = (outcome, reader) ∧ TaskEnd.ofRead delivered outcome = some e
  | _ => before = reader

/-- Nothing was split, and what was handed over and is on its way was read one after the other. -/
structure Undisturbed (u : Setup S α) (s : S) (x : Execution S α) : Prop where
  reporting : ∀ p, x.reporting ≠ .proposed p ∧ x.reporting ≠ .admitted p
  stopPosition : x.operation.stopPosition = none
  reads : ∃ ds before, u.reader.Yields s ds before ∧
    StandsBehind u before x.operation.reader x.reading ∧
    x.handed ++ x.reading.pending = ds.map Delivered.element ∧
    x.reading.settled x.operation.counters = .total ds

/-- **A read** takes the next element, or ends the task. -/
theorem Undisturbed.readStep (hreading : x.reading = .start) (h : x.Undisturbed u s) :
    (x.readStep u).Undisturbed u s := by
  obtain ⟨ds, before, hyields, hbehind, hhanded, hcounters⟩ := h.reads
  rw [hreading] at hbehind hhanded hcounters
  obtain rfl : before = x.operation.reader := hbehind
  rcases hread : u.reader.tryNext x.operation.reader with ⟨outcome, reader⟩
  rw [readStep_of_tryNext hread]
  refine ⟨h.reporting, h.stopPosition, ?_⟩
  have hend : ∀ e, TaskEnd.ofRead x.delivered outcome = some e →
      ∃ delivered outcome, u.reader.tryNext x.operation.reader = (outcome, reader) ∧
        TaskEnd.ofRead delivered outcome = some e :=
    fun e he => ⟨x.delivered, outcome, hread, he⟩
  rcases outcome with (_ | d) | e | text
  · exact ⟨ds, _, hyields, hend _ rfl, hhanded, hcounters⟩
  · refine ⟨ds ++ [d], reader, hyields.more hread, rfl, ?_, ?_⟩
    · rw [List.map_append, ← hhanded]
      simp [behindRead, Reading.pending]
    · rw [← ReadCounters.countRecord_total, ← hcounters]
      rfl
  · exact ⟨ds, _, hyields, hend _ rfl, hhanded, hcounters⟩
  · exact ⟨ds, _, hyields, hend _ rfl, hhanded, hcounters⟩

theorem Undisturbed.stepReader (hu : u.IsQuiet) (h : x.Undisturbed u s) :
    (x.stepReader u).Undisturbed u s := by
  obtain ⟨ds, before, hyields, hbehind, hhanded, hcounters⟩ := h.reads
  unfold Execution.stepReader
  cases hreading : x.reading with
  | start => exact h.readStep hreading
  | taken d =>
      rw [hreading] at hbehind hhanded hcounters
      refine ⟨h.reporting, h.stopPosition, ds, before, hyields, hbehind, hhanded, ?_⟩
      rw [← hcounters]
      exact ReadCounters.add_add _ _
  | counted d =>
      rw [hreading] at hbehind hhanded hcounters
      exact ⟨h.reporting, h.stopPosition, ds, before, hyields, hbehind, hhanded, hcounters⟩
  | ready a =>
      rw [hreading] at hbehind hhanded hcounters
      refine ⟨h.reporting, h.stopPosition, ds, before, hyields, hbehind, ?_, hcounters⟩
      rw [← hhanded]
      exact List.append_nil _
  | held a =>
      rw [hreading] at hbehind hhanded hcounters
      simp only [releaseStep, hu.accepts]
      exact ⟨h.reporting, h.stopPosition, ds, before, hyields, hbehind, hhanded, hcounters⟩
  | ending e =>
      rw [hreading] at hbehind hhanded hcounters
      exact ⟨h.reporting, h.stopPosition, ds, before, hyields, hbehind, hhanded, hcounters⟩
  | «over» e => exact h

theorem Undisturbed.stepReporter (hu : u.IsQuiet) (h : x.Undisturbed u s) :
    (x.stepReporter u).Undisturbed u s := by
  have hsame : ∀ {y : Execution S α}, y.operation = x.operation → y.reading = x.reading →
      y.handed = x.handed → (∀ p, y.reporting ≠ .proposed p ∧ y.reporting ≠ .admitted p) →
      y.Undisturbed u s := by
    intro y hoperation hreading hhanded hreporting
    refine ⟨hreporting, ?_, ?_⟩
    · rw [hoperation]
      exact h.stopPosition
    · rw [hoperation, hreading, hhanded]
      exact h.reads
  unfold Execution.stepReporter
  cases hreporting : x.reporting with
  | idle =>
      simp only
      split
      · exact h
      · exact hsame rfl rfl rfl (by simp)
  | composed report =>
      simp only [sendStep]
      split
      · next p' hpropose => exact absurd hpropose (hu.proposesNot _ _ p')
      · exact hsame rfl rfl rfl (by simp [settle])
      · exact hsame rfl rfl rfl (by simp [settle])
  | proposed p => exact absurd hreporting (h.reporting p).1
  | admitted p => exact absurd hreporting (h.reporting p).2
  | _ => exact hsame rfl rfl rfl (by simp)

/-- **Every turn leaves the reads undisturbed.** -/
theorem Undisturbed.step (hu : u.IsQuiet) (h : x.Undisturbed u s) (turn : Turn) :
    (x.step u turn).Undisturbed u s := by
  cases turn with
  | reader => exact h.stepReader hu
  | reporter => exact h.stepReporter hu
  | coordinator =>
      obtain ⟨stage, hstage⟩ := exists_stepCoordinator_eq x
      rw [Execution.step, hstage]
      exact ⟨h.reporting, h.stopPosition, h.reads⟩

theorem Undisturbed.runSchedule (hu : u.IsQuiet) (h : x.Undisturbed u s) (schedule : List Turn) :
    (x.runSchedule u schedule).Undisturbed u s :=
  runSchedule_of_step (fun turn h => h.step hu turn) schedule h

theorem undisturbed_start (u : Setup S α) (s : S) : (start s).Undisturbed u s :=
  ⟨by simp [start], rfl, [], s, .nothing, rfl, rfl, rfl⟩

/-- **If nobody interferes, the reads decide.** Under every schedule an execution that has a result
has handed over the elements of reads one after the other, up to a read that gives none, and that
read decides what the result is. -/
theorem result_of_isQuiet (hu : u.IsQuiet) {schedule : List Turn}
    {result : Except WorkerError Summary}
    (hresult : ((start s).runSchedule u schedule).result? u = some result) :
    ∃ ds before outcome reader, u.reader.Yields s ds before ∧
      u.reader.tryNext before = (outcome, reader) ∧ (∀ d, outcome ≠ .value (some d)) ∧
      ((start s).runSchedule u schedule).handed = ds.map Delivered.element ∧
      result = u.resultBehind ds reader outcome := by
  have h := (undisturbed_start u s).runSchedule hu schedule
  generalize (start s).runSchedule u schedule = x at h hresult
  obtain ⟨ds, before, hyields, hbehind, hhanded, hcounters⟩ := h.reads
  obtain ⟨hdone, e, hover, -⟩ := of_result?_eq_some hresult
  rw [hover] at hbehind hhanded hcounters
  rw [result?, hdone, hover] at hresult
  obtain ⟨delivered, outcome, hread, hend⟩ := hbehind
  refine ⟨ds, before, outcome, x.operation.reader, hyields, hread, ?_, ?_, ?_⟩
  · rintro d rfl
    cases hend
  · rw [← hhanded]
    exact (List.append_nil _).symm
  · -- The three ends of the reading task are the three reads that give no element.
    rcases outcome with (_ | d) | e | text <;> cases hend <;> cases hresult
    · simp only [summary, Setup.resultBehind, h.stopPosition, ← hcounters]
      rfl
    · rfl
    · rfl

/-- **If nobody interferes, the schedule makes no difference** for the result and for what is handed
over. -/
theorem result_unique_of_isQuiet (hu : u.IsQuiet) {a b : List Turn}
    {result result' : Except WorkerError Summary}
    (ha : ((start s).runSchedule u a).result? u = some result)
    (hb : ((start s).runSchedule u b).result? u = some result') :
    result = result' ∧
      ((start s).runSchedule u a).handed = ((start s).runSchedule u b).handed := by
  obtain ⟨ds, before, outcome, reader, hyields, hread, hnone, hhanded, rfl⟩ :=
    result_of_isQuiet hu ha
  obtain ⟨es, before', outcome', reader', hyields', hread', hnone', hhanded', rfl⟩ :=
    result_of_isQuiet hu hb
  obtain ⟨rfl, rfl⟩ := hyields.unique_of_none hyields'
    (by rw [hread]; exact hnone) (by rw [hread']; exact hnone')
  rw [hread] at hread'
  cases hread'
  exact ⟨rfl, hhanded.trans hhanded'.symm⟩

end Execution

theorem WorkItem.isQuiet_setup_silent (files : Files) (workerId : String) (w : WorkItem) :
    (w.setup files workerId (fun _ _ => .accept) .silent).IsQuiet :=
  ⟨fun _ _ => rfl, by rintro _ _ _ ⟨⟩⟩

end SplitReader
