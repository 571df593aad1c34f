import SplitReader.Proofs.Execution
import SplitReader.Proofs.MemoryReader

/-! # Executions over the records of a list

When all records of a range are decoded and the sink takes every element, the summary of an
execution and its last report agree with what the sink has seen, under every schedule and with
every control plane.

Two invariants carry this. While the range is read, the elements that were handed over and the one
that is on its way are the first ones of the range, the counters lack at most the record that is on
its way, and the stop is the one that was accepted last. Once the reading task is over its window is
empty, so no split is accepted any more, and whatever the last report looks at stays as it is.
-/

set_option autoImplicit false

namespace SplitReader

variable {σ α : Type}

/-! ## On its way -/

/-- The element that was read and is not handed over yet. -/
def Reading.pending : Reading α → List α
  | taken d => [d.element]
  | counted d => [d.element]
  | ready a => [a]
  | _ => []

/-- The counters as they will be when everything that was read is counted. -/
def Reading.settled : Reading α → ReadCounters → ReadCounters
  | taken d, c => c.countRecord d.byteLength
  | counted d, c => c.add 0 (.ofNat d.byteLength)
  | _, c => c

theorem ReadCounters.add_add (c : ReadCounters) (byteLength : UInt64) :
    (c.add 1 0).add 0 byteLength = c.add 1 byteLength := by
  simp [add]

namespace Execution

/-! ## The range is read in step -/

/-- An operation on a range that was opened with the decoder in some state is in step with where the
reading task stands and with the elements that were handed over. -/
structure InStep (decoder : Decoder σ α) (source : MemorySource) (codec : σ)
    (op : ReadOperation (RangeReader × σ)) (reading : Reading α) (handed : List α) : Prop where
  reads : op.reader.1.ReadsRecords source.records
  first_le : source.start ≤ op.reader.1.tracker.window.index
  stop_le : op.reader.1.tracker.window.stop ≤ source.stop
  handed : decoder.decodeAll
    (recordsIn source.records source.start op.reader.1.tracker.window.index) codec =
      some (handed ++ reading.pending, op.reader.2)
  rest : (decoder.decodeAll
    (recordsIn source.records op.reader.1.tracker.window.index source.stop)
      op.reader.2).isSome = true
  counters : reading.settled op.counters =
    .ofRange source.records source.start op.reader.1.tracker.window.index
  stopPosition : (op.stopPosition = none ∧ op.reader.1.tracker.window.stop = source.stop) ∨
    op.stopPosition = some (.recordIndex (.ofNat op.reader.1.tracker.window.stop))
  ended : ∀ e, reading = .ending e ∨ reading = .over e →
    (∃ n, e = .exhausted n) ∧
      op.reader.1.tracker.window.stop ≤ op.reader.1.tracker.window.index
  isFinished : op.isFinished = true ↔ ∃ e, reading = .over e

variable {files : Files} {decoder : Decoder σ α} {control : ControlPlane} {context : WorkContext}
  {source : MemorySource} {codec : σ}

/-- What an execution over a list of records runs on, with a sink that takes everything. -/
def recordSetup (files : Files) (decoder : Decoder σ α) (control : ControlPlane)
    (context : WorkContext) : Setup (RangeReader × σ) α where
  reader := RangeReader.bounded files decoder
  sink := fun _ _ => .accept
  control := control
  context := context

/-- Inside the window the record at the index is decoded, and so are those behind it. -/
theorem InStep.decodes {op : ReadOperation (RangeReader × σ)} {reading : Reading α}
    {handed : List α} {bytes : List UInt8} (h : InStep decoder source codec op reading handed)
    (hlt : op.reader.1.tracker.window.index < op.reader.1.tracker.window.stop)
    (hbytes : source.records[op.reader.1.tracker.window.index]? = some bytes) :
    ∃ a c, decoder.decode bytes op.reader.2 = (.value a, c) ∧
      (decoder.decodeAll (recordsIn source.records (op.reader.1.tracker.window.index + 1)
        source.stop) c).isSome = true := by
  have hrest := h.rest
  rw [recordsIn_cons hbytes (Nat.lt_of_lt_of_le hlt h.stop_le)] at hrest
  exact Decoder.of_isSome_decodeAll_cons hrest

/-- **A read keeps the range in step**: it takes the next element, or finds the end. -/
theorem inStep_readStep {x : Execution (RangeReader × σ) α} (hreading : x.reading = .start)
    (h : InStep decoder source codec x.operation x.reading x.handed) :
    let y := x.readStep (recordSetup files decoder control context)
    InStep decoder source codec y.operation y.reading y.handed := by
  rw [hreading] at h
  have hfinished : ¬ x.operation.isFinished = true := by
    rw [h.isFinished]
    rintro ⟨e, ⟨⟩⟩
  rcases hread : RangeReader.tryNext files decoder x.operation.reader with ⟨outcome, s⟩
  have hreads := h.reads.tryNext hread
  have hstep := readStep_of_tryNext (u := recordSetup files decoder control context) (x := x) hread
  simp only [hstep]
  cases RangeReader.recordRead h.reads hread with
  | exhausted hover =>
      refine ⟨h.reads, h.first_le, h.stop_le, h.handed, h.rest, h.counters, h.stopPosition, ?_, ?_⟩
      · rintro e (⟨⟨⟩⟩ | ⟨⟨⟩⟩)
        exact ⟨⟨x.delivered, rfl⟩, hover⟩
      · exact ⟨fun hf => absurd hf hfinished, by rintro ⟨e, ⟨⟩⟩⟩
  | decoded hlt hbytes hdecode =>
      obtain ⟨a, c, hvalue, hrest⟩ := h.decodes hlt hbytes
      rw [hdecode] at hvalue
      cases hvalue
      refine ⟨hreads, Nat.le_succ_of_le h.first_le, h.stop_le, ?_, hrest, ?_, h.stopPosition,
        ?_, ?_⟩
      · have hhanded := Decoder.decodeAll_concat hdecode _ h.handed
        have hnone : x.handed ++ (Reading.start : Reading α).pending = x.handed :=
          List.append_nil _
        rw [← recordsIn_succ hbytes h.first_le, hnone] at hhanded
        exact hhanded
      · have hcounters : x.operation.counters = .ofRange source.records source.start
            x.operation.reader.1.tracker.window.index := h.counters
        rw [← ReadCounters.countRecord_ofRange hbytes h.first_le, ← hcounters]
        rfl
      · rintro e (⟨⟨⟩⟩ | ⟨⟨⟩⟩)
      · exact ⟨fun hf => absurd hf hfinished, by rintro ⟨e, ⟨⟩⟩⟩
  | undecoded crashed hlt hbytes hdecode hmiss =>
      -- The records of the range can all be decoded, from the codec that stands before this one.
      obtain ⟨a, c, hvalue, -⟩ := h.decodes hlt hbytes
      rw [hdecode] at hvalue
      cases hvalue
      exact absurd rfl (hmiss a)

/-- The reading task has not found the end. -/
def IsRunning (reading : Reading α) : Prop := ∀ e, reading ≠ .ending e ∧ reading ≠ .over e

/-- Handing over and counting what is on its way keeps the range in step. -/
theorem InStep.move {op : ReadOperation (RangeReader × σ)} {reading reading' : Reading α}
    {handed handed' : List α} (h : InStep decoder source codec op reading handed)
    (counters : ReadCounters) (hrunning : IsRunning reading) (hrunning' : IsRunning reading')
    (hhanded : handed' ++ reading'.pending = handed ++ reading.pending)
    (hcounters : reading'.settled counters = reading.settled op.counters) :
    InStep decoder source codec { op with counters } reading' handed' := by
  refine ⟨h.reads, h.first_le, h.stop_le, hhanded ▸ h.handed, h.rest,
    hcounters.trans h.counters, h.stopPosition, ?_, ?_⟩
  · rintro e (he | he)
    · exact absurd he (hrunning' e).1
    · exact absurd he (hrunning' e).2
  · constructor
    · intro hf
      obtain ⟨e, he⟩ := h.isFinished.mp hf
      exact absurd he (hrunning e).2
    · rintro ⟨e, he⟩
      exact absurd he (hrunning' e).2

/-- **A turn of the reading task keeps the range in step.** -/
theorem inStep_stepReader {x : Execution (RangeReader × σ) α}
    (h : InStep decoder source codec x.operation x.reading x.handed) :
    let y := x.stepReader (recordSetup files decoder control context)
    InStep decoder source codec y.operation y.reading y.handed := by
  unfold stepReader
  cases hreading : x.reading with
  | start => exact inStep_readStep hreading h
  | taken d =>
      rw [hreading] at h
      exact h.move _ (by simp [IsRunning]) (by simp [IsRunning]) rfl (ReadCounters.add_add _ _)
  | counted d =>
      rw [hreading] at h
      exact h.move _ (by simp [IsRunning]) (by simp [IsRunning]) rfl rfl
  | ready a =>
      rw [hreading] at h
      exact h.move _ (by simp [IsRunning]) (by simp [IsRunning]) (List.append_nil _) rfl
  | held a =>
      rw [hreading] at h
      -- The sink takes the element, whatever it is.
      show InStep decoder source codec x.operation .start x.handed
      exact h.move _ (by simp [IsRunning]) (by simp [IsRunning]) rfl rfl
  | ending e =>
      rw [hreading] at h
      refine ⟨h.reads, h.first_le, h.stop_le, h.handed, h.rest, h.counters, h.stopPosition, ?_, ?_⟩
      · rintro e' (⟨⟨⟩⟩ | ⟨⟨⟩⟩)
        exact h.ended e (Or.inl rfl)
      · exact ⟨fun _ => ⟨e, rfl⟩, fun _ => rfl⟩
  | «over» e => exact h

/-- **A split keeps the range in step**, and its stop is remembered. -/
theorem InStep.applySplit {op : ReadOperation (RangeReader × σ)} {reading : Reading α}
    {handed : List α} (h : InStep decoder source codec op reading handed)
    (files : Files) (proposed : Progress) :
    InStep decoder source codec
      (op.applySplit (RangeReader.bounded files decoder) proposed).2 reading handed := by
  unfold ReadOperation.applySplit
  split
  · next position s hsplit =>
    obtain ⟨hr, hcodec⟩ := RangeReader.bounded_trySplit_eq_ok_iff.mp hsplit
    have hreads := h.reads.trySplit hr
    obtain ⟨offset, -, -, hlo, hhi, hposition, hs⟩ := RangeReader.trySplit_eq_ok_iff.mp hr
    obtain ⟨r, c⟩ := s
    simp only at hs hcodec hreads
    subst hs hcodec
    have hstop := h.stop_le
    refine ⟨hreads, h.first_le, by simp only; omega, h.handed, h.rest, h.counters, Or.inr ?_,
      fun e he => ?_, h.isFinished⟩
    · simp only [hposition, h.reads.kind]
      rfl
    · -- Where the end was found there is no room for a split.
      obtain ⟨-, hover⟩ := h.ended e he
      omega
  · exact h

/-- Nothing is split any more once the reading task is over. -/
theorem InStep.applySplit_of_over {op : ReadOperation (RangeReader × σ)} {e : TaskEnd}
    {handed : List α} (h : InStep decoder source codec op (.over e) handed)
    (files : Files) (proposed : Progress) :
    (op.applySplit (RangeReader.bounded files decoder) proposed).2 = op := by
  unfold ReadOperation.applySplit
  split
  · next position s hsplit =>
    obtain ⟨hr, -⟩ := RangeReader.bounded_trySplit_eq_ok_iff.mp hsplit
    obtain ⟨offset, -, -, hlo, hhi, -, -⟩ := RangeReader.trySplit_eq_ok_iff.mp hr
    obtain ⟨-, hover⟩ := h.ended e (Or.inr rfl)
    omega
  · rfl

/-! ## The last report agrees -/

/-- What the reporting task has looked at, or has sent, is how the operation is. -/
def Agrees {S : Type} (u : Setup S α) (op : ReadOperation S) (reports : List ProgressReport) :
    Reporting → Prop
  | .idle => True
  | .withProgress p => p = op.progress u.reader
  | .withElements p n => p = op.progress u.reader ∧ n = op.counters.elements
  | .withBytes p n b =>
      p = op.progress u.reader ∧ n = op.counters.elements ∧ b = op.counters.bytes
  | .withStop p n b stop =>
      p = op.progress u.reader ∧ n = op.counters.elements ∧ b = op.counters.bytes ∧
        stop = op.stopPosition
  | .composed report => report = op.report u.reader u.context
  | .proposed _ => reports.getLast? = some (op.report u.reader u.context)
  | .admitted _ => reports.getLast? = some (op.report u.reader u.context)

/-- While the operation does not change and is marked as finished, a turn of the reporting task
leads to a last report that agrees. -/
theorem agrees_stepReporter {S : Type} {u : Setup S α} {x : Execution S α}
    (hagrees : Agrees u x.operation x.reports x.reporting) (hstage : x.stage = .final)
    (hfinished : x.operation.isFinished = true)
    (hsame : (x.stepReporter u).operation = x.operation) :
    let y := x.stepReporter u
    (y.stage = .final → Agrees u y.operation y.reports y.reporting) ∧
      (y.stage = .done → y.reporting = .idle ∧
        y.reports.getLast? = some (y.operation.report u.reader u.context)) := by
  intro y
  have hoperation : y.operation = x.operation := hsame
  rw [hoperation]
  rw [show y = x.stepReporter u from rfl, stepReporter]
  cases hreporting : x.reporting with
  | idle => simp [hstage, Agrees]
  | withProgress p =>
      rw [hreporting] at hagrees
      obtain rfl := hagrees
      simp [hstage, Agrees]
  | withElements p n =>
      rw [hreporting] at hagrees
      obtain ⟨rfl, rfl⟩ := hagrees
      simp [hstage, Agrees]
  | withBytes p n b =>
      rw [hreporting] at hagrees
      obtain ⟨rfl, rfl, rfl⟩ := hagrees
      simp [hstage, Agrees]
  | withStop p n b stop =>
      rw [hreporting] at hagrees
      obtain ⟨rfl, rfl, rfl, rfl⟩ := hagrees
      simp [hstage, Agrees, ReadOperation.report]
  | composed report =>
      rw [hreporting] at hagrees
      obtain rfl := hagrees
      -- The report that is sent is the report on the operation as it is.
      simp only [sendStep]
      split
      · simp [hstage, Agrees]
      · simp [settle, hstage]
      · simp [settle, hstage]
  | proposed p =>
      rw [hreporting] at hagrees
      simpa [Agrees, settle, hstage, hfinished] using hagrees
  | admitted p =>
      rw [hreporting] at hagrees
      simpa [Agrees, settle, hstage] using hagrees

/-- An execution reads its range in step, and its last report agrees with how the operation is in
the end. -/
structure Consistent (u : Setup (RangeReader × σ) α) (decoder : Decoder σ α)
    (source : MemorySource) (codec : σ) (x : Execution (RangeReader × σ) α) : Prop where
  inStep : InStep decoder source codec x.operation x.reading x.handed
  ended : x.stage ≠ .periodic → ∃ e, x.reading = .over e
  final : x.stage = .final → Agrees u x.operation x.reports x.reporting
  done : x.stage = .done → x.reporting = .idle ∧
    x.reports.getLast? = some (x.operation.report u.reader u.context)

theorem Consistent.stepReader {x : Execution (RangeReader × σ) α}
    (h : Consistent (recordSetup files decoder control context) decoder source codec x) :
    Consistent (recordSetup files decoder control context) decoder source codec
      (x.stepReader (recordSetup files decoder control context)) := by
  obtain ⟨hreporting, hstage⟩ := reporting_stepReader (recordSetup files decoder control context) x
  by_cases hx : x.stage = .periodic
  · have hperiodic := hstage.trans hx
    refine ⟨inStep_stepReader h.inStep, fun hne => absurd hperiodic hne, ?_, ?_⟩
    · intro hfinal
      rw [hperiodic] at hfinal
      cases hfinal
    · intro hdone
      rw [hperiodic] at hdone
      cases hdone
  · -- The reading task is over, and its turn changes nothing.
    obtain ⟨e, he⟩ := h.ended hx
    rw [stepReader_of_over he]
    exact h

theorem Consistent.stepCoordinator {u : Setup (RangeReader × σ) α}
    {x : Execution (RangeReader × σ) α} (h : Consistent u decoder source codec x) :
    Consistent u decoder source codec x.stepCoordinator := by
  by_cases hclose : x.CanClose
  · rw [stepCoordinator_of_canClose hclose]
    obtain ⟨hover, hidle, -⟩ := hclose
    refine ⟨h.inStep, fun _ => hover, fun _ => ?_, ?_⟩
    · show Agrees u x.operation x.reports x.reporting
      rw [hidle]
      trivial
    · rintro ⟨⟩
  · rw [stepCoordinator_of_not_canClose hclose]
    exact h

theorem Consistent.stepReporter {x : Execution (RangeReader × σ) α}
    (h : Consistent (recordSetup files decoder control context) decoder source codec x) :
    Consistent (recordSetup files decoder control context) decoder source codec
      (x.stepReporter (recordSetup files decoder control context)) := by
  obtain ⟨hreading, hhanded⟩ := reading_stepReporter (recordSetup files decoder control context) x
  have hoperation := operation_stepReporter (recordSetup files decoder control context) x
  have hinStep : InStep decoder source codec
      (x.stepReporter (recordSetup files decoder control context)).operation
      (x.stepReporter (recordSetup files decoder control context)).reading
      (x.stepReporter (recordSetup files decoder control context)).handed := by
    rw [hreading, hhanded]
    rcases hoperation with hsame | ⟨p, hsplit⟩
    · rw [hsame]
      exact h.inStep
    · rw [hsplit]
      exact h.inStep.applySplit files p
  cases hx : x.stage with
  | periodic =>
      have hperiodic : (x.stepReporter (recordSetup files decoder control context)).stage =
          .periodic := by
        rw [stage_stepReporter _ (by simp [hx]), hx]
      refine ⟨hinStep, fun hne => absurd hperiodic hne, ?_, ?_⟩
      · intro hfinal
        rw [hperiodic] at hfinal
        cases hfinal
      · intro hdone
        rw [hperiodic] at hdone
        cases hdone
  | final =>
      obtain ⟨e, he⟩ := h.ended (by simp [hx])
      -- The task is over and has not crashed, so the operation is marked and takes no stop.
      have hfinished := h.inStep.isFinished.mpr ⟨e, he⟩
      have hfrozen : InStep decoder source codec x.operation (.over e) x.handed :=
        he ▸ h.inStep
      have hsame : (x.stepReporter (recordSetup files decoder control context)).operation =
          x.operation := by
        rcases hoperation with hsame | ⟨p, hsplit⟩
        · exact hsame
        · exact hsplit.trans (hfrozen.applySplit_of_over files p)
      obtain ⟨hfinal, hdone⟩ := agrees_stepReporter (h.final hx) hx hfinished hsame
      exact ⟨hinStep, fun _ => ⟨e, hreading.trans he⟩, hfinal, hdone⟩
  | done =>
      rw [stepReporter_of_done _ hx (h.done hx).1]
      exact h

/-- **Every turn keeps an execution consistent.** -/
theorem Consistent.step {x : Execution (RangeReader × σ) α}
    (h : Consistent (recordSetup files decoder control context) decoder source codec x)
    (turn : Turn) :
    Consistent (recordSetup files decoder control context) decoder source codec
      (x.step (recordSetup files decoder control context) turn) := by
  cases turn with
  | reader => exact h.stepReader
  | reporter => exact h.stepReporter
  | coordinator => exact h.stepCoordinator

/-- **Under every schedule an execution is consistent.** -/
theorem Consistent.runSchedule (schedule : List Turn) :
    ∀ {x : Execution (RangeReader × σ) α},
      Consistent (recordSetup files decoder control context) decoder source codec x →
        Consistent (recordSetup files decoder control context) decoder source codec
          (x.runSchedule (recordSetup files decoder control context) schedule) :=
  runSchedule_of_step (fun turn h => h.step turn) schedule

theorem consistent_start (u : Setup (RangeReader × σ) α) (hle : source.start ≤ source.stop)
    (hstop : source.stop ≤ source.records.length)
    (hdecodes : (decoder.decodeAll (recordsIn source.records source.start source.stop)
      codec).isSome = true) :
    Consistent u decoder source codec (start (source.reader, codec)) := by
  refine ⟨⟨MemorySource.readsRecords_reader hle hstop, Nat.le_refl _, Nat.le_refl _, ?_, hdecodes,
    ?_, Or.inl ⟨rfl, rfl⟩, ?_, ?_⟩, fun hne => absurd rfl hne, ?_, ?_⟩
  · show decoder.decodeAll (recordsIn source.records source.start source.start) codec = _
    rw [recordsIn_self]
    rfl
  · simp only [start, MemorySource.reader, Tracker.new, ReadCounters.ofRange, bytesIn_self,
      Nat.sub_self]
    rfl
  · rintro e (⟨⟨⟩⟩ | ⟨⟨⟩⟩)
  · exact ⟨by rintro ⟨⟩, by rintro ⟨e, ⟨⟩⟩⟩
  · rintro ⟨⟩
  · rintro ⟨⟩

/-- **The summary and the last report agree with what the sink has seen**, for every control plane
and every schedule. If all records of an accepted range are decoded and the sink takes every
element, then an execution that has a result has a summary, for which the sink was handed exactly
the decoded records up to some record number. Up to there the records and bytes are counted, there
the reader stands, and there is the stop that was accepted last, or the end of the range if none
was; the last report says the same, and that the work is finished. Under every fair schedule there
is a result some time. -/
theorem summary_agrees (decoder : Decoder σ α) (codec : σ) {records : List (List UInt8)}
    {low high : Option Int} (hsource : MemorySource.new records low high = .ok source)
    (hdecodes : (decoder.decodeAll (recordsIn records source.start source.stop)
      codec).isSome = true)
    (files : Files) (control : ControlPlane) (context : WorkContext) :
    let u := recordSetup files decoder control context
    let first : Execution (RangeReader × σ) α := start (source.reader, codec)
    (∀ schedule result, (first.runSchedule u schedule).result? u = some result →
      ∃ past summary, result = .ok summary ∧ source.start ≤ past ∧ past ≤ source.stop ∧
        (∃ c, decoder.decodeAll (recordsIn records source.start past) codec =
          some ((first.runSchedule u schedule).handed, c)) ∧
        summary.workItemId = context.workItemId ∧
        summary.elementsRead = .ofNat (past - source.start) ∧
        summary.bytesRead = .ofNat (bytesIn records source.start past) ∧
        summary.finalProgress = .ofPosition (.recordIndex (.ofNat past)) ∧
        ((summary.stopPosition = none ∧ past = source.stop) ∨
          summary.stopPosition = some (.recordIndex (.ofNat past))) ∧
        (first.runSchedule u schedule).reports.getLast? =
          some
            { context := context
              progress := summary.finalProgress
              elementsRead := summary.elementsRead
              bytesRead := summary.bytesRead
              stopPosition := summary.stopPosition
              isFinished := true }) ∧
      ∀ turns, Fair u first turns → ∃ n, ((trace u first turns n).result? u).isSome = true := by
  obtain ⟨rfl, hle, hstop⟩ := MemorySource.new_eq_ok hsource
  intro u first
  have hfirst : Consistent u decoder source codec first := consistent_start u hle hstop hdecodes
  refine ⟨fun schedule result hresult => ?_, fun turns hfair => ?_⟩
  · have h : Consistent u decoder source codec (first.runSchedule u schedule) :=
      hfirst.runSchedule schedule
    generalize first.runSchedule u schedule = x at h hresult
    obtain ⟨hdone, e, hover, hsummary⟩ := of_result?_eq_some hresult
    have hin := h.inStep
    rw [hover] at hin
    obtain ⟨⟨n, hn⟩, hend⟩ := hin.ended e (Or.inr rfl)
    obtain ⟨-, hlast⟩ := h.done hdone
    -- A range that is exhausted is read up to its stop, wherever splits have moved that.
    have hpast : x.operation.reader.1.tracker.window.stop =
        x.operation.reader.1.tracker.window.index := Nat.le_antisymm hend hin.reads.index_le
    refine ⟨x.operation.reader.1.tracker.window.index, x.summary u, hsummary n hn, hin.first_le,
      hpast ▸ hin.stop_le, ⟨x.operation.reader.2, ?_⟩, rfl, ?_, ?_, ?_, ?_, ?_⟩
    · rw [hin.handed]
      simp [Reading.pending]
    · exact congrArg ReadCounters.elements hin.counters
    · exact congrArg ReadCounters.bytes hin.counters
    · show Progress.ofPosition (x.operation.reader.1.tracker.kind.position _) = _
      rw [hin.reads.kind]
      rfl
    · rw [← hpast]
      exact hin.stopPosition
    · rw [hlast, ReadOperation.report, hin.isFinished.mpr ⟨e, rfl⟩]
      rfl
  · exact hfair.exists_result (RangeReader.bounded_narrowing files decoder)

def threeRecords : List (List UInt8) := [[1], [2, 2], [3]]

/-- The control plane that proposes to stop before the last of three records, once. -/
def stopsBeforeLast : ControlPlane := fun sent _ =>
  if sent.isEmpty then .propose (.ofPosition (.recordIndex 2)) else .nothing

/-- What the three records are read with. -/
def lateSetup : Setup (RangeReader × Unit) (List UInt8) :=
  recordSetup {} Codec.bytes.decoder stopsBeforeLast ⟨"item", "worker"⟩

def lateStart : Execution (RangeReader × Unit) (List UInt8) :=
  start (MemorySource.reader ⟨threeRecords, 0, 3⟩, ())

/-- A split is admitted before the first record is read and judged behind it. -/
def lateSplit : List Turn :=
  List.replicate 7 .reporter ++ List.replicate 5 .reader ++ [.reporter] ++
    List.replicate 7 .reader ++ [.coordinator] ++ List.replicate 6 .reporter

def lateSplitForever (n : Nat) : Turn :=
  lateSplit.getD n (if n % 2 = 0 then .reader else .reporter)

/-- The late split ends the read before the last record, and the last report says so, too. -/
theorem summary_agrees_lateSplit :
    Fair lateSetup lateStart lateSplitForever ∧
      (∃ n, ((trace lateSetup lateStart lateSplitForever n).result? lateSetup).isSome = true) ∧
      (lateStart.runSchedule lateSetup lateSplit).result? lateSetup =
        some (.ok ⟨"item", 2, 3, .ofPosition (.recordIndex 2), some (.recordIndex 2)⟩) ∧
      (lateStart.runSchedule lateSetup lateSplit).handed = [[1], [2, 2]] ∧
      (lateStart.runSchedule lateSetup lateSplit).reports.getLast? =
        some ⟨⟨"item", "worker"⟩, .ofPosition (.recordIndex 2), 2, 3, some (.recordIndex 2),
          true⟩ := by
  have hsource : MemorySource.new threeRecords none none = .ok ⟨threeRecords, 0, 3⟩ := by
    rfl
  obtain ⟨hsafe, hlive⟩ := summary_agrees Codec.bytes.decoder () hsource (by rfl) {}
    stopsBeforeLast ⟨"item", "worker"⟩
  obtain ⟨hdone, hover, hhanded, hsummary⟩ :
      (lateStart.runSchedule lateSetup lateSplit).stage = .done ∧
        (lateStart.runSchedule lateSetup lateSplit).reading = .over (.exhausted 2) ∧
        (lateStart.runSchedule lateSetup lateSplit).handed = [[1], [2, 2]] ∧
        (lateStart.runSchedule lateSetup lateSplit).summary lateSetup =
          ⟨"item", 2, 3, .ofPosition (.recordIndex 2), some (.recordIndex 2)⟩ := by
    decide +kernel
  have hresult : (lateStart.runSchedule lateSetup lateSplit).result? lateSetup =
      some (.ok ⟨"item", 2, 3, .ofPosition (.recordIndex 2), some (.recordIndex 2)⟩) := by
    rw [result?, hdone, hover, ← hsummary]
  have hfair : Fair lateSetup lateStart lateSplitForever := by
    have hforever : ∀ n, lateSplitForever (n + 27) =
        if (n + 27) % 2 = 0 then .reader else .reporter := by
      intro n
      rw [lateSplitForever, List.getD_eq_getElem?_getD,
        List.getElem?_eq_none (Nat.le_add_left 27 n)]
      rfl
    refine ⟨fun n => ⟨2 * n + 1 + 27, by omega, ?_⟩, fun n => ⟨2 * n + 27, by omega, ?_⟩, ?_⟩
    · rw [hforever, if_pos (by omega)]
    · rw [hforever, if_neg (by omega)]
    · -- The work is done by then, and the coordinator cannot move any more.
      intro hagain
      obtain ⟨m, hm, -, -, hperiodic⟩ := hagain 27
      have hbegins : (List.range 27).map lateSplitForever = lateSplit := by
        decide
      rw [← hbegins] at hdone
      rw [done_of_le hm hdone] at hperiodic
      cases hperiodic
  obtain ⟨past, summary, hok, -, -, -, -, -, -, -, -, hlast⟩ := hsafe lateSplit _ hresult
  cases hok
  exact ⟨hfair, hlive lateSplitForever hfair, hresult, hhanded, hlast⟩

end Execution

end SplitReader
