import SplitReader.Proofs.ByteRecords
import SplitReader.Proofs.HeldReports
import SplitReader.Proofs.RecordExecution

/-! # Which in-memory work items can be worked on

An in-memory work item is at fault if a record that should have one byte for every character holds a
larger one, or if its bounds name no range of its records. Both are found when its source is built,
before there is a reader, so such an item hands nothing over and sends no report.

Nothing else can go wrong as long as the sink takes every record. The records of a range are there
and raw bytes are always decoded, and whatever the control plane answers, loses or proposes can only
move the end of the range. So under every schedule the result is a summary
(`exists_ok_of_result?`), and the two faults are exactly the cases in which it is not
(`summary_iff_accepted`).
-/

set_option autoImplicit false

namespace SplitReader

/-! ## Ranges of lists -/

namespace MemorySource

theorem new_cases (records : List (List UInt8)) (low high : Option Int) :
    (∃ range, resolveBounds records.length low high = .ok range ∧
        new records low high = .ok ⟨records, range.1, range.2⟩) ∨
      ((∀ range, resolveBounds records.length low high ≠ .ok range) ∧
        ∃ e, new records low high = .error (.invalidArgument e)) := by
  unfold new
  cases hresolve : resolveBounds records.length low high with
  | ok range => exact Or.inl ⟨range, rfl, rfl⟩
  | error e =>
      right
      constructor
      · rintro range ⟨⟩
      · exact ⟨_, rfl⟩

end MemorySource

/-! ## Sources of work items -/

namespace SourceSpec

/-- Records in an encoding and bounds describe a range: the records stand for bytes, and the bounds
name a range of them. -/
def IsAccepted (records : List String) (encoding : RecordEncoding) (start stop : Option Int64) :
    Prop :=
  (encoding = .utf8 ∨ MemorySource.HoldBytes records) ∧
    ∃ range, resolveBounds records.length (start.map Int64.toInt) (stop.map Int64.toInt) = .ok range

/-- What comes of building a source that is built exactly under some condition: a range inside its
records, or else the error of an invalid argument. -/
inductive BuiltIf (condition : Prop) : Except SourceError Source → Prop where
  | built (h : condition) (s : MemorySource) (hle : s.start ≤ s.stop)
      (hstop : s.stop ≤ s.records.length) : BuiltIf condition (.ok (.memory s))
  | refused (h : ¬ condition) (e : ArgumentError) : BuiltIf condition (.error (.invalidArgument e))

variable {records : List String} {encoding : RecordEncoding} {start stop : Option Int64}

/-- Records that stand for bytes leave only the bounds to judge. -/
theorem builtIf_new {rs : List (List UInt8)} (hlength : rs.length = records.length)
    (hencoding : encoding = .utf8 ∨ MemorySource.HoldBytes records) :
    BuiltIf (IsAccepted records encoding start stop)
      ((MemorySource.new rs (start.map Int64.toInt) (stop.map Int64.toInt)).map .memory) := by
  rcases MemorySource.new_cases rs (start.map Int64.toInt) (stop.map Int64.toInt) with
    ⟨range, hrange, hnew⟩ | ⟨hnone, e, hfault⟩
  · obtain ⟨-, hle, hstop⟩ := MemorySource.new_eq_ok hnew
    rw [hlength] at hrange
    rw [hnew]
    exact .built ⟨hencoding, range, hrange⟩ _ hle hstop
  · rw [hlength] at hnone
    rw [hfault]
    exact .refused (fun ⟨_, range, hrange⟩ => hnone range hrange) e

/-- **An in-memory source is built exactly if it is accepted.** -/
theorem builtIf_source (files : Files) (records : List String) (encoding : RecordEncoding)
    (start stop : Option Int64) :
    BuiltIf (IsAccepted records encoding start stop)
      ((inMemory records encoding start stop).source files) := by
  -- Either encoding leaves the number of records as it is, and with it what the bounds name.
  cases encoding with
  | utf8 => exact builtIf_new (List.length_map _) (Or.inl rfl)
  | byteString =>
      rcases MemorySource.bytesOfRecords_cases 0 records with
        ⟨hbytes, hrecords⟩ | ⟨hlarge, e, hfault⟩
      · simp only [source, MemorySource.ofByteStrings, hrecords]
        exact builtIf_new (List.length_map _) (Or.inr hbytes)
      · simp only [source, MemorySource.ofByteStrings, hfault, Except.map]
        refine .refused ?_ e
        rintro ⟨hutf8 | hbytes, -⟩
        · cases hutf8
        · exact hlarge hbytes

end SourceSpec

/-! ## Executions over raw records -/

theorem Decoder.isSome_decodeAll_bytes (records : List (List UInt8)) :
    (Codec.bytes.decoder.decodeAll records ()).isSome = true := by
  induction records with
  | nil => rfl
  | cons bytes records ih =>
      show ((Codec.bytes.decoder.decodeAll records ()).map _).isSome = true
      rw [Option.isSome_map]
      exact ih

/-- The reading task of an execution in step ends by exhaustion, so its result is a summary. -/
theorem Execution.exists_ok_of_result? {σ α : Type} {u : Setup (RangeReader × σ) α}
    {decoder : Decoder σ α} {source : MemorySource} {codec : σ} {x : Execution (RangeReader × σ) α}
    {result : Except WorkerError Summary} (h : Consistent u decoder source codec x)
    (hresult : x.result? u = some result) : ∃ summary, result = .ok summary := by
  obtain ⟨-, e, hover, hsummary⟩ := of_result?_eq_some hresult
  obtain ⟨⟨n, hn⟩, -⟩ := h.inStep.ended e (Or.inr hover)
  exact ⟨_, hsummary n hn⟩

/-! ## Work items -/

namespace WorkItem

open Execution

/-- The work on an item can come to an outcome: a reader is refused, and then there is nothing but
the refusal, or it is executed under some schedule until there is a result. -/
inductive Reaches (files : Files) (workerId : String) (sink : Nat → List UInt8 → Verdict)
    (control : ControlPlane) (w : WorkItem) : Outcome → Prop where
  | refused {e : WorkerError} (hopen : w.openReader files = .error e) :
      Reaches files workerId sink control w { result := .error e, handed := [], reports := [] }
  | executed {reader : RawReader} {schedule : List Turn} {result : Except WorkerError Summary}
      (hopen : w.openReader files = .ok reader)
      (hresult : ((Execution.start reader).runSchedule (w.setup files workerId sink control)
        schedule).result? (w.setup files workerId sink control) = some result) :
      Reaches files workerId sink control w
        { result
          handed := ((Execution.start reader).runSchedule
            (w.setup files workerId sink control) schedule).handed
          reports := ((Execution.start reader).runSchedule
            (w.setup files workerId sink control) schedule).reports }

variable {files : Files} {workerId : String} {sink : Nat → List UInt8 → Verdict}
  {control : ControlPlane} {w : WorkItem}

theorem reaches_run (files : Files) (workerId : String) (sink : Nat → List UInt8 → Verdict)
    (control : ControlPlane) {due : Nat → Nat} {dueInAll : Nat} (hdue : ∀ n, due n ≤ dueInAll)
    (w : WorkItem) :
    w.Reaches files workerId sink control (w.run files workerId sink control due dueInAll) := by
  cases hopen : w.openReader files with
  | error e =>
      have hrun : w.run files workerId sink control due dueInAll =
          { result := .error e, handed := [], reports := [] } := by
        simp only [run, hopen]
      rw [hrun]
      exact .refused hopen
  | ok reader =>
      obtain ⟨schedule, result, hresult, hrun⟩ :=
        exists_run_eq hopen workerId sink control due dueInAll hdue
      rw [hrun]
      exact .executed hopen hresult

/-- **An accepted range of records is read under every schedule** to a summary, if the sink takes
every record. -/
theorem exists_ok_of_reaches {s : MemorySource} {outcome : Outcome}
    (hsource : w.source.source files = .ok (.memory s)) (hle : s.start ≤ s.stop)
    (hstop : s.stop ≤ s.records.length) (hsink : ∀ n bytes, sink n bytes = .accept)
    (h : w.Reaches files workerId sink control outcome) :
    ∃ summary, outcome.result = .ok summary := by
  have hreader : w.openReader files = .ok (s.reader, ()) := by
    simp only [openReader, hsource, Source.reader]
  -- A sink that takes everything is the one that executions over records are about.
  have hsetup : w.setup files workerId sink control =
      recordSetup files Codec.bytes.decoder control ⟨w.id, workerId⟩ := by
    have hall : sink = fun _ _ => .accept := by
      funext n bytes
      exact hsink n bytes
    rw [hall]
    rfl
  cases h with
  | refused hopen =>
      rw [hreader] at hopen
      cases hopen
  | @executed reader schedule result hopen hresult =>
      rw [hreader] at hopen
      cases hopen
      rw [hsetup] at hresult
      have hfirst := consistent_start (recordSetup files Codec.bytes.decoder control ⟨w.id, workerId⟩)
        hle hstop (Decoder.isSome_decodeAll_bytes _)
      exact exists_ok_of_result? (hfirst.runSchedule schedule) hresult

/-- **The work on an in-memory item has a summary exactly if the item is accepted.** For every
in-memory item, every sink that takes every record and every control plane: whatever the work on it
comes to, it is a summary if and only if the records stand for bytes in their encoding and the
bounds name a range of them. In every other case it is the error of an invalid argument of the
source, no record has reached the sink and no report was sent. The work does come to something: it
is refused, or every fair execution has a result some time, and so has the work as it is run. -/
theorem summary_iff_accepted (id : String) (records : List String) (encoding : RecordEncoding)
    (start stop : Option Int64) (files : Files) (workerId : String)
    {sink : Nat → List UInt8 → Verdict} (hsink : ∀ n bytes, sink n bytes = .accept)
    (control : ControlPlane) :
    let w : WorkItem := ⟨id, .inMemory records encoding start stop⟩
    let isAccepted : Prop :=
      (encoding = .utf8 ∨ ∀ s ∈ records, ∀ c ∈ s.toList, c.toNat ≤ 0xFF) ∧
        ∃ range, resolveBounds records.length (start.map Int64.toInt) (stop.map Int64.toInt) =
          .ok range
    (∀ outcome, w.Reaches files workerId sink control outcome →
      ((∃ summary, outcome.result = .ok summary) ↔ isAccepted) ∧
      (¬ isAccepted → (∃ e, outcome.result = .error (.source (.invalidArgument e))) ∧
        outcome.handed = [] ∧ outcome.reports = [])) ∧
      (∀ reader, w.openReader files = .ok reader →
        ∀ turns, Fair (w.setup files workerId sink control) (Execution.start reader) turns →
          ∃ n, ((trace (w.setup files workerId sink control) (Execution.start reader) turns
            n).result? (w.setup files workerId sink control)).isSome = true) ∧
      ∀ due dueInAll, (∀ n, due n ≤ dueInAll) →
        w.Reaches files workerId sink control
          (w.run files workerId sink control due dueInAll) := by
  intro w isAccepted
  refine ⟨fun outcome houtcome => ?_, fun reader _ turns hfair => ?_, fun due dueInAll hdue => ?_⟩
  · -- The item is accepted exactly if its source is built, and a source of records always opens.
    have hbuilt := SourceSpec.builtIf_source files records encoding start stop
    generalize hsource : (SourceSpec.inMemory records encoding start stop).source files = built
      at hbuilt
    rcases hbuilt with ⟨haccepted, s, hle, hstop⟩ | ⟨hrefused, e⟩
    · have hok := exists_ok_of_reaches hsource hle hstop hsink houtcome
      exact ⟨iff_of_true hok haccepted, fun hrefused => absurd haccepted hrefused⟩
    · have hreader : w.openReader files = .error (.source (.invalidArgument e)) := by
        simp only [w, openReader, hsource]
      cases houtcome with
      | refused hopen =>
          rw [hreader] at hopen
          cases hopen
          refine ⟨iff_of_false ?_ hrefused, fun _ => ⟨⟨e, rfl⟩, rfl, rfl⟩⟩
          rintro ⟨summary, ⟨⟩⟩
      | executed hopen hresult =>
          rw [hreader] at hopen
          cases hopen
  · exact hfair.exists_result (RangeReader.bounded_narrowing files Codec.bytes.decoder)
  · exact reaches_run files workerId sink control hdue w

/-- The control plane that proposes to stop before the second record, and then loses reports. -/
def proposesOnce : ControlPlane := fun sent _ =>
  if sent.isEmpty then .propose (.ofPosition (.recordIndex 1)) else .failed "lost"

/-- Two small letters are worked on, with a bound before the second one and whatever the control
plane does: the byte of the first one is handed over. A letter past the last byte in the second
record, which lies outside the bounds, is a fault that leaves nothing behind. -/
theorem summary_iff_accepted_letters :
    let run (records : List String) : Outcome :=
      WorkItem.run {} "worker" (fun _ _ => .accept) proposesOnce (fun n => min n 2) 2
        ⟨"item", .inMemory records .byteString (some 0) (some 1)⟩
    ((∃ summary, (run ["é", "ÿ"]).result = .ok summary) ∧ (run ["é", "ÿ"]).handed = [[0xE9]]) ∧
      (∃ e, (run ["é", "Ā"]).result = .error (.source (.invalidArgument e))) ∧
      (run ["é", "Ā"]).handed = [] ∧ (run ["é", "Ā"]).reports = [] := by
  have hdue : ∀ n, (fun n => min n 2) n ≤ 2 := by
    intro n
    exact Nat.min_le_right n 2
  obtain ⟨hgood, -, hruns⟩ := summary_iff_accepted "item" ["é", "ÿ"] .byteString (some 0) (some 1) {}
    "worker" (fun _ _ => rfl) proposesOnce
  obtain ⟨hbad, -, hruns'⟩ := summary_iff_accepted "item" ["é", "Ā"] .byteString (some 0) (some 1) {}
    "worker" (fun _ _ => rfl) proposesOnce
  refine ⟨⟨?_, by decide +kernel⟩, ?_⟩
  · exact (hgood _ (hruns _ 2 hdue)).1.mpr ⟨Or.inr (by simp), (0, 1), by rfl⟩
  · refine (hbad _ (hruns' _ 2 hdue)).2 ?_
    rintro ⟨hencoding, -⟩
    simp at hencoding

end WorkItem

end SplitReader
