import SplitReader.Proofs.ByteRecords
import SplitReader.Proofs.ItemJson
import SplitReader.Proofs.MemoryReader
import SplitReader.Proofs.QuietExecution

/-! # Records of any bytes travel in work items

A record of any bytes is carried in a work item with one character for every byte. The text of the
work item is UTF-8 and escapes some of these characters, so a byte takes one, two or six bytes on
its way; read back it is the same character and the same byte. If nobody interferes, the work on
such an item hands over exactly the records that were put into it, and counts their bytes, not those
of their texts (`deliver_byteStrings`).
-/

set_option autoImplicit false

namespace SplitReader

/-! ## Sources -/

namespace MemorySource

/-- Byte strings without bounds are all their records. -/
theorem ofByteStrings_byteStrings (records : List (List UInt8)) :
    ofByteStrings (records.map byteString) none none = .ok ⟨records, 0, records.length⟩ := by
  rw [ofByteStrings, bytesOfRecords_byteStrings]
  rfl

end MemorySource

/-! ## Reads of all records -/

/-- Reads one after the other give the records of the range in order, and keep its end. -/
theorem MemorySource.yields {files : Files} {source : MemorySource} {s : RangeReader × Unit}
    {ds : List (Delivered (List UInt8))} (hle : source.start ≤ source.stop)
    (hstop : source.stop ≤ source.records.length)
    (hyields : (RangeReader.bounded files Codec.bytes.decoder).Yields (source.reader, ()) ds s) :
    s.1.ReadsRecords source.records ∧ s.1.tracker.window.stop = source.stop ∧
      source.start ≤ s.1.tracker.window.index ∧
      ds = (recordsIn source.records source.start s.1.tracker.window.index).map
        fun bytes => ⟨bytes, bytes.length⟩ := by
  induction hyields with
  | nothing =>
      refine ⟨readsRecords_reader hle hstop, rfl, Nat.le_refl _, ?_⟩
      show [] = (recordsIn source.records source.start source.start).map _
      rw [recordsIn_self, List.map_nil]
  | @more ds d s' s'' _ hread ih =>
      obtain ⟨hreads, hend, hfirst, hds⟩ := ih
      have hreads' := hreads.tryNext hread
      cases RangeReader.recordRead hreads hread with
      | decoded hlt hbytes hdecode =>
          cases hdecode
          refine ⟨hreads', hend, Nat.le_succ_of_le hfirst, ?_⟩
          simp only [recordsIn_succ hbytes hfirst, List.map_append, ← hds, List.map_cons,
            List.map_nil]
      | undecoded crashed hlt hbytes hdecode hmiss hnone => exact absurd rfl (hnone _)

/-- The work has handed over some records, and its result is a summary that counts them. -/
structure Execution.HasDelivered (records : List (List UInt8)) (result : Except WorkerError Summary)
    (handed : List (List UInt8)) : Prop where
  handed : handed = records
  summary : ∃ summary, result = .ok summary ∧ summary.elementsRead = .ofNat records.length ∧
    summary.bytesRead = .ofNat records.flatten.length

/-- **Under every schedule all records of a range are handed over**, if nobody interferes, and the
result is no fault. -/
theorem Execution.hasDelivered_recordsIn {files : Files}
    {u : Setup (RangeReader × Unit) (List UInt8)} {source : MemorySource} (hu : u.IsQuiet)
    (hreader : u.reader = RangeReader.bounded files Codec.bytes.decoder)
    (hle : source.start ≤ source.stop) (hstop : source.stop ≤ source.records.length)
    {schedule : List Turn} {result : Except WorkerError Summary}
    (hresult : ((start (source.reader, ())).runSchedule u schedule).result? u = some result) :
    HasDelivered (recordsIn source.records source.start source.stop) result
      ((start (source.reader, ())).runSchedule u schedule).handed := by
  obtain ⟨ds, before, outcome, reader, hyields, hread, hnone, hhanded, rfl⟩ :=
    result_of_isQuiet hu hresult
  rw [hreader] at hyields hread
  obtain ⟨hreads, hend, hfirst, hds⟩ := MemorySource.yields hle hstop hyields
  cases RangeReader.recordRead hreads hread with
  | exhausted hover =>
      have hall : before.1.tracker.window.index = source.stop := by
        rw [← hend]
        exact Nat.le_antisymm hreads.index_le hover
      rw [hall] at hds
      refine ⟨?_, _, rfl, ?_, ?_⟩
      · rw [hhanded, hds, List.map_map]
        exact List.map_id _
      · simp only [ReadCounters.total, hds, List.length_map]
      · simp only [ReadCounters.total, hds, List.map_map, List.length_flatten]
        rfl
  | decoded hlt hbytes hdecode => exact absurd rfl (hnone _)
  | undecoded crashed hlt hbytes hdecode hmiss =>
      cases hdecode
      exact absurd rfl (hmiss _)

/-! ## Work items -/

namespace WorkItem

open Execution

/-- The work item that carries some records with one character for every byte. -/
def ofByteStrings (id : String) (records : List (List UInt8)) : WorkItem :=
  ⟨id, .inMemory (records.map MemorySource.byteString) .byteString none none⟩

theorem openReader_ofByteStrings (files : Files) (id : String) (records : List (List UInt8)) :
    (ofByteStrings id records).openReader files =
      .ok (MemorySource.reader ⟨records, 0, records.length⟩, ()) := by
  simp only [ofByteStrings, openReader, SourceSpec.source, Option.map_none,
    MemorySource.ofByteStrings_byteStrings, Except.map, Source.reader]

/-- **Records of any bytes survive their way through a work item.** The work item that carries them
is read back from the bytes of its text. A reader of it can be opened. If the sink takes every
record and no answer to a report proposes a stop, then every execution that has a result has handed
over exactly the records, in order, and has counted them and their bytes in words. Every fair
execution has a result some time, and so has the work whatever reports are due. -/
theorem deliver_byteStrings (id : String) (records : List (List UInt8)) (files : Files)
    (workerId : String) (control : ControlPlane)
    (hcontrol : ∀ sent r p, control sent r ≠ .propose p) :
    let w := ofByteStrings id records
    let u := w.setup files workerId (fun _ _ => .accept) control
    ofBytes (Utf8.encode w.writeJson) = .ok w ∧
      (∃ reader, w.openReader files = .ok reader ∧
        (∀ schedule result, ((start reader).runSchedule u schedule).result? u = some result →
          HasDelivered records result ((start reader).runSchedule u schedule).handed) ∧
        ∀ turns, Fair u (start reader) turns →
          ∃ n, ((trace u (start reader) turns n).result? u).isSome = true) ∧
      ∀ due dueInAll, (∀ n, due n ≤ dueInAll) →
        let outcome := w.run files workerId (fun _ _ => .accept) control due dueInAll
        HasDelivered records outcome.result outcome.handed := by
  intro w u
  have hopen : w.openReader files = .ok (MemorySource.reader ⟨records, 0, records.length⟩, ()) :=
    openReader_ofByteStrings files id records
  have hu : u.IsQuiet := ⟨fun _ _ => rfl, hcontrol⟩
  have hall : recordsIn records 0 records.length = records := by
    rw [recordsIn, List.drop_zero, Nat.sub_zero, List.take_length]
  have hdelivered : ∀ schedule result,
      ((start (MemorySource.reader ⟨records, 0, records.length⟩, ())).runSchedule u
        schedule).result? u = some result →
      HasDelivered records result
        ((start (MemorySource.reader ⟨records, 0, records.length⟩, ())).runSchedule u
          schedule).handed := by
    intro schedule result hresult
    have h := hasDelivered_recordsIn hu rfl (Nat.zero_le records.length) (Nat.le_refl _) hresult
    rwa [hall] at h
  have htext : ofBytes (Utf8.encode w.writeJson) = .ok w :=
    ofBytes_encode (SourceSpec.written_inMemory_unbounded _ _)
  refine ⟨htext, ⟨_, hopen, hdelivered, ?_⟩, ?_⟩
  · intro turns hfair
    exact hfair.exists_result (RangeReader.bounded_narrowing files Codec.bytes.decoder)
  · intro due dueInAll hdue outcome
    obtain ⟨schedule, result, hresult, hrun⟩ :=
      exists_run_eq hopen workerId (fun _ _ => .accept) control due dueInAll hdue
    rw [show outcome = _ from hrun]
    exact hdelivered schedule result hresult

/-- A quote, a backslash, a control character, a byte above the ASCII ones and a record without any
byte arrive as they were, also if every report is lost. -/
theorem deliver_byteStrings_oddBytes :
    let w := ofByteStrings "odd" [[34, 92, 7], [], [255, 10]]
    let outcome := w.run {} "worker" (fun _ _ => .accept) (fun _ _ => .failed "lost")
      (fun n => min n 2) 2
    ofBytes (Utf8.encode w.writeJson) = .ok w ∧ outcome.handed = [[34, 92, 7], [], [255, 10]] ∧
      ∃ summary, outcome.result = .ok summary ∧ summary.bytesRead = 5 := by
  obtain ⟨htext, -, hrun⟩ := deliver_byteStrings "odd" [[34, 92, 7], [], [255, 10]] {} "worker"
    (fun _ _ => .failed "lost") (by rintro _ _ _ ⟨⟩)
  obtain ⟨hhanded, summary, hresult, -, hbytes⟩ := hrun (fun n => min n 2) 2 (by omega)
  exact ⟨htext, hhanded, summary, hresult, hbytes⟩

end WorkItem

end SplitReader
