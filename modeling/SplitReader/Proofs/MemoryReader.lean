import Mathlib.Algebra.GroupWithZero.Nat
import SplitReader.Proofs.Bounds
import SplitReader.Proofs.Decoding
import SplitReader.Proofs.RangeReader
import SplitReader.Source.Memory

/-! # Readers of the records of a list

A reader of a list whose stop is not past the end of the list always finds the record at its index
inside its window, so reads of it neither fail nor crash by themselves: what becomes of a read is
decided by the decoder.
-/

set_option autoImplicit false

namespace SplitReader

/-! ## Readers -/

namespace RangeReader

/-- A reader stands where it should on the records of a list. -/
structure ReadsRecords (records : List (List UInt8)) (r : RangeReader) : Prop where
  kind : r.tracker.kind = .recordIndex
  supply : r.supply = .records records
  index_le : r.tracker.window.index ≤ r.tracker.window.stop
  stop_le : r.tracker.window.stop ≤ records.length

variable {σ α : Type} {records : List (List UInt8)} {r : RangeReader}

/-- What a read of the records of a list gives, and where it leaves the reader and the decoder. -/
inductive RecordRead (decoder : Decoder σ α) (records : List (List UInt8)) (s : RangeReader × σ) :
    Outcome SourceError (Option (Delivered α)) → RangeReader × σ → Prop where
  | exhausted (h : s.1.tracker.window.stop ≤ s.1.tracker.window.index) :
      RecordRead decoder records s (.value none) s
  | decoded {bytes : List UInt8} {a : α} {c : σ}
      (hlt : s.1.tracker.window.index < s.1.tracker.window.stop)
      (hbytes : records[s.1.tracker.window.index]? = some bytes)
      (hdecode : decoder.decode bytes s.2 = (.value a, c)) :
      RecordRead decoder records s (.value (some ⟨a, bytes.length⟩))
        ({ s.1 with tracker := { s.1.tracker with window :=
          ⟨s.1.tracker.window.index + 1, s.1.tracker.window.stop⟩ } }, c)
  | undecoded {bytes : List UInt8} {result : Outcome CodecError α} {c : σ}
      {outcome : Outcome SourceError (Option (Delivered α))} (crashed : Bool)
      (hlt : s.1.tracker.window.index < s.1.tracker.window.stop)
      (hbytes : records[s.1.tracker.window.index]? = some bytes)
      (hdecode : decoder.decode bytes s.2 = (result, c)) (hmiss : ∀ a, result ≠ .value a)
      (hnone : ∀ d, outcome ≠ .value d) :
      RecordRead decoder records s outcome
        ({ s.1 with tracker := { s.1.tracker with crashed } }, c)

/-- **What a read does is decided by the decoder**: inside the window the record is always there. -/
theorem recordRead {files : Files} {decoder : Decoder σ α} {s s' : RangeReader × σ}
    {outcome : Outcome SourceError (Option (Delivered α))} (h : s.1.ReadsRecords records)
    (hread : RangeReader.tryNext files decoder s = (outcome, s')) :
    RecordRead decoder records s outcome s' := by
  obtain ⟨⟨tracker, supply⟩, c⟩ := s
  obtain rfl : supply = .records records := h.supply
  by_cases hlt : tracker.window.index < tracker.window.stop
  · have hinside : tracker.window.index < records.length := Nat.lt_of_lt_of_le hlt h.stop_le
    have hbytes := List.getElem?_eq_getElem hinside
    rw [tryNext_of_lt files decoder (r := ⟨tracker, .records records⟩) c hlt] at hread
    simp only [Supply.fetch, hbytes] at hread
    rcases hdecode : decoder.decode records[tracker.window.index] c with ⟨a | e | text, c'⟩ <;>
      simp only [hdecode] at hread <;>
      cases hread
    · exact .decoded hlt hbytes hdecode
    · exact .undecoded tracker.crashed hlt hbytes hdecode (by simp) (by simp)
    · exact .undecoded true hlt hbytes hdecode (by simp) (by simp)
  · have hexhausted := Nat.le_of_not_lt hlt
    rw [tryNext_of_exhausted files decoder c hexhausted] at hread
    cases hread
    exact .exhausted hexhausted

theorem ReadsRecords.tryNext {files : Files} {decoder : Decoder σ α} {s s' : RangeReader × σ}
    {outcome : Outcome SourceError (Option (Delivered α))} (h : s.1.ReadsRecords records)
    (hread : RangeReader.tryNext files decoder s = (outcome, s')) :
    s'.1.ReadsRecords records := by
  cases recordRead h hread with
  | exhausted => exact h
  | decoded hlt => exact ⟨h.kind, h.supply, hlt, h.stop_le⟩
  | undecoded crashed => exact ⟨h.kind, h.supply, h.index_le, h.stop_le⟩

/-- A decoder that decodes all records gives an element at every read inside the window. -/
theorem exists_tryNext_of_decodesAll (files : Files) {decoder : Decoder σ α} {s : RangeReader × σ}
    (h : s.1.ReadsRecords records) (hdecodes : decoder.DecodesAll records)
    (hlt : s.1.tracker.window.index < s.1.tracker.window.stop) :
    ∃ d s', RangeReader.tryNext files decoder s = (.value (some d), s') := by
  rcases hread : RangeReader.tryNext files decoder s with ⟨outcome, s'⟩
  cases recordRead h hread with
  | exhausted hover => exact absurd hlt (Nat.not_lt.mpr hover)
  | decoded => exact ⟨_, _, rfl⟩
  | undecoded crashed hlt hbytes hdecode hmiss =>
      obtain ⟨a, c, hvalue⟩ := hdecodes _ (List.mem_of_getElem? hbytes) s.2
      rw [hdecode] at hvalue
      cases hvalue
      exact absurd rfl (hmiss a)

theorem ReadsRecords.trySplit {r' : RangeReader} {proposed : Progress} {position : Position}
    (h : r.ReadsRecords records) (hsplit : r.trySplit proposed = .ok (position, r')) :
    r'.ReadsRecords records := by
  obtain ⟨offset, -, -, hlo, hhi, -, rfl⟩ := trySplit_eq_ok_iff.mp hsplit
  have hstop := h.stop_le
  exact ⟨h.kind, h.supply, Nat.le_of_lt hlo, by simp only; omega⟩

end RangeReader

/-! ## Counters -/

/-- The counters when the records of a range were read. -/
def ReadCounters.ofRange (records : List (List UInt8)) (first past : Nat) : ReadCounters where
  elements := .ofNat (past - first)
  bytes := .ofNat (bytesIn records first past)

theorem ReadCounters.countRecord_ofRange {records : List (List UInt8)} {first index : Nat}
    {bytes : List UInt8} (h : records[index]? = some bytes) (hle : first ≤ index) :
    (ofRange records first index).countRecord bytes.length = ofRange records first (index + 1) := by
  rw [ofRange, ofRange, bytesIn_succ h hle, Nat.succ_sub hle, ← Nat.add_one, UInt64.ofNat_add,
    UInt64.ofNat_add]
  rfl

/-- The counters when some elements were counted. -/
def ReadCounters.total {α : Type} (ds : List (Delivered α)) : ReadCounters where
  elements := .ofNat ds.length
  bytes := .ofNat (ds.map Delivered.byteLength).sum

theorem ReadCounters.countRecord_total {α : Type} (ds : List (Delivered α)) (d : Delivered α) :
    (total ds).countRecord d.byteLength = total (ds ++ [d]) := by
  simp [total, countRecord, add, UInt64.ofNat_add]

theorem ReadCounters.foldl_countRecord_total {α : Type} (es : List (Delivered α)) :
    ∀ ds : List (Delivered α),
      (es.map Delivered.byteLength).foldl (fun c n => countRecord n c) (total ds) =
        total (ds ++ es) := by
  induction es with
  | nil =>
      intro ds
      rw [List.append_nil]
      rfl
  | cons e es ih =>
      intro ds
      rw [List.map_cons, List.foldl_cons, countRecord_total, ih, List.append_assoc,
        List.singleton_append]

/-! ## Sources -/

namespace MemorySource

variable {records : List (List UInt8)} {s : MemorySource}

theorem new_eq_ok {start stop : Option Int} (h : new records start stop = .ok s) :
    s.records = records ∧ s.start ≤ s.stop ∧ s.stop ≤ records.length := by
  unfold new at h
  split at h
  · next first past hresolve =>
    cases h
    exact ⟨rfl, le_of_resolveBounds hresolve⟩
  · cases h

theorem new_of_le {start stop : Nat} (hle : start ≤ stop) (hstop : stop ≤ records.length) :
    new records (some start) (some stop) = .ok ⟨records, start, stop⟩ := by
  unfold new
  rw [resolveBounds_of_le hle hstop]

theorem readsRecords_reader (hle : s.start ≤ s.stop) (hstop : s.stop ≤ s.records.length) :
    s.reader.ReadsRecords s.records :=
  ⟨rfl, rfl, hle, hstop⟩

end MemorySource

end SplitReader
