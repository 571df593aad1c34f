import SplitReader.Proofs.History
import SplitReader.Proofs.MemoryReader

/-! # Histories over the records of a list

The index of the reader, the counters and the elements that were handed to sinks stay in step in
every history of an operation over the records of a list. Only a read that decodes its record moves
any of them, and it moves all of them by this record: a codec that fails or crashes moves none, a
sink that refuses an element or crashes moves none back, and a split only lowers the stop.
-/

set_option autoImplicit false

namespace SplitReader

namespace ReadOperation

variable {σ α : Type}

/-- What an operation on the records of a list has handed over since its reader stood at a first
record with the decoder in some state, in step with its index and its counters. -/
structure Accounts (decoder : Decoder σ α) (records : List (List UInt8)) (first : Nat) (codec : σ)
    (op : ReadOperation (RangeReader × σ)) (handed : List α) : Prop where
  reads : op.reader.1.ReadsRecords records
  first_le : first ≤ op.reader.1.tracker.window.index
  decodings : Decodings decoder records first codec op.reader.1.tracker.window.index handed
    op.reader.2
  counters : op.counters = .ofRange records first op.reader.1.tracker.window.index

variable {files : Files} {decoder : Decoder σ α} {records : List (List UInt8)} {first : Nat}
  {codec : σ}

/-- **A step of an operation keeps its accounts.** -/
theorem keeps_accounts :
    Keeps (RangeReader.bounded files decoder) (Accounts decoder records first codec) where
  take := by
    intro op op' handed a h htake
    obtain ⟨d, reader, hnext, rfl, rfl⟩ := of_take_some htake
    have hreads : reader.1.ReadsRecords records := h.reads.tryNext hnext
    cases RangeReader.recordRead h.reads hnext with
    | decoded hlt hbytes hdecode =>
        refine ⟨hreads, Nat.le_succ_of_le h.first_le, h.decodings.hit hbytes hdecode, ?_⟩
        rw [h.counters]
        exact ReadCounters.countRecord_ofRange hbytes h.first_le
    | undecoded crashed hlt hbytes hdecode hmiss hnone => exact absurd rfl (hnone (some d))
  miss := by
    intro op op' handed outcome h htake hnone
    obtain ⟨read, reader, hnext, hread, rfl⟩ := of_take_miss htake hnone
    have hreads : reader.1.ReadsRecords records := h.reads.tryNext hnext
    cases RangeReader.recordRead h.reads hnext with
    | exhausted => exact ⟨hreads, h.first_le, h.decodings, h.counters⟩
    | decoded => exact absurd rfl (hread _)
    | undecoded crashed hlt hbytes hdecode hmiss =>
        exact ⟨hreads, h.first_le, h.decodings.miss hbytes hdecode hmiss, h.counters⟩
  applySplit := by
    intro op handed proposed h
    unfold applySplit
    split
    · next position reader hsplit =>
      obtain ⟨hr, hcodec⟩ := RangeReader.bounded_trySplit_eq_ok_iff.mp hsplit
      have hreads := h.reads.trySplit hr
      -- A split changes the stop only, so nothing of the accounts moves.
      obtain ⟨offset, -, -, -, -, -, hreader⟩ := RangeReader.trySplit_eq_ok_iff.mp hr
      have hindex : reader.1.tracker.window.index = op.reader.1.tracker.window.index := by
        rw [hreader]
      refine ⟨hreads, ?_, ?_, ?_⟩
      · exact hindex ▸ h.first_le
      · simp only [hindex, hcodec]
        exact h.decodings
      · simp only [hindex]
        exact h.counters
    · exact h
  finish := fun h => ⟨h.reads, h.first_le, h.decodings, h.counters⟩

/-- **Every element is handed over exactly once in any history.** At every moment of every history
of an operation on an accepted range of a list of records, inside sinks too, with any codec, the
elements that were handed to sinks are what the codec has made of the records before the index, one
each and in order, and the counters are the number and the bytes of these records. A run that begins
at such a moment comes to an end, and one that ends by exhaustion has handed over as many elements
as it says and leaves nothing in the window. -/
theorem accounts_history {start stop : Option Int} {source : MemorySource}
    (hsource : MemorySource.new records start stop = .ok source) (files : Files)
    (decoder : Decoder σ α) (codec : σ) (calls : List (Call α)) :
    let r := RangeReader.bounded files decoder
    ∀ m ∈ Moment.history r { operation := { reader := (source.reader, codec) } } calls,
      let index := m.operation.reader.1.tracker.window.index
      source.start ≤ index ∧
        Decodings decoder records source.start codec index m.handed m.operation.reader.2 ∧
        m.handed.length = index - source.start ∧
        (∀ k a, m.handed[k]? = some a → decoder.IsDecoded records (source.start + k) a) ∧
        m.operation.counters.elements = .ofNat (index - source.start) ∧
        m.operation.counters.bytes = .ofNat (bytesIn records source.start index) ∧
        ∀ sink, let run := m.operation.run r sink
          run.ending ≠ .unfinished ∧ ∀ n, run.ending = .exhausted n →
            run.handed.length = n ∧ run.operation.reader.1.tracker.window.stop ≤
              run.operation.reader.1.tracker.window.index := by
  obtain ⟨rfl, hle, hstop⟩ := MemorySource.new_eq_ok hsource
  intro r m hm index
  have hfresh : Accounts decoder source.records source.start codec
      { reader := (source.reader, codec) } ([] : List α) := by
    refine ⟨MemorySource.readsRecords_reader hle hstop, Nat.le_refl _, .start, ?_⟩
    simp only [MemorySource.reader, Tracker.new, ReadCounters.ofRange, bytesIn_self, Nat.sub_self]
    rfl
  have haccounts : Accounts decoder source.records source.start codec m.operation m.handed :=
    keeps_accounts.history calls (m := ⟨{ reader := (source.reader, codec) }, []⟩) hfresh m hm
  have hlength := haccounts.decodings.length_elements
  refine ⟨haccounts.first_le, haccounts.decodings, by omega, ?_, ?_, ?_, fun sink => ⟨?_, ?_⟩⟩
  · exact fun k a hk => haccounts.decodings.isDecoded hk
  · rw [haccounts.counters]
    rfl
  · rw [haccounts.counters]
    rfl
  · exact ending_run_ne_unfinished (RangeReader.bounded_narrowing files decoder) m.operation
  · intro n hn
    obtain ⟨hdelivered, s, hlast⟩ := of_ending_runFor_exhausted _ hn
    obtain ⟨hover, hsame⟩ := RangeReader.of_tryNext_none hlast
    rw [← hsame] at hover
    exact ⟨by rw [← hdelivered, Nat.zero_add]; rfl, hover⟩

def fiveRecords : List (List UInt8) := [[1], [2, 2], [3, 3, 3], [4], [5]]

/-- A decoder that counts its calls, fails at the second one and crashes at the third one. -/
def moodyDecoder : Decoder Nat (List UInt8) where
  decode bytes calls :=
    match calls with
    | 1 => (.failed (.other "not now"), calls + 1)
    | 2 => (.crashed "not now", calls + 1)
    | _ => (.value bytes, calls + 1)

/-- Runs that end in five ways: the codec fails, the codec crashes, the sink crashes, the sink
refuses, and nothing is left because the first sink has proposed an earlier stop. -/
def fiveRuns : List (Call (List UInt8)) :=
  [.run fun _ _ => ([.inspect, .split (.ofPosition (.recordIndex 4))], .accept), .run Sink.all,
    .run fun _ _ => ([.inspect], .crash "full"), .run fun _ _ => ([], .refuse (.internal "full")),
    .run Sink.all]

/-- Whatever went wrong in between, three elements were handed over in the end, and counted. -/
theorem accounts_history_fiveRuns :
    ∃ m ∈ Moment.history (RangeReader.bounded {} moodyDecoder)
        { operation := { reader := (MemorySource.reader ⟨fiveRecords, 1, 5⟩, 0) } } fiveRuns,
      m.operation.reader.1.tracker.window = ⟨4, 4⟩ ∧ m.handed = [[2, 2], [3, 3, 3], [4]] ∧
        m.operation.counters.elements = .ofNat 3 ∧
        m.operation.counters.bytes = .ofNat (bytesIn fiveRecords 1 4) ∧
        (m.operation.run (RangeReader.bounded {} moodyDecoder) Sink.all).ending ≠ .unfinished := by
  have hsource : MemorySource.new fiveRecords (some 1) none = .ok ⟨fiveRecords, 1, 5⟩ := by
    rfl
  have hlast : (Moment.history (RangeReader.bounded {} moodyDecoder)
      { operation := { reader := (MemorySource.reader ⟨fiveRecords, 1, 5⟩, 0) } } fiveRuns)[15]? =
        some ⟨⟨(⟨⟨.recordIndex, ⟨4, 4⟩, true⟩, .records fiveRecords⟩, 5), ⟨3, 6⟩,
          some (.recordIndex 4), true⟩, [[2, 2], [3, 3, 3], [4]]⟩ := by
    rfl
  have hm := List.mem_of_getElem? hlast
  obtain ⟨-, -, -, -, helements, hbytes, hrun⟩ :=
    accounts_history hsource {} moodyDecoder 0 fiveRuns _ hm
  exact ⟨_, hm, rfl, rfl, helements, hbytes, (hrun Sink.all).1⟩

end ReadOperation

end SplitReader
