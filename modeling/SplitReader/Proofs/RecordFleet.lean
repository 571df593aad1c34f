import SplitReader.Proofs.Fleet
import SplitReader.Proofs.MemoryReader

/-! # Fleets over the records of a list

The readers of a fleet over a list of records share out the record numbers of the range of the
first reader, with any codec. Every record number is a place where a record begins, so no fresh
reader has to skip, and the unread window of a reader is all that it has left to read.
-/

set_option autoImplicit false

namespace SplitReader

theorem startsIn_all (i j : Nat) : startsIn (fun _ => true) i j = List.range' i (j - i) :=
  List.filter_eq_self.mpr fun _ _ => rfl

namespace RecordFleet

variable {σ α : Type}

/-- A fresh reader of the records between two record numbers. -/
def openRange (records : List (List UInt8)) (first past : Nat) : Except SourceError RangeReader :=
  (MemorySource.new records (some first) (some past)).map MemorySource.reader

def base (records : List (List UInt8)) (decoder : Decoder σ α) (codec : σ) : Fleet.Base σ α where
  files := {}
  decoder := decoder
  codec := codec
  openRange := openRange records

/-- The record numbers in the unread window of a reader. -/
def unreadNumbers (s : RangeReader × σ) : List Nat :=
  List.range' s.1.tracker.window.index (s.1.tracker.window.stop - s.1.tracker.window.index)

variable {records : List (List UInt8)} {decoder : Decoder σ α} {codec : σ}

/-- **Readers of records read a range of records without a gap.** -/
theorem sound (records : List (List UInt8)) (decoder : Decoder σ α) (codec : σ) :
    Fleet.Sound (base records decoder codec) (fun _ => true) (decoder.IsDecoded records)
      records.length (RangeReader.ReadsRecords records) := by
  refine ⟨?_, fun hfit hread => hfit.tryNext hread, fun hfit hsplit => hfit.trySplit hsplit,
    fun hfit => hfit.stop_le, ?_⟩
  · intro r r' c c' d hfit hread
    cases RangeReader.recordRead hfit hread with
    | decoded hlt hbytes hdecode =>
        refine ⟨⟨_, c, c', hbytes, hdecode⟩, rfl, fun o hlo hhi => ?_⟩
        simp only at hhi
        omega
    | undecoded crashed hlt hbytes hdecode hmiss hnone => exact absurd rfl (hnone (some d))
  · intro first past hlt hpast
    refine ⟨MemorySource.reader ⟨records, first, past⟩, ?_, ?_, rfl, Nat.le_refl first, ?_⟩
    · simp only [base, openRange, MemorySource.new_of_le (Nat.le_of_lt hlt) hpast, Except.map]
    · exact MemorySource.readsRecords_reader (s := ⟨records, first, past⟩) (Nat.le_of_lt hlt) hpast
    · intro o hlo hhi
      exact absurd hhi (Nat.not_lt.mpr hlo)

theorem delivers (hdecodes : decoder.DecodesAll records) :
    Fleet.Delivers (base records decoder codec) (RangeReader.ReadsRecords records) := by
  intro r c hfit hlt
  exact RangeReader.exists_tryNext_of_decodesAll {} hfit hdecodes hlt

/-- **Every record of a range is delivered exactly once, whatever stops are proposed.** In every
state of the fleet that grows from a reader of an accepted range by reads and proposals, the record
numbers that were delivered and those in unread windows are together the numbers of the range, each
once, and every element was decoded from the record with its number. So an exhausted fleet has
delivered every record of the range once. If the codec decodes all records, then nothing has gone
wrong, and reading on exhausts the fleet. -/
theorem perm_numbers {start stop : Option Int} {source : MemorySource}
    (hsource : MemorySource.new records start stop = .ok source) (decoder : Decoder σ α)
    (codec : σ) (moves : List Fleet.Move) :
    let f := Fleet.performAll (base records decoder codec)
      { readers := [(source.reader, codec)] } moves
    (f.deliveries.map Delivery.offset ++ f.readers.flatMap unreadNumbers).Perm
        (List.range' source.start (source.stop - source.start)) ∧
      (∀ d ∈ f.deliveries, decoder.IsDecoded records d.offset d.element) ∧
      (f.IsExhausted → (f.deliveries.map Delivery.offset).Perm
        (List.range' source.start (source.stop - source.start))) ∧
      (decoder.DecodesAll records →
        f.mishaps = [] ∧ ∃ more, (f.performAll (base records decoder codec) more).IsExhausted) := by
  obtain ⟨rfl, hle, hstop⟩ := MemorySource.new_eq_ok hsource
  intro f
  have hsound := sound source.records decoder codec
  have hsingle : Fleet.Shares (fun _ => true) (decoder.IsDecoded source.records)
      (RangeReader.ReadsRecords source.records) source.start source.stop
      { readers := [(source.reader, codec)] } :=
    Fleet.shares_single (MemorySource.readsRecords_reader hle hstop) rfl (Nat.le_refl _)
      fun o hlo hhi => absurd hhi (Nat.not_lt.mpr hlo)
  have hshares : f.Shares (fun _ => true) (decoder.IsDecoded source.records)
      (RangeReader.ReadsRecords source.records) source.start source.stop :=
    Fleet.shares_performAll hsound moves hsingle
  have hunread : Fleet.unread (σ := σ) (fun _ => true) = unreadNumbers :=
    funext fun s => startsIn_all _ _
  refine ⟨?_, hshares.right, fun hexhausted => ?_, fun hdecodes => ⟨?_, ?_⟩⟩
  · have hshared := hshares.shared
    rwa [hunread, startsIn_all] at hshared
  · have hperm := hshares.perm_of_isExhausted hexhausted
    rwa [startsIn_all] at hperm
  · exact Fleet.mishaps_performAll hsound (delivers hdecodes) moves hsingle
  · exact Fleet.exists_isExhausted hsound (delivers hdecodes) _ hshares (Nat.le_add_left _ _)

def eightRecords : List (List UInt8) := [[1], [2], [3], [4], [5], [6], [7], [8]]

/-- The stop of the first reader is lowered twice, and the reader of the range between the two
stops gives the end of it away. -/
theorem perm_numbers_eightRecords :
    MemorySource.new eightRecords (some 1) none = .ok ⟨eightRecords, 1, 8⟩ ∧
      let f := Fleet.performAll (base eightRecords Codec.bytes.decoder ())
        { readers := [(MemorySource.reader ⟨eightRecords, 1, 8⟩, ())] }
        [.read 0, .propose 0 (.ofPosition (.recordIndex 6)),
          .propose 0 (.ofPosition (.recordIndex 3)), .propose 2 (.ofPosition (.recordIndex 5)),
          .read 2]
      f.deliveries = [⟨0, 1, [2]⟩, ⟨2, 3, [4]⟩] ∧ f.mishaps = [] ∧
        f.readers.map unreadNumbers = [[2], [6, 7], [4], [5]] ∧
        (f.deliveries.map Delivery.offset ++ f.readers.flatMap unreadNumbers).Perm
          [1, 2, 3, 4, 5, 6, 7] := by
  have hsource : MemorySource.new eightRecords (some 1) none = .ok ⟨eightRecords, 1, 8⟩ := by
    rfl
  have hdecodes : Codec.bytes.decoder.DecodesAll eightRecords := fun bytes _ _ => ⟨bytes, (), rfl⟩
  obtain ⟨hperm, -, -, htotal⟩ := perm_numbers hsource Codec.bytes.decoder ()
    [.read 0, .propose 0 (.ofPosition (.recordIndex 6)),
      .propose 0 (.ofPosition (.recordIndex 3)), .propose 2 (.ofPosition (.recordIndex 5)),
      .read 2]
  exact ⟨hsource, by rfl, (htotal hdecodes).1, by rfl, hperm⟩

end RecordFleet

end SplitReader
