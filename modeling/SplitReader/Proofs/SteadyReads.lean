import SplitReader.Proofs.MemoryReader
import SplitReader.Proofs.Resolution
import SplitReader.Proofs.SplitDecision

/-! # Reads that do not crash

A read crashes if its decoder does, or if a list has no record at the index. The second does not
happen to a reader of an accepted source: the range of the source ends inside the list, and whatever
has become of the reader, its stop was only lowered (`Reached.stopsInside`). So a decoder that does
not crash is all that is needed (`StopsInside.not_crashed`), for a list as for a file.
-/

set_option autoImplicit false

namespace SplitReader

/-! ## Decoders -/

def Decoder.IsSteady {σ α : Type} (decoder : Decoder σ α) : Prop :=
  ∀ bytes c text c', decoder.decode bytes c ≠ (.crashed text, c')

theorem Codec.isSteady_decoder {α : Type} (c : Codec α) : c.decoder.IsSteady := by
  intro bytes s text s' h
  cases hdecode : c.decode bytes <;> simp [Codec.decoder, hdecode, Outcome.ofExcept] at h

/-! ## Readers -/

theorem Supply.eq_records_of_fetch {files : Files} {offset : Nat} {records : List (List UInt8)}
    {fetched : Outcome SourceError (List UInt8 × Nat)} {s s' : Supply}
    (h : s.fetch files offset = (fetched, s')) (hs' : s' = .records records) :
    s = .records records := by
  cases s with
  | records own =>
      simp only [fetch] at h
      split at h <;>
      · cases h
        exact hs'
  | lines file reader =>
      simp only [fetch] at h
      split at h <;>
      · cases h
        cases hs'

namespace RangeReader

variable {σ α : Type} {decoder : Decoder σ α} {r : RangeReader}

/-- If the records are those of a list, the stop is not past its end. -/
def StopsInside (r : RangeReader) : Prop :=
  ∀ records, r.supply = .records records → r.tracker.window.stop ≤ records.length

theorem StopsInside.tryNext (h : r.StopsInside) (files : Files) (decoder : Decoder σ α) (c : σ) :
    (tryNext files decoder (r, c)).2.1.StopsInside := by
  rcases hread : RangeReader.tryNext files decoder (r, c) with ⟨outcome, s⟩
  intro records hsupply
  cases reads_of_eq hread with
  | exhausted => exact h records hsupply
  | unsupplied _ hfetch => exact h records (Supply.eq_records_of_fetch hfetch hsupply)
  | lost _ hfetch => exact h records (Supply.eq_records_of_fetch hfetch hsupply)
  | undecoded _ hfetch => exact h records (Supply.eq_records_of_fetch hfetch hsupply)
  | broken _ hfetch => exact h records (Supply.eq_records_of_fetch hfetch hsupply)
  | decoded _ hfetch => exact h records (Supply.eq_records_of_fetch hfetch hsupply)

theorem StopsInside.trySplit {r' : RangeReader} {proposed : Progress} {position : Position}
    (h : r.StopsInside) (hsplit : r.trySplit proposed = .ok (position, r')) : r'.StopsInside := by
  obtain ⟨offset, -, -, -, hhi, -, rfl⟩ := trySplit_eq_ok_iff.mp hsplit
  exact fun records hsupply => Nat.le_trans (Nat.le_of_lt hhi) (h records hsupply)

/-- **A read does not crash unless its decoder does.** -/
theorem StopsInside.not_crashed {files : Files} {c : σ} {s : RangeReader × σ}
    {outcome : Outcome SourceError (Option (Delivered α))} (h : r.StopsInside)
    (hdecoder : decoder.IsSteady)
    (hread : RangeReader.tryNext files decoder (r, c) = (outcome, s)) (text : String) :
    outcome ≠ .crashed text := by
  rintro rfl
  cases reads_of_eq hread with
  | lost hlt hfetch =>
      -- Only a list crashes, and only if it has no record at the index.
      simp only [Supply.fetch] at hfetch
      split at hfetch
      · next records hsupply =>
        have hinside := Nat.lt_of_lt_of_le hlt (h records hsupply)
        rw [List.getElem?_eq_getElem hinside] at hfetch
        cases hfetch
      · split at hfetch <;> cases hfetch
  | broken _ _ hdecode => exact hdecoder _ _ _ _ hdecode

end RangeReader

/-! ## Sources -/

namespace Source

variable {source : Source} {length : Nat}

/-- Bounds were accepted for the source, over a sequence of the given length. -/
inductive IsAccepted : Nat → Source → Prop where
  | memory {records : List (List UInt8)} {low high : Option Int} {s : MemorySource}
      (h : MemorySource.new records low high = .ok s) : IsAccepted records.length (.memory s)
  /-- A range of a file as it was when the source was made. -/
  | text {files : Files} {path : String} {file : Nat} {node : FileNode} {low high : Option UInt64}
      {s : TextSource} (hlookup : files.lookup path = .ok (file, node))
      (h : TextSource.new files path low high = .ok s) : IsAccepted node.length (.text s)

theorem IsAccepted.le (h : source.IsAccepted length) :
    source.start ≤ source.stop ∧ source.stop ≤ length := by
  cases h with
  | memory h =>
      obtain ⟨-, hrange⟩ := MemorySource.new_eq_ok h
      exact hrange
  | text hlookup h => exact le_of_resolveBounds ((TextSource.new_eq_ok_iff hlookup).mp h).1

theorem IsAccepted.stopsInside_reader {files : Files} {r : RangeReader}
    (h : source.IsAccepted length) (hopen : source.reader files = .ok r) : r.StopsInside := by
  obtain ⟨-, hlength⟩ := h.le
  intro records hsupply
  cases h with
  | memory h =>
      obtain ⟨rfl, -⟩ := MemorySource.new_eq_ok h
      cases hopen
      cases hsupply
      exact hlength
  | text hlookup h =>
      simp only [reader, TextSource.reader, TextSource.readerOn] at hopen
      split at hopen
      · cases hopen
      · split at hopen
        · cases hopen
        · cases hopen
          cases hsupply

/-- **No reader of a source stops past the end of its list.** -/
theorem IsAccepted.stopsInside {r : RangeReader} (h : source.IsAccepted length)
    (hr : r.Reached source) : r.StopsInside := by
  induction hr with
  | opened hopen => exact h.stopsInside_reader hopen
  | read files decoder c _ ih => exact ih.tryNext files decoder c
  | split _ hsplit ih => exact ih.trySplit hsplit

end Source

end SplitReader
