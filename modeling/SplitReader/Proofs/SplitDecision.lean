import SplitReader.Proofs.SplitRace

/-! # One decision on a proposal

A proposed stop goes through several hands. A read operation asks its reader, with or without the
reason for which it may be refused, the reader asks its tracker, and the tracker judges the position
against the window. Each of them could be asked alone, and each gives the same decision
(`exists_decision`): it depends on the position, on the kind of the offsets and on the window, and on
nothing else in the proposal or in the reader.

An index may have passed the stop, and then an offset can be at fault for two reasons. The reason
that is given is the first in a fixed order (`Window.Refuses`).
-/

set_option autoImplicit false

namespace SplitReader

/-! ## Positions of another kind -/

namespace OffsetKind

theorem offset?_position (kind : OffsetKind) (offset : UInt64) :
    kind.offset? (kind.position offset.toNat) = some offset.toNat :=
  offset?_eq_some_iff.mpr ⟨offset.toNat_lt, rfl⟩

/-- A position names no offset exactly if it is the position of none. -/
theorem offset?_eq_none_iff {kind : OffsetKind} {position : Position} :
    kind.offset? position = none ↔ ∀ offset : UInt64, position ≠ kind.position offset.toNat := by
  constructor
  · rintro hnone offset rfl
    rw [offset?_position] at hnone
    cases hnone
  · intro hother
    cases hoffset : kind.offset? position with
    | none => rfl
    | some offset =>
        obtain ⟨hword, hposition⟩ := offset?_eq_some_iff.mp hoffset
        refine absurd ?_ (hother (UInt64.ofNat offset))
        rw [UInt64.toNat_ofNat_of_lt' hword]
        exact hposition

end OffsetKind

/-! ## Why a proposal is refused -/

namespace Window

/-- The reason for which a window refuses a proposed position: the first that applies. -/
inductive Refuses (kind : OffsetKind) (w : Window) : Option Position → SplitRejection → Prop where
  | missing : Refuses kind w none .missingPosition
  | otherKind {position : Position}
      (hother : ∀ offset : UInt64, position ≠ kind.position offset.toNat) :
      Refuses kind w (some position) (.unsupportedPosition position.kindName)
  /-- The offset is not behind the index, wherever the stop may be. -/
  | notAfter {offset : UInt64} (hle : offset.toNat ≤ w.index) :
      Refuses kind w (some (kind.position offset.toNat)) (.notAfterCurrent offset.toNat w.index)
  /-- The offset is behind the index, but not before the stop. -/
  | notBefore {offset : UInt64} (hlt : w.index < offset.toNat) (hle : w.stop ≤ offset.toNat) :
      Refuses kind w (some (kind.position offset.toNat)) (.notBeforeStop offset.toNat w.stop)

variable {kind : OffsetKind} {w : Window} {proposed : Progress} {reason : SplitRejection}

theorem split_of_position {offset : UInt64}
    (h : proposed.position = some (kind.position offset.toNat)) :
    w.split kind proposed = w.splitAt offset.toNat := by
  unfold split
  rw [h]
  simp only [OffsetKind.offset?_position]

/-- **A proposal is refused for the first reason that applies.** -/
theorem split_eq_error_iff :
    w.split kind proposed = .error reason ↔ w.Refuses kind proposed.position reason := by
  constructor
  · intro h
    unfold split at h
    cases hp : proposed.position with
    | none =>
        rw [hp] at h
        cases h
        exact .missing
    | some position =>
        simp only [hp] at h
        cases ho : kind.offset? position with
        | none =>
            simp only [ho] at h
            cases h
            exact .otherKind (OffsetKind.offset?_eq_none_iff.mp ho)
        | some offset =>
            obtain ⟨hword, rfl⟩ := OffsetKind.offset?_eq_some_iff.mp ho
            simp only [ho, splitAt] at h
            -- Both bounds speak of the word that the position holds.
            rw [← UInt64.toNat_ofNat_of_lt' hword] at h ⊢
            split at h
            · next hle =>
              cases h
              exact .notAfter hle
            · next hgt =>
              split at h
              · next hle =>
                cases h
                exact .notBefore (Nat.lt_of_not_le hgt) hle
              · cases h
  · intro h
    generalize hp : proposed.position = position at h
    cases h with
    | missing => simp only [split, hp]
    | otherKind hother =>
        simp only [split, hp, OffsetKind.offset?_eq_none_iff.mpr hother, SplitRejection.unsupported]
    | notAfter hle =>
        rw [split_of_position hp, splitAt, if_pos hle]
    | notBefore hlt hle =>
        rw [split_of_position hp, splitAt, if_neg (Nat.not_le_of_lt hlt), if_pos hle]

/-- The offset that becomes the stop when a position is proposed, or why none does. -/
def decision (kind : OffsetKind) (w : Window) (position : Option Position) :
    Except SplitRejection UInt64 :=
  (w.split kind { position }).map fun after => UInt64.ofNat after.stop

variable {position : Option Position} {offset : UInt64}

theorem decision_eq_ok_iff :
    w.decision kind position = .ok offset ↔
      position = some (kind.position offset.toNat) ∧ w.index < offset.toNat ∧
        offset.toNat < w.stop := by
  unfold decision
  constructor
  · intro h
    cases hsplit : w.split kind { position } with
    | error e =>
        rw [hsplit] at h
        cases h
    | ok after =>
        obtain ⟨n, hword, hposition, hlo, hhi, rfl⟩ := split_eq_ok_iff.mp hsplit
        rw [hsplit] at h
        cases h
        rw [UInt64.toNat_ofNat_of_lt' hword]
        exact ⟨hposition, hlo, hhi⟩
  · rintro ⟨hposition, hlo, hhi⟩
    rw [split_eq_ok_iff.mpr ⟨offset.toNat, offset.toNat_lt, hposition, hlo, hhi, rfl⟩]
    simp only [Except.map, UInt64.ofNat_toNat]

theorem decision_eq_error_iff :
    w.decision kind position = .error reason ↔ w.Refuses kind position reason := by
  have hsplit : w.split kind { position } = .error reason ↔ w.Refuses kind position reason :=
    split_eq_error_iff
  rw [← hsplit, decision]
  cases w.split kind { position } <;> simp [Except.map]

end Window

/-! ## Readers -/

namespace RangeReader

/-- A reader that was opened on a source, and was then read from and split in any order. Every read
may find other files, and may be made with another decoder. -/
inductive Reached (source : Source) : RangeReader → Prop where
  | opened {files : Files} {r : RangeReader} (h : source.reader files = .ok r) : Reached source r
  | read {r : RangeReader} {σ α : Type} (files : Files) (decoder : Decoder σ α) (codec : σ)
      (h : Reached source r) : Reached source (tryNext files decoder (r, codec)).2.1
  | split {r r' : RangeReader} {proposed : Progress} {position : Position} (h : Reached source r)
      (hsplit : r.trySplit proposed = .ok (position, r')) : Reached source r'

theorem Reached.kind_eq {source : Source} {r : RangeReader} (h : r.Reached source) :
    r.tracker.kind = source.kind := by
  induction h with
  | opened hopen => exact (Source.of_reader hopen).1
  | read files decoder codec _ ih => exact (stop_tryNext files decoder _).1.trans ih
  | split _ hsplit ih =>
      obtain ⟨offset, -, -, -, -, -, rfl⟩ := trySplit_eq_ok_iff.mp hsplit
      exact ih

/-- The reader with another stop, and nothing else changed. -/
def stopAt (stop : Nat) (r : RangeReader) : RangeReader :=
  { r with tracker := { r.tracker with window := ⟨r.tracker.window.index, stop⟩ } }

variable {σ α : Type} {files : Files} {decoder : Decoder σ α} {r : RangeReader} {codec : σ}
  {proposed : Progress}

theorem trySplit_of_inside {offset : UInt64}
    (hposition : proposed.position = some (r.tracker.kind.position offset.toNat))
    (hlo : r.tracker.window.index < offset.toNat) (hhi : offset.toNat < r.tracker.window.stop) :
    (bounded files decoder).trySplit proposed (r, codec) =
      .ok (r.tracker.kind.position offset.toNat, r.stopAt offset.toNat, codec) :=
  bounded_trySplit_eq_ok_iff.mpr
    ⟨trySplit_eq_ok_iff.mpr ⟨offset.toNat, offset.toNat_lt, hposition, hlo, hhi, rfl, rfl⟩, rfl⟩

theorem trySplit_of_refuses {reason : SplitRejection}
    (h : r.tracker.window.Refuses r.tracker.kind proposed.position reason) :
    (bounded files decoder).trySplit proposed (r, codec) = .error reason := by
  simp only [bounded, trySplit, Tracker.split, Window.split_eq_error_iff.mpr h, Except.map]

end RangeReader

/-! ## Every way to ask -/

section Asking

variable {S α : Type} {reader : BoundedReader S α} {proposed : Progress} {s s' : S}
  {position : Position} {reason : SplitRejection} {op : ReadOperation S}

theorem BoundedReader.split_of_ok (h : reader.trySplit proposed s = .ok (position, s')) :
    reader.split proposed s = (some position, s') := by
  unfold split
  rw [h]

theorem BoundedReader.split_of_error (h : reader.trySplit proposed s = .error reason) :
    reader.split proposed s = (none, s) := by
  unfold split
  rw [h]

/-- An operation that is not finished passes on what its reader accepts, and records it. -/
theorem ReadOperation.requestSplit_of_ok (hopen : op.isFinished = false)
    (h : reader.trySplit proposed op.reader = .ok (position, s')) :
    op.requestSplit reader proposed =
      (some position, { op with reader := s', stopPosition := some position }) := by
  simp only [requestSplit, hopen, applySplit, h, Bool.false_eq_true, if_false]

theorem ReadOperation.requestSplit_of_error
    (h : reader.trySplit proposed op.reader = .error reason) :
    op.requestSplit reader proposed = (none, op) := by
  simp only [requestSplit, applySplit, h, ite_self]

end Asking

namespace RangeReader

/-- **Every way to propose a stop takes the same decision.** Let a reader of any source be reached by
opening, reads and splits, and let any position be proposed, or none. There is one decision. It
accepts an offset exactly if the position is the one of that offset in the kind of the source and the
offset is strictly inside the window; and it refuses for the first reason that applies. Whatever else
the proposal says, the reader gives this decision with its reason, gives it without the reason, and
gives it to an operation that is not finished. If an offset is accepted, it becomes the stop, the
operation records it, and nothing else changes; otherwise nothing changes at all. -/
theorem exists_decision {source : Source} {r : RangeReader} (hr : r.Reached source)
    (position : Option Position) :
    ∃ decision : Except SplitRejection UInt64,
      (∀ offset : UInt64, decision = .ok offset ↔
        position = some (source.kind.position offset.toNat) ∧
          r.tracker.window.index < offset.toNat ∧ offset.toNat < r.tracker.window.stop) ∧
      (∀ reason, decision = .error reason ↔
        r.tracker.window.Refuses source.kind position reason) ∧
      ∀ {σ α : Type} (files : Files) (decoder : Decoder σ α) (codec : σ)
        (percent : Option Binary32) (time : Option Duration) (counters : ReadCounters)
        (recorded : Option Position),
        let reader := bounded files decoder
        let proposed : Progress := ⟨position, percent, time⟩
        let op : ReadOperation (RangeReader × σ) := ⟨(r, codec), counters, recorded, false⟩
        match decision with
        | .ok offset =>
            let stop := source.kind.position offset.toNat
            let after := (r.stopAt offset.toNat, codec)
            reader.trySplit proposed (r, codec) = .ok (stop, after) ∧
              reader.split proposed (r, codec) = (some stop, after) ∧
              op.requestSplit reader proposed =
                (some stop, ⟨after, counters, some stop, false⟩)
        | .error reason =>
            reader.trySplit proposed (r, codec) = .error reason ∧
              reader.split proposed (r, codec) = (none, (r, codec)) ∧
              op.requestSplit reader proposed = (none, op) := by
  rw [← hr.kind_eq]
  refine ⟨r.tracker.window.decision r.tracker.kind position,
    fun _ => Window.decision_eq_ok_iff, fun _ => Window.decision_eq_error_iff, ?_⟩
  intro σ α files decoder codec percent time counters recorded reader proposed op
  cases hdecision : r.tracker.window.decision r.tracker.kind position with
  | ok offset =>
      obtain ⟨hposition, hlo, hhi⟩ := Window.decision_eq_ok_iff.mp hdecision
      have htry : reader.trySplit proposed (r, codec) =
          .ok (r.tracker.kind.position offset.toNat, r.stopAt offset.toNat, codec) :=
        trySplit_of_inside hposition hlo hhi
      exact ⟨htry, BoundedReader.split_of_ok htry, ReadOperation.requestSplit_of_ok rfl htry⟩
  | error reason =>
      have htry : reader.trySplit proposed (r, codec) = .error reason :=
        trySplit_of_refuses (Window.decision_eq_error_iff.mp hdecision)
      exact ⟨htry, BoundedReader.split_of_error htry, ReadOperation.requestSplit_of_error htry⟩

/-- The lines of a file of eleven bytes. -/
def twoLines : Files where
  nodes := [.regular [97, 98, 99, 100, 101, 102, 10, 103, 104, 105, 10]]
  names := [("log", 0)]

def freshLines : RangeReader where
  tracker := .new .byteOffset 0 11
  supply := .lines 0 ⟨{}, some 0⟩

/-- The reader behind the first line, of which the stop was first moved into it. -/
def passedLines : RangeReader :=
  (tryNext twoLines Codec.bytes.decoder (freshLines.stopAt 3, ())).2.1

/-- The stop is moved into the first line, although the proposal also says that nothing is left to
do, and the index passes it. An offset between the two is then at fault for both reasons, and is
refused for the first. -/
theorem exists_decision_passedLines :
    let reader := bounded twoLines Codec.bytes.decoder
    let op : ReadOperation (RangeReader × Unit) := { reader := (freshLines, ()) }
    let early : Progress := { position := some (.byteOffset 3), percentComplete := some ⟨0x3F800000⟩ }
    let between := Progress.ofPosition (.byteOffset 5)
    passedLines.Reached (.text ⟨"log", 0, 11⟩) ∧ passedLines.tracker.window = ⟨7, 3⟩ ∧
      op.requestSplit reader early = (some (.byteOffset 3),
        { reader := (freshLines.stopAt 3, ()), stopPosition := some (.byteOffset 3) }) ∧
      reader.trySplit between (passedLines, ()) = .error (.notAfterCurrent 5 7) ∧
      reader.split between (passedLines, ()) = (none, (passedLines, ())) := by
  intro reader op early between
  have hopen : Source.reader twoLines (.text ⟨"log", 0, 11⟩) = .ok freshLines := rfl
  have hfresh : freshLines.Reached (.text ⟨"log", 0, 11⟩) := .opened hopen
  -- On the fresh reader the stop is accepted.
  obtain ⟨decision, haccepts, -, hasked⟩ := exists_decision hfresh early.position
  obtain rfl : decision = .ok 3 := (haccepts 3).mpr ⟨rfl, by decide, by decide⟩
  obtain ⟨htry, -, hrequest⟩ :=
    hasked twoLines Codec.bytes.decoder () early.percentComplete none {} none
  have hsplit := (bounded_trySplit_eq_ok_iff.mp htry).1
  have hpassed : passedLines.Reached (.text ⟨"log", 0, 11⟩) :=
    .read twoLines Codec.bytes.decoder () (.split hfresh hsplit)
  have hwindow : passedLines.tracker.window = ⟨7, 3⟩ := by decide +kernel
  -- Behind the first line the offset is compared with the index first.
  obtain ⟨decision, -, hrefuses, hasked⟩ := exists_decision hpassed between.position
  have hreason : passedLines.tracker.window.Refuses .byteOffset between.position
      (.notAfterCurrent 5 7) := by
    have hle : (5 : UInt64).toNat ≤ (⟨7, 3⟩ : Window).index := by decide
    rw [hwindow]
    exact .notAfter hle
  obtain rfl : decision = .error (.notAfterCurrent 5 7) := (hrefuses _).mpr hreason
  obtain ⟨hagain, hsilent, -⟩ := hasked twoLines Codec.bytes.decoder () none none {} none
  exact ⟨hpassed, hwindow, hrequest, hagain, hsilent⟩

end RangeReader

end SplitReader
