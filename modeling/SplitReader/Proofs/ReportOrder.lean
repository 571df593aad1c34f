import Mathlib.Tactic.Set
import SplitReader.Proofs.Execution
import SplitReader.Proofs.MemoryReader

/-! # The order of reports

A report is no picture of one moment: its parts are looked at one after the other, and records are
read in between. Each part by itself only ever moves one way, though. The reader moves forward, the
totals grow, a stop that was accepted is only lowered, and a finished operation stays finished. So
whatever is looked at later is further on, and every report leads to every later one
(`reports_in_order`).

The proof completes the report that is under way, at every moment, with the parts as they are at
that moment. The completed report is what is sent in the end if nothing happens any more; it comes
behind all reports that were sent, and a turn moves it one way only.
-/

set_option autoImplicit false

namespace SplitReader

variable {σ α : Type}

/-! ## Reports that lead to each other -/

namespace ProgressReport

/-- A report on records is not ahead of another one in any of its parts. -/
structure LeadsTo (r s : ProgressReport) : Prop where
  progress : ∃ i j : UInt64, r.progress = .ofPosition (.recordIndex i) ∧
    s.progress = .ofPosition (.recordIndex j) ∧ i ≤ j
  elements : r.elementsRead ≤ s.elementsRead
  bytes : r.bytesRead ≤ s.bytesRead
  stop : ∀ p, r.stopPosition = some p → ∃ i j : UInt64, p = .recordIndex i ∧
    s.stopPosition = some (.recordIndex j) ∧ j ≤ i
  finished : r.isFinished = true → s.isFinished = true

/-- In a report on records the reader does not stand behind the stop, if one is given. -/
def IsInside (r : ProgressReport) : Prop :=
  ∃ i : UInt64, r.progress = .ofPosition (.recordIndex i) ∧
    ∀ p, r.stopPosition = some p → ∃ j : UInt64, p = .recordIndex j ∧ i ≤ j

variable {r s t : ProgressReport}

theorem LeadsTo.refl (h : r.IsInside) : r.LeadsTo r := by
  obtain ⟨i, hi, hstop⟩ := h
  refine ⟨⟨i, i, hi, hi, UInt64.le_refl i⟩, UInt64.le_refl _, UInt64.le_refl _, ?_, id⟩
  intro p hp
  obtain ⟨j, rfl, -⟩ := hstop p hp
  exact ⟨j, j, rfl, hp, UInt64.le_refl j⟩

theorem LeadsTo.trans (hrs : r.LeadsTo s) (hst : s.LeadsTo t) : r.LeadsTo t := by
  refine ⟨?_, UInt64.le_trans hrs.elements hst.elements, UInt64.le_trans hrs.bytes hst.bytes, ?_,
    fun h => hst.finished (hrs.finished h)⟩
  · obtain ⟨i, j, hi, hj, hij⟩ := hrs.progress
    obtain ⟨j', k, hj', hk, hjk⟩ := hst.progress
    rw [hj] at hj'
    cases hj'
    exact ⟨i, k, hi, hk, UInt64.le_trans hij hjk⟩
  · intro p hp
    obtain ⟨i, j, rfl, hj, hij⟩ := hrs.stop p hp
    obtain ⟨j', k, hj', hk, hjk⟩ := hst.stop _ hj
    cases hj'
    exact ⟨i, k, rfl, hk, UInt64.le_trans hjk hij⟩

end ProgressReport

/-! ## Reports under way -/

namespace Reporting

open ProgressReport

/-- The report under way, with the parts that were not looked at yet as they are. -/
def complete (reporting : Reporting) (now : ProgressReport) : ProgressReport :=
  match reporting with
  | withProgress p => { now with progress := p }
  | withElements p n => { now with progress := p, elementsRead := n }
  | withBytes p n b => { now with progress := p, elementsRead := n, bytesRead := b }
  | withStop p n b stop =>
      { now with progress := p, elementsRead := n, bytesRead := b, stopPosition := stop }
  | composed report => report
  | idle | proposed _ | admitted _ => now

variable {now later : ProgressReport}

/-- What was looked at before is not ahead of what is looked at later. -/
theorem complete_leadsTo {reporting : Reporting} (h : (reporting.complete now).LeadsTo now)
    (hlater : now.LeadsTo later) (hinside : later.IsInside) :
    (reporting.complete later).LeadsTo later := by
  have hall := h.trans hlater
  have hself := LeadsTo.refl hinside
  cases reporting with
  | withProgress p => exact ⟨hall.progress, hself.elements, hself.bytes, hself.stop, id⟩
  | withElements p n => exact ⟨hall.progress, hall.elements, hself.bytes, hself.stop, id⟩
  | withBytes p n b => exact ⟨hall.progress, hall.elements, hall.bytes, hself.stop, id⟩
  | withStop p n b stop => exact ⟨hall.progress, hall.elements, hall.bytes, hall.stop, id⟩
  | composed report => exact hall
  | _ => exact hself

/-- A report under way keeps what was looked at, and the rest moves on. -/
theorem complete_mono {reporting : Reporting} (hinside : (reporting.complete now).IsInside)
    (hlater : now.LeadsTo later) :
    (reporting.complete now).LeadsTo (reporting.complete later) := by
  have hself := LeadsTo.refl hinside
  cases reporting with
  | withProgress p =>
      exact ⟨hself.progress, hlater.elements, hlater.bytes, hlater.stop, hlater.finished⟩
  | withElements p n =>
      exact ⟨hself.progress, hself.elements, hlater.bytes, hlater.stop, hlater.finished⟩
  | withBytes p n b =>
      exact ⟨hself.progress, hself.elements, hself.bytes, hlater.stop, hlater.finished⟩
  | withStop p n b stop =>
      exact ⟨hself.progress, hself.elements, hself.bytes, hself.stop, hlater.finished⟩
  | composed report => exact hself
  | _ => exact hlater

/-- The place that was looked at first is not behind the stop that is looked at later. -/
theorem isInside_complete {reporting : Reporting} (hbefore : (reporting.complete now).IsInside)
    (h : (reporting.complete later).LeadsTo later) (hinside : later.IsInside) :
    (reporting.complete later).IsInside := by
  have hplace : ∃ i : UInt64, (reporting.complete later).progress = .ofPosition (.recordIndex i) ∧
      ∀ p, later.stopPosition = some p → ∃ j : UInt64, p = .recordIndex j ∧ i ≤ j := by
    obtain ⟨i, j, hi, hj, hij⟩ := h.progress
    obtain ⟨k, hk, hstop⟩ := hinside
    rw [hj] at hk
    cases hk
    refine ⟨i, hi, fun p hp => ?_⟩
    obtain ⟨k, rfl, hjk⟩ := hstop p hp
    exact ⟨k, rfl, UInt64.le_trans hij hjk⟩
  cases reporting with
  | withStop p n b stop => exact hbefore
  | composed report => exact hbefore
  | _ => exact hplace

end Reporting

/-! ## Operations that move on -/

/-- What was read and is not counted yet: a number of records and a number of bytes. -/
def Reading.uncounted : Reading α → Nat × Nat
  | taken d => (1, d.byteLength)
  | counted d => (0, d.byteLength)
  | _ => (0, 0)

theorem bytesIn_le {records : List (List UInt8)} {first index past : Nat} (hle : index ≤ past) :
    bytesIn records first index ≤ bytesIn records first past := by
  have hprefix : recordsIn records first index <+: recordsIn records first past :=
    List.take_prefix_take_left (by omega)
  obtain ⟨more, hmore⟩ := hprefix
  rw [bytesIn, bytesIn, ← hmore, List.flatten_append, List.length_append]
  exact Nat.le_add_right _ _

theorem UInt64.ofNat_mono {m n : Nat} (hle : m ≤ n) (hn : n < UInt64.size) :
    UInt64.ofNat m ≤ UInt64.ofNat n := by
  rw [UInt64.ofNat_le_iff (by omega), UInt64.toNat_ofNat_of_lt' hn]
  exact hle

namespace ReadOperation

/-- An operation on a range of records has counted what its reading task has read and counted, and
remembers no other stop than that of its reader. -/
structure Tallies (records : List (List UInt8)) (first past : Nat)
    (op : ReadOperation (RangeReader × σ)) (reading : Reading α) : Prop where
  reads : op.reader.1.ReadsRecords records
  first_le : first ≤ op.reader.1.tracker.window.index
  stop_le : op.reader.1.tracker.window.stop ≤ past
  counters : ∃ n b, op.counters = ⟨.ofNat n, .ofNat b⟩ ∧
    n + reading.uncounted.1 = op.reader.1.tracker.window.index - first ∧
    b + reading.uncounted.2 = bytesIn records first op.reader.1.tracker.window.index
  stopPosition : ∀ p, op.stopPosition = some p →
    p = .recordIndex (.ofNat op.reader.1.tracker.window.stop)

/-- An operation is not ahead of another one in any part that a report looks at. -/
structure NotAhead (op op' : ReadOperation (RangeReader × σ)) : Prop where
  index : op.reader.1.tracker.window.index ≤ op'.reader.1.tracker.window.index
  stop : op'.reader.1.tracker.window.stop ≤ op.reader.1.tracker.window.stop
  elements : op.counters.elements ≤ op'.counters.elements
  bytes : op.counters.bytes ≤ op'.counters.bytes
  stopPosition : op.stopPosition.isSome = true → op'.stopPosition.isSome = true
  finished : op.isFinished = true → op'.isFinished = true

variable {files : Files} {decoder : Decoder σ α} {context : WorkContext}
  {records : List (List UInt8)} {first past : Nat} {op op' : ReadOperation (RangeReader × σ)}
  {reading reading' : Reading α}

theorem NotAhead.refl (op : ReadOperation (RangeReader × σ)) : op.NotAhead op :=
  ⟨Nat.le_refl _, Nat.le_refl _, UInt64.le_refl _, UInt64.le_refl _, id, id⟩

theorem Tallies.progress_eq (h : op.Tallies records first past reading) (files : Files)
    (decoder : Decoder σ α) :
    op.progress (RangeReader.bounded files decoder) =
      .ofPosition (.recordIndex (.ofNat op.reader.1.tracker.window.index)) := by
  show Progress.ofPosition (op.reader.1.tracker.kind.position _) = _
  rw [h.reads.kind]
  rfl

theorem Tallies.isInside (h : op.Tallies records first past reading)
    (hrecords : records.length < UInt64.size) :
    (op.report (RangeReader.bounded files decoder) context).IsInside := by
  have hindex := h.reads.index_le
  have hstop := h.reads.stop_le
  refine ⟨_, h.progress_eq files decoder, fun p hp => ⟨_, h.stopPosition p hp, ?_⟩⟩
  exact UInt64.ofNat_mono hindex (by omega)

/-- The report on an operation leads to that on any operation that it is not ahead of. -/
theorem Tallies.report_leadsTo (h : op.Tallies records first past reading)
    (h' : op'.Tallies records first past reading') (hahead : op.NotAhead op')
    (hrecords : records.length < UInt64.size) :
    (op.report (RangeReader.bounded files decoder) context).LeadsTo
      (op'.report (RangeReader.bounded files decoder) context) := by
  have hindex := h'.reads.index_le
  have hstop := h.reads.stop_le
  have hstop' := h'.reads.stop_le
  refine ⟨⟨_, _, h.progress_eq files decoder, h'.progress_eq files decoder,
    UInt64.ofNat_mono hahead.index (by omega)⟩, hahead.elements, hahead.bytes, fun p hp => ?_,
    hahead.finished⟩
  have hsome : op.stopPosition.isSome = true := Option.isSome_of_eq_some hp
  obtain ⟨p', hp'⟩ := Option.isSome_iff_exists.mp (hahead.stopPosition hsome)
  refine ⟨_, _, h.stopPosition p hp, hp'.trans (congrArg some (h'.stopPosition p' hp')), ?_⟩
  exact UInt64.ofNat_mono hahead.stop (by omega)

/-- The tallies do not depend on where the reading task stands, but on what it has not counted. -/
theorem Tallies.stay (h : op.Tallies records first past reading)
    (hsame : reading'.uncounted = reading.uncounted) :
    op.Tallies records first past reading' := by
  refine ⟨h.reads, h.first_le, h.stop_le, ?_, h.stopPosition⟩
  rw [hsame]
  exact h.counters

/-- **Counting** what was read moves the totals up. They do not wrap around, since all that can be
read fits them. -/
theorem Tallies.count (h : op.Tallies records first past reading)
    (hrecords : records.length < UInt64.size)
    (hbytes : bytesIn records first past < UInt64.size) (n b : Nat)
    (hn : reading.uncounted.1 = n + reading'.uncounted.1)
    (hb : reading.uncounted.2 = b + reading'.uncounted.2) :
    let op' := { op with counters := op.counters.add (.ofNat n) (.ofNat b) }
    op'.Tallies records first past reading' ∧ op.NotAhead op' := by
  intro op'
  obtain ⟨elements, bytes, hcounters, helements, hlength⟩ := h.counters
  have hindex := h.reads.index_le
  have hstop := h.reads.stop_le
  have htotal : bytesIn records first op.reader.1.tracker.window.index ≤
      bytesIn records first past := bytesIn_le (Nat.le_trans hindex h.stop_le)
  have hcounted : op'.counters = ⟨.ofNat (elements + n), .ofNat (bytes + b)⟩ := by
    simp [op', hcounters, ReadCounters.add, UInt64.ofNat_add]
  have hindexed : elements + n + reading'.uncounted.1 =
      op.reader.1.tracker.window.index - first := by
    omega
  have hmeasured : bytes + b + reading'.uncounted.2 =
      bytesIn records first op.reader.1.tracker.window.index := by
    omega
  refine ⟨⟨h.reads, h.first_le, h.stop_le, ⟨_, _, hcounted, hindexed, hmeasured⟩, h.stopPosition⟩,
    ⟨Nat.le_refl _, Nat.le_refl _, ?_, ?_, id, id⟩⟩
  · rw [hcounters, hcounted]
    exact UInt64.ofNat_mono (Nat.le_add_right _ _) (by omega)
  · rw [hcounters, hcounted]
    exact UInt64.ofNat_mono (Nat.le_add_right _ _) (by omega)

/-- **A split lowers the stop** and leaves the rest of a report. -/
theorem Tallies.applySplit (h : op.Tallies records first past reading) (files : Files)
    (decoder : Decoder σ α) (proposed : Progress) :
    (op.applySplit (RangeReader.bounded files decoder) proposed).2.Tallies records first past
        reading ∧
      op.NotAhead (op.applySplit (RangeReader.bounded files decoder) proposed).2 := by
  unfold ReadOperation.applySplit
  split
  · next position s hsplit =>
    obtain ⟨hr, -⟩ := RangeReader.bounded_trySplit_eq_ok_iff.mp hsplit
    have hreads := h.reads.trySplit hr
    obtain ⟨offset, -, -, hlo, hhi, hposition, hs⟩ := RangeReader.trySplit_eq_ok_iff.mp hr
    obtain ⟨range, c⟩ := s
    simp only at hs hreads
    subst hs
    have hstop := h.stop_le
    refine ⟨⟨hreads, h.first_le, by simp only; omega, h.counters, ?_⟩,
      ⟨Nat.le_refl _, Nat.le_of_lt hhi, UInt64.le_refl _, UInt64.le_refl _, fun _ => rfl, id⟩⟩
    rintro p ⟨rfl⟩
    rw [hposition, h.reads.kind]
    rfl
  · exact ⟨h, .refl op⟩

end ReadOperation

/-! ## Turns -/

namespace Execution

open ReadOperation ProgressReport

variable {files : Files} {decoder : Decoder σ α} {sink : Nat → α → Verdict}
  {control : ControlPlane} {context : WorkContext} {records : List (List UInt8)}
  {first past : Nat}

def rangeSetup (files : Files) (decoder : Decoder σ α) (sink : Nat → α → Verdict)
    (control : ControlPlane) (context : WorkContext) : Setup (RangeReader × σ) α where
  reader := RangeReader.bounded files decoder
  sink := sink
  control := control
  context := context

theorem uncounted_behindRead (delivered : Nat)
    {outcome : Outcome SourceError (Option (Delivered α))} (h : ∀ d, outcome ≠ .value d) :
    (behindRead delivered outcome).uncounted = (0, 0) := by
  cases outcome with
  | value d => exact absurd rfl (h d)
  | failed e => rfl
  | crashed text => rfl

/-- **A turn of the reading task** moves the operation forward, and keeps count. -/
theorem tallies_stepReader (files : Files) (decoder : Decoder σ α) (sink : Nat → α → Verdict)
    (control : ControlPlane) (context : WorkContext) {x : Execution (RangeReader × σ) α}
    (h : x.operation.Tallies records first past x.reading)
    (hrecords : records.length < UInt64.size)
    (hbytes : bytesIn records first past < UInt64.size) :
    let y := x.stepReader (rangeSetup files decoder sink control context)
    y.operation.Tallies records first past y.reading ∧ x.operation.NotAhead y.operation := by
  unfold Execution.stepReader
  cases hreading : x.reading with
  | start =>
      rw [hreading] at h
      rcases hread : RangeReader.tryNext files decoder x.operation.reader with ⟨outcome, s⟩
      have hreads := h.reads.tryNext hread
      have hstep := readStep_of_tryNext
        (u := rangeSetup files decoder sink control context) (x := x) hread
      simp only [hstep]
      cases RangeReader.recordRead h.reads hread with
      | exhausted hover => exact ⟨h.stay rfl, .refl x.operation⟩
      | decoded hlt hrecord hdecode =>
          -- The record is read, and both counts lag behind by it.
          obtain ⟨n, b, hcounters, helements, hlength⟩ := h.counters
          have hfirst := h.first_le
          refine ⟨⟨hreads, Nat.le_succ_of_le h.first_le, h.stop_le, ⟨n, b, hcounters, ?_, ?_⟩,
            h.stopPosition⟩, ⟨Nat.le_succ _, Nat.le_refl _, UInt64.le_refl _, UInt64.le_refl _,
            id, id⟩⟩
          · simp only [Reading.uncounted] at helements
            simp only [behindRead, Reading.uncounted]
            omega
          · simp only [Reading.uncounted, Nat.add_zero] at hlength
            simp only [behindRead, Reading.uncounted]
            rw [hlength, bytesIn_succ hrecord h.first_le]
      | undecoded crashed hlt hrecord hdecode hmiss hnone =>
          have hcounters := (h.stay (uncounted_behindRead x.delivered hnone)).counters
          exact ⟨⟨hreads, h.first_le, h.stop_le, hcounters, h.stopPosition⟩,
            ⟨Nat.le_refl _, Nat.le_refl _, UInt64.le_refl _, UInt64.le_refl _, id, id⟩⟩
  | taken d =>
      rw [hreading] at h
      exact h.count hrecords hbytes 1 0 rfl (Nat.zero_add _).symm
  | counted d =>
      rw [hreading] at h
      exact h.count hrecords hbytes 0 d.byteLength rfl rfl
  | ready a =>
      rw [hreading] at h
      exact ⟨h.stay rfl, .refl x.operation⟩
  | held a =>
      rw [hreading] at h
      simp only [releaseStep]
      cases (rangeSetup files decoder sink control context).sink x.delivered a <;>
        exact ⟨h.stay rfl, .refl x.operation⟩
  | ending e =>
      rw [hreading] at h
      have hstay : x.operation.Tallies records first past (.over e : Reading α) := h.stay rfl
      exact ⟨⟨hstay.reads, hstay.first_le, hstay.stop_le, hstay.counters, hstay.stopPosition⟩,
        ⟨Nat.le_refl _, Nat.le_refl _, UInt64.le_refl _, UInt64.le_refl _, id, fun _ => rfl⟩⟩
  | «over» e =>
      rw [hreading] at h
      simp only [hreading]
      exact ⟨h, .refl x.operation⟩

/-- The report under way, as it would be sent if nothing else happened. -/
def draft (u : Setup (RangeReader × σ) α) (x : Execution (RangeReader × σ) α) : ProgressReport :=
  x.reporting.complete (x.operation.report u.reader u.context)

/-- The reports that were sent are in order, and the one under way comes behind them. -/
structure Orderly (u : Setup (RangeReader × σ) α) (records : List (List UInt8)) (first past : Nat)
    (x : Execution (RangeReader × σ) α) : Prop where
  tallies : x.operation.Tallies records first past x.reading
  reports : (x.reports ++ [x.draft u]).Pairwise LeadsTo
  inside : ∀ r ∈ x.reports ++ [x.draft u], r.IsInside
  draft : (x.draft u).LeadsTo (x.operation.report u.reader u.context)

section Turns

variable {x y : Execution (RangeReader × σ) α}

/-- A turn that sends nothing keeps the order if the operation moves forward in it and nothing that
was looked at is forgotten. -/
theorem Orderly.move
    (h : x.Orderly (rangeSetup files decoder sink control context) records first past)
    (hrecords : records.length < UInt64.size)
    (htallies : y.operation.Tallies records first past y.reading)
    (hahead : x.operation.NotAhead y.operation) (hreports : y.reports = x.reports)
    (hcomplete : y.draft (rangeSetup files decoder sink control context) =
      x.reporting.complete (y.operation.report (RangeReader.bounded files decoder) context)) :
    y.Orderly (rangeSetup files decoder sink control context) records first past := by
  set u := rangeSetup files decoder sink control context
  have hnow : (x.operation.report u.reader u.context).LeadsTo
      (y.operation.report u.reader u.context) :=
    h.tallies.report_leadsTo htallies hahead hrecords
  have hinside : (y.operation.report u.reader u.context).IsInside := htallies.isInside hrecords
  have hdraftInside : (x.draft u).IsInside := h.inside _ (by simp)
  have hdraft : (y.draft u).LeadsTo (y.operation.report u.reader u.context) := by
    rw [hcomplete]
    exact Reporting.complete_leadsTo h.draft hnow hinside
  have hgrows : (x.draft u).LeadsTo (y.draft u) := by
    rw [hcomplete]
    exact Reporting.complete_mono hdraftInside hnow
  obtain ⟨hsent, -, hbehind⟩ := List.pairwise_append.mp h.reports
  refine ⟨htallies, ?_, ?_, hdraft⟩
  · rw [hreports]
    refine List.pairwise_append.mpr ⟨hsent, List.pairwise_singleton _ _, fun r hr s hs => ?_⟩
    rw [List.mem_singleton.mp hs]
    exact (hbehind r hr _ (List.mem_singleton_self _)).trans hgrows
  · rw [hreports]
    intro r hr
    rcases List.mem_append.mp hr with hr | hr
    · exact h.inside r (List.mem_append_left _ hr)
    · rw [List.mem_singleton.mp hr, hcomplete]
      rw [hcomplete] at hdraft
      exact Reporting.isInside_complete hdraftInside hdraft hinside

/-- The report under way is sent as it was completed, and the next one begins behind it. -/
theorem Orderly.send
    (h : x.Orderly (rangeSetup files decoder sink control context) records first past)
    (hrecords : records.length < UInt64.size) (hoperation : y.operation = x.operation)
    (hreading : y.reading = x.reading)
    (hreports : y.reports = x.reports ++ [x.draft (rangeSetup files decoder sink control context)])
    (hcomplete : y.draft (rangeSetup files decoder sink control context) =
      y.operation.report (RangeReader.bounded files decoder) context) :
    y.Orderly (rangeSetup files decoder sink control context) records first past := by
  set u := rangeSetup files decoder sink control context
  have htallies : y.operation.Tallies records first past y.reading := by
    rw [hoperation, hreading]
    exact h.tallies
  have hinside : (y.draft u).IsInside := hcomplete ▸ htallies.isInside hrecords
  have hgrows : (x.draft u).LeadsTo (y.draft u) := by
    rw [hcomplete, hoperation]
    exact h.draft
  refine ⟨htallies, ?_, ?_, hcomplete ▸ LeadsTo.refl hinside⟩
  · rw [hreports]
    refine List.pairwise_append.mpr
      ⟨h.reports, List.pairwise_singleton _ _, fun r hr s hs => ?_⟩
    rw [List.mem_singleton.mp hs]
    rcases List.mem_append.mp hr with hr | hr
    · exact ((List.pairwise_append.mp h.reports).2.2 r hr _ (List.mem_singleton_self _)).trans
        hgrows
    · rw [List.mem_singleton.mp hr]
      exact hgrows
  · rw [hreports]
    intro r hr
    rcases List.mem_append.mp hr with hr | hr
    · exact h.inside r hr
    · rw [List.mem_singleton.mp hr]
      exact hinside

theorem Orderly.stepReader
    (h : x.Orderly (rangeSetup files decoder sink control context) records first past)
    (hrecords : records.length < UInt64.size)
    (hbytes : bytesIn records first past < UInt64.size) :
    (x.stepReader (rangeSetup files decoder sink control context)).Orderly
      (rangeSetup files decoder sink control context) records first past := by
  obtain ⟨htallies, hahead⟩ := tallies_stepReader files decoder sink control context h.tallies
    hrecords hbytes
  refine h.move hrecords htallies hahead (reports_stepReader _ x) ?_
  rw [Execution.draft, (reporting_stepReader _ x).1]
  rfl

theorem Orderly.stepReporter
    (h : x.Orderly (rangeSetup files decoder sink control context) records first past)
    (hrecords : records.length < UInt64.size) :
    (x.stepReporter (rangeSetup files decoder sink control context)).Orderly
      (rangeSetup files decoder sink control context) records first past := by
  -- What is looked at is as it is in the report on the operation.
  have hlook : ∀ {reporting : Reporting} {stage : Stage},
      (reporting.complete (x.operation.report (RangeReader.bounded files decoder) context) =
        x.reporting.complete (x.operation.report (RangeReader.bounded files decoder) context)) →
      Orderly (rangeSetup files decoder sink control context) records first past
        { x with reporting, stage } :=
    fun hsame => h.move hrecords h.tallies (.refl _) rfl hsame
  unfold Execution.stepReporter
  cases hreporting : x.reporting with
  | idle =>
      simp only
      split
      · exact h
      · exact hlook (by rw [hreporting]; rfl)
  | withProgress p => exact hlook (by rw [hreporting]; rfl)
  | withElements p n => exact hlook (by rw [hreporting]; rfl)
  | withBytes p n b => exact hlook (by rw [hreporting]; rfl)
  | withStop p n b stop => exact hlook (by rw [hreporting]; rfl)
  | composed report =>
      have hsent : x.reports ++ [report] =
          x.reports ++ [x.draft (rangeSetup files decoder sink control context)] := by
        rw [Execution.draft, hreporting]
        rfl
      simp only [sendStep]
      split <;> exact h.send hrecords rfl rfl hsent rfl
  | proposed p =>
      simp only
      split <;> exact hlook (by rw [hreporting]; rfl)
  | admitted p =>
      obtain ⟨htallies, hahead⟩ := h.tallies.applySplit files decoder p
      exact h.move hrecords htallies hahead rfl (by rw [hreporting]; rfl)

/-- **Every turn keeps the reports in order.** -/
theorem Orderly.step
    (h : x.Orderly (rangeSetup files decoder sink control context) records first past)
    (hrecords : records.length < UInt64.size)
    (hbytes : bytesIn records first past < UInt64.size) (turn : Turn) :
    (x.step (rangeSetup files decoder sink control context) turn).Orderly
      (rangeSetup files decoder sink control context) records first past := by
  cases turn with
  | reader => exact h.stepReader hrecords hbytes
  | reporter => exact h.stepReporter hrecords
  | coordinator =>
      obtain ⟨stage, hstage⟩ := exists_stepCoordinator_eq x
      rw [Execution.step, hstage]
      exact h.move hrecords h.tallies (.refl _) rfl rfl

end Turns

/-- **Under every schedule the reports are in order.** -/
theorem Orderly.runSchedule (hrecords : records.length < UInt64.size)
    (hbytes : bytesIn records first past < UInt64.size) (schedule : List Turn) :
    ∀ {x : Execution (RangeReader × σ) α},
      x.Orderly (rangeSetup files decoder sink control context) records first past →
        (x.runSchedule (rangeSetup files decoder sink control context) schedule).Orderly
          (rangeSetup files decoder sink control context) records first past :=
  runSchedule_of_step (fun turn h => h.step hrecords hbytes turn) schedule

theorem orderly_start {source : MemorySource} (hle : source.start ≤ source.stop)
    (hstop : source.stop ≤ source.records.length)
    (hrecords : source.records.length < UInt64.size) (codec : σ) :
    Orderly (rangeSetup files decoder sink control context) source.records source.start
      source.stop (start (source.reader, codec)) := by
  have htallies : (start (source.reader, codec) : Execution (RangeReader × σ) α).operation.Tallies
      source.records source.start source.stop (.start : Reading α) := by
    refine ⟨MemorySource.readsRecords_reader hle hstop, Nat.le_refl _, Nat.le_refl _,
      ⟨0, 0, rfl, ?_, ?_⟩, by rintro p ⟨⟩⟩
    · exact (Nat.sub_self source.start).symm
    · exact (bytesIn_self _ _).symm
  have hinside : ((start (source.reader, codec) : Execution (RangeReader × σ) α).operation.report
      (RangeReader.bounded files decoder) context).IsInside := htallies.isInside hrecords
  refine ⟨htallies, List.pairwise_singleton _ _, fun r hr => ?_, .refl hinside⟩
  rw [List.mem_singleton.mp hr]
  exact hinside

/-- **The reports on a range of records are in order.** For every sink and every control plane and
under every schedule, each report leads to all that are sent after it: neither the place of the
reader nor a total goes back, a stop that was accepted stays and is only lowered, and a finished
read stays finished. In every single report the reader does not stand behind the stop, if one is
given. The totals must fit their counters, and the records must be numbered without gaps. -/
theorem reports_in_order (decoder : Decoder σ α) (codec : σ) {records : List (List UInt8)}
    {low high : Option Int} {source : MemorySource}
    (hsource : MemorySource.new records low high = .ok source)
    (hrecords : records.length < UInt64.size)
    (hbytes : bytesIn records source.start source.stop < UInt64.size)
    (files : Files) (sink : Nat → α → Verdict) (control : ControlPlane) (context : WorkContext)
    (schedule : List Turn) :
    let x := (start (source.reader, codec)).runSchedule
      (rangeSetup files decoder sink control context) schedule
    x.reports.Pairwise LeadsTo ∧ ∀ r ∈ x.reports, r.IsInside := by
  obtain ⟨rfl, hle, hstop⟩ := MemorySource.new_eq_ok hsource
  have hstart : Orderly (rangeSetup files decoder sink control context) source.records source.start
      source.stop (start (source.reader, codec)) := orderly_start hle hstop hrecords codec
  have h := hstart.runSchedule hrecords hbytes schedule
  exact ⟨(List.pairwise_append.mp h.reports).1, fun r hr => h.inside r (List.mem_append_left _ hr)⟩

/-- The control plane that proposes to stop at the records 3, 2 and 3, one after the other. -/
def lowersStop : ControlPlane := fun sent _ =>
  match sent.length with
  | 0 | 2 => .propose (.ofPosition (.recordIndex 3))
  | 1 => .propose (.ofPosition (.recordIndex 2))
  | _ => .nothing

/-- Records are read while reports are put together, and the last ones before the third is sent. -/
def readsInReports : List Turn :=
  [.reporter] ++ List.replicate 5 .reader ++ List.replicate 15 .reporter ++
    List.replicate 2 .reader ++ List.replicate 5 .reporter ++ List.replicate 5 .reader ++
    List.replicate 3 .reporter ++ [.coordinator] ++ List.replicate 6 .reporter

/-- The first report has the place from before the first record is read and the totals from behind
it. The third one has the second record without its bytes; it is sent when the read is over, and
says that it goes on. The first two answers lower the stop, and the third one does not raise it
again. -/
theorem reports_in_order_twice :
    let records : List (List UInt8) := [[1], [2, 2], [3], [4]]
    let x := (start (MemorySource.reader ⟨records, 0, 4⟩, ())).runSchedule
      (rangeSetup {} Codec.bytes.decoder (fun _ _ => .accept) lowersStop ⟨"item", "worker"⟩)
      readsInReports
    x.reports.map (fun r =>
        (r.progress, r.elementsRead, r.bytesRead, r.stopPosition, r.isFinished)) =
      [(.ofPosition (.recordIndex 0), 1, 1, none, false),
        (.ofPosition (.recordIndex 1), 1, 1, some (.recordIndex 3), false),
        (.ofPosition (.recordIndex 2), 2, 1, some (.recordIndex 2), false),
        (.ofPosition (.recordIndex 2), 2, 3, some (.recordIndex 2), true)] ∧
    x.reports.Pairwise LeadsTo ∧ ∀ r ∈ x.reports, r.IsInside := by
  intro records x
  have hsource : MemorySource.new records none none = .ok ⟨records, 0, 4⟩ := by
    rfl
  refine ⟨by decide +kernel, ?_⟩
  exact reports_in_order Codec.bytes.decoder () hsource (by decide) (by decide) {} _ lowersStop _
    readsInReports

end Execution

end SplitReader
