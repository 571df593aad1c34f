import Mathlib.Data.List.Basic
import SplitReader.Proofs.LineRange
import SplitReader.Proofs.LineText
import SplitReader.Proofs.QuietExecution
import SplitReader.Worker

/-! # Workers put a file together again

A file is cut at any offsets, in order and up to its end or beyond, and a worker is started for
every piece. Each of them succeeds, since cuts beyond the end are lowered to it and every line of a
file is read, and nobody proposes another stop. A worker writes the lines that start in its piece,
each with a line feed. So what all of them write, one behind the other, is the file with its line
terminators normalized (`flatMap_output`).
-/

set_option autoImplicit false

namespace SplitReader

variable {files : Files} {path : String} {file : Nat} {content : List UInt8}

/-! ## Reads of all lines -/

namespace RangeReader

/-- Reads one after the other give the lines of the range in order, and keep its end. -/
theorem HasPassed.yields {first past : Nat} {r : RangeReader} {s : RangeReader × Unit}
    {ds : List (Delivered (List UInt8))} (hnode : files.node file = .regular content)
    (h : r.HasPassed file content first past 0) (hstop : r.tracker.window.stop = past)
    (hyields : (bounded files Codec.bytes.decoder).Yields (r, ()) ds s) :
    s.1.HasPassed file content first past ds.length ∧ s.1.tracker.window.stop = past ∧
      ds.map Delivered.element =
        ((Line.allIn content first past).take ds.length).map Line.text := by
  induction hyields with
  | nothing => exact ⟨h, hstop, rfl⟩
  | @more ds d s' s'' _ hread ih =>
      obtain ⟨hpassed, hend, helements⟩ := ih
      have hreads : s''.1.ReadsLines file content := hpassed.reads.tryNext hnode hread
      cases lineRead hnode hpassed.reads hread with
      | decoded supply hlt hdecode =>
          have hline := hpassed.line hlt
          cases hdecode
          refine ⟨?_, hend, ?_⟩
          · rw [List.length_append, List.length_singleton]
            exact hpassed.pass hlt hreads rfl
          · rw [List.map_append, helements, List.length_append, List.length_singleton,
              List.take_add_one, hline]
            simp

/-- Only at the end of the range a read gives no line, and that is no fault. -/
theorem HasPassed.exhausted {first past count : Nat} {s s' : RangeReader × Unit}
    {outcome : Outcome SourceError (Option (Delivered (List UInt8)))}
    (hnode : files.node file = .regular content)
    (h : s.1.HasPassed file content first past count) (hstop : s.1.tracker.window.stop = past)
    (hread : (bounded files Codec.bytes.decoder).tryNext s = (outcome, s'))
    (hnone : ∀ d, outcome ≠ .value (some d)) :
    outcome = .value none ∧ (Line.allIn content first past).length ≤ count := by
  cases lineRead hnode h.reads hread with
  | exhausted hover => exact ⟨rfl, h.length_le hstop hover⟩
  | decoded supply hlt hdecode => exact absurd rfl (hnone _)
  | failed supply hlt hdecode => cases hdecode
  | crashed supply hlt hdecode => cases hdecode

end RangeReader

/-- **Under every schedule all lines of a range are handed over**, if nobody interferes, and the
result is no fault. -/
theorem Execution.handed_of_hasPassed {u : Setup (RangeReader × Unit) (List UInt8)}
    {first past : Nat} {r : RangeReader} (hu : u.IsQuiet)
    (hreader : u.reader = RangeReader.bounded files Codec.bytes.decoder)
    (hnode : files.node file = .regular content) (h : r.HasPassed file content first past 0)
    (hstop : r.tracker.window.stop = past) {schedule : List Turn}
    {result : Except WorkerError Summary}
    (hresult : ((start (r, ())).runSchedule u schedule).result? u = some result) :
    (∃ summary, result = .ok summary) ∧
      ((start (r, ())).runSchedule u schedule).handed =
        (Line.allIn content first past).map Line.text := by
  obtain ⟨ds, before, outcome, reader, hyields, hread, hnone, hhanded, rfl⟩ :=
    result_of_isQuiet hu hresult
  rw [hreader] at hyields hread
  obtain ⟨hpassed, hend, helements⟩ := h.yields hnode hstop hyields
  obtain ⟨rfl, hlength⟩ := hpassed.exhausted hnode hend hread hnone
  refine ⟨⟨_, rfl⟩, ?_⟩
  rw [hhanded, helements, List.take_of_length_le hlength]

/-! ## Pieces of a file -/

/-- Offsets in order name the piece between them, also if they are beyond the end of the file. -/
theorem TextSource.new_of_words {first past : UInt64}
    (hlookup : files.lookup path = .ok (file, .regular content))
    (hlength : content.length < Word.signedBound) (hle : first ≤ past) :
    TextSource.new files path (some first) (some past) =
      .ok ⟨path, min first.toNat content.length, min past.toNat content.length⟩ := by
  have hword : first.toNat ≤ past.toNat := hle
  have hresolve : resolveOffsets content.length (some first) (some past) =
      .ok (min first.toNat content.length, min past.toNat content.length) := by
    unfold resolveOffsets
    rw [resolveBounds_eq_ok_iff]
    simp only [Option.map_some, Option.getD_some, signedBound, maxSignedWord]
    omega
  unfold TextSource.new
  rw [hlookup]
  simp only [ofLength, FileNode.length, hresolve]

/-- **A work item on a piece of a file succeeds**, and its sink receives the lines that start in
the piece. -/
theorem WorkItem.run_textFile {first past : UInt64}
    (hlookup : files.lookup path = .ok (file, .regular content))
    (hlength : content.length < Word.signedBound) (hle : first ≤ past) (id workerId : String) :
    let outcome := WorkItem.run files workerId (fun _ _ => .accept) .silent (fun _ => 0) 0
      ⟨id, .textFile path (some first) (some past)⟩
    (∃ summary, outcome.result = .ok summary) ∧
      outcome.handed = (Line.allIn content (min first.toNat content.length)
        (min past.toNat content.length)).map Line.text := by
  have hsource := TextSource.new_of_words hlookup hlength hle
  obtain ⟨r, hopen, hpassed, hstop, -⟩ := TextSource.exists_reader_hasPassed hlookup hsource
  have hreader : WorkItem.openReader files ⟨id, .textFile path (some first) (some past)⟩ =
      .ok (r, ()) := by
    simp only [WorkItem.openReader, SourceSpec.source, hsource, Except.map, Source.reader, hopen]
  obtain ⟨schedule, result, hresult, hrun⟩ := WorkItem.exists_run_eq hreader workerId
    (fun _ _ => .accept) .silent (fun _ => 0) 0 (fun _ => Nat.le_refl 0)
  intro outcome
  rw [show outcome = _ from hrun]
  exact Execution.handed_of_hasPassed (isQuiet_setup_silent _ _ _) rfl
    (Files.node_of_lookup hlookup) hpassed hstop hresult

/-! ## Workers -/

namespace Worker

/-- **How the tasks of a worker take turns makes no difference.** Under every schedule the work on
an item has the same result, and the same records are written. -/
theorem perform_of_schedule {s : Surroundings} {set : Settings} {w : WorkItem}
    {reader : WorkItem.RawReader} (hopen : w.openReader s.files = .ok reader)
    {schedule : List Turn} {result : Except WorkerError Execution.Summary} :
    let u := w.setup s.files (set.identity s.random) (fun _ _ => .accept) .silent
    ((Execution.start reader).runSchedule u schedule).result? u = some result →
      (perform s set w).result = result ∧
        (perform s set w).handed = ((Execution.start reader).runSchedule u schedule).handed := by
  intro u hresult
  obtain ⟨own, result', hresult', hrun⟩ := WorkItem.exists_run_eq hopen (set.identity s.random)
    (fun _ _ => .accept) .silent (fun _ => 0) 0 (fun _ => Nat.le_refl 0)
  rw [show perform s set w = _ from hrun]
  exact Execution.result_unique_of_isQuiet (WorkItem.isQuiet_setup_silent _ _ _) hresult' hresult

/-- A process finds what it needs to work on the piece of a file between two offsets: its arguments
ask for work, its settings and its log are in order, and its work item names the piece of a file
with the given content. -/
structure FindsPiece (args : List String) (s : Surroundings) (content : List UInt8)
    (first past : UInt64) : Prop where
  found : ∃ c set filter id path file, CommandLine.read args = .work c ∧
    settings c s = .value set ∧ logFilter c s set = .ok filter ∧
    WorkItem.load s.files c.workItem = .ok ⟨id, .textFile path (some first) (some past)⟩ ∧
    s.files.lookup path = .ok (file, .regular content)

/-- A worker on a piece of a file succeeds and writes the lines that start in it. -/
theorem FindsPiece.output_run {args : List String} {s : Surroundings} {first past : UInt64}
    (h : FindsPiece args s content first past) (hlength : content.length < Word.signedBound)
    (hle : first ≤ past) :
    (run args s).exitCode = 0 ∧ (run args s).fault = none ∧
      (run args s).output = (Line.allIn content (min first.toNat content.length)
        (min past.toNat content.length)).flatMap fun l => l.text ++ [BufferedFile.lineFeed] := by
  obtain ⟨c, set, filter, id, path, file, hargs, hsettings, hfilter, hload, hlookup⟩ := h.found
  obtain ⟨⟨summary, hok⟩, hhanded⟩ :=
    WorkItem.run_textFile hlookup hlength hle id (set.identity s.random)
  have hrun : run args s =
      { exitCode := 0
        output := (perform s set ⟨id, .textFile path (some first) (some past)⟩).handed.flatMap
          written
        announced := filter.announced? (logLevel c set) } := by
    simp only [Worker.run, hargs, work, hsettings, hfilter, workOn, hload]
    rw [show (perform s set ⟨id, .textFile path (some first) (some past)⟩).result = .ok summary
      from hok]
  refine ⟨by rw [hrun], by rw [hrun], ?_⟩
  rw [hrun]
  rw [show (perform s set ⟨id, .textFile path (some first) (some past)⟩).handed = _ from hhanded]
  rw [List.flatMap_map]
  rfl

/-- **Workers put a file together again.** Let a file be cut in pieces at offsets in order, from
zero to its end or beyond, where also the other cuts may be beyond the end. For each piece let a
process find what it needs to work on it. Then all of them succeed, and what they write is, one
behind the other, the content of the file, in which the carriage return directly before a line feed
is gone, and a line feed is added if the content is not empty and does not end with one. The length
of the file is a signed word, as file systems state it. -/
theorem flatMap_output {count : Nat} {cut : Nat → UInt64} {args : Nat → List String}
    {s : Nat → Surroundings} (hlength : content.length < Word.signedBound)
    (hfirst : cut 0 = 0) (hcut : ∀ i, i < count → cut i ≤ cut (i + 1))
    (hlast : content.length ≤ (cut count).toNat)
    (hfinds : ∀ i, i < count → FindsPiece (args i) (s i) content (cut i) (cut (i + 1))) :
    (∀ i, i < count → (run (args i) (s i)).exitCode = 0 ∧ (run (args i) (s i)).fault = none) ∧
      (List.range count).flatMap (fun i => (run (args i) (s i)).output) =
        Line.withoutReturns content ++ Line.missingFeed content := by
  have hruns := fun i hi => (hfinds i hi).output_run hlength (hcut i hi)
  refine ⟨fun i hi => ⟨(hruns i hi).1, (hruns i hi).2.1⟩, ?_⟩
  -- The pieces are the ranges between the cuts as lowered to the length.
  let lowered (i : Nat) : Nat := min (cut i).toNat content.length
  have hlowered : ∀ i, i < count → lowered i ≤ lowered (i + 1) := by
    intro i hi
    have hword : (cut i).toNat ≤ (cut (i + 1)).toNat := hcut i hi
    simp only [lowered]
    omega
  have hzero : lowered 0 = 0 := by
    simp [lowered, hfirst]
  have hend : lowered count = content.length := Nat.min_eq_right hlast
  obtain ⟨-, hlines⟩ := Line.flatMap_allIn_chain content lowered count hlowered
  rw [hzero, hend] at hlines
  calc (List.range count).flatMap (fun i => (run (args i) (s i)).output)
    _ = (List.range count).flatMap (fun i =>
          (Line.allIn content (lowered i) (lowered (i + 1))).flatMap
            fun l => l.text ++ [BufferedFile.lineFeed]) :=
        List.flatMap_congr fun i hi => (hruns i (List.mem_range.mp hi)).2.2
    _ = (Line.allIn content 0 content.length).flatMap
          (fun l => l.text ++ [BufferedFile.lineFeed]) := by
        rw [← hlines, List.flatMap_assoc]
    _ = Line.normalized content := Line.flatMap_allIn content

/-- A system with a file of two lines and two work items on it. The first piece ends between the
carriage return and the line feed, and the second one beyond the end. -/
def twoPieces : Surroundings where
  files :=
    { nodes := [.regular [97, 13, 10, 98],
        .regular (Utf8.encode (WorkItem.writeJson ⟨"1", .textFile "log" (some 0) (some 2)⟩)),
        .regular (Utf8.encode (WorkItem.writeJson ⟨"2", .textFile "log" (some 2) (some 9)⟩))]
      names := [("log", 0), ("first", 1), ("second", 2)] }

/-- The first worker writes the first line, the second one the other, with the line feed that it
lacks. -/
theorem flatMap_output_twoPieces :
    (run ["--work-item", "first"] twoPieces).output ++
        (run ["--work-item", "second"] twoPieces).output = [97, 10, 98, 10] ∧
      (run ["--work-item", "first"] twoPieces).exitCode = 0 ∧
      (run ["--work-item", "second"] twoPieces).exitCode = 0 := by
  have hlookup : twoPieces.files.lookup "log" = .ok (0, .regular [97, 13, 10, 98]) := rfl
  have hfinds : ∀ i, i < 2 → FindsPiece ["--work-item", ["first", "second"].getD i ""] twoPieces
      [97, 13, 10, 98] ([0, 2, 9].getD i 0) ([0, 2, 9].getD (i + 1) 0) := by
    intro i hi
    match i with
    | 0 =>
        exact ⟨⟨"first", none, 0⟩, {}, [{ level := .info }], "1", "log", 0, by decide +kernel,
          by decide +kernel, by decide +kernel, by decide +kernel, hlookup⟩
    | 1 =>
        exact ⟨⟨"second", none, 0⟩, {}, [{ level := .info }], "2", "log", 0, by decide +kernel,
          by decide +kernel, by decide +kernel, by decide +kernel, hlookup⟩
  obtain ⟨hsucceed, houtput⟩ := flatMap_output (by decide) rfl (by decide) (by decide) hfinds
  have hcontent : Line.withoutReturns [97, 13, 10, 98] ++ Line.missingFeed [97, 13, 10, 98] =
      [97, 10, 98, 10] := by
    decide
  rw [hcontent, show List.range 2 = [0, 1] from rfl, List.flatMap_cons, List.flatMap_singleton]
    at houtput
  exact ⟨houtput, (hsucceed 0 (by decide)).1, (hsucceed 1 (by decide)).1⟩

end Worker

end SplitReader
