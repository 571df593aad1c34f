import SplitReader.Proofs.Fleet
import SplitReader.Proofs.TextReader

/-! # Fleets over the lines of a file

The readers of a fleet over a file that stays the same share out the lines that start in the range
of the first reader. A stop may be proposed at any byte: the reader that accepts it reads the line
that contains the byte before it to the end, and the reader of the range behind it skips exactly
the rest of that line.
-/

set_option autoImplicit false

namespace SplitReader

namespace LineFleet

/-- A fresh reader of the lines of a file that start between two offsets. -/
def openRange (files : Files) (path : String) (first past : Nat) :
    Except SourceError RangeReader :=
  match TextSource.new files path (some (.ofNat first)) (some (.ofNat past)) with
  | .ok s => s.reader files
  | .error e => .error e

def base (files : Files) (path : String) : Fleet.Base Unit (List UInt8) where
  files := files
  decoder := Codec.bytes.decoder
  codec := ()
  openRange := openRange files path

/-- The line that was delivered: it starts where the reader stood. -/
def line (d : Delivery (List UInt8)) : Line := ⟨d.offset, d.element⟩

/-- The lines that start in the unread window of a reader. -/
def unreadLines (content : List UInt8) (s : RangeReader × Unit) : List Line :=
  Line.allIn content s.1.tracker.window.index s.1.tracker.window.stop

variable {files : Files} {path : String} {file : Nat} {content : List UInt8}

/-- Inside the window the line at the index is delivered as it is. -/
theorem tryNext_bytes (hnode : files.node file = .regular content) {r : RangeReader}
    (h : r.ReadsLines file content) (c : Unit)
    (hlt : r.tracker.window.index < r.tracker.window.stop) :
    ∃ n r', RangeReader.tryNext files Codec.bytes.decoder (r, c) =
        (.value (some ⟨Line.textAt content r.tracker.window.index, n⟩), (r', c)) ∧
      r'.tracker.window.index = Line.behind content r.tracker.window.index := by
  obtain ⟨l, -, hstep⟩ := RangeReader.tryNext_lines hnode Codec.bytes.decoder h c hlt
  exact ⟨_, _, hstep, rfl⟩

/-- **Readers of lines read a range of lines without a gap.** -/
theorem sound (hlookup : files.lookup path = .ok (file, .regular content))
    (hlength : content.length < Word.signedBound) :
    Fleet.Sound (base files path) (Line.startsAt content)
      (fun offset text => text = Line.textAt content offset) content.length
      (RangeReader.ReadsLines file content) := by
  have hnode := Files.node_of_lookup hlookup
  refine ⟨?_, fun hfit hread => hfit.tryNext hnode hread, fun hfit hsplit => hfit.trySplit hsplit,
    fun hfit => hfit.stop_le, ?_⟩
  · intro r r' c c' d hfit hread
    obtain ⟨hlt, -, -⟩ := RangeReader.window_of_tryNext_some hread
    obtain ⟨n, r1, hstep, hindex⟩ := tryNext_bytes hnode hfit c hlt
    rw [base, hstep] at hread
    cases hread
    refine ⟨rfl, hfit.startsAt_index (Nat.lt_of_lt_of_le hlt hfit.stop_le), fun o hlo hhi => ?_⟩
    rw [hindex] at hhi
    exact Line.not_startsAt_of_lt_behind hlo hhi
  · intro first past hlt hpast
    obtain ⟨r, hopen, hfit, hstop, hle, hgap⟩ :=
      TextSource.exists_reader (s := ⟨path, first, past⟩) hlookup (by simp only; omega) hpast
    refine ⟨r, ?_, hfit, hstop, hle, hgap⟩
    rw [base]
    simp only [openRange, TextSource.new_of_le hlookup (Nat.le_of_lt hlt) hpast hlength, hopen]

theorem delivers (hlookup : files.lookup path = .ok (file, .regular content)) :
    Fleet.Delivers (base files path) (RangeReader.ReadsLines file content) := by
  intro r c hfit hlt
  obtain ⟨n, r', hstep, -⟩ := tryNext_bytes (Files.node_of_lookup hlookup) hfit c hlt
  exact ⟨_, _, hstep⟩

theorem map_line_eq {ds : List (Delivery (List UInt8))}
    (h : ∀ d ∈ ds, d.element = Line.textAt content d.offset) :
    ds.map line =
      (ds.map Delivery.offset).map fun offset => ⟨offset, Line.textAt content offset⟩ := by
  rw [List.map_map]
  apply List.map_congr_left
  intro d hd
  rw [line, h d hd]
  rfl

/-- **Every line of a range is delivered exactly once, whatever stops are proposed.** For a file
whose length is a signed word, as file systems state it, a reader opens on every accepted range,
and in every state of the fleet that grows from it by reads and proposals nothing has gone wrong,
and the lines that were delivered and those that start in unread windows are together the lines
that start in the range, each once. So the lines of an exhausted fleet are those of the range, and
reading on exhausts every fleet. -/
theorem perm_lines {start stop : Option UInt64} {source : TextSource}
    (hlookup : files.lookup path = .ok (file, .regular content))
    (hlength : content.length < Word.signedBound)
    (hsource : TextSource.new files path start stop = .ok source) :
    ∃ reader, source.reader files = .ok reader ∧ ∀ moves : List Fleet.Move,
      let f := Fleet.performAll (base files path) { readers := [(reader, ())] } moves
      f.mishaps = [] ∧ (f.deliveries.map line).Nodup ∧
        (f.deliveries.map line ++ f.readers.flatMap (unreadLines content)).Perm
          (Line.allIn content source.start source.stop) ∧
        (f.IsExhausted →
          (f.deliveries.map line).Perm (Line.allIn content source.start source.stop)) ∧
        ∃ more, (f.performAll (base files path) more).IsExhausted := by
  obtain ⟨hpath, hle, hstop⟩ := TextSource.new_eq_ok hlookup hsource
  have hsound := sound hlookup hlength
  rw [← hpath] at hlookup
  obtain ⟨reader, hopen, hfit, hend, hfirst, hgap⟩ :=
    TextSource.exists_reader hlookup (Nat.le_trans hle hstop) hstop
  rw [hpath] at hlookup
  refine ⟨reader, hopen, fun moves => ?_⟩
  intro f
  have hsingle : Fleet.Shares (Line.startsAt content)
      (fun offset text => text = Line.textAt content offset)
      (RangeReader.ReadsLines file content) source.start source.stop
      { readers := [(reader, ())] } :=
    Fleet.shares_single hfit hend hfirst hgap
  have hshares : f.Shares (Line.startsAt content)
      (fun offset text => text = Line.textAt content offset)
      (RangeReader.ReadsLines file content) source.start source.stop :=
    Fleet.shares_performAll hsound moves hsingle
  have hlines := map_line_eq hshares.right
  have hunread : f.readers.flatMap (unreadLines content) =
      (f.readers.flatMap (Fleet.unread (Line.startsAt content))).map
        fun offset => ⟨offset, Line.textAt content offset⟩ := by
    rw [List.map_flatMap]
    rfl
  refine ⟨Fleet.mishaps_performAll hsound (delivers hlookup) moves hsingle, ?_, ?_, ?_, ?_⟩
  · -- Two deliveries of one line would share its start, and starts are shared out once.
    have hboth := hshares.shared.nodup_iff.mpr (nodup_startsIn _ _ _)
    have hoffsets : ((f.deliveries.map line).map Line.start).Nodup := by
      rw [List.map_map]
      exact (List.nodup_append.mp hboth).1
    exact List.Pairwise.of_map Line.start (fun _ _ hne h => hne (congrArg Line.start h)) hoffsets
  · rw [hlines, hunread, ← List.map_append]
    exact hshares.shared.map _
  · intro hexhausted
    rw [hlines]
    exact (hshares.perm_of_isExhausted hexhausted).map _
  · exact Fleet.exists_isExhausted hsound (delivers hlookup) _ hshares (Nat.le_add_left _ _)

/-- A system with one file, of three lines. -/
def threeLines : Files where
  nodes := [.regular [97, 10, 98, 98, 10, 99]]
  names := [("log", 0)]

/-- A stop inside the second line is accepted and loses and repeats nothing. The second reader gets
the last line only, and the first one reads the line in which it has to stop to the end. -/
theorem perm_lines_threeLines :
    let content : List UInt8 := [97, 10, 98, 98, 10, 99]
    let moves : List Fleet.Move :=
      [.propose 0 (.ofPosition (.byteOffset 3)), .read 1, .read 0, .read 0]
    ∃ reader, TextSource.reader threeLines ⟨"log", 0, 6⟩ = .ok reader ∧
      let f := Fleet.performAll (base threeLines "log") { readers := [(reader, ())] } moves
      f.readers.length = 2 ∧
        f.deliveries = [⟨1, 5, [99]⟩, ⟨0, 0, [97]⟩, ⟨0, 2, [98, 98]⟩] ∧
        f.IsExhausted ∧ f.mishaps = [] ∧ (f.deliveries.map line).Perm (Line.allIn content 0 6) := by
  intro content moves
  have hlookup : threeLines.lookup "log" = .ok (0, .regular content) := by
    simp [Files.lookup, Files.number?, Files.node, threeLines, content]
  have hsource : TextSource.new threeLines "log" none none = .ok ⟨"log", 0, 6⟩ := by
    rw [TextSource.new, hlookup]
    rfl
  obtain ⟨reader, hopen, hmoves⟩ := perm_lines hlookup (by decide) hsource
  have hreader : TextSource.reader threeLines ⟨"log", 0, 6⟩ =
      .ok { tracker := .new .byteOffset 0 6, supply := .lines 0 { file := {}, offset := some 0 } } :=
    rfl
  rw [hreader] at hopen
  cases hopen
  refine ⟨_, hreader, ?_⟩
  intro f
  obtain ⟨hmishaps, -, -, hperm, -⟩ := hmoves moves
  have hexhausted : ∀ s ∈ f.readers, s.1.tracker.hasNext = false := by decide +kernel
  exact ⟨by decide +kernel, by decide +kernel, hexhausted, hmishaps, hperm hexhausted⟩

end LineFleet

end SplitReader
