import SplitReader.Proofs.Bounds
import SplitReader.Proofs.LineReader
import SplitReader.Proofs.RangeReader
import SplitReader.Source.TextFile

/-! # Readers of the lines of a file

A reader of the lines of a file whose content stays the same stands at a line start or behind the
last line, with its line reader aligned. Inside its window a read is decided by the decoder alone:
the text of the line at the index is decoded, and only a decoded line moves the index, to the
offset behind it. A fresh reader of a range stands at the first line start of the range or behind
it, with no line start of the range before it.
-/

set_option autoImplicit false

namespace SplitReader

/-! ## Files -/

namespace Files

variable {files : Files} {path : String} {file : Nat} {node : FileNode}

theorem node_of_lookup (h : files.lookup path = .ok (file, node)) : files.node file = node := by
  unfold lookup at h
  split at h
  · cases h
  · split at h
    · cases h
      rfl
    · cases h

end Files

/-! ## Readers -/

/-- Below the end of a file whose content is known, an aligned line reader supplies the line at an
offset. -/
theorem Supply.fetch_lines {files : Files} {file offset : Nat} {content : List UInt8}
    {l : LineReader} (hnode : files.node file = .regular content) (haligned : l.IsAligned content)
    (hlt : offset < content.length) :
    ∃ l' : LineReader, l'.IsAligned content ∧
      (lines file l).fetch files offset =
        (.value (Line.textAt content offset, Line.behind content offset), .lines file l') := by
  obtain ⟨l', d', hl', hread⟩ := LineReader.readLineAt_of_isAligned haligned offset
  rw [if_pos hlt] at hread
  refine ⟨l', hl', ?_⟩
  simp only [fetch, hnode, hread]
  rw [Nat.add_sub_cancel' (Nat.le_of_lt (Line.lt_behind hlt))]

/-- At the end of such a file and behind it there is nothing to supply. -/
theorem Supply.fetch_past {files : Files} {file offset : Nat} {content : List UInt8}
    {l : LineReader} (hnode : files.node file = .regular content) (haligned : l.IsAligned content)
    (hpast : content.length ≤ offset) :
    ∃ l' : LineReader, l'.IsAligned content ∧
      (lines file l).fetch files offset = (.failed (.io (.endsInside offset)), .lines file l') := by
  obtain ⟨l', d', hl', hread⟩ := LineReader.readLineAt_of_isAligned haligned offset
  rw [if_neg (Nat.not_lt_of_le hpast)] at hread
  refine ⟨l', hl', ?_⟩
  simp only [fetch, hnode, hread]

namespace RangeReader

/-- A reader stands where it should on the lines of a file. -/
structure ReadsLines (file : Nat) (content : List UInt8) (r : RangeReader) : Prop where
  kind : r.tracker.kind = .byteOffset
  supply : ∃ l : LineReader, r.supply = .lines file l ∧ l.IsAligned content
  stop_le : r.tracker.window.stop ≤ content.length
  index_le : r.tracker.window.index ≤ content.length
  startsAt_index : r.tracker.window.index < content.length →
    Line.startsAt content r.tracker.window.index = true

variable {σ α : Type} {files : Files} {file : Nat} {content : List UInt8} {r : RangeReader}

/-- **A read of a line**: the text of the line at the index is decoded, and the index moves behind
the line if it was. The window may reach past the end of the file. -/
theorem tryNext_line {l : LineReader} (hnode : files.node file = .regular content)
    (decoder : Decoder σ α) (hsupply : r.supply = .lines file l) (haligned : l.IsAligned content)
    (c : σ) (hlt : r.tracker.window.index < r.tracker.window.stop)
    (hinside : r.tracker.window.index < content.length) :
    ∃ l : LineReader, l.IsAligned content ∧
      tryNext files decoder (r, c) =
        match decoder.decode (Line.textAt content r.tracker.window.index) c with
        | (.value a, c) =>
            (.value (some ⟨a, (Line.textAt content r.tracker.window.index).length⟩),
              ⟨{ r.tracker with window :=
                ⟨Line.behind content r.tracker.window.index, r.tracker.window.stop⟩ },
                .lines file l⟩, c)
        | (.failed e, c) =>
            (.failed (.decode r.tracker.window.index e), ⟨r.tracker, .lines file l⟩, c)
        | (.crashed text, c) =>
            (.crashed text, ⟨{ r.tracker with crashed := true }, .lines file l⟩, c) := by
  obtain ⟨l', hl', hfetch⟩ := Supply.fetch_lines hnode haligned hinside
  have hstep := tryNext_of_lt files decoder c hlt
  rw [hsupply, hfetch] at hstep
  exact ⟨l', hl', hstep⟩

/-- **A read past the end of a file** fails, and the window stays as it is. -/
theorem tryNext_past {l : LineReader} (hnode : files.node file = .regular content)
    (decoder : Decoder σ α) (hsupply : r.supply = .lines file l) (haligned : l.IsAligned content)
    (c : σ) (hlt : r.tracker.window.index < r.tracker.window.stop)
    (hpast : content.length ≤ r.tracker.window.index) :
    ∃ l : LineReader, l.IsAligned content ∧
      tryNext files decoder (r, c) =
        (.failed (.io (.endsInside r.tracker.window.index)), ⟨r.tracker, .lines file l⟩, c) := by
  obtain ⟨l', hl', hfetch⟩ := Supply.fetch_past hnode haligned hpast
  have hstep := tryNext_of_lt files decoder c hlt
  rw [hsupply, hfetch] at hstep
  exact ⟨l', hl', hstep⟩

theorem tryNext_lines (hnode : files.node file = .regular content) (decoder : Decoder σ α)
    (h : r.ReadsLines file content) (c : σ)
    (hlt : r.tracker.window.index < r.tracker.window.stop) :
    ∃ l : LineReader, l.IsAligned content ∧
      tryNext files decoder (r, c) =
        match decoder.decode (Line.textAt content r.tracker.window.index) c with
        | (.value a, c) =>
            (.value (some ⟨a, (Line.textAt content r.tracker.window.index).length⟩),
              ⟨{ r.tracker with window :=
                ⟨Line.behind content r.tracker.window.index, r.tracker.window.stop⟩ },
                .lines file l⟩, c)
        | (.failed e, c) =>
            (.failed (.decode r.tracker.window.index e), ⟨r.tracker, .lines file l⟩, c)
        | (.crashed text, c) =>
            (.crashed text, ⟨{ r.tracker with crashed := true }, .lines file l⟩, c) := by
  obtain ⟨l, hsupply, haligned⟩ := h.supply
  -- The stop is not past the end, so there is a line at the index.
  have hinside : r.tracker.window.index < content.length := Nat.lt_of_lt_of_le hlt h.stop_le
  exact tryNext_line hnode decoder hsupply haligned c hlt hinside

theorem ReadsLines.tryNext {decoder : Decoder σ α} {r' : RangeReader} {c c' : σ}
    {outcome : Outcome SourceError (Option (Delivered α))}
    (hnode : files.node file = .regular content) (h : r.ReadsLines file content)
    (hread : RangeReader.tryNext files decoder (r, c) = (outcome, (r', c'))) :
    r'.ReadsLines file content := by
  by_cases hlt : r.tracker.window.index < r.tracker.window.stop
  · obtain ⟨l, hl, hstep⟩ := tryNext_lines hnode decoder h c hlt
    rw [hstep] at hread
    split at hread
    · cases hread
      exact ⟨h.kind, ⟨l, rfl, hl⟩, h.stop_le, Line.behind_le content _, Line.startsAt_behind⟩
    · cases hread
      exact ⟨h.kind, ⟨l, rfl, hl⟩, h.stop_le, h.index_le, h.startsAt_index⟩
    · cases hread
      exact ⟨h.kind, ⟨l, rfl, hl⟩, h.stop_le, h.index_le, h.startsAt_index⟩
  · rw [tryNext_of_exhausted files decoder c (Nat.le_of_not_lt hlt)] at hread
    cases hread
    exact h

theorem ReadsLines.trySplit {r' : RangeReader} {proposed : Progress} {position : Position}
    (h : r.ReadsLines file content) (hsplit : r.trySplit proposed = .ok (position, r')) :
    r'.ReadsLines file content := by
  obtain ⟨offset, -, -, hlo, hhi, -, rfl⟩ := trySplit_eq_ok_iff.mp hsplit
  have hstop := h.stop_le
  exact ⟨h.kind, h.supply, by simp only; omega, h.index_le, h.startsAt_index⟩

end RangeReader

/-! ## Opening -/

namespace TextSource

variable {files : Files} {path : String} {file : Nat} {content : List UInt8}

/-- Skipping leads to the first line start at or behind an offset, or behind the last line. -/
theorem exists_skipTo {start : Nat} {d : Device} (h : d.Holds content)
    (hstart : start ≤ content.length) :
    ∃ first f, skipTo start d = .ok (first, f) ∧ f.rest content = content.drop first ∧
      start ≤ first ∧ first ≤ content.length ∧
      (first < content.length → Line.startsAt content first = true) ∧
      ∀ o, start ≤ o → o < first → Line.startsAt content o = false := by
  have hcontent : d.node.content = content := by
    rw [h.node]
    rfl
  unfold skipTo
  by_cases hzero : start = 0
  · subst hzero
    refine ⟨0, {}, if_pos rfl, rfl, Nat.le_refl 0, hstart, fun hlt => ?_, fun o h1 h2 => ?_⟩
    · exact Line.startsAt_iff.mpr ⟨hlt, Or.inl rfl⟩
    · omega
  · -- One line is read from the byte before the start, so that a start at a line start stays.
    obtain ⟨line, f, d', hread⟩ := BufferedFile.exists_readLine (.seek (start - 1)) d h
    obtain ⟨-, hline, hrest⟩ := BufferedFile.eq_firstLine_of_readLine _ _ hread
    rw [hcontent, BufferedFile.rest_seek] at hline hrest
    have hbehind : start - 1 + line.length = Line.behind content (start - 1) := by
      rw [hline]
      exact Line.add_length_firstLine (by omega)
    have hlt : start - 1 < Line.behind content (start - 1) := Line.lt_behind (by omega)
    rw [if_neg hzero, hread]
    refine ⟨_, f, rfl, ?_, by omega, ?_, ?_, ?_⟩
    · rw [← List.drop_drop, hrest, List.drop_left]
    · rw [hbehind]
      exact Line.behind_le content _
    · rw [hbehind]
      exact Line.startsAt_behind
    · intro o ho hlt'
      rw [hbehind] at hlt'
      exact Line.not_startsAt_of_lt_behind (by omega) hlt'

/-- **A fresh reader of a range stands at the first line start of the range**, or behind it if
there is none in the range. -/
theorem exists_reader {s : TextSource}
    (hlookup : files.lookup s.path = .ok (file, .regular content))
    (hstart : s.start ≤ content.length) (hstop : s.stop ≤ content.length) :
    ∃ r, s.reader files = .ok r ∧ r.ReadsLines file content ∧
      r.tracker.window.stop = s.stop ∧ s.start ≤ r.tracker.window.index ∧
      ∀ o, s.start ≤ o → o < r.tracker.window.index → Line.startsAt content o = false := by
  have hd : ({ node := .regular content } : Device).Holds content := ⟨rfl, List.not_mem_nil⟩
  obtain ⟨first, f, hskip, hrest, hle, hfirst, hstarts, hgap⟩ := exists_skipTo hd hstart
  refine ⟨⟨.new .byteOffset first s.stop, .lines file { file := f, offset := some first }⟩, ?_,
    ⟨rfl, ⟨_, rfl, ?_⟩, hstop, hfirst, hstarts⟩, rfl, hle, hgap⟩
  · unfold reader
    rw [hlookup]
    simp only [readerOn, hskip]
  · rintro o ⟨rfl⟩
    exact hrest

theorem new_eq_ok {start stop : Option UInt64} {s : TextSource}
    (hlookup : files.lookup path = .ok (file, .regular content))
    (h : new files path start stop = .ok s) :
    s.path = path ∧ s.start ≤ s.stop ∧ s.stop ≤ content.length := by
  unfold new at h
  rw [hlookup] at h
  simp only [ofLength, FileNode.length] at h
  split at h
  · next first past hresolve =>
    cases h
    exact ⟨rfl, le_of_resolveBounds hresolve⟩
  · cases h

theorem new_of_le {start stop : Nat}
    (hlookup : files.lookup path = .ok (file, .regular content))
    (hle : start ≤ stop) (hstop : stop ≤ content.length)
    (hlength : content.length < Word.signedBound) :
    new files path (some (.ofNat start)) (some (.ofNat stop)) = .ok ⟨path, start, stop⟩ := by
  unfold new
  rw [hlookup]
  simp only [ofLength, FileNode.length, resolveOffsets_of_le hle hstop hlength]

end TextSource

end SplitReader
