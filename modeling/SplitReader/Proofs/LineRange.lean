import SplitReader.Proofs.TextReader

/-! # A range gives the lines that start in it

A reader of the lines of a file leaves behind, one after the other, the lines that start in its
range. What it has left behind is a number of lines: what starts at or behind the index, before the
end that the range was opened with, is the lines of the range without that many of the first ones
(`HasPassed`). A read that gives an element makes it one more, and every other step leaves it,
whatever the decoder does and whatever stops are accepted.

When every line is decoded and no stop is proposed, the reads therefore give the lines of the range
in order, and nothing for ever after (`reads_lines`).
-/

set_option autoImplicit false

namespace SplitReader

/-! ## The first line start behind an offset -/

namespace Line

variable {content : List UInt8} {i j : Nat}

/-- The first line start at or behind an offset, or the length if there is none. -/
def firstFrom (content : List UInt8) (offset : Nat) : Nat :=
  (startsIn (startsAt content) offset content.length).headD content.length

theorem firstFrom_skip (hij : i ≤ j) (hgap : ∀ o, i ≤ o → o < j → startsAt content o = false) :
    firstFrom content i = firstFrom content j := by
  rw [firstFrom, firstFrom, startsIn_skip hij hgap]

theorem firstFrom_self (hle : i ≤ content.length)
    (hstarts : i < content.length → startsAt content i = true) : firstFrom content i = i := by
  rw [firstFrom]
  by_cases hlt : i < content.length
  · rw [startsIn_cons hlt (hstarts hlt) (Nat.lt_succ_self i) (fun o hlo hhi => by omega)]
    rfl
  · have heq : i = content.length := Nat.le_antisymm hle (Nat.le_of_not_lt hlt)
    rw [startsIn_of_le _ (Nat.le_of_not_lt hlt), heq]
    rfl

/-- What the first line start from an offset on is. -/
theorem firstFrom_spec {offset : Nat} (h : offset ≤ content.length) :
    offset ≤ firstFrom content offset ∧ firstFrom content offset ≤ content.length ∧
      (firstFrom content offset < content.length →
        startsAt content (firstFrom content offset) = true) ∧
      ∀ o, offset ≤ o → o < firstFrom content offset → startsAt content o = false := by
  have hmem : ∀ o, offset ≤ o → startsAt content o = true →
      o ∈ startsIn (startsAt content) offset content.length :=
    fun o hlo ho => mem_startsIn.mpr ⟨hlo, (startsAt_iff.mp ho).1, ho⟩
  have hsorted : (startsIn (startsAt content) offset content.length).Pairwise (· < ·) :=
    List.Pairwise.filter _ List.pairwise_lt_range'
  unfold firstFrom
  cases hstarts : startsIn (startsAt content) offset content.length with
  | nil =>
      rw [hstarts] at hmem
      refine ⟨h, Nat.le_refl _, fun hlt => absurd hlt (Nat.lt_irrefl _), fun o hlo _ => ?_⟩
      exact Bool.eq_false_iff.mpr fun ho => List.not_mem_nil (hmem o hlo ho)
  | cons first rest =>
      have hfirst : first ∈ startsIn (startsAt content) offset content.length := by
        rw [hstarts]
        exact List.mem_cons_self
      obtain ⟨hle, hlt, hstart⟩ := mem_startsIn.mp hfirst
      refine ⟨hle, Nat.le_of_lt hlt, fun _ => hstart, fun o hlo hhi => ?_⟩
      refine Bool.eq_false_iff.mpr fun ho => ?_
      -- The starts are in order, so none stands before the first one.
      rw [hstarts] at hmem hsorted
      rcases List.mem_cons.mp (hmem o hlo ho) with rfl | hrest
      · exact Nat.lt_irrefl _ hhi
      · exact Nat.lt_asymm hhi ((List.pairwise_cons.mp hsorted).1 o hrest)

theorem getElem?_allIn (content : List UInt8) (start stop k : Nat) :
    (allIn content start stop)[k]? =
      (startsIn (startsAt content) start stop)[k]?.map fun o => ⟨o, textAt content o⟩ :=
  List.getElem?_map

theorem length_allIn (content : List UInt8) (start stop : Nat) :
    (allIn content start stop).length = (startsIn (startsAt content) start stop).length :=
  List.length_map ..

theorem allIn_of_past {first past : Nat} (hpast : content.length ≤ first) :
    allIn content first past = [] := by
  refine List.map_eq_nil_iff.mpr (List.eq_nil_iff_forall_not_mem.mpr fun o ho => ?_)
  obtain ⟨hlo, -, hstart⟩ := mem_startsIn.mp ho
  exact Nat.not_lt.mpr (Nat.le_trans hpast hlo) (startsAt_iff.mp hstart).1

theorem length_allIn_le (content : List UInt8) (first past : Nat) :
    (allIn content first past).length ≤ past - first := by
  rw [length_allIn, startsIn]
  exact Nat.le_trans (List.length_filter_le _ _) (Nat.le_of_eq List.length_range')

end Line

/-! ## Single reads -/

namespace RangeReader

variable {σ α : Type} {files : Files} {file : Nat} {content : List UInt8}

/-- What a read of the lines of a file gives, and where it leaves the reader and the decoder. -/
inductive LineRead (decoder : Decoder σ α) (content : List UInt8) (s : RangeReader × σ) :
    Outcome SourceError (Option (Delivered α)) → RangeReader × σ → Prop where
  | exhausted (h : s.1.tracker.window.stop ≤ s.1.tracker.window.index) :
      LineRead decoder content s (.value none) s
  | decoded {a : α} {c : σ} (supply : Supply)
      (hlt : s.1.tracker.window.index < s.1.tracker.window.stop)
      (hdecode : decoder.decode (Line.textAt content s.1.tracker.window.index) s.2 =
        (.value a, c)) :
      LineRead decoder content s
        (.value (some ⟨a, (Line.textAt content s.1.tracker.window.index).length⟩))
        (⟨{ s.1.tracker with window :=
          ⟨Line.behind content s.1.tracker.window.index, s.1.tracker.window.stop⟩ }, supply⟩, c)
  | failed {e : CodecError} {c : σ} (supply : Supply)
      (hlt : s.1.tracker.window.index < s.1.tracker.window.stop)
      (hdecode : decoder.decode (Line.textAt content s.1.tracker.window.index) s.2 =
        (.failed e, c)) :
      LineRead decoder content s (.failed (.decode s.1.tracker.window.index e))
        (⟨s.1.tracker, supply⟩, c)
  | crashed {text : String} {c : σ} (supply : Supply)
      (hlt : s.1.tracker.window.index < s.1.tracker.window.stop)
      (hdecode : decoder.decode (Line.textAt content s.1.tracker.window.index) s.2 =
        (.crashed text, c)) :
      LineRead decoder content s (.crashed text)
        (⟨{ s.1.tracker with crashed := true }, supply⟩, c)

/-- **What a read does is decided by the decoder**: inside the window the line is always there. -/
theorem lineRead {decoder : Decoder σ α} {s s' : RangeReader × σ}
    {outcome : Outcome SourceError (Option (Delivered α))}
    (hnode : files.node file = .regular content) (h : s.1.ReadsLines file content)
    (hread : RangeReader.tryNext files decoder s = (outcome, s')) :
    LineRead decoder content s outcome s' := by
  obtain ⟨r, c⟩ := s
  by_cases hlt : r.tracker.window.index < r.tracker.window.stop
  · obtain ⟨l, -, hstep⟩ := tryNext_lines hnode decoder h c hlt
    rw [hstep] at hread
    rcases hdecode : decoder.decode (Line.textAt content r.tracker.window.index) c with
      ⟨a | e | text, c'⟩
    · simp only [hdecode] at hread
      cases hread
      exact .decoded (.lines file l) hlt hdecode
    · simp only [hdecode] at hread
      cases hread
      exact .failed (.lines file l) hlt hdecode
    · simp only [hdecode] at hread
      cases hread
      exact .crashed (.lines file l) hlt hdecode
  · have hexhausted := Nat.le_of_not_lt hlt
    rw [tryNext_of_exhausted files decoder c hexhausted] at hread
    cases hread
    exact .exhausted hexhausted

/-! ## What was left behind -/

/-- A reader of the lines that start in a range has left so many of them behind. -/
structure HasPassed (file : Nat) (content : List UInt8) (first past count : Nat)
    (r : RangeReader) : Prop where
  reads : r.ReadsLines file content
  stop_le : r.tracker.window.stop ≤ past
  rest : startsIn (Line.startsAt content) r.tracker.window.index past =
    (startsIn (Line.startsAt content) first past).drop count

variable {first past count : Nat} {r r' : RangeReader}

theorem HasPassed.rest_eq_cons (h : r.HasPassed file content first past count)
    (hlt : r.tracker.window.index < r.tracker.window.stop) :
    (startsIn (Line.startsAt content) first past).drop count =
      r.tracker.window.index ::
        startsIn (Line.startsAt content) (Line.behind content r.tracker.window.index) past := by
  have hinside : r.tracker.window.index < content.length := Nat.lt_of_lt_of_le hlt h.reads.stop_le
  rw [← h.rest]
  exact startsIn_cons (Nat.lt_of_lt_of_le hlt h.stop_le) (h.reads.startsAt_index hinside)
    (Line.lt_behind hinside) (fun o hlo hhi => Line.not_startsAt_of_lt_behind hlo hhi)

/-- Inside the window the line at the index is the next line of the range. -/
theorem HasPassed.line (h : r.HasPassed file content first past count)
    (hlt : r.tracker.window.index < r.tracker.window.stop) :
    (Line.allIn content first past)[count]? =
      some ⟨r.tracker.window.index, Line.textAt content r.tracker.window.index⟩ := by
  have hhead : (startsIn (Line.startsAt content) first past)[count]? =
      some r.tracker.window.index := by
    calc (startsIn (Line.startsAt content) first past)[count]?
      _ = ((startsIn (Line.startsAt content) first past).drop count)[0]? := by
          rw [List.getElem?_drop, Nat.add_zero]
      _ = some r.tracker.window.index := by rw [h.rest_eq_cons hlt, List.getElem?_cons_zero]
  rw [Line.getElem?_allIn, hhead]
  rfl

/-- A reader that moves behind the line at the index has left one more line behind. -/
theorem HasPassed.pass (h : r.HasPassed file content first past count)
    (hlt : r.tracker.window.index < r.tracker.window.stop) (hr' : r'.ReadsLines file content)
    (hwindow : r'.tracker.window =
      ⟨Line.behind content r.tracker.window.index, r.tracker.window.stop⟩) :
    r'.HasPassed file content first past (count + 1) := by
  refine ⟨hr', ?_, ?_⟩
  · rw [hwindow]
    exact h.stop_le
  · rw [hwindow, ← List.tail_drop, h.rest_eq_cons hlt, List.tail_cons]

/-- A reader that stays at the index has left no more lines behind, wherever it stops. -/
theorem HasPassed.stay (h : r.HasPassed file content first past count)
    (hr' : r'.ReadsLines file content)
    (hindex : r'.tracker.window.index = r.tracker.window.index)
    (hstop : r'.tracker.window.stop ≤ r.tracker.window.stop) :
    r'.HasPassed file content first past count := by
  refine ⟨hr', Nat.le_trans hstop h.stop_le, ?_⟩
  rw [hindex]
  exact h.rest

/-- A reader that still stops at the end of the range and is exhausted has left all lines behind. -/
theorem HasPassed.length_le (h : r.HasPassed file content first past count)
    (hstop : r.tracker.window.stop = past)
    (hexhausted : r.tracker.window.stop ≤ r.tracker.window.index) :
    (Line.allIn content first past).length ≤ count := by
  have hrest := h.rest
  rw [startsIn_of_le _ (hstop ▸ hexhausted)] at hrest
  rw [Line.length_allIn]
  exact List.drop_eq_nil_iff.mp hrest.symm

end RangeReader

theorem TextSource.exists_reader_hasPassed {files : Files} {path : String} {file : Nat}
    {content : List UInt8} {start stop : Option UInt64} {source : TextSource}
    (hlookup : files.lookup path = .ok (file, .regular content))
    (hsource : TextSource.new files path start stop = .ok source) :
    ∃ r, source.reader files = .ok r ∧
      r.HasPassed file content source.start source.stop 0 ∧
      r.tracker.window.stop = source.stop ∧
      r.tracker.window.index = Line.firstFrom content source.start := by
  obtain ⟨hpath, hle, hstop⟩ := TextSource.new_eq_ok hlookup hsource
  rw [← hpath] at hlookup
  obtain ⟨r, hopen, hreads, hend, hfirst, hgap⟩ :=
    TextSource.exists_reader hlookup (Nat.le_trans hle hstop) hstop
  refine ⟨r, hopen, ⟨hreads, Nat.le_of_eq hend, ?_⟩, hend, ?_⟩
  · rw [List.drop_zero]
    exact (startsIn_skip hfirst hgap).symm
  · rw [Line.firstFrom_skip hfirst hgap]
    exact (Line.firstFrom_self hreads.index_le hreads.startsAt_index).symm

/-! ## All reads -/

/-- The state behind a number of reads. -/
def BoundedReader.afterReads {S α : Type} (r : BoundedReader S α) : Nat → S → S
  | 0, s => s
  | n + 1, s => (r.tryNext (r.afterReads n s)).2

namespace TextSource

open RangeReader

variable {files : Files} {path : String} {file : Nat} {content : List UInt8}

/-- Reads that pass bytes through leave a line behind each, as long as there is one, and the line
start at which the range gives out stays where it is. -/
theorem hasPassed_afterReads {first past : Nat} {r : RangeReader}
    (hnode : files.node file = .regular content)
    (h : r.HasPassed file content first past 0) (hstop : r.tracker.window.stop = past) (n : Nat) :
    let s := (bounded files Codec.bytes.decoder).afterReads n (r, ())
    s.1.HasPassed file content first past n ∧ s.1.tracker.window.stop = past ∧
      Line.firstFrom content (max past s.1.tracker.window.index) =
        Line.firstFrom content (max past r.tracker.window.index) := by
  induction n with
  | zero => exact ⟨h, hstop, rfl⟩
  | succ n ih =>
      obtain ⟨hpassed, hend, hout⟩ := ih
      rw [BoundedReader.afterReads]
      generalize (bounded files Codec.bytes.decoder).afterReads n (r, ()) = s at hpassed hend hout ⊢
      rcases hread : (bounded files Codec.bytes.decoder).tryNext s with ⟨outcome, s'⟩
      have hreads : s'.1.ReadsLines file content := hpassed.reads.tryNext hnode hread
      cases lineRead hnode hpassed.reads hread with
      | exhausted hover =>
          -- Nothing is left, so one line more or less makes no difference.
          have hlength := hpassed.length_le hend hover
          rw [Line.length_allIn] at hlength
          refine ⟨⟨hpassed.reads, hpassed.stop_le, ?_⟩, hend, hout⟩
          rw [hpassed.rest, List.drop_eq_nil_of_le hlength,
            List.drop_eq_nil_of_le (Nat.le_succ_of_le hlength)]
      | decoded supply hlt hdecode =>
          refine ⟨hpassed.pass hlt hreads rfl, hend, ?_⟩
          rw [← hout]
          rw [hend] at hlt
          simp only [Nat.max_eq_left (Nat.le_of_lt hlt)]
          rcases Nat.le_total (Line.behind content s.1.tracker.window.index) past with hle | hle
          · rw [Nat.max_eq_left hle]
          · -- The line reaches over the end of the range, where no line starts inside it.
            rw [Nat.max_eq_right hle]
            exact (Line.firstFrom_skip hle fun o hlo hhi =>
              Line.not_startsAt_of_lt_behind (Nat.lt_of_lt_of_le hlt hlo) hhi).symm
      | failed supply hlt hdecode => cases hdecode
      | crashed supply hlt hdecode => cases hdecode

/-- **A range gives exactly the lines that start in it.** For every content of a file and every
accepted pair of offsets, a reader of the range opens at the first line start of the range or behind
it. Its reads, which pass bytes through, give the texts of the lines that start in the range, in
order, and before each of them the reader stands at the start of the line. After that they give
nothing for ever, and the reader stands at the first line start that is not before the end of the
range and not before the place where it was opened, or at the end of the file if there is none. -/
theorem reads_lines {start stop : Option UInt64} {source : TextSource}
    (hlookup : files.lookup path = .ok (file, .regular content))
    (hsource : TextSource.new files path start stop = .ok source) :
    ∃ reader, source.reader files = .ok reader ∧
      reader.tracker.window.index = Line.firstFrom content source.start ∧
      let r := bounded files Codec.bytes.decoder
      let lines := Line.allIn content source.start source.stop
      let past := Line.firstFrom content (max source.stop reader.tracker.window.index)
      ∀ n, let s := r.afterReads n (reader, ())
        (∀ line, lines[n]? = some line →
          r.progress s = .ofPosition (.byteOffset (.ofNat line.start)) ∧
            (r.tryNext s).1 = .value (some ⟨line.text, line.text.length⟩)) ∧
        (lines.length ≤ n →
          r.progress s = .ofPosition (.byteOffset (.ofNat past)) ∧
            (r.tryNext s).1 = .value none) := by
  have hnode := Files.node_of_lookup hlookup
  obtain ⟨reader, hopen, hfresh, hend, hfirst⟩ := exists_reader_hasPassed hlookup hsource
  refine ⟨reader, hopen, hfirst, fun n => ?_⟩
  obtain ⟨hpassed, hstop, hout⟩ := hasPassed_afterReads hnode hfresh hend n
  generalize (bounded files Codec.bytes.decoder).afterReads n (reader, ()) = s
    at hpassed hstop hout ⊢
  have hprogress : (bounded files Codec.bytes.decoder).progress s =
      .ofPosition (.byteOffset (.ofNat s.1.tracker.window.index)) := by
    show Progress.ofPosition (s.1.tracker.kind.position s.1.tracker.window.index) = _
    rw [hpassed.reads.kind]
    rfl
  by_cases hlt : s.1.tracker.window.index < s.1.tracker.window.stop
  · have hline := hpassed.line hlt
    refine ⟨fun line hn => ?_, fun hn => ?_⟩
    · rw [hline] at hn
      cases hn
      obtain ⟨l, -, hstep⟩ := tryNext_lines hnode Codec.bytes.decoder hpassed.reads () hlt
      exact ⟨hprogress, congrArg Prod.fst hstep⟩
    · rw [List.getElem?_eq_none hn] at hline
      cases hline
  · have hover := Nat.le_of_not_lt hlt
    refine ⟨fun line hn => ?_, fun _ => ⟨?_, ?_⟩⟩
    · rw [List.getElem?_eq_none (hpassed.length_le hstop hover)] at hn
      cases hn
    · -- The reader stands at a line start or at the end, so nothing is left to skip.
      rw [hstop] at hover
      rw [hprogress, ← hout, Nat.max_eq_right hover,
        Line.firstFrom_self hpassed.reads.index_le hpassed.reads.startsAt_index]
    · exact congrArg Prod.fst (tryNext_of_exhausted files Codec.bytes.decoder s.2 hover)

/-- A system with one file: a line that ends with a carriage return and a line feed, an empty line,
and one that ends with a carriage return. -/
def mixedLines : Files where
  nodes := [.regular [97, 98, 13, 10, 10, 99, 13]]
  names := [("log", 0)]

theorem lookup_mixedLines :
    mixedLines.lookup "log" = .ok (0, .regular [97, 98, 13, 10, 10, 99, 13]) := by
  simp [Files.lookup, Files.number?, Files.node, mixedLines]

/-- A range that begins inside the first line and ends inside the last one has two lines, and its
reads give out behind the last one. -/
theorem reads_lines_mixedLines :
    ∃ reader, TextSource.reader mixedLines ⟨"log", 1, 6⟩ = .ok reader ∧
      let r := bounded mixedLines Codec.bytes.decoder
      (r.tryNext (r.afterReads 0 (reader, ()))).1 = .value (some ⟨[], 0⟩) ∧
      (r.tryNext (r.afterReads 1 (reader, ()))).1 = .value (some ⟨[99, 13], 2⟩) ∧
      r.progress (r.afterReads 1 (reader, ())) = .ofPosition (.byteOffset 5) ∧
      ∀ n, (r.tryNext (r.afterReads (2 + n) (reader, ()))).1 = .value none ∧
        r.progress (r.afterReads (2 + n) (reader, ())) = .ofPosition (.byteOffset 7) := by
  have hsource : TextSource.new mixedLines "log" (some 1) (some 6) = .ok ⟨"log", 1, 6⟩ := by
    rw [TextSource.new, lookup_mixedLines]
    rfl
  obtain ⟨reader, hopen, hfirst, hreads⟩ := reads_lines lookup_mixedLines hsource
  obtain ⟨-, hempty⟩ := (hreads 0).1 ⟨4, []⟩ (by decide)
  obtain ⟨hplace, hlast⟩ := (hreads 1).1 ⟨5, [99, 13]⟩ (by decide)
  have hpast : Line.firstFrom [97, 98, 13, 10, 10, 99, 13]
      (max 6 reader.tracker.window.index) = 7 := by
    rw [hfirst]
    decide
  refine ⟨reader, hopen, hempty, hlast, hplace, fun n => ?_⟩
  obtain ⟨hend, hnone⟩ := (hreads (2 + n)).2 (Nat.le_add_right 2 n)
  rw [hpast] at hend
  exact ⟨hnone, hend⟩

end TextSource

end SplitReader
