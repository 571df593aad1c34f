import SplitReader.Proofs.LineRange
import SplitReader.Proofs.SessionCalls

/-! # Where a reader of a file is opened

The bounds of a range are checked against the file as it was when the source was made, and the
reader is opened on the file as it is by then. If the file still reaches to the start of the range,
the reader stands at the first line start of the range or behind it, and no element that it ever
gives starts before the range, whatever becomes of the file.

If the file has become shorter than that, there is no byte before the start of the range to be
skipped, and the reader stands on the byte before the range (`opened_cursor`). An empty range is not
exhausted then, and when the file grows again before the first read, what it holds from that byte on
is given as an element of the range (`opened_before_range`).
-/

set_option autoImplicit false

namespace SplitReader

/-! ## Skipping -/

namespace TextSource

/-- **Where skipping leads on any device.** In a file that reaches to the offset it is the first
line start from there on. In a shorter one nothing is skipped, and it is the byte before. -/
theorem skipTo_eq_ok {start first : Nat} {d : Device} {f : BufferedFile}
    (h : skipTo start d = .ok (first, f)) :
    f.rest d.node.content = d.node.content.drop first ∧
      first = if start ≤ d.node.content.length then Line.firstFrom d.node.content start
        else start - 1 := by
  unfold skipTo at h
  by_cases hzero : start = 0
  · rw [if_pos hzero] at h
    cases h
    refine ⟨rfl, ?_⟩
    rw [hzero, if_pos (Nat.zero_le _)]
    exact (Line.firstFrom_self (Nat.zero_le _) fun hlt =>
      Line.startsAt_iff.mpr ⟨hlt, Or.inl rfl⟩).symm
  · rw [if_neg hzero] at h
    rcases hread : (BufferedFile.seek (start - 1)).readLine d with ⟨e | ⟨line, file⟩, d'⟩
    · rw [hread] at h
      cases h
    · rw [hread] at h
      cases h
      obtain ⟨-, hline, hrest⟩ := BufferedFile.eq_firstLine_of_readLine _ _ hread
      rw [BufferedFile.rest_seek] at hline hrest
      have hbehind : f.rest d.node.content =
          d.node.content.drop (start - 1 + line.length) := by
        rw [← List.drop_drop, hrest, List.drop_left]
      refine ⟨hbehind, ?_⟩
      by_cases hstart : start ≤ d.node.content.length
      · -- The line is read from the byte before the start, so that a start at a line start stays.
        have hbefore : start - 1 < d.node.content.length := by omega
        have hlt := Line.lt_behind hbefore
        have hskip : Line.firstFrom d.node.content start =
            Line.firstFrom d.node.content (Line.behind d.node.content (start - 1)) :=
          Line.firstFrom_skip (by omega) fun o hlo hhi =>
            Line.not_startsAt_of_lt_behind (by omega) hhi
        rw [if_pos hstart, hskip, Line.firstFrom_self (Line.behind_le _ _) Line.startsAt_behind,
          hline, Line.add_length_firstLine (Nat.le_of_lt hbefore)]
      · -- Behind the end the line is empty.
        rw [if_neg hstart, hline, List.drop_eq_nil_of_le (by omega)]
        rfl

/-- **A reader can be opened on any file**, however long it has become. -/
theorem exists_opened {s : TextSource} {files : Files} {file : Nat} {content : List UInt8}
    (hlookup : files.lookup s.path = .ok (file, .regular content)) :
    ∃ r, s.reader files = .ok r ∧ r.tracker.kind = .byteOffset ∧
      r.tracker.window = ⟨if s.start ≤ content.length then Line.firstFrom content s.start
        else s.start - 1, s.stop⟩ ∧
      ∃ l : LineReader, r.supply = .lines file l ∧ l.IsAligned content := by
  have hd : ({ node := .regular content } : Device).Holds content := ⟨rfl, List.not_mem_nil⟩
  have hskip : ∃ first f, skipTo s.start { node := .regular content } = .ok (first, f) := by
    unfold skipTo
    by_cases hzero : s.start = 0
    · exact ⟨0, {}, if_pos hzero⟩
    · obtain ⟨line, f, d', hread⟩ := BufferedFile.exists_readLine (.seek (s.start - 1)) _ hd
      rw [if_neg hzero, hread]
      exact ⟨_, f, rfl⟩
  obtain ⟨first, f, hskip⟩ := hskip
  obtain ⟨hrest, hfirst⟩ := skipTo_eq_ok hskip
  refine ⟨⟨.new .byteOffset first s.stop, .lines file { file := f, offset := some first }⟩, ?_,
    rfl, ?_, _, rfl, ?_⟩
  · unfold reader
    rw [hlookup]
    simp only [readerOn, hskip]
  · exact congrArg (Window.mk · s.stop) hfirst
  · rintro o ⟨rfl⟩
    exact hrest

end TextSource

/-! ## Where elements start -/

/-- The places of the reader at which some pulls find an element. -/
def BoundedReader.placesOf {S α : Type} (r : BoundedReader S α) (place : S → Nat) :
    Nat → Pull S → List Nat
  | 0, _ => []
  | count + 1, p =>
      match r.pull p with
      | (.item x, q) => (x.toOption.toList.map fun _ => place p.state) ++ r.placesOf place count q
      | _ => []

theorem BoundedReader.length_placesOf {S α : Type} (r : BoundedReader S α) (place : S → Nat)
    (count : Nat) : ∀ p : Pull S, (r.placesOf place count p).length =
      ((r.pullMany count p).items.filterMap fun x => x.toOption.map Delivered.byteLength).length := by
  induction count with
  | zero => exact fun p => rfl
  | succ count ih =>
      intro p
      unfold placesOf pullMany
      rcases r.pull p with ⟨x | _ | text, q⟩
      · cases x <;> simp [Except.toOption, ih q]
      · rfl
      · rfl

/-- What holds of every place at which a read gives an element holds of all places. -/
theorem BoundedReader.of_mem_placesOf {S α : Type} {r : BoundedReader S α} {place : S → Nat}
    {P : S → Prop} {Q : Nat → Prop} (hread : ∀ s, P s → P (r.tryNext s).2)
    (hgives : ∀ s s' d, P s → r.tryNext s = (.value (some d), s') → Q (place s)) (count : Nat) :
    ∀ p : Pull S, P p.state → ∀ o ∈ r.placesOf place count p, Q o := by
  induction count with
  | zero =>
      intro p hp o ho
      cases ho
  | succ count ih =>
      intro p hp o ho
      have hstate := state_pull hread p hp
      unfold placesOf at ho
      rcases hpull : r.pull p with ⟨x | _ | text, q⟩ <;> simp only [hpull] at ho hstate
      · rcases List.mem_append.mp ho with hfirst | hrest
        · -- Only a read that gives an element has a place.
          obtain ⟨d, hd, rfl⟩ := List.mem_map.mp hfirst
          unfold pull at hpull
          by_cases hdone : p.isDone = true
          · rw [if_pos hdone] at hpull
            cases hpull
          · rw [if_neg hdone] at hpull
            rcases hnext : r.tryNext p.state with ⟨(_ | d') | e | text, s⟩ <;> rw [hnext] at hpull <;>
              cases hpull
            · exact hgives p.state s d' hp hnext
            · cases hd
        · exact ih q hstate o hrest
      · cases ho
      · cases ho

namespace Session

variable {σ α : Type}

/-- How often a call pulls, when the reader has so many records left at most. -/
def Call.pulls (remaining : Nat) : Call → Nat
  | .next | .tryNext => 1
  | .elements limit => limit.getD (remaining + 2)
  | .hasNext | .progress | .trySplit _ | .split _ => 0

/-- The offsets at which the elements start that a call gives. -/
def Call.starts (files : Files) (decoder : Decoder σ α) (range : RangeReader) (codec : σ)
    (call : Call) : List Nat :=
  let r := RangeReader.bounded files decoder
  r.placesOf (fun s => s.1.tracker.window.index) (call.pulls (r.remaining (range, codec)))
    { state := (range, codec) }

theorem Call.length_starts (files : Files) (decoder : Decoder σ α) (range : RangeReader)
    (codec : σ) (call : Call) :
    (call.starts files decoder range codec).length =
      (call.effect files decoder range codec).told.length := by
  rw [starts, BoundedReader.length_placesOf]
  cases call with
  | hasNext => rfl
  | progress => rfl
  | next =>
      rcases hread : (RangeReader.bounded files decoder).tryNext (range, codec) with
        ⟨(_ | d) | e | text, s⟩ <;>
      · simp only [pulls, effect, BoundedReader.pullMany, BoundedReader.pull, BoundedReader.next,
          hread]
        rfl
  | tryNext =>
      rcases hread : (RangeReader.bounded files decoder).tryNext (range, codec) with
        ⟨(_ | d) | e | text, s⟩ <;>
      · simp only [pulls, effect, BoundedReader.pullMany, BoundedReader.pull, hread]
        rfl
  | trySplit proposed =>
      simp only [effect]
      cases range.trySplit proposed <;> rfl
  | split proposed =>
      simp only [effect]
      cases range.trySplit proposed <;> rfl
  | elements limit => rfl

/-- The offsets at which the elements start that one reader gives in some operations, in order. -/
def startsOf (decoder : Decoder σ α) (number : Nat) (s : Session σ) : List Action → List Nat
  | [] => []
  | action :: actions =>
      (match action.callOf number, s.readers[number]? with
        | some call, some r => call.starts s.files decoder r.range s.codec
        | _, _ => []) ++
      (s.perform decoder action).2.startsOf decoder number actions

/-- **What holds of every offset at which a read gives an element holds of all of them**, whatever
is done to the other readers and to the files in between. -/
theorem of_mem_startsOf {decoder : Decoder σ α} {number : Nat} {P : RangeReader → Prop}
    {Q : Nat → Prop}
    (hread : ∀ files r c, P r → P (RangeReader.tryNext files decoder (r, c)).2.1)
    (hsplit : ∀ r proposed position r', P r → r.trySplit proposed = .ok (position, r') → P r')
    (hgives : ∀ files r c s' d, P r →
      RangeReader.tryNext files decoder (r, c) = (.value (some d), s') → Q r.tracker.window.index)
    (actions : List Action) :
    ∀ {s : Session σ} {r : OpenReader}, s.readers[number]? = some r → P r.range →
      ∀ o ∈ s.startsOf decoder number actions, Q o := by
  induction actions with
  | nil =>
      intro s r hreader hr o ho
      cases ho
  | cons action actions ih =>
      intro s r hreader hr o ho
      rw [startsOf, hreader] at ho
      -- An operation leaves the reader as it is, or is a call of it.
      rcases reader_perform decoder action hreader with ⟨hcallee, hafter⟩ | ⟨call, rfl, hafter⟩
      · simp only [hcallee, List.nil_append] at ho
        exact ih hafter hr o ho
      · have hcallee : Action.callOf number (.call number call) = some call := if_pos rfl
        simp only [hcallee] at ho
        rcases List.mem_append.mp ho with hfirst | hrest
        · exact BoundedReader.of_mem_placesOf (P := fun t => P t.1)
            (fun t ht => hread s.files t.1 t.2 ht)
            (fun t t' d ht hnext => hgives s.files t.1 t.2 t' d ht hnext) _ _ hr o hfirst
        · refine ih hafter ?_ o hrest
          exact Call.effect_of_step (fun _ q c hq => hread s.files q c hq) hsplit s.codec hr

end Session

namespace Session

variable {σ α : Type} {decoder : Decoder σ α} {s : Session σ} {number : Nat} {r : OpenReader}

/-- No element starts before the place where the reader stands. -/
theorem le_of_mem_startsOf {low : Nat} (hreader : s.readers[number]? = some r)
    (hlow : low ≤ r.range.tracker.window.index) (actions : List Action) :
    ∀ o ∈ s.startsOf decoder number actions, low ≤ o := by
  refine of_mem_startsOf (P := fun q => low ≤ q.tracker.window.index) (fun files q c hq => ?_)
    (fun q proposed position q' hq hsplit => ?_) (fun files q c s' d hq hread => hq) actions
    hreader hlow
  · exact Nat.le_trans hq (RangeReader.index_le_tryNext files decoder (q, c))
  · obtain ⟨offset, -, -, -, -, -, rfl⟩ := RangeReader.trySplit_eq_ok_iff.mp hsplit
    exact hq

theorem startsOf_of_exhausted (hreader : s.readers[number]? = some r)
    (hover : r.range.tracker.window.stop ≤ r.range.tracker.window.index) (actions : List Action) :
    s.startsOf decoder number actions = [] := by
  refine List.eq_nil_iff_forall_not_mem.mpr ?_
  refine of_mem_startsOf (P := fun q => q.tracker.window.stop ≤ q.tracker.window.index)
    (Q := fun _ => False) (fun files q c hq => ?_) (fun q proposed position q' hq hsplit => ?_)
    (fun files q c s' d hq hread => ?_) actions hreader hover
  · rw [RangeReader.tryNext_of_exhausted files decoder c hq]
    exact hq
  · obtain ⟨offset, -, -, hlo, hhi, -, rfl⟩ := RangeReader.trySplit_eq_ok_iff.mp hsplit
    omega
  · rw [RangeReader.tryNext_of_exhausted files decoder c hq] at hread
    cases hread

/-- **Where a reader is opened, and what it may give from then on.** For every session over a range
of a file, whatever the file holds by now, a reader can be opened. It stops where the range ends. If
the file reaches to the start of the range, the reader stands at the first line start from there on,
so it is exhausted at once if the range is empty; and whatever is done next to it, to other readers
and to the file, no element that it gives starts before the range, and on an empty range it gives
none. If the file is shorter, the reader stands on the byte before the range, and no element that it
gives starts before that byte. -/
theorem opened_cursor (decoder : Decoder σ α) {s : Session σ} {source : TextSource} {file : Nat}
    {content : List UInt8} (hsource : s.source = .text source)
    (hlookup : s.files.lookup source.path = .ok (file, .regular content))
    (actions : List Action) :
    let number := s.readers.length
    let opened := s.perform decoder .openReader
    let starts := opened.2.startsOf decoder number actions
    opened.1 = .opened (.ok number) ∧
      ∃ r, opened.2.readers[number]? = some r ∧ r.range.tracker.kind = .byteOffset ∧
        r.range.tracker.window.stop = source.stop ∧
        (source.start ≤ content.length →
          r.range.tracker.window.index = Line.firstFrom content source.start ∧
            source.start ≤ r.range.tracker.window.index ∧
            (∀ o ∈ starts, source.start ≤ o) ∧
            (source.stop ≤ source.start → r.range.tracker.hasNext = false ∧ starts = [])) ∧
        (content.length < source.start →
          r.range.tracker.window.index = source.start - 1 ∧ ∀ o ∈ starts, source.start - 1 ≤ o) := by
  intro number opened starts
  obtain ⟨range, hrange, hkind, hwindow, -⟩ := TextSource.exists_opened hlookup
  have hreader : s.source.reader s.files = .ok range := by
    rw [hsource]
    exact hrange
  have hopened : opened = (.opened (.ok number),
      { s with readers := s.readers ++ [⟨range, s.observers.length⟩] }) := by
    show s.perform decoder .openReader = _
    rw [perform, hreader]
  have hfresh : opened.2.readers[number]? = some ⟨range, s.observers.length⟩ := by
    rw [hopened]
    exact List.getElem?_concat_length
  have hstop : range.tracker.window.stop = source.stop := by
    rw [hwindow]
  refine ⟨by rw [hopened], _, hfresh, hkind, hstop, fun hstart => ?_, fun hshort => ?_⟩
  · have hindex : range.tracker.window.index = Line.firstFrom content source.start := by
      rw [hwindow]
      exact if_pos hstart
    have hle : source.start ≤ range.tracker.window.index := hindex ▸ (Line.firstFrom_spec hstart).1
    refine ⟨hindex, hle, le_of_mem_startsOf hfresh hle actions, fun hempty => ?_⟩
    have hover : range.tracker.window.stop ≤ range.tracker.window.index :=
      hstop ▸ Nat.le_trans hempty hle
    exact ⟨decide_eq_false (Nat.not_lt.mpr hover), startsOf_of_exhausted hfresh hover actions⟩
  · have hindex : range.tracker.window.index = source.start - 1 := by
      rw [hwindow]
      exact if_neg (Nat.not_le.mpr hshort)
    exact ⟨hindex, le_of_mem_startsOf hfresh (Nat.le_of_eq hindex.symm) actions⟩

/-- A session over a range of a file named `log` that holds some bytes by now. -/
def logged (start stop : Nat) (content : List UInt8) : Session Unit where
  source := .text ⟨"log", start, stop⟩
  files := { nodes := [.regular content], names := [("log", 0)] }
  codec := ()

theorem lookup_logged (start stop : Nat) (content : List UInt8) :
    (logged start stop content).files.lookup "log" = .ok (0, .regular content) := by
  simp [Files.lookup, Files.number?, Files.node, logged]

/-- The file is written again before the first read, with an empty line at each of its offsets, and
its name is taken away between the reads. -/
def rewrittenLog : List Action :=
  [.rewriteFile (.regular (List.replicate 10 10)), .call 0 .tryNext, .replaceFile none,
    .call 0 (.elements none)]

/-- The bytes that were fetched by the opening are those of the old file, and the second line is
given from them; the other ones are given from the new file, and all start in the range. -/
theorem opened_cursor_rewrittenLog :
    let s := logged 3 20 [97, 98, 99, 100, 10, 101, 102, 10]
    let opened := s.perform Codec.bytes.decoder .openReader
    let starts := opened.2.startsOf Codec.bytes.decoder 0 rewrittenLog
    opened.1 = .opened (.ok 0) ∧ starts = [5, 8, 9] ∧ ∀ o ∈ starts, 3 ≤ o := by
  have hcursor := opened_cursor Codec.bytes.decoder (s := logged 3 20 _) rfl
    (lookup_logged 3 20 [97, 98, 99, 100, 10, 101, 102, 10]) rewrittenLog
  obtain ⟨hopened, r, -, -, -, hstart, -⟩ := hcursor
  obtain ⟨-, -, hstarts, -⟩ := hstart (by decide)
  exact ⟨hopened, by decide +kernel, hstarts⟩

/-- **A reader may be opened before its range.** An empty range behind three bytes was accepted, and
the file has become one byte long. The reader is opened on the second byte and finds a record left,
although its range is empty. When the file has grown again, the first read gives what stands there
from the third byte on. -/
theorem opened_before_range :
    let built := logged 3 3 [97, 98, 10]
    let s := logged 3 3 [97]
    let opened := s.perform Codec.bytes.decoder .openReader
    let grown := [.rewriteFile (.regular [97, 98, 99, 100, 10]), .call 0 .tryNext]
    TextSource.new built.files "log" (some 3) none = .ok ⟨"log", 3, 3⟩ ∧
      s.source = .text ⟨"log", 3, 3⟩ ∧
      opened.2.readers.map (fun r => (r.range.tracker.window, r.range.tracker.hasNext)) =
        [(⟨2, 3⟩, true)] ∧
      (opened.2.performAll Codec.bytes.decoder grown).1 =
        [.done, .tryNext (.value (some [99, 100]))] ∧
      opened.2.startsOf Codec.bytes.decoder 0 grown = [2] := by
  refine ⟨?_, rfl, ?_, ?_, ?_⟩
  · rw [TextSource.new, lookup_logged]
    rfl
  · decide +kernel
  · with_unfolding_all rfl
  · decide +kernel

end Session

end SplitReader
