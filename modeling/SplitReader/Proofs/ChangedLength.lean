import SplitReader.Proofs.OpenedCursor

/-! # Files that have changed their length

The stop of a range was inside the file when the source was made, and the reader finds the file as
it is by then. If the file still reaches to the stop, the window ends before the file does, and a
reader that has given all lines ends as any other one. If it does not, the window goes on where the
file has ended, and a read there fails. That failure is all that tells such a file from a range that
is at its end: the line that was read is empty, so the index does not move, and the next read fails
in the same way (`elements_changed`).
-/

set_option autoImplicit false

namespace SplitReader

namespace RangeReader

variable {σ α : Type} {files : Files} {file : Nat} {content : List UInt8} {r : RangeReader}

/-! ## Readers -/

/-- A reader stands where it should on the lines of a file of any length. It comes to the end of its
window only in a file that reaches to the stop. -/
structure Follows (file : Nat) (content : List UInt8) (r : RangeReader) : Prop where
  kind : r.tracker.kind = .byteOffset
  supply : ∃ l : LineReader, r.supply = .lines file l ∧ l.IsAligned content
  startsAt_index : r.tracker.window.index < content.length →
    Line.startsAt content r.tracker.window.index = true
  inside : content.length < r.tracker.window.stop →
    r.tracker.window.index < r.tracker.window.stop

/-- The lines that a reader has still to give. -/
def ahead (content : List UInt8) (r : RangeReader) : List Line :=
  Line.allIn content r.tracker.window.index r.tracker.window.stop

/-- Where a reader is held up in a file that does not reach to the stop. -/
def heldAt (content : List UInt8) (r : RangeReader) : Nat :=
  max content.length r.tracker.window.index

theorem Follows.ahead_of_lt (h : r.Follows file content)
    (hlt : r.tracker.window.index < r.tracker.window.stop)
    (hinside : r.tracker.window.index < content.length) :
    r.ahead content = ⟨r.tracker.window.index, Line.textAt content r.tracker.window.index⟩ ::
      Line.allIn content (Line.behind content r.tracker.window.index) r.tracker.window.stop := by
  unfold ahead Line.allIn
  rw [startsIn_cons hlt (h.startsAt_index hinside) (Line.lt_behind hinside) fun o hlo hhi =>
    Line.not_startsAt_of_lt_behind hlo hhi]
  rfl

/-- A reader with no line ahead in a file that does not reach to the stop is held up where it is. -/
theorem Follows.index_eq_heldAt (h : r.Follows file content) (hnone : r.ahead content = [])
    (hshort : content.length < r.tracker.window.stop) :
    r.tracker.window.index = r.heldAt content := by
  have hlt := h.inside hshort
  have hpast : content.length ≤ r.tracker.window.index := by
    refine Nat.le_of_not_lt fun hinside => ?_
    rw [h.ahead_of_lt hlt hinside] at hnone
    cases hnone
  exact (Nat.max_eq_right hpast).symm

/-- A reader has moved on in its window, over so many lines, and is held up at the same place. -/
structure MovedOn (file : Nat) (content : List UInt8) (count : Nat) (r r' : RangeReader) :
    Prop where
  follows : r'.Follows file content
  stop_eq : r'.tracker.window.stop = r.tracker.window.stop
  heldAt_eq : r'.heldAt content = r.heldAt content
  ahead_eq : r'.ahead content = (r.ahead content).drop count

theorem MovedOn.trans {first second : Nat} {r' r'' : RangeReader}
    (h : MovedOn file content first r r') (h' : MovedOn file content second r' r'') :
    MovedOn file content (first + second) r r'' where
  follows := h'.follows
  stop_eq := h'.stop_eq.trans h.stop_eq
  heldAt_eq := h'.heldAt_eq.trans h.heldAt_eq
  ahead_eq := by
    rw [h'.ahead_eq, h.ahead_eq, List.drop_drop]

/-- Where no line is ahead it makes no difference over how many a reader has moved. -/
theorem MovedOn.of_none {count : Nat} {r' : RangeReader} (h : MovedOn file content count r r')
    (hnone : r.ahead content = []) (other : Nat) : MovedOn file content other r r' where
  follows := h.follows
  stop_eq := h.stop_eq
  heldAt_eq := h.heldAt_eq
  ahead_eq := by
    rw [h.ahead_eq, hnone, List.drop_nil, List.drop_nil]

/-- What a read gives that passes bytes through: the next line, or the end of the range, or the
failure that the file has ended before it. -/
def given (content : List UInt8) (r : RangeReader) :
    Outcome SourceError (Option (Delivered (List UInt8))) :=
  match r.ahead content with
  | line :: _ => .value (some ⟨line.text, line.text.length⟩)
  | [] =>
      if content.length < r.tracker.window.stop then .failed (.io (.endsInside (r.heldAt content)))
      else .value none

/-- **A read moves a reader over one line**, or over none if there is none ahead. -/
theorem Follows.tryNext (hnode : files.node file = .regular content)
    (h : r.Follows file content) :
    ∃ r', MovedOn file content 1 r r' ∧
      RangeReader.tryNext files Codec.bytes.decoder (r, ()) = (r.given content, r', ()) := by
  obtain ⟨l, hsupply, haligned⟩ := h.supply
  by_cases hlt : r.tracker.window.index < r.tracker.window.stop
  · by_cases hinside : r.tracker.window.index < content.length
    · -- There is a line at the index.
      obtain ⟨l', hl', hread⟩ :=
        tryNext_line hnode Codec.bytes.decoder hsupply haligned () hlt hinside
      have hbehind := Line.behind_le content r.tracker.window.index
      let window : Window :=
        ⟨Line.behind content r.tracker.window.index, r.tracker.window.stop⟩
      refine ⟨⟨{ r.tracker with window }, .lines file l'⟩,
        ⟨⟨h.kind, ⟨l', rfl, hl'⟩, Line.startsAt_behind, fun hshort => ?_⟩, rfl, ?_, ?_⟩,
        hread.trans ?_⟩
      · exact Nat.lt_of_le_of_lt hbehind hshort
      · exact (Nat.max_eq_left hbehind).trans (Nat.max_eq_left (Nat.le_of_lt hinside)).symm
      · rw [h.ahead_of_lt hlt hinside]
        rfl
      · rw [given, h.ahead_of_lt hlt hinside]
        rfl
    · -- The file has ended before the range.
      have hpast := Nat.le_of_not_lt hinside
      obtain ⟨l', hl', hread⟩ :=
        tryNext_past hnode Codec.bytes.decoder hsupply haligned () hlt hpast
      have hnone : r.ahead content = [] := Line.allIn_of_past hpast
      refine ⟨⟨r.tracker, .lines file l'⟩,
        ⟨⟨h.kind, ⟨l', rfl, hl'⟩, h.startsAt_index, h.inside⟩, rfl, rfl, ?_⟩, hread.trans ?_⟩
      · rw [hnone]
        exact hnone
      · simp only [given, hnone, heldAt, if_pos (Nat.lt_of_le_of_lt hpast hlt),
          Nat.max_eq_right hpast]
  · -- The range is at its end.
    have hover := Nat.le_of_not_lt hlt
    have hnone : r.ahead content = [] := List.map_eq_nil_iff.mpr (startsIn_of_le _ hover)
    refine ⟨r, ⟨h, rfl, rfl, ?_⟩, ?_⟩
    · rw [hnone, List.drop_nil]
    · rw [tryNext_of_exhausted files _ () hover, given, hnone]
      simp only [if_neg fun hshort => hlt (h.inside hshort)]

/-! ## Pulls -/

/-- The items that a reader has still to give: its lines, and an error if the file ends before the
range. -/
def itemsAhead (content : List UInt8) (r : RangeReader) :
    List (Except SourceError (Delivered (List UInt8))) :=
  (r.ahead content).map (fun line => .ok ⟨line.text, line.text.length⟩) ++
    if content.length < r.tracker.window.stop then [.error (.io (.endsInside (r.heldAt content)))]
    else []

theorem itemsAhead_of_none (hnone : r.ahead content = []) :
    r.itemsAhead content =
      if content.length < r.tracker.window.stop then [.error (.io (.endsInside (r.heldAt content)))]
      else [] := by
  rw [itemsAhead, hnone]
  rfl

/-- **What pulls give, and where they leave the reader.** -/
theorem Follows.pullMany (hnode : files.node file = .regular content) (count : Nat) :
    ∀ {r : RangeReader}, r.Follows file content →
      let run := (bounded files Codec.bytes.decoder).pullMany count { state := (r, ()) }
      run.crash = none ∧ run.items = (r.itemsAhead content).take count ∧
        (run.hasEnded = true ↔ (r.itemsAhead content).length < count) ∧
        MovedOn file content count r run.pull.state.1 := by
  induction count with
  | zero =>
      intro r h
      refine ⟨rfl, rfl, ?_, h, rfl, rfl, rfl⟩
      simp [BoundedReader.pullMany]
  | succ count ih =>
      intro r h
      obtain ⟨r', hmoved, hread⟩ := h.tryNext hnode
      have hnext : (bounded files Codec.bytes.decoder).tryNext (r, ()) = _ := hread
      cases hahead : r.ahead content with
      | cons line rest =>
          -- The line at the index is the first item, and the other ones are ahead behind it.
          obtain ⟨hcrash, hitems, hended, hrest⟩ := ih hmoved.follows
          have hfirst : r.itemsAhead content =
              .ok ⟨line.text, line.text.length⟩ :: r'.itemsAhead content := by
            rw [itemsAhead, itemsAhead, hmoved.stop_eq, hmoved.heldAt_eq, hmoved.ahead_eq, hahead]
            rfl
          have hmoved' := hmoved.trans hrest
          rw [Nat.add_comm] at hmoved'
          simp only [given, hahead] at hnext
          simp only [BoundedReader.pullMany, BoundedReader.pull_of_fresh, hnext]
          refine ⟨hcrash, ?_, ?_, hmoved'⟩
          · rw [hfirst, List.take_succ_cons, ← hitems]
          · rw [hfirst, List.length_cons, Nat.succ_lt_succ_iff]
            exact hended
      | nil =>
          have hmoved' := hmoved.of_none hahead (count + 1)
          have hitems := itemsAhead_of_none hahead
          by_cases hshort : content.length < r.tracker.window.stop
          · -- The error is the last item.
            simp only [given, hahead, if_pos hshort] at hnext
            rw [if_pos hshort] at hitems
            simp only [BoundedReader.pullMany, BoundedReader.pull_of_fresh, hnext,
              BoundedReader.pullMany_of_isDone, hitems]
            refine ⟨trivial, ?_, ?_, hmoved'⟩
            · rw [List.take_succ_cons, List.take_nil]
            · rw [decide_eq_true_iff, List.length_singleton, Nat.lt_add_left_iff_pos]
          · simp only [given, hahead, if_neg hshort] at hnext
            rw [if_neg hshort] at hitems
            simp only [BoundedReader.pullMany, BoundedReader.pull_of_fresh, hnext, hitems]
            exact ⟨trivial, rfl, iff_of_true trivial (Nat.succ_pos count), hmoved'⟩

/-- **Where reads leave a reader.** -/
theorem Follows.afterReads (hnode : files.node file = .regular content)
    (h : r.Follows file content) (n : Nat) :
    MovedOn file content n r
      ((bounded files Codec.bytes.decoder).afterReads n (r, ())).1 := by
  induction n with
  | zero => exact ⟨h, rfl, rfl, rfl⟩
  | succ n ih =>
      obtain ⟨r', hmoved, hread⟩ := ih.follows.tryNext hnode
      have hnext : (bounded files Codec.bytes.decoder).tryNext
          ((bounded files Codec.bytes.decoder).afterReads n (r, ())) = _ := hread
      rw [BoundedReader.afterReads, hnext]
      exact ih.trans hmoved

/-- **Where no line is ahead, every read gives the same**: the end of the range, or the failure that
the file has ended before it, at the place where the reader stands and stays. -/
theorem Follows.afterReads_of_none (hnode : files.node file = .regular content)
    (h : r.Follows file content) (hnone : r.ahead content = []) (n : Nat) :
    let b := bounded files Codec.bytes.decoder
    let s := b.afterReads n (r, ())
    if content.length < r.tracker.window.stop then
      b.progress s = .ofPosition (.byteOffset (.ofNat (r.heldAt content))) ∧
        (b.tryNext s).1 = .failed (.io (.endsInside (r.heldAt content)))
    else (b.tryNext s).1 = .value none := by
  intro b s
  -- However often it was read, the reader has moved over no line.
  have hmoved : MovedOn file content n r s.1 := h.afterReads hnode n
  obtain ⟨r', -, hread⟩ := hmoved.follows.tryNext hnode
  have hnext : (b.tryNext s).1 = s.1.given content := congrArg Prod.fst hread
  have hnone' : s.1.ahead content = [] := by
    rw [hmoved.ahead_eq, hnone, List.drop_nil]
  simp only [given, hnone', hmoved.stop_eq, hmoved.heldAt_eq] at hnext
  by_cases hshort : content.length < r.tracker.window.stop
  · rw [if_pos hshort] at hnext ⊢
    refine ⟨?_, hnext⟩
    have hindex := hmoved.follows.index_eq_heldAt hnone' (hmoved.stop_eq ▸ hshort)
    show Progress.ofPosition (s.1.tracker.kind.position s.1.tracker.window.index) = _
    rw [hmoved.follows.kind, hindex, hmoved.heldAt_eq]
    rfl
  · rw [if_neg hshort] at hnext ⊢
    exact hnext

end RangeReader

/-! ## Fresh readers -/

namespace TextSource

open RangeReader

variable {files : Files} {file : Nat} {content : List UInt8} {source : TextSource}

/-- **A fresh reader follows the lines of the file**, and all lines that start in the range are
ahead. -/
theorem exists_follows (hlookup : files.lookup source.path = .ok (file, .regular content))
    (hrange : source.start < source.stop) :
    ∃ r, source.reader files = .ok r ∧ r.Follows file content ∧
      r.tracker.window.stop = source.stop ∧
      r.heldAt content = max content.length (source.start - 1) ∧
      r.ahead content = Line.allIn content source.start source.stop := by
  obtain ⟨r, hopen, hkind, hwindow, hsupply⟩ := exists_opened hlookup
  refine ⟨r, hopen, ?_⟩
  unfold heldAt ahead
  by_cases hstart : source.start ≤ content.length
  · rw [if_pos hstart] at hwindow
    obtain ⟨hle, hend, hstarts, hgap⟩ := Line.firstFrom_spec hstart
    rw [hwindow]
    refine ⟨⟨hkind, hsupply, ?_, ?_⟩, rfl, ?_, ?_⟩
    · rw [hwindow]
      exact hstarts
    · rw [hwindow]
      exact fun hshort => Nat.lt_of_le_of_lt hend hshort
    · simp only
      omega
    · rw [Line.allIn, Line.allIn, startsIn_skip hle hgap]
  · -- Neither the range nor the byte before it is in the file.
    rw [if_neg hstart] at hwindow
    rw [hwindow]
    refine ⟨⟨hkind, hsupply, ?_, ?_⟩, rfl, rfl, ?_⟩
    · rw [hwindow]
      exact fun hlt => absurd hlt (Nat.not_lt.mpr (Nat.le_sub_one_of_lt (Nat.lt_of_not_le hstart)))
    · rw [hwindow]
      exact fun _ => Nat.lt_of_le_of_lt (Nat.sub_le _ _) hrange
    · rw [Line.allIn_of_past (Nat.le_of_lt (Nat.lt_of_not_le hstart))]
      exact Line.allIn_of_past (Nat.le_sub_one_of_lt (Nat.lt_of_not_le hstart))

/-- **A file that has changed its length is noticed.** For every range that is not empty and every
content that its file has by now, a reader can be opened. What is pulled from it is the lines of the
content that start in the range, in order. If the content reaches to the end of the range, that is
all. If it does not, one error follows, which says that the file ends inside the range and names the
offset at which the reader stands; after it the pulls are at their end. Whenever all lines were
pulled, every later read gives the same: nothing in the first case, and in the second case that
error, where the reader stands at the same offset for ever. -/
theorem elements_changed (hlookup : files.lookup source.path = .ok (file, .regular content))
    (hrange : source.start < source.stop) :
    ∃ reader, source.reader files = .ok reader ∧
      let r := bounded files Codec.bytes.decoder
      let lines := Line.allIn content source.start source.stop
      let cursor := max content.length (source.start - 1)
      let fault := SourceError.io (.endsInside cursor)
      let items : List (Except SourceError (Delivered (List UInt8))) :=
        lines.map (fun line => .ok ⟨line.text, line.text.length⟩) ++
          if content.length < source.stop then [.error fault] else []
      ∀ limit : Option Nat, let run := r.elements limit (reader, ())
        run.crash = none ∧ run.items = items.take (limit.getD items.length) ∧
          (run.hasEnded = true ↔ ∀ n ∈ limit, items.length < n) ∧
          ((∀ n ∈ limit, lines.length ≤ n) → ∀ n, let s := r.afterReads n run.pull.state
            if content.length < source.stop then
              r.progress s = .ofPosition (.byteOffset (.ofNat cursor)) ∧
                (r.tryNext s).1 = .failed fault
            else (r.tryNext s).1 = .value none) := by
  have hnode := Files.node_of_lookup hlookup
  obtain ⟨reader, hopen, hfollows, hstop, hheld, hahead⟩ := exists_follows hlookup hrange
  refine ⟨reader, hopen, ?_⟩
  intro r lines cursor fault items limit run
  have hitems : reader.itemsAhead content = items := by
    rw [itemsAhead, hahead, hstop, hheld]
  have hlength : items.length ≤ lines.length + 1 := by
    simp only [items, List.length_append, List.length_map]
    split <;> simp
  -- Without a limit there are more pulls than there are offsets in the window.
  have hroom : lines.length ≤ r.remaining (reader, ()) := by
    simp only [lines, ← hahead]
    exact Line.length_allIn_le _ _ _
  have hpulls : run.crash = none ∧
      run.items = (reader.itemsAhead content).take (limit.getD (r.remaining (reader, ()) + 2)) ∧
      (run.hasEnded = true ↔
        (reader.itemsAhead content).length < limit.getD (r.remaining (reader, ()) + 2)) ∧
      MovedOn file content (limit.getD (r.remaining (reader, ()) + 2)) reader run.pull.state.1 :=
    hfollows.pullMany hnode _
  obtain ⟨hcrash, htaken, hended, hmoved⟩ := hpulls
  rw [hitems] at htaken hended
  have hlater : lines.length ≤ limit.getD (r.remaining (reader, ()) + 2) →
      ∀ n, let s := r.afterReads n run.pull.state
        if content.length < source.stop then
          r.progress s = .ofPosition (.byteOffset (.ofNat cursor)) ∧ (r.tryNext s).1 = .failed fault
        else (r.tryNext s).1 = .value none := by
    intro hall n
    have hnone : run.pull.state.1.ahead content = [] := by
      rw [hmoved.ahead_eq, hahead]
      exact List.drop_eq_nil_of_le hall
    have hafter := hmoved.follows.afterReads_of_none hnode hnone n
    rw [hmoved.stop_eq, hmoved.heldAt_eq, hstop, hheld] at hafter
    exact hafter
  cases limit with
  | none =>
      rw [Option.getD_none] at htaken hended hlater
      refine ⟨hcrash, ?_, hended.trans (iff_of_true (by omega) (by simp)), fun _ => ?_⟩
      · rw [htaken, Option.getD_none, List.take_length, List.take_of_length_le (by omega)]
      · exact hlater (Nat.le_add_right_of_le hroom)
  | some n =>
      rw [Option.getD_some] at htaken hended hlater
      exact ⟨hcrash, htaken, hended.trans (by simp), fun hlimit => hlater (hlimit n rfl)⟩

/-- A range was made of nine bytes, of which six are left. The two lines that start in it are given,
the last one although it was cut short, and from then on every read says that the file has ended at
the sixth byte. -/
theorem elements_changed_sixBytes :
    let files := (Session.logged 1 9 [97, 98, 10, 99, 10, 100]).files
    let r := bounded files Codec.bytes.decoder
    ∃ reader, TextSource.reader files ⟨"log", 1, 9⟩ = .ok reader ∧
      let run := r.elements none (reader, ())
      run.items = [.ok ⟨[99], 1⟩, .ok ⟨[100], 1⟩, .error (.io (.endsInside 6))] ∧
        run.hasEnded = true ∧
        ∀ n, r.progress (r.afterReads n run.pull.state) = .ofPosition (.byteOffset 6) ∧
          (r.tryNext (r.afterReads n run.pull.state)).1 = .failed (.io (.endsInside 6)) := by
  intro files r
  have hlookup := Session.lookup_logged 1 9 [97, 98, 10, 99, 10, 100]
  obtain ⟨reader, hopen, hpulls⟩ :=
    @elements_changed files 0 _ ⟨"log", 1, 9⟩ hlookup (by decide)
  obtain ⟨-, hitems, hended, hlater⟩ := hpulls none
  refine ⟨reader, hopen, hitems.trans rfl, hended.mpr (by simp), fun n => ?_⟩
  exact hlater (by simp) n

end TextSource

end SplitReader
