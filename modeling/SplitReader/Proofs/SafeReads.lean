import SplitReader.Proofs.OpenedCursor
import SplitReader.Proofs.SteadyReads

/-! # Readers do not crash by themselves

A read could crash in three ways without a fault of the decoder: the record at the index could be
missing in the list, the index could stand still, and an offset could be no word any more. None of
them happens. The stop of a list is never past its end, and splits only lower it. The record behind
the one at the index begins behind it, since a line that was read is not empty. And the bytes of a
line were fetched from a place on, so the offset behind the line is not past the place up to which
the file was fetched (`BufferedFile.StandsAt`), which is an offset inside a file, whatever the file
was when it was fetched and whatever it has become.

So in a session over a source that was accepted nothing crashes as long as the decoder does not
(`never_crashes_alone`). Files may be changed in any way between the operations. A device that fails
leaves a reader as a directory does (`readLineAt_directory_of_error`), so failed reads are seen
there as well.
-/

set_option autoImplicit false

namespace SplitReader

/-! ## Files whose lengths are signed words -/

/-- The length of a file is a signed word. -/
def FileNode.IsShort (node : FileNode) : Prop := node.length < Word.signedBound

theorem FileNode.IsShort.content_lt {node : FileNode} (h : node.IsShort) :
    node.content.length < Word.signedBound := by
  cases node with
  | regular content => exact h
  | directory => decide

def Files.AreShort (files : Files) : Prop := ∀ node ∈ files.nodes, node.IsShort

namespace Files

variable {files : Files} {path : String} {node : FileNode}

theorem AreShort.isShort_node (h : files.AreShort) (number : Nat) :
    (files.node number).IsShort := by
  unfold Files.node
  rw [List.getD_eq_getElem?_getD]
  cases hnode : files.nodes[number]? with
  | none => exact show 0 < Word.signedBound by decide
  | some node => exact h node (List.mem_of_getElem? hnode)

theorem AreShort.remove (h : files.AreShort) : (files.remove path).AreShort := h

theorem AreShort.put (h : files.AreShort) (hnode : node.IsShort) :
    (files.put path node).AreShort := by
  intro other hother
  rcases List.mem_append.mp hother with hold | hnew
  · exact h other hold
  · rw [List.mem_singleton.mp hnew]
    exact hnode

theorem AreShort.overwrite (h : files.AreShort) (hnode : node.IsShort) :
    (files.overwrite path node).AreShort := by
  unfold Files.overwrite
  cases files.number? path with
  | none => exact h.put hnode
  | some number =>
      intro other hother
      rcases List.mem_or_eq_of_mem_set hother with hold | rfl
      · exact h other hold
      · exact hnode

end Files

/-! ## Buffered files -/

namespace BufferedFile

variable {f f' : BufferedFile} {d d' : Device} {offset limit : Nat}

/-- The unused bytes of a buffered file begin at an offset, and it was fetched up to a place below a
limit. -/
structure StandsAt (offset limit : Nat) (f : BufferedFile) : Prop where
  position_eq : offset + f.buffer.length = f.position
  position_lt : f.position < limit

theorem StandsAt.offset_lt (h : f.StandsAt offset limit) : offset < limit := by
  have heq := h.position_eq
  have hlt := h.position_lt
  omega

theorem standsAt_seek (h : offset < limit) : (seek offset).StandsAt offset limit := ⟨rfl, h⟩

/-- Fetching a block does not move on, and fetches nothing from behind the end of the file. -/
theorem StandsAt.fill (h : f.StandsAt offset limit) (hd : d.node.content.length < limit)
    (hfill : f.fill d = (.ok f', d')) : f'.StandsAt offset limit := by
  have heq := h.position_eq
  have hlt := h.position_lt
  unfold BufferedFile.fill at hfill
  split at hfill
  · next hempty =>
    rw [List.isEmpty_iff.mp hempty, List.length_nil] at heq
    split at hfill
    · next bytes d'' hread =>
      have hlength := Device.length_le_of_read hread
      cases hfill
      exact ⟨by simp only; omega, by simp only; omega⟩
    · cases hfill
  · cases hfill
    exact h

/-- **Reading a line moves on by its bytes**, whatever blocks it was fetched in. -/
theorem StandsAt.readLine (f : BufferedFile) (d : Device) :
    ∀ {offset : Nat} {line : List UInt8} {f' : BufferedFile} {d' : Device},
      f.StandsAt offset limit → d.node.content.length < limit →
        f.readLine d = (.ok (line, f'), d') → f'.StandsAt (offset + line.length) limit := by
  fun_induction BufferedFile.readLine f d with
  | case1 f d e d1 hfill =>
      rintro offset line f' d' - - ⟨⟩
  | case2 f d f1 d1 hfill hempty =>
      rintro offset line f' d' h hd ⟨rfl⟩
      exact h.fill hd hfill
  | case3 f d f1 d1 hfill hempty hfeed =>
      -- The line ends inside the buffer, so what is left of the buffer begins behind it.
      rintro offset line f' d' h hd ⟨rfl⟩
      have hstands := h.fill hd hfill
      have hmem : lineFeed ∈ f1.buffer := List.contains_iff_mem.mp hfeed
      have hlength := (firstLine_isPrefix f1.buffer).length_le
      rw [← takeWhile_append_lineFeed hmem] at hlength
      refine ⟨?_, hstands.position_lt⟩
      rw [List.length_drop, Nat.add_assoc, Nat.add_sub_cancel' hlength]
      exact hstands.position_eq
  | case4 f d f1 d1 hfill hempty hfeed e d2 hread ih =>
      rintro offset line f' d' - - ⟨⟩
  | case5 f d f1 d1 hfill hempty hfeed line1 f2 d2 hread ih =>
      -- The line goes on behind the buffer, from the place up to which the file was fetched.
      rintro offset line f' d' h hd ⟨rfl⟩
      have hstands := h.fill hd hfill
      have hnode := (rest_of_fill hfill).1
      rw [List.length_append, ← Nat.add_assoc]
      exact ih ⟨hstands.position_eq, hstands.position_lt⟩ (hnode ▸ hd) hread

end BufferedFile

/-! ## Line readers -/

namespace LineReader

variable {l l' : LineReader} {d d' : Device} {offset limit : Nat}

/-- If a line reader remembers an offset, its file stands there. -/
def IsPlaced (limit : Nat) (l : LineReader) : Prop :=
  ∀ offset, l.offset = some offset → l.file.StandsAt offset limit

/-- **The offset behind a line is inside the file**, and the line reader is placed again, also when
the read has failed. -/
theorem IsPlaced.readLineAt {outcome : Except IoError (List UInt8 × Nat)} (h : l.IsPlaced limit)
    (hd : d.node.content.length < limit) (hoffset : offset < limit)
    (hread : l.readLineAt offset d = (outcome, l', d')) :
    l'.IsPlaced limit ∧ ∀ text used, outcome = .ok (text, used) → offset + used < limit := by
  have hfile : (l.fileAt offset).StandsAt offset limit := by
    unfold fileAt
    split
    · next hsame => exact h offset hsame
    · exact BufferedFile.standsAt_seek hoffset
  unfold LineReader.readLineAt at hread
  split at hread
  · next e d1 hline =>
    cases hread
    -- A reader that has forgotten its offset is placed.
    refine ⟨?_, ?_⟩
    · rintro o ⟨⟩
    · rintro text used ⟨⟩
  · next line file d1 hline =>
    have hstands := BufferedFile.StandsAt.readLine _ _ hfile hd hline
    have hplaced : IsPlaced limit { file := file, offset := some (offset + line.length) } := by
      rintro o ⟨rfl⟩
      exact hstands
    split at hread
    · cases hread
      exact ⟨hplaced, by rintro text used ⟨⟩⟩
    · cases hread
      refine ⟨hplaced, ?_⟩
      rintro text used ⟨rfl⟩
      exact hstands.offset_lt

end LineReader

/-! ## Devices that fail -/

namespace BufferedFile

theorem readLine_of_fill_error {f : BufferedFile} {d d' : Device} {e : IoError}
    (h : f.fill d = (.error e, d')) : f.readLine d = (.error e, d') := by
  rw [readLine]
  split
  · next hfill =>
    cases hfill.symm.trans h
    rfl
  · next hfill => cases hfill.symm.trans h

/-- Where a device fails, a directory would have failed. -/
theorem readLine_directory_of_error (f : BufferedFile) (d : Device) :
    ∀ {e : IoError} {d' : Device}, f.readLine d = (.error e, d') →
      f.readLine { node := .directory } = (.error .isDirectory, { node := .directory }) := by
  -- Without bytes that wait, a directory fails at once.
  have hempty : ∀ {g : BufferedFile}, g.buffer.isEmpty = true →
      g.readLine { node := .directory } = (.error .isDirectory, { node := .directory }) := by
    intro g hg
    refine readLine_of_fill_error ?_
    rw [fill, if_pos hg]
    rfl
  fun_induction readLine f d with
  | case1 f d e d1 hfill =>
      rintro e' d' -
      refine hempty ?_
      unfold fill at hfill
      split at hfill
      · next hg => exact hg
      · cases hfill
  | case2 f d f1 d1 hfill hnone =>
      rintro e' d' ⟨⟩
  | case3 f d f1 d1 hfill hnone hfeed =>
      rintro e' d' ⟨⟩
  | case4 f d f1 d1 hfill hnone hfeed e d2 hread ih =>
      rintro e' d' -
      by_cases hg : f.buffer.isEmpty = true
      · exact hempty hg
      · -- The bytes that wait end no line, and the directory fails behind them.
        have hsame : ∀ d : Device, f.fill d = (.ok f, d) := fun d => if_neg hg
        obtain ⟨hf, -⟩ := Prod.mk.inj ((hsame d).symm.trans hfill)
        cases hf
        rw [readLine]
        split
        · next hfail => cases (hsame _).symm.trans hfail
        · next hgiven =>
          cases (hsame _).symm.trans hgiven
          rw [if_neg hnone, if_neg hfeed, ih hread]
  | case5 f d f1 d1 hfill hnone hfeed line f2 d2 hread ih =>
      rintro e' d' ⟨⟩

end BufferedFile

/-- **A read that fails on its device leaves a line reader as a read of a directory does.** So what
becomes of readers while devices fail is seen in sessions in which a file is a directory for a
while. -/
theorem LineReader.readLineAt_directory_of_error {l l' : LineReader} {d d' : Device} {offset : Nat}
    {e : IoError} (h : l.readLineAt offset d = (.error e, l', d')) (he : e ≠ .endsInside offset) :
    l.readLineAt offset { node := .directory } =
      (.error .isDirectory, l', { node := .directory }) := by
  unfold readLineAt at h ⊢
  split at h
  · next hline =>
    cases h
    rw [BufferedFile.readLine_directory_of_error _ _ hline]
  · split at h
    · cases h
      exact absurd rfl he
    · cases h

/-! ## Readers -/

namespace RangeReader

variable {files : Files} {r : RangeReader}

/-- A reader whose reads cannot go wrong by themselves. -/
inductive IsSafe (r : RangeReader) : Prop where
  | records {records : List (List UInt8)} (h : r.ReadsRecords records)
      (hlength : records.length < UInt64.size)
  | lines {file : Nat} {l : LineReader} (hsupply : r.supply = .lines file l)
      (hplaced : l.IsPlaced Word.signedBound) (hindex : r.tracker.window.index < Word.signedBound)
      (hstop : r.tracker.window.stop < Word.signedBound)

theorem IsSafe.index_lt (h : r.IsSafe) : r.tracker.window.index < UInt64.size := by
  have hsize := Word.two_signedBound
  cases h with
  | records h hlength =>
      have hindex := h.index_le
      have hstop := h.stop_le
      omega
  | lines hsupply hplaced hindex => omega

theorem IsSafe.stop_lt (h : r.IsSafe) : r.tracker.window.stop < UInt64.size := by
  have hsize := Word.two_signedBound
  cases h with
  | records h hlength =>
      have hstop := h.stop_le
      omega
  | lines hsupply hplaced hindex hstop => omega

theorem IsSafe.stopsInside (h : r.IsSafe) : r.StopsInside := by
  intro records hsupply
  cases h with
  | @records own h =>
      obtain rfl : own = records := Supply.records.inj (h.supply.symm.trans hsupply)
      exact h.stop_le
  | lines hlines =>
      rw [hsupply] at hlines
      cases hlines

/-- The offset behind a line is a word, however the device gave it. -/
theorem IsSafe.of_lines {file used : Nat} {l l' : LineReader} {d d' : Device} {text : List UInt8}
    (h : r.IsSafe) (hsupply : r.supply = .lines file l)
    (hd : d.node.content.length < Word.signedBound)
    (hread : l.readLineAt r.tracker.window.index d = (.ok (text, used), l', d')) :
    r.tracker.window.index + used < UInt64.size := by
  have hsize := Word.two_signedBound
  cases h with
  | records h =>
      have hrecords := h.supply
      rw [hsupply] at hrecords
      cases hrecords
  | @lines own m hlines hplaced hindex =>
      obtain ⟨-, rfl⟩ := Supply.lines.inj (hlines.symm.trans hsupply)
      obtain ⟨-, hused⟩ := hplaced.readLineAt hd hindex hread
      have hbehind := hused text used rfl
      omega

/-- Inside its window a reader stays safe, whether it is supplied with a record or not. -/
theorem IsSafe.fetch {fetched : Outcome SourceError (List UInt8 × Nat)} {supply : Supply}
    (h : r.IsSafe) (hfiles : files.AreShort)
    (hlt : r.tracker.window.index < r.tracker.window.stop)
    (hfetch : r.supply.fetch files r.tracker.window.index = (fetched, supply)) :
    RangeReader.IsSafe ⟨r.tracker, supply⟩ ∧
      ∀ bytes following, fetched = .value (bytes, following) →
        RangeReader.IsSafe
          ⟨{ r.tracker with window := ⟨following, r.tracker.window.stop⟩ }, supply⟩ := by
  cases h with
  | @records records h hlength =>
      have hinside : r.tracker.window.index < records.length := Nat.lt_of_lt_of_le hlt h.stop_le
      rw [h.supply] at hfetch
      simp only [Supply.fetch, List.getElem?_eq_getElem hinside] at hfetch
      cases hfetch
      refine ⟨.records ⟨h.kind, rfl, h.index_le, h.stop_le⟩ hlength, ?_⟩
      rintro bytes following ⟨rfl⟩
      exact .records ⟨h.kind, rfl, hlt, h.stop_le⟩ hlength
  | @lines file l hsupply hplaced hindex hstop =>
      have hshort := (hfiles.isShort_node file).content_lt
      rw [hsupply] at hfetch
      rcases hread : l.readLineAt r.tracker.window.index { node := files.node file } with
        ⟨e | ⟨text, used⟩, l', d'⟩ <;>
        obtain ⟨hl', hused⟩ := hplaced.readLineAt hshort hindex hread <;>
        simp only [Supply.fetch, hread] at hfetch <;>
        cases hfetch
      · exact ⟨.lines rfl hl' hindex hstop, by rintro bytes following ⟨⟩⟩
      · refine ⟨.lines rfl hl' hindex hstop, ?_⟩
        rintro bytes following ⟨rfl⟩
        exact .lines rfl hl' (hused text used rfl) hstop

variable {σ α : Type} {decoder : Decoder σ α}

/-- **A reader stays safe whatever a read gives.** -/
theorem IsSafe.tryNext (h : r.IsSafe) (hfiles : files.AreShort) (hdecoder : decoder.IsSteady)
    (c : σ) : (tryNext files decoder (r, c)).2.1.IsSafe := by
  rcases hread : RangeReader.tryNext files decoder (r, c) with ⟨outcome, s⟩
  have hcalm := h.stopsInside.not_crashed hdecoder hread
  cases reads_of_eq hread with
  | exhausted => exact h
  | unsupplied hlt hfetch => exact (h.fetch hfiles hlt hfetch).1
  | lost => exact absurd rfl (hcalm _)
  | undecoded hlt hfetch => exact (h.fetch hfiles hlt hfetch).1
  | broken => exact absurd rfl (hcalm _)
  | decoded hlt hfetch => exact (h.fetch hfiles hlt hfetch).2 _ _ rfl

theorem IsSafe.trySplit {r' : RangeReader} {proposed : Progress} {position : Position}
    (h : r.IsSafe) (hsplit : r.trySplit proposed = .ok (position, r')) : r'.IsSafe := by
  cases h with
  | records h hlength => exact .records (h.trySplit hsplit) hlength
  | lines hsupply hplaced hindex hstop =>
      obtain ⟨offset, -, -, -, hhi, -, rfl⟩ := trySplit_eq_ok_iff.mp hsplit
      exact .lines hsupply hplaced hindex (Nat.lt_trans hhi hstop)

end RangeReader

/-! ## Sources -/

/-- The first line start behind an offset is a place of the file, and the file stands there. -/
theorem TextSource.standsAt_skipTo {start first limit : Nat} {d : Device} {f : BufferedFile}
    (hstart : start < limit) (hd : d.node.content.length < limit)
    (hskip : skipTo start d = .ok (first, f)) : f.StandsAt first limit := by
  unfold skipTo at hskip
  split at hskip
  · next hzero =>
    cases hskip
    exact BufferedFile.standsAt_seek (hzero ▸ hstart)
  · split at hskip
    · next skipped file d' hline =>
      have hbefore : start - 1 < limit := Nat.lt_of_le_of_lt (Nat.sub_le start 1) hstart
      cases hskip
      exact (BufferedFile.standsAt_seek hbefore).readLine _ _ hd hline
    · cases hskip

namespace Source

variable {source : Source} {files : Files} {r : RangeReader}

/-- How long a sequence may be, so that its offsets are words. -/
def lengthBound : Source → Nat
  | memory _ => UInt64.size
  | text _ => Word.signedBound

/-- **A fresh reader is safe**, also on a file that has changed since the source was made. -/
theorem IsAccepted.isSafe_reader {length : Nat} (h : source.IsAccepted length)
    (hshort : length < source.lengthBound) (hfiles : files.AreShort)
    (hopen : source.reader files = .ok r) : r.IsSafe := by
  obtain ⟨hle, hlength⟩ := h.le
  cases h with
  | memory h =>
      obtain ⟨rfl, -⟩ := MemorySource.new_eq_ok h
      cases hopen
      exact .records (MemorySource.readsRecords_reader hle hlength) hshort
  | @text _ _ _ _ _ _ s hlookup h =>
      have hstop : s.stop < Word.signedBound := Nat.lt_of_le_of_lt hlength hshort
      have hstart : s.start < Word.signedBound := Nat.lt_of_le_of_lt hle hstop
      simp only [Source.reader, TextSource.reader] at hopen
      split at hopen
      · cases hopen
      · next number now hnow =>
        have hnode : now.IsShort := Files.node_of_lookup hnow ▸ hfiles.isShort_node number
        unfold TextSource.readerOn at hopen
        split at hopen
        · cases hopen
        · next first file hskip =>
          have hstands := TextSource.standsAt_skipTo hstart hnode.content_lt hskip
          cases hopen
          refine .lines rfl ?_ hstands.offset_lt hstop
          rintro offset ⟨rfl⟩
          exact hstands

end Source

/-! ## Sessions -/

theorem BoundedReader.crash_pullMany {S α : Type} {r : BoundedReader S α} {P : S → Prop}
    (hread : ∀ s, P s → P (r.tryNext s).2)
    (hcalm : ∀ s text, P s → (r.tryNext s).1 ≠ .crashed text) (count : Nat) :
    ∀ p : Pull S, P p.state → (r.pullMany count p).crash = none := by
  induction count with
  | zero => exact fun p hp => rfl
  | succ count ih =>
      rintro ⟨s, isDone⟩ hp
      cases isDone with
      | true => rw [pullMany_of_isDone r rfl]
      | false =>
          have hafter := hread s hp
          have hnone := hcalm s
          rcases hnext : r.tryNext s with ⟨(_ | d) | e | text, s'⟩ <;>
            rw [hnext] at hafter hnone <;>
            simp only [pullMany, pull_of_fresh, hnext]
          · exact ih _ hafter
          · exact ih _ hafter
          · exact absurd rfl (hnone text hp)

namespace Session

variable {σ α : Type} {files : Files} {decoder : Decoder σ α}

/-- The answer tells of a crash. -/
def Reply.isCrash : Reply α → Bool
  | .next (.crashed _) | .tryNext (.crashed _) | .elementsCrashed _ => true
  | _ => false

/-- A call of a reader that stops inside its list does not crash. -/
theorem Call.isCrash_effect {range : RangeReader} (h : range.StopsInside)
    (hdecoder : decoder.IsSteady) (codec : σ) (call : Call) :
    (call.effect files decoder range codec).reply.isCrash = false := by
  have hcalm : ∀ text, (RangeReader.tryNext files decoder (range, codec)).1 ≠ .crashed text :=
    h.not_crashed hdecoder rfl
  cases call with
  | hasNext => rfl
  | progress => rfl
  | next =>
      simp only [effect, BoundedReader.next, RangeReader.bounded]
      rcases hnext : RangeReader.tryNext files decoder (range, codec) with
        ⟨(_ | d) | e | text, used⟩
      · rfl
      · rfl
      · rfl
      · exact absurd (congrArg Prod.fst hnext) (hcalm text)
  | tryNext =>
      simp only [effect, RangeReader.bounded]
      rcases hnext : RangeReader.tryNext files decoder (range, codec) with
        ⟨(_ | d) | e | text, used⟩
      · rfl
      · rfl
      · rfl
      · exact absurd (congrArg Prod.fst hnext) (hcalm text)
  | trySplit proposed =>
      simp only [effect]
      cases range.trySplit proposed <;> rfl
  | split proposed =>
      simp only [effect]
      cases range.trySplit proposed <;> rfl
  | elements limit =>
      have hcrash :
          ((RangeReader.bounded files decoder).elements limit (range, codec)).crash = none :=
        BoundedReader.crash_pullMany (P := fun s : RangeReader × σ => s.1.StopsInside)
          (fun s hs => hs.tryNext files decoder s.2)
          (fun s text hs => hs.not_crashed hdecoder rfl text) _ _ h
      simp only [effect, hcrash]
      rfl

/-- A file that the operation brings has a length that is a signed word. -/
def Action.BringsShort : Action → Prop
  | .replaceFile (some node) | .rewriteFile node => node.IsShort
  | _ => True

/-- A session in which nothing can go wrong by itself. -/
structure IsSafe (s : Session σ) : Prop where
  source : ∃ length, s.source.IsAccepted length ∧ length < s.source.lengthBound
  files : s.files.AreShort
  readers : ∀ r ∈ s.readers, r.range.IsSafe

variable {s : Session σ}

/-- **An operation in a safe session does not crash**, and leaves it safe. -/
theorem IsSafe.perform (h : s.IsSafe) (hdecoder : decoder.IsSteady) {action : Action}
    (hshort : action.BringsShort) :
    (s.perform decoder action).1.isCrash = false ∧ (s.perform decoder action).2.IsSafe := by
  by_cases hkeeps : action.keepsFiles = true
  · have hperforms := perform_cases decoder s hkeeps
    generalize s.perform decoder action = after at hperforms
    obtain ⟨reply, s'⟩ := after
    cases hperforms with
    | opened hopen =>
        refine ⟨rfl, h.source, h.files, ?_⟩
        intro r hr
        rcases List.mem_append.mp hr with hold | hnew
        · exact h.readers r hold
        · rw [List.mem_singleton.mp hnew]
          obtain ⟨length, haccepted, hlength⟩ := h.source
          exact haccepted.isSafe_reader hlength h.files hopen
    | refused => exact ⟨rfl, h⟩
    | registered => exact ⟨rfl, h.source, h.files, h.readers⟩
    | @called number r call hreader =>
        have hr := h.readers r (List.mem_of_getElem? hreader)
        refine ⟨Call.isCrash_effect hr.stopsInside hdecoder _ call, h.source, h.files, ?_⟩
        intro other hother
        rcases List.mem_or_eq_of_mem_set hother with hold | rfl
        · exact h.readers other hold
        · -- A call consists of reads and splits, and each of them keeps a range safe.
          exact Call.effect_of_step
            (fun _ q c hq => hq.tryNext h.files hdecoder c)
            (fun q proposed position q' hq hsplit => hq.trySplit hsplit) _ hr
    | missed => exact ⟨rfl, h⟩
  · cases action with
    | replaceFile node =>
        cases node with
        | none => exact ⟨rfl, h.source, h.files.remove, h.readers⟩
        | some node => exact ⟨rfl, h.source, h.files.put hshort, h.readers⟩
    | rewriteFile node => exact ⟨rfl, h.source, h.files.overwrite hshort, h.readers⟩
    | _ => exact absurd rfl hkeeps

theorem IsSafe.performAll (hdecoder : decoder.IsSteady) (actions : List Action) :
    (∀ action ∈ actions, action.BringsShort) → ∀ {s : Session σ}, s.IsSafe →
      (∀ reply ∈ (s.performAll decoder actions).1, reply.isCrash = false) ∧
        (s.performAll decoder actions).2.IsSafe := by
  induction actions with
  | nil =>
      intro hshort s h
      exact ⟨List.forall_mem_nil _, h⟩
  | cons action actions ih =>
      intro hshort s h
      obtain ⟨haction, hactions⟩ := List.forall_mem_cons.mp hshort
      obtain ⟨hcalm, hafter⟩ := h.perform hdecoder haction
      obtain ⟨hcalms, hend⟩ := ih hactions hafter
      exact ⟨List.forall_mem_cons.mpr ⟨hcalm, hcalms⟩, hend⟩

/-- **Nothing crashes as long as the decoder does not.** Let bounds be accepted over a list of fewer
records than there are words, or over a file whose length is a signed word. Let readers be opened,
read from and split in any order, and let the file be changed in between in any way that keeps its
length a signed word. The range lies in order, so its length is the difference of its ends. No
operation crashes. And in every state that is reached, the index and the stop of every reader are
words; if its window is not exhausted, the index is inside the list, and the offset behind the
record to be read is behind the index and a word, also on a device whose reads give too little or
fail. -/
theorem never_crashes_alone (hdecoder : decoder.IsSteady) {s : Session σ} {length : Nat}
    (hsource : s.source.IsAccepted length) (hlength : length < s.source.lengthBound)
    (hfiles : s.files.AreShort) (hreaders : s.readers = [])
    {actions : List Action} (hactions : ∀ action ∈ actions, action.BringsShort) :
    s.source.start ≤ s.source.stop ∧
      (∀ reply ∈ (s.performAll decoder actions).1, reply.isCrash = false) ∧
      ∀ r ∈ (s.performAll decoder actions).2.readers,
        let window := r.range.tracker.window
        window.index < UInt64.size ∧ window.stop < UInt64.size ∧
          (window.index < window.stop →
            (∀ records, r.range.supply = .records records →
              window.index < records.length ∧ window.index + 1 < UInt64.size) ∧
            ∀ file reader, r.range.supply = .lines file reader →
              ∀ (device : Device) text used reader' device', device.node.IsShort →
                reader.readLineAt window.index device = (.ok (text, used), reader', device') →
                  window.index < window.index + used ∧ window.index + used < UInt64.size) := by
  -- Readers that are there already could be anything, so the session begins without any.
  have hnone : ∀ r ∈ s.readers, r.range.IsSafe := by
    rw [hreaders]
    exact List.forall_mem_nil _
  have hsafe : s.IsSafe := ⟨⟨length, hsource, hlength⟩, hfiles, hnone⟩
  obtain ⟨hcalm, hend⟩ := IsSafe.performAll hdecoder actions hactions hsafe
  refine ⟨hsource.le.1, hcalm, fun r hr => ?_⟩
  have hr := hend.readers r hr
  have hstop := hr.stop_lt
  refine ⟨hr.index_lt, hstop, fun hlt => ⟨fun records hsupply => ⟨?_, ?_⟩, ?_⟩⟩
  · exact Nat.lt_of_lt_of_le hlt (hr.stopsInside records hsupply)
  · exact Nat.lt_of_le_of_lt hlt hstop
  · rintro file reader hsupply device text used reader' device' hshort hread
    exact ⟨Nat.lt_add_of_pos_right (LineReader.pos_of_readLineAt hread),
      hr.of_lines hsupply hshort.content_lt hread⟩

/-- A list of operations in which a line is no text, a stop is moved, the file is a directory for a
while, and has become too short when everything that is left is read. -/
def hardships : List Action :=
  [.openReader, .openReader, .call 0 .next, .call 0 .tryNext, .rewriteFile .directory,
    .call 0 .tryNext, .call 1 (.trySplit (.ofPosition (.byteOffset 5))),
    .rewriteFile (.regular [97, 10, 98, 10]), .call 1 (.elements none), .call 0 .next,
    .call 0 .tryNext]

theorem never_crashes_alone_hardships :
    let s := logged 0 8 [97, 10, 98, 10, 255, 10, 99, 10]
    let run := s.performAll Codec.text.decoder hardships
    (∀ reply ∈ run.1, reply.isCrash = false) ∧
      run.2.readers.map (fun r => r.range.tracker.window) = [⟨4, 8⟩, ⟨4, 5⟩] := by
  intro s run
  have hnode : (FileNode.regular [97, 10, 98, 10, 255, 10, 99, 10]).IsShort := by
    unfold FileNode.IsShort
    decide
  have hnew : TextSource.new s.files "log" none none = .ok ⟨"log", 0, 8⟩ :=
    (TextSource.new_eq_ok_iff (lookup_logged 0 8 _)).mpr ⟨rfl, rfl⟩
  have hsource : s.source.IsAccepted 8 := .text (lookup_logged 0 8 _) hnew
  have hfiles : s.files.AreShort := List.forall_mem_singleton.mpr hnode
  have hactions : ∀ action ∈ hardships, action.BringsShort := by
    simp [hardships, Action.BringsShort, FileNode.IsShort, FileNode.length]
    decide
  obtain ⟨-, hcalm, -⟩ :=
    never_crashes_alone Codec.text.isSteady_decoder hsource (by decide) hfiles rfl hactions
  exact ⟨hcalm, by decide +kernel⟩

end Session

end SplitReader
