import Mathlib.Tactic.Set
import SplitReader.Proofs.Lines

/-! # Line readers give lines

A buffered file stands for the bytes that it has not used yet: those in its buffer and those that
follow its place on the device. Reading a line takes the bytes up to and with the next line feed
from the front of these, however the device cuts its blocks. So a line reader whose remembered
offset, if it has one, is the offset of its unused bytes gives the line that starts at the offset
it is asked for, and is such a reader again, also after a fault.

Whatever reads a device, directly or in many blocks, uses up the fates of its reads and fails
exactly if one of them was a failure (`Device.Step`). So a read of a line fails with the fault of
the device, or finds the line, or the end of the content (`LineReader.Reads.readLineAt`).
-/

set_option autoImplicit false

namespace SplitReader

/-! ## Devices -/

/-- A read gives a beginning of the bytes behind its place, and if it has room nothing only at the
end. -/
theorem Device.prefix_of_read {position room : Nat} {d d' : Device} {bytes : List UInt8}
    (hroom : 0 < room) (h : d.read position room = (.ok bytes, d')) :
    bytes <+: d.node.content.drop position ∧
      (bytes = [] → d.node.content.drop position = []) := by
  obtain ⟨node, fates⟩ := d
  -- A short read has less room, but never none.
  have key : ∀ (content : List UInt8) (n : Nat), 0 < n →
      content.take n <+: content ∧ (content.take n = [] → content = []) := by
    intro content n hn
    refine ⟨List.take_prefix n content, fun hnil => ?_⟩
    exact (List.take_eq_nil_iff.mp hnil).resolve_left (by omega)
  cases node with
  | directory => cases h
  | regular content =>
      cases fates with
      | nil => cases h; exact key _ room hroom
      | cons fate fates =>
          cases fate with
          | whole => cases h; exact key _ room hroom
          | short extra => cases h; exact key _ (min room (extra + 1)) (by omega)
          | fail => cases h

/-- A device holds a content, and none of its reads is fated to fail. -/
structure Device.Holds (d : Device) (content : List UInt8) : Prop where
  node : d.node = .regular content
  fates : Fate.fail ∉ d.fates

/-! ### What a device does in a step -/

namespace Device

/-- A step that is given a device and leaves one behind. The fates that its reads of the device had
are used up, and it fails with the fault of the device exactly if one of them was a failure. -/
inductive Step {α : Type} (d : Device) : Except IoError α × Device → Prop where
  | gave {a : α} {d' : Device} (fates : List Fate) (hnode : d'.node = d.node)
      (hfates : d.fates = fates ++ d'.fates) (hfine : Fate.fail ∉ fates) : Step d (.ok a, d')
  | failed {d' : Device} (fates : List Fate) (hnode : d'.node = d.node)
      (hfates : d.fates = fates ++ d'.fates) (hfail : Fate.fail ∈ fates) :
      Step d (.error fault, d')

variable {α β : Type} {content : List UInt8} {d d' : Device}

theorem step_pure (a : α) (d : Device) : d.Step (.ok a, d) :=
  .gave [] rfl rfl List.not_mem_nil

theorem Step.of_ok {a : α} (h : d.Step (.ok a, d')) (b : β) : d.Step (.ok b, d') := by
  cases h with
  | gave fates hnode hfates hfine => exact .gave fates hnode hfates hfine

theorem Step.of_error {e : IoError} (h : d.Step ((.error e : Except IoError α), d')) :
    d.Step ((.error e : Except IoError β), d') := by
  cases h with
  | failed fates hnode hfates hfail => exact .failed fates hnode hfates hfail

theorem Step.append {a : α} {result : Except IoError β × Device} (h : d.Step (.ok a, d'))
    (h' : d'.Step result) : d.Step result := by
  cases h with
  | gave fates hnode hfates hfine =>
      cases h' with
      | gave more hnode' hfates' hfine' =>
          refine .gave (fates ++ more) (hnode'.trans hnode) ?_ ?_
          · rw [hfates, hfates', List.append_assoc]
          · rw [List.mem_append]
            rintro (hmem | hmem)
            · exact hfine hmem
            · exact hfine' hmem
      | failed more hnode' hfates' hfail =>
          refine .failed (fates ++ more) (hnode'.trans hnode) ?_ (List.mem_append_right _ hfail)
          rw [hfates, hfates', List.append_assoc]

theorem step_read (h : d.node = .regular content) (position room : Nat) :
    d.Step (d.read position room) := by
  obtain ⟨node, fates⟩ := d
  cases h
  cases fates with
  | nil => exact step_pure _ _
  | cons fate fates =>
      cases fate with
      | whole => exact .gave [.whole] rfl rfl (by simp)
      | short extra => exact .gave [.short extra] rfl rfl (by simp)
      | fail => exact .failed [.fail] rfl rfl (by simp)

theorem Holds.exists_ok {result : Except IoError α × Device} (h : d.Holds content)
    (hstep : d.Step result) : ∃ a d', result = (.ok a, d') := by
  cases hstep with
  | gave => exact ⟨_, _, rfl⟩
  | failed fates hnode hfates hfail =>
      exact absurd (hfates ▸ List.mem_append_left _ hfail) h.fates

end Device

/-! ## Buffered files -/

namespace BufferedFile

/-- The bytes of a content that were not used yet. -/
def rest (f : BufferedFile) (content : List UInt8) : List UInt8 :=
  f.buffer ++ content.drop f.position

/-- The bytes up to and with the first line feed, or all if there is none. -/
def firstLine (bytes : List UInt8) : List UInt8 := bytes.take (bytes.idxOf lineFeed + 1)

theorem firstLine_isPrefix (bytes : List UInt8) : firstLine bytes <+: bytes :=
  List.take_prefix _ bytes

theorem firstLine_eq_nil_iff {bytes : List UInt8} : firstLine bytes = [] ↔ bytes = [] := by
  simp [firstLine]

theorem takeWhile_append_lineFeed {bytes : List UInt8} (h : lineFeed ∈ bytes) :
    bytes.takeWhile (· != lineFeed) ++ [lineFeed] = firstLine bytes := by
  have hlt := List.idxOf_lt_length_of_mem h
  have hpred : (fun b : UInt8 => !(b != lineFeed)) = (· == lineFeed) := by
    funext b
    simp [bne]
  rw [firstLine, List.take_add_one, List.getElem?_eq_getElem hlt, List.getElem_idxOf hlt,
    List.takeWhile_eq_take_findIdx_not, hpred]
  rfl

theorem firstLine_append_of_mem {bytes : List UInt8} (h : lineFeed ∈ bytes)
    (more : List UInt8) : firstLine (bytes ++ more) = firstLine bytes := by
  have hlt := List.idxOf_lt_length_of_mem h
  rw [firstLine, firstLine, List.idxOf_append, if_pos h, List.take_append_of_le_length hlt]

theorem firstLine_append_of_notMem {bytes : List UInt8} (h : lineFeed ∉ bytes)
    (more : List UInt8) : firstLine (bytes ++ more) = bytes ++ firstLine more := by
  rw [firstLine, firstLine, List.idxOf_append, if_neg h, List.take_append,
    List.take_of_length_le (by omega)]
  congr 2
  omega

@[simp] theorem rest_seek (offset : Nat) (content : List UInt8) :
    (seek offset).rest content = content.drop offset := rfl

theorem blockSize_pos : 0 < blockSize := by decide

/-- Fetching a block changes no unused bytes, and brings some if there are any. -/
theorem rest_of_fill {f f' : BufferedFile} {d d' : Device} (h : f.fill d = (.ok f', d')) :
    d'.node = d.node ∧ f'.rest d.node.content = f.rest d.node.content ∧
      (f'.buffer = [] → f.rest d.node.content = []) := by
  unfold fill at h
  split at h
  · next hempty =>
    have hbuffer : f.buffer = [] := List.isEmpty_iff.mp hempty
    split at h
    · next bytes d'' hread =>
      have hnode := Device.node_read f.position blockSize d
      obtain ⟨⟨behind, hbehind⟩, hnone⟩ := Device.prefix_of_read blockSize_pos hread
      rw [hread] at hnode
      cases h
      refine ⟨hnode, ?_, ?_⟩
      · rw [rest, rest, hbuffer, ← List.drop_drop, ← hbehind, List.drop_left]
        rfl
      · intro hnil
        rw [rest, hbuffer, List.nil_append]
        exact hnone hnil
    · cases h
  · next hfull =>
    cases h
    exact ⟨rfl, rfl, fun hnone => absurd (List.isEmpty_iff.mpr hnone) hfull⟩

/-- **Reading a line takes the first line from the front of the unused bytes.** -/
theorem eq_firstLine_of_readLine (f : BufferedFile) (d : Device) :
    ∀ {line : List UInt8} {f' : BufferedFile} {d' : Device},
      f.readLine d = (.ok (line, f'), d') →
        d'.node = d.node ∧ line = firstLine (f.rest d.node.content) ∧
          f.rest d.node.content = line ++ f'.rest d.node.content := by
  fun_induction readLine f d with
  | case1 f d e d1 hfill =>
      rintro line f' d' ⟨⟩
  | case2 f d f1 d1 hfill hempty =>
      -- Nothing was fetched, so nothing is left.
      rintro line f' d' ⟨rfl⟩
      obtain ⟨hnode, hrest, hnone⟩ := rest_of_fill hfill
      have hnil := hnone (List.isEmpty_iff.mp hempty)
      refine ⟨hnode, ?_, ?_⟩
      · rw [hnil]
        rfl
      · rw [hrest, hnil]
        rfl
  | case3 f d f1 d1 hfill hempty hfeed =>
      -- The line ends inside the buffer.
      rintro line f' d' ⟨rfl⟩
      obtain ⟨hnode, hrest, -⟩ := rest_of_fill hfill
      have hmem : lineFeed ∈ f1.buffer := List.contains_iff_mem.mp hfeed
      have hline := takeWhile_append_lineFeed hmem
      have hprefix := List.prefix_iff_eq_append.mp (firstLine_isPrefix f1.buffer)
      rw [← hline] at hprefix
      refine ⟨hnode, ?_, ?_⟩
      · rw [← hrest, rest, firstLine_append_of_mem hmem]
        exact hline
      · rw [← hrest, rest, rest, ← List.append_assoc]
        exact congrArg (· ++ _) hprefix.symm
  | case4 f d f1 d1 hfill hempty hfeed e d2 hread ih =>
      rintro line f' d' ⟨⟩
  | case5 f d f1 d1 hfill hempty hfeed line1 f2 d2 hread ih =>
      -- The line takes all of the buffer and goes on behind it.
      rintro line f' d' ⟨rfl⟩
      obtain ⟨hnode, hrest, -⟩ := rest_of_fill hfill
      obtain ⟨hnode2, hline, hrest2⟩ := ih hread
      have hmem : lineFeed ∉ f1.buffer := fun h => hfeed (List.contains_iff_mem.mpr h)
      rw [hnode] at hnode2 hline hrest2
      refine ⟨hnode2, ?_, ?_⟩
      · rw [← hrest, rest, firstLine_append_of_notMem hmem, hline]
        rfl
      · rw [← hrest, rest, List.append_assoc, ← hrest2]
        rfl

theorem step_fill {content : List UInt8} {d : Device} (h : d.node = .regular content)
    (f : BufferedFile) : d.Step (f.fill d) := by
  unfold fill
  split
  · have hstep := Device.step_read h f.position blockSize
    split
    · next bytes d' hread =>
      rw [hread] at hstep
      exact hstep.of_ok _
    · next e d' hread =>
      rw [hread] at hstep
      exact hstep.of_error
  · exact Device.step_pure f d

/-- Reading a line is a step, however many blocks it takes. -/
theorem step_readLine {content : List UInt8} (f : BufferedFile) (d : Device) :
    d.node = .regular content → d.Step (f.readLine d) := by
  fun_induction readLine f d with
  | case1 f d e d1 hfill =>
      intro h
      have hstep := step_fill h f
      rw [hfill] at hstep
      exact hstep.of_error
  | case2 f d f1 d1 hfill hempty =>
      intro h
      have hstep := step_fill h f
      rw [hfill] at hstep
      exact hstep.of_ok _
  | case3 f d f1 d1 hfill hempty hfeed line =>
      intro h
      have hstep := step_fill h f
      rw [hfill] at hstep
      exact hstep.of_ok _
  | case4 f d f1 d1 hfill hempty hfeed e d2 hread ih =>
      -- The rest of the line is a step of the device that the first block left behind.
      intro h
      have hstep := step_fill h f
      rw [hfill] at hstep
      have hmore := ih ((rest_of_fill hfill).1.trans h)
      rw [hread] at hmore
      exact hstep.append hmore.of_error
  | case5 f d f1 d1 hfill hempty hfeed line1 f2 d2 hread ih =>
      intro h
      have hstep := step_fill h f
      rw [hfill] at hstep
      have hmore := ih ((rest_of_fill hfill).1.trans h)
      rw [hread] at hmore
      exact hstep.append (hmore.of_ok _)

/-- On a device that holds a content a line is read, be it the empty one at the end. -/
theorem exists_readLine {content : List UInt8} (f : BufferedFile) (d : Device)
    (h : d.Holds content) : ∃ line f' d', f.readLine d = (.ok (line, f'), d') := by
  obtain ⟨⟨line, f'⟩, d', hread⟩ := h.exists_ok (step_readLine f d h.node)
  exact ⟨line, f', d', hread⟩

end BufferedFile

/-! ## Line readers -/

namespace Line

variable {content : List UInt8} {offset : Nat}

/-- The bytes up to the end of a line, terminator included, lead to the offset behind it. -/
theorem add_length_firstLine (h : offset ≤ content.length) :
    offset + (BufferedFile.firstLine (content.drop offset)).length = behind content offset := by
  rw [BufferedFile.firstLine, List.length_take, List.length_drop, behind, width]
  omega

/-- What a line reader cuts off is the terminator. -/
theorem stripTerminator_firstLine (content : List UInt8) (offset : Nat) :
    LineReader.stripTerminator (BufferedFile.firstLine (content.drop offset)) =
      textAt content offset := by
  have hlength := List.length_drop (i := offset) (l := content)
  have hwidth : width content offset = (content.drop offset).idxOf BufferedFile.lineFeed := rfl
  rw [BufferedFile.firstLine, textAt, hwidth]
  set rest := content.drop offset with hrest
  by_cases hfeed : BufferedFile.lineFeed ∈ rest
  · have hlt := List.idxOf_lt_length_of_mem hfeed
    have htake : rest.take (rest.idxOf BufferedFile.lineFeed + 1) =
        rest.take (rest.idxOf BufferedFile.lineFeed) ++ [BufferedFile.lineFeed] := by
      rw [List.take_add_one, List.getElem?_eq_getElem hlt, List.getElem_idxOf hlt]
      rfl
    have hbody : (rest.take (rest.idxOf BufferedFile.lineFeed)).length =
        rest.idxOf BufferedFile.lineFeed := List.length_take_of_le (Nat.le_of_lt hlt)
    have hinside : offset + rest.idxOf BufferedFile.lineFeed < content.length := by omega
    rw [htake, LineReader.stripTerminator, List.getLast?_concat, if_pos rfl,
      List.dropLast_concat, hbody]
    simp only [hinside, true_and]
  · have hall : rest.idxOf BufferedFile.lineFeed = rest.length := List.idxOf_eq_length hfeed
    have houtside : ¬ offset + rest.length < content.length := by omega
    have hlast : rest.getLast? ≠ some BufferedFile.lineFeed :=
      fun h => hfeed (List.mem_of_getLast? h)
    rw [hall, List.take_of_length_le (Nat.le_succ _), List.take_length,
      LineReader.stripTerminator, if_neg hlast]
    simp only [houtside, false_and, if_false]

end Line

namespace LineReader

/-- The remembered offset of a line reader, if it has one, is that of its unused bytes. -/
def IsAligned (l : LineReader) (content : List UInt8) : Prop :=
  ∀ offset, l.offset = some offset → l.file.rest content = content.drop offset

theorem rest_fileAt {l : LineReader} {content : List UInt8} (h : l.IsAligned content)
    (offset : Nat) : (l.fileAt offset).rest content = content.drop offset := by
  unfold fileAt
  split
  · next hoffset => exact h offset hoffset
  · rfl

/-- What the read of a line at an offset of a content comes to when the reads of the device in it
had the given fates. -/
inductive Answers (content : List UInt8) (offset : Nat) (fates : List Fate) :
    Except IoError (List UInt8 × Nat) → Prop where
  | line (hfine : Fate.fail ∉ fates) (hlt : offset < content.length) :
      Answers content offset fates
        (.ok (Line.textAt content offset, Line.behind content offset - offset))
  | past (hfine : Fate.fail ∉ fates) (hpast : content.length ≤ offset) :
      Answers content offset fates (.error (.endsInside offset))
  | failed (hfail : Fate.fail ∈ fates) : Answers content offset fates (.error Device.fault)

/-- A line reader on a device with a content, which stands where it remembers to stand. -/
structure Reads (content : List UInt8) (s : LineReader × Device) : Prop where
  node : s.2.node = .regular content
  aligned : s.1.IsAligned content

/-- **A line reader gives the line that starts at the offset it is asked for**, unless a read of the
device failed, and it is as fit for the next read as it was, whatever happened. -/
theorem Reads.readLineAt {content : List UInt8} {s : LineReader × Device} (h : Reads content s)
    (offset : Nat) :
    Reads content (s.1.readLineAt offset s.2).2 ∧
      ∃ fates, s.2.fates = fates ++ (s.1.readLineAt offset s.2).2.2.fates ∧
        Answers content offset fates (s.1.readLineAt offset s.2).1 := by
  obtain ⟨l, d⟩ := s
  obtain ⟨hnode, haligned⟩ := h
  dsimp only at hnode haligned ⊢
  have hcontent : d.node.content = content := by
    rw [hnode]
    rfl
  have hstep := BufferedFile.step_readLine (l.fileAt offset) d hnode
  rcases hcall : l.readLineAt offset d with ⟨outcome, l', d'⟩
  unfold LineReader.readLineAt at hcall
  split at hcall
  · next e d1 hread =>
    rw [hread] at hstep
    cases hcall
    cases hstep with
    | failed fates hnode' hfates hfail =>
        -- A reader that has forgotten its offset is aligned.
        refine ⟨⟨hnode'.trans hnode, ?_⟩, fates, hfates, .failed hfail⟩
        rintro o ⟨⟩
  · next line file d1 hread =>
    obtain ⟨-, hline, hrest⟩ := BufferedFile.eq_firstLine_of_readLine _ _ hread
    rw [hcontent, rest_fileAt haligned] at hline hrest
    have haligned' : IsAligned { file := file, offset := some (offset + line.length) } content := by
      rintro o ⟨rfl⟩
      rw [← List.drop_drop, hrest, List.drop_left]
    have hnone_iff : line.isEmpty = true ↔ content.length ≤ offset := by
      rw [List.isEmpty_iff, hline, BufferedFile.firstLine_eq_nil_iff, List.drop_eq_nil_iff]
    rw [hread] at hstep
    split at hcall
    · next hnone =>
      cases hcall
      cases hstep with
      | gave fates hnode' hfates hfine =>
          exact ⟨⟨hnode'.trans hnode, haligned'⟩, fates, hfates, .past hfine (hnone_iff.mp hnone)⟩
    · next hsome =>
      cases hcall
      have hlt : offset < content.length :=
        Nat.lt_of_not_le fun hpast => hsome (hnone_iff.mpr hpast)
      have htext := Line.stripTerminator_firstLine content offset
      have hused := Line.add_length_firstLine (Nat.le_of_lt hlt)
      rw [← hline] at htext hused
      have hlength : line.length = Line.behind content offset - offset := by omega
      cases hstep with
      | gave fates hnode' hfates hfine =>
          refine ⟨⟨hnode'.trans hnode, haligned'⟩, fates, hfates, ?_⟩
          rw [htext, hlength]
          exact .line hfine hlt

/-- On a device that never fails every read finds the line, or the end of the content. -/
theorem readLineAt_of_isAligned {content : List UInt8} {l : LineReader}
    (haligned : l.IsAligned content) (offset : Nat) :
    ∃ l' d', l'.IsAligned content ∧
      l.readLineAt offset { node := .regular content } =
        (if offset < content.length then
          .ok (Line.textAt content offset, Line.behind content offset - offset)
        else .error (.endsInside offset), l', d') := by
  have hreads : Reads content (l, { node := .regular content }) := ⟨rfl, haligned⟩
  obtain ⟨⟨-, haligned'⟩, fates, hfates, hanswers⟩ := hreads.readLineAt offset
  have hnone : fates = [] := (List.append_eq_nil_iff.mp hfates.symm).1
  rcases hcall : l.readLineAt offset { node := .regular content } with ⟨outcome, l', d'⟩
  rw [hcall] at haligned' hanswers
  refine ⟨l', d', haligned', ?_⟩
  cases hanswers with
  | line _ hlt => rw [if_pos hlt]
  | past _ hpast => rw [if_neg (Nat.not_lt_of_le hpast)]
  | failed hfail =>
      rw [hnone] at hfail
      cases hfail

end LineReader

end SplitReader
