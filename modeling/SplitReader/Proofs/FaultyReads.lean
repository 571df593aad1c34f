import SplitReader.Proofs.LineReader
import SplitReader.Proofs.LineText

/-! # Reading lines from a device that fails

A line reader on a device is asked for the lines at any offsets, one after the other. Whatever the
device does, the reader stays aligned: it has forgotten its offset, or stands there. So a read
gives the line that begins at the offset it was asked for, or nothing. It fails with the fault of
the device exactly if one of its own reads of the device failed; bytes that were fetched before the
fault are given to nobody. If none failed, it finds a line exactly below the end of the content
(`line_or_fault`).

What a line is, is said here from the bytes at the offset alone (`Line.StandsAt`): a text without a
line feed, its terminator, and anything behind it.
-/

set_option autoImplicit false

namespace SplitReader

/-! ## Lines as they stand in a content -/

namespace Line

open BufferedFile (lineFeed carriageReturn)

variable {content text : List UInt8} {offset used : Nat}

/-- From an offset on there stands a text with its terminator, and together they take up a number of
bytes. -/
inductive StandsAt (content : List UInt8) (offset : Nat) (text : List UInt8) : Nat → Prop where
  | feed (more : List UInt8) (hbytes : content.drop offset = text ++ lineFeed :: more)
      (htext : lineFeed ∉ text) (hlast : text.getLast? ≠ some carriageReturn) :
      StandsAt content offset text (text.length + 1)
  | returnFeed (more : List UInt8)
      (hbytes : content.drop offset = text ++ carriageReturn :: lineFeed :: more)
      (htext : lineFeed ∉ text) : StandsAt content offset text (text.length + 2)
  /-- A last line without a terminator, of at least one byte. -/
  | unended (hbytes : content.drop offset = text) (htext : lineFeed ∉ text) (hsome : text ≠ []) :
      StandsAt content offset text text.length

theorem chomp_of_last (h : text.getLast? ≠ some carriageReturn) : chomp text = text := if_neg h

theorem chomp_concat (text : List UInt8) : chomp (text ++ [carriageReturn]) = text := by
  simp [chomp]

/-- **One line stands at every offset below the end**, and none from the end on. -/
theorem standsAt_iff : StandsAt content offset text used ↔
    offset < content.length ∧ text = textAt content offset ∧
      offset + used = behind content offset := by
  have hlength : (content.drop offset).length = content.length - offset := List.length_drop ..
  constructor
  · intro h
    cases h with
    | feed more hbytes htext hlast =>
        obtain ⟨hline, hbehind⟩ := textAt_of_append hbytes htext
        rw [hbytes, List.length_append, List.length_cons] at hlength
        exact ⟨by omega, by rw [hline, chomp_of_last hlast], by omega⟩
    | returnFeed more hbytes htext =>
        -- The carriage return belongs to what ends at the line feed, and is chomped off it.
        have hbody : lineFeed ∉ text ++ [carriageReturn] := by
          rw [List.mem_append, List.mem_singleton]
          rintro (hmem | heq)
          · exact htext hmem
          · exact absurd heq (by decide)
        rw [List.append_cons] at hbytes
        obtain ⟨hline, hbehind⟩ := textAt_of_append hbytes hbody
        rw [hbytes, List.length_append, List.length_cons] at hlength
        rw [List.length_append, List.length_singleton] at hbehind
        exact ⟨by omega, by rw [hline, chomp_concat], by omega⟩
    | unended hbytes htext hsome =>
        have hpos := List.length_pos_iff.mpr hsome
        rw [hbytes] at hlength
        obtain ⟨hline, hbehind⟩ := textAt_of_notMem (hbytes ▸ htext) (by omega)
        exact ⟨by omega, by rw [hline, hbytes], by omega⟩
  · rintro ⟨hlt, rfl, hused⟩
    by_cases hfeed : lineFeed ∈ content.drop offset
    · obtain ⟨body, more, hrest, hbody⟩ := List.eq_append_cons_of_mem hfeed
      obtain ⟨hline, hbehind⟩ := textAt_of_append hrest hbody
      have hwidth : used = body.length + 1 := by omega
      rw [hline, hwidth]
      by_cases hlast : body.getLast? = some carriageReturn
      · obtain ⟨front, rfl⟩ := List.getLast?_eq_some_iff.mp hlast
        rw [chomp_concat, List.length_append, List.length_singleton]
        refine .returnFeed more ?_ fun hmem => hbody (List.mem_append_left _ hmem)
        rw [hrest, List.append_assoc]
        rfl
      · rw [chomp_of_last hlast]
        exact .feed more hrest hbody hlast
    · obtain ⟨hline, hbehind⟩ := textAt_of_notMem hfeed (Nat.le_of_lt hlt)
      have hwidth : used = (content.drop offset).length := by omega
      rw [hline, hwidth]
      refine .unended rfl hfeed ?_
      rw [ne_eq, List.drop_eq_nil_iff]
      omega

end Line

/-! ## Reads of lines -/

namespace LineReader

variable {content : List UInt8} {fates : List Fate} {offset : Nat}

section Answers

variable {outcome : Except IoError (List UInt8 × Nat)}

theorem Answers.eq_fault (h : Answers content offset fates outcome) (hfail : Fate.fail ∈ fates) :
    outcome = .error Device.fault := by
  cases h with
  | line hfine => exact absurd hfail hfine
  | past hfine => exact absurd hfail hfine
  | failed => rfl

theorem Answers.eq_ok_iff {text : List UInt8} {used : Nat}
    (h : Answers content offset fates outcome) (hfine : Fate.fail ∉ fates) :
    outcome = .ok (text, used) ↔ Line.StandsAt content offset text used := by
  rw [Line.standsAt_iff]
  cases h with
  | line _ hlt =>
      have hbehind := Line.lt_behind hlt
      constructor
      · rintro ⟨⟩
        exact ⟨hlt, rfl, by omega⟩
      · rintro ⟨-, rfl, hused⟩
        rw [← hused, Nat.add_sub_cancel_left]
  | past _ hpast =>
      constructor
      · rintro ⟨⟩
      · rintro ⟨hlt, -⟩
        exact absurd hlt (Nat.not_lt_of_le hpast)
  | failed hfail => exact absurd hfail hfine

theorem Answers.eq_error_iff {e : IoError} (h : Answers content offset fates outcome)
    (hfine : Fate.fail ∉ fates) :
    outcome = .error e ↔ content.length ≤ offset ∧ e = .endsInside offset := by
  cases h with
  | line _ hlt =>
      constructor
      · rintro ⟨⟩
      · rintro ⟨hpast, -⟩
        exact absurd hlt (Nat.not_lt_of_le hpast)
  | past _ hpast =>
      constructor
      · rintro ⟨⟩
        exact ⟨hpast, rfl⟩
      · rintro ⟨-, rfl⟩
        rfl
  | failed hfail => exact absurd hfail hfine

end Answers

/-- The line reader and the device behind reads at some offsets, one after the other and whatever
came of them. -/
def after (offsets : List Nat) (s : LineReader × Device) : LineReader × Device :=
  offsets.foldl (fun s offset => (s.1.readLineAt offset s.2).2) s

/-- **Reads at any offsets** leave the reader as fit as it was, and use up fates in their order. -/
theorem Reads.after {s : LineReader × Device} (h : Reads content s) (offsets : List Nat) :
    Reads content (after offsets s) ∧
      ∃ seen, s.2.fates = seen ++ (after offsets s).2.fates := by
  induction offsets generalizing s with
  | nil => exact ⟨h, [], rfl⟩
  | cons offset offsets ih =>
      obtain ⟨hnext, met, hmet, -⟩ := h.readLineAt offset
      obtain ⟨hreads, seen, hseen⟩ := ih hnext
      refine ⟨hreads, met ++ seen, ?_⟩
      rw [hmet, hseen, List.append_assoc]
      rfl

/-- **A line reader gives the right line or none.** It stands at some offset of a content, on a
device whose reads have any fates, and reads lines at any offsets before it is asked for one more.
What it gives is the line that stands at this offset, without its terminator, and the number of
bytes it takes up with it. The fates are met in their order. If a failure is among those that the
device meets in this call, the call fails with the fault of the device; otherwise it gives the line
there is, and fails exactly from the end of the content on, for the reason that the content ends
there. -/
theorem line_or_fault (content : List UInt8) (fates : List Fate) (file : BufferedFile)
    (start : Nat) (hfile : file.rest content = content.drop start) (before : List Nat)
    (offset : Nat) :
    let s := after before ({ file, offset := some start }, { node := .regular content, fates })
    let call := s.1.readLineAt offset s.2
    (∀ text used, call.1 = .ok (text, used) → Line.StandsAt content offset text used) ∧
      ∃ seen met, fates = seen ++ s.2.fates ∧ s.2.fates = met ++ call.2.2.fates ∧
        (Fate.fail ∈ met → call.1 = .error Device.fault) ∧
        (Fate.fail ∉ met →
          (∀ text used, call.1 = .ok (text, used) ↔ Line.StandsAt content offset text used) ∧
          ∀ e, call.1 = .error e ↔ content.length ≤ offset ∧ e = .endsInside offset) := by
  intro s call
  have hstart : Reads content
      ({ file, offset := some start }, { node := .regular content, fates }) := by
    refine ⟨rfl, ?_⟩
    rintro o ⟨rfl⟩
    exact hfile
  obtain ⟨hreads, seen, hseen⟩ := hstart.after before
  obtain ⟨-, met, hmet, hanswers⟩ := hreads.readLineAt offset
  refine ⟨fun text used hline => ?_, seen, met, hseen, hmet, hanswers.eq_fault,
    fun hfine => ⟨?_, ?_⟩⟩
  · by_cases hfail : Fate.fail ∈ met
    · rw [hanswers.eq_fault hfail] at hline
      cases hline
    · exact (hanswers.eq_ok_iff hfail).mp hline
  · exact fun text used => hanswers.eq_ok_iff hfine
  · exact fun e => hanswers.eq_error_iff hfine

/-- A line of which a part was fetched before the device failed is read from its beginning. -/
theorem line_or_fault_retry :
    let content : List UInt8 := [102, 105, 114, 115, 116, 10, 115, 101, 99, 111, 110, 100, 10]
    let device : Device := { node := .regular content, fates := [.short 2, .fail] }
    let l : LineReader := { file := {}, offset := some 0 }
    let s := after [6] (l, device)
    (l.readLineAt 6 device).1 = .error Device.fault ∧
      (s.1.readLineAt 6 s.2).1 = .ok ([115, 101, 99, 111, 110, 100], 7) ∧
      Line.StandsAt content 6 [115, 101, 99, 111, 110, 100] 7 := by
  intro content device l s
  -- Three bytes are fetched, and the block behind them is not.
  have hmore : BufferedFile.readLine { position := 9 } { device with fates := [.fail] } =
      (.error Device.fault, { device with fates := [] }) := by
    rw [BufferedFile.readLine]
    rfl
  have hfault : (BufferedFile.seek 6).readLine device =
      (.error Device.fault, { device with fates := [] }) := by
    have hfill : (BufferedFile.seek 6).fill device =
        (.ok { position := 9, buffer := [115, 101, 99] }, { device with fates := [.fail] }) := rfl
    rw [BufferedFile.readLine]
    split
    · next hfail =>
      rw [hfill] at hfail
      cases hfail
    · next hok =>
      rw [hfill] at hok
      cases hok
      simp [BufferedFile.lineFeed, hmore]
  have hline : (BufferedFile.seek 6).readLine { device with fates := [] } =
      (.ok (content.drop 6, { position := 13 }), { device with fates := [] }) := by
    rw [BufferedFile.readLine]
    rfl
  have hfirst : l.readLineAt 6 device =
      (.error Device.fault, { file := .seek 6, offset := none }, { device with fates := [] }) := by
    rw [readLineAt, show l.fileAt 6 = .seek 6 from rfl, hfault]
  have hretry : (s.1.readLineAt 6 s.2).1 = .ok ([115, 101, 99, 111, 110, 100], 7) := by
    rw [show s = (l.readLineAt 6 device).2 from rfl, hfirst, readLineAt]
    rw [show fileAt 6 { file := .seek 6, offset := none } = .seek 6 from rfl, hline]
    rfl
  refine ⟨by rw [hfirst], hretry, ?_⟩
  exact (line_or_fault content device.fates {} 0 rfl [6] 6).1 _ _ hretry

end LineReader

end SplitReader
