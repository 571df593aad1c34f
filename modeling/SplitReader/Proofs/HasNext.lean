import Mathlib.Tactic.ByContra
import SplitReader.Proofs.LineRange
import SplitReader.Proofs.MemoryReader
import SplitReader.Proofs.SessionCalls

/-! # A record that is left stays left

A split is accepted only strictly behind the index, so the record at the index is never taken out of
a window: until it is read it is left, and a decoder that decodes the records of the range gives it
at the next read. The stop is only lowered and the index only raised, so an exhausted window stays
exhausted. Together they make the answer to whether a record is left a promise (`hasNext_is_kept`),
though other readers may be opened, read and split in between.
-/

set_option autoImplicit false

namespace SplitReader

/-! ## Ranges of sources -/

theorem mem_recordsIn {records : List (List UInt8)} {first index past : Nat} {bytes : List UInt8}
    (h : records[index]? = some bytes) (hle : first ≤ index) (hlt : index < past) :
    bytes ∈ recordsIn records first past := by
  have hrecord : (recordsIn records first past)[index - first]? = some bytes := by
    rw [recordsIn, List.getElem?_take_of_lt (by omega), List.getElem?_drop,
      Nat.add_sub_cancel' hle]
    exact h
  exact List.mem_of_getElem? hrecord

/-- The range of a source was accepted and has some records: those with the numbers of the range, or
the lines that start in it. -/
inductive Source.Ranges (files : Files) : Source → List (List UInt8) → Prop where
  | memory {records : List (List UInt8)} {low high : Option Int} {s : MemorySource}
      (h : MemorySource.new records low high = .ok s) :
      Ranges files (.memory s) (recordsIn records s.start s.stop)
  | text {path : String} {file : Nat} {content : List UInt8} {low high : Option UInt64}
      {s : TextSource} (hlookup : files.lookup path = .ok (file, .regular content))
      (h : TextSource.new files path low high = .ok s) :
      Ranges files (.text s) ((Line.allIn content s.start s.stop).map Line.text)

namespace RangeReader

variable {σ α : Type} {files : Files} {decoder : Decoder σ α} {records : List (List UInt8)}
  {r : RangeReader}

/-- A reader stands where it should on a range with some records. -/
inductive StandsOn (files : Files) (records : List (List UInt8)) (r : RangeReader) : Prop where
  | memory {all : List (List UInt8)} {first past : Nat} (h : r.ReadsRecords all)
      (hfirst : first ≤ r.tracker.window.index) (hstop : r.tracker.window.stop ≤ past)
      (hrecords : records = recordsIn all first past)
  | text {file : Nat} {content : List UInt8} {first past count : Nat}
      (hnode : files.node file = .regular content) (h : r.HasPassed file content first past count)
      (hrecords : records = (Line.allIn content first past).map Line.text)

theorem standsOn_of_reader {source : Source} (hsource : source.Ranges files records)
    (hopen : source.reader files = .ok r) : r.StandsOn files records := by
  cases hsource with
  | memory h =>
      obtain ⟨rfl, hle, hstop⟩ := MemorySource.new_eq_ok h
      cases hopen
      exact .memory (MemorySource.readsRecords_reader hle hstop) (Nat.le_refl _) (Nat.le_refl _) rfl
  | text hlookup h =>
      obtain ⟨q, hq, hfresh, -, -⟩ := TextSource.exists_reader_hasPassed hlookup h
      have hsame : Except.ok q = Except.ok r := hq.symm.trans hopen
      cases hsame
      exact .text (Files.node_of_lookup hlookup) hfresh rfl

theorem StandsOn.tryNext (decoder : Decoder σ α) (h : r.StandsOn files records) (c : σ) :
    (RangeReader.tryNext files decoder (r, c)).2.1.StandsOn files records := by
  rcases hread : RangeReader.tryNext files decoder (r, c) with ⟨outcome, s'⟩
  cases h with
  | memory hreads hfirst hstop hrecords =>
      have hreads' := hreads.tryNext hread
      cases recordRead hreads hread with
      | exhausted => exact .memory hreads hfirst hstop hrecords
      | decoded => exact .memory hreads' (Nat.le_succ_of_le hfirst) hstop hrecords
      | undecoded crashed => exact .memory hreads' hfirst hstop hrecords
  | text hnode hpassed hrecords =>
      have hreads' := hpassed.reads.tryNext hnode hread
      cases lineRead hnode hpassed.reads hread with
      | exhausted => exact .text hnode hpassed hrecords
      | decoded supply hlt => exact .text hnode (hpassed.pass hlt hreads' rfl) hrecords
      | failed => exact .text hnode (hpassed.stay hreads' rfl (Nat.le_refl _)) hrecords
      | crashed => exact .text hnode (hpassed.stay hreads' rfl (Nat.le_refl _)) hrecords

theorem StandsOn.trySplit {r' : RangeReader} {proposed : Progress} {position : Position}
    (h : r.StandsOn files records) (hsplit : r.trySplit proposed = .ok (position, r')) :
    r'.StandsOn files records := by
  have hmoved := trySplit_eq_ok_iff.mp hsplit
  cases h with
  | memory hreads hfirst hstop hrecords =>
      have hreads' := hreads.trySplit hsplit
      obtain ⟨offset, -, -, hlo, hhi, -, rfl⟩ := hmoved
      exact .memory hreads' hfirst (Nat.le_trans (Nat.le_of_lt hhi) hstop) hrecords
  | text hnode hpassed hrecords =>
      have hreads' := hpassed.reads.trySplit hsplit
      obtain ⟨offset, -, -, hlo, hhi, -, rfl⟩ := hmoved
      exact .text hnode (hpassed.stay hreads' rfl (Nat.le_of_lt hhi)) hrecords

/-- **Inside its window a reader gives an element**, if the records of the range are decoded. -/
theorem StandsOn.exists_tryNext (h : r.StandsOn files records)
    (hdecodes : decoder.DecodesAll records) (c : σ)
    (hlt : r.tracker.window.index < r.tracker.window.stop) :
    ∃ d s', RangeReader.tryNext files decoder (r, c) = (.value (some d), s') := by
  rcases hread : RangeReader.tryNext files decoder (r, c) with ⟨outcome, s'⟩
  -- The record at the index is one of the range, so the decoder has no way to miss it.
  cases h with
  | memory hreads hfirst hstop hrecords =>
      cases recordRead hreads hread with
      | exhausted hover => exact absurd hlt (Nat.not_lt.mpr hover)
      | decoded => exact ⟨_, _, rfl⟩
      | undecoded crashed _ hbytes hdecode hmiss =>
          have hmem := mem_recordsIn hbytes hfirst (Nat.lt_of_lt_of_le hlt hstop)
          rw [← hrecords] at hmem
          obtain ⟨a, c', hvalue⟩ := hdecodes _ hmem c
          rw [hdecode] at hvalue
          cases hvalue
          exact absurd rfl (hmiss a)
  | text hnode hpassed hrecords =>
      have hline := List.mem_map_of_mem (f := Line.text)
        (List.mem_of_getElem? (hpassed.line hlt))
      rw [← hrecords] at hline
      obtain ⟨a, c', hvalue⟩ := hdecodes _ hline c
      cases lineRead hnode hpassed.reads hread with
      | exhausted hover => exact absurd hlt (Nat.not_lt.mpr hover)
      | decoded => exact ⟨_, _, rfl⟩
      | failed supply _ hdecode =>
          rw [hdecode] at hvalue
          cases hvalue
      | crashed supply _ hdecode =>
          rw [hdecode] at hvalue
          cases hvalue

end RangeReader

/-! ## Calls -/

namespace Session

variable {σ α : Type} {files : Files} {decoder : Decoder σ α} {records : List (List UInt8)}

/-- The operation may read records from a reader. -/
def Action.reads (number : Nat) (action : Action) : Bool :=
  (action.callOf number).any Call.isRead

/-- **A call that does not read leaves a record that is left.** -/
theorem Call.index_lt_stop {call : Call} {r : RangeReader} (c : σ) (hcall : call.isRead = false)
    (h : r.tracker.window.index < r.tracker.window.stop) :
    (call.effect files decoder r c).range.tracker.window.index <
      (call.effect files decoder r c).range.tracker.window.stop := by
  refine Call.effect_of_step (P := fun r => r.tracker.window.index < r.tracker.window.stop)
    (fun hread => ?_) (fun r proposed position r' hr hjudged => ?_) c h
  · rw [hcall] at hread
    cases hread
  · -- A stop is accepted only behind the index.
    obtain ⟨offset, -, -, hlo, hhi, -, rfl⟩ := RangeReader.trySplit_eq_ok_iff.mp hjudged
    exact hlo

/-- **Every call leaves an exhausted window exhausted.** -/
theorem Call.stop_le_index (call : Call) {r : RangeReader} (c : σ)
    (h : r.tracker.window.stop ≤ r.tracker.window.index) :
    (call.effect files decoder r c).range.tracker.window.stop ≤
      (call.effect files decoder r c).range.tracker.window.index := by
  refine Call.effect_of_step (P := fun r => r.tracker.window.stop ≤ r.tracker.window.index)
    (fun _ r c hr => ?_) (fun r proposed position r' hr hjudged => ?_) c h
  · rw [RangeReader.tryNext_of_exhausted files decoder c hr]
    exact hr
  · -- No offset lies strictly inside the window.
    obtain ⟨offset, -, -, hlo, hhi, -, rfl⟩ := RangeReader.trySplit_eq_ok_iff.mp hjudged
    omega

theorem standsOn_performAll {source : Source} (hsource : source.Ranges files records)
    {actions : List Action} (hkeeps : ∀ action ∈ actions, action.keepsFiles = true) {s : Session σ}
    (hs : s.source = source) (hfiles : s.files = files)
    (hall : ∀ r ∈ s.readers, r.range.StandsOn files records) :
    ∀ r ∈ (s.performAll decoder actions).2.readers, r.range.StandsOn files records := by
  refine readers_performAll (fun r hopen => RangeReader.standsOn_of_reader hsource hopen)
    (fun call r c hr => ?_) hkeeps hs hfiles hall
  refine Call.effect_of_step (P := RangeReader.StandsOn files records)
    (fun _ r c h => h.tryNext decoder c) (fun r proposed position r' h hjudged => ?_) c hr
  exact h.trySplit hjudged

/-! ## Answers -/

theorem reply_hasNext {s : Session σ} {number : Nat} {r : OpenReader}
    (h : s.readers[number]? = some r) :
    (s.perform decoder (.call number .hasNext)).1 = .hasNext r.range.tracker.hasNext :=
  (perform_call decoder h .hasNext).1

/-- Only a reader that is there answers whether a record is left. -/
theorem of_reply_hasNext {s : Session σ} {number : Nat} {answer : Bool}
    (h : (s.perform decoder (.call number .hasNext)).1 = .hasNext answer) :
    ∃ r, s.readers[number]? = some r ∧ r.range.tracker.hasNext = answer := by
  cases hreader : s.readers[number]? with
  | none =>
      simp only [perform, hreader] at h
      cases h
  | some r =>
      rw [reply_hasNext hreader] at h
      cases h
      exact ⟨r, rfl, rfl⟩

theorem replies_of_lt {s : Session σ} {number : Nat} {r : OpenReader}
    (h : s.readers[number]? = some r) (hstands : r.range.StandsOn s.files records)
    (hdecodes : decoder.DecodesAll records)
    (hlt : r.range.tracker.window.index < r.range.tracker.window.stop) :
    (s.perform decoder (.call number .hasNext)).1 = .hasNext true ∧
      ∃ a, (s.perform decoder (.call number .next)).1 = .next (.value a) := by
  obtain ⟨d, used, hread⟩ := hstands.exists_tryNext hdecodes s.codec hlt
  constructor
  · rw [reply_hasNext h]
    exact congrArg Reply.hasNext (Window.hasNext_iff.mpr hlt)
  · refine ⟨d.element, ?_⟩
    rw [(perform_call decoder h .next).1]
    simp only [Call.effect, BoundedReader.next, RangeReader.bounded, hread]
    rfl

theorem replies_of_le {s : Session σ} {number : Nat} {r : OpenReader}
    (h : s.readers[number]? = some r)
    (hover : r.range.tracker.window.stop ≤ r.range.tracker.window.index) :
    (s.perform decoder (.call number .hasNext)).1 = .hasNext false ∧
      (s.perform decoder (.call number .next)).1 = .next (.failed .noSuchElement) ∧
      (s.perform decoder (.call number .tryNext)).1 = .tryNext (.value none) := by
  have hread := RangeReader.tryNext_of_exhausted s.files decoder s.codec hover
  refine ⟨?_, ?_, ?_⟩
  · rw [reply_hasNext h]
    exact congrArg Reply.hasNext (decide_eq_false (Nat.not_lt.mpr hover))
  · rw [(perform_call decoder h .next).1]
    simp only [Call.effect, BoundedReader.next, RangeReader.bounded, hread]
    rfl
  · rw [(perform_call decoder h .tryNext).1]
    simp only [Call.effect, RangeReader.bounded, hread]
    rfl

/-- **The answer to whether a record is left is a promise.** Take a source whose range was accepted,
over records or over a file that stays as it is, and any session with it: readers opened at any
time, called in any order, with observers and splits. If a reader answers that a record is left, and
the decoder decodes the records of the range in whatever state it is, then until that reader is read
again it keeps saying so, whatever stops are proposed to it and whatever is done with the other
readers, and its next read gives an element. If a reader answers that no record is left, then it
says so for ever, a read that needs a record fails for want of one, and any other read gives
nothing. -/
theorem hasNext_is_kept {source : Source} (hsource : source.Ranges files records)
    (decoder : Decoder σ α) (codec : σ) {before : List Action}
    (hbefore : ∀ action ∈ before, action.keepsFiles = true) (number : Nat) :
    let begun : Session σ := { source, files, codec }
    let s := (begun.performAll decoder before).2
    (decoder.DecodesAll records →
      (s.perform decoder (.call number .hasNext)).1 = .hasNext true →
      ∀ after : List Action, (∀ action ∈ after, action.keepsFiles = true) →
        (∀ action ∈ after, action.reads number = false) →
        let t := (s.performAll decoder after).2
        (t.perform decoder (.call number .hasNext)).1 = .hasNext true ∧
          ∃ a, (t.perform decoder (.call number .next)).1 = .next (.value a)) ∧
    ((s.perform decoder (.call number .hasNext)).1 = .hasNext false →
      ∀ after : List Action, (∀ action ∈ after, action.keepsFiles = true) →
        let t := (s.performAll decoder after).2
        (t.perform decoder (.call number .hasNext)).1 = .hasNext false ∧
          (t.perform decoder (.call number .next)).1 = .next (.failed .noSuchElement) ∧
          (t.perform decoder (.call number .tryNext)).1 = .tryNext (.value none)) := by
  intro begun s
  obtain ⟨hsource', hfiles⟩ := source_performAll decoder hbefore begun
  constructor
  · intro hdecodes htrue after hafter hunread t
    obtain ⟨r, hreader, hnext⟩ := of_reply_hasNext htrue
    have hlt : r.range.tracker.window.index < r.range.tracker.window.stop :=
      Window.hasNext_iff.mp hnext
    have hcalls : ∀ action ∈ after, ∀ call, action.callOf number = some call →
        call.isRead = false := by
      intro action haction call hcall
      have hquiet := hunread action haction
      rw [Action.reads, hcall] at hquiet
      exact hquiet
    obtain ⟨q, hq, hinside⟩ := reader_performAll
      (P := fun r => r.tracker.window.index < r.tracker.window.stop)
      (fun _ _ _ c hcall h => Call.index_lt_stop c hcall h) hafter hcalls hreader hlt
    -- Where the reader stands is followed from its opening, through reads of all readers.
    have hstands : ∀ r ∈ s.readers, r.range.StandsOn files records :=
      standsOn_performAll hsource hbefore rfl rfl (fun _ hr => nomatch hr)
    have hstand : q.range.StandsOn files records :=
      standsOn_performAll hsource hafter hsource' hfiles hstands q (List.mem_of_getElem? hq)
    have hfiles' : t.files = files := (source_performAll decoder hafter s).2.trans hfiles
    exact replies_of_lt hq (hfiles' ▸ hstand) hdecodes hinside
  · intro hfalse after hafter t
    obtain ⟨r, hreader, hnext⟩ := of_reply_hasNext hfalse
    have hover : r.range.tracker.window.stop ≤ r.range.tracker.window.index := by
      by_contra hlt
      have htrue : r.range.tracker.hasNext = true :=
        Window.hasNext_iff.mpr (Nat.lt_of_not_le hlt)
      rw [hnext] at htrue
      cases htrue
    obtain ⟨q, hq, hend⟩ := reader_performAll
      (P := fun r => r.tracker.window.stop ≤ r.tracker.window.index) (Q := fun _ => True)
      (fun _ call _ c _ h => Call.stop_le_index call c h) hafter (fun _ _ _ _ => trivial) hreader
      hover
    exact replies_of_le hq hend

/-- The record after the first of three is left when the stop is lowered to the one behind it and
another reader is opened and read. Once it is read nothing is left, and no stop that is proposed
then and no read makes a difference. -/
theorem hasNext_is_kept_threeBytes :
    let decoder := Codec.bytes.decoder
    let stop : Progress := .ofPosition (.recordIndex 2)
    let begun : Session Unit := { source := .memory ⟨[[1], [2], [3]], 0, 3⟩, files := {}, codec := () }
    let read := (begun.performAll decoder [.openReader, .call 0 .tryNext]).2
    let split := (read.performAll decoder
      [.call 0 (.trySplit stop), .openReader, .call 1 .tryNext, .call 0 .progress]).2
    let done := (begun.performAll decoder
      [.openReader, .call 0 .tryNext, .call 0 (.split stop), .call 0 .next]).2
    let later := (done.performAll decoder [.call 0 (.split stop), .call 0 (.elements none)]).2
    (split.perform decoder (.call 0 .hasNext)).1 = .hasNext true ∧
      (∃ a, (split.perform decoder (.call 0 .next)).1 = .next (.value a)) ∧
      (later.perform decoder (.call 0 .hasNext)).1 = .hasNext false ∧
      (later.perform decoder (.call 0 .next)).1 = .next (.failed .noSuchElement) ∧
      (later.perform decoder (.call 0 .tryNext)).1 = .tryNext (.value none) := by
  have hnew : MemorySource.new [[1], [2], [3]] none none = .ok ⟨[[1], [2], [3]], 0, 3⟩ := by
    rfl
  have hsource : (Source.memory ⟨[[1], [2], [3]], 0, 3⟩).Ranges {} [[1], [2], [3]] := .memory hnew
  have hdecodes : Codec.bytes.decoder.DecodesAll [[1], [2], [3]] :=
    fun bytes _ c => ⟨bytes, c, rfl⟩
  have hread : ∀ action ∈ [Action.openReader, .call 0 .tryNext], action.keepsFiles = true := by
    decide
  have hdone : ∀ action ∈ [Action.openReader, .call 0 .tryNext,
      .call 0 (.split (.ofPosition (.recordIndex 2))), .call 0 .next],
      action.keepsFiles = true := by
    decide
  have hleft := (hasNext_is_kept hsource Codec.bytes.decoder () hread 0).1 hdecodes rfl
    [.call 0 (.trySplit (.ofPosition (.recordIndex 2))), .openReader, .call 1 .tryNext,
      .call 0 .progress] (by decide) (by decide)
  have hover := (hasNext_is_kept hsource Codec.bytes.decoder () hdone 0).2 rfl
    [.call 0 (.split (.ofPosition (.recordIndex 2))), .call 0 (.elements none)] (by decide)
  exact ⟨hleft.1, hleft.2, hover⟩

end Session

end SplitReader
