import SplitReader.Proofs.LineRange
import SplitReader.Source.Session

/-! # Lines are read again until they are decoded

A line whose decoding failed or crashed has been taken from the file, but not from the range. The
next read takes it from the file again, wherever the line reader stands by then, and the decoder is
given the same bytes. So in a session with one reader of the lines of a file, with a decoder that
succeeds, fails and crashes as it likes and with splits in between, the decoder is only ever given
the line at the index, and its successes are the lines of the range in order (`rereads_lines`).

What a decoder was given is not seen from outside. It is read off a log that the decoder keeps of
its own calls, and the log makes no difference to the session (`map_withoutLog_steps`).
-/

set_option autoImplicit false

namespace SplitReader

variable {σ α : Type}

/-! ## A decoder with a log -/

structure Decoding (α : Type) where
  bytes : List UInt8
  outcome : Outcome CodecError α
  deriving DecidableEq, Repr

namespace Decoder

/-- A decoder that keeps a log of its calls. -/
def logged (decoder : Decoder σ α) : Decoder (σ × List (Decoding α)) α where
  decode bytes s :=
    let (outcome, c) := decoder.decode bytes s.1
    (outcome, c, s.2 ++ [⟨bytes, outcome⟩])

theorem log_of_decode {decoder : Decoder σ α} {bytes : List UInt8} {outcome : Outcome CodecError α}
    {s s' : σ × List (Decoding α)} (h : decoder.logged.decode bytes s = (outcome, s')) :
    s'.2 = s.2 ++ [⟨bytes, outcome⟩] := by
  cases h
  rfl

end Decoder

/-- A reader does the same with and without a log. -/
theorem RangeReader.tryNext_logged (files : Files) (decoder : Decoder σ α) (r : RangeReader)
    (c : σ × List (Decoding α)) :
    tryNext files decoder (r, c.1) =
      ((tryNext files decoder.logged (r, c)).1, (tryNext files decoder.logged (r, c)).2.1,
        (tryNext files decoder.logged (r, c)).2.2.1) := by
  by_cases hlt : r.tracker.window.index < r.tracker.window.stop
  · rw [tryNext_of_lt files decoder c.1 hlt, tryNext_of_lt files decoder.logged c hlt]
    rcases r.supply.fetch files r.tracker.window.index with ⟨⟨bytes, following⟩ | e | text, supply⟩
    · simp only [Decoder.logged]
      rcases hdecode : decoder.decode bytes c.1 with ⟨a | e | text, c'⟩ <;> simp only [hdecode]
    · rfl
    · rfl
  · have hexhausted := Nat.le_of_not_lt hlt
    rw [tryNext_of_exhausted files decoder c.1 hexhausted,
      tryNext_of_exhausted files decoder.logged c hexhausted]

namespace Session

/-! ## Calls of one reader -/

/-- The call reads one record at most, and answers when there is none. -/
def Call.isSingle : Call → Bool
  | .hasNext | .tryNext | .progress | .trySplit _ | .split _ => true
  | .next | .elements _ => false

/-- A call of the first reader of a session. -/
structure Step (σ α : Type) where
  before : Session σ
  reply : Reply α
  after : Session σ

def step (decoder : Decoder σ α) (s : Session σ) (call : Call) : Step σ α where
  before := s
  reply := (s.perform decoder (.call 0 call)).1
  after := (s.perform decoder (.call 0 call)).2

/-- The steps of calls that are made one after the other. -/
def steps (decoder : Decoder σ α) (s : Session σ) : List Call → List (Step σ α)
  | [] => []
  | call :: calls => s.step decoder call :: (s.step decoder call).after.steps decoder calls

theorem map_reply_steps (decoder : Decoder σ α) (calls : List Call) :
    ∀ s : Session σ, (s.steps decoder calls).map Step.reply =
      (s.performAll decoder (calls.map (Action.call 0))).1 := by
  induction calls with
  | nil => exact fun _ => rfl
  | cons call calls ih =>
      intro s
      rw [steps, List.map_cons, ih]
      rfl

theorem step_of_readers {s : Session σ} {r : OpenReader} (decoder : Decoder σ α) (call : Call)
    (h : s.readers = [r]) :
    s.step decoder call =
      ⟨s, (s.performCall decoder 0 r call).1, (s.performCall decoder 0 r call).2⟩ := by
  simp only [step, perform, h, List.getElem?_cons_zero]

def Reply.element? : Reply α → Option α
  | .tryNext (.value a) => a
  | _ => none

/-- A read failed or crashed. -/
def Reply.isMiss : Reply α → Bool
  | .tryNext (.failed _) | .tryNext (.crashed _) => true
  | _ => false

theorem Reply.of_ne_tryNext {reply : Reply α} (h : ∀ answer, reply ≠ .tryNext answer) :
    reply.element? = none ∧ reply.isMiss = false := by
  cases reply with
  | tryNext answer => exact absurd rfl (h answer)
  | _ => exact ⟨rfl, rfl⟩

/-- The steps that read an element. -/
def successes (steps : List (Step σ α)) : List (Step σ α) :=
  steps.filter fun step => step.reply.element?.isSome

theorem successes_cons (step : Step σ α) (steps : List (Step σ α)) :
    successes (step :: steps) =
      if step.reply.element?.isSome then step :: successes steps else successes steps :=
  List.filter_cons

/-! ### Without the log -/

/-- The session of a decoder that keeps no log. -/
def withoutLog (s : Session (σ × List (Decoding α))) : Session σ :=
  ⟨s.source, s.files, s.codec.1, s.observers, s.readers⟩

def Step.withoutLog (step : Step (σ × List (Decoding α)) α) : Step σ α :=
  ⟨step.before.withoutLog, step.reply, step.after.withoutLog⟩

theorem withoutLog_step (decoder : Decoder σ α) (s : Session (σ × List (Decoding α))) {call : Call}
    (hcall : call.isSingle = true) :
    (s.step decoder.logged call).withoutLog = s.withoutLog.step decoder call := by
  have hreaders : s.withoutLog.readers = s.readers := rfl
  simp only [step, perform, hreaders, Step.withoutLog]
  cases s.readers[0]? with
  | none => rfl
  | some r =>
      cases call with
      | hasNext => rfl
      | progress => rfl
      | tryNext =>
          have hplain := RangeReader.tryNext_logged s.files decoder r.range s.codec
          simp only [performCall, RangeReader.bounded, withoutLog, hplain]
          rcases RangeReader.tryNext s.files decoder.logged (r.range, s.codec) with
            ⟨(_ | d) | e | text, r', c'⟩
          · rfl
          · rfl
          · rfl
          · rfl
      | trySplit proposed =>
          simp only [performCall, RangeReader.bounded, withoutLog]
          cases r.range.trySplit proposed with
          | ok accepted => rfl
          | error reason => rfl
      | split proposed =>
          simp only [performCall, BoundedReader.split, RangeReader.bounded, withoutLog]
          cases r.range.trySplit proposed with
          | ok accepted => rfl
          | error reason => rfl
      | next => cases hcall
      | elements limit => cases hcall

/-- **The log makes no difference.** Without the log, the steps are those of the decoder itself. -/
theorem map_withoutLog_steps (decoder : Decoder σ α) {calls : List Call}
    (hcalls : ∀ call ∈ calls, call.isSingle = true) :
    ∀ s : Session (σ × List (Decoding α)),
      (s.steps decoder.logged calls).map Step.withoutLog = s.withoutLog.steps decoder calls := by
  induction calls with
  | nil => exact fun _ => rfl
  | cons call calls ih =>
      intro s
      have hstep := withoutLog_step decoder s (hcalls call List.mem_cons_self)
      have hafter : (s.step decoder.logged call).after.withoutLog =
          (s.withoutLog.step decoder call).after := congrArg Step.after hstep
      rw [steps, List.map_cons, hstep, ih (fun c hc => hcalls c (List.mem_cons_of_mem call hc)),
        hafter, steps]

/-! ## Calls on lines -/

/-- What a call of a reader of lines finds and does: its answer, the window it leaves, what it makes
the decoder do, and the lengths of the records that observers are told of. -/
inductive LineCall (content : List UInt8) (w : Window) :
    Reply α → Window → List (Decoding α) → List Nat → Prop where
  | exhausted (h : w.stop ≤ w.index) : LineCall content w (.tryNext (.value none)) w [] []
  | decoded (a : α) (hlt : w.index < w.stop) :
      LineCall content w (.tryNext (.value (some a))) ⟨Line.behind content w.index, w.stop⟩
        [⟨Line.textAt content w.index, .value a⟩] [(Line.textAt content w.index).length]
  | failed (why : CodecError) (hlt : w.index < w.stop) :
      LineCall content w (.tryNext (.failed (.decode w.index why))) w
        [⟨Line.textAt content w.index, .failed why⟩] []
  | crashed (text : String) (hlt : w.index < w.stop) :
      LineCall content w (.tryNext (.crashed text)) w
        [⟨Line.textAt content w.index, .crashed text⟩] []
  | unread {reply : Reply α} {stop : Nat} (hstop : stop ≤ w.stop)
      (hreply : ∀ answer, reply ≠ .tryNext answer) : LineCall content w reply ⟨w.index, stop⟩ [] []

namespace LineCall

variable {content : List UInt8} {w w' : Window} {reply : Reply α} {decodings : List (Decoding α)}
  {told : List Nat}

/-- Observers are told of a record if an element was read, and otherwise of none. -/
theorem length_told (h : LineCall content w reply w' decodings told) :
    told.length = if reply.element?.isSome then 1 else 0 := by
  cases h with
  | exhausted hover => rfl
  | decoded a hlt => rfl
  | failed why hlt => rfl
  | crashed text hlt => rfl
  | unread hstop hreply =>
      rw [(Reply.of_ne_tryNext hreply).1]
      rfl

/-- The decoder is given the line at the index, and the answer is what became of it. -/
theorem of_mem_decodings (h : LineCall content w reply w' decodings told) :
    ∀ d ∈ decodings, w.index < w.stop ∧ d.bytes = Line.textAt content w.index ∧
      reply = .tryNext ((d.outcome.map some).mapError (SourceError.decode w.index)) := by
  intro d hd
  cases h with
  | exhausted hover => cases hd
  | decoded a hlt =>
      obtain rfl := List.mem_singleton.mp hd
      exact ⟨hlt, rfl, rfl⟩
  | failed why hlt =>
      obtain rfl := List.mem_singleton.mp hd
      exact ⟨hlt, rfl, rfl⟩
  | crashed text hlt =>
      obtain rfl := List.mem_singleton.mp hd
      exact ⟨hlt, rfl, rfl⟩
  | unread hstop hreply => cases hd

/-- A read that fails or crashes asks the decoder once, and nothing else comes of it. -/
theorem of_isMiss (h : LineCall content w reply w' decodings told) (hmiss : reply.isMiss = true) :
    decodings.length = 1 ∧ w' = w ∧ told = [] := by
  cases h with
  | exhausted hover => cases hmiss
  | decoded a hlt => cases hmiss
  | failed why hlt => exact ⟨rfl, rfl, rfl⟩
  | crashed text hlt => exact ⟨rfl, rfl, rfl⟩
  | unread hstop hreply =>
      rw [(Reply.of_ne_tryNext hreply).2] at hmiss
      cases hmiss

/-- An element is what the decoder made of the line at the index. -/
theorem of_isSome_element? (h : LineCall content w reply w' decodings told)
    (hsome : reply.element?.isSome = true) :
    ∃ a, w.index < w.stop ∧ reply = .tryNext (.value (some a)) ∧
      decodings = [⟨Line.textAt content w.index, .value a⟩] := by
  cases h with
  | exhausted hover => cases hsome
  | decoded a hlt => exact ⟨a, hlt, rfl, rfl⟩
  | failed why hlt => cases hsome
  | crashed text hlt => cases hsome
  | unread hstop hreply =>
      rw [(Reply.of_ne_tryNext hreply).1] at hsome
      cases hsome

end LineCall

/-- The only reader of a session has left so many lines of a range behind, and all observers are
told of what it reads. -/
structure HasPassed (files : Files) (file : Nat) (content : List UInt8) (first past count : Nat)
    (r : OpenReader) (s : Session σ) : Prop where
  files_eq : s.files = files
  readers : s.readers = [r]
  observers : r.observers = s.observers.length
  range : r.range.HasPassed file content first past count

/-- What a step of the only reader of a session did, and where it left the reader. -/
structure Step.Did (files : Files) (file : Nat) (content : List UInt8) (first past count : Nat)
    (r r' : OpenReader) (decodings : List (Decoding α)) (told : List Nat)
    (step : Step (σ × List (Decoding α)) α) : Prop where
  call : LineCall content r.range.tracker.window step.reply r'.range.tracker.window decodings told
  log : step.after.codec.2 = step.before.codec.2 ++ decodings
  observers : step.after.observers =
    told.foldl (fun os n => Observers.notify n os) step.before.observers
  passed : step.after.HasPassed files file content first past (count + told.length) r'

theorem notify_of_length {s : Session σ} {r : OpenReader} (h : r.observers = s.observers.length)
    (byteLengths : List Nat) :
    s.notify r byteLengths =
      { s with
        observers := byteLengths.foldl (fun os n => Observers.notify n os) s.observers } := by
  simp only [notify, h, List.splitAt_eq, List.take_length, List.drop_length, List.append_nil]

theorem putBack_of_readers {s : Session σ} {r : OpenReader} (h : s.readers = [r])
    (used : RangeReader × σ) :
    s.putBack 0 r used = { s with readers := [{ r with range := used.1 }], codec := used.2 } := by
  simp only [putBack, h, List.set_cons_zero]

variable {files : Files} {file : Nat} {content : List UInt8} {first past count : Nat}
  {r : OpenReader}

theorem HasPassed.tryNext {s : Session (σ × List (Decoding α))} (decoder : Decoder σ α)
    (hnode : files.node file = .regular content)
    (h : s.HasPassed files file content first past count r) :
    ∃ r' decodings told, (s.step decoder.logged .tryNext).Did files file content first past count
      r r' decodings told := by
  obtain ⟨rfl, hreaders, hobservers, hrange⟩ := h
  rw [step_of_readers _ _ hreaders]
  rcases hread : RangeReader.tryNext s.files decoder.logged (r.range, s.codec) with ⟨outcome, used⟩
  -- Whatever becomes of the read, the line reader is aligned again.
  have hreads : used.1.ReadsLines file content := hrange.reads.tryNext hnode hread
  have hput := putBack_of_readers hreaders used
  have htell (n : Nat) := notify_of_length (s := { s with
    readers := [{ r with range := used.1 }], codec := used.2 }) hobservers [n]
  simp only [performCall, RangeReader.bounded, hread, hput, htell]
  refine ⟨{ r with range := used.1 }, ?_⟩
  cases RangeReader.lineRead hnode hrange.reads hread with
  | exhausted hover =>
      exact ⟨[], [], .exhausted hover, (List.append_nil _).symm, rfl, rfl, rfl, hobservers, hrange⟩
  | @decoded a c supply hlt hdecode =>
      refine ⟨_, _, .decoded a hlt, Decoder.log_of_decode hdecode, rfl, rfl, rfl, ?_,
        hrange.pass hlt hreads rfl⟩
      simp only [List.foldl_cons, List.foldl_nil, Observers.notify, List.length_map]
      exact hobservers
  | @failed why c supply hlt hdecode =>
      exact ⟨_, _, .failed why hlt, Decoder.log_of_decode hdecode, rfl, rfl, rfl, hobservers,
        hrange.stay hreads rfl (Nat.le_refl _)⟩
  | @crashed text c supply hlt hdecode =>
      exact ⟨_, _, .crashed text hlt, Decoder.log_of_decode hdecode, rfl, rfl, rfl, hobservers,
        hrange.stay hreads rfl (Nat.le_refl _)⟩

theorem HasPassed.unread {s : Session (σ × List (Decoding α))}
    (h : s.HasPassed files file content first past count r) {reply : Reply α}
    (hreply : ∀ answer, reply ≠ .tryNext answer) :
    (⟨s, reply, s⟩ : Step _ α).Did files file content first past count r r [] [] where
  call := .unread (Nat.le_refl _) hreply
  log := (List.append_nil _).symm
  observers := rfl
  passed := h

theorem HasPassed.accept {s : Session (σ × List (Decoding α))}
    (h : s.HasPassed files file content first past count r) {reply : Reply α}
    (hreply : ∀ answer, reply ≠ .tryNext answer) {proposed : Progress} {position : Position}
    {range : RangeReader} (hsplit : r.range.trySplit proposed = .ok (position, range)) :
    (⟨s, reply, s.putBack 0 r (range, s.codec)⟩ : Step _ α).Did files file content first past count
      r { r with range } [] [] := by
  have hreads := h.range.reads.trySplit hsplit
  obtain ⟨offset, -, -, -, hhi, -, rfl⟩ := RangeReader.trySplit_eq_ok_iff.mp hsplit
  have hstop := Nat.le_of_lt hhi
  rw [putBack_of_readers h.readers]
  exact ⟨.unread hstop hreply, (List.append_nil _).symm, rfl, h.files_eq, rfl, h.observers,
    h.range.stay hreads rfl hstop⟩

/-- **One step**: only a read does something with a line, and what it does is up to the decoder. -/
theorem HasPassed.step {s : Session (σ × List (Decoding α))} (decoder : Decoder σ α)
    (hnode : files.node file = .regular content)
    (h : s.HasPassed files file content first past count r) {call : Call}
    (hcall : call.isSingle = true) :
    ∃ r' decodings told, (s.step decoder.logged call).Did files file content first past count
      r r' decodings told := by
  cases call with
  | tryNext => exact h.tryNext decoder hnode
  | hasNext =>
      rw [step_of_readers _ _ h.readers]
      exact ⟨r, [], [], h.unread (by rintro answer ⟨⟩)⟩
  | progress =>
      rw [step_of_readers _ _ h.readers]
      exact ⟨r, [], [], h.unread (by rintro answer ⟨⟩)⟩
  | trySplit proposed =>
      rw [step_of_readers _ _ h.readers]
      simp only [performCall, RangeReader.bounded]
      cases hsplit : r.range.trySplit proposed with
      | ok accepted =>
          obtain ⟨position, range⟩ := accepted
          simp only [Except.map]
          exact ⟨{ r with range }, [], [], h.accept (by rintro answer ⟨⟩) hsplit⟩
      | error reason => exact ⟨r, [], [], h.unread (by rintro answer ⟨⟩)⟩
  | split proposed =>
      rw [step_of_readers _ _ h.readers]
      simp only [performCall, BoundedReader.split, RangeReader.bounded]
      cases hsplit : r.range.trySplit proposed with
      | ok accepted =>
          obtain ⟨position, range⟩ := accepted
          simp only [Except.map]
          exact ⟨{ r with range }, [], [], h.accept (by rintro answer ⟨⟩) hsplit⟩
      | error reason =>
          have hput : s.putBack 0 r (r.range, s.codec) = s := by
            rw [putBack_of_readers h.readers, ← h.readers]
          simp only [Except.map, hput]
          exact ⟨r, [], [], h.unread (by rintro answer ⟨⟩)⟩
  | next => cases hcall
  | elements limit => cases hcall

/-- **All steps**: each one is a step of a reader that has left lines behind, and the elements are
read one by one from the first line that was not left behind on. -/
theorem HasPassed.steps {calls : List Call} (decoder : Decoder σ α)
    (hnode : files.node file = .regular content) (hcalls : ∀ call ∈ calls, call.isSingle = true) :
    ∀ {s : Session (σ × List (Decoding α))} {count : Nat} {r : OpenReader},
      s.HasPassed files file content first past count r →
      let steps := s.steps decoder.logged calls
      (∀ step ∈ steps, ∃ count r r' decodings told,
        step.before.HasPassed files file content first past count r ∧
          step.Did files file content first past count r r' decodings told) ∧
      ∀ (k : Nat) (step : Step (σ × List (Decoding α)) α), (successes steps)[k]? = some step →
        ∃ r r' decodings told,
          step.before.HasPassed files file content first past (count + k) r ∧
            step.Did files file content first past (count + k) r r' decodings told := by
  -- The invariant counts lines, so the number of the next element moves along with it.
  induction calls with
  | nil =>
      intro s count r h
      refine ⟨fun step hstep => ?_, fun k step hstep => ?_⟩
      · cases hstep
      · cases hstep
  | cons call calls ih =>
      intro s count r h
      obtain ⟨r', decodings, told, hdid⟩ :=
        h.step decoder hnode (hcalls call List.mem_cons_self)
      obtain ⟨hrest, helements⟩ :=
        ih (fun c hc => hcalls c (List.mem_cons_of_mem call hc)) hdid.passed
      rw [hdid.call.length_told] at helements
      rw [Session.steps]
      refine ⟨fun step hstep => ?_, fun k step hstep => ?_⟩
      · rcases List.mem_cons.mp hstep with rfl | hstep
        · exact ⟨count, r, r', decodings, told, h, hdid⟩
        · exact hrest step hstep
      · rw [successes_cons] at hstep
        by_cases helement : (s.step decoder.logged call).reply.element?.isSome = true
        · rw [if_pos helement] at hstep helements
          cases k with
          | zero =>
              cases hstep
              exact ⟨r, r', decodings, told, h, hdid⟩
          | succ k =>
              rw [show count + (k + 1) = count + 1 + k by omega]
              exact helements k step hstep
        · rw [if_neg helement] at hstep helements
          exact helements k step hstep

/-! ## Retries -/

/-- What is seen of a step: the window of the only reader before it and after it, and what the
decoder was asked. -/
structure Step.Shows (w w' : Window) (decodings : List (Decoding α))
    (step : Step (σ × List (Decoding α)) α) : Prop where
  before : step.before.readers.map (fun r => r.range.tracker.window) = [w]
  after : step.after.readers.map (fun r => r.range.tracker.window) = [w']
  log : step.after.codec.2 = step.before.codec.2 ++ decodings

theorem Step.Did.shows {step : Step (σ × List (Decoding α)) α} {r' : OpenReader}
    {decodings : List (Decoding α)} {told : List Nat}
    (hbefore : step.before.HasPassed files file content first past count r)
    (h : step.Did files file content first past count r r' decodings told) :
    step.Shows r.range.tracker.window r'.range.tracker.window decodings where
  before := by rw [hbefore.readers, List.map_singleton]
  after := by rw [h.passed.readers, List.map_singleton]
  log := h.log

/-- A fresh reader of a range of a file, opened in a session after its observers were registered. -/
theorem exists_hasPassed {path : String} {start stop : Option UInt64} {source : TextSource}
    (decoder : Decoder σ α) (c : σ) (observers : Observers)
    (hlookup : files.lookup path = .ok (file, .regular content))
    (hsource : TextSource.new files path start stop = .ok source) :
    ∃ r s, ({ source := .text source, files, codec := c, observers } : Session σ).perform decoder
        .openReader = (.opened (.ok 0), s) ∧
      s.HasPassed files file content source.start source.stop 0 r := by
  obtain ⟨range, hopen, hpassed, -, -⟩ := TextSource.exists_reader_hasPassed hlookup hsource
  refine ⟨⟨range, observers.length⟩,
    ⟨.text source, files, c, observers, [⟨range, observers.length⟩]⟩, ?_, rfl, rfl, rfl, hpassed⟩
  simp only [perform, Source.reader, hopen]
  rfl

/-- **A line is read again until it is decoded.** For every content of a file, every accepted range,
every decoder, which may succeed, fail or crash at any call of it, and every list of calls: a
reader of the range is opened, and then

* whatever the decoder is given in a step is the text of the line that starts at the index, and the
  step answers with what became of it, where a failure is reported with the offset of the line;
* a read that fails or crashes has asked the decoder once, has left the window as it was and has
  told no observer;
* the `k`-th read that gives an element was made at the `k`-th line of the range, and gives what the
  decoder made of the text of that line. -/
theorem rereads_lines {path : String} {start stop : Option UInt64} {source : TextSource}
    (decoder : Decoder σ α) (c : σ) (observers : Observers) {calls : List Call}
    (hlookup : files.lookup path = .ok (file, .regular content))
    (hsource : TextSource.new files path start stop = .ok source)
    (hcalls : ∀ call ∈ calls, call.isSingle = true) :
    ∃ s, ({ source := .text source, files, codec := (c, []), observers } :
        Session (σ × List (Decoding α))).perform decoder.logged .openReader =
          (.opened (.ok 0), s) ∧
      let steps := s.steps decoder.logged calls
      (∀ step ∈ steps, ∃ w w' decodings, step.Shows w w' decodings ∧
        (∀ d ∈ decodings, Line.startsAt content w.index = true ∧
          d.bytes = Line.textAt content w.index ∧
          step.reply = .tryNext ((d.outcome.map some).mapError (SourceError.decode w.index))) ∧
        (step.reply.isMiss = true →
          decodings.length = 1 ∧ w' = w ∧ step.after.observers = step.before.observers)) ∧
      ∀ (k : Nat) (step : Step (σ × List (Decoding α)) α), (successes steps)[k]? = some step →
        ∃ line a w w', (Line.allIn content source.start source.stop)[k]? = some line ∧
          step.Shows w w' [⟨line.text, .value a⟩] ∧ w.index = line.start ∧
          step.reply = .tryNext (.value (some a)) := by
  have hnode := Files.node_of_lookup hlookup
  obtain ⟨r, s, hopen, hfresh⟩ :=
    exists_hasPassed decoder.logged (c, []) observers hlookup hsource
  obtain ⟨hsteps, helements⟩ := hfresh.steps decoder hnode hcalls
  refine ⟨s, hopen, fun step hstep => ?_, fun k step hstep => ?_⟩
  · obtain ⟨count, r, r', decodings, told, hpassed, hdid⟩ := hsteps step hstep
    refine ⟨_, _, decodings, hdid.shows hpassed, fun d hd => ?_, fun hmiss => ?_⟩
    · obtain ⟨hlt, hbytes, hreply⟩ := hdid.call.of_mem_decodings d hd
      have hreads := hpassed.range.reads
      exact ⟨hreads.startsAt_index (Nat.lt_of_lt_of_le hlt hreads.stop_le), hbytes, hreply⟩
    · obtain ⟨hasked, hwindow, htold⟩ := hdid.call.of_isMiss hmiss
      have hobservers := hdid.observers
      rw [htold] at hobservers
      exact ⟨hasked, hwindow, hobservers⟩
  · obtain ⟨r, r', decodings, told, hpassed, hdid⟩ := helements k step hstep
    have hsome := (List.mem_filter.mp (List.mem_of_getElem? hstep)).2
    -- A step with an element has asked the decoder once, and it was for this line.
    obtain ⟨a, hlt, hreply, rfl⟩ := hdid.call.of_isSome_element? hsome
    have hline := hpassed.range.line hlt
    rw [Nat.zero_add] at hline
    exact ⟨_, a, _, _, hline, hdid.shows hpassed, rfl, hreply⟩

/-- A decoder that fails at its first call and crashes at its fourth one, and passes bytes through
at all others. Its state is the number of its calls. -/
def moody : Decoder Nat (List UInt8) where
  decode bytes count :=
    match count with
    | 0 => (.failed (.other "busy"), 1)
    | 3 => (.crashed "lost", 4)
    | count => (.value bytes, count + 1)

/-- Calls that read a file of three lines, with a split inside the last line when it was not
decoded. -/
def moodyCalls : List Call :=
  [.tryNext, .tryNext, .tryNext, .tryNext, .trySplit (.ofPosition (.byteOffset 6)), .hasNext,
    .tryNext, .tryNext]

/-- The steps of these calls, with one observer. -/
def moodySteps : List (Step (Nat × List (Decoding (List UInt8))) (List UInt8)) :=
  let s : Session (Nat × List (Decoding (List UInt8))) :=
    { source := .text ⟨"log", 0, 7⟩, files := TextSource.mixedLines, codec := (0, [])
      observers := [{}] }
  (s.perform moody.logged .openReader).2.steps moody.logged moodyCalls

/-- The first line and the last one are read again, and the observer is not told of the reads that
failed and crashed. -/
theorem rereads_lines_moody :
    moodySteps.map (fun step => step.reply.isMiss) =
        [true, false, false, true, false, false, false, false] ∧
      (∀ step ∈ moodySteps, step.reply.isMiss = true →
        step.after.observers = step.before.observers) ∧
      ∃ step w w', (successes moodySteps)[2]? = some step ∧
        step.Shows w w' [⟨[99, 13], .value [99, 13]⟩] ∧ w.index = 5 := by
  have hsource : TextSource.new TextSource.mixedLines "log" none none = .ok ⟨"log", 0, 7⟩ := by
    rw [TextSource.new, TextSource.lookup_mixedLines]
    rfl
  have hcalls : ∀ call ∈ moodyCalls, call.isSingle = true := by
    decide
  obtain ⟨s, hopen, hsteps, helements⟩ :=
    rereads_lines moody 0 [{}] TextSource.lookup_mixedLines hsource hcalls
  obtain rfl := congrArg Prod.snd hopen
  refine ⟨by decide +kernel, fun step hstep hmiss => ?_, ?_⟩
  · obtain ⟨w, w', decodings, -, -, hquiet⟩ := hsteps step hstep
    exact (hquiet hmiss).2.2
  · have hlast : (successes moodySteps)[2]?.bind (fun step => step.reply.element?) =
        some [99, 13] := by
      decide +kernel
    obtain ⟨step, hstep, helement⟩ := Option.bind_eq_some_iff.mp hlast
    obtain ⟨line, a, w, w', hline, hshows, hindex, hreply⟩ := helements 2 step hstep
    rw [hreply] at helement
    cases helement
    cases hline
    exact ⟨step, w, w', hstep, hshows, hindex⟩

end Session

end SplitReader
