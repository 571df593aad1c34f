import SplitReader.Codec
import SplitReader.Proofs.History
import SplitReader.Source.Memory

/-! # Finished reads

A run that ends without a crash marks its operation as finished, and nothing takes the mark away. A
run that ended in an error leaves records in the window, and a later run reads on in them; the
tracker alone would go on accepting stops there. The operation asks it for none any more, whether
the request comes from outside, from the sink of a later run or with the answer to a report
(`frozen_of_finished`).

The files behind the reader may be other ones at every read.
-/

set_option autoImplicit false

namespace SplitReader

/-! ## Files that change -/

namespace RangeReader

variable {σ α : Type}

/-- A reader of a range that counts its reads and finds other files at each of them. -/
def boundedThrough (files : Nat → Files) (decoder : Decoder σ α) :
    BoundedReader ((RangeReader × σ) × Nat) α where
  hasNext s := (bounded (files s.2) decoder).hasNext s.1
  tryNext s :=
    let (outcome, used) := tryNext (files s.2) decoder s.1
    (outcome, used, s.2 + 1)
  progress s := (bounded (files s.2) decoder).progress s.1
  trySplit proposed s :=
    ((bounded (files s.2) decoder).trySplit proposed s.1).map fun (position, used) =>
      (position, used, s.2)
  remaining s := (bounded (files s.2) decoder).remaining s.1

variable {files : Nat → Files} {decoder : Decoder σ α}

theorem tryNext_of_boundedThrough {s s' : (RangeReader × σ) × Nat}
    {outcome : Outcome SourceError (Option (Delivered α))}
    (h : (boundedThrough files decoder).tryNext s = (outcome, s')) :
    (bounded (files s.2) decoder).tryNext s.1 = (outcome, s'.1) := by
  cases h
  rfl

/-- **Readers of ranges narrow their range**, also in files that change. -/
theorem boundedThrough_narrowing (files : Nat → Files) (decoder : Decoder σ α) :
    (boundedThrough files decoder).Narrowing where
  read := by
    intro s s' d h
    exact (bounded_narrowing (files s.2) decoder).read (tryNext_of_boundedThrough h)
  miss := by
    intro s s' outcome h
    exact (bounded_narrowing (files s.2) decoder).miss (tryNext_of_boundedThrough h)
  split := by
    intro s s' proposed position h
    cases hsplit : (bounded (files s.2) decoder).trySplit proposed s.1 with
    | error e =>
        simp only [boundedThrough, hsplit] at h
        cases h
    | ok accepted =>
        simp only [boundedThrough, hsplit] at h
        cases h
        exact (bounded_narrowing (files s.2) decoder).split hsplit

end RangeReader

/-! ## The mark -/

/-- The run came to an end, and not by a crash. -/
def ReadOperation.Ending.isOrderly : ReadOperation.Ending → Bool
  | .exhausted _ | .failed _ => true
  | .crashed _ | .unfinished => false

/-- The stop position that was accepted, if the request was for a split and one was. -/
def SinkReply.accepted? : SinkReply → Option Position
  | .split answer => answer
  | .status _ => none

namespace ReadOperation

variable {S α : Type} {r : BoundedReader S α} {op : ReadOperation S} {sink : Sink α}

theorem isFinished_of_take {taken : ReadOperation S}
    {outcome : Outcome SourceError (Option α)} (h : op.take r = (outcome, taken)) :
    taken.isFinished = op.isFinished := by
  unfold take at h
  rcases hnext : r.tryNext op.reader with ⟨(_ | d) | e | text, reader⟩ <;> rw [hnext] at h <;>
    cases h <;> rfl

theorem isFinished_requestSplit (r : BoundedReader S α) (proposed : Progress)
    (op : ReadOperation S) : (op.requestSplit r proposed).2.isFinished = op.isFinished := by
  unfold requestSplit applySplit
  split
  · rfl
  · split <;> rfl

theorem isFinished_reportOnce (r : BoundedReader S α) (context : WorkContext)
    (control : ProgressReport → ControlReply) (op : ReadOperation S) :
    (op.reportOnce r context control).2.isFinished = op.isFinished := by
  unfold reportOnce
  split
  · rfl
  · exact isFinished_requestSplit r _ op
  · rfl

theorem isFinished_serve (r : BoundedReader S α) (op : ReadOperation S) (request : SinkRequest) :
    (op.serve r request).2.isFinished = op.isFinished := by
  cases request with
  | split proposed => exact isFinished_requestSplit r proposed op
  | inspect => rfl

theorem isFinished_serveAll (r : BoundedReader S α) (requests : List SinkRequest) :
    ∀ op : ReadOperation S, (op.serveAll r requests).2.isFinished = op.isFinished := by
  induction requests with
  | nil => exact fun op => rfl
  | cons request requests ih =>
      intro op
      exact (ih (op.serve r request).2).trans (isFinished_serve r op request)

/-- A run marks its operation exactly if it ends in order. -/
theorem isFinished_runFor (r : BoundedReader S α) (sink : Sink α) (reads : Nat) :
    ∀ (delivered : Nat) (op : ReadOperation S),
      (runFor r sink reads delivered op).operation.isFinished =
        (op.isFinished || (runFor r sink reads delivered op).ending.isOrderly) := by
  induction reads with
  | zero =>
      intro delivered op
      exact (Bool.or_false _).symm
  | succ reads ih =>
      intro delivered op
      unfold runFor
      rcases htake : op.take r with ⟨(_ | a) | e | text, taken⟩
      · exact (Bool.or_true _).symm
      · simp only
        rcases sink delivered a with ⟨requests, verdict⟩
        -- What the sink asks for leaves the mark as it is.
        have hserved : (taken.serveAll r requests).2.isFinished = op.isFinished :=
          (isFinished_serveAll r requests taken).trans (isFinished_of_take htake)
        cases verdict with
        | accept => exact (ih (delivered + 1) _).trans (by rw [hserved])
        | refuse e => exact (Bool.or_true _).symm
        | crash text => exact hserved.trans (Bool.or_false _).symm
      · exact (Bool.or_true _).symm
      · exact (isFinished_of_take htake).trans (Bool.or_false _).symm

/-! ## Requests of a finished operation -/

theorem requestSplit_of_finished (h : op.isFinished = true) (proposed : Progress) :
    op.requestSplit r proposed = (none, op) := by
  unfold requestSplit
  rw [if_pos h]

theorem serve_of_finished (h : op.isFinished = true) (request : SinkRequest) :
    (op.serve r request).1.accepted? = none ∧ (op.serve r request).2 = op := by
  cases request with
  | split proposed =>
      rw [serve, requestSplit_of_finished h]
      exact ⟨rfl, rfl⟩
  | inspect => exact ⟨rfl, rfl⟩

theorem serveAll_of_finished (h : op.isFinished = true) (requests : List SinkRequest) :
    (op.serveAll r requests).1.filterMap SinkReply.accepted? = [] ∧
      (op.serveAll r requests).2 = op := by
  induction requests with
  | nil => exact ⟨rfl, rfl⟩
  | cons request requests ih =>
      obtain ⟨hreply, hserve⟩ := serve_of_finished (r := r) h request
      simp only [serveAll, hserve]
      exact ⟨(List.filterMap_cons_none hreply).trans ih.1, ih.2⟩

/-- The sink of a later run gets no stop accepted, however far the run reads on. -/
theorem replies_runFor_of_finished (reads : Nat) :
    ∀ {delivered : Nat} {op : ReadOperation S}, op.isFinished = true →
      (runFor r sink reads delivered op).replies.filterMap SinkReply.accepted? = [] := by
  induction reads with
  | zero => exact fun h => rfl
  | succ reads ih =>
      intro delivered op h
      unfold runFor
      rcases htake : op.take r with ⟨(_ | a) | e | text, taken⟩
      · rfl
      · simp only
        rcases sink delivered a with ⟨requests, verdict⟩
        have htaken : taken.isFinished = true := (isFinished_of_take htake).trans h
        obtain ⟨hreplies, hserved⟩ := serveAll_of_finished (r := r) htaken requests
        cases verdict with
        | accept =>
            simp only [List.filterMap_append, hreplies, hserved, List.nil_append]
            exact ih htaken
        | refuse e => exact hreplies
        | crash text => exact hreplies
      · rfl
      · rfl

/-! ## Histories -/

namespace Moment

/-- The moment behind some calls. -/
def behind (r : BoundedReader S α) (m : Moment S α) (calls : List (Call α)) : Moment S α :=
  calls.foldl (after r) m

def ending? (r : BoundedReader S α) (m : Moment S α) : Call α → Option Ending
  | .run sink => some (m.operation.run r sink).ending
  | _ => none

def endings (r : BoundedReader S α) (m : Moment S α) : List (Call α) → List Ending
  | [] => []
  | call :: calls => (m.ending? r call).toList ++ (m.after r call).endings r calls

/-- The stop positions that the answers to a call name as accepted. -/
def acceptedBy (r : BoundedReader S α) (m : Moment S α) : Call α → List Position
  | .run sink => (m.operation.run r sink).replies.filterMap SinkReply.accepted?
  | .split proposed => (m.operation.requestSplit r proposed).1.toList
  | .report _ => []
  | .reportOnce context control =>
      match (m.operation.reportOnce r context control).1 with
      | .ok answer => answer.toList
      | .error _ => []

def accepted (r : BoundedReader S α) (m : Moment S α) : List (Call α) → List Position
  | [] => []
  | call :: calls => m.acceptedBy r call ++ (m.after r call).accepted r calls

end Moment

variable {m : Moment S α}

theorem isFinished_after (r : BoundedReader S α) (m : Moment S α) (call : Call α) :
    (m.after r call).operation.isFinished = true ↔
      m.operation.isFinished = true ∨ ∃ e ∈ m.ending? r call, e.isOrderly = true := by
  cases call with
  | run sink =>
      have hrun := isFinished_runFor r sink (r.remaining m.operation.reader + 1) 0 m.operation
      simp only [Moment.after, Moment.ending?, run, hrun, Bool.or_eq_true, Option.mem_some_iff,
        exists_eq_left']
  | split proposed =>
      rw [Moment.after, isFinished_requestSplit]
      simp [Moment.ending?]
  | report context => simp [Moment.after, Moment.ending?]
  | reportOnce context control =>
      rw [Moment.after, isFinished_reportOnce]
      simp [Moment.ending?]

/-- **An operation is marked exactly if one of its runs has ended in order.** -/
theorem isFinished_behind (r : BoundedReader S α) (calls : List (Call α)) :
    ∀ m : Moment S α, (m.behind r calls).operation.isFinished = true ↔
      m.operation.isFinished = true ∨ ∃ e ∈ m.endings r calls, e.isOrderly = true := by
  induction calls with
  | nil => simp [Moment.behind, Moment.endings]
  | cons call calls ih =>
      intro m
      -- The first call marks the operation, or one of the other ones does.
      have hrest := ih (m.after r call)
      rw [isFinished_after, or_assoc] at hrest
      rw [Moment.behind, List.foldl_cons]
      refine hrest.trans (or_congr_right ?_)
      simp only [Moment.endings, List.mem_append, Option.mem_toList, Option.mem_def, or_and_right,
        exists_or]

theorem unfinished_notMem_endings (hr : r.Narrowing) (calls : List (Call α)) :
    ∀ m : Moment S α, .unfinished ∉ m.endings r calls := by
  induction calls with
  | nil => exact fun m => List.not_mem_nil
  | cons call calls ih =>
      intro m hmem
      rcases List.mem_append.mp hmem with hfirst | hrest
      · cases call with
        | run sink =>
            have hending := Option.some.inj (Option.mem_toList.mp hfirst)
            exact ending_run_ne_unfinished hr m.operation hending
        | _ => cases hfirst
      · exact ih _ hrest

theorem acceptedBy_of_finished (h : m.operation.isFinished = true) (call : Call α) :
    m.acceptedBy r call = [] := by
  cases call with
  | run sink => exact replies_runFor_of_finished _ h
  | split proposed => rw [Moment.acceptedBy, requestSplit_of_finished h, Option.toList_none]
  | report context => rfl
  | reportOnce context control =>
      simp only [Moment.acceptedBy, reportOnce]
      cases control (m.operation.report r context) with
      | nothing => rfl
      | propose proposed => simp only [requestSplit_of_finished h, Option.toList_none]
      | failed text => rfl

theorem accepted_of_finished (calls : List (Call α)) :
    ∀ {m : Moment S α}, m.operation.isFinished = true → m.accepted r calls = [] := by
  induction calls with
  | nil => exact fun h => rfl
  | cons call calls ih =>
      intro m h
      have hafter := (isFinished_after r m call).mpr (.inl h)
      rw [Moment.accepted, acceptedBy_of_finished h, ih hafter, List.append_nil]

/-- **What can be done to a finished operation keeps its mark, the stop that was accepted last, and
what reads keep of the reader.** -/
theorem keeps_frozen {β : Type} (view : S → β) (hview : ∀ s, view (r.tryNext s).2 = view s)
    (stop : Option Position) (v : β) :
    KeepsRequests r (fun op _ =>
      op.isFinished = true ∧ op.stopPosition = stop ∧ view op.reader = v) where
  take := by
    intro op op' handed a h htake
    obtain ⟨d, reader, hnext, -, rfl⟩ := of_take_some htake
    have hkept := hview op.reader
    rw [hnext] at hkept
    exact ⟨h.1, h.2.1, hkept.trans h.2.2⟩
  miss := by
    intro op op' handed outcome h htake hmiss
    obtain ⟨read, reader, hnext, -, rfl⟩ := of_take_miss htake hmiss
    have hkept := hview op.reader
    rw [hnext] at hkept
    exact ⟨h.1, h.2.1, hkept.trans h.2.2⟩
  requestSplit := by
    intro op handed proposed h
    rw [requestSplit_of_finished h.1]
    exact h
  finish := fun h => ⟨rfl, h.2⟩

variable {σ : Type}

/-- **A finished read is frozen for the control side.** Whatever was done to an operation on any
range of any source, in files that may be other ones at every read: it is marked exactly if it was
marked before or one of its runs has ended in order, that is, by exhaustion or by an error of the
source or of the sink. Every run comes to an end. If it is marked, then it stays so in every moment
of whatever is done next, inside the runs that read on too; the stop that was accepted last and the
stop of the reader stay as they are, and no answer names an accepted stop, neither to a sink nor to
a request nor to a report. -/
theorem frozen_of_finished (files : Nat → Files) (decoder : Decoder σ α)
    (op : ReadOperation ((RangeReader × σ) × Nat)) (before next : List (Call α)) :
    let r := RangeReader.boundedThrough files decoder
    let opened : Moment ((RangeReader × σ) × Nat) α := { operation := op }
    let m := opened.behind r before
    .unfinished ∉ opened.endings r before ∧
      (m.operation.isFinished = true ↔
        op.isFinished = true ∨ ∃ e ∈ opened.endings r before, e.isOrderly = true) ∧
      (m.operation.isFinished = true →
        m.accepted r next = [] ∧
          ∀ later ∈ m.history r next, later.operation.isFinished = true ∧
            later.operation.stopPosition = m.operation.stopPosition ∧
            later.operation.reader.1.1.endPosition = m.operation.reader.1.1.endPosition) := by
  intro r opened m
  have hnarrow : r.Narrowing := RangeReader.boundedThrough_narrowing files decoder
  refine ⟨unfinished_notMem_endings hnarrow before opened, isFinished_behind r before opened,
    fun hfinished => ⟨accepted_of_finished next hfinished, ?_⟩⟩
  let stop (s : (RangeReader × σ) × Nat) : Nat := s.1.1.endPosition
  -- A read moves the index of the window and leaves its stop alone.
  have hstop : ∀ s, stop (r.tryNext s).2 = stop s :=
    fun s => (RangeReader.stop_tryNext (files s.2) decoder s.1).2
  have hkeeps := keeps_frozen stop hstop m.operation.stopPosition (stop m.operation.reader)
  exact hkeeps.history next ⟨hfinished, rfl, rfl⟩

/-- The first element is refused by a sink that had just been granted a stop at the fourth record. -/
def refusedRun : List (Call (List UInt8)) :=
  [.run fun _ _ => ([.split (.ofPosition (.recordIndex 4))], .refuse (.internal "full"))]

/-- A stop at the third record is proposed by a request, with the answer to a report, and by the sink
of a run that reads on. -/
def lateProposals : List (Call (List UInt8)) :=
  let proposed := Progress.ofPosition (.recordIndex 3)
  [.split proposed, .reportOnce ⟨"item", "worker"⟩ fun _ => .propose proposed,
    .run fun _ _ => ([.split proposed], .accept)]

/-- The window of the finished operation has room for the stop, and the run that reads on passes it
without a split. -/
theorem frozen_of_finished_refusedRun :
    let records : List (List UInt8) := [[1], [2], [3], [4], [5]]
    let r := RangeReader.boundedThrough (fun _ => {}) Codec.bytes.decoder
    let opened : Moment _ (List UInt8) :=
      { operation := { reader := ((MemorySource.reader ⟨records, 0, 5⟩, ()), 0) } }
    let m := opened.behind r refusedRun
    m.operation.isFinished = true ∧ m.operation.reader.1.1.tracker.window = ⟨1, 4⟩ ∧
      (m.operation.reader.1.1.trySplit (.ofPosition (.recordIndex 3))).toOption.isSome = true ∧
      (m.behind r lateProposals).handed = [[1], [2], [3], [4]] ∧
      m.accepted r lateProposals = [] ∧
      ∀ later ∈ m.history r lateProposals, later.operation.isFinished = true ∧
        later.operation.stopPosition = some (.recordIndex 4) ∧
        later.operation.reader.1.1.endPosition = 4 := by
  intro records r opened m
  have hfinished : m.operation.isFinished = true := rfl
  obtain ⟨-, -, hfrozen⟩ := frozen_of_finished (fun _ => {}) Codec.bytes.decoder
    opened.operation refusedRun lateProposals
  obtain ⟨haccepted, hlater⟩ := hfrozen hfinished
  exact ⟨hfinished, rfl, rfl, rfl, haccepted, hlater⟩

end ReadOperation

end SplitReader
