import SplitReader.Proofs.RangeReader
import SplitReader.Work.Report

/-! # Histories of read operations

A history is what becomes of an operation under any sequence of calls: runs with any sinks, splits
and reports. Its moments are the states between two calls, and those inside a run that a sink can
see: when it is handed an element, and behind each of its requests.

What one read, one requested split and the mark at the end of a run preserve holds in every moment
of every history (`KeepsRequests.history`).
-/

set_option autoImplicit false

namespace SplitReader

namespace ReadOperation

variable {S α : Type}

/-! ## Reads -/

theorem of_take_some {r : BoundedReader S α} {op op' : ReadOperation S} {a : α}
    (h : op.take r = (.value (some a), op')) :
    ∃ d reader, r.tryNext op.reader = (.value (some d), reader) ∧ a = d.element ∧
      op' = { op with reader, counters := op.counters.countRecord d.byteLength } := by
  unfold take at h
  rcases hnext : r.tryNext op.reader with ⟨(_ | d) | e | text, reader⟩ <;> rw [hnext] at h <;>
    cases h
  exact ⟨d, reader, rfl, rfl, rfl⟩

theorem of_take_none {r : BoundedReader S α} {op op' : ReadOperation S}
    (h : op.take r = (.value none, op')) :
    r.tryNext op.reader = (.value none, op'.reader) := by
  unfold take at h
  rcases hnext : r.tryNext op.reader with ⟨(_ | d) | e | text, reader⟩ <;> rw [hnext] at h <;>
    cases h
  rfl

theorem of_take_miss {r : BoundedReader S α} {op op' : ReadOperation S}
    {outcome : Outcome SourceError (Option α)} (h : op.take r = (outcome, op'))
    (hmiss : ∀ a, outcome ≠ .value (some a)) :
    ∃ read reader, r.tryNext op.reader = (read, reader) ∧ (∀ d, read ≠ .value (some d)) ∧
      op' = { op with reader } := by
  unfold take at h
  rcases hnext : r.tryNext op.reader with ⟨(_ | d) | e | text, reader⟩ <;> rw [hnext] at h <;>
    cases h
  · exact ⟨_, reader, rfl, by simp, rfl⟩
  · exact absurd rfl (hmiss d.element)
  · exact ⟨_, reader, rfl, by simp, rfl⟩
  · exact ⟨_, reader, rfl, by simp, rfl⟩

/-! ## Moments -/

/-- What may be done to an operation from outside. -/
inductive Call (α : Type) where
  | run (sink : Sink α)
  | split (proposed : Progress)
  | report (context : WorkContext)
  | reportOnce (context : WorkContext) (control : ProgressReport → ControlReply)

structure Moment (S α : Type) where
  operation : ReadOperation S
  /-- All elements that were handed to sinks so far, in order. -/
  handed : List α := []

namespace Moment

/-- The moment behind a request of a sink. -/
def serve (r : BoundedReader S α) (m : Moment S α) (request : SinkRequest) : Moment S α :=
  { m with operation := (m.operation.serve r request).2 }

/-- The moments behind each request of a sink that holds an element. -/
def insideSink (r : BoundedReader S α) (m : Moment S α) : List SinkRequest → List (Moment S α)
  | [] => []
  | request :: requests => m.serve r request :: (m.serve r request).insideSink r requests

def release (r : BoundedReader S α) (m : Moment S α) (requests : List SinkRequest) : Moment S α :=
  { m with operation := (m.operation.serveAll r requests).2 }

/-- The moments of a run: an element is handed over, the requests of the sink are answered, the run
comes to an end. -/
def insideRun (r : BoundedReader S α) (sink : Sink α) :
    Nat → Nat → Moment S α → List (Moment S α)
  | 0, _, _ => []
  | reads + 1, delivered, m =>
      match m.operation.take r with
      | (.value none, op) => [{ m with operation := op.finish }]
      | (.failed _, op) => [{ m with operation := op.finish }]
      | (.crashed _, op) => [{ m with operation := op }]
      | (.value (some a), op) =>
          let held : Moment S α := { operation := op, handed := m.handed ++ [a] }
          let (requests, verdict) := sink delivered a
          let released := held.release r requests
          held :: (held.insideSink r requests ++
            match verdict with
            | .accept => released.insideRun r sink reads (delivered + 1)
            | .refuse _ => [{ released with operation := released.operation.finish }]
            | .crash _ => [])

def inside (r : BoundedReader S α) (m : Moment S α) : Call α → List (Moment S α)
  | .run sink => m.insideRun r sink (r.remaining m.operation.reader + 1) 0
  | _ => []

def after (r : BoundedReader S α) (m : Moment S α) : Call α → Moment S α
  | .run sink =>
      let run := m.operation.run r sink
      { operation := run.operation, handed := m.handed ++ run.handed }
  | .split proposed => { m with operation := (m.operation.requestSplit r proposed).2 }
  | .report _ => m
  | .reportOnce context control =>
      { m with operation := (m.operation.reportOnce r context control).2 }

/-- The moments of a history that begins with a moment. -/
def history (r : BoundedReader S α) (m : Moment S α) : List (Call α) → List (Moment S α)
  | [] => [m]
  | call :: calls => m :: (m.inside r call ++ (m.after r call).history r calls)

end Moment

theorem getLastD_append {β : Type} (xs ys : List β) (d : β) :
    (xs ++ ys).getLastD d = ys.getLastD (xs.getLastD d) := by
  rw [List.getLastD_eq_getLast?, List.getLastD_eq_getLast?, List.getLastD_eq_getLast?,
    List.getLast?_append, Option.getD_or]

variable {r : BoundedReader S α} {sink : Sink α}

theorem getLastD_insideSink (requests : List SinkRequest) :
    ∀ m : Moment S α, (m.insideSink r requests).getLastD m = m.release r requests := by
  induction requests with
  | nil => exact fun m => rfl
  | cons request requests ih =>
      intro m
      rw [Moment.insideSink, List.getLastD_cons, ih]
      rfl

theorem getLastD_insideRun (reads : Nat) : ∀ (delivered : Nat) (m : Moment S α),
    (m.insideRun r sink reads delivered).getLastD m =
      ⟨(runFor r sink reads delivered m.operation).operation,
        m.handed ++ (runFor r sink reads delivered m.operation).handed⟩ := by
  induction reads with
  | zero =>
      intro delivered m
      simp [Moment.insideRun, runFor]
  | succ reads ih =>
      intro delivered m
      unfold Moment.insideRun runFor
      rcases m.operation.take r with ⟨(_ | a) | e | text, op⟩
      · simp
      · simp only
        rcases sink delivered a with ⟨requests, verdict⟩
        rw [List.getLastD_cons, getLastD_append, getLastD_insideSink]
        cases verdict with
        | accept =>
            rw [ih]
            simp only [Moment.release, List.append_assoc, List.singleton_append]
        | refuse e => rfl
        | crash text => rfl
      · simp
      · simp

/-! ## What is kept -/

/-- A property of an operation and the elements that were handed to sinks is kept by what may be
done to an operation in one step. -/
structure KeepsRequests (r : BoundedReader S α) (P : ReadOperation S → List α → Prop) : Prop where
  take : ∀ {op op' : ReadOperation S} {handed : List α} {a : α}, P op handed →
    op.take r = (.value (some a), op') → P op' (handed ++ [a])
  miss : ∀ {op op' : ReadOperation S} {handed : List α}
    {outcome : Outcome SourceError (Option α)}, P op handed → op.take r = (outcome, op') →
      (∀ a, outcome ≠ .value (some a)) → P op' handed
  requestSplit : ∀ {op : ReadOperation S} {handed : List α} (proposed : Progress), P op handed →
    P (op.requestSplit r proposed).2 handed
  finish : ∀ {op : ReadOperation S} {handed : List α}, P op handed → P op.finish handed

theorem of_applySplit (P : ReadOperation S → List α → Prop) {op : ReadOperation S}
    {handed : List α} (proposed : Progress) (h : P op handed)
    (hsplit : P (op.applySplit r proposed).2 handed) :
    P (op.requestSplit r proposed).2 handed := by
  unfold requestSplit
  split
  · exact h
  · exact hsplit

/-- A property that is kept whenever the reader judges a stop, whether the operation is marked or
not. -/
structure Keeps (r : BoundedReader S α) (P : ReadOperation S → List α → Prop) : Prop
    extends KeepsRequests r P where
  applySplit : ∀ {op : ReadOperation S} {handed : List α} (proposed : Progress), P op handed →
    P (op.applySplit r proposed).2 handed
  requestSplit := fun proposed h => of_applySplit P proposed h (applySplit proposed h)

section Keeping

variable {P : ReadOperation S → List α → Prop} {op : ReadOperation S} {handed : List α}

theorem KeepsRequests.serve (hP : KeepsRequests r P) (request : SinkRequest) (h : P op handed) :
    P (op.serve r request).2 handed := by
  cases request with
  | split proposed => exact hP.requestSplit proposed h
  | inspect => exact h

theorem KeepsRequests.reportOnce (hP : KeepsRequests r P) (context : WorkContext)
    (control : ProgressReport → ControlReply) (h : P op handed) :
    P (op.reportOnce r context control).2 handed := by
  unfold ReadOperation.reportOnce
  split
  · exact h
  · exact hP.requestSplit _ h
  · exact h

theorem KeepsRequests.insideSink (hP : KeepsRequests r P) (requests : List SinkRequest) :
    ∀ {m : Moment S α}, P m.operation m.handed →
      ∀ m' ∈ m.insideSink r requests, P m'.operation m'.handed := by
  induction requests with
  | nil =>
      intro m h m' hm'
      cases hm'
  | cons request requests ih =>
      intro m h m' hm'
      have hserve : P (m.serve r request).operation (m.serve r request).handed := hP.serve request h
      rcases List.mem_cons.mp hm' with rfl | hm'
      · exact hserve
      · exact ih hserve m' hm'

/-- What holds in all of some moments and in the one before them holds in the last one. -/
theorem of_getLastD {ms : List (Moment S α)} {m : Moment S α} (h : P m.operation m.handed)
    (hms : ∀ m' ∈ ms, P m'.operation m'.handed) :
    P (ms.getLastD m).operation (ms.getLastD m).handed := by
  cases ms with
  | nil => exact h
  | cons first rest =>
      rw [List.getLastD_cons]
      exact hms _ List.getLastD_mem_cons

theorem KeepsRequests.release (hP : KeepsRequests r P) (requests : List SinkRequest) {m : Moment S α}
    (h : P m.operation m.handed) :
    P (m.release r requests).operation (m.release r requests).handed := by
  have hlast := of_getLastD h (hP.insideSink requests h)
  rwa [getLastD_insideSink] at hlast

/-- **What is kept in one step holds in every moment inside a run.** -/
theorem KeepsRequests.insideRun (hP : KeepsRequests r P) (reads : Nat) :
    ∀ (delivered : Nat) {m : Moment S α}, P m.operation m.handed →
      ∀ m' ∈ m.insideRun r sink reads delivered, P m'.operation m'.handed := by
  induction reads with
  | zero =>
      intro delivered m h m' hm'
      cases hm'
  | succ reads ih =>
      intro delivered m h m' hm'
      unfold Moment.insideRun at hm'
      rcases htake : m.operation.take r with ⟨(_ | a) | e | text, op⟩
      · simp only [htake, List.mem_singleton] at hm'
        subst hm'
        exact hP.finish (hP.miss h htake (by simp))
      · simp only [htake] at hm'
        rcases hsink : sink delivered a with ⟨requests, verdict⟩
        -- While the sink holds the element, it counts as handed over.
        have hheld : P op (m.handed ++ [a]) := hP.take h htake
        have hreleased := hP.release requests (m := ⟨op, m.handed ++ [a]⟩) hheld
        simp only [hsink] at hm'
        rcases List.mem_cons.mp hm' with rfl | hm'
        · exact hheld
        rcases List.mem_append.mp hm' with hm' | hm'
        · exact hP.insideSink requests (m := ⟨op, m.handed ++ [a]⟩) hheld m' hm'
        cases verdict with
        | accept => exact ih (delivered + 1) hreleased m' hm'
        | refuse e =>
            rw [List.mem_singleton.mp hm']
            exact hP.finish hreleased
        | crash text => cases hm'
      · simp only [htake, List.mem_singleton] at hm'
        subst hm'
        exact hP.finish (hP.miss h htake (by simp))
      · simp only [htake, List.mem_singleton] at hm'
        subst hm'
        exact hP.miss h htake (by simp)

theorem KeepsRequests.inside (hP : KeepsRequests r P) {m : Moment S α} (h : P m.operation m.handed)
    (call : Call α) : ∀ m' ∈ m.inside r call, P m'.operation m'.handed := by
  cases call with
  | run sink => exact hP.insideRun _ 0 h
  | split proposed => exact fun m' hm' => absurd hm' List.not_mem_nil
  | report context => exact fun m' hm' => absurd hm' List.not_mem_nil
  | reportOnce context control => exact fun m' hm' => absurd hm' List.not_mem_nil

theorem KeepsRequests.after (hP : KeepsRequests r P) {m : Moment S α} (h : P m.operation m.handed)
    (call : Call α) : P (m.after r call).operation (m.after r call).handed := by
  cases call with
  | run sink =>
      have hlast := of_getLastD h (hP.inside h (.run sink))
      rw [Moment.inside, getLastD_insideRun] at hlast
      exact hlast
  | split proposed => exact hP.requestSplit proposed h
  | report context => exact h
  | reportOnce context control => exact hP.reportOnce context control h

/-- **What is kept in one step holds in every moment of every history.** -/
theorem KeepsRequests.history (hP : KeepsRequests r P) (calls : List (Call α)) :
    ∀ {m : Moment S α}, P m.operation m.handed →
      ∀ m' ∈ m.history r calls, P m'.operation m'.handed := by
  induction calls with
  | nil =>
      intro m h m' hm'
      rw [List.mem_singleton.mp hm']
      exact h
  | cons call calls ih =>
      intro m h m' hm'
      rcases List.mem_cons.mp hm' with rfl | hm'
      · exact h
      rcases List.mem_append.mp hm' with hm' | hm'
      · exact hP.inside h call m' hm'
      · exact ih (hP.after h call) m' hm'

end Keeping

/-! ## Ends of runs -/

theorem keeps_remaining_le (hr : r.Narrowing) (n : Nat) :
    Keeps r (fun op _ => r.remaining op.reader ≤ n) where
  take := by
    intro op op' handed a hle htake
    obtain ⟨d, reader, hnext, -, rfl⟩ := of_take_some htake
    exact Nat.le_trans (Nat.le_of_lt (hr.read hnext)) hle
  miss := by
    intro op op' handed outcome hle htake hmiss
    obtain ⟨read, reader, hnext, -, rfl⟩ := of_take_miss htake hmiss
    exact Nat.le_trans (hr.miss hnext) hle
  applySplit := by
    intro op handed proposed hle
    unfold applySplit
    split
    · next position reader hsplit => exact Nat.le_trans (hr.split hsplit) hle
    · exact hle
  finish := fun hle => hle

/-- A run with a read for every record that is left, and one more, comes to an end. -/
theorem ending_runFor_ne_unfinished (hr : r.Narrowing) (reads : Nat) :
    ∀ {delivered : Nat} {op : ReadOperation S}, r.remaining op.reader < reads →
      (runFor r sink reads delivered op).ending ≠ .unfinished := by
  induction reads with
  | zero => exact fun h => absurd h (Nat.not_lt_zero _)
  | succ reads ih =>
      intro delivered op hlt
      unfold runFor
      rcases htake : op.take r with ⟨(_ | a) | e | text, op'⟩
      · simp
      · simp only
        rcases sink delivered a with ⟨requests, verdict⟩
        cases verdict with
        | accept =>
            obtain ⟨d, reader, hnext, -, rfl⟩ := of_take_some htake
            have hless := hr.read hnext
            -- What the sink requests gives back nothing of what was read.
            have hreleased := (keeps_remaining_le hr (r.remaining reader)).release requests
              (m := ⟨{ op with reader, counters := op.counters.countRecord d.byteLength }, []⟩)
              (Nat.le_refl _)
            refine ih (Nat.lt_of_le_of_lt hreleased ?_)
            omega
        | refuse e => simp
        | crash text => simp
      · simp
      · simp

/-- **A run never stops halfway.** -/
theorem ending_run_ne_unfinished (hr : r.Narrowing) (op : ReadOperation S) :
    (op.run r sink).ending ≠ .unfinished :=
  ending_runFor_ne_unfinished hr _ (Nat.lt_succ_self _)

/-- A run that ends by exhaustion has handed over as many elements as it says, and its last read
gave nothing. -/
theorem of_ending_runFor_exhausted {n : Nat} (reads : Nat) :
    ∀ {delivered : Nat} {op : ReadOperation S},
      (runFor r sink reads delivered op).ending = .exhausted n →
        delivered + (runFor r sink reads delivered op).handed.length = n ∧
          ∃ s, r.tryNext s =
            (.value none, (runFor r sink reads delivered op).operation.reader) := by
  induction reads with
  | zero =>
      intro delivered op h
      cases h
  | succ reads ih =>
      intro delivered op
      unfold runFor
      rcases htake : op.take r with ⟨(_ | a) | e | text, op'⟩
      · rintro ⟨rfl⟩
        have hlast := of_take_none htake
        exact ⟨rfl, op.reader, hlast⟩
      · simp only
        rcases sink delivered a with ⟨requests, verdict⟩
        cases verdict with
        | accept =>
            intro h
            obtain ⟨hlength, hlast⟩ := ih h
            refine ⟨?_, hlast⟩
            simp only [List.length_cons] at hlength ⊢
            omega
        | refuse e => rintro ⟨⟩
        | crash text => rintro ⟨⟩
      · rintro ⟨⟩
      · rintro ⟨⟩

end ReadOperation

end SplitReader
