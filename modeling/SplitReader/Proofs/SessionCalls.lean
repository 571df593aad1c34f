import SplitReader.Source.Session

/-! # What an operation does to a session

A call of a reader depends on the files, on that reader and on the state of the decoder, and on
nothing else in the session. What it answers, what it tells observers and what it leaves behind is
therefore said of these alone (`Call.effect`), and the session puts the reader and the decoder back
where they were taken from (`performCall_eq`). With opening and registering, which only append, this
is all that can happen to the readers while the files stay as they are (`perform_cases`).

A call reads and splits, and does nothing else to its reader, so what reads and splits keep is kept
by every call (`Call.effect_of_step`) and, if fresh readers have it, by every session
(`readers_performAll`).
-/

set_option autoImplicit false

namespace SplitReader

def Outcome.value? {ε α : Type} : Outcome ε α → Option α
  | value a => some a
  | _ => none

variable {σ α : Type}

/-! ## Pulls -/

theorem BoundedReader.pull_of_fresh {S : Type} (r : BoundedReader S α) (s : S) :
    r.pull { state := s } =
      match r.tryNext s with
      | (.value (some d), s) => (.item (.ok d), { state := s })
      | (.value none, s) => (.ended, { state := s, isDone := true })
      | (.failed e, s) => (.item (.error e), { state := s, isDone := true })
      | (.crashed text, s) => (.crashed text, { state := s }) := by
  unfold pull
  rcases r.tryNext s with ⟨(_ | d) | e | text, s'⟩ <;> rfl

theorem BoundedReader.pullMany_of_isDone {S : Type} (r : BoundedReader S α) {p : Pull S}
    (hdone : p.isDone = true) (count : Nat) :
    r.pullMany count p = ⟨[], decide (0 < count), none, p⟩ := by
  cases count with
  | zero => rfl
  | succ count =>
      unfold pullMany pull
      rw [if_pos hdone]
      rfl

theorem BoundedReader.state_pull {S : Type} {r : BoundedReader S α} {P : S → Prop}
    (hread : ∀ s, P s → P (r.tryNext s).2) (p : Pull S) (hp : P p.state) :
    P (r.pull p).2.state := by
  unfold pull
  by_cases hdone : p.isDone = true
  · rw [if_pos hdone]
    exact hp
  · rw [if_neg hdone]
    have hstate := hread p.state hp
    rcases hnext : r.tryNext p.state with ⟨(_ | d) | e | text, s⟩ <;>
    · rw [hnext] at hstate
      exact hstate

/-- Pulling does nothing but read. -/
theorem BoundedReader.state_pullMany {S : Type} {r : BoundedReader S α} {P : S → Prop}
    (hread : ∀ s, P s → P (r.tryNext s).2) (count : Nat) :
    ∀ p : Pull S, P p.state → P (r.pullMany count p).pull.state := by
  induction count with
  | zero => exact fun p hp => hp
  | succ count ih =>
      intro p hp
      have hstate := state_pull hread p hp
      unfold pullMany
      rcases hnext : r.pull p with ⟨x | _ | text, q⟩ <;> rw [hnext] at hstate
      · exact ih q hstate
      · exact hstate
      · exact hstate

namespace Session

/-! ## Calls -/

/-- What comes of a call: its answer, and the reader and the state of the decoder afterwards. -/
structure Effect (σ α : Type) where
  reply : Reply α
  /-- The lengths of the records that observers are told of. -/
  told : List Nat
  range : RangeReader
  codec : σ

/-- What comes of a call, by the files, the reader and the state of the decoder. -/
def Call.effect (files : Files) (decoder : Decoder σ α) (range : RangeReader) (codec : σ) :
    Call → Effect σ α
  | .hasNext => { reply := .hasNext range.tracker.hasNext, told := [], range, codec }
  | .next =>
      let (outcome, used) := (RangeReader.bounded files decoder).next (range, codec)
      { reply := .next (outcome.map Delivered.element)
        told := outcome.value?.toList.map Delivered.byteLength
        range := used.1
        codec := used.2 }
  | .tryNext =>
      let (outcome, used) := (RangeReader.bounded files decoder).tryNext (range, codec)
      { reply := .tryNext (outcome.map (Option.map Delivered.element))
        told := outcome.value?.join.toList.map Delivered.byteLength
        range := used.1
        codec := used.2 }
  | .progress => { reply := .progress range.tracker.progress, told := [], range, codec }
  | .trySplit proposed =>
      match range.trySplit proposed with
      | .ok (position, range) => { reply := .trySplit (.ok position), told := [], range, codec }
      | .error reason => { reply := .trySplit (.error reason), told := [], range, codec }
  | .split proposed =>
      match range.trySplit proposed with
      | .ok (position, range) => { reply := .split (some position), told := [], range, codec }
      | .error _ => { reply := .split none, told := [], range, codec }
  | .elements limit =>
      let run := (RangeReader.bounded files decoder).elements limit (range, codec)
      { reply :=
          match run.crash with
          | some text => .elementsCrashed text
          | none => .elements (run.items.map fun x => x.map Delivered.element) run.hasEnded
        told := run.items.filterMap fun x => x.toOption.map Delivered.byteLength
        range := run.pull.state.1
        codec := run.pull.state.2 }

/-- The session behind a call of a reader with a number. -/
def behind (number : Nat) (r : OpenReader) (e : Effect σ α) (s : Session σ) : Session σ :=
  { s with
    readers := s.readers.set number { r with range := e.range }
    codec := e.codec
    observers := (s.notify r e.told).observers }

theorem observers_notify_nil (s : Session σ) (r : OpenReader) :
    (s.notify r []).observers = s.observers := by
  simp only [notify, List.splitAt_eq, List.foldl_nil, List.take_append_drop]

theorem behind_of_told {number : Nat} {r : OpenReader} {e : Effect σ α} {s : Session σ}
    (h : e.told = []) : s.behind number r e = s.putBack number r (e.range, e.codec) := by
  simp only [behind, putBack, h, observers_notify_nil]

theorem putBack_self {number : Nat} {r : OpenReader} {s : Session σ}
    (h : s.readers[number]? = some r) : s.putBack number r (r.range, s.codec) = s := by
  obtain ⟨hlt, hget⟩ := List.getElem?_eq_some_iff.mp h
  have hset : s.readers.set number r = s.readers := by
    rw [← hget, List.set_getElem_self]
  simp only [putBack, hset]

/-- **A call is asked of its reader alone**, and its effect is put back into the session. -/
theorem performCall_eq {number : Nat} {r : OpenReader} {s : Session σ} (decoder : Decoder σ α)
    (h : s.readers[number]? = some r) (call : Call) :
    s.performCall decoder number r call =
      ((call.effect s.files decoder r.range s.codec).reply,
        s.behind number r (call.effect s.files decoder r.range s.codec)) := by
  -- A call that leaves its reader as it is leaves the session as it is.
  have hsame : ∀ reply : Reply α, (reply, s) =
      (reply, s.behind number r { reply, told := [], range := r.range, codec := s.codec }) := by
    intro reply
    rw [behind_of_told rfl, putBack_self h]
  have hsilent : ∀ (reply : Reply α) (used : RangeReader × σ), (reply, s.putBack number r used) =
      (reply, s.behind number r { reply, told := [], range := used.1, codec := used.2 }) := by
    intro reply used
    rw [behind_of_told rfl]
  cases call with
  | hasNext => exact hsame _
  | progress => exact hsame _
  | next =>
      unfold performCall Call.effect
      rcases (RangeReader.bounded s.files decoder).next (r.range, s.codec) with
        ⟨d | e | text, used⟩
      · rfl
      · exact hsilent _ used
      · exact hsilent _ used
  | tryNext =>
      unfold performCall Call.effect
      rcases (RangeReader.bounded s.files decoder).tryNext (r.range, s.codec) with
        ⟨(_ | d) | e | text, used⟩
      · exact hsilent _ used
      · rfl
      · exact hsilent _ used
      · exact hsilent _ used
  | trySplit proposed =>
      simp only [performCall, Call.effect, RangeReader.bounded]
      cases r.range.trySplit proposed with
      | ok accepted => exact hsilent _ (accepted.2, s.codec)
      | error reason => exact hsame _
  | split proposed =>
      simp only [performCall, Call.effect, BoundedReader.split, RangeReader.bounded]
      cases r.range.trySplit proposed with
      | ok accepted => exact hsilent _ (accepted.2, s.codec)
      | error reason => exact hsilent _ (r.range, s.codec)
  | elements limit =>
      unfold performCall Call.effect
      cases hcrash :
          ((RangeReader.bounded s.files decoder).elements limit (r.range, s.codec)).crash with
      | none =>
          simp only [hcrash]
          rfl
      | some text =>
          simp only [hcrash]
          rfl

/-- The call may read records. -/
def Call.isRead : Call → Bool
  | .next | .tryNext | .elements _ => true
  | .hasNext | .progress | .trySplit _ | .split _ => false

/-- **What splits keep, and reads where there are any, is kept by every call.** -/
theorem Call.effect_of_step {files : Files} {decoder : Decoder σ α} {P : RangeReader → Prop}
    {call : Call}
    (hread : call.isRead = true → ∀ r c, P r → P (RangeReader.tryNext files decoder (r, c)).2.1)
    (hsplit : ∀ r proposed position r', P r → r.trySplit proposed = .ok (position, r') → P r')
    {range : RangeReader} (codec : σ) (h : P range) :
    P (call.effect files decoder range codec).range := by
  cases call with
  | hasNext => exact h
  | progress => exact h
  | next =>
      have hstate := hread rfl range codec h
      simp only [effect, BoundedReader.next, RangeReader.bounded]
      rcases hnext : RangeReader.tryNext files decoder (range, codec) with
        ⟨(_ | d) | e | text, used⟩ <;>
      · rw [hnext] at hstate
        exact hstate
  | tryNext => exact hread rfl range codec h
  | trySplit proposed =>
      simp only [effect]
      cases hjudged : range.trySplit proposed with
      | ok accepted => exact hsplit range proposed _ _ h hjudged
      | error reason => exact h
  | split proposed =>
      simp only [effect]
      cases hjudged : range.trySplit proposed with
      | ok accepted => exact hsplit range proposed _ _ h hjudged
      | error reason => exact h
  | elements limit =>
      exact BoundedReader.state_pullMany (P := fun s : RangeReader × σ => P s.1)
        (fun s hs => hread rfl s.1 s.2 hs) _ _ h

/-! ## Operations -/

/-- The operation leaves the files as they are. -/
def Action.keepsFiles : Action → Bool
  | .replaceFile _ | .rewriteFile _ => false
  | _ => true

/-- What an operation that leaves the files as they are can do to a session. -/
inductive Performs (decoder : Decoder σ α) (s : Session σ) :
    Action → Reply α → Session σ → Prop where
  | opened {range : RangeReader} (h : s.source.reader s.files = .ok range) :
      Performs decoder s .openReader (.opened (.ok s.readers.length))
        { s with readers := s.readers ++ [⟨range, s.observers.length⟩] }
  | refused {e : SourceError} (h : s.source.reader s.files = .error e) :
      Performs decoder s .openReader (.opened (.error e)) s
  | registered :
      Performs decoder s .register (.registered s.observers.length)
        { s with observers := s.observers ++ [{}] }
  | called {number : Nat} {r : OpenReader} (call : Call) (h : s.readers[number]? = some r) :
      Performs decoder s (.call number call) (call.effect s.files decoder r.range s.codec).reply
        (s.behind number r (call.effect s.files decoder r.range s.codec))
  | missed {number : Nat} (call : Call) (h : s.readers[number]? = none) :
      Performs decoder s (.call number call) .noReader s

/-- **All that an operation can do** while the files stay as they are. -/
theorem perform_cases (decoder : Decoder σ α) (s : Session σ) {action : Action}
    (hkeeps : action.keepsFiles = true) :
    Performs decoder s action (s.perform decoder action).1 (s.perform decoder action).2 := by
  cases action with
  | openReader =>
      unfold perform
      cases hopen : s.source.reader s.files with
      | ok range => exact .opened hopen
      | error e => exact .refused hopen
  | register => exact .registered
  | replaceFile node => cases hkeeps
  | rewriteFile node => cases hkeeps
  | call number call =>
      unfold perform
      cases hreader : s.readers[number]? with
      | none =>
          simp only [hreader]
          exact .missed call hreader
      | some r =>
          simp only [hreader, performCall_eq decoder hreader]
          exact .called call hreader

theorem perform_of_not_keepsFiles (decoder : Decoder σ α) (s : Session σ) {action : Action}
    (hchanges : action.keepsFiles = false) :
    ∃ files, s.perform decoder action = (.done, { s with files }) := by
  cases action with
  | replaceFile node =>
      cases node with
      | none => exact ⟨_, rfl⟩
      | some node => exact ⟨_, rfl⟩
  | rewriteFile node => exact ⟨_, rfl⟩
  | openReader => cases hchanges
  | register => cases hchanges
  | call number call => cases hchanges

theorem Performs.source_eq {decoder : Decoder σ α} {s s' : Session σ} {action : Action}
    {reply : Reply α} (h : Performs decoder s action reply s') :
    s'.source = s.source ∧ s'.files = s.files := by
  cases h <;> exact ⟨rfl, rfl⟩

theorem performAll_cons (decoder : Decoder σ α) (s : Session σ) (action : Action)
    (actions : List Action) :
    s.performAll decoder (action :: actions) =
      ((s.perform decoder action).1 :: ((s.perform decoder action).2.performAll decoder actions).1,
        ((s.perform decoder action).2.performAll decoder actions).2) := rfl

theorem performAll_of_step {decoder : Decoder σ α} {P : Session σ → Prop}
    (hstep : ∀ s action, P s → P (s.perform decoder action).2) (actions : List Action) :
    ∀ {s : Session σ}, P s → P (s.performAll decoder actions).2 := by
  induction actions with
  | nil => exact fun hs => hs
  | cons action actions ih => exact fun hs => ih (hstep _ action hs)

theorem source_performAll (decoder : Decoder σ α) {actions : List Action}
    (hkeeps : ∀ action ∈ actions, action.keepsFiles = true) :
    ∀ s : Session σ, (s.performAll decoder actions).2.source = s.source ∧
      (s.performAll decoder actions).2.files = s.files := by
  induction actions with
  | nil => exact fun s => ⟨rfl, rfl⟩
  | cons action actions ih =>
      intro s
      obtain ⟨hkeep, hkeeps⟩ := List.forall_mem_cons.mp hkeeps
      obtain ⟨hsource, hfiles⟩ := (perform_cases decoder s hkeep).source_eq
      obtain ⟨hsource', hfiles'⟩ := ih hkeeps (s.perform decoder action).2
      exact ⟨hsource'.trans hsource, hfiles'.trans hfiles⟩

/-! ## Readers -/

/-- **What fresh readers have and calls keep, all readers have.** -/
theorem readers_performAll {decoder : Decoder σ α} {files : Files} {source : Source}
    {P : RangeReader → Prop} (hfresh : ∀ r, source.reader files = .ok r → P r)
    (hcall : ∀ (call : Call) r c, P r → P (call.effect files decoder r c).range)
    {actions : List Action} (hkeeps : ∀ action ∈ actions, action.keepsFiles = true) :
    ∀ {s : Session σ}, s.source = source → s.files = files → (∀ r ∈ s.readers, P r.range) →
      ∀ r ∈ (s.performAll decoder actions).2.readers, P r.range := by
  have hstep : ∀ {s s' : Session σ} {action : Action} {reply : Reply α},
      Performs decoder s action reply s' → s.source = source → s.files = files →
        (∀ r ∈ s.readers, P r.range) → ∀ r ∈ s'.readers, P r.range := by
    intro s s' action reply hperforms hsource hfiles hall r hr
    -- A reader behind the operation was there before, or is fresh, or was called.
    cases hperforms with
    | opened hopen =>
        rcases List.mem_append.mp hr with hold | hnew
        · exact hall r hold
        · rw [List.mem_singleton] at hnew
          subst hnew
          exact hfresh _ (by rw [← hsource, ← hfiles]; exact hopen)
    | refused hopen => exact hall r hr
    | registered => exact hall r hr
    | called call hreader =>
        rcases List.mem_or_eq_of_mem_set hr with hold | rfl
        · exact hall r hold
        · rw [hfiles]
          exact hcall call _ _ (hall _ (List.mem_of_getElem? hreader))
    | missed call hreader => exact hall r hr
  induction actions with
  | nil =>
      intro s hsource hfiles hall
      exact hall
  | cons action actions ih =>
      intro s hsource hfiles hall
      obtain ⟨hkeep, hkeeps⟩ := List.forall_mem_cons.mp hkeeps
      have hperforms := perform_cases decoder s hkeep
      obtain ⟨hsource', hfiles'⟩ := hperforms.source_eq
      exact ih hkeeps (hsource'.trans hsource) (hfiles'.trans hfiles)
        (hstep hperforms hsource hfiles hall)

def Action.callOf (number : Nat) (action : Action) : Option Call :=
  match action with
  | .call reader asked => if reader = number then some asked else none
  | _ => none

/-- **One reader**: an operation leaves it as it is, or is a call of it. -/
theorem Performs.reader {decoder : Decoder σ α} {s s' : Session σ} {action : Action}
    {reply : Reply α} (h : Performs decoder s action reply s') {number : Nat} {r : OpenReader}
    (hreader : s.readers[number]? = some r) :
    (action.callOf number = none ∧ s'.readers[number]? = some r) ∨
      ∃ call, action = .call number call ∧
        reply = (call.effect s.files decoder r.range s.codec).reply ∧
        s'.readers[number]? =
          some { r with range := (call.effect s.files decoder r.range s.codec).range } := by
  obtain ⟨hlt, -⟩ := List.getElem?_eq_some_iff.mp hreader
  cases h with
  | opened hopen =>
      left
      refine ⟨rfl, ?_⟩
      rw [List.getElem?_append_left hlt]
      exact hreader
  | refused hopen => exact Or.inl ⟨rfl, hreader⟩
  | registered => exact Or.inl ⟨rfl, hreader⟩
  | @called n q call hcalled =>
      by_cases hn : n = number
      · right
        subst hn
        rw [hreader] at hcalled
        cases hcalled
        exact ⟨call, rfl, rfl, List.getElem?_set_self hlt⟩
      · left
        refine ⟨if_neg hn, ?_⟩
        show (s.readers.set n _)[number]? = some r
        rw [List.getElem?_set_ne hn]
        exact hreader
  | @missed n call hmissed =>
      left
      refine ⟨if_neg ?_, hreader⟩
      rintro rfl
      rw [hreader] at hmissed
      cases hmissed

/-- **One reader, and any operation**: files that change leave it as it is, too. -/
theorem reader_perform (decoder : Decoder σ α) {s : Session σ} (action : Action) {number : Nat}
    {r : OpenReader} (hreader : s.readers[number]? = some r) :
    (action.callOf number = none ∧
        (s.perform decoder action).2.readers[number]? = some r) ∨
      ∃ call, action = .call number call ∧
        (s.perform decoder action).2.readers[number]? =
          some { r with range := (call.effect s.files decoder r.range s.codec).range } := by
  by_cases hkeeps : action.keepsFiles = true
  · rcases (perform_cases decoder s hkeeps).reader hreader with hsame | ⟨call, hcall, -, hafter⟩
    · exact Or.inl hsame
    · exact Or.inr ⟨call, hcall, hafter⟩
  · left
    obtain ⟨files, hperform⟩ := perform_of_not_keepsFiles decoder s (Bool.eq_false_iff.mpr hkeeps)
    rw [hperform]
    cases action with
    | call reader asked => exact absurd rfl hkeeps
    | _ => exact ⟨rfl, hreader⟩

theorem perform_call (decoder : Decoder σ α) {s : Session σ} {number : Nat} {r : OpenReader}
    (h : s.readers[number]? = some r) (call : Call) :
    (s.perform decoder (.call number call)).1 =
        (call.effect s.files decoder r.range s.codec).reply ∧
      (s.perform decoder (.call number call)).2.readers[number]? =
        some { r with range := (call.effect s.files decoder r.range s.codec).range } := by
  have hkeeps : (Action.call number call).keepsFiles = true := rfl
  rcases (perform_cases decoder s hkeeps).reader h with ⟨hnone, -⟩ | ⟨asked, hasked, heffect⟩
  · have hcall : Action.callOf number (.call number call) = some call := if_pos rfl
    rw [hcall] at hnone
    cases hnone
  · cases hasked
    exact heffect

/-- **What calls of one reader keep, that reader keeps**, whatever happens to the others. -/
theorem reader_performAll {decoder : Decoder σ α} {number : Nat} {P : RangeReader → Prop}
    {Q : Call → Prop}
    (hcall : ∀ (files : Files) (call : Call) (r : RangeReader) (c : σ), Q call → P r →
      P (call.effect files decoder r c).range) {actions : List Action}
    (hkeeps : ∀ action ∈ actions, action.keepsFiles = true)
    (hcalls : ∀ action ∈ actions, ∀ call, action.callOf number = some call → Q call) :
    ∀ {s : Session σ} {r : OpenReader}, s.readers[number]? = some r → P r.range →
      ∃ r', (s.performAll decoder actions).2.readers[number]? = some r' ∧ P r'.range := by
  induction actions with
  | nil =>
      intro s r hreader hr
      exact ⟨r, hreader, hr⟩
  | cons action actions ih =>
      intro s r hreader hr
      obtain ⟨hkeep, hkeeps'⟩ := List.forall_mem_cons.mp hkeeps
      obtain ⟨hcallee, hcalls'⟩ := List.forall_mem_cons.mp hcalls
      rcases (perform_cases decoder s hkeep).reader hreader with
        ⟨-, hsame⟩ | ⟨call, rfl, -, hcalled⟩
      · exact ih hkeeps' hcalls' hsame hr
      · have hasked : Q call := hcallee call (if_pos rfl)
        exact ih hkeeps' hcalls' hcalled (hcall _ call _ _ hasked hr)

end Session

end SplitReader
