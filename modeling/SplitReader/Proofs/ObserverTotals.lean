import SplitReader.Proofs.Independence
import SplitReader.Proofs.LineRetry
import SplitReader.Proofs.MemoryReader

/-! # What observers have counted

A reader tells the observers that were registered before it was opened of every record that it has
read, once each, and of nothing else. What it has read is seen on two sides. The decoder was given
the record and made an element of it, which a log of the decoder shows (`deliveries`); and the
element is in the answer to the call. Both sides agree, and the totals of an observer are those of
the records that were read from readers that were opened behind it (`totals_of_registered`).
-/

set_option autoImplicit false

namespace SplitReader

variable {σ α : Type}

/-! ## Elements of a log -/

namespace Decoding

/-- The element that a decoding gave, with the number of bytes that the decoder was given. -/
def delivered? (d : Decoding α) : Option (Delivered α) :=
  d.outcome.value?.map fun a => ⟨a, d.bytes.length⟩

def deliveries (log : List (Decoding α)) : List (Delivered α) := log.filterMap delivered?

theorem deliveries_concat (log : List (Decoding α)) (bytes : List UInt8)
    (outcome : Outcome CodecError α) :
    deliveries (log ++ [⟨bytes, outcome⟩]) =
      deliveries log ++ (outcome.value?.map fun a => ⟨a, bytes.length⟩).toList := by
  rw [deliveries, List.filterMap_append]
  cases h : outcome.value? <;> simp [deliveries, delivered?, h]

end Decoding

open Decoding

/-- **A read has put into the log of its decoder what it gives**, and nothing else that gave an
element. -/
theorem RangeReader.deliveries_tryNext {files : Files} {decoder : Decoder σ α}
    {s s' : RangeReader × σ × List (Decoding α)}
    {outcome : Outcome SourceError (Option (Delivered α))}
    (h : tryNext files decoder.logged s = (outcome, s')) :
    deliveries s'.2.2 = deliveries s.2.2 ++ outcome.value?.join.toList := by
  cases reads_of_eq h with
  | exhausted => exact (List.append_nil _).symm
  | unsupplied => exact (List.append_nil _).symm
  | lost => exact (List.append_nil _).symm
  | @undecoded bytes _ e _ _ hlt hfetch hdecode =>
      rw [Decoder.log_of_decode hdecode]
      exact deliveries_concat s.2.2 bytes (.failed e)
  | @broken bytes _ text _ _ hlt hfetch hdecode =>
      rw [Decoder.log_of_decode hdecode]
      exact deliveries_concat s.2.2 bytes (.crashed text)
  | @decoded bytes _ a _ _ hlt hfetch hdecode =>
      rw [Decoder.log_of_decode hdecode]
      exact deliveries_concat s.2.2 bytes (.value a)

theorem RangeReader.deliveries_pullMany (files : Files) (decoder : Decoder σ α) (count : Nat) :
    ∀ p : BoundedReader.Pull (RangeReader × σ × List (Decoding α)),
      deliveries ((bounded files decoder.logged).pullMany count p).pull.state.2.2 =
        deliveries p.state.2.2 ++
          ((bounded files decoder.logged).pullMany count p).items.filterMap Except.toOption := by
  induction count with
  | zero => exact fun p => (List.append_nil _).symm
  | succ count ih =>
      intro p
      unfold BoundedReader.pullMany BoundedReader.pull
      by_cases hdone : p.isDone = true
      · rw [if_pos hdone]
        exact (List.append_nil _).symm
      · rw [if_neg hdone]
        rcases hread : (bounded files decoder.logged).tryNext p.state with
          ⟨(_ | d) | e | text, s⟩
        · exact deliveries_tryNext hread
        · have hone : deliveries s.2.2 = deliveries p.state.2.2 ++ [d] := deliveries_tryNext hread
          simp only
          rw [ih, hone, List.append_assoc]
          rfl
        · have hnone : deliveries s.2.2 = deliveries p.state.2.2 ++ [] := deliveries_tryNext hread
          simp only
          rw [ih, hnone, List.append_nil]
          rfl
        · exact deliveries_tryNext hread

/-! ## The log makes no difference -/

theorem RangeReader.pullMany_logged (files : Files) (decoder : Decoder σ α) (count : Nat) :
    ∀ p : BoundedReader.Pull (RangeReader × σ × List (Decoding α)),
      (bounded files decoder).pullMany count ⟨(p.state.1, p.state.2.1), p.isDone⟩ =
        let run := (bounded files decoder.logged).pullMany count p
        ⟨run.items, run.hasEnded, run.crash,
          ⟨(run.pull.state.1, run.pull.state.2.1), run.pull.isDone⟩⟩ := by
  induction count with
  | zero => exact fun p => rfl
  | succ count ih =>
      intro p
      have hplain : (bounded files decoder).tryNext (p.state.1, p.state.2.1) =
          let read := (bounded files decoder.logged).tryNext p.state
          (read.1, read.2.1, read.2.2.1) := tryNext_logged files decoder p.state.1 p.state.2
      unfold BoundedReader.pullMany BoundedReader.pull
      by_cases hdone : p.isDone = true
      · rw [if_pos hdone, if_pos hdone]
      · rw [if_neg hdone, if_neg hdone, hplain]
        rcases (bounded files decoder.logged).tryNext p.state with ⟨(_ | d) | e | text, s⟩
        · rfl
        · simp only [ih { p with state := s }]
        · simp only [ih { state := s, isDone := true }]
        · rfl

namespace Session

def Effect.withoutLog (e : Effect (σ × List (Decoding α)) α) : Effect σ α :=
  ⟨e.reply, e.told, e.range, e.codec.1⟩

theorem Call.effect_logged (files : Files) (decoder : Decoder σ α) (range : RangeReader)
    (c : σ × List (Decoding α)) (call : Call) :
    call.effect files decoder range c.1 =
      (call.effect files decoder.logged range c).withoutLog := by
  have hplain := RangeReader.tryNext_logged files decoder range c
  cases call with
  | hasNext => rfl
  | progress => rfl
  | next =>
      simp only [effect, BoundedReader.next, RangeReader.bounded, hplain]
      rcases RangeReader.tryNext files decoder.logged (range, c) with
        ⟨(_ | d) | why | text, s⟩ <;> rfl
  | tryNext =>
      simp only [effect, RangeReader.bounded, hplain]
      rfl
  | trySplit proposed =>
      simp only [effect]
      cases range.trySplit proposed <;> rfl
  | split proposed =>
      simp only [effect]
      cases range.trySplit proposed <;> rfl
  | elements limit =>
      have hpulls : (RangeReader.bounded files decoder).elements limit (range, c.1) = _ :=
        RangeReader.pullMany_logged files decoder _ { state := (range, c) }
      simp only [effect]
      rw [hpulls]
      rfl

/-! ## Elements of calls -/

/-- The elements that an answer gives. -/
def Reply.given : Reply α → List α
  | .next (.value a) => [a]
  | .tryNext (.value (some a)) => [a]
  | .elements items _ => items.filterMap Except.toOption
  | _ => []

/-- A pull has crashed, so the answer does not show what was pulled before. -/
def Reply.hides : Reply α → Bool
  | .elementsCrashed _ => true
  | _ => false

/-- What a call tells observers of, and what it answers, is what its decoder made. -/
theorem Call.effect_deliveries (files : Files) (decoder : Decoder σ α) (range : RangeReader) (c : σ)
    (call : Call) :
    let e := call.effect files decoder.logged range (c, [])
    e.told = (deliveries e.codec.2).map Delivered.byteLength ∧
      (e.reply.hides = false → e.reply.given = (deliveries e.codec.2).map Delivered.element) := by
  intro e
  cases call with
  | hasNext => exact ⟨rfl, fun _ => rfl⟩
  | progress => exact ⟨rfl, fun _ => rfl⟩
  | next =>
      rcases hread : RangeReader.tryNext files decoder.logged (range, c, []) with
        ⟨(_ | d) | why | text, s⟩ <;>
      · have hlog := RangeReader.deliveries_tryNext hread
        simp only [e, effect, BoundedReader.next, RangeReader.bounded, hread, hlog]
        exact ⟨rfl, fun _ => rfl⟩
  | tryNext =>
      rcases hread : RangeReader.tryNext files decoder.logged (range, c, []) with
        ⟨(_ | d) | why | text, s⟩ <;>
      · have hlog := RangeReader.deliveries_tryNext hread
        simp only [e, effect, RangeReader.bounded, hread, hlog]
        exact ⟨rfl, fun _ => rfl⟩
  | trySplit proposed =>
      simp only [e, effect]
      cases range.trySplit proposed <;> exact ⟨rfl, fun _ => rfl⟩
  | split proposed =>
      simp only [e, effect]
      cases range.trySplit proposed <;> exact ⟨rfl, fun _ => rfl⟩
  | elements limit =>
      have hlog : deliveries ((RangeReader.bounded files decoder.logged).elements limit
          (range, c, [])).pull.state.2.2 =
          ((RangeReader.bounded files decoder.logged).elements limit
            (range, c, [])).items.filterMap Except.toOption :=
        RangeReader.deliveries_pullMany files decoder _ _
      simp only [e, effect, hlog, List.map_filterMap]
      refine ⟨trivial, ?_⟩
      -- Only a pull without a crash answers with its items.
      generalize (RangeReader.bounded files decoder.logged).elements limit (range, c, []) = run
      cases run.crash with
      | some text => rintro ⟨⟩
      | none =>
          intro _
          rw [Reply.given, List.filterMap_map]
          congr 1
          funext x
          cases x <;> rfl

/-! ## Elements of operations -/

/-- An element that was read, and from which reader. -/
structure Taking (α : Type) where
  reader : Nat
  delivered : Delivered α
  deriving DecidableEq, Repr

/-- The session with a log that its decoder keeps from now on. -/
def logging (s : Session σ) : Session (σ × List (Decoding α)) :=
  ⟨s.source, s.files, (s.codec, []), s.observers, s.readers⟩

/-- What an operation reads, by the log of the decoder. -/
def takings (decoder : Decoder σ α) (s : Session σ) : Action → List (Taking α)
  | .call number call =>
      let s := (s.logging.perform decoder.logged (.call number call)).2
      (deliveries s.codec.2).map (Taking.mk number)
  | _ => []

def allTakings (decoder : Decoder σ α) (s : Session σ) : List Action → List (Taking α)
  | [] => []
  | action :: actions =>
      s.takings decoder action ++ (s.perform decoder action).2.allTakings decoder actions

theorem takings_call (decoder : Decoder σ α) {s : Session σ} {number : Nat} {r : OpenReader}
    (h : s.readers[number]? = some r) (call : Call) :
    s.takings decoder (.call number call) =
      (deliveries (call.effect s.files decoder.logged r.range (s.codec, [])).codec.2).map
        (Taking.mk number) := by
  have hlogging : (s.logging (α := α)).readers[number]? = some r := h
  simp only [takings, perform, hlogging, performCall_eq decoder.logged hlogging]
  rfl

theorem takings_missed (decoder : Decoder σ α) {s : Session σ} {number : Nat}
    (h : s.readers[number]? = none) (call : Call) :
    s.takings decoder (.call number call) = [] := by
  have hlogging : (s.logging (α := α)).readers[number]? = none := h
  simp only [takings, perform, hlogging]
  rfl

theorem takings_of_not_keepsFiles (decoder : Decoder σ α) (s : Session σ) {action : Action}
    (h : action.keepsFiles = false) : s.takings decoder action = [] := by
  cases action with
  | replaceFile node => rfl
  | rewriteFile node => rfl
  | _ => cases h

/-! ## Observers -/

theorem foldl_notify (told : List Nat) :
    ∀ os : Observers, told.foldl (fun os n => Observers.notify n os) os =
      os.map fun c => told.foldl (fun c n => c.countRecord n) c := by
  induction told with
  | nil => exact fun os => (List.map_id' os).symm
  | cons n told ih =>
      intro os
      rw [List.foldl_cons, ih, Observers.notify, List.map_map]
      rfl

theorem length_notify (s : Session σ) (r : OpenReader) (told : List Nat) :
    (s.notify r told).observers.length = s.observers.length := by
  simp only [notify, List.splitAt_eq, foldl_notify, List.length_append, List.length_map,
    List.length_take, List.length_drop]
  omega

/-- A reader tells the observers that were there when it was opened, and no others. -/
theorem getElem?_notify (s : Session σ) (r : OpenReader) (told : List Nat) {k : Nat}
    {c : ReadCounters} (h : s.observers[k]? = some c) :
    (s.notify r told).observers[k]? =
      some (if k < r.observers then told.foldl (fun c n => c.countRecord n) c else c) := by
  have hlt : k < s.observers.length := (List.getElem?_eq_some_iff.mp h).1
  simp only [notify, List.splitAt_eq, foldl_notify]
  rw [List.getElem?_append, List.length_map, List.length_take]
  by_cases hk : k < r.observers
  · rw [if_pos (by omega), if_pos hk, List.getElem?_map, List.getElem?_take_of_lt hk, h]
    rfl
  · rw [if_neg (by omega), if_neg hk, List.getElem?_drop, ← h]
    congr 1
    omega

/-- What becomes of the readers and the observers of a session: there are more of them, and a reader
tells those that were there when it was opened. -/
structure Grows (s s' : Session σ) : Prop where
  readers_le : s.readers.length ≤ s'.readers.length
  observers_le : s.observers.length ≤ s'.observers.length
  reader : ∀ {number : Nat} {r' : OpenReader}, s'.readers[number]? = some r' →
    (∃ r, s.readers[number]? = some r ∧ r'.observers = r.observers) ∨
      (number = s.readers.length ∧ r'.observers = s.observers.length)

variable {decoder : Decoder σ α} {s s' : Session σ}

theorem Grows.of_readers_eq (hreaders : s'.readers = s.readers)
    (hobservers : s.observers.length ≤ s'.observers.length) : s.Grows s' where
  readers_le := Nat.le_of_eq (congrArg List.length hreaders.symm)
  observers_le := hobservers
  reader := by
    intro number r' hr'
    rw [hreaders] at hr'
    exact Or.inl ⟨r', hr', rfl⟩

theorem grows_opened (s : Session σ) (range : RangeReader) :
    s.Grows { s with readers := s.readers ++ [⟨range, s.observers.length⟩] } where
  readers_le := by
    rw [List.length_append]
    exact Nat.le_add_right _ _
  observers_le := Nat.le_refl _
  reader := by
    intro number r' hr'
    rcases Nat.lt_trichotomy number s.readers.length with hlt | rfl | hgt
    · rw [List.getElem?_append_left hlt] at hr'
      exact Or.inl ⟨r', hr', rfl⟩
    · rw [List.getElem?_concat_length] at hr'
      cases hr'
      exact Or.inr ⟨rfl, rfl⟩
    · rw [List.getElem?_eq_none (by simp; omega)] at hr'
      cases hr'

theorem grows_behind {number : Nat} {r : OpenReader} (hr : s.readers[number]? = some r)
    (e : Effect σ α) : s.Grows (s.behind number r e) where
  readers_le := Nat.le_of_eq List.length_set.symm
  observers_le := Nat.le_of_eq (length_notify s r e.told).symm
  reader := by
    intro n r' hr'
    change (s.readers.set number { r with range := e.range })[n]? = some r' at hr'
    by_cases hn : number = n
    · subst hn
      rw [List.getElem?_set_self (List.getElem?_eq_some_iff.mp hr).1] at hr'
      cases hr'
      exact Or.inl ⟨r, hr, rfl⟩
    · rw [List.getElem?_set_ne hn] at hr'
      exact Or.inl ⟨r', hr', rfl⟩

theorem grows_perform (decoder : Decoder σ α) (s : Session σ) (action : Action) :
    s.Grows (s.perform decoder action).2 := by
  cases hkeeps : action.keepsFiles with
  | false =>
      obtain ⟨files, hfiles⟩ := perform_of_not_keepsFiles decoder s hkeeps
      rw [hfiles]
      exact .of_readers_eq rfl (Nat.le_refl _)
  | true =>
      have hperforms := perform_cases decoder s hkeeps
      generalize s.perform decoder action = performed at hperforms ⊢
      obtain ⟨reply, s'⟩ := performed
      cases hperforms with
      | opened hopen => exact grows_opened s _
      | refused hopen => exact .of_readers_eq rfl (Nat.le_refl _)
      | registered =>
          refine .of_readers_eq rfl ?_
          rw [List.length_append]
          exact Nat.le_add_right _ _
      | called call hreader => exact grows_behind hreader _
      | missed call hreader => exact .of_readers_eq rfl (Nat.le_refl _)

theorem observers_le_performAll (actions : List Action)
    (h : ∀ r ∈ s.readers, r.observers ≤ s.observers.length) :
    ∀ r ∈ (s.performAll decoder actions).2.readers,
      r.observers ≤ (s.performAll decoder actions).2.observers.length := by
  refine performAll_of_step (P := fun s : Session σ =>
    ∀ r ∈ s.readers, r.observers ≤ s.observers.length) (fun s action hs r' hr' => ?_) actions h
  have hgrows := grows_perform decoder s action
  obtain ⟨number, hr'⟩ := List.mem_iff_getElem?.mp hr'
  rcases hgrows.reader hr' with ⟨r, hr, hsame⟩ | ⟨-, hfresh⟩
  · rw [hsame]
    exact Nat.le_trans (hs r (List.mem_of_getElem? hr)) hgrows.observers_le
  · rw [hfresh]
    exact hgrows.observers_le

/-- An observer is told of the readers from a number on. -/
structure Watches (observer first : Nat) (s : Session σ) : Prop where
  first_le : first ≤ s.readers.length
  observer_lt : observer < s.observers.length
  told_iff : ∀ {number : Nat} {r : OpenReader}, s.readers[number]? = some r →
    (observer < r.observers ↔ first ≤ number)

variable {observer first : Nat}

theorem Watches.of_grows (h : s.Watches observer first) (hgrows : s.Grows s') :
    s'.Watches observer first where
  first_le := Nat.le_trans h.first_le hgrows.readers_le
  observer_lt := Nat.lt_of_lt_of_le h.observer_lt hgrows.observers_le
  told_iff := by
    intro number r' hr'
    rcases hgrows.reader hr' with ⟨r, hr, hsame⟩ | ⟨rfl, hfresh⟩
    · rw [hsame]
      exact h.told_iff hr
    · -- A fresh reader has the next number, and all observers are there.
      rw [hfresh]
      exact iff_of_true h.observer_lt h.first_le

/-- Of what was read from one reader, either all or nothing was read from readers from a number
on. -/
theorem map_delivered_filter (first number : Nat) (ds : List (Delivered α)) :
    ((ds.map (Taking.mk number)).filter fun t => first ≤ t.reader).map Taking.delivered =
      if first ≤ number then ds else [] := by
  induction ds with
  | nil => simp
  | cons d ds ih =>
      rw [List.map_cons, List.filter_cons]
      by_cases hfirst : first ≤ number
      · rw [if_pos hfirst] at ih ⊢
        rw [if_pos (decide_eq_true hfirst), List.map_cons, ih]
      · rw [if_neg hfirst] at ih ⊢
        rw [if_neg (by simpa using hfirst), ih]

/-- A call: an observer that is told of the reader counts what was read, and another one does
not. -/
theorem Watches.counts (h : s.Watches observer first) {number : Nat} {r : OpenReader}
    (hr : s.readers[number]? = some r) (call : Call) {ds : List (Delivered α)}
    (hds : s.observers[observer]? = some (.total ds)) :
    (s.behind number r (call.effect s.files decoder r.range s.codec)).observers[observer]? =
      some (.total (ds ++ ((s.takings decoder (.call number call)).filter
        fun t => first ≤ t.reader).map Taking.delivered)) := by
  have heffect := Call.effect_logged s.files decoder r.range (s.codec, []) call
  have htold := (Call.effect_deliveries s.files decoder r.range s.codec call).1
  have htakings := takings_call decoder hr call
  generalize call.effect s.files decoder.logged r.range (s.codec, []) = e at heffect htold htakings
  show (s.notify r (call.effect s.files decoder r.range s.codec).told).observers[observer]? = _
  rw [getElem?_notify s r _ hds, heffect, Effect.withoutLog, htold, htakings,
    ReadCounters.foldl_countRecord_total]
  rw [map_delivered_filter]
  by_cases hfirst : first ≤ number
  · rw [if_pos ((h.told_iff hr).mpr hfirst), if_pos hfirst]
  · rw [if_neg (fun hlt => hfirst ((h.told_iff hr).mp hlt)), if_neg hfirst, List.append_nil]

/-- **One operation**: an observer counts what is read from the readers that it is told of. -/
theorem Watches.perform (h : s.Watches observer first) (action : Action) {ds : List (Delivered α)}
    (hds : s.observers[observer]? = some (.total ds)) :
    (s.perform decoder action).2.observers[observer]? =
      some (.total (ds ++ ((s.takings decoder action).filter
        fun t => first ≤ t.reader).map Taking.delivered)) := by
  -- Where nothing is read, nothing is counted.
  have hquiet : s.observers[observer]? = some (.total (ds ++ (([] : List (Taking α)).filter
      fun t => first ≤ t.reader).map Taking.delivered)) := by
    rw [List.filter_nil, List.map_nil, List.append_nil]
    exact hds
  cases hkeeps : action.keepsFiles with
  | false =>
      obtain ⟨files, hfiles⟩ := perform_of_not_keepsFiles decoder s hkeeps
      rw [hfiles, takings_of_not_keepsFiles decoder s hkeeps]
      exact hquiet
  | true =>
      have hperforms := perform_cases decoder s hkeeps
      generalize s.perform decoder action = performed at hperforms ⊢
      obtain ⟨reply, s'⟩ := performed
      cases hperforms with
      | opened hopen => exact hquiet
      | refused hopen => exact hquiet
      | registered =>
          rw [List.getElem?_append_left h.observer_lt]
          exact hquiet
      | called call hreader => exact h.counts hreader call hds
      | missed call hreader =>
          rw [takings_missed decoder hreader]
          exact hquiet

/-- **All operations**: an observer has counted what was read from the readers that it is told
of. -/
theorem Watches.performAll (actions : List Action) :
    ∀ {s : Session σ} {ds : List (Delivered α)}, s.Watches observer first →
      s.observers[observer]? = some (.total ds) →
        (s.performAll decoder actions).2.observers[observer]? =
          some (.total (ds ++ ((s.allTakings decoder actions).filter
            fun t => first ≤ t.reader).map Taking.delivered)) := by
  induction actions with
  | nil =>
      intro s ds h hds
      rw [allTakings, List.filter_nil, List.map_nil, List.append_nil]
      exact hds
  | cons action actions ih =>
      intro s ds h hds
      have hwatches := h.of_grows (grows_perform decoder s action)
      rw [performAll_cons, allTakings, List.filter_append, List.map_append, ← List.append_assoc]
      exact ih hwatches (h.perform action hds)

/-! ## Answers -/

theorem filter_takings_of_callOf_none {number : Nat} {action : Action}
    (h : action.callOf number = none) :
    (s.takings decoder action).filter (fun t => t.reader = number) = [] := by
  cases action with
  | call reader call =>
      have hne : reader ≠ number := by
        rintro rfl
        simp [Action.callOf] at h
      rw [List.filter_eq_nil_iff]
      intro t ht
      obtain ⟨d, -, rfl⟩ := List.mem_map.mp ht
      simpa using hne
  | _ => rfl

theorem eq_call_of_callOf {number : Nat} {action : Action} {call : Call}
    (h : action.callOf number = some call) : action = .call number call := by
  cases action with
  | call reader asked =>
      by_cases hreader : reader = number
      · rw [Action.callOf, if_pos hreader] at h
        cases h
        rw [hreader]
      · rw [Action.callOf, if_neg hreader] at h
        cases h
  | _ => cases h

theorem given_perform_call (s : Session σ) {number : Nat} {call : Call}
    (hshown : (s.perform decoder (.call number call)).1.hides = false) :
    (s.perform decoder (.call number call)).1.given =
      ((s.takings decoder (.call number call)).filter fun t => t.reader = number).map
        fun t => t.delivered.element := by
  cases hreader : s.readers[number]? with
  | none =>
      rw [takings_missed decoder hreader]
      simp only [perform, hreader]
      rfl
  | some r =>
      have hall : ∀ ds : List (Delivered α), (ds.map (Taking.mk number)).filter
          (fun t => t.reader = number) = ds.map (Taking.mk number) := by
        intro ds
        rw [List.filter_eq_self]
        intro t ht
        obtain ⟨d, -, rfl⟩ := List.mem_map.mp ht
        exact decide_eq_true rfl
      have heffect := Call.effect_logged s.files decoder r.range (s.codec, []) call
      have hgiven := (Call.effect_deliveries s.files decoder r.range s.codec call).2
      rw [(perform_call decoder hreader call).1, heffect] at hshown ⊢
      rw [takings_call decoder hreader, hall, List.map_map]
      exact hgiven hshown

theorem given_repliesOf (number : Nat) (actions : List Action) :
    ∀ s : Session σ,
      (∀ reply ∈ repliesOf number actions (s.performAll decoder actions).1, reply.hides = false) →
        (repliesOf number actions (s.performAll decoder actions).1).flatMap Reply.given =
          ((s.allTakings decoder actions).filter fun t => t.reader = number).map
            fun t => t.delivered.element := by
  induction actions with
  | nil => exact fun s hshown => rfl
  | cons action actions ih =>
      intro s hshown
      rw [performAll_cons] at hshown ⊢
      rw [allTakings, List.filter_append, List.map_append]
      cases hcall : action.callOf number with
      | none =>
          simp only [repliesOf_cons_none hcall] at hshown ⊢
          rw [filter_takings_of_callOf_none hcall, List.map_nil, List.nil_append]
          exact ih _ hshown
      | some call =>
          obtain rfl := eq_call_of_callOf hcall
          simp only [repliesOf_cons_call, List.forall_mem_cons, List.flatMap_cons] at hshown ⊢
          rw [ih _ hshown.2, given_perform_call s hshown.1]

/-- **Observers count what was read, and nothing else.** Take any source and any session with it:
readers are opened and called in any order, the decoder succeeds, fails and crashes as it likes, and
the file behind the source may change. An observer that is registered at some moment has, at the
end, counted the elements that were read from then on from the readers that are opened from then on,
and the bytes that the decoder was given for each of them, both as words that wrap around. What was
read from a reader is what the answers to its calls give, as long as no crash has hidden a part. -/
theorem totals_of_registered (decoder : Decoder σ α) (source : Source) (files : Files) (codec : σ)
    (before after : List Action) :
    let begun : Session σ := { source, files, codec }
    let s := (begun.performAll decoder before).2
    let t := (s.perform decoder .register).2
    let takings := t.allTakings decoder after
    let own := (takings.filter fun t => s.readers.length ≤ t.reader).map Taking.delivered
    let replies := (t.performAll decoder after).1
    (s.perform decoder .register).1 = .registered s.observers.length ∧
      (t.performAll decoder after).2.observers[s.observers.length]? =
        some { elements := .ofNat own.length
               bytes := .ofNat (own.map Delivered.byteLength).sum } ∧
      ∀ number, (∀ reply ∈ repliesOf number after replies, reply.hides = false) →
        (repliesOf number after replies).flatMap Reply.given =
          (takings.filter fun t => t.reader = number).map fun t => t.delivered.element := by
  intro begun s t takings own replies
  have hthere : ∀ r ∈ s.readers, r.observers ≤ s.observers.length :=
    observers_le_performAll before (fun r hr => nomatch hr)
  have hwatches : t.Watches s.observers.length s.readers.length := by
    refine ⟨Nat.le_refl _, ?_, fun {number r} hr => iff_of_false ?_ ?_⟩
    · show s.observers.length < List.length (s.observers ++ _)
      rw [List.length_append]
      exact Nat.lt_succ_self _
    · exact Nat.not_lt.mpr (hthere r (List.mem_of_getElem? hr))
    · exact Nat.not_le.mpr (List.getElem?_eq_some_iff.mp hr).1
  have hfresh : t.observers[s.observers.length]? = some (.total ([] : List (Delivered α))) :=
    List.getElem?_concat_length
  exact ⟨rfl, hwatches.performAll after hfresh, fun number => given_repliesOf number after t⟩

/-- Operations on two readers, of which the first one is there before the observer. -/
def observedCalls : List Action :=
  [.openReader, .call 0 .tryNext, .call 1 .next, .call 1 .tryNext,
    .call 1 (.trySplit (.ofPosition (.recordIndex 2))), .call 1 (.elements none), .call 1 .progress,
    .call 1 .tryNext]

/-- The decoder fails before the observer is there and crashes at the second record of the second
reader. Of the three records that are read afterwards the observer counts the two that the second
reader reads. -/
theorem totals_of_registered_twoReaders :
    let begun : Session Nat :=
      { source := .memory ⟨[[1], [2, 2], [3]], 0, 3⟩, files := {}, codec := 0 }
    let s := (begun.performAll moody [.openReader, .call 0 .tryNext]).2
    let t := (s.perform moody .register).2
    let replies := (t.performAll moody observedCalls).1
    (t.performAll moody observedCalls).2.observers[0]? = some { elements := 2, bytes := 3 } ∧
      (repliesOf 1 observedCalls replies).flatMap Reply.given = [[1], [2, 2]] ∧
      (t.allTakings moody observedCalls).map Taking.reader = [0, 1, 1] := by
  intro begun s t replies
  obtain ⟨-, htotals, hgiven⟩ := totals_of_registered moody (.memory ⟨[[1], [2, 2], [3]], 0, 3⟩) {} 0
    [.openReader, .call 0 .tryNext] observedCalls
  have hshown : ∀ reply ∈ repliesOf 1 observedCalls replies, reply.hides = false := by
    decide +kernel
  refine ⟨htotals.trans ?_, (hgiven 1 hshown).trans ?_, ?_⟩
  · decide +kernel
  · decide +kernel
  · decide +kernel

end Session

end SplitReader
