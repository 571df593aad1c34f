import SplitReader.Proofs.SessionCalls
import SplitReader.Proofs.SteadyReads

/-! # Ways to consume a reader

A reader can be consumed in three ways: by reading until nothing is left, by asking first whether a
record is left, and by pulling elements through an adapter. All are loops that stop at the first
error, and differ in how they notice the end. Splits may be proposed at any point, and a loop that
asks has one point more, between the asking and the reading.

A split leaves a record if there was one, so what was asked still holds when the read is made, and
the three loops take the same turns (`askTurn_eq_readTurn`, `pullTurn_of_fresh`). The adapter alone
remembers that it has met an error, and never reads again, whereas its reader would.
-/

set_option autoImplicit false

namespace SplitReader

namespace BoundedReader

variable {S T α : Type}

/-! ## Loops -/

/-- The stops that are proposed at one turn of a loop. A loop that does not ask whether a record is
left makes all of them before it reads. -/
structure Interlude where
  /-- Before the loop asks whether a record is left. -/
  before : List Progress := []
  /-- Between the asking and the reading. -/
  between : List Progress := []

def proposeAll (r : BoundedReader S α) (proposals : List Progress) (s : S) : S :=
  proposals.foldl (fun s proposed => (r.split proposed s).2) s

theorem proposeAll_cons (r : BoundedReader S α) (proposed : Progress) (proposals : List Progress)
    (s : S) : r.proposeAll (proposed :: proposals) s =
      r.proposeAll proposals (r.split proposed s).2 := rfl

/-- The state behind all proposals of a turn. -/
def disturb (r : BoundedReader S α) (x : Interlude) (s : S) : S :=
  r.proposeAll x.between (r.proposeAll x.before s)

/-- A turn of a loop that reads until nothing is left. -/
def readTurn (r : BoundedReader S α) (x : Interlude) (s : S) :
    Outcome SourceError (Option (Delivered α)) × S :=
  r.tryNext (r.disturb x s)

/-- A turn of a loop that asks first whether a record is left. -/
def askTurn (r : BoundedReader S α) (x : Interlude) (s : S) :
    Outcome SourceError (Option (Delivered α)) × S :=
  let s := r.proposeAll x.before s
  if r.hasNext s then
    let (outcome, s) := r.next (r.proposeAll x.between s)
    (outcome.map some, s)
  else (.value none, s)

/-- A pull as a turn of a loop. -/
def Pulled.outcome : Pulled α → Outcome SourceError (Option (Delivered α))
  | .item (.ok d) => .value (some d)
  | .item (.error e) => .failed e
  | .ended => .value none
  | .crashed text => .crashed text

/-- A turn of a loop that pulls elements through an adapter. -/
def pullTurn (r : BoundedReader S α) (x : Interlude) (p : Pull S) :
    Outcome SourceError (Option (Delivered α)) × Pull S :=
  let (pulled, p) := r.pull { p with state := r.disturb x p.state }
  (pulled.outcome, p)

/-- What a loop has consumed. -/
structure Consumption (T α : Type) where
  items : List (Except SourceError (Delivered α))
  isOver : Bool
  crash : Option String
  state : T
  /-- What was not proposed any more. -/
  unused : List Interlude

/-- Consumes until the end, the first error or a crash, one turn for each interlude. -/
def consume (turn : Interlude → T → Outcome SourceError (Option (Delivered α)) × T) :
    List Interlude → T → Consumption T α
  | [], t => { items := [], isOver := false, crash := none, state := t, unused := [] }
  | x :: xs, t =>
      match turn x t with
      | (.value (some d), t) =>
          let rest := consume turn xs t
          { rest with items := .ok d :: rest.items }
      | (.value none, t) => { items := [], isOver := true, crash := none, state := t, unused := xs }
      | (.failed e, t) =>
          { items := [.error e], isOver := true, crash := none, state := t, unused := xs }
      | (.crashed text, t) =>
          { items := [], isOver := false, crash := some text, state := t, unused := xs }

/-- What every turn gives, whether the loop should have stopped before or not. -/
def answers (turn : Interlude → T → Outcome SourceError (Option (Delivered α)) × T) :
    List Interlude → T → List (Outcome SourceError (Option (Delivered α))) × T
  | [], t => ([], t)
  | x :: xs, t =>
      let (outcome, t) := turn x t
      let (outcomes, t) := answers turn xs t
      (outcome :: outcomes, t)

/-! ## Any loop -/

section Loops

variable {turn : Interlude → T → Outcome SourceError (Option (Delivered α)) × T}

/-- **A loop gives elements, and at most one error behind them.** -/
theorem items_consume (xs : List Interlude) :
    ∀ t : T, ∃ (ds : List (Delivered α)) (e : Option SourceError),
      (consume turn xs t).items = ds.map .ok ++ e.toList.map .error ∧
        (e.isSome = true → (consume turn xs t).isOver = true) := by
  induction xs with
  | nil => exact fun t => ⟨[], none, rfl, nofun⟩
  | cons x xs ih =>
      intro t
      rcases hturn : turn x t with ⟨(_ | d) | e | text, t'⟩ <;> simp only [consume, hturn]
      · exact ⟨[], none, rfl, nofun⟩
      · obtain ⟨ds, e, hitems, hover⟩ := ih t'
        exact ⟨d :: ds, e, by rw [hitems]; rfl, hover⟩
      · exact ⟨[], some e, rfl, by simp⟩
      · exact ⟨[], none, rfl, nofun⟩

/-- Where turns keep a property and do not crash, a loop does not crash. -/
theorem crash_consume {P : T → Prop} (hturn : ∀ x t, P t → P (turn x t).2)
    (hcalm : ∀ x t text, P t → (turn x t).1 ≠ .crashed text) (xs : List Interlude) :
    ∀ t : T, P t → (consume turn xs t).crash = none := by
  induction xs with
  | nil => exact fun t ht => rfl
  | cons x xs ih =>
      intro t ht
      have hafter := hturn x t ht
      have hnone := hcalm x t
      rcases h : turn x t with ⟨(_ | d) | e | text, t'⟩ <;> rw [h] at hafter hnone <;>
        simp only [consume, h]
      · exact ih t' hafter
      · exact absurd rfl (hnone text ht)

/-- A loop is over when it could have taken more turns than elements are left. -/
theorem isOver_consume {left : T → Nat}
    (hless : ∀ x t t' d, turn x t = (.value (some d), t') → left t' < left t)
    (xs : List Interlude) : ∀ t : T, (consume turn xs t).crash = none → left t < xs.length →
      (consume turn xs t).isOver = true := by
  induction xs with
  | nil => exact fun t _ hlt => absurd hlt (Nat.not_lt_zero _)
  | cons x xs ih =>
      intro t hcrash hlt
      rcases h : turn x t with ⟨(_ | d) | e | text, t'⟩ <;> simp only [consume, h] at hcrash ⊢
      · have hfewer := hless x t t' d h
        exact ih t' hcrash (Nat.lt_of_lt_of_le hfewer (Nat.le_of_lt_succ hlt))
      · cases hcrash

end Loops

/-! ## Pulls -/

section Pulls

variable {r : BoundedReader S α}

/-- **A pull before the end is a read**, and the adapter remembers whether it has met the end or an
error. -/
theorem pullTurn_of_fresh (x : Interlude) (s : S) :
    r.pullTurn x { state := s } =
      match r.readTurn x s with
      | (.value (some d), s) => (.value (some d), { state := s })
      | (.value none, s) => (.value none, { state := s, isDone := true })
      | (.failed e, s) => (.failed e, { state := s, isDone := true })
      | (.crashed text, s) => (.crashed text, { state := s }) := by
  unfold pullTurn readTurn
  simp only [pull_of_fresh]
  rcases r.tryNext (r.disturb x s) with ⟨(_ | d) | e | text, s'⟩ <;> rfl

/-- **Pulling consumes what reading consumes**, and leaves the same state. -/
theorem consume_pullTurn (xs : List Interlude) :
    ∀ s : S, consume r.pullTurn xs { state := s } =
      let reading := consume r.readTurn xs s
      { reading with state := { state := reading.state, isDone := reading.isOver } } := by
  induction xs with
  | nil => exact fun s => rfl
  | cons x xs ih =>
      intro s
      simp only [consume, pullTurn_of_fresh]
      rcases r.readTurn x s with ⟨(_ | d) | e | text, s'⟩
      · rfl
      · simp only [ih s']
      · rfl
      · rfl

/-- **Behind the end or an error an adapter never reads again**: whatever its reader would give, a
pull gives nothing, and only proposals change the state. -/
theorem answers_pullTurn_of_isDone (xs : List Interlude) :
    ∀ s : S, answers r.pullTurn xs { state := s, isDone := true } =
      (xs.map fun _ => .value none,
        { state := xs.foldl (fun s x => r.disturb x s) s, isDone := true }) := by
  induction xs with
  | nil => exact fun s => rfl
  | cons x xs ih =>
      intro s
      have hturn : r.pullTurn x { state := s, isDone := true } =
          (.value none, { state := r.disturb x s, isDone := true }) := rfl
      simp only [answers, hturn, ih]
      rfl

theorem pullMany_eq_consume (count : Nat) :
    ∀ s : S,
      let reading := consume r.readTurn (List.replicate count {}) s
      let run := r.pullMany count { state := s }
      run.items = reading.items ∧ run.crash = reading.crash ∧
        run.pull = { state := reading.state, isDone := reading.isOver } := by
  induction count with
  | zero => exact fun s => ⟨rfl, rfl, rfl⟩
  | succ count ih =>
      intro s reading run
      have hturn : r.readTurn {} s = r.tryNext s := rfl
      simp only [reading, run, List.replicate_succ, consume, pullMany, pull_of_fresh, hturn]
      rcases r.tryNext s with ⟨(_ | d) | e | text, s'⟩
      · exact ⟨rfl, rfl, rfl⟩
      · obtain ⟨hitems, hcrash, hpull⟩ := ih s'
        exact ⟨congrArg _ hitems, hcrash, hpull⟩
      · -- The pulls that are left behind the error give nothing.
        have hdone := pullMany_of_isDone r (p := { state := s', isDone := true }) rfl count
        refine ⟨?_, ?_, ?_⟩ <;> simp only [hdone]
      · exact ⟨rfl, rfl, rfl⟩

end Pulls

end BoundedReader

/-! ## Readers of ranges -/

namespace RangeReader

open BoundedReader

variable {σ α : Type} {files : Files} {decoder : Decoder σ α}

/-- A proposal is refused and changes nothing, or is accepted strictly inside the window. -/
theorem bounded_split_cases (files : Files) (decoder : Decoder σ α) (proposed : Progress)
    (s : RangeReader × σ) :
    ((bounded files decoder).split proposed s).2 = s ∨
      ∃ r' position, s.1.trySplit proposed = .ok (position, r') ∧
        ((bounded files decoder).split proposed s).2 = (r', s.2) := by
  cases hjudged : s.1.trySplit proposed with
  | error reason =>
      have hrefused : (bounded files decoder).trySplit proposed s = .error reason := by
        simp only [bounded, hjudged, Except.map]
      exact Or.inl (congrArg Prod.snd (split_of_error hrefused))
  | ok accepted =>
      have haccepted : (bounded files decoder).trySplit proposed s =
          .ok (accepted.1, accepted.2, s.2) := bounded_trySplit_eq_ok_iff.mpr ⟨hjudged, rfl⟩
      exact Or.inr ⟨accepted.2, accepted.1, rfl, congrArg Prod.snd (split_of_ok haccepted)⟩

theorem bounded_proposeAll {P : RangeReader → Prop}
    (hsplit : ∀ r r' proposed position, P r → r.trySplit proposed = .ok (position, r') → P r')
    (proposals : List Progress) :
    ∀ s : RangeReader × σ, P s.1 → P ((bounded files decoder).proposeAll proposals s).1 := by
  induction proposals with
  | nil => exact fun s hs => hs
  | cons proposed proposals ih =>
      intro s hs
      rw [proposeAll_cons]
      refine ih _ ?_
      rcases bounded_split_cases files decoder proposed s with hsame | ⟨r', position, hok, hafter⟩
      · rw [hsame]
        exact hs
      · rw [hafter]
        exact hsplit _ _ _ _ hs hok

/-- **A record that is left is left by every split.** -/
theorem proposeAll_of_hasNext (files : Files) (decoder : Decoder σ α) {s : RangeReader × σ}
    (proposals : List Progress) (h : s.1.tracker.window.index < s.1.tracker.window.stop) :
    let after := (bounded files decoder).proposeAll proposals s
    after.1.tracker.window.index < after.1.tracker.window.stop := by
  refine bounded_proposeAll (P := fun r => r.tracker.window.index < r.tracker.window.stop) ?_ _ s h
  intro r r' proposed position _ hok
  obtain ⟨offset, -, -, hlo, -, -, rfl⟩ := trySplit_eq_ok_iff.mp hok
  exact hlo

theorem proposeAll_of_exhausted {s : RangeReader × σ}
    (h : s.1.tracker.window.stop ≤ s.1.tracker.window.index) (proposals : List Progress) :
    (bounded files decoder).proposeAll proposals s = s := by
  induction proposals with
  | nil => rfl
  | cons proposed proposals ih =>
      have hsame : ((bounded files decoder).split proposed s).2 = s := by
        rcases bounded_split_cases files decoder proposed s with hsame | ⟨r', position, hok, -⟩
        · exact hsame
        · obtain ⟨offset, -, -, hlo, hhi, -⟩ := trySplit_eq_ok_iff.mp hok
          omega
      rw [proposeAll_cons, hsame]
      exact ih

theorem next_of_lt (files : Files) (decoder : Decoder σ α) {s : RangeReader × σ}
    (h : s.1.tracker.window.index < s.1.tracker.window.stop) :
    ((bounded files decoder).next s).1.map some = (tryNext files decoder s).1 ∧
      ((bounded files decoder).next s).2 = (tryNext files decoder s).2 := by
  have hnone : ∀ s', tryNext files decoder s ≠ (.value none, s') := by
    intro s' hread
    obtain ⟨hover, -⟩ := of_tryNext_none hread
    omega
  simp only [next, bounded]
  rcases hread : tryNext files decoder s with ⟨(_ | d) | e | text, s'⟩
  · exact absurd hread (hnone s')
  · exact ⟨rfl, rfl⟩
  · exact ⟨rfl, rfl⟩
  · exact ⟨rfl, rfl⟩

/-- **Asking first changes nothing**, whatever is proposed between the asking and the reading. -/
theorem askTurn_eq_readTurn (files : Files) (decoder : Decoder σ α) :
    (bounded files decoder).askTurn = (bounded files decoder).readTurn := by
  funext x s
  unfold askTurn readTurn disturb
  generalize (bounded files decoder).proposeAll x.before s = s'
  by_cases h : s'.1.tracker.window.index < s'.1.tracker.window.stop
  · -- What was answered still holds behind the proposals that follow.
    have hleft : (bounded files decoder).hasNext s' = true := decide_eq_true h
    obtain ⟨houtcome, hstate⟩ :=
      next_of_lt files decoder (proposeAll_of_hasNext files decoder x.between h)
    simp only [hleft, if_true, houtcome, hstate]
    rfl
  · -- The loop that does not ask proposes and reads all the same, in vain.
    have hover := Nat.le_of_not_lt h
    have hleft : (bounded files decoder).hasNext s' = false := decide_eq_false h
    have hread : (bounded files decoder).tryNext s' = (.value none, s') :=
      tryNext_of_exhausted files decoder s'.2 hover
    rw [proposeAll_of_exhausted hover, hread]
    simp only [hleft, Bool.false_eq_true, if_false]

/-- What accepted splits keep, a turn finds when it reads. -/
theorem bounded_disturb {P : RangeReader → Prop}
    (hsplit : ∀ r r' proposed position, P r → r.trySplit proposed = .ok (position, r') → P r')
    (x : Interlude) {s : RangeReader × σ} (h : P s.1) :
    P ((bounded files decoder).disturb x s).1 :=
  bounded_proposeAll hsplit x.between _ (bounded_proposeAll hsplit x.before s h)

theorem remaining_readTurn {x : Interlude} {s s' : RangeReader × σ} {d : Delivered α}
    (h : (bounded files decoder).readTurn x s = (.value (some d), s')) :
    (bounded files decoder).remaining s' < (bounded files decoder).remaining s := by
  refine Nat.lt_of_lt_of_le ((bounded_narrowing files decoder).read h) ?_
  -- The proposals of the turn came before its read, and left no more.
  refine bounded_disturb
    (P := fun r => r.tracker.window.stop - r.tracker.window.index ≤
      s.1.tracker.window.stop - s.1.tracker.window.index) ?_ x (Nat.le_refl _)
  intro r r' proposed position hle hok
  obtain ⟨offset, -, -, -, hhi, -, rfl⟩ := trySplit_eq_ok_iff.mp hok
  exact Nat.le_trans (Nat.sub_le_sub_right (Nat.le_of_lt hhi) _) hle

theorem crash_consume_readTurn {r : RangeReader} (h : r.StopsInside)
    (hdecoder : decoder.IsSteady) (c : σ) (xs : List Interlude) :
    (consume (bounded files decoder).readTurn xs (r, c)).crash = none := by
  have hfound : ∀ (x : Interlude) (s : RangeReader × σ), s.1.StopsInside →
      ((bounded files decoder).disturb x s).1.StopsInside := fun x s hs =>
    bounded_disturb (fun q q' proposed position hq hok => hq.trySplit hok) x hs
  exact crash_consume (P := fun s : RangeReader × σ => s.1.StopsInside)
    (fun x s hs => (hfound x s hs).tryNext files decoder _)
    (fun x s text hs => (hfound x s hs).not_crashed hdecoder rfl text) xs (r, c) h

/-- **All ways to consume a reader agree.** Let a reader of an accepted source be reached by
opening, reads and splits, let its decoder not crash, and let stops be proposed at any points of a
loop. What is pulled through a fresh adapter is a list of elements with at most one error behind it.
A loop that reads until nothing is left, and one that asks first, give the same items, stop at the
same point, and leave the same reader and decoder. None of them crashes, and all are over after as
many turns as records were left and one more. Without proposals this is what a number of pulls at
once give. And once the adapter has given an error or nothing, every further pull gives nothing,
whatever the reader would give by then, and changes nothing: only proposals do. -/
theorem ways_agree {source : Source} {length : Nat} (hsource : source.IsAccepted length)
    {r : RangeReader} (hr : r.Reached source) (files : Files) (hdecoder : decoder.IsSteady) (c : σ)
    (xs : List Interlude) :
    let reader := bounded files decoder
    let pulling := consume reader.pullTurn xs { state := (r, c) }
    let reading := consume reader.readTurn xs (r, c)
    let asking := consume reader.askTurn xs (r, c)
    (∃ (ds : List (Delivered α)) (e : Option SourceError),
        pulling.items = ds.map .ok ++ e.toList.map .error ∧
          (e.isSome = true → pulling.isOver = true)) ∧
      pulling = { reading with state := { state := reading.state, isDone := reading.isOver } } ∧
      asking = reading ∧
      reading.crash = none ∧
      (reader.remaining (r, c) < xs.length → reading.isOver = true) ∧
      (∀ limit : Option Nat,
        let turns := limit.getD (reader.remaining (r, c) + 2)
        let alone := consume reader.readTurn (List.replicate turns {}) (r, c)
        let run := reader.elements limit (r, c)
        run.items = alone.items ∧ run.crash = none ∧
          run.pull = { state := alone.state, isDone := alone.isOver }) ∧
      (pulling.isOver = true →
        ∀ (other : BoundedReader (RangeReader × σ) α) (later : List Interlude),
          answers other.pullTurn later pulling.state =
            (later.map fun _ => .value none,
              { state := later.foldl (fun s x => other.disturb x s) reading.state,
                isDone := true })) := by
  intro reader pulling reading asking
  have hcalm : ∀ ys : List Interlude, (consume reader.readTurn ys (r, c)).crash = none :=
    crash_consume_readTurn (hsource.stopsInside hr) hdecoder c
  have hpulling : pulling =
      { reading with state := { state := reading.state, isDone := reading.isOver } } :=
    consume_pullTurn xs (r, c)
  refine ⟨items_consume xs _, hpulling, ?_, hcalm xs, ?_, fun limit => ?_, ?_⟩
  · exact congrArg (fun turn => consume turn xs (r, c)) (askTurn_eq_readTurn files decoder)
  · exact isOver_consume (fun x s s' d h => remaining_readTurn h) xs (r, c) (hcalm xs)
  · intro turns alone run
    obtain ⟨hitems, hcrash, hpull⟩ := pullMany_eq_consume (r := reader) turns (r, c)
    exact ⟨hitems, hcrash.trans (hcalm _), hpull⟩
  · intro hover other later
    have hover : reading.isOver = true := by
      rw [hpulling] at hover
      exact hover
    rw [hpulling, hover]
    exact answers_pullTurn_of_isDone later reading.state

/-- Four records, of which the second is no text. -/
def brokenText : MemorySource := ⟨[[97], [255], [98], [99]], 0, 4⟩

/-- At the second turn the stop is moved to the third record, after it was asked whether a record is
left. The record is no text, and the adapter gives nothing from then on, although two records are
left. -/
theorem ways_agree_brokenText :
    let reader := bounded {} Codec.text.decoder
    let early : Progress := .ofPosition (.recordIndex 3)
    let xs : List Interlude := [{}, { between := [early] }, {}, {}]
    let pulling := consume reader.pullTurn xs { state := (brokenText.reader, ()) }
    let asking := consume reader.askTurn xs (brokenText.reader, ())
    pulling.items.map Except.toOption = [some ⟨"a", 1⟩, none] ∧
      asking.items = pulling.items ∧ asking.state = pulling.state.state ∧
      asking.state.1.tracker.window = ⟨1, 3⟩ ∧ reader.hasNext asking.state = true ∧
      (answers reader.pullTurn [{}, {}] pulling.state).1 = [.value none, .value none] := by
  intro reader early xs pulling asking
  have hnew : MemorySource.new brokenText.records (some 0) (some 4) = .ok brokenText := rfl
  have hsource : (Source.memory brokenText).IsAccepted 4 := .memory hnew
  have hopen : (Source.memory brokenText).reader {} = .ok brokenText.reader := rfl
  obtain ⟨-, hpulling, hasking, -, -, -, hlater⟩ :=
    ways_agree hsource (.opened hopen) {} Codec.text.isSteady_decoder () xs
  have hover : pulling.isOver = true := by decide +kernel
  have hanswers := hlater hover reader [{}, {}]
  refine ⟨by decide +kernel, ?_, ?_, by decide +kernel, by decide +kernel, ?_⟩
  · exact (congrArg Consumption.items hasking).trans (congrArg Consumption.items hpulling).symm
  · exact (congrArg Consumption.state hasking).trans
      (congrArg (fun eaten => eaten.state.state) hpulling).symm
  · exact congrArg Prod.fst hanswers

end RangeReader

end SplitReader
