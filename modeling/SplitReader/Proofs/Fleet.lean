import Mathlib.Tactic.Push
import SplitReader.Proofs.Lines
import SplitReader.Proofs.RangeReader

/-! # Fleets

A fleet is a growing list of readers that share out one range. At any moment any reader may read,
or be proposed an earlier stop; whenever it accepts one, a further reader is opened on the range
that it gives away. The fleet keeps a list of what was delivered, and one of what went wrong.

What a fleet needs of its readers is collected in `Fleet.Sound`: a read delivers the record that
begins at the index and moves to the next beginning, and a fresh reader of a range stands at the
first beginning of the range. Then in every state the records that were delivered and those that
begin in the unread windows are together the records that begin in the whole range, each of them
once (`shares_performAll`).
-/

set_option autoImplicit false

namespace SplitReader

/-- An element that a reader of a fleet has delivered. -/
structure Delivery (α : Type) where
  reader : Nat
  /-- Where the reader stood before the read. -/
  offset : Nat
  element : α
  deriving DecidableEq, Repr

inductive Mishap where
  | failed (e : SourceError)
  | crashed (text : String)
  /-- No reader was opened on a range that was given away. -/
  | unopened (e : SourceError)
  deriving DecidableEq, Repr

/-- The readers of a range, and what has become of it. -/
structure Fleet (σ α : Type) where
  readers : List (RangeReader × σ)
  deliveries : List (Delivery α) := []
  mishaps : List Mishap := []

namespace Fleet

/-- What the readers of a fleet work with. -/
structure Base (σ α : Type) where
  files : Files
  decoder : Decoder σ α
  codec : σ
  openRange : Nat → Nat → Except SourceError RangeReader

/-- What may happen to a fleet. Readers go by their numbers. -/
inductive Move where
  | read (reader : Nat)
  | propose (reader : Nat) (proposed : Progress)
  deriving DecidableEq, Repr

variable {σ α : Type}

def read (b : Base σ α) (i : Nat) (s : RangeReader × σ) (f : Fleet σ α) : Fleet σ α :=
  match RangeReader.tryNext b.files b.decoder s with
  | (.value (some d), s') =>
      { f with
        readers := f.readers.set i s'
        deliveries := f.deliveries ++ [⟨i, s.1.tracker.window.index, d.element⟩] }
  | (.value none, s') => { f with readers := f.readers.set i s' }
  | (.failed e, s') =>
      { f with readers := f.readers.set i s', mishaps := f.mishaps ++ [.failed e] }
  | (.crashed text, s') =>
      { f with readers := f.readers.set i s', mishaps := f.mishaps ++ [.crashed text] }

/-- A reader judges a proposed stop. The range that it gives away goes to a further reader. -/
def propose (b : Base σ α) (i : Nat) (proposed : Progress) (s : RangeReader × σ)
    (f : Fleet σ α) : Fleet σ α :=
  match s.1.trySplit proposed with
  | .error _ => f
  | .ok (_, r) =>
      let readers := f.readers.set i (r, s.2)
      match b.openRange r.tracker.window.stop s.1.tracker.window.stop with
      | .ok fresh => { f with readers := readers ++ [(fresh, b.codec)] }
      | .error e => { f with readers := readers, mishaps := f.mishaps ++ [.unopened e] }

/-- Lets something happen. Nothing happens to a reader that is not there. -/
def perform (b : Base σ α) (f : Fleet σ α) : Move → Fleet σ α
  | .read i =>
      match f.readers[i]? with
      | some s => f.read b i s
      | none => f
  | .propose i proposed =>
      match f.readers[i]? with
      | some s => f.propose b i proposed s
      | none => f

def performAll (b : Base σ α) (f : Fleet σ α) (moves : List Move) : Fleet σ α :=
  moves.foldl (perform b) f

def IsExhausted (f : Fleet σ α) : Prop := ∀ s ∈ f.readers, s.1.tracker.hasNext = false

/-! ## What a fleet needs of its readers -/

/-- Readers that are fit read a range of records without a gap. The records begin at certain
offsets, and elements are right for some of these. -/
structure Sound (b : Base σ α) (begins : Nat → Bool) (isRight : Nat → α → Prop) (limit : Nat)
    (Fit : RangeReader → Prop) : Prop where
  /-- A fit reader delivers the record at its index and moves to the next one. -/
  delivers : ∀ {r r' : RangeReader} {c c' : σ} {d : Delivered α}, Fit r →
    RangeReader.tryNext b.files b.decoder (r, c) = (.value (some d), (r', c')) →
      isRight r.tracker.window.index d.element ∧ begins r.tracker.window.index = true ∧
        ∀ o, r.tracker.window.index < o → o < r'.tracker.window.index → begins o = false
  reads : ∀ {r r' : RangeReader} {c c' : σ} {outcome : Outcome SourceError (Option (Delivered α))},
    Fit r → RangeReader.tryNext b.files b.decoder (r, c) = (outcome, (r', c')) → Fit r'
  splits : ∀ {r r' : RangeReader} {proposed : Progress} {position : Position}, Fit r →
    r.trySplit proposed = .ok (position, r') → Fit r'
  stop_le : ∀ {r : RangeReader}, Fit r → r.tracker.window.stop ≤ limit
  /-- A fresh reader of a range stands at the first record of the range. -/
  opens : ∀ {first past : Nat}, first < past → past ≤ limit →
    ∃ r, b.openRange first past = .ok r ∧ Fit r ∧ r.tracker.window.stop = past ∧
      first ≤ r.tracker.window.index ∧
      ∀ o, first ≤ o → o < r.tracker.window.index → begins o = false

/-- The records that begin in the unread window of a reader. -/
def unread (begins : Nat → Bool) (s : RangeReader × σ) : List Nat :=
  startsIn begins s.1.tracker.window.index s.1.tracker.window.stop

/-- A fleet shares out the records of a range: its readers are fit, what was delivered is right,
and the records that were delivered or are left to read are those of the range, each once. -/
structure Shares (begins : Nat → Bool) (isRight : Nat → α → Prop) (Fit : RangeReader → Prop)
    (start stop : Nat) (f : Fleet σ α) : Prop where
  fit : ∀ s ∈ f.readers, Fit s.1
  right : ∀ d ∈ f.deliveries, isRight d.offset d.element
  shared : (f.deliveries.map Delivery.offset ++ f.readers.flatMap (unread begins)).Perm
    (startsIn begins start stop)

/-- Replacing one entry of a list touches one part of what the list maps to. -/
theorem exists_flatMap_set {β γ : Type} {l : List β} {i : Nat} {s : β} (h : l[i]? = some s)
    (g : β → List γ) : ∃ others, ∀ s', ((l.set i s').flatMap g).Perm (g s' ++ others) := by
  obtain ⟨hlt, -⟩ := List.getElem?_eq_some_iff.mp h
  refine ⟨(l.take i).flatMap g ++ (l.drop (i + 1)).flatMap g, fun s' => ?_⟩
  rw [List.set_eq_take_append_cons_drop, if_pos hlt, List.flatMap_append, List.flatMap_cons]
  exact List.perm_append_comm_assoc _ _ _

/-! ## Sharing out -/

section Sharing

variable {b : Base σ α} {begins : Nat → Bool} {isRight : Nat → α → Prop} {limit : Nat}
  {Fit : RangeReader → Prop} {start stop : Nat} {f : Fleet σ α} {i : Nat} {s : RangeReader × σ}

/-- One reader may be replaced, others added and elements delivered, if what it had left to read
is shared out among these. -/
theorem Shares.replace (hf : f.Shares begins isRight Fit start stop)
    (hs : f.readers[i]? = some s) (s' : RangeReader × σ) (more : List (RangeReader × σ))
    (ds : List (Delivery α)) (mishaps : List Mishap) (hs' : Fit s'.1)
    (hmore : ∀ t ∈ more, Fit t.1) (hds : ∀ d ∈ ds, isRight d.offset d.element)
    (hcut : unread begins s =
      ds.map Delivery.offset ++ (unread begins s' ++ more.flatMap (unread begins))) :
    Shares begins isRight Fit start stop
      { readers := f.readers.set i s' ++ more, deliveries := f.deliveries ++ ds, mishaps } := by
  refine ⟨fun t ht => ?_, fun d hd => ?_, ?_⟩
  · rcases List.mem_append.mp ht with ht | ht
    · rcases List.mem_or_eq_of_mem_set ht with ht | rfl
      · exact hf.fit t ht
      · exact hs'
    · exact hmore t ht
  · rcases List.mem_append.mp hd with hd | hd
    · exact hf.right d hd
    · exact hds d hd
  · obtain ⟨others, hothers⟩ := exists_flatMap_set hs (unread begins)
    have hself : f.readers.set i s = f.readers := by
      obtain ⟨hlt, rfl⟩ := List.getElem?_eq_some_iff.mp hs
      exact List.set_getElem_self hlt
    have hbefore := hothers s
    rw [hself, hcut] at hbefore
    -- What the reader had left to read comes to the front, is shared out anew, and goes back.
    calc (f.deliveries ++ ds).map Delivery.offset ++
          (f.readers.set i s' ++ more).flatMap (unread begins)
      _ = f.deliveries.map Delivery.offset ++ (ds.map Delivery.offset ++
            ((f.readers.set i s').flatMap (unread begins) ++ more.flatMap (unread begins))) := by
          rw [List.map_append, List.flatMap_append, List.append_assoc]
      List.Perm _ (f.deliveries.map Delivery.offset ++ (ds.map Delivery.offset ++
            (unread begins s' ++ others ++ more.flatMap (unread begins)))) :=
          (((hothers s').append_right _).append_left _).append_left _
      List.Perm _ (f.deliveries.map Delivery.offset ++ (ds.map Delivery.offset ++
            (unread begins s' ++ more.flatMap (unread begins) ++ others))) := by
          refine List.Perm.append_left _ (List.Perm.append_left _ ?_)
          rw [List.append_assoc, List.append_assoc]
          exact List.perm_append_comm.append_left _
      _ = f.deliveries.map Delivery.offset ++ (ds.map Delivery.offset ++
            (unread begins s' ++ more.flatMap (unread begins)) ++ others) := by
          rw [List.append_assoc (ds.map Delivery.offset)]
      List.Perm _ (f.deliveries.map Delivery.offset ++ f.readers.flatMap (unread begins)) :=
          hbefore.symm.append_left _
      List.Perm _ (startsIn begins start stop) := hf.shared

theorem shares_read (hb : Sound b begins isRight limit Fit)
    (hf : f.Shares begins isRight Fit start stop) (hs : f.readers[i]? = some s) :
    (f.read b i s).Shares begins isRight Fit start stop := by
  have hfit : Fit s.1 := hf.fit s (List.mem_of_getElem? hs)
  have hkeep : ∀ {s' : RangeReader × σ} (mishaps : List Mishap), Fit s'.1 →
      s'.1.tracker.window = s.1.tracker.window →
      Shares begins isRight Fit start stop { f with readers := f.readers.set i s', mishaps } := by
    intro s' mishaps hs' hwindow
    have h := hf.replace hs s' [] [] mishaps hs' (by simp) (by simp) (by simp [unread, hwindow])
    simpa using h
  unfold read
  split
  · next d s' hread =>
    -- The record at the index leaves the unread window and is delivered.
    obtain ⟨hright, hbegins, hgap⟩ := hb.delivers hfit hread
    obtain ⟨hlt, hmove, hstop⟩ := RangeReader.window_of_tryNext_some hread
    have hcut : unread begins s = s.1.tracker.window.index :: unread begins s' := by
      rw [unread, unread, hstop]
      exact startsIn_cons hlt hbegins hmove hgap
    have h := hf.replace hs s' [] [⟨i, s.1.tracker.window.index, d.element⟩] f.mishaps
      (hb.reads hfit hread) (by simp) (by simpa using hright) (by simpa using hcut)
    simpa using h
  · next s' hread =>
    exact hkeep _ (hb.reads hfit hread) (RangeReader.window_of_tryNext hread (by simp))
  · next e s' hread =>
    exact hkeep _ (hb.reads hfit hread) (RangeReader.window_of_tryNext hread (by simp))
  · next text s' hread =>
    exact hkeep _ (hb.reads hfit hread) (RangeReader.window_of_tryNext hread (by simp))

theorem shares_propose (hb : Sound b begins isRight limit Fit)
    (hf : f.Shares begins isRight Fit start stop) (hs : f.readers[i]? = some s)
    (proposed : Progress) : (f.propose b i proposed s).Shares begins isRight Fit start stop := by
  have hfit : Fit s.1 := hf.fit s (List.mem_of_getElem? hs)
  unfold propose
  split
  · exact hf
  · next position r hsplit =>
    obtain ⟨offset, -, -, hlo, hhi, -, hr⟩ := RangeReader.trySplit_eq_ok_iff.mp hsplit
    obtain ⟨fresh, hopen, hfresh, hstop, hle, hgap⟩ := hb.opens hhi (hb.stop_le hfit)
    have hwindow : r.tracker.window = ⟨s.1.tracker.window.index, offset⟩ := by
      rw [hr]
    -- The window is cut at the accepted stop, and the fresh reader has skipped no beginning.
    have hcut : unread begins s = unread begins (r, s.2) ++ unread begins (fresh, b.codec) := by
      rw [unread, unread, unread, hwindow, hstop, ← startsIn_skip hle hgap]
      exact (startsIn_append begins (Nat.le_of_lt hlo) (Nat.le_of_lt hhi)).symm
    have h := hf.replace hs (r, s.2) [(fresh, b.codec)] [] f.mishaps (hb.splits hfit hsplit)
      (by simpa using hfresh) (by simp) (by simpa using hcut)
    rw [hwindow, hopen]
    simpa using h

/-- **One move keeps the range shared out.** -/
theorem shares_perform (hb : Sound b begins isRight limit Fit)
    (hf : f.Shares begins isRight Fit start stop) (move : Move) :
    (f.perform b move).Shares begins isRight Fit start stop := by
  cases move with
  | read i =>
      simp only [perform]
      split
      · next s hs => exact shares_read hb hf hs
      · exact hf
  | propose i proposed =>
      simp only [perform]
      split
      · next s hs => exact shares_propose hb hf hs proposed
      · exact hf

/-- **In every state of a fleet the range is shared out.** -/
theorem shares_performAll (hb : Sound b begins isRight limit Fit) (moves : List Move) :
    ∀ {f : Fleet σ α}, f.Shares begins isRight Fit start stop →
      (f.performAll b moves).Shares begins isRight Fit start stop := by
  induction moves with
  | nil => exact fun hf => hf
  | cons move moves ih => exact fun hf => ih (shares_perform hb hf move)

theorem shares_single {r : RangeReader} {c : σ} (hfit : Fit r)
    (hstop : r.tracker.window.stop = stop) (hle : start ≤ r.tracker.window.index)
    (hgap : ∀ o, start ≤ o → o < r.tracker.window.index → begins o = false) :
    Shares (α := α) begins isRight Fit start stop { readers := [(r, c)] } := by
  refine ⟨?_, ?_, ?_⟩
  · simpa using hfit
  · simp
  · simp only [List.map_nil, List.nil_append, List.flatMap_cons, List.flatMap_nil,
      List.append_nil]
    rw [unread, hstop, startsIn_skip hle hgap]

/-- Once nothing is left to read, the records of the range were delivered, each once. -/
theorem Shares.perm_of_isExhausted (hf : f.Shares begins isRight Fit start stop)
    (h : f.IsExhausted) : (f.deliveries.map Delivery.offset).Perm (startsIn begins start stop) := by
  have hnone : f.readers.flatMap (unread begins) = [] := by
    rw [List.flatMap_eq_nil_iff]
    intro s hs
    have hlt : ¬ s.1.tracker.window.index < s.1.tracker.window.stop := by
      rw [← Window.hasNext_iff]
      exact Bool.eq_false_iff.mp (h s hs)
    exact startsIn_of_le begins (Nat.le_of_not_lt hlt)
  have hshared := hf.shared
  rwa [hnone, List.append_nil] at hshared

/-! ## Reading to the end -/

/-- Reads inside the window of a fit reader deliver. -/
def Delivers (b : Base σ α) (Fit : RangeReader → Prop) : Prop :=
  ∀ {r : RangeReader} (c : σ), Fit r → r.tracker.window.index < r.tracker.window.stop →
    ∃ d s', RangeReader.tryNext b.files b.decoder (r, c) = (.value (some d), s')

theorem mishaps_perform (hb : Sound b begins isRight limit Fit) (hread : Delivers b Fit)
    (hf : f.Shares begins isRight Fit start stop) (move : Move) :
    (f.perform b move).mishaps = f.mishaps := by
  cases move with
  | read i =>
      simp only [perform]
      split
      · next s hs =>
        have hfit : Fit s.1 := hf.fit s (List.mem_of_getElem? hs)
        unfold read
        by_cases hlt : s.1.tracker.window.index < s.1.tracker.window.stop
        · obtain ⟨d, s', hnext⟩ := hread s.2 hfit hlt
          rw [hnext]
        · rw [RangeReader.tryNext_of_exhausted b.files b.decoder s.2 (Nat.le_of_not_lt hlt)]
      · rfl
  | propose i proposed =>
      simp only [perform]
      split
      · next s hs =>
        have hfit : Fit s.1 := hf.fit s (List.mem_of_getElem? hs)
        unfold propose
        split
        · rfl
        · next position r hsplit =>
          obtain ⟨offset, -, -, -, hhi, -, hr⟩ := RangeReader.trySplit_eq_ok_iff.mp hsplit
          obtain ⟨fresh, hopen, -⟩ := hb.opens hhi (hb.stop_le hfit)
          rw [hr]
          simp only [hopen]
      · rfl

/-- **Nothing goes wrong in a fleet whose readers deliver.** -/
theorem mishaps_performAll (hb : Sound b begins isRight limit Fit) (hread : Delivers b Fit)
    (moves : List Move) : ∀ {f : Fleet σ α}, f.Shares begins isRight Fit start stop →
      (f.performAll b moves).mishaps = f.mishaps := by
  induction moves with
  | nil => exact fun _ => rfl
  | cons move moves ih =>
      intro f hf
      exact (ih (shares_perform hb hf move)).trans (mishaps_perform hb hread hf move)

theorem Shares.length_deliveries_le (hf : f.Shares begins isRight Fit start stop) :
    f.deliveries.length ≤ (startsIn begins start stop).length := by
  have hlength := hf.shared.length_eq
  rw [List.length_append, List.length_map] at hlength
  omega

/-- As long as a fleet whose readers deliver is not exhausted, some read delivers. -/
theorem exists_read (hread : Delivers b Fit) (hf : f.Shares begins isRight Fit start stop)
    (h : ¬ f.IsExhausted) :
    ∃ i, (f.perform b (.read i)).deliveries.length = f.deliveries.length + 1 := by
  unfold IsExhausted at h
  push Not at h
  obtain ⟨s, hs, hnext⟩ := h
  obtain ⟨i, hi⟩ := List.mem_iff_getElem?.mp hs
  have hlt : s.1.tracker.window.index < s.1.tracker.window.stop :=
    Window.hasNext_iff.mp ((Bool.not_eq_false _).mp hnext)
  obtain ⟨d, s', hdeliver⟩ := hread s.2 (hf.fit s hs) hlt
  refine ⟨i, ?_⟩
  simp only [perform, hi, read, hdeliver, List.length_append, List.length_singleton]

/-- **Reading on exhausts a fleet whose readers deliver.** -/
theorem exists_isExhausted (hb : Sound b begins isRight limit Fit) (hread : Delivers b Fit) :
    ∀ (n : Nat) {f : Fleet σ α}, f.Shares begins isRight Fit start stop →
      (startsIn begins start stop).length ≤ f.deliveries.length + n →
        ∃ moves, (f.performAll b moves).IsExhausted := by
  -- By induction on how many records are left to deliver at most.
  intro n
  induction n with
  | zero =>
      intro f hf hn
      refine ⟨[], by_contra fun h => ?_⟩
      obtain ⟨i, hi⟩ := exists_read hread hf h
      have hle := (shares_perform hb hf (.read i)).length_deliveries_le
      omega
  | succ n ih =>
      intro f hf hn
      by_cases h : f.IsExhausted
      · exact ⟨[], h⟩
      · obtain ⟨i, hi⟩ := exists_read hread hf h
        obtain ⟨moves, hmoves⟩ := ih (shares_perform hb hf (.read i)) (by omega)
        exact ⟨.read i :: moves, hmoves⟩

end Sharing

end Fleet

end SplitReader
