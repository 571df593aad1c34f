import SplitReader.Proofs.Tracker
import SplitReader.TrackerHistory

/-! # Claims stay below splits

Whatever is done to a tracker in whatever order, every offset that a claim hands out lies before
every stop that a split is accepted at: a claim that comes later is made below the lowered stop,
and a split that comes later is accepted only above the index, which has left the claimed offset
behind.

The index itself may pass the stop, since a record that begins before the stop may end behind it.
So it is not the index that is kept below the stop. What is kept is that claims are made at or
behind the index and splits are accepted strictly behind it, and both before the stop (`Apart`).
-/

set_option autoImplicit false

namespace SplitReader

namespace Tracker

variable {ε α : Type}

/-! ## Runs -/

/-- A moment of a run: the tracker before an operation, and the answer to the operation. -/
structure Moment (ε α : Type) where
  before : Tracker
  reply : Reply ε α

def trace (t : Tracker) : List (Action ε α) → List (Moment ε α)
  | [] => []
  | action :: actions => ⟨t, (t.perform action).1⟩ :: (t.perform action).2.trace actions

/-- The offset that was handed out, if the operation is a claim that gave a record. -/
def Moment.claimed? (m : Moment ε α) : Option Nat :=
  match m.reply with
  | .claimed (.value (some _)) => some m.before.window.index
  | _ => none

/-- The stop offset that was accepted, if the operation is a split that was accepted. -/
def Moment.accepted? (m : Moment ε α) : Option Nat :=
  match m.reply with
  | .splitAt (.ok stop) => some stop
  | .split (.ok position) => m.before.kind.offset? position
  | _ => none

/-- The offsets that claims hand out in a run, in order. -/
def claimed (t : Tracker) (actions : List (Action ε α)) : List Nat :=
  (t.trace actions).filterMap Moment.claimed?

/-- The stop offsets that are accepted in a run, in order. -/
def accepted (t : Tracker) (actions : List (Action ε α)) : List Nat :=
  (t.trace actions).filterMap Moment.accepted?

theorem map_reply_trace (actions : List (Action ε α)) :
    ∀ t : Tracker, (t.trace actions).map Moment.reply = (t.performAll actions).1 := by
  induction actions with
  | nil => exact fun _ => rfl
  | cons action actions ih =>
      intro t
      rw [trace, List.map_cons, ih]
      rfl

/-! ## What one operation does -/

/-- What an operation answers, and where it leaves the tracker. -/
inductive Performed (t : Tracker) : Action ε α → Reply ε α → Tracker → Prop where
  | claimed {read : Nat → Outcome ε (α × Nat)} {a : α} {following : Nat}
      (hlt : t.window.index < t.window.stop) (hmove : t.window.index < following)
      (hread : read t.window.index = .value (a, following)) :
      Performed t (.claim read) (.claimed (.value (some a)))
        { t with window := ⟨following, t.window.stop⟩ }
  | accepted {action : Action ε α} {reply : Reply ε α} {offset : Nat}
      (hlo : t.window.index < offset) (hhi : offset < t.window.stop)
      (hclaimed : (⟨t, reply⟩ : Moment ε α).claimed? = none)
      (haccepted : (⟨t, reply⟩ : Moment ε α).accepted? = some offset) :
      Performed t action reply { t with window := ⟨t.window.index, offset⟩ }
  | unmoved {action : Action ε α} {reply : Reply ε α} (crashed : Bool)
      (hclaimed : (⟨t, reply⟩ : Moment ε α).claimed? = none)
      (haccepted : (⟨t, reply⟩ : Moment ε α).accepted? = none) :
      Performed t action reply { t with crashed }

theorem performed_claim (t : Tracker) (read : Nat → Outcome ε (α × Nat)) :
    Performed t (.claim read) (t.perform (.claim read)).1 (t.perform (.claim read)).2 := by
  by_cases hlt : t.window.index < t.window.stop
  · simp only [perform, claim_of_lt _ _ hlt]
    rcases hread : read t.window.index with ⟨a, following⟩ | e | text
    · by_cases hmove : t.window.index < following
      · simp only [if_pos hmove]
        exact .claimed hlt hmove hread
      · simp only [if_neg hmove]
        exact .unmoved true rfl rfl
    · exact .unmoved t.crashed rfl rfl
    · exact .unmoved true rfl rfl
  · simp only [perform, claim_of_exhausted _ _ (Nat.le_of_not_lt hlt)]
    exact .unmoved t.crashed rfl rfl

/-- **What an operation does to a window**: a claim that gives a record moves the index forward,
an accepted split moves the stop to an offset strictly inside the window, and nothing else moves
either. -/
theorem performed (t : Tracker) (action : Action ε α) :
    Performed t action (t.perform action).1 (t.perform action).2 := by
  cases action with
  | claim read => exact performed_claim t read
  | splitAt proposed =>
      simp only [perform]
      split
      · next stop t' hsplit =>
        obtain ⟨hlo, hhi, rfl, rfl⟩ := splitAt_eq_ok_iff.mp hsplit
        exact .accepted hlo hhi rfl rfl
      · exact .unmoved t.crashed rfl rfl
  | split proposed =>
      simp only [perform]
      split
      · next position t' hsplit =>
        obtain ⟨offset, hword, -, hlo, hhi, rfl, rfl⟩ := split_eq_ok_iff.mp hsplit
        exact .accepted hlo hhi rfl (OffsetKind.offset?_eq_some_iff.mpr ⟨hword, rfl⟩)
      · exact .unmoved t.crashed rfl rfl
  | hasNext => exact .unmoved t.crashed rfl rfl
  | progress => exact .unmoved t.crashed rfl rfl
  | snapshot => exact .unmoved t.crashed rfl rfl

/-! ## What a run does -/

@[simp] theorem claimed_nil (t : Tracker) : t.claimed ([] : List (Action ε α)) = [] := rfl

@[simp] theorem accepted_nil (t : Tracker) : t.accepted ([] : List (Action ε α)) = [] := rfl

theorem claimed_cons (t : Tracker) (action : Action ε α) (actions : List (Action ε α)) :
    t.claimed (action :: actions) =
      (⟨t, (t.perform action).1⟩ : Moment ε α).claimed?.toList ++
        (t.perform action).2.claimed actions := by
  rw [claimed, trace, List.filterMap_cons]
  cases (⟨t, (t.perform action).1⟩ : Moment ε α).claimed? <;> rfl

theorem accepted_cons (t : Tracker) (action : Action ε α) (actions : List (Action ε α)) :
    t.accepted (action :: actions) =
      (⟨t, (t.perform action).1⟩ : Moment ε α).accepted?.toList ++
        (t.perform action).2.accepted actions := by
  rw [accepted, trace, List.filterMap_cons]
  cases (⟨t, (t.perform action).1⟩ : Moment ε α).accepted? <;> rfl

/-- The claims and splits of a run that starts with a window keep apart: both lie in the window, the
splits strictly, the claims move on, and every claim is below every split. -/
structure Apart (w : Window) (claims splits : List Nat) : Prop where
  claims_mem : ∀ c ∈ claims, w.index ≤ c ∧ c < w.stop
  splits_mem : ∀ p ∈ splits, w.index < p ∧ p < w.stop
  increasing : claims.Pairwise (· < ·)
  below : ∀ c ∈ claims, ∀ p ∈ splits, c < p

section Steps

variable {index stop : Nat} {claims splits : List Nat}

/-- A claim may come first: what follows is behind the index, which has passed it. -/
theorem Apart.claim {following : Nat} (h : Apart ⟨following, stop⟩ claims splits)
    (hlt : index < stop) (hmove : index < following) :
    Apart ⟨index, stop⟩ (index :: claims) splits := by
  have hclaims : ∀ c ∈ claims, index < c ∧ c < stop := fun c hc =>
    ⟨Nat.lt_of_lt_of_le hmove (h.claims_mem c hc).1, (h.claims_mem c hc).2⟩
  have hsplits : ∀ p ∈ splits, index < p ∧ p < stop := fun p hp =>
    ⟨Nat.lt_trans hmove (h.splits_mem p hp).1, (h.splits_mem p hp).2⟩
  refine ⟨fun c hc => ?_, hsplits, h.increasing.cons fun c hc => (hclaims c hc).1,
    fun c hc p hp => ?_⟩
  · rcases List.mem_cons.mp hc with rfl | hc
    · exact ⟨Nat.le_refl _, hlt⟩
    · exact ⟨Nat.le_of_lt (hclaims c hc).1, (hclaims c hc).2⟩
  · rcases List.mem_cons.mp hc with rfl | hc
    · exact (hsplits p hp).1
    · exact h.below c hc p hp

/-- A split may come first: what follows is before the stop, which it has lowered. -/
theorem Apart.split {offset : Nat} (h : Apart ⟨index, offset⟩ claims splits)
    (hlo : index < offset) (hhi : offset < stop) :
    Apart ⟨index, stop⟩ claims (offset :: splits) := by
  refine ⟨fun c hc => ?_, fun p hp => ?_, h.increasing, fun c hc p hp => ?_⟩
  · exact ⟨(h.claims_mem c hc).1, Nat.lt_trans (h.claims_mem c hc).2 hhi⟩
  · rcases List.mem_cons.mp hp with rfl | hp
    · exact ⟨hlo, hhi⟩
    · exact ⟨(h.splits_mem p hp).1, Nat.lt_trans (h.splits_mem p hp).2 hhi⟩
  · rcases List.mem_cons.mp hp with rfl | hp
    · exact (h.claims_mem c hc).2
    · exact h.below c hc p hp

end Steps

/-- **The claims and splits of every run keep apart.** -/
theorem apart (actions : List (Action ε α)) :
    ∀ t : Tracker, Apart t.window (t.claimed actions) (t.accepted actions) := by
  induction actions with
  | nil =>
      intro t
      rw [claimed_nil, accepted_nil]
      exact ⟨by simp, by simp, List.Pairwise.nil, by simp⟩
  | cons action actions ih =>
      intro t
      rw [claimed_cons, accepted_cons]
      have hrest := ih (t.perform action).2
      have hstep := performed t action
      generalize (t.perform action).1 = reply, (t.perform action).2 = t' at hstep hrest ⊢
      cases hstep with
      | claimed hlt hmove hread => exact hrest.claim hlt hmove
      | accepted hlo hhi hclaimed haccepted =>
          rw [hclaimed, haccepted]
          exact hrest.split hlo hhi
      | unmoved crashed hclaimed haccepted =>
          rw [hclaimed, haccepted]
          exact hrest

/-- **Claims and splits keep apart in every run.** Whatever is done to a fresh tracker, with readers
that give a record, fail, crash or do not move forward, and with any proposals: the offsets that
claims hand out are strictly increasing and lie in the range, and every one of them is below every
stop that was accepted in the run, whichever of the two came first. -/
theorem claimed_lt_accepted (kind : OffsetKind) (start stop : Nat) (actions : List (Action ε α)) :
    let t := new kind start stop
    (t.claimed actions).Pairwise (· < ·) ∧
      (∀ c ∈ t.claimed actions, start ≤ c ∧ c < stop) ∧
      ∀ c ∈ t.claimed actions, ∀ p ∈ t.accepted actions, c < p :=
  have h := apart actions (new kind start stop)
  ⟨h.increasing, h.claims_mem, h.below⟩

/-- A record of eight offsets is claimed past a stop that was accepted before it, between reads that
fail, crash and stand still and splits that are refused. -/
def longRecord : List (Action String Nat) :=
  [.claim fun i => .value (i, i + 1), .claim fun _ => .failed "torn", .splitAt 1, .splitAt 6,
    .claim fun i => .value (i, i), .split (.ofPosition (.byteOffset 4)), .hasNext,
    .claim fun _ => .crashed "torn", .claim fun i => .value (i, i + 8), .splitAt 9, .progress,
    .claim fun i => .value (i, i + 1)]

/-- The index ends at nine with the stop at four, and the claims are below both splits. -/
theorem claimed_lt_accepted_longRecord :
    let t := new .byteOffset 0 10
    t.claimed longRecord = [0, 1] ∧ t.accepted longRecord = [6, 4] ∧
      (t.performAll longRecord).2.window = ⟨9, 4⟩ ∧
      ∀ c ∈ t.claimed longRecord, ∀ p ∈ t.accepted longRecord, c < p :=
  ⟨by rfl, by rfl, by rfl, (claimed_lt_accepted .byteOffset 0 10 longRecord).2.2⟩

end Tracker

end SplitReader
