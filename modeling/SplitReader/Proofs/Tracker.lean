import SplitReader.Tracker

/-! # Claims and splits, from outside

What a claim and a split can do to a window, said once for every caller: a split is accepted
exactly if it names an offset of the right kind strictly inside the window, and then lowers the
stop to it and does nothing else; a claim that gives a record has moved the index forward, and
every other claim leaves the window as it was.
-/

set_option autoImplicit false

namespace SplitReader

/-! ## Offsets and positions -/

/-- A position names an offset exactly if it is the position of that offset, and offsets of
positions are words. -/
theorem OffsetKind.offset?_eq_some_iff {kind : OffsetKind} {position : Position} {offset : Nat} :
    kind.offset? position = some offset ↔
      offset < UInt64.size ∧ position = kind.position offset := by
  have word : ∀ p : UInt64, p.toNat = offset ↔ offset < UInt64.size ∧ p = UInt64.ofNat offset := by
    intro p
    constructor
    · rintro rfl
      exact ⟨p.toNat_lt, p.ofNat_toNat.symm⟩
    · rintro ⟨h, rfl⟩
      exact UInt64.toNat_ofNat_of_lt' h
  cases kind <;> cases position <;>
    simp [OffsetKind.offset?, OffsetKind.position, Position.recordIndex?, Position.byteOffset?,
      word]

/-! ## Windows -/

namespace Window

theorem hasNext_iff {w : Window} : w.hasNext = true ↔ w.index < w.stop := by
  simp [hasNext]

theorem splitAt_eq_ok_iff {proposed : Nat} {w w' : Window} :
    w.splitAt proposed = .ok w' ↔
      w.index < proposed ∧ proposed < w.stop ∧ w' = ⟨w.index, proposed⟩ := by
  unfold splitAt
  split
  · simp only [reduceCtorEq, false_iff]
    omega
  · split
    · simp only [reduceCtorEq, false_iff]
      omega
    · rw [Except.ok.injEq, eq_comm]
      constructor
      · intro h
        exact ⟨by omega, by omega, h⟩
      · exact fun h => h.2.2

/-- A proposal is accepted exactly if it names an offset of the right kind strictly inside the
window. -/
theorem split_eq_ok_iff {kind : OffsetKind} {proposed : Progress} {w w' : Window} :
    w.split kind proposed = .ok w' ↔
      ∃ offset, offset < UInt64.size ∧ proposed.position = some (kind.position offset) ∧
        w.index < offset ∧ offset < w.stop ∧ w' = ⟨w.index, offset⟩ := by
  unfold split
  cases hp : proposed.position with
  | none => simp
  | some position =>
      simp only [Option.some.injEq]
      cases ho : kind.offset? position with
      | none =>
          simp only [reduceCtorEq, false_iff]
          rintro ⟨offset, hword, rfl, -⟩
          rw [OffsetKind.offset?_eq_some_iff.mpr ⟨hword, rfl⟩] at ho
          cases ho
      | some offset =>
          obtain ⟨hword, rfl⟩ := OffsetKind.offset?_eq_some_iff.mp ho
          simp only [splitAt_eq_ok_iff]
          constructor
          · intro h
            exact ⟨offset, hword, rfl, h⟩
          · rintro ⟨other, hother, hpos, h⟩
            have hsame : kind.offset? (kind.position offset) = some other :=
              OffsetKind.offset?_eq_some_iff.mpr ⟨hother, hpos⟩
            rw [ho] at hsame
            cases hsame
            exact h

end Window

/-! ## Trackers -/

namespace Tracker

variable {ε α ρ : Type}

theorem splitAt_eq_ok_iff {proposed stop : Nat} {t t' : Tracker} :
    t.splitAt proposed = .ok (stop, t') ↔
      t.window.index < proposed ∧ proposed < t.window.stop ∧ stop = proposed ∧
        t' = { t with window := ⟨t.window.index, proposed⟩ } := by
  unfold splitAt
  constructor
  · intro h
    cases hw : t.window.splitAt proposed with
    | error e => rw [hw] at h; cases h
    | ok w =>
        obtain ⟨hlo, hhi, rfl⟩ := Window.splitAt_eq_ok_iff.mp hw
        rw [hw] at h
        cases h
        exact ⟨hlo, hhi, rfl, rfl⟩
  · rintro ⟨hlo, hhi, rfl, rfl⟩
    rw [Window.splitAt_eq_ok_iff.mpr ⟨hlo, hhi, rfl⟩]
    rfl

theorem split_eq_ok_iff {proposed : Progress} {t t' : Tracker} {position : Position} :
    t.split proposed = .ok (position, t') ↔
      ∃ offset, offset < UInt64.size ∧ proposed.position = some (t.kind.position offset) ∧
        t.window.index < offset ∧ offset < t.window.stop ∧ position = t.kind.position offset ∧
        t' = { t with window := ⟨t.window.index, offset⟩ } := by
  unfold split
  constructor
  · intro h
    cases hw : t.window.split t.kind proposed with
    | error e => rw [hw] at h; cases h
    | ok w =>
        obtain ⟨offset, hword, hpos, hlo, hhi, rfl⟩ := Window.split_eq_ok_iff.mp hw
        rw [hw] at h
        cases h
        exact ⟨offset, hword, hpos, hlo, hhi, rfl, rfl⟩
  · rintro ⟨offset, hword, hpos, hlo, hhi, rfl, rfl⟩
    rw [Window.split_eq_ok_iff.mpr ⟨offset, hword, hpos, hlo, hhi, rfl⟩]
    rfl

theorem claim_of_exhausted (read : Nat → ρ → Outcome ε (α × Nat) × ρ) {t : Tracker} (r : ρ)
    (h : t.window.stop ≤ t.window.index) : t.claim read r = (.value none, t, r) := by
  have hnext : ¬ t.hasNext = true := by
    rw [hasNext, Window.hasNext_iff]
    omega
  rw [claim, if_neg hnext]

/-- Inside the window a claim does what its reader says. -/
theorem claim_of_lt (read : Nat → ρ → Outcome ε (α × Nat) × ρ) {t : Tracker} (r : ρ)
    (h : t.window.index < t.window.stop) :
    t.claim read r =
      match read t.window.index r with
      | (.value (a, following), r) =>
          if t.window.index < following then
            (.value (some a), { t with window := ⟨following, t.window.stop⟩ }, r)
          else
            (.crashed standstill, { t with crashed := true }, r)
      | (.failed e, r) => (.failed e, t, r)
      | (.crashed text, r) => (.crashed text, { t with crashed := true }, r) := by
  have hnext : t.hasNext = true := Window.hasNext_iff.mpr h
  unfold claim
  exact if_pos hnext

theorem stop_claim (read : Nat → ρ → Outcome ε (α × Nat) × ρ) (t : Tracker) (r : ρ) :
    (t.claim read r).2.1.kind = t.kind ∧ (t.claim read r).2.1.window.stop = t.window.stop := by
  by_cases hlt : t.window.index < t.window.stop
  · rw [claim_of_lt read r hlt]
    rcases read t.window.index r with ⟨⟨a, following⟩ | e | text, r'⟩
    · by_cases hmove : t.window.index < following
      · simp only [if_pos hmove, and_self]
      · simp only [if_neg hmove, and_self]
    · exact ⟨rfl, rfl⟩
    · exact ⟨rfl, rfl⟩
  · rw [claim_of_exhausted read r (Nat.le_of_not_lt hlt)]
    exact ⟨rfl, rfl⟩

end Tracker

end SplitReader
