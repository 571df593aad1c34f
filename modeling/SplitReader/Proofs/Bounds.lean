import SplitReader.Bounds

/-! # Which bounds name a range

A missing start counts as zero and a missing end as the length. Bounds are accepted exactly if the
start is not negative and the end is not before the start as lowered to the length, and then name
the range between the two, each lowered to the length. Bounds that already lie in order inside the
sequence name exactly the range between them, and so do word offsets inside a file whose length is
a signed word.
-/

set_option autoImplicit false

namespace SplitReader

theorem resolveStart_eq_ok_iff {length first : Nat} {start : Option Int} :
    resolveStart length start = .ok first ↔
      0 ≤ start.getD 0 ∧ (first : Int) = min (start.getD 0) length := by
  cases start with
  | none =>
      simp only [resolveStart, Except.ok.injEq, Option.getD_none]
      omega
  | some n =>
      simp only [resolveStart, Option.getD_some]
      split
      · simp only [reduceCtorEq, false_iff]
        omega
      · simp only [Except.ok.injEq]
        omega

theorem resolveStop_eq_ok_iff {length first past : Nat} {stop : Option Int}
    (hfirst : first ≤ length) :
    resolveStop length first stop = .ok past ↔
      (first : Int) ≤ stop.getD length ∧ (past : Int) = min (stop.getD length) length := by
  cases stop with
  | none =>
      simp only [resolveStop, Except.ok.injEq, Option.getD_none]
      omega
  | some n =>
      simp only [resolveStop, Option.getD_some]
      split
      · simp only [reduceCtorEq, false_iff]
        omega
      · simp only [Except.ok.injEq]
        omega

/-- **The range that bounds name**, and when they name one. -/
theorem resolveBounds_eq_ok_iff {length first past : Nat} {start stop : Option Int} :
    resolveBounds length start stop = .ok (first, past) ↔
      0 ≤ start.getD 0 ∧ (first : Int) = min (start.getD 0) length ∧
        (first : Int) ≤ stop.getD length ∧ (past : Int) = min (stop.getD length) length := by
  unfold resolveBounds
  cases hstart : resolveStart length start with
  | error e =>
      simp only [bind, Except.bind, reduceCtorEq, false_iff]
      rintro ⟨h0, hfirst, -⟩
      rw [resolveStart_eq_ok_iff.mpr ⟨h0, hfirst⟩] at hstart
      cases hstart
  | ok low =>
      obtain ⟨h0, hlow⟩ := resolveStart_eq_ok_iff.mp hstart
      have hle : low ≤ length := by omega
      simp only [bind, Except.bind]
      cases hstop : resolveStop length low stop with
      | error e =>
          simp only [reduceCtorEq, false_iff]
          rintro ⟨-, hfirst, hstop1, hstop2⟩
          have hsame : first = low := by omega
          subst hsame
          rw [(resolveStop_eq_ok_iff hle).mpr ⟨hstop1, hstop2⟩] at hstop
          cases hstop
      | ok high =>
          obtain ⟨h1, hhigh⟩ := (resolveStop_eq_ok_iff hle).mp hstop
          simp only [pure, Except.pure, Except.ok.injEq, Prod.mk.injEq]
          omega

/-- A resolved range lies in order inside the sequence. -/
theorem le_of_resolveBounds {length first past : Nat} {start stop : Option Int}
    (h : resolveBounds length start stop = .ok (first, past)) : first ≤ past ∧ past ≤ length := by
  obtain ⟨h0, h1, h2, h3⟩ := resolveBounds_eq_ok_iff.mp h
  omega

theorem resolveBounds_of_le {length first past : Nat} (h : first ≤ past) (hpast : past ≤ length) :
    resolveBounds length (some first) (some past) = .ok (first, past) := by
  rw [resolveBounds_eq_ok_iff]
  simp only [Option.getD_some]
  omega

theorem signedBound_ofNat {n : Nat} (h : n < Word.signedBound) :
    signedBound (UInt64.ofNat n) = n := by
  have hsize : n < UInt64.size := by
    have := Word.two_signedBound
    omega
  unfold signedBound
  rw [UInt64.toNat_ofNat_of_lt' hsize]
  unfold maxSignedWord
  omega

theorem resolveOffsets_of_le {length first past : Nat} (h : first ≤ past) (hpast : past ≤ length)
    (hlength : length < Word.signedBound) :
    resolveOffsets length (some (UInt64.ofNat first)) (some (UInt64.ofNat past)) =
      .ok (first, past) := by
  unfold resolveOffsets
  simp only [Option.map_some]
  rw [signedBound_ofNat (by omega), signedBound_ofNat (by omega)]
  exact resolveBounds_of_le h hpast

end SplitReader
