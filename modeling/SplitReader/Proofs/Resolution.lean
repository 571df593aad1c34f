import SplitReader.Proofs.Bounds
import SplitReader.Source.Memory
import SplitReader.Source.TextFile

/-! # Which bounds are refused

Bounds are refused for one of two reasons, and for the first of them that applies: the start is
negative, or the end lies before the start as it was lowered to the length (`RefusedFor`). The end
itself is compared as it was given, so a negative end is before every start.

The offsets of a file are words without a sign and are lowered to the largest signed word before
they are resolved. In a file whose length is a signed word this is never seen: a bound that was
lowered lay beyond the length already, and an end that is refused was not lowered, so its refusal
names the offset that was given (`bounds_resolved`).
-/

set_option autoImplicit false

namespace SplitReader

/-! ## Refusals -/

/-- The reason for which bounds are refused over a sequence of some length. -/
inductive RefusedFor (length : Nat) : Option Int → Option Int → BoundsError → Prop where
  /-- The start is negative, whatever the end is. -/
  | negativeStart {start : Int} {stop : Option Int} (hneg : start < 0) :
      RefusedFor length (some start) stop (.negativeStart start)
  /-- The end lies before the start, which counts as lowered to the length. -/
  | endBeforeStart {start : Option Int} {stop : Int} {first : Nat} (hstart : 0 ≤ start.getD 0)
      (hfirst : (first : Int) = min (start.getD 0) length) (hbefore : stop < first) :
      RefusedFor length start (some stop) (.endBeforeStart stop first)

variable {length first past : Nat} {start stop : Option Int} {e : BoundsError}

theorem resolveStart_eq_error_iff :
    resolveStart length start = .error e ↔ ∃ n < 0, start = some n ∧ e = .negativeStart n := by
  cases start with
  | none => simp [resolveStart]
  | some n =>
      simp only [resolveStart, Option.some.injEq]
      split
      · next hneg =>
        constructor
        · rintro ⟨⟩
          exact ⟨n, hneg, rfl, rfl⟩
        · rintro ⟨m, -, rfl, rfl⟩
          rfl
      · next hstart =>
        simp only [reduceCtorEq, false_iff]
        rintro ⟨m, hneg, rfl, -⟩
        exact hstart hneg

theorem resolveStop_eq_error_iff :
    resolveStop length first stop = .error e ↔
      ∃ n, n < (first : Int) ∧ stop = some n ∧ e = .endBeforeStart n first := by
  cases stop with
  | none => simp [resolveStop]
  | some n =>
      simp only [resolveStop, Option.some.injEq]
      split
      · next hbefore =>
        constructor
        · rintro ⟨⟩
          exact ⟨n, hbefore, rfl, rfl⟩
        · rintro ⟨m, -, rfl, rfl⟩
          rfl
      · next hstop =>
        simp only [reduceCtorEq, false_iff]
        rintro ⟨m, hbefore, rfl, -⟩
        exact hstop hbefore

/-- **Bounds are refused for the first reason that applies.** -/
theorem resolveBounds_eq_error_iff :
    resolveBounds length start stop = .error e ↔ RefusedFor length start stop e := by
  unfold resolveBounds
  constructor
  · intro h
    cases hstart : resolveStart length start with
    | error e' =>
        obtain ⟨n, hneg, rfl, rfl⟩ := resolveStart_eq_error_iff.mp hstart
        rw [hstart] at h
        cases h
        exact .negativeStart hneg
    | ok low =>
        obtain ⟨h0, hlow⟩ := resolveStart_eq_ok_iff.mp hstart
        rw [hstart] at h
        cases hstop : resolveStop length low stop with
        | ok high =>
            simp only [bind, Except.bind, hstop] at h
            cases h
        | error e' =>
            obtain ⟨n, hbefore, rfl, rfl⟩ := resolveStop_eq_error_iff.mp hstop
            simp only [bind, Except.bind, hstop] at h
            cases h
            exact .endBeforeStart h0 hlow hbefore
  · rintro (hneg | ⟨h0, hlow, hbefore⟩)
    · rw [resolveStart_eq_error_iff.mpr ⟨_, hneg, rfl, rfl⟩]
      rfl
    · rw [resolveStart_eq_ok_iff.mpr ⟨h0, hlow⟩]
      simp only [bind, Except.bind, resolveStop_eq_error_iff.mpr ⟨_, hbefore, rfl, rfl⟩]

/-- When there is a reason to refuse bounds. A missing end is none: it is the length. -/
theorem exists_refusedFor_iff :
    (∃ e, RefusedFor length start stop e) ↔
      start.getD 0 < 0 ∨ stop.getD length < min (start.getD 0) length := by
  constructor
  · rintro ⟨e, hneg | ⟨h0, hlow, hbefore⟩⟩
    · exact Or.inl hneg
    · right
      rw [Option.getD_some, ← hlow]
      exact hbefore
  · intro h
    by_cases hneg : start.getD 0 < 0
    · cases start with
      | none => exact absurd hneg (Int.lt_irrefl 0)
      | some n => exact ⟨_, .negativeStart hneg⟩
    · have hbefore := h.resolve_left hneg
      cases stop with
      | none =>
          rw [Option.getD_none] at hbefore
          omega
      | some n =>
          rw [Option.getD_some] at hbefore
          have hlow : ((min (start.getD 0) length).toNat : Int) = min (start.getD 0) length := by
            omega
          exact ⟨_, .endBeforeStart (Int.le_of_not_gt hneg) hlow (hlow ▸ hbefore)⟩

/-! ## Offsets of files -/

/-- An unsigned offset as a bound, as it is. -/
def unsignedBound (offset : UInt64) : Int := offset.toNat

/-- Lowering a start to a bound beyond the length leaves what it names. -/
theorem resolveStart_lowered {bound : Nat} (hbound : length ≤ bound) (n : Nat) :
    resolveStart length (some (min (n : Int) bound)) = resolveStart length (some n) := by
  simp only [resolveStart]
  rw [if_neg (by omega), if_neg (by omega)]
  congr 1
  omega

/-- Lowering an end to a bound beyond the length leaves what it names, and an end that is refused is
not lowered at all. -/
theorem resolveStop_lowered {bound : Nat} (hbound : length ≤ bound) (hfirst : first ≤ length)
    (n : Nat) :
    resolveStop length first (some (min (n : Int) bound)) = resolveStop length first (some n) := by
  simp only [resolveStop]
  by_cases hbefore : n < first
  · have hsame : min (n : Int) bound = n := by omega
    rw [hsame]
  · rw [if_neg (by omega), if_neg (by omega)]
    congr 1
    omega

/-- **Offsets that are lowered to a signed word name what the offsets themselves name**, or are
refused as they are. -/
theorem resolveOffsets_eq (hlength : length < Word.signedBound) (start stop : Option UInt64) :
    resolveOffsets length start stop =
      resolveBounds length (start.map unsignedBound) (stop.map unsignedBound) := by
  have hbound : length ≤ maxSignedWord := Nat.le_sub_one_of_lt hlength
  have hstart : resolveStart length (start.map signedBound) =
      resolveStart length (start.map unsignedBound) := by
    cases start with
    | none => rfl
    | some offset => exact resolveStart_lowered hbound offset.toNat
  have hstop : ∀ first ≤ length, resolveStop length first (stop.map signedBound) =
      resolveStop length first (stop.map unsignedBound) := by
    intro first hfirst
    cases stop with
    | none => rfl
    | some offset => exact resolveStop_lowered hbound hfirst offset.toNat
  unfold resolveOffsets resolveBounds
  rw [hstart]
  cases hlow : resolveStart length (start.map unsignedBound) with
  | error e => rfl
  | ok low =>
      have hle : low ≤ length := by
        obtain ⟨-, hlow⟩ := resolveStart_eq_ok_iff.mp hlow
        omega
      simp only [bind, Except.bind, hstop low hle]

/-- The only reason to refuse bounds without a sign is an end before the start. -/
theorem refusedFor_unsigned_iff {start stop : Option UInt64} :
    RefusedFor length (start.map unsignedBound) (stop.map unsignedBound) e ↔
      ∃ offset first, stop = some offset ∧ first = min (start.elim 0 UInt64.toNat) length ∧
        offset.toNat < first ∧ e = .endBeforeStart offset.toNat first := by
  have hstart : (start.map unsignedBound).getD 0 = (start.elim 0 UInt64.toNat : Nat) := by
    cases start <;> rfl
  constructor
  · intro h
    generalize hlow : start.map unsignedBound = low at h hstart
    generalize hhigh : stop.map unsignedBound = high at h
    cases h with
    | negativeStart hneg =>
        rw [Option.getD_some] at hstart
        omega
    | endBeforeStart h0 hfirst hbefore =>
        obtain ⟨offset, rfl, rfl⟩ := Option.map_eq_some_iff.mp hhigh
        exact ⟨offset, _, rfl, by omega, Int.ofNat_lt.mp hbefore, rfl⟩
  · rintro ⟨offset, first, rfl, hfirst, hbefore, rfl⟩
    exact .endBeforeStart (by omega) (by omega) (Int.ofNat_lt.mpr hbefore)

/-! ## Sources -/

theorem MemorySource.new_eq_error_iff {records : List (List UInt8)} {fault : SourceError} :
    new records start stop = .error fault ↔
      ∃ e, RefusedFor records.length start stop e ∧ fault = .invalidArgument (.bounds e) := by
  simp only [← resolveBounds_eq_error_iff]
  unfold new
  cases resolveBounds records.length start stop with
  | ok range => simp
  | error e => simp [eq_comm]

namespace TextSource

variable {files : Files} {path : String} {file : Nat} {node : FileNode} {low high : Option UInt64}

theorem new_eq_ok_iff {s : TextSource} (hlookup : files.lookup path = .ok (file, node)) :
    new files path low high = .ok s ↔
      resolveOffsets node.length low high = .ok (s.start, s.stop) ∧ s.path = path := by
  unfold new
  rw [hlookup]
  simp only [ofLength]
  obtain ⟨p, first, past⟩ := s
  cases resolveOffsets node.length low high with
  | error e => simp
  | ok range =>
      obtain ⟨a, b⟩ := range
      simp only [Except.ok.injEq, TextSource.mk.injEq, Prod.mk.injEq]
      constructor
      · rintro ⟨rfl, rfl, rfl⟩
        exact ⟨⟨rfl, rfl⟩, rfl⟩
      · rintro ⟨⟨rfl, rfl⟩, rfl⟩
        exact ⟨rfl, rfl, rfl⟩

theorem new_eq_error_iff {fault : SourceError} (hlookup : files.lookup path = .ok (file, node)) :
    new files path low high = .error fault ↔
      ∃ e, resolveOffsets node.length low high = .error e ∧
        fault = .invalidArgument (.bounds e) := by
  unfold new
  rw [hlookup]
  simp only [ofLength]
  cases resolveOffsets node.length low high with
  | ok range => simp
  | error e => simp [eq_comm]

end TextSource

/-- **What bounds name, and when they are refused.** Over a sequence of any length, bounds are
refused exactly if the start is negative or the end lies before the start as lowered to the length,
where a missing start counts as zero and a missing end as the length. The first of the two reasons
is given, and a list reports it as an invalid argument. All other bounds name the range between
them, each lowered to the length, and this range lies in order inside the sequence.

In a file whose length is a signed word, bounds without a sign of any size name a range by the same
rule, with the offsets as they are. They are refused exactly if the end lies before the start as
lowered to the length, and the refusal names the end as it was given. -/
theorem bounds_resolved :
    (∀ (length : Nat) (start stop : Option Int),
      let low := min (start.getD 0) length
      let high := min (stop.getD length) length
      ((∃ e, resolveBounds length start stop = .error e) ↔
          start.getD 0 < 0 ∨ stop.getD length < low) ∧
        (∀ e, resolveBounds length start stop = .error e ↔ RefusedFor length start stop e) ∧
        (0 ≤ start.getD 0 → low ≤ stop.getD length → ∃ first past : Nat,
          resolveBounds length start stop = .ok (first, past) ∧
            (first : Int) = low ∧ (past : Int) = high ∧ first ≤ past ∧ past ≤ length)) ∧
    (∀ (records : List (List UInt8)) (start stop : Option Int) (fault : SourceError),
      MemorySource.new records start stop = .error fault ↔
        ∃ e, RefusedFor records.length start stop e ∧ fault = .invalidArgument (.bounds e)) ∧
    ∀ (files : Files) (path : String) (file : Nat) (node : FileNode),
      files.lookup path = .ok (file, node) → node.length < Word.signedBound →
      ∀ start stop : Option UInt64,
        (∀ s, TextSource.new files path start stop = .ok s ↔
          resolveBounds node.length (start.map unsignedBound) (stop.map unsignedBound) =
            .ok (s.start, s.stop) ∧ s.path = path) ∧
        ∀ fault, TextSource.new files path start stop = .error fault ↔
          ∃ offset first, stop = some offset ∧
            first = min (start.elim 0 UInt64.toNat) node.length ∧ offset.toNat < first ∧
            fault = .invalidArgument (.bounds (.endBeforeStart offset.toNat first)) := by
  refine ⟨fun length start stop => ?_, fun records start stop fault =>
    MemorySource.new_eq_error_iff, fun files path file node hlookup hlength start stop => ?_⟩
  · intro low high
    refine ⟨?_, fun e => resolveBounds_eq_error_iff, fun h0 hle => ?_⟩
    · simp only [resolveBounds_eq_error_iff]
      exact exists_refusedFor_iff
    · have hlow : (low.toNat : Int) = low := by omega
      have hhigh : (high.toNat : Int) = high := by omega
      have hresolved : resolveBounds length start stop = .ok (low.toNat, high.toNat) :=
        resolveBounds_eq_ok_iff.mpr ⟨h0, hlow, hlow ▸ hle, hhigh⟩
      exact ⟨_, _, hresolved, hlow, hhigh, le_of_resolveBounds hresolved⟩
  · have hsame := resolveOffsets_eq hlength start stop
    refine ⟨fun s => ?_, fun fault => ?_⟩
    · rw [TextSource.new_eq_ok_iff hlookup, hsame]
    · rw [TextSource.new_eq_error_iff hlookup, hsame]
      simp only [resolveBounds_eq_error_iff, refusedFor_unsigned_iff]
      constructor
      · rintro ⟨e, ⟨offset, first, hstop, hfirst, hbefore, rfl⟩, rfl⟩
        exact ⟨offset, first, hstop, hfirst, hbefore, rfl⟩
      · rintro ⟨offset, first, hstop, hfirst, hbefore, rfl⟩
        exact ⟨_, ⟨offset, first, hstop, hfirst, hbefore, rfl⟩, rfl⟩

/-- In a file of three bytes the largest word is lowered as a start, and refused as a start before
an end of two bytes, which is named; as an end it is lowered, too. In a list of three records an end
is refused for being negative although the start is missing. -/
theorem bounds_resolved_largestWord :
    let files : Files := { nodes := [.regular [97, 98, 10]], names := [("log", 0)] }
    let largest : UInt64 := 18446744073709551615
    TextSource.new files "log" (some largest) (some largest) = .ok ⟨"log", 3, 3⟩ ∧
      TextSource.new files "log" (some largest) (some 2) =
        .error (.invalidArgument (.bounds (.endBeforeStart 2 3))) ∧
      MemorySource.new [[], [], []] none (some (-1)) =
        .error (.invalidArgument (.bounds (.endBeforeStart (-1) 0))) := by
  intro files largest
  have hlookup : files.lookup "log" = .ok (0, .regular [97, 98, 10]) := by
    simp [files, Files.lookup, Files.number?, Files.node]
  obtain ⟨-, hlist, hfile⟩ := bounds_resolved
  have hword := hfile files "log" 0 _ hlookup (by decide)
  refine ⟨?_, ?_, ?_⟩
  · exact ((hword (some largest) (some largest)).1 ⟨"log", 3, 3⟩).mpr ⟨rfl, rfl⟩
  · exact ((hword (some largest) (some 2)).2 _).mpr ⟨2, 3, rfl, by decide, by decide, rfl⟩
  · refine (hlist [[], [], []] none (some (-1)) _).mpr ⟨_, .endBeforeStart ?_ rfl ?_, rfl⟩
    · decide
    · decide

end SplitReader
