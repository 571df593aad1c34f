import Mathlib.Order.Bounds.Basic
import SplitReader.Proofs.Separation

/-! # Runs of a tracker that come to the same

Two laws compare runs of one tracker.

Stops that are proposed with no read between them can be proposed in any order, and any of them again
(`isLeast_stop_of_proposals`). Which of them are accepted depends on the order: a late one may find
the stop already before it. The stop in the end does not, since it is the least of the first stop and
of all proposals behind the index, which stays where it is.

Operations without an effect can be left out (`performAll_effective`): claims that give no record
because the reader fails, crashes or stands still, refused splits, and questions. A crash leaves a
mark on the tracker, but no operation looks at the mark.
-/

set_option autoImplicit false

namespace SplitReader

namespace Tracker

variable {ε α : Type}

/-! ## Proposals in any order -/

/-- The stops that a window may come to when some offsets are proposed: its own, and every offset
behind its index. -/
def stopsWith (w : Window) (offsets : List Nat) : Set Nat :=
  {stop | stop = w.stop ∨ stop ∈ offsets ∧ w.index < stop}

/-- The least stop may be found in two rounds, of which the second begins with what the first has
found. -/
theorem isLeast_stopsWith_append {w : Window} {offsets offsets' : List Nat} {stop least : Nat}
    (hfirst : IsLeast (stopsWith w offsets) stop)
    (hsecond : IsLeast (stopsWith ⟨w.index, stop⟩ offsets') least) :
    IsLeast (stopsWith w (offsets ++ offsets')) least := by
  have hle : least ≤ stop := hsecond.2 (Or.inl rfl)
  constructor
  · rcases hsecond.1 with rfl | ⟨hoffset, hlt⟩
    · rcases hfirst.1 with hstop | ⟨hoffset, hlt⟩
      · exact Or.inl hstop
      · exact Or.inr ⟨List.mem_append_left _ hoffset, hlt⟩
    · exact Or.inr ⟨List.mem_append_right _ hoffset, hlt⟩
  · rintro other (hstop | ⟨hoffset, hlt⟩)
    · exact Nat.le_trans hle (hfirst.2 (Or.inl hstop))
    · rcases List.mem_append.mp hoffset with hoffset | hoffset
      · exact Nat.le_trans hle (hfirst.2 (Or.inr ⟨hoffset, hlt⟩))
      · exact hsecond.2 (Or.inr ⟨hoffset, hlt⟩)

/-- One proposal leaves the lesser stop of two, or the only one, and all else as it was. -/
theorem exists_perform_splitAt (t : Tracker) (offset : Nat) :
    ∃ stop, IsLeast (stopsWith t.window [offset]) stop ∧
      (t.perform (.splitAt offset : Action ε α)).2 =
        { t with window := ⟨t.window.index, stop⟩ } := by
  simp only [perform]
  cases hsplit : t.splitAt offset with
  | ok accepted =>
      obtain ⟨hlo, hhi, -, ht⟩ := splitAt_eq_ok_iff.mp hsplit
      refine ⟨offset, ⟨Or.inr ⟨List.mem_singleton_self offset, hlo⟩, ?_⟩, ht⟩
      rintro other (rfl | ⟨hoffset, -⟩)
      · exact Nat.le_of_lt hhi
      · exact Nat.le_of_eq (List.mem_singleton.mp hoffset).symm
  | error reason =>
      refine ⟨t.window.stop, ⟨Or.inl rfl, ?_⟩, rfl⟩
      rintro other (rfl | ⟨hoffset, hlo⟩)
      · exact Nat.le_refl _
      · -- An offset strictly inside the window would have been accepted.
        rw [List.mem_singleton.mp hoffset] at hlo ⊢
        refine Nat.le_of_not_lt fun hhi => ?_
        rw [splitAt_eq_ok_iff.mpr ⟨hlo, hhi, rfl, rfl⟩] at hsplit
        cases hsplit

/-- Some proposals leave the least stop, and all else as it was. -/
theorem exists_performAll_splitAt (offsets : List Nat) : ∀ t : Tracker,
    ∃ stop, IsLeast (stopsWith t.window offsets) stop ∧
      (t.performAll (offsets.map (.splitAt : Nat → Action ε α))).2 =
        { t with window := ⟨t.window.index, stop⟩ } := by
  induction offsets with
  | nil =>
      intro t
      refine ⟨t.window.stop, ⟨Or.inl rfl, ?_⟩, rfl⟩
      rintro other (rfl | ⟨hoffset, -⟩)
      · exact Nat.le_refl _
      · cases hoffset
  | cons offset offsets ih =>
      intro t
      obtain ⟨first, hfirst, hperform⟩ := exists_perform_splitAt (ε := ε) (α := α) t offset
      obtain ⟨stop, hsecond, hrest⟩ := ih { t with window := ⟨t.window.index, first⟩ }
      refine ⟨stop, isLeast_stopsWith_append hfirst hsecond, ?_⟩
      rw [List.map_cons, performAll]
      simp only [hperform, hrest]

/-- **Proposals commute.** Whatever the window of a tracker is, and whatever stop offsets are
proposed one after the other: the stop in the end is the least of the first stop and of all proposals
behind the index, and nothing else has changed. So proposals in any other order, and with any of them
made again, leave the same tracker. -/
theorem isLeast_stop_of_proposals (t : Tracker) (offsets : List Nat) :
    let after (offsets : List Nat) : Tracker :=
      (t.performAll (offsets.map (.splitAt : Nat → Action ε α))).2
    IsLeast {stop | stop = t.window.stop ∨ stop ∈ offsets ∧ t.window.index < stop}
        (after offsets).window.stop ∧
      after offsets = { t with window := ⟨t.window.index, (after offsets).window.stop⟩ } ∧
      ∀ others : List Nat, (∀ offset, offset ∈ others ↔ offset ∈ offsets) →
        after others = after offsets := by
  intro after
  obtain ⟨stop, hleast, hafter⟩ := exists_performAll_splitAt (ε := ε) (α := α) offsets t
  have hstop : (after offsets).window.stop = stop := by
    show (t.performAll _).2.window.stop = stop
    rw [hafter]
  refine ⟨hstop.symm ▸ hleast, hstop.symm ▸ hafter, fun others hsame => ?_⟩
  obtain ⟨stop', hleast', hafter'⟩ := exists_performAll_splitAt (ε := ε) (α := α) others t
  have hstops : stopsWith t.window others = stopsWith t.window offsets := by
    simp only [stopsWith, hsame]
  have hequal : stop' = stop := (hstops ▸ hleast').unique hleast
  show (t.performAll _).2 = (t.performAll _).2
  rw [hafter', hafter, hequal]

/-- Four proposals, one of them not behind the index, are accepted and refused in another way when
they are made in another order and one of them twice, and lower the stop to the same offset. -/
theorem isLeast_stop_of_proposals_twoOrders :
    let t := new .recordIndex 3 10
    let first := t.performAll ([8, 9, 2, 5].map (.splitAt : Nat → Action String Unit))
    let second := t.performAll ([9, 5, 8, 5, 2].map (.splitAt : Nat → Action String Unit))
    first.1 = [.splitAt (.ok 8), .splitAt (.error (.notBeforeStop 9 8)),
        .splitAt (.error (.notAfterCurrent 2 3)), .splitAt (.ok 5)] ∧
      second.1 = [.splitAt (.ok 9), .splitAt (.ok 5), .splitAt (.error (.notBeforeStop 8 5)),
        .splitAt (.error (.notBeforeStop 5 5)), .splitAt (.error (.notAfterCurrent 2 3))] ∧
      first.2.window = ⟨3, 5⟩ ∧ second.2 = first.2 := by
  intro t first second
  obtain ⟨-, -, hsame⟩ :=
    isLeast_stop_of_proposals (ε := String) (α := Unit) t [8, 9, 2, 5]
  refine ⟨rfl, rfl, rfl, hsame [9, 5, 8, 5, 2] fun offset => ?_⟩
  simp only [List.mem_cons, List.not_mem_nil]
  tauto

/-! ## Operations without an effect -/

/-- The reader or the claim has crashed. -/
def Reply.isCrash : Reply ε α → Bool
  | .claimed (.crashed _) => true
  | _ => false

/-- The operation had an effect, or had nothing left to have it on: a claim gave a record or met the
end of the range, or a stop was accepted. -/
def Reply.isEffective : Reply ε α → Bool
  | .claimed (.value _) | .splitAt (.ok _) | .split (.ok _) => true
  | _ => false

theorem Reply.isCrash_of_isEffective {reply : Reply ε α} (h : reply.isEffective = true) :
    reply.isCrash = false := by
  cases reply with
  | claimed outcome =>
      cases outcome with
      | value a => rfl
      | failed e => cases h
      | crashed text => cases h
  | _ => rfl

/-- No operation looks at the mark of a crash, and every one passes it on. -/
theorem perform_marked (t : Tracker) (crashed : Bool) (action : Action ε α) :
    perform { t with crashed } action =
      ((t.perform action).1,
        { (t.perform action).2 with crashed := crashed || (t.perform action).1.isCrash }) := by
  cases action with
  | claim read =>
      by_cases hlt : t.window.index < t.window.stop
      · have hmarked := claim_of_lt (t := { t with crashed }) (fun i u => (read i, u)) () hlt
        simp only [perform, hmarked, claim_of_lt _ _ hlt]
        rcases read t.window.index with ⟨a, following⟩ | e | text
        · by_cases hmove : t.window.index < following
          · simp only [if_pos hmove, Reply.isCrash, Bool.or_false]
          · simp only [if_neg hmove, Reply.isCrash, Bool.or_true]
        · simp only [Reply.isCrash, Bool.or_false]
        · simp only [Reply.isCrash, Bool.or_true]
      · have hover : t.window.stop ≤ t.window.index := Nat.le_of_not_lt hlt
        have hmarked := claim_of_exhausted (t := { t with crashed }) (fun i u => (read i, u)) () hover
        simp only [perform, hmarked, claim_of_exhausted _ _ hover, Reply.isCrash, Bool.or_false]
  | splitAt proposed =>
      simp only [perform, splitAt]
      cases t.window.splitAt proposed <;> simp [Except.map, Reply.isCrash]
  | split proposed =>
      simp only [perform, split]
      cases t.window.split t.kind proposed <;> simp [Except.map, Reply.isCrash]
  | hasNext => simp [perform, hasNext, Reply.isCrash]
  | progress => simp [perform, progress, position, Reply.isCrash]
  | snapshot => simp [perform, Reply.isCrash]

theorem Moment.isEffective_of_accepted {m : Moment ε α} {offset : Nat}
    (h : m.accepted? = some offset) : m.reply.isEffective = true := by
  obtain ⟨t, reply⟩ := m
  cases reply with
  | splitAt answer =>
      cases answer with
      | ok stop => rfl
      | error reason => cases h
  | split answer =>
      cases answer with
      | ok position => rfl
      | error reason => cases h
  | _ => cases h

theorem perform_of_not_isEffective {t : Tracker} {action : Action ε α}
    (h : (t.perform action).1.isEffective = false) :
    ∃ crashed, (t.perform action).2 = { t with crashed } := by
  have hstep := performed t action
  generalize (t.perform action).1 = reply, (t.perform action).2 = t' at hstep h ⊢
  cases hstep with
  | claimed hlt hmove hread => cases h
  | accepted hlo hhi hclaimed haccepted =>
      have heffect : reply.isEffective = true := Moment.isEffective_of_accepted haccepted
      rw [heffect] at h
      cases h
  | unmoved crashed hclaimed haccepted => exact ⟨crashed, rfl⟩

/-- A tracker is marked in a run exactly if it was marked or something crashes in the run. -/
theorem crashed_performAll (actions : List (Action ε α)) : ∀ t : Tracker,
    (t.performAll actions).2.crashed =
      (t.crashed || (t.performAll actions).1.any Reply.isCrash) := by
  induction actions with
  | nil => exact fun t => (Bool.or_false _).symm
  | cons action actions ih =>
      intro t
      have hmark : (t.perform action).2.crashed = (t.crashed || (t.perform action).1.isCrash) :=
        congrArg (fun p => p.2.crashed) (perform_marked t t.crashed action)
      rw [performAll]
      simp only [ih, hmark, List.any_cons, Bool.or_assoc]

/-- The operations of a run that had an effect, with their answers. -/
def effective (t : Tracker) (actions : List (Action ε α)) : List (Action ε α × Reply ε α) :=
  (actions.zip (t.performAll actions).1).filter fun step => step.2.isEffective

theorem effective_cons (t : Tracker) (action : Action ε α) (actions : List (Action ε α)) :
    t.effective (action :: actions) =
      (if (t.perform action).1.isEffective then [(action, (t.perform action).1)] else []) ++
        (t.perform action).2.effective actions := by
  simp only [effective, performAll, List.zip_cons_cons, List.filter_cons]
  split <;> rfl

/-- The operations with an effect do the same on their own, from the same window and any mark. -/
theorem performAll_map_effective (actions : List (Action ε α)) : ∀ (t : Tracker) (crashed : Bool),
    performAll { t with crashed } ((t.effective actions).map Prod.fst) =
      ((t.effective actions).map Prod.snd, { (t.performAll actions).2 with crashed }) := by
  induction actions with
  | nil => exact fun t crashed => rfl
  | cons action actions ih =>
      intro t crashed
      rw [effective_cons, performAll]
      by_cases heffect : (t.perform action).1.isEffective = true
      · -- The operation is made in both runs, and does not crash.
        have hmarked := perform_marked t crashed action
        rw [Reply.isCrash_of_isEffective heffect, Bool.or_false] at hmarked
        simp only [heffect, if_true, List.singleton_append, List.map_cons, performAll, hmarked,
          ih (t.perform action).2 crashed]
      · -- The operation is left out, and made no difference but for the mark.
        obtain ⟨mark, hunmoved⟩ := perform_of_not_isEffective (Bool.eq_false_iff.mpr heffect)
        have hrest := ih (t.perform action).2 crashed
        simp only [if_neg heffect, List.nil_append]
        rw [hunmoved] at hrest ⊢
        exact hrest

/-- **What has no effect leaves no trace.** Let any operations be performed on a fresh tracker, with
readers that give a record, fail, crash or stand still. Leave out the claims whose reader did not
give a record behind the index, the splits that were refused, and all questions. Then each operation
that is left has the same answer as before, and the tracker is the same in the end, except that it
bears no mark: before, it was marked exactly if something crashed. -/
theorem performAll_effective (kind : OffsetKind) (start stop : Nat) (actions : List (Action ε α)) :
    let t := new kind start stop
    let whole := t.performAll actions
    let kept := (actions.zip whole.1).filter fun step => step.2.isEffective
    let short := t.performAll (kept.map Prod.fst)
    short.1 = kept.map Prod.snd ∧
      short.2 = { whole.2 with crashed := false } ∧ short.2.hasNext = whole.2.hasNext ∧
      whole.2.crashed = whole.1.any Reply.isCrash := by
  intro t whole kept short
  have hshort : short = (kept.map Prod.snd, { whole.2 with crashed := false }) :=
    performAll_map_effective actions t false
  have hmark : whole.2.crashed = whole.1.any Reply.isCrash := by
    rw [crashed_performAll]
    exact Bool.false_or _
  rw [hshort]
  exact ⟨rfl, rfl, rfl, hmark⟩

/-- Two of six operations have an effect, and the tracker bears the mark of another one. -/
example :
    let t := new .byteOffset 0 6
    let actions : List (Action String Nat) :=
      [.claim fun i => .value (i, i + 3), .claim fun _ => .crashed "torn", .splitAt 3,
        .split (.ofPosition (.byteOffset 4)), .hasNext, .claim fun i => .value (i, i)]
    (t.effective actions).map Prod.snd =
        [.claimed (.value (some 0)), .split (.ok (.byteOffset 4))] ∧
      (t.performAll actions).2 = ⟨.byteOffset, ⟨3, 4⟩, true⟩ :=
  ⟨rfl, rfl⟩

end Tracker

end SplitReader
