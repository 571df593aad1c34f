import SplitReader.Codec
import SplitReader.Proofs.SessionCalls

/-! # Readers of one source do not meet

The readers of a session share the source, the files, the observers and the decoder. Of these a call
only reads the files and the state of the decoder, so with a decoder that keeps no state, and files
that stay as they are, it cannot tell whether its reader is the only one. The answers to the calls of
one reader, and the reader that they leave, are therefore those of a session in which nothing else
happens (`calls_alone`).
-/

set_option autoImplicit false

namespace SplitReader

namespace Session

variable {α : Type}

/-! ## One reader among others -/

/-- The calls of a reader among some operations. -/
def callsOf (number : Nat) (actions : List Action) : List Call :=
  actions.filterMap (Action.callOf number)

/-- The answers to the calls of a reader among the answers to some operations. -/
def repliesOf (number : Nat) (actions : List Action) (replies : List (Reply α)) :
    List (Reply α) :=
  ((actions.zip replies).filter fun p => (p.1.callOf number).isSome).map Prod.snd

section Steps

variable {number : Nat} {action : Action} {actions : List Action} {reply : Reply α}
  {replies : List (Reply α)}

theorem callsOf_cons_none (h : action.callOf number = none) :
    callsOf number (action :: actions) = callsOf number actions :=
  List.filterMap_cons_none h

theorem callsOf_cons_call (call : Call) :
    callsOf number (.call number call :: actions) = call :: callsOf number actions :=
  List.filterMap_cons_some (if_pos rfl)

theorem repliesOf_cons_none (h : action.callOf number = none) :
    repliesOf number (action :: actions) (reply :: replies) = repliesOf number actions replies := by
  simp only [repliesOf, List.zip_cons_cons, List.filter_cons, h, Option.isSome_none,
    Bool.false_eq_true, if_false]

theorem repliesOf_cons_call (call : Call) :
    repliesOf number (.call number call :: actions) (reply :: replies) =
      reply :: repliesOf number actions replies := by
  have hcall : Action.callOf number (.call number call) = some call := if_pos rfl
  simp only [repliesOf, List.zip_cons_cons, List.filter_cons, hcall, Option.isSome_some, if_true,
    List.map_cons]

end Steps

/-- **The same reader in two sessions**: in one of them it is called among other operations, in the
other one the calls of it are all that happens. It gives the same answers and is left the same. -/
theorem performAll_callsOf (decoder : Decoder Unit α) {number place : Nat} {actions : List Action}
    (hkeeps : ∀ action ∈ actions, action.keepsFiles = true) :
    ∀ {s t : Session Unit} {r q : OpenReader}, s.files = t.files →
      s.readers[number]? = some r → t.readers[place]? = some q → r.range = q.range →
      (t.performAll decoder ((callsOf number actions).map (.call place))).1 =
          repliesOf number actions (s.performAll decoder actions).1 ∧
        ∃ r' q', (s.performAll decoder actions).2.readers[number]? = some r' ∧
          (t.performAll decoder ((callsOf number actions).map (.call place))).2.readers[place]? =
            some q' ∧ r'.range = q'.range := by
  induction actions with
  | nil =>
      intro s t r q hfiles hr hq hrange
      exact ⟨rfl, r, q, hr, hq, hrange⟩
  | cons action actions ih =>
      intro s t r q hfiles hr hq hrange
      obtain ⟨hkeep, hkeeps'⟩ := List.forall_mem_cons.mp hkeeps
      have hperforms := perform_cases decoder s hkeep
      have hfiles' : (s.perform decoder action).2.files = t.files :=
        hperforms.source_eq.2.trans hfiles
      rcases hperforms.reader hr with ⟨hnone, hsame⟩ | ⟨call, rfl, hreply, hcalled⟩
      · rw [callsOf_cons_none hnone, performAll_cons, repliesOf_cons_none hnone]
        exact ih hkeeps' hfiles' hsame hq hrange
      · -- Both sessions make the call, and it finds the same reader on the same files.
        obtain ⟨hreply', hcalled'⟩ := perform_call decoder hq call
        have hkeep' : (Action.call place call).keepsFiles = true := rfl
        have hfiles'' : (t.perform decoder (.call place call)).2.files = t.files :=
          (perform_cases decoder t hkeep').source_eq.2
        rw [hfiles, hrange] at hreply hcalled
        obtain ⟨hreplies, hlast⟩ := ih hkeeps' (hfiles'.trans hfiles''.symm) hcalled hcalled' rfl
        rw [callsOf_cons_call, List.map_cons, performAll_cons, performAll_cons,
          repliesOf_cons_call]
        refine ⟨?_, hlast⟩
        simp only
        rw [hreply, hreply', hreplies]

/-! ## A fresh reader -/

theorem of_openReader {σ : Type} {decoder : Decoder σ α} {s s' : Session σ} {number : Nat}
    (h : s.perform decoder .openReader = (.opened (.ok number), s')) :
    ∃ range, s.source.reader s.files = .ok range ∧ s'.files = s.files ∧
      s'.readers[number]? = some ⟨range, s.observers.length⟩ := by
  have hkeeps : Action.openReader.keepsFiles = true := rfl
  have hperforms := perform_cases decoder s hkeeps
  rw [h] at hperforms
  cases hperforms with
  | opened hopen => exact ⟨_, hopen, rfl, List.getElem?_concat_length⟩

/-- **Readers of one source do not interfere.** Open a reader in any session whose decoder keeps no
state, whatever other readers and observers there are. Whatever operations follow that leave the
files as they are, calls of all readers in any order and the opening and registering of others among
them: the answers to the calls of this reader are those that a session gives in which a reader of
the same source is opened and these calls are made and nothing else happens, and the reader ends in
the same state. This holds behind every one of the operations, since it holds of any list of them. A
pull from an adapter that was kept and has not ended is a call that pulls once. -/
theorem calls_alone (decoder : Decoder Unit α) {s s' : Session Unit} {number : Nat}
    (hopen : s.perform decoder .openReader = (.opened (.ok number), s')) {actions : List Action}
    (hkeeps : ∀ action ∈ actions, action.keepsFiles = true) :
    let fresh : Session Unit := { source := s.source, files := s.files, codec := () }
    let among := s'.performAll decoder actions
    let alone := fresh.performAll decoder
      (.openReader :: (callsOf number actions).map (.call 0))
    alone.1 = .opened (.ok 0) :: repliesOf number actions among.1 ∧
      ∃ r r', among.2.readers[number]? = some r ∧ alone.2.readers[0]? = some r' ∧
        r.range = r'.range := by
  intro fresh among alone
  obtain ⟨range, hrange, hfiles, hreader⟩ := of_openReader hopen
  let begun : Session Unit := { fresh with readers := [⟨range, 0⟩] }
  have hbegun : fresh.perform decoder .openReader = (.opened (.ok 0), begun) := by
    have hrange' : fresh.source.reader fresh.files = .ok range := hrange
    simp only [perform, hrange']
    rfl
  have hfirst : begun.readers[0]? = some ⟨range, 0⟩ := rfl
  have hfiles' : s'.files = begun.files := hfiles
  obtain ⟨hreplies, hlast⟩ := performAll_callsOf decoder hkeeps hfiles' hreader hfirst rfl
  have halone : alone = (.opened (.ok 0) ::
      (begun.performAll decoder ((callsOf number actions).map (.call 0))).1,
      (begun.performAll decoder ((callsOf number actions).map (.call 0))).2) := by
    show fresh.performAll decoder (.openReader :: _) = _
    rw [performAll_cons, hbegun]
  rw [halone]
  exact ⟨by rw [hreplies], hlast⟩

/-- Operations on two readers, of which the first one is stopped early, with another reader and an
observer in between. -/
def mingled : List Action :=
  [.call 0 .tryNext, .call 1 .next, .call 0 (.trySplit (.ofPosition (.recordIndex 2))), .register,
    .openReader, .call 2 (.elements none), .call 0 (.elements none), .call 1 .next,
    .call 1 .progress, .call 1 .hasNext]

/-- The second reader reads past the stop of the first one, as it does alone. -/
theorem calls_alone_mingled :
    let fresh : Session Unit :=
      { source := .memory ⟨[[1], [2, 2], [3]], 0, 3⟩, files := {}, codec := () }
    let decoder := Codec.bytes.decoder
    let two := (fresh.performAll decoder [.openReader, .openReader]).2
    let calls : List Call := [.next, .next, .progress, .hasNext]
    (fresh.performAll decoder (.openReader :: calls.map (.call 0))).1 =
        .opened (.ok 0) :: repliesOf 1 mingled (two.performAll decoder mingled).1 ∧
      repliesOf 1 mingled (two.performAll decoder mingled).1 =
        [.next (.value [1]), .next (.value [2, 2]),
          .progress (.ofPosition (.recordIndex 2)), .hasNext true] := by
  intro fresh decoder two calls
  have hkeeps : ∀ action ∈ mingled, action.keepsFiles = true := by
    decide
  have hopen : (fresh.perform decoder .openReader).2.perform decoder .openReader =
      (.opened (.ok 1), two) := by
    rfl
  have hcalls : callsOf 1 mingled = calls := by
    rfl
  have halone := (calls_alone decoder hopen hkeeps).1
  rw [hcalls] at halone
  -- The few operations of the run alone are quickly performed.
  have hrun : (fresh.performAll decoder (.openReader :: calls.map (.call 0))).1 =
      [.opened (.ok 0), .next (.value [1]), .next (.value [2, 2]),
        .progress (.ofPosition (.recordIndex 2)), .hasNext true] := by
    rfl
  exact ⟨halone, List.tail_eq_of_cons_eq (halone.symm.trans hrun)⟩

end Session

end SplitReader
