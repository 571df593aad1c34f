import SplitReader.Proofs.Tracker
import SplitReader.Source.Range

/-! # Steps of a reader of a range

What a read and a split do to the window of a reader, whatever it is supplied with (`tryNext_of_lt`,
`reads`, `trySplit_eq_ok_iff`). A read that gives an element moves the index forward, and every other
read leaves the window as it is. So what is left of a range gets less with every element and never
more, and bounds the number of reads to come.
-/

set_option autoImplicit false

namespace SplitReader

/-! ## Any supply -/

/-- A line that was read is not empty, its terminator included. -/
theorem LineReader.pos_of_readLineAt {l l' : LineReader} {d d' : Device} {offset used : Nat}
    {text : List UInt8} (h : l.readLineAt offset d = (.ok (text, used), l', d')) : 0 < used := by
  unfold readLineAt at h
  split at h
  · cases h
  · split at h
    · cases h
    · next hsome =>
      cases h
      exact List.length_pos_iff.mpr fun hnil => hsome (List.isEmpty_iff.mpr hnil)

/-- The record behind an offset begins behind it. -/
theorem Supply.lt_of_fetch {files : Files} {offset following : Nat} {bytes : List UInt8}
    {s s' : Supply} (h : s.fetch files offset = (.value (bytes, following), s')) :
    offset < following := by
  cases s with
  | records rs =>
      simp only [fetch] at h
      cases hbytes : rs[offset]? with
      | none =>
          rw [hbytes] at h
          cases h
      | some bytes =>
          rw [hbytes] at h
          cases h
          exact Nat.lt_succ_self offset
  | lines file reader =>
      simp only [fetch] at h
      rcases hread : reader.readLineAt offset { node := files.node file } with
        ⟨e | ⟨text, used⟩, reader', d⟩
      · rw [hread] at h
        cases h
      · rw [hread] at h
        cases h
        exact Nat.lt_add_of_pos_right (LineReader.pos_of_readLineAt hread)

namespace RangeReader

variable {σ α : Type}

theorem trySplit_eq_ok_iff {proposed : Progress} {r r' : RangeReader} {position : Position} :
    r.trySplit proposed = .ok (position, r') ↔
      ∃ offset, offset < UInt64.size ∧
        proposed.position = some (r.tracker.kind.position offset) ∧
        r.tracker.window.index < offset ∧ offset < r.tracker.window.stop ∧
        position = r.tracker.kind.position offset ∧
        r' = { r with tracker :=
          { r.tracker with window := ⟨r.tracker.window.index, offset⟩ } } := by
  unfold trySplit
  constructor
  · intro h
    cases ht : r.tracker.split proposed with
    | error e => rw [ht] at h; cases h
    | ok accepted =>
        obtain ⟨offset, hword, hpos, hlo, hhi, hp, hr⟩ := Tracker.split_eq_ok_iff.mp ht
        rw [ht] at h
        cases h
        exact ⟨offset, hword, hpos, hlo, hhi, hp, by rw [hr]⟩
  · rintro ⟨offset, hword, hpos, hlo, hhi, rfl, rfl⟩
    rw [Tracker.split_eq_ok_iff.mpr ⟨offset, hword, hpos, hlo, hhi, rfl, rfl⟩]
    rfl

theorem tryNext_of_exhausted (files : Files) (decoder : Decoder σ α) {r : RangeReader} (c : σ)
    (h : r.tracker.window.stop ≤ r.tracker.window.index) :
    tryNext files decoder (r, c) = (.value none, r, c) := by
  unfold tryNext
  rw [Tracker.claim_of_exhausted _ _ h]

/-- Inside the window a read asks the supply for the record at the index and then the decoder, and
the index moves behind the record if both gave what they were asked for. -/
theorem tryNext_of_lt (files : Files) (decoder : Decoder σ α) {r : RangeReader} (c : σ)
    (h : r.tracker.window.index < r.tracker.window.stop) :
    tryNext files decoder (r, c) =
      match r.supply.fetch files r.tracker.window.index with
      | (.value (bytes, following), supply) =>
          match decoder.decode bytes c with
          | (.value a, c) =>
              (.value (some ⟨a, bytes.length⟩),
                ⟨{ r.tracker with window := ⟨following, r.tracker.window.stop⟩ }, supply⟩, c)
          | (.failed e, c) =>
              (.failed (.decode r.tracker.window.index e), ⟨r.tracker, supply⟩, c)
          | (.crashed text, c) =>
              (.crashed text, ⟨{ r.tracker with crashed := true }, supply⟩, c)
      | (.failed e, supply) => (.failed e, ⟨r.tracker, supply⟩, c)
      | (.crashed text, supply) =>
          (.crashed text, ⟨{ r.tracker with crashed := true }, supply⟩, c) := by
  unfold tryNext
  rw [Tracker.claim_of_lt _ _ h]
  simp only [readRecord]
  rcases hfetch : r.supply.fetch files r.tracker.window.index with
    ⟨⟨bytes, following⟩ | e | text, supply⟩
  · -- The record behind the one at the index begins behind it, so the claim does not stand still.
    have hmove := Supply.lt_of_fetch hfetch
    rcases hdecode : decoder.decode bytes c with ⟨a | e | text, c'⟩
    · simp only [hdecode, if_pos hmove]
    · simp only [hdecode]
    · simp only [hdecode]
  · rfl
  · rfl

theorem stop_tryNext (files : Files) (decoder : Decoder σ α) (s : RangeReader × σ) :
    (tryNext files decoder s).2.1.tracker.kind = s.1.tracker.kind ∧
      (tryNext files decoder s).2.1.tracker.window.stop = s.1.tracker.window.stop :=
  s.1.tracker.stop_claim (readRecord files decoder) (s.1.supply, s.2)

/-- What a read can do: the supply and then the decoder decide, and the index moves only if both
give what they are asked for. -/
inductive Reads (files : Files) (decoder : Decoder σ α) (s : RangeReader × σ) :
    Outcome SourceError (Option (Delivered α)) → RangeReader × σ → Prop where
  | exhausted (hover : s.1.tracker.window.stop ≤ s.1.tracker.window.index) :
      Reads files decoder s (.value none) s
  | unsupplied {e : SourceError} {supply : Supply}
      (hlt : s.1.tracker.window.index < s.1.tracker.window.stop)
      (hfetch : s.1.supply.fetch files s.1.tracker.window.index = (.failed e, supply)) :
      Reads files decoder s (.failed e) (⟨s.1.tracker, supply⟩, s.2)
  | lost {text : String} {supply : Supply}
      (hlt : s.1.tracker.window.index < s.1.tracker.window.stop)
      (hfetch : s.1.supply.fetch files s.1.tracker.window.index = (.crashed text, supply)) :
      Reads files decoder s (.crashed text) (⟨{ s.1.tracker with crashed := true }, supply⟩, s.2)
  | undecoded {bytes : List UInt8} {following : Nat} {e : CodecError} {supply : Supply} {c : σ}
      (hlt : s.1.tracker.window.index < s.1.tracker.window.stop)
      (hfetch : s.1.supply.fetch files s.1.tracker.window.index =
        (.value (bytes, following), supply))
      (hdecode : decoder.decode bytes s.2 = (.failed e, c)) :
      Reads files decoder s (.failed (.decode s.1.tracker.window.index e))
        (⟨s.1.tracker, supply⟩, c)
  | broken {bytes : List UInt8} {following : Nat} {text : String} {supply : Supply} {c : σ}
      (hlt : s.1.tracker.window.index < s.1.tracker.window.stop)
      (hfetch : s.1.supply.fetch files s.1.tracker.window.index =
        (.value (bytes, following), supply))
      (hdecode : decoder.decode bytes s.2 = (.crashed text, c)) :
      Reads files decoder s (.crashed text) (⟨{ s.1.tracker with crashed := true }, supply⟩, c)
  | decoded {bytes : List UInt8} {following : Nat} {a : α} {supply : Supply} {c : σ}
      (hlt : s.1.tracker.window.index < s.1.tracker.window.stop)
      (hfetch : s.1.supply.fetch files s.1.tracker.window.index =
        (.value (bytes, following), supply))
      (hdecode : decoder.decode bytes s.2 = (.value a, c))
      (hmove : s.1.tracker.window.index < following) :
      Reads files decoder s (.value (some ⟨a, bytes.length⟩))
        (⟨{ s.1.tracker with window := ⟨following, s.1.tracker.window.stop⟩ }, supply⟩, c)

/-- **All that a read can do.** -/
theorem reads (files : Files) (decoder : Decoder σ α) (s : RangeReader × σ) :
    Reads files decoder s (tryNext files decoder s).1 (tryNext files decoder s).2 := by
  obtain ⟨r, c⟩ := s
  by_cases hlt : r.tracker.window.index < r.tracker.window.stop
  · rw [tryNext_of_lt files decoder c hlt]
    rcases hfetch : r.supply.fetch files r.tracker.window.index with
      ⟨⟨bytes, following⟩ | e | text, supply⟩
    · rcases hdecode : decoder.decode bytes c with ⟨a | e | text, c'⟩
      · simp only [hdecode]
        exact .decoded hlt hfetch hdecode (Supply.lt_of_fetch hfetch)
      · simp only [hdecode]
        exact .undecoded hlt hfetch hdecode
      · simp only [hdecode]
        exact .broken hlt hfetch hdecode
    · exact .unsupplied hlt hfetch
    · exact .lost hlt hfetch
  · have hover := Nat.le_of_not_lt hlt
    rw [tryNext_of_exhausted files decoder c hover]
    exact .exhausted hover

theorem reads_of_eq {files : Files} {decoder : Decoder σ α} {s s' : RangeReader × σ}
    {outcome : Outcome SourceError (Option (Delivered α))}
    (h : tryNext files decoder s = (outcome, s')) : Reads files decoder s outcome s' := by
  have hreads := reads files decoder s
  rwa [h] at hreads

theorem window_of_tryNext_some {files : Files} {decoder : Decoder σ α} {s s' : RangeReader × σ}
    {d : Delivered α} (h : tryNext files decoder s = (.value (some d), s')) :
    s.1.tracker.window.index < s.1.tracker.window.stop ∧
      s.1.tracker.window.index < s'.1.tracker.window.index ∧
      s'.1.tracker.window.stop = s.1.tracker.window.stop := by
  cases reads_of_eq h with
  | decoded hlt hfetch hdecode hmove => exact ⟨hlt, hmove, rfl⟩

/-- Only on an exhausted window a read gives nothing. -/
theorem of_tryNext_none {files : Files} {decoder : Decoder σ α} {s s' : RangeReader × σ}
    (h : tryNext files decoder s = (.value none, s')) :
    s.1.tracker.window.stop ≤ s.1.tracker.window.index ∧ s' = s := by
  cases reads_of_eq h with
  | exhausted hover => exact ⟨hover, rfl⟩

theorem window_of_tryNext {files : Files} {decoder : Decoder σ α} {s s' : RangeReader × σ}
    {outcome : Outcome SourceError (Option (Delivered α))}
    (h : tryNext files decoder s = (outcome, s')) (hnone : ∀ d, outcome ≠ .value (some d)) :
    s'.1.tracker.window = s.1.tracker.window := by
  cases reads_of_eq h with
  | exhausted => rfl
  | unsupplied => rfl
  | lost => rfl
  | undecoded => rfl
  | broken => rfl
  | decoded => exact absurd rfl (hnone _)

theorem index_le_tryNext (files : Files) (decoder : Decoder σ α)
    (s : RangeReader × σ) :
    s.1.tracker.window.index ≤ (tryNext files decoder s).2.1.tracker.window.index := by
  rcases hread : tryNext files decoder s with ⟨outcome, s'⟩
  by_cases hsome : ∃ d, outcome = .value (some d)
  · obtain ⟨d, rfl⟩ := hsome
    exact Nat.le_of_lt (window_of_tryNext_some hread).2.1
  · exact Nat.le_of_eq (by rw [window_of_tryNext hread fun d hd => hsome ⟨d, hd⟩])

end RangeReader

/-! ## What is left of a range -/

/-- What is left gets less with every element that is read, and never more. -/
structure BoundedReader.Narrowing {S α : Type} (r : BoundedReader S α) : Prop where
  read : ∀ {s s' : S} {d : Delivered α},
    r.tryNext s = (.value (some d), s') → r.remaining s' < r.remaining s
  miss : ∀ {s s' : S} {outcome : Outcome SourceError (Option (Delivered α))},
    r.tryNext s = (outcome, s') → r.remaining s' ≤ r.remaining s
  split : ∀ {s s' : S} {proposed : Progress} {position : Position},
    r.trySplit proposed s = .ok (position, s') → r.remaining s' ≤ r.remaining s

namespace RangeReader

variable {σ α : Type}

theorem bounded_trySplit_eq_ok_iff {files : Files} {decoder : Decoder σ α} {proposed : Progress}
    {s s' : RangeReader × σ} {position : Position} :
    (bounded files decoder).trySplit proposed s = .ok (position, s') ↔
      s.1.trySplit proposed = .ok (position, s'.1) ∧ s'.2 = s.2 := by
  obtain ⟨r, c⟩ := s
  obtain ⟨r', c'⟩ := s'
  simp only [bounded]
  cases h : r.trySplit proposed with
  | error e => simp [Except.map]
  | ok accepted =>
      obtain ⟨p, q⟩ := accepted
      simp only [Except.map, Except.ok.injEq, Prod.mk.injEq]
      constructor
      · rintro ⟨rfl, rfl, rfl⟩
        exact ⟨⟨rfl, rfl⟩, rfl⟩
      · rintro ⟨⟨rfl, rfl⟩, rfl⟩
        exact ⟨rfl, rfl, rfl⟩

/-- **Readers of ranges narrow their range**, whatever they are supplied with. -/
theorem bounded_narrowing (files : Files) (decoder : Decoder σ α) :
    (bounded files decoder).Narrowing where
  read := by
    intro s s' d h
    obtain ⟨hlt, hmove, hstop⟩ := window_of_tryNext_some h
    simp only [bounded]
    omega
  miss := by
    intro s s' outcome h
    simp only [bounded]
    by_cases hsome : ∃ d, outcome = .value (some d)
    · obtain ⟨d, rfl⟩ := hsome
      obtain ⟨hlt, hmove, hstop⟩ := window_of_tryNext_some h
      omega
    · have hwindow := window_of_tryNext h (fun d hd => hsome ⟨d, hd⟩)
      exact Nat.le_of_eq (by rw [hwindow])
  split := by
    intro s s' proposed position h
    obtain ⟨offset, -, -, hlo, hhi, -, hr⟩ :=
      trySplit_eq_ok_iff.mp (bounded_trySplit_eq_ok_iff.mp h).1
    simp only [bounded, hr]
    omega

end RangeReader

end SplitReader
