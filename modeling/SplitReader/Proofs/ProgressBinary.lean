import SplitReader.Proofs.PrefixCode

/-! # Progresses in binary

A progress leaves out the share of completed work and the remaining time where there is none, but
the reader expects a mark for each of them. So only a progress that has both is read back. Without a
remaining time the bytes end where its mark is looked for. With a remaining time alone the reader
takes its mark for that of the share, the low half of its seconds for the share, and the next byte
of the seconds for the mark of the remaining time. If that byte is zero, a progress is read that was
never written (`Progress.decode_encode_binary`).
-/

set_option autoImplicit false

namespace SplitReader

namespace Binary.Format

variable {α : Type}

/-! ## Optional values -/

theorem read_uint8_cons (b : UInt8) (rest : List UInt8) :
    uint8.read (b :: rest) = .ok (b, rest) := by
  have hword : readWord 1 (b :: rest) = .ok (b.toNat, rest) := by
    rw [readWord_eq_ok_iff, toLittle, UInt8.ofNat_toNat]
    exact ⟨b.toNat_lt, rfl⟩
  simp only [uint8, hword, Except.map, UInt8.ofNat_toNat]

theorem read_optional_cons (f : Format α) (tag : UInt8) (rest : List UInt8) :
    f.optional.read (tag :: rest) =
      if tag = 0 then .ok (none, rest)
      else if tag = 1 then (f.read rest).map fun (a, rest) => (some a, rest)
      else .error (.invalidOption tag) := by
  simp only [optional, read_uint8_cons, bind, Except.bind]
  split
  · rfl
  · split
    · cases f.read rest <;> rfl
    · rfl

theorem read_optional_write {f : Format α} {o : Option α} {rest : List UInt8}
    (h : ∀ a ∈ o, f.read (f.write a ++ rest) = .ok (a, rest)) :
    f.optional.read (f.optional.write o ++ rest) = .ok (o, rest) := by
  cases o with
  | none => exact read_optional_cons f 0 rest
  | some a =>
      show f.optional.read (1 :: (f.write a ++ rest)) = _
      rw [read_optional_cons, if_neg (by decide), if_pos rfl, h a rfl]
      rfl

/-- The lowest bytes of a number are followed by those of what is left of it. -/
theorem toLittle_add (low high n : Nat) :
    toLittle (low + high) n = toLittle low n ++ toLittle high (n / Nat.pow 256 low) := by
  induction low generalizing n with
  | zero =>
      have hone : n / Nat.pow 256 0 = n := Nat.div_one n
      rw [Nat.zero_add, hone]
      rfl
  | succ low ih =>
      have hpow : Nat.pow 256 (low + 1) = 256 * Nat.pow 256 low := Nat.mul_comm _ _
      rw [Nat.succ_add, toLittle, ih, toLittle, hpow, Nat.div_div_eq_div_mul]
      rfl

end Binary.Format

open Binary

/-! ## Shares and times -/

theorem Binary32.read_binary (x : Binary32) (rest : List UInt8) :
    Binary32.binary.read (Binary32.binary.write x ++ rest) = .ok (x, rest) :=
  Format.isExact_uint32.map_eq_ok_iff.mpr ⟨x.bits, rfl, trivial, rfl⟩

namespace Duration

theorem read_binary (d : Duration) (rest : List UInt8) :
    Duration.binary.read (Duration.binary.write d ++ rest) = .ok (d, rest) := by
  have hsecs : Format.uint64.read (Duration.binary.write d ++ rest) =
      .ok (d.secs, Format.uint32.write d.nanos ++ rest) :=
    (Format.isExact_uint64 _ _ _).mpr ⟨trivial, List.append_assoc _ _ _⟩
  have hnanos : Format.uint32.read (Format.uint32.write d.nanos ++ rest) = .ok (d.nanos, rest) :=
    (Format.isExact_uint32 _ _ _).mpr ⟨trivial, rfl⟩
  simp only [Duration.binary] at hsecs ⊢
  simp only [hsecs, hnanos, ofParts?_self, bind, Except.bind]
  rfl

/-- The low half of the seconds comes first and the byte above it next. Fewer bytes than a word has
are left behind them. -/
theorem exists_write_binary (d : Duration) :
    ∃ rest : List UInt8, rest.length < 8 ∧
      Duration.binary.write d =
        Format.toLittle 4 d.secs.toNat ++ (d.secs >>> 32).toUInt8 :: rest := by
  refine ⟨Format.toLittle 3 (d.secs.toNat / Nat.pow 256 4 / 256) ++
    Format.toLittle 4 d.nanos.toNat, ?_, ?_⟩
  · rw [List.length_append, Format.length_toLittle, Format.length_toLittle]
    decide
  · have hnext : UInt8.ofNat (d.secs.toNat / Nat.pow 256 4) = (d.secs >>> 32).toUInt8 := by
      apply UInt8.toNat_inj.mp
      rw [UInt8.toNat_ofNat', UInt64.toNat_toUInt8, UInt64.toNat_shiftRight]
      rw [Nat.shiftRight_eq_div_pow]
      rfl
    have hsecs : Format.toLittle 8 d.secs.toNat = Format.toLittle 4 d.secs.toNat ++
        (d.secs >>> 32).toUInt8 :: Format.toLittle 3 (d.secs.toNat / Nat.pow 256 4 / 256) := by
      rw [← hnext]
      exact Format.toLittle_add 4 4 _
    show Format.toLittle 8 d.secs.toNat ++ Format.toLittle 4 d.nanos.toNat = _
    rw [hsecs, List.append_assoc]
    rfl

/-- Fewer bytes than the seconds have are no length of time. -/
theorem read_binary_of_short {bytes : List UInt8} (h : bytes.length < 8) :
    Duration.binary.read bytes = .error .endOfInput := by
  have hword : Format.readWord 8 bytes = .error .endOfInput := if_pos h
  simp only [Duration.binary, Format.uint64, hword, Except.map, bind, Except.bind]

end Duration

/-! ## Progresses -/

namespace Progress

/-- The fields behind the position decide what is read. -/
theorem read_binary {position : Option Position} (h : ∀ q ∈ position, q.FitsWord)
    (bytes : List UInt8) :
    Progress.binary.read (Position.binary.optional.write position ++ bytes) = do
      let (percentComplete, rest) ← Binary32.binary.optional.read bytes
      let (remainingTime, rest) ← Duration.binary.optional.read rest
      return ({ position, percentComplete, remainingTime }, rest) := by
  have hposition : Position.binary.optional.read
      (Position.binary.optional.write position ++ bytes) = .ok (position, bytes) :=
    Format.read_optional_write fun q hq => (Position.isExact_binary _ _ _).mpr ⟨h q hq, rfl⟩
  simp only [Progress.binary, hposition, bind, Except.bind]

section

variable {position : Option Position} (hfits : ∀ q ∈ position, q.FitsWord)
include hfits

/-- A progress that has both is read back. -/
theorem read_complete (x : Binary32) (d : Duration) :
    Progress.binary.read (Progress.binary.write ⟨position, some x, some d⟩) =
      .ok (⟨position, some x, some d⟩, []) := by
  have hbytes : Progress.binary.write ⟨position, some x, some d⟩ =
      Position.binary.optional.write position ++ (Binary32.binary.optional.write (some x) ++
        (Duration.binary.optional.write (some d) ++ [])) := by
    rw [List.append_nil, ← List.append_assoc]
    rfl
  rw [hbytes, read_binary hfits, Format.read_optional_write fun x _ => x.read_binary _]
  simp only [bind, Except.bind]
  rw [Format.read_optional_write fun d _ => d.read_binary _]
  rfl

/-- Without a remaining time the bytes end where its mark is looked for, or that of the share. -/
theorem read_untimed (percent : Option Binary32) :
    Progress.binary.read (Progress.binary.write ⟨position, percent, none⟩) =
      .error .endOfInput := by
  cases percent with
  | none =>
      have hbytes : Progress.binary.write ⟨position, none, none⟩ =
          Position.binary.optional.write position ++ [] := List.append_nil _
      rw [hbytes, read_binary hfits]
      rfl
  | some x =>
      have hbytes : Progress.binary.write ⟨position, some x, none⟩ =
          Position.binary.optional.write position ++
            (Binary32.binary.optional.write (some x) ++ []) := by
        rw [List.append_nil]
        exact List.append_nil _
      rw [hbytes, read_binary hfits, Format.read_optional_write fun x _ => x.read_binary _]
      rfl

/-- With a remaining time alone the fields shift: the low half of the seconds is taken for the
share, and the byte above it for the mark of the remaining time. -/
theorem read_timed (d : Duration) :
    ∃ rest, Progress.binary.read (Progress.binary.write ⟨position, none, some d⟩) =
      if (d.secs >>> 32).toUInt8 = 0 then .ok (⟨position, some ⟨d.secs.toUInt32⟩, none⟩, rest)
      else if (d.secs >>> 32).toUInt8 = 1 then .error .endOfInput
      else .error (.invalidOption (d.secs >>> 32).toUInt8) := by
  obtain ⟨rest, hshort, hwrite⟩ := d.exists_write_binary
  have hbytes : Progress.binary.write ⟨position, none, some d⟩ =
      Position.binary.optional.write position ++ (1 :: Duration.binary.write d) :=
    congrArg (· ++ _) (List.append_nil _)
  have hlow : UInt32.ofNat (d.secs.toNat % Nat.pow 256 4) = d.secs.toUInt32 := by
    apply UInt32.toNat_inj.mp
    rw [UInt32.toNat_ofNat', UInt64.toNat_toUInt32]
    exact Nat.mod_mod _ _
  have hshare : Binary32.binary.read (Duration.binary.write d) =
      .ok (⟨d.secs.toUInt32⟩, (d.secs >>> 32).toUInt8 :: rest) := by
    simp only [hwrite, Binary32.binary, Format.uint32, Format.readWord_toLittle, Except.map, hlow]
  have hmark := Format.read_optional_cons Duration.binary (d.secs >>> 32).toUInt8 rest
  rw [Duration.read_binary_of_short hshort] at hmark
  refine ⟨rest, ?_⟩
  rw [hbytes, read_binary hfits, Format.read_optional_cons, if_neg (by decide), if_pos rfl, hshare]
  simp only [Except.map, bind, Except.bind, hmark]
  by_cases hzero : (d.secs >>> 32).toUInt8 = 0
  · rw [if_pos hzero, if_pos hzero]
    rfl
  · by_cases hone : (d.secs >>> 32).toUInt8 = 1
    · rw [if_neg hzero, if_pos hone, if_neg hzero, if_pos hone]
    · rw [if_neg hzero, if_neg hone, if_neg hzero, if_neg hone]

end

theorem decode_of_read_error {bytes : List UInt8} {e : Error}
    (h : Progress.binary.read bytes = .error e) :
    (Codec.binary Progress.binary).decode bytes = .error (.binary e) := by
  show ((Progress.binary.read bytes).map _).mapError _ = _
  rw [h]
  rfl

/-- **A progress is read back from its bytes if and only if it has both a share of completed work
and a remaining time.** Without a remaining time nothing is read from its bytes. With a remaining
time alone something is read if and only if bits 32 to 39 of the seconds are zero: the low half of
the seconds as the share, and no remaining time. -/
theorem decode_encode_binary (p : Progress) (hfits : ∀ q ∈ p.position, q.FitsWord) :
    let c := Codec.binary Progress.binary
    (c.decode (c.encode p) = .ok p ↔
      p.percentComplete.isSome = true ∧ p.remainingTime.isSome = true) ∧
    (p.remainingTime = none → ∃ e, c.decode (c.encode p) = .error e) ∧
    ∀ d, p.percentComplete = none → p.remainingTime = some d →
      c.decode (c.encode p) ≠ .ok p ∧
      ((d.secs >>> 32).toUInt8 = 0 → c.decode (c.encode p) =
        .ok { p with percentComplete := some ⟨d.secs.toUInt32⟩, remainingTime := none }) ∧
      ((d.secs >>> 32).toUInt8 ≠ 0 → ∃ e, c.decode (c.encode p) = .error e) := by
  intro c
  obtain ⟨position, percent, time⟩ := p
  cases time with
  | none =>
      have hread : c.decode (c.encode ⟨position, percent, none⟩) = .error (.binary .endOfInput) :=
        decode_of_read_error (read_untimed hfits percent)
      rw [hread]
      simp
  | some d =>
      cases percent with
      | some x =>
          have hread : c.decode (c.encode ⟨position, some x, some d⟩) =
              .ok ⟨position, some x, some d⟩ :=
            Codec.decode_binary_eq_ok_iff.mpr ⟨_, read_complete hfits x d⟩
          rw [hread]
          simp
      | none =>
          obtain ⟨rest, hread⟩ := read_timed hfits d
          have hzero : (d.secs >>> 32).toUInt8 = 0 →
              c.decode (c.encode ⟨position, none, some d⟩) =
                .ok ⟨position, some ⟨d.secs.toUInt32⟩, none⟩ := by
            intro hnext
            rw [if_pos hnext] at hread
            exact Codec.decode_binary_eq_ok_iff.mpr ⟨rest, hread⟩
          have hother : (d.secs >>> 32).toUInt8 ≠ 0 →
              ∃ e, c.decode (c.encode ⟨position, none, some d⟩) = .error e := by
            intro hnext
            rw [if_neg hnext] at hread
            split at hread
            · exact ⟨_, decode_of_read_error hread⟩
            · exact ⟨_, decode_of_read_error hread⟩
          have hnever : c.decode (c.encode ⟨position, none, some d⟩) ≠
              .ok ⟨position, none, some d⟩ := by
            by_cases hnext : (d.secs >>> 32).toUInt8 = 0
            · rw [hzero hnext]
              simp
            · obtain ⟨e, he⟩ := hother hnext
              rw [he]
              simp
          refine ⟨⟨fun h => absurd h hnever, by simp⟩, by simp, ?_⟩
          rintro _ - ⟨⟩
          exact ⟨hnever, hzero, hother⟩

/-- A remaining time of a little more than 2^40 seconds is read as a share of completed work. -/
theorem decode_encode_binary_shifted :
    let p : Progress :=
      { position := some (.key "é"), remainingTime := some ⟨1099511627781, 8, by decide⟩ }
    let c := Codec.binary Progress.binary
    (∀ q ∈ p.position, q.FitsWord) ∧
      c.decode (c.encode p) = .ok { position := some (.key "é"), percentComplete := some ⟨5⟩ } := by
  intro p c
  have hfits : ∀ q ∈ p.position, q.FitsWord := by
    rintro q ⟨⟩
    show Format.FitsWord "é"
    decide
  obtain ⟨-, -, htimed⟩ := decode_encode_binary p hfits
  obtain ⟨-, hzero, -⟩ := htimed _ rfl rfl
  exact ⟨hfits, hzero (by decide)⟩

end Progress

end SplitReader
