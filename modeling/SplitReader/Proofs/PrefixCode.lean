import SplitReader.Codec
import SplitReader.Proofs.Utf8
import SplitReader.Wire.Binary

/-! # Binary formats are prefix codes

A binary form marks its own end: a word has its width, a text its length before it, a choice its
number. So a value is read where its bytes stand, whatever follows them. The reader also takes no
other bytes for the value, since words have one form each and a text has one form in UTF-8. The two
directions are said of a format together (`Format.IsExact`) and passed from words to texts and from
these to positions and events. With both of them no value is decoded from bytes that are cut short:
the whole would then begin with two values at once (`Codec.isPrefixCode_of_isExact`).

A text is counted by a word of 64 bits. Longer texts, which no memory holds, are left out.
-/

set_option autoImplicit false

namespace SplitReader

namespace Binary.Format

variable {α β : Type}

/-! ## Words -/

theorem length_toLittle (width n : Nat) : (toLittle width n).length = width := by
  induction width generalizing n with
  | zero => rfl
  | succ width ih => rw [toLittle, List.length_cons, ih]

/-- The lowest bytes of a number carry its remainder. -/
theorem ofLittle_toLittle (width n : Nat) :
    ofLittle (toLittle width n) = n % Nat.pow 256 width := by
  induction width generalizing n with
  | zero => exact (Nat.mod_one n).symm
  | succ width ih =>
      have hbyte : (UInt8.ofNat n).toNat = n % 256 := UInt8.toNat_ofNat'
      have hpow : Nat.pow 256 (width + 1) = 256 * Nat.pow 256 width := Nat.mul_comm _ _
      rw [toLittle, ofLittle, hbyte, ih, hpow, Nat.mod_mul]

theorem toLittle_ofLittle (bs : List UInt8) : toLittle bs.length (ofLittle bs) = bs := by
  induction bs with
  | nil => rfl
  | cons b bs ih =>
      have hlow := b.toNat_lt
      have hbyte : UInt8.ofNat (b.toNat + 256 * ofLittle bs) = b := by
        apply UInt8.toNat_inj.mp
        rw [UInt8.toNat_ofNat']
        omega
      have hrest : (b.toNat + 256 * ofLittle bs) / 256 = ofLittle bs := by omega
      rw [List.length_cons, ofLittle, toLittle, hbyte, hrest, ih]

theorem ofLittle_lt (bs : List UInt8) : ofLittle bs < Nat.pow 256 bs.length := by
  have hlength : bs.length = (toLittle bs.length (ofLittle bs)).length := by
    rw [length_toLittle]
  have h := ofLittle_toLittle bs.length (ofLittle bs)
  rw [toLittle_ofLittle] at h
  rw [h]
  exact Nat.mod_lt _ (Nat.pow_pos (by decide))

theorem readWord_toLittle (width n : Nat) (rest : List UInt8) :
    readWord width (toLittle width n ++ rest) = .ok (n % Nat.pow 256 width, rest) := by
  have hlength := length_toLittle width n
  rw [readWord, if_neg (by rw [List.length_append]; omega), List.take_left' hlength,
    List.drop_left' hlength, ofLittle_toLittle]

/-- **A word is read where its bytes stand, and nowhere else.** -/
theorem readWord_eq_ok_iff {width n : Nat} {bytes rest : List UInt8} :
    readWord width bytes = .ok (n, rest) ↔
      n < Nat.pow 256 width ∧ bytes = toLittle width n ++ rest := by
  constructor
  · intro h
    unfold readWord at h
    split at h
    · cases h
    · next hlength =>
      cases h
      have htake : (bytes.take width).length = width := List.length_take_of_le (by omega)
      have hlt := ofLittle_lt (bytes.take width)
      have hback := toLittle_ofLittle (bytes.take width)
      rw [htake] at hlt hback
      exact ⟨hlt, by rw [hback, List.take_append_drop]⟩
  · rintro ⟨hlt, rfl⟩
    rw [readWord_toLittle, Nat.mod_eq_of_lt hlt]

/-! ## Exact formats -/

/-- A format is exact on the values that a predicate allows: a value is read where its bytes stand,
whatever follows them, and nowhere else. -/
def IsExact (f : Format α) (Fits : α → Prop) : Prop :=
  ∀ bytes a rest, f.read bytes = .ok (a, rest) ↔ Fits a ∧ bytes = f.write a ++ rest

/-- A text whose bytes can be counted by a word, as those of every text in a memory can. -/
def FitsWord (s : String) : Prop := (Utf8.encode s).length < UInt64.size

instance (s : String) : Decidable (FitsWord s) := inferInstanceAs (Decidable (_ < _))

theorem bind_eq_ok_iff {γ : Type} {x : Except Error γ} {g : γ → Except Error α} {a : α} :
    (x >>= g) = .ok a ↔ ∃ c, x = .ok c ∧ g c = .ok a := by
  cases x <;> simp [bind, Except.bind]

theorem map_eq_ok_iff {x : Except Error (β × List UInt8)} {g : β → α} {a : α}
    {rest : List UInt8} :
    (x.map fun (b, left) => (g b, left)) = .ok (a, rest) ↔ ∃ b, x = .ok (b, rest) ∧ g b = a := by
  cases x with
  | error e => simp [Except.map]
  | ok p =>
      obtain ⟨b, left⟩ := p
      simp only [Except.map, Except.ok.injEq, Prod.mk.injEq]
      constructor
      · rintro ⟨hg, rfl⟩
        exact ⟨b, ⟨rfl, rfl⟩, hg⟩
      · rintro ⟨c, ⟨rfl, rfl⟩, hg⟩
        exact ⟨hg, rfl⟩

theorem IsExact.map_eq_ok_iff {f : Format β} {Fits : β → Prop} (h : f.IsExact Fits) {g : β → α}
    {a : α} {bytes rest : List UInt8} :
    ((f.read bytes).map fun (b, left) => (g b, left)) = .ok (a, rest) ↔
      ∃ b, g b = a ∧ Fits b ∧ bytes = f.write b ++ rest := by
  rw [Format.map_eq_ok_iff]
  constructor
  · rintro ⟨b, hread, hg⟩
    exact ⟨b, hg, (h _ _ _).mp hread⟩
  · rintro ⟨b, hg, hbytes⟩
    exact ⟨b, (h _ _ _).mpr hbytes, hg⟩

theorem isExact_uint64 : uint64.IsExact fun _ => True := by
  intro bytes n rest
  rw [uint64, map_eq_ok_iff]
  simp only [readWord_eq_ok_iff, true_and]
  constructor
  · rintro ⟨m, ⟨hlt, rfl⟩, rfl⟩
    rw [UInt64.toNat_ofNat_of_lt' hlt]
  · rintro rfl
    exact ⟨n.toNat, ⟨n.toNat_lt, rfl⟩, UInt64.ofNat_toNat⟩

theorem isExact_uint32 : uint32.IsExact fun _ => True := by
  intro bytes n rest
  rw [uint32, map_eq_ok_iff]
  simp only [readWord_eq_ok_iff, true_and]
  constructor
  · rintro ⟨m, ⟨hlt, rfl⟩, rfl⟩
    rw [UInt32.toNat_ofNat_of_lt' hlt]
  · rintro rfl
    exact ⟨n.toNat, ⟨n.toNat_lt, rfl⟩, UInt32.ofNat_toNat⟩

theorem read_string {bytes rest : List UInt8} {length : Nat}
    (h : readWord 8 bytes = .ok (length, rest)) :
    string.read bytes =
      if rest.length < length then .error .shortText
      else
        match Utf8.decode (rest.take length) with
        | .ok s => .ok (s, rest.drop length)
        | .error e => .error (.invalidText e) := by
  simp only [string, h, bind, Except.bind]
  split
  · rfl
  · rfl

/-- Texts are read where their length and their bytes stand. -/
theorem isExact_string : string.IsExact FitsWord := by
  intro bytes s rest
  constructor
  · intro h
    obtain ⟨⟨length, behind⟩, hlength, -⟩ := bind_eq_ok_iff.mp h
    rw [read_string hlength] at h
    obtain ⟨hlt, rfl⟩ := readWord_eq_ok_iff.mp hlength
    split at h
    · cases h
    · next hlong =>
      split at h
      · next text htext =>
        cases h
        have hbytes := Utf8.eq_encode_of_decode htext
        have hcount : (Utf8.encode s).length = length := by
          rw [← hbytes, List.length_take_of_le (by omega)]
        refine ⟨by rw [FitsWord, hcount]; exact hlt, ?_⟩
        show _ = toLittle 8 (Utf8.encode s).length ++ Utf8.encode s ++ _
        rw [hcount, ← hbytes, List.append_assoc, List.take_append_drop]
      · cases h
  · rintro ⟨hfits, rfl⟩
    have hlength : readWord 8 (string.write s ++ rest) =
        .ok ((Utf8.encode s).length, Utf8.encode s ++ rest) := by
      rw [readWord_eq_ok_iff]
      exact ⟨hfits, List.append_assoc _ _ _⟩
    rw [read_string hlength, if_neg (by rw [List.length_append]; omega), List.take_left,
      List.drop_left, Utf8.decode_encode]

end Binary.Format

/-! ## Positions and events -/

namespace Position

open Binary Format

def FitsWord : Position → Prop
  | recordIndex _ | byteOffset _ | endOfRange => True
  | key s | shufflePosition s => Format.FitsWord s

theorem isExact_binary : Position.binary.IsExact FitsWord := by
  intro bytes p rest
  constructor
  · intro h
    unfold Position.binary readBinary at h
    simp only at h
    split at h
    · cases h
    · next choice behind hchoice =>
      obtain ⟨-, rfl⟩ := (isExact_uint32 _ _ _).mp hchoice
      -- The payload is read by the number that was read, and is written behind that number.
      have hbytes : ∀ n : UInt32, choice.toNat = n.toNat → uint32.write choice = uint32.write n :=
        fun n hn => congrArg uint32.write (UInt32.toNat_inj.mp hn)
      split at h
      case h_1 hn =>
        obtain ⟨n, rfl, -, rfl⟩ := isExact_uint64.map_eq_ok_iff.mp h
        exact ⟨trivial, by rw [hbytes 0 hn]; exact (List.append_assoc _ _ _).symm⟩
      case h_2 hn =>
        obtain ⟨n, rfl, -, rfl⟩ := isExact_uint64.map_eq_ok_iff.mp h
        exact ⟨trivial, by rw [hbytes 1 hn]; exact (List.append_assoc _ _ _).symm⟩
      case h_3 hn =>
        obtain ⟨s, rfl, hfits, rfl⟩ := isExact_string.map_eq_ok_iff.mp h
        exact ⟨hfits, by rw [hbytes 2 hn]; exact (List.append_assoc _ _ _).symm⟩
      case h_4 hn =>
        obtain ⟨s, rfl, hfits, rfl⟩ := isExact_string.map_eq_ok_iff.mp h
        exact ⟨hfits, by rw [hbytes 3 hn]; exact (List.append_assoc _ _ _).symm⟩
      case h_5 hn =>
        cases h
        exact ⟨trivial, by rw [hbytes 4 hn]; rfl⟩
      case h_6 => cases h
  · rintro ⟨hfits, rfl⟩
    have hchoice : uint32.read (Position.binary.write p ++ rest) =
        .ok (p.choice, p.writePayload ++ rest) :=
      (isExact_uint32 _ _ _).mpr ⟨trivial, List.append_assoc _ _ _⟩
    simp only [Position.binary, readBinary] at hchoice ⊢
    rw [hchoice]
    cases p with
    | recordIndex n => exact isExact_uint64.map_eq_ok_iff.mpr ⟨n, rfl, trivial, rfl⟩
    | byteOffset n => exact isExact_uint64.map_eq_ok_iff.mpr ⟨n, rfl, trivial, rfl⟩
    | key s => exact isExact_string.map_eq_ok_iff.mpr ⟨s, rfl, hfits, rfl⟩
    | shufflePosition s => exact isExact_string.map_eq_ok_iff.mpr ⟨s, rfl, hfits, rfl⟩
    | endOfRange => rfl

end Position

namespace Event

open Binary Format

theorem isExact_binary : Event.binary.IsExact fun e => Format.FitsWord e.name := by
  intro bytes e rest
  constructor
  · intro h
    obtain ⟨⟨id, behind⟩, hid, hmore⟩ := bind_eq_ok_iff.mp h
    obtain ⟨⟨name, last⟩, hname, hend⟩ := bind_eq_ok_iff.mp hmore
    cases hend
    obtain ⟨-, rfl⟩ := (isExact_uint32 _ _ _).mp hid
    obtain ⟨hfits, rfl⟩ := (isExact_string _ _ _).mp hname
    exact ⟨hfits, (List.append_assoc _ _ _).symm⟩
  · rintro ⟨hfits, rfl⟩
    have hid : uint32.read (Event.binary.write e ++ rest) =
        .ok (e.id, string.write e.name ++ rest) :=
      (isExact_uint32 _ _ _).mpr ⟨trivial, List.append_assoc _ _ _⟩
    have hname : string.read (string.write e.name ++ rest) = .ok (e.name, rest) :=
      (isExact_string _ _ _).mpr ⟨hfits, rfl⟩
    exact bind_eq_ok_iff.mpr ⟨_, hid, bind_eq_ok_iff.mpr ⟨_, hname, rfl⟩⟩

end Event

/-! ## Prefix codes -/

namespace Codec

open Binary

variable {α : Type}

/-- A codec is a prefix code on the values that a predicate allows: a value is decoded from its
bytes whatever follows them, nothing is decoded from bytes that are cut short, and bytes that are
decoded begin with the bytes of their value. -/
structure IsPrefixCode (c : Codec α) (Fits : α → Prop) : Prop where
  decode_append : ∀ a rest, Fits a → c.decode (c.encode a ++ rest) = .ok a
  decode_cut : ∀ a bytes, Fits a → bytes <+: c.encode a → bytes ≠ c.encode a →
    ∃ e, c.decode bytes = .error e
  encode_isPrefix : ∀ bytes a, c.decode bytes = .ok a → c.encode a <+: bytes

theorem decode_binary_eq_ok_iff {f : Binary.Format α} {bytes : List UInt8} {a : α} :
    (binary f).decode bytes = .ok a ↔ ∃ rest, f.read bytes = .ok (a, rest) := by
  show ((f.read bytes).map fun (a, _) => a).mapError _ = _ ↔ _
  cases f.read bytes with
  | error e =>
    constructor
    · rintro ⟨⟩
    · rintro ⟨rest, ⟨⟩⟩
  | ok p =>
    obtain ⟨b, rest⟩ := p
    constructor
    · rintro ⟨⟩
      exact ⟨rest, rfl⟩
    · rintro ⟨rest', ⟨⟩⟩
      rfl

/-- **An exact format gives a prefix code.** -/
theorem isPrefixCode_of_isExact {f : Binary.Format α} {Fits : α → Prop} (h : f.IsExact Fits) :
    (binary f).IsPrefixCode Fits where
  decode_append a rest hfits :=
    decode_binary_eq_ok_iff.mpr ⟨rest, (h _ _ _).mpr ⟨hfits, rfl⟩⟩
  decode_cut a bytes hfits hcut hne := by
    obtain ⟨missing, hmissing⟩ := hcut
    cases hread : (binary f).decode bytes with
    | error e => exact ⟨e, rfl⟩
    | ok b =>
        obtain ⟨rest, hb⟩ := decode_binary_eq_ok_iff.mp hread
        obtain ⟨hfits', hbytes⟩ := (h _ _ _).mp hb
        -- The whole begins with both values, so they end at one place, where nothing is missing.
        have hwhole : f.read (f.write a) = .ok (a, []) :=
          (h _ _ _).mpr ⟨hfits, (List.append_nil _).symm⟩
        have hshort : f.read (f.write a) = .ok (b, rest ++ missing) := by
          refine (h _ _ _).mpr ⟨hfits', ?_⟩
          rw [← List.append_assoc, ← hbytes]
          exact hmissing.symm
        rw [hwhole, Except.ok.injEq, Prod.mk.injEq] at hshort
        obtain ⟨-, hnothing⟩ := hshort
        have hmiss : missing = [] := (List.append_eq_nil_iff.mp hnothing.symm).2
        rw [hmiss, List.append_nil] at hmissing
        exact absurd hmissing hne
  encode_isPrefix bytes a hread := by
    obtain ⟨rest, hb⟩ := decode_binary_eq_ok_iff.mp hread
    exact ⟨rest, ((h _ _ _).mp hb).2.symm⟩

/-- **Words, texts, positions and events have prefix codes.** -/
theorem isPrefixCode_binary :
    (binary Format.uint64).IsPrefixCode (fun _ => True) ∧
      (binary Format.string).IsPrefixCode Format.FitsWord ∧
      (binary Position.binary).IsPrefixCode Position.FitsWord ∧
      (binary Event.binary).IsPrefixCode fun e => Format.FitsWord e.name := by
  refine ⟨?_, ?_, ?_, ?_⟩
  · exact isPrefixCode_of_isExact Format.isExact_uint64
  · exact isPrefixCode_of_isExact Format.isExact_string
  · exact isPrefixCode_of_isExact Position.isExact_binary
  · exact isPrefixCode_of_isExact Event.isExact_binary

/-- An event is decoded before two more bytes, and not from its first two. -/
theorem isPrefixCode_binary_split :
    let split : Event := ⟨9, "split"⟩
    Format.FitsWord split.name ∧
      (binary Event.binary).encode split =
        [9, 0, 0, 0, 5, 0, 0, 0, 0, 0, 0, 0, 115, 112, 108, 105, 116] ∧
      (binary Event.binary).decode ((binary Event.binary).encode split ++ [7, 7]) = .ok split ∧
      ∃ e, (binary Event.binary).decode [9, 0] = .error e := by
  obtain ⟨-, -, -, hevent⟩ := isPrefixCode_binary
  have hfits : Format.FitsWord "split" := by decide
  refine ⟨hfits, by decide, hevent.decode_append _ _ hfits, ?_⟩
  exact hevent.decode_cut ⟨9, "split"⟩ [9, 0] hfits (by decide) (by decide)

end Codec

end SplitReader
