import Mathlib.Order.Bounds.Defs
import SplitReader.Codec
import SplitReader.Proofs.Utf8

/-! # The text codec accepts exactly UTF-8

Writing gives the bytes that the standard library gives (`encode_eq_toUTF8`), and reading undoes
writing and reads nothing else. So the bytes that are refused are those of no text.

A refusal counts the bytes before the fault. They are the bytes of characters, and no beginning of
the refused bytes that is longer is the bytes of characters: what stands at the front is always read
as the same character, so two ways of cutting a text into characters never part, and the longer one
would run into the fault (`isGreatest_validUpTo`). The wording of the refusal names this count.
-/

set_option autoImplicit false

namespace SplitReader

namespace Utf8

/-! ## The standard form -/

theorem encodeChar_eq (c : Char) : encodeChar c = String.utf8EncodeChar c := by
  have hvalid := toNat_isValid c
  have hval : c.val.toNat = c.toNat := rfl
  -- The standard form cuts the first byte to the bits it has room for, and none are lost.
  have htwo : c.toNat < 0x800 → c.toNat / 64 % 0x20 = c.toNat / 0x40 := by omega
  have hthree : c.toNat < 0x10000 → c.toNat / 4096 % 0x10 = c.toNat / 0x1000 := by omega
  have hfour : c.toNat / 262144 % 0x08 = c.toNat / 0x40000 := by omega
  simp only [encodeChar, String.utf8EncodeChar, hval, hfour, tailByte, Nat.add_comm,
    ← Nat.lt_succ_iff, Nat.succ_eq_add_one, Nat.reduceAdd]
  split
  · rfl
  · split
    · next h => rw [htwo h]
    · split
      · next h => rw [hthree h]
      · rfl

/-- **The bytes of a text are its UTF-8 form.** -/
theorem toByteArray_encode (s : String) : (encode s).toByteArray = s.toUTF8 := by
  have hchar : encodeChar = String.utf8EncodeChar := funext encodeChar_eq
  calc (encode s).toByteArray
      = s.toList.utf8Encode := by rw [encode, encodeChars, hchar, List.utf8Encode]
    _ = (String.ofList s.toList).toByteArray := String.toByteArray_ofList.symm
    _ = s.toUTF8 := by rw [String.ofList_toList, String.toUTF8_eq_toByteArray]

/-! ## Refusals -/

variable {bytes : List UInt8} {e : Error}

/-- A character whose bytes stand at the front is the one that is read there. -/
theorem scanChar_of_isPrefix {a : UInt8} {rest : List UInt8} {c : Char} {cs : List Char}
    (h : encodeChars (c :: cs) <+: a :: rest) :
    ∃ left, scanChar a rest = .ok (c, left) ∧ encodeChars cs <+: left := by
  obtain ⟨behind, hbytes⟩ := h
  obtain ⟨b, tail, hchar, hscan⟩ := scanChar_encodeChar c (encodeChars cs ++ behind)
  rw [encodeChars_cons, hchar, List.append_assoc, List.cons_append] at hbytes
  cases hbytes
  exact ⟨_, hscan, List.prefix_append _ _⟩

/-- Before the fault stand the bytes of characters. -/
theorem exists_isPrefix_of_decodeFrom {index : Nat} (h : decodeFrom index bytes = .error e) :
    ∃ cs, encodeChars cs <+: bytes ∧ index + (encodeChars cs).length = e.validUpTo := by
  fun_induction decodeFrom index bytes with
  | case1 => cases h
  | case2 index a rest unfit hscan =>
    cases h
    exact ⟨[], List.nil_prefix, rfl⟩
  | case3 index a rest c left hscan e' hfault ih =>
    cases h
    obtain ⟨cs, hcs, hlength⟩ := ih hfault
    refine ⟨c :: cs, ?_, ?_⟩
    · rw [encodeChars_cons, eq_encodeChar_append hscan]
      exact List.prefix_append_right_inj _ |>.mpr hcs
    · rw [encodeChars_cons, List.length_append]
      omega
  | case4 => cases h

/-- No bytes of characters reach beyond the fault. -/
theorem length_le_of_decodeFrom {index : Nat} {cs : List Char}
    (h : decodeFrom index bytes = .error e) (hcs : encodeChars cs <+: bytes) :
    index + (encodeChars cs).length ≤ e.validUpTo := by
  fun_induction decodeFrom index bytes generalizing cs with
  | case1 => cases h
  | case2 index a rest unfit hscan =>
    cases h
    cases cs with
    | nil => exact Nat.le_refl _
    | cons c cs =>
      -- A first character would have been read.
      obtain ⟨left, hok, -⟩ := scanChar_of_isPrefix hcs
      rw [hscan] at hok
      cases hok
  | case3 index a rest c left hscan e' hfault ih =>
    cases h
    cases cs with
    | nil =>
      have hindex : index + (encodeChar c).length + (encodeChars []).length ≤ e.validUpTo :=
        ih hfault List.nil_prefix
      rw [encodeChars_nil, List.length_nil] at hindex ⊢
      omega
    | cons d ds =>
      -- Both ways of cutting have the same first character.
      obtain ⟨left', hok, hds⟩ := scanChar_of_isPrefix hcs
      rw [hscan] at hok
      cases hok
      have hindex := ih hfault hds
      rw [encodeChars_cons, List.length_append]
      omega
  | case4 => cases h

theorem decode_eq_ok_iff {s : String} : decode bytes = .ok s ↔ bytes = encode s :=
  ⟨eq_encode_of_decode, fun h => h ▸ decode_encode s⟩

/-- **A refusal counts the bytes of the longest beginning that is a text.** -/
theorem isGreatest_validUpTo (h : decode bytes = .error e) :
    IsGreatest {n | ∃ front s, front <+: bytes ∧ decode front = .ok s ∧ front.length = n}
      e.validUpTo := by
  have hfault : decodeFrom 0 bytes = .error e := by
    unfold decode at h
    cases hchars : decodeFrom 0 bytes with
    | error e' => rw [hchars] at h; cases h; rfl
    | ok cs => rw [hchars] at h; cases h
  constructor
  · obtain ⟨cs, hcs, hlength⟩ := exists_isPrefix_of_decodeFrom hfault
    refine ⟨encodeChars cs, String.ofList cs, hcs, ?_, by omega⟩
    rw [decode_eq_ok_iff, encode, String.toList_ofList]
  · rintro n ⟨front, s, hfront, hs, rfl⟩
    rw [decode_eq_ok_iff.mp hs] at hfront ⊢
    have hlength := length_le_of_decodeFrom hfault hfront
    rwa [Nat.zero_add] at hlength

end Utf8

/-! ## The codec -/

/-- The wording of a refusal names an index, as the place from which bytes are unfit or from which
a character is cut short. -/
def CodecError.NamesIndex (e : CodecError) (index : Nat) : Prop :=
  (∃ count, e.message? = some ("invalid UTF-8: invalid utf-8 sequence of " ++
    Decimal.natural count ++ " bytes from index " ++ Decimal.natural index)) ∨
  e.message? = some ("invalid UTF-8: incomplete utf-8 byte sequence from index " ++
    Decimal.natural index)

theorem CodecError.namesIndex_utf8 (fault : Utf8.Error) :
    (CodecError.utf8 fault).NamesIndex fault.validUpTo := by
  obtain ⟨index, unfit⟩ := fault
  cases unfit with
  | some count =>
      refine Or.inl ⟨count, ?_⟩
      simp only [message?, Utf8.Error.message, ← String.append_assoc]
      rfl
  | none =>
      refine Or.inr ?_
      simp only [message?, Utf8.Error.message, ← String.append_assoc]
      rfl

namespace Codec

variable {bytes : List UInt8} {s : String} {e : CodecError}

theorem text_decode_eq_ok_iff : text.decode bytes = .ok s ↔ Utf8.decode bytes = .ok s := by
  show (Utf8.decode bytes).mapError CodecError.utf8 = .ok s ↔ _
  cases Utf8.decode bytes with
  | ok s' =>
      constructor
      · rintro ⟨⟩
        rfl
      · rintro ⟨⟩
        rfl
  | error fault =>
      constructor
      · rintro ⟨⟩
      · rintro ⟨⟩

theorem text_decode_eq_error_iff :
    text.decode bytes = .error e ↔ ∃ fault, Utf8.decode bytes = .error fault ∧ e = .utf8 fault := by
  show (Utf8.decode bytes).mapError CodecError.utf8 = .error e ↔ _
  cases Utf8.decode bytes with
  | ok s =>
      constructor
      · rintro ⟨⟩
      · rintro ⟨fault, ⟨⟩, -⟩
  | error fault =>
      constructor
      · rintro ⟨⟩
        exact ⟨fault, rfl, rfl⟩
      · rintro ⟨fault', ⟨⟩, rfl⟩
        rfl

/-- **The text codec accepts exactly UTF-8 and inverts it.** The bytes of a text are its UTF-8 form
and are read back as that text, bytes are read as a text only if they are the bytes of that text,
and the index that the wording of a refusal names is the length of the longest beginning of the
bytes that is read. -/
theorem text_inverts_utf8 :
    (∀ s, (text.encode s).toByteArray = s.toUTF8 ∧ text.decode (text.encode s) = .ok s) ∧
    ∀ bytes,
      (∀ s, text.decode bytes = .ok s ↔ bytes = text.encode s) ∧
      ∀ e, text.decode bytes = .error e → ∃ fault, e = .utf8 fault ∧
        e.NamesIndex fault.validUpTo ∧
        IsGreatest {n | ∃ front s, front <+: bytes ∧ text.decode front = .ok s ∧ front.length = n}
          fault.validUpTo := by
  refine ⟨fun s => ⟨Utf8.toByteArray_encode s, ?_⟩, fun bytes => ⟨fun s => ?_, fun e he => ?_⟩⟩
  · exact text_decode_eq_ok_iff.mpr (Utf8.decode_encode s)
  · exact text_decode_eq_ok_iff.trans Utf8.decode_eq_ok_iff
  · obtain ⟨fault, hfault, rfl⟩ := text_decode_eq_error_iff.mp he
    simp only [text_decode_eq_ok_iff]
    exact ⟨fault, rfl, CodecError.namesIndex_utf8 fault, Utf8.isGreatest_validUpTo hfault⟩

/-- A surrogate behind two characters is refused at its first byte, although all of its bytes have
the form of bytes of a character. -/
theorem text_inverts_utf8_surrogate :
    let bytes : List UInt8 := [0x66, 0xC3, 0xA9, 0xED, 0xA0, 0x80]
    text.decode bytes = .error (.utf8 ⟨3, some 1⟩) ∧
      IsGreatest {n | ∃ front s, front <+: bytes ∧ text.decode front = .ok s ∧ front.length = n}
        3 := by
  intro bytes
  have hrefused : text.decode bytes = .error (.utf8 ⟨3, some 1⟩) := by
    refine text_decode_eq_error_iff.mpr ⟨_, ?_, rfl⟩
    simp +decide [bytes, Utf8.decode, Utf8.decodeFrom, Utf8.scanChar, Utf8.lead?, Utf8.isBetween,
      Utf8.isTail, Except.map]
  obtain ⟨fault, hfault, -, hgreatest⟩ := (text_inverts_utf8.2 bytes).2 _ hrefused
  cases hfault
  exact ⟨hrefused, hgreatest⟩

end Codec

end SplitReader
