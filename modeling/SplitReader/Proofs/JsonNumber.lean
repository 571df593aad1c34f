import SplitReader.Proofs.JsonWritten

/-! # Reading whole numbers undoes writing them

A whole number is written by its decimal digits, without a leading zero. What follows a written
value is no digit, no point and no exponent, so the reader takes exactly these digits
(`scanWhole_digits`), finds neither fraction nor exponent behind them, and adds the digits up again
without ever leaving the words (`wholePart_of_lt`). A number of one word comes back as that word,
and a number below zero of one signed word comes back with its sign (`scan_natural`,
`scan_negative`).
-/

set_option autoImplicit false

namespace SplitReader

/-! ## Decimal digits -/

namespace Decimal

theorem lt_ten_of_mem_digits (n : Nat) : ∀ d ∈ digits n, d < 10 := by
  induction n using Nat.strongRecOn with
  | ind n ih =>
      intro d hd
      rw [digits] at hd
      by_cases hn : n < 10
      · rw [if_pos hn, List.mem_singleton] at hd
        omega
      · rw [if_neg hn, List.mem_append, List.mem_singleton] at hd
        rcases hd with hd | rfl
        · exact ih (n / 10) (by omega) d hd
        · omega

theorem ofDigits_digits (n : Nat) : ofDigits (digits n) = n := by
  induction n using Nat.strongRecOn with
  | ind n ih =>
      rw [digits]
      by_cases hn : n < 10
      · rw [if_pos hn]
        simp [ofDigits]
      · have htens : ofDigits (digits (n / 10)) = n / 10 := ih (n / 10) (by omega)
        rw [if_neg hn, ofDigits, List.foldl_append, ← ofDigits, htens]
        show n / 10 * 10 + n % 10 = n
        omega

/-- The digits of a number that is not zero do not begin with a zero. -/
theorem exists_digits_eq_cons {n : Nat} (hn : n ≠ 0) : ∃ d ds, digits n = d :: ds ∧ d ≠ 0 := by
  induction n using Nat.strongRecOn with
  | ind n ih =>
      rw [digits]
      by_cases hsmall : n < 10
      · exact ⟨n, [], if_pos hsmall, hn⟩
      · obtain ⟨d, ds, hdigits, hd⟩ := ih (n / 10) (by omega) (by omega)
        exact ⟨d, ds ++ [n % 10], by rw [if_neg hsmall, hdigits, List.cons_append], hd⟩

theorem le_foldl_digits (ds : List Nat) (n : Nat) : n ≤ ds.foldl (fun n d => n * 10 + d) n := by
  induction ds generalizing n with
  | nil => exact Nat.le_refl n
  | cons d ds ih =>
      calc n ≤ n * 10 + d := by omega
        _ ≤ ds.foldl (fun n d => n * 10 + d) (n * 10 + d) := ih _

end Decimal

namespace Json

open Token

/-! ## Bytes of digits -/

namespace Numeral

def digitByte (d : Nat) : UInt8 := UInt8.ofNat (0x30 + d)

variable {d n : Nat}

theorem toNat_digitByte (h : d < 10) : (digitByte d).toNat = 0x30 + d :=
  Utf8.toNat_ofNat_of_lt (by omega)

theorem isDigit_digitByte (h : d < 10) : isDigit (digitByte d) = true := by
  have hbyte := toNat_digitByte h
  simp only [isDigit, Bool.and_eq_true, decide_eq_true_eq]
  omega

theorem digitValue_digitByte (h : d < 10) : digitValue (digitByte d) = d := by
  have hbyte := toNat_digitByte h
  rw [digitValue]
  omega

theorem map_digitValue_digitByte {ds : List Nat} (h : ∀ d ∈ ds, d < 10) :
    (ds.map digitByte).map digitValue = ds := by
  have hall : ∀ d ∈ ds, (digitValue ∘ digitByte) d = id d :=
    fun d hd => digitValue_digitByte (h d hd)
  rw [List.map_map, List.map_congr_left hall, List.map_id]

theorem encodeChar_digitChar (h : d < 10) :
    Utf8.encodeChar (Decimal.digitChar d) = [digitByte d] := by
  have hall : ∀ d, d < 10 → Utf8.encodeChar (Decimal.digitChar d) = [digitByte d] := by
    decide
  exact hall d h

theorem encode_natural (n : Nat) :
    Utf8.encode (Writer.natural n) = (Decimal.digits n).map digitByte := by
  have hchars : ∀ ds : List Nat, (∀ d ∈ ds, d < 10) →
      Utf8.encodeChars (ds.map Decimal.digitChar) = ds.map digitByte := by
    intro ds hds
    induction ds with
    | nil => rfl
    | cons d ds ih =>
        rw [List.map_cons, Utf8.encodeChars_cons, encodeChar_digitChar (hds d List.mem_cons_self),
          ih fun d' hd' => hds d' (List.mem_cons_of_mem _ hd')]
        rfl
  rw [Writer.natural, Decimal.natural, Utf8.encode, String.toList_ofList, Decimal.naturalChars]
  exact hchars _ (Decimal.lt_ten_of_mem_digits n)

/-! ## What follows a number -/

variable {rest : List UInt8}

/-- What follows a written value does not go on with the number. -/
theorem of_isBoundary {b : UInt8} {left : List UInt8} (h : IsBoundary (b :: left)) :
    isDigit b = false ∧ b ≠ 0x2E ∧ b ≠ 0x65 ∧ b ≠ 0x45 := by
  have hb := h b rfl
  simp only [isBlank, Bool.or_eq_true, decide_eq_true_eq] at hb
  rcases hb with (((rfl | rfl) | rfl) | rfl) | rfl | rfl | rfl <;> decide

theorem scanFraction_of_isBoundary (h : IsBoundary rest) :
    scanFraction rest = .ok (none, rest) := by
  cases rest with
  | nil => rfl
  | cons b left =>
      obtain ⟨-, hpoint, -, -⟩ := of_isBoundary h
      rw [scanFraction, if_neg hpoint]

theorem scanExponent_of_isBoundary (h : IsBoundary rest) :
    scanExponent rest = .ok (none, rest) := by
  cases rest with
  | nil => rfl
  | cons b left =>
      obtain ⟨-, -, hsmall, hlarge⟩ := of_isBoundary h
      rw [scanExponent, if_neg (by rintro (hb | hb); exacts [hsmall hb, hlarge hb])]

/-! ## Digits -/

theorem scanDigits_digits {ds : List Nat} (hne : ds ≠ []) (hds : ∀ d ∈ ds, d < 10)
    (h : IsBoundary rest) : scanDigits (ds.map digitByte ++ rest) = .ok (ds, rest) := by
  have hall : ∀ b ∈ ds.map digitByte, isDigit b = true := by
    intro b hb
    obtain ⟨d, hd, rfl⟩ := List.mem_map.mp hb
    exact isDigit_digitByte (hds d hd)
  have hstop : rest.takeWhile isDigit = [] ∧ rest.dropWhile isDigit = rest := by
    cases rest with
    | nil => exact ⟨rfl, rfl⟩
    | cons b left =>
        obtain ⟨hb, -⟩ := of_isBoundary h
        rw [List.takeWhile_cons, List.dropWhile_cons, hb]
        exact ⟨rfl, rfl⟩
  have hback := map_digitValue_digitByte hds
  obtain ⟨b, run, hrun⟩ := List.exists_cons_of_ne_nil (l := ds.map digitByte) (by simpa using hne)
  rw [scanDigits, List.takeWhile_append_of_pos hall, List.dropWhile_append_of_pos hall, hstop.1,
    hstop.2, List.append_nil, hrun]
  show Except.ok ((b :: run).map digitValue, rest) = _
  rw [← hrun, hback]

/-- **The digits of a number are read up to what follows**, a lone zero among them. -/
theorem scanWhole_digits (n : Nat) (h : IsBoundary rest) :
    scanWhole ((Decimal.digits n).map digitByte ++ rest) = .ok (Decimal.digits n, rest) := by
  by_cases hn : n = 0
  · subst hn
    rw [Decimal.digits, if_pos (by decide)]
    show scanWhole (0x30 :: rest) = _
    cases rest with
    | nil => rfl
    | cons b left =>
        obtain ⟨hb, -⟩ := of_isBoundary h
        simp only [scanWhole, if_true, hb, Bool.false_eq_true, if_false]
  · obtain ⟨d, ds, hdigits, hd⟩ := Decimal.exists_digits_eq_cons hn
    have hten := Decimal.lt_ten_of_mem_digits n
    have hscan : scanDigits ((Decimal.digits n).map digitByte ++ rest) =
        .ok (Decimal.digits n, rest) := scanDigits_digits (by simp [hdigits]) hten h
    rw [hdigits] at hten hscan ⊢
    have hfirst := toNat_digitByte (hten d List.mem_cons_self)
    have hzero : digitByte d ≠ 0x30 := by
      intro heq
      rw [heq] at hfirst
      change 0x30 = 0x30 + d at hfirst
      omega
    rw [List.map_cons, List.cons_append] at hscan ⊢
    simp only [scanWhole, if_neg hzero, hscan]

/-- Digits of a number of one word are added up without leaving the words. -/
theorem wholePart_of_lt {ds : List Nat} (h : Decimal.ofDigits ds < UInt64.size) :
    wholePart ds = (Decimal.ofDigits ds, 0) := by
  -- On the way the sum only grows, so it stays below its end.
  have hfold : ∀ (ds : List Nat) (n : Nat),
      ds.foldl (fun n d => n * 10 + d) n < UInt64.size →
        ds.foldl pushWhole (n, 0) = (ds.foldl (fun n d => n * 10 + d) n, 0) := by
    intro ds
    induction ds with
    | nil => exact fun n _ => rfl
    | cons d ds ih =>
        intro n hlt
        have hgrows := Decimal.le_foldl_digits ds (n * 10 + d)
        have hpush : pushWhole (n, 0) d = (n * 10 + d, 0) :=
          if_pos ⟨rfl, Nat.lt_of_le_of_lt hgrows hlt⟩
        rw [List.foldl_cons, List.foldl_cons, hpush, ih _ hlt]
  exact hfold ds 0 h

theorem scanMagnitude_digits (isNegative : Bool) (hn : n < UInt64.size) (h : IsBoundary rest) :
    scanMagnitude isNegative ((Decimal.digits n).map digitByte ++ rest) =
      .ok (ofWhole isNegative n 0, rest) := by
  have hwhole : wholePart (Decimal.digits n) = (n, 0) := by
    have hsum := Decimal.ofDigits_digits n
    rw [wholePart_of_lt (by rwa [hsum]), hsum]
  simp only [scanMagnitude, scanWhole_digits n h, hwhole, scanFraction_of_isBoundary h,
    scanExponent_of_isBoundary h, bind, Except.bind]
  rfl

/-! ## Numbers -/

theorem exists_encode_natural (n : Nat) :
    ∃ b bytes, Utf8.encode (Writer.natural n) = b :: bytes ∧ isDigit b = true := by
  have hne : Decimal.digits n ≠ [] := by
    rw [Decimal.digits]
    split <;> simp
  obtain ⟨d, ds, hdigits⟩ := List.exists_cons_of_ne_nil hne
  have hd : d < 10 := Decimal.lt_ten_of_mem_digits n d (by simp [hdigits])
  exact ⟨digitByte d, ds.map digitByte, by rw [encode_natural, hdigits, List.map_cons],
    isDigit_digitByte hd⟩

/-- **A written number of one word is read back.** -/
theorem scan_natural (hn : n < UInt64.size) (h : IsBoundary rest) :
    scan (Utf8.encode (Writer.natural n) ++ rest) = .ok (.natural (.ofNat n), rest) := by
  have hmagnitude := scanMagnitude_digits false hn h
  rw [← encode_natural] at hmagnitude
  obtain ⟨b, bytes, hbytes, hb⟩ := exists_encode_natural n
  rw [hbytes, List.cons_append] at hmagnitude ⊢
  have hsign : b ≠ 0x2D := by
    rintro rfl
    cases hb
  rw [scan, if_neg hsign, hmagnitude]
  rfl

/-- **A written number below zero of one signed word is read back.** -/
theorem scan_negative (hpos : n ≠ 0) (hn : n ≤ Word.signedBound) (h : IsBoundary rest) :
    scan (0x2D :: (Utf8.encode (Writer.natural n) ++ rest)) =
      .ok (.negative (.ofInt (-n)), rest) := by
  have hword : n < UInt64.size := by
    rw [← Word.two_signedBound]
    have hbound : 0 < Word.signedBound := by decide
    omega
  have hwhole : ofWhole true n 0 = .negative (.ofInt (-n)) := by
    have hfits : ¬ (n = 0 ∨ Word.signedBound < n) := by omega
    simp only [ofWhole, ne_eq, not_true_eq_false, if_false, Bool.not_true, Bool.false_eq_true,
      if_neg hfits]
  rw [scan, if_pos rfl, encode_natural, scanMagnitude_digits true hword h, hwhole]

end Numeral

/-! ## Tokens of numbers -/

namespace Token

theorem scan_number {b : UInt8} {rest left : List UInt8} {n : Numeral}
    (hb : b = 0x2D ∨ Numeral.isDigit b = true) (h : Numeral.scan (b :: rest) = .ok (n, left)) :
    scan b rest = (.number n, left) := by
  have hrange : b.toNat = 0x2D ∨ (0x30 ≤ b.toNat ∧ b.toNat ≤ 0x39) := by
    rcases hb with rfl | hdigit
    · exact Or.inl rfl
    · simpa [Numeral.isDigit] using Or.inr hdigit
  -- None of the bytes that begin other tokens is a digit or a minus.
  unfold scan
  split
  case h_11 =>
    rw [if_pos hb, scanNumber, h]
  all_goals omega

theorem ofBytes_number {b : UInt8} {rest left : List UInt8} {n : Numeral}
    (hb : b = 0x2D ∨ Numeral.isDigit b = true) (h : Numeral.scan (b :: rest) = .ok (n, left)) :
    ofBytes (b :: rest) = .number n :: ofBytes left := by
  have hblank : isBlank b = false := by
    rcases hb with rfl | hdigit
    · rfl
    · simp only [Numeral.isDigit, Bool.and_eq_true, decide_eq_true_eq] at hdigit
      simp only [isBlank, Bool.or_eq_false_iff, decide_eq_false_iff_not]
      refine ⟨⟨⟨?_, ?_⟩, ?_⟩, ?_⟩ <;>
      · rintro rfl
        revert hdigit
        decide
  rw [ofBytes_cons hblank, scan_number hb h]

theorem cuts_natural {n : Nat} (hn : n < UInt64.size) :
    Cuts (Writer.natural n) [.number (.natural (.ofNat n))] := by
  intro rest hrest
  have hscan := Numeral.scan_natural hn hrest
  obtain ⟨b, bytes, hbytes, hb⟩ := Numeral.exists_encode_natural n
  rw [hbytes, List.cons_append] at hscan ⊢
  exact ofBytes_number (Or.inr hb) hscan

theorem cuts_integer {n : Int} (hneg : n < 0) (hn : -(Word.signedBound : Int) ≤ n) :
    Cuts (Writer.integer n) [.number (.negative (.ofInt n))] := by
  intro rest hrest
  have hscan := Numeral.scan_negative (n := n.natAbs) (by omega) (by omega) hrest
  have hbytes : Utf8.encode (Writer.integer n) ++ rest =
      0x2D :: (Utf8.encode (Writer.natural n.natAbs) ++ rest) := by
    rw [Writer.integer, Decimal.integer, if_pos hneg, Utf8.encode_append, List.append_assoc]
    rfl
  have habs : -(n.natAbs : Int) = n := by omega
  rw [habs] at hscan
  rw [hbytes]
  exact ofBytes_number (Or.inl rfl) hscan

end Token

/-! ## Written numbers -/

theorem written_natural (depth : Nat) (n : UInt64) :
    Written (Value.read depth) (Writer.natural n.toNat) (.number (.natural n)) := by
  have hcuts := cuts_natural n.toNat_lt
  rw [UInt64.ofNat_toNat] at hcuts
  refine ⟨_, [], hcuts, trivial, fun rest => ?_⟩
  cases depth <;> rfl

theorem written_negative (depth : Nat) {n : Int64} (h : n.toInt < 0) :
    Written (Value.read depth) (Writer.integer n.toInt) (.number (.negative n)) := by
  have hcuts := cuts_integer h n.le_toInt
  rw [Int64.ofInt_toInt] at hcuts
  refine ⟨_, [], hcuts, trivial, fun rest => ?_⟩
  cases depth <;> rfl

end Json

end SplitReader
