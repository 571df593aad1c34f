import SplitReader.Text.Utf8

/-! # Reading UTF-8 undoes writing it, and accepts nothing else

Each character is read back off the front of its bytes, whatever follows them: the first byte
announces as many continuation bytes as were written, and the bounds on the second byte, which rule
out numbers that are too small, too large or surrogates, are those that the numbers of characters
keep. So every text is read back from its bytes (`decode_encode`). The same bounds leave room for no
other bytes: what is read as a character is the one form of that character, so what is read as a
text are the bytes of that text (`eq_encode_of_decode`).
-/

set_option autoImplicit false

namespace SplitReader.Utf8

variable {n : Nat}

/-! ## Bytes -/

theorem toNat_ofNat_of_lt (h : n < 0x100) : (UInt8.ofNat n).toNat = n :=
  UInt8.toNat_ofNat_of_lt' h

theorem toNat_tailByte (n : Nat) : (tailByte n).toNat = 0x80 + n % 0x40 :=
  toNat_ofNat_of_lt (by omega)

theorem isTail_tailByte (n : Nat) : isTail (tailByte n) = true := by
  simp only [isTail, toNat_tailByte, Bool.and_eq_true, decide_eq_true_eq]
  omega

theorem tailBits_tailByte (n : Nat) : tailBits (tailByte n) = n % 0x40 := by
  rw [tailBits, toNat_tailByte]
  omega

theorem isBetween_tailByte {low high : Nat} (hlow : low ≤ 0x80 + n % 0x40)
    (hhigh : 0x80 + n % 0x40 ≤ high) : isBetween low high (tailByte n) = true := by
  simp only [isBetween, toNat_tailByte, Bool.and_eq_true, decide_eq_true_eq]
  exact ⟨hlow, hhigh⟩

/-! ## Characters -/

/-- A character is no surrogate and not past the last character. -/
theorem toNat_isValid (c : Char) :
    c.toNat < 0xD800 ∨ (0xDFFF < c.toNat ∧ c.toNat < 0x110000) := c.valid

/-- The bytes that a number takes up as a character. -/
inductive HasForm (n : Nat) : List UInt8 → Prop where
  | one (h : n < 0x80) : HasForm n [UInt8.ofNat n]
  | two (h : 0x80 ≤ n) (h' : n < 0x800) : HasForm n [UInt8.ofNat (0xC0 + n / 0x40), tailByte n]
  | three (h : 0x800 ≤ n) (h' : n < 0x10000) :
      HasForm n [UInt8.ofNat (0xE0 + n / 0x1000), tailByte (n / 0x40), tailByte n]
  | four (h : 0x10000 ≤ n) (h' : n < 0x110000) :
      HasForm n [UInt8.ofNat (0xF0 + n / 0x40000), tailByte (n / 0x1000), tailByte (n / 0x40),
        tailByte n]

theorem hasForm_encodeChar (c : Char) : HasForm c.toNat (encodeChar c) := by
  have hvalid := toNat_isValid c
  simp only [encodeChar]
  split
  · next hone => exact .one hone
  · split
    · next hone htwo => exact .two (by omega) htwo
    · split
      · next htwo hthree => exact .three (by omega) hthree
      · next hthree => exact .four (by omega) (by omega)

/-- What the first byte of a form of three bytes announces: a second byte in a range in which that
of a character lies. -/
theorem lead?_three (h : 0x800 ≤ n) (h' : n < 0x10000) (hvalid : n < 0xD800 ∨ 0xDFFF < n) :
    ∃ low high, lead? (UInt8.ofNat (0xE0 + n / 0x1000)) = some (.three low high) ∧
      low ≤ 0x80 + n / 0x40 % 0x40 ∧ 0x80 + n / 0x40 % 0x40 ≤ high := by
  simp only [lead?, toNat_ofNat_of_lt (show 0xE0 + n / 0x1000 < 0x100 by omega)]
  rw [if_neg (by omega), if_neg (by omega), if_neg (by omega)]
  split
  · exact ⟨_, _, rfl, by omega, by omega⟩
  · split
    · exact ⟨_, _, rfl, by omega, by omega⟩
    · rw [if_pos (by omega)]
      exact ⟨_, _, rfl, by omega, by omega⟩

theorem lead?_four (h : 0x10000 ≤ n) (h' : n < 0x110000) :
    ∃ low high, lead? (UInt8.ofNat (0xF0 + n / 0x40000)) = some (.four low high) ∧
      low ≤ 0x80 + n / 0x1000 % 0x40 ∧ 0x80 + n / 0x1000 % 0x40 ≤ high := by
  simp only [lead?, toNat_ofNat_of_lt (show 0xF0 + n / 0x40000 < 0x100 by omega)]
  rw [if_neg (by omega), if_neg (by omega), if_neg (by omega), if_neg (by omega),
    if_neg (by omega), if_neg (by omega)]
  split
  · exact ⟨_, _, rfl, by omega, by omega⟩
  · split
    · exact ⟨_, _, rfl, by omega, by omega⟩
    · rw [if_pos (by omega)]
      exact ⟨_, _, rfl, by omega, by omega⟩

theorem HasForm.exists_scanChar {c : Char} {bytes : List UInt8} (h : HasForm c.toNat bytes)
    (rest : List UInt8) :
    ∃ a tail, bytes = a :: tail ∧ scanChar a (tail ++ rest) = .ok (c, rest) := by
  have hvalid := toNat_isValid c
  -- In each form the bits of the bytes make up the number of the character again.
  have hback : ∀ m, m = c.toNat → Char.ofNat m = c := by
    rintro m rfl
    exact Char.ofNat_toNat c
  cases h with
  | one hone =>
      refine ⟨_, [], rfl, ?_⟩
      have hlead : lead? (UInt8.ofNat c.toNat) = some .one := by
        rw [lead?, toNat_ofNat_of_lt (by omega), if_pos hone]
      simp only [scanChar, hlead, toNat_ofNat_of_lt (show c.toNat < 0x100 by omega),
        Char.ofNat_toNat]
      rfl
  | two hlow htwo =>
      refine ⟨_, _, rfl, ?_⟩
      have hfirst : (UInt8.ofNat (0xC0 + c.toNat / 0x40)).toNat = 0xC0 + c.toNat / 0x40 :=
        toNat_ofNat_of_lt (by omega)
      have hlead : lead? (UInt8.ofNat (0xC0 + c.toNat / 0x40)) = some .two := by
        rw [lead?, hfirst, if_neg (by omega), if_neg (by omega), if_pos (by omega)]
      simp only [scanChar, hlead, List.cons_append, List.nil_append, isTail_tailByte, if_true,
        hfirst, tailBits_tailByte]
      rw [hback _ (by omega)]
  | three hlow hthree =>
      refine ⟨_, _, rfl, ?_⟩
      obtain ⟨low, high, hlead, hlow, hhigh⟩ := lead?_three (n := c.toNat) hlow hthree (by omega)
      have hfirst : (UInt8.ofNat (0xE0 + c.toNat / 0x1000)).toNat = 0xE0 + c.toNat / 0x1000 :=
        toNat_ofNat_of_lt (by omega)
      simp only [scanChar, hlead, List.cons_append, List.nil_append,
        isBetween_tailByte hlow hhigh, isTail_tailByte, if_true, hfirst, tailBits_tailByte]
      rw [hback _ (by omega)]
  | four hlow hfour =>
      refine ⟨_, _, rfl, ?_⟩
      obtain ⟨low, high, hlead, hlow, hhigh⟩ := lead?_four (n := c.toNat) hlow hfour
      have hfirst : (UInt8.ofNat (0xF0 + c.toNat / 0x40000)).toNat = 0xF0 + c.toNat / 0x40000 :=
        toNat_ofNat_of_lt (by omega)
      simp only [scanChar, hlead, List.cons_append, List.nil_append,
        isBetween_tailByte hlow hhigh, isTail_tailByte, if_true, hfirst, tailBits_tailByte]
      rw [hback _ (by omega)]

/-- **A character is read back** off the front of its bytes. -/
theorem scanChar_encodeChar (c : Char) (rest : List UInt8) :
    ∃ a tail, encodeChar c = a :: tail ∧ scanChar a (tail ++ rest) = .ok (c, rest) :=
  (hasForm_encodeChar c).exists_scanChar rest

/-! ## Texts -/

@[simp] theorem encodeChars_nil : encodeChars [] = [] := rfl

theorem encodeChars_cons (c : Char) (cs : List Char) :
    encodeChars (c :: cs) = encodeChar c ++ encodeChars cs := List.flatMap_cons

theorem encodeChars_append (cs ds : List Char) :
    encodeChars (cs ++ ds) = encodeChars cs ++ encodeChars ds := List.flatMap_append

theorem encode_append (s t : String) : encode (s ++ t) = encode s ++ encode t := by
  rw [encode, String.toList_append, encodeChars_append]
  rfl

/-- Characters are read back from their bytes, at whatever index of a text these stand. -/
theorem decodeFrom_encodeChars (cs : List Char) (index : Nat) :
    decodeFrom index (encodeChars cs) = .ok cs := by
  induction cs generalizing index with
  | nil => rw [encodeChars_nil, decodeFrom]
  | cons c cs ih =>
      obtain ⟨a, tail, hchar, hscan⟩ := scanChar_encodeChar c (encodeChars cs)
      rw [encodeChars_cons, hchar, List.cons_append, decodeFrom]
      split
      · next unfit hfault =>
        rw [hscan] at hfault
        cases hfault
      · next hok =>
        rw [hscan] at hok
        cases hok
        rw [ih]

/-- **A text is read back** from its bytes. -/
theorem decode_encode (s : String) : decode (encode s) = .ok s := by
  rw [decode, encode, decodeFrom_encodeChars, Except.map, String.ofList_toList]

/-! ## Only written forms are read -/

theorem eq_ofNat {b : UInt8} {n : Nat} (h : n = b.toNat) : UInt8.ofNat n = b := by
  rw [h, UInt8.ofNat_toNat]

theorem eq_tailByte {b : UInt8} {n : Nat} (hlow : 0x80 ≤ b.toNat) (hhigh : b.toNat < 0xC0)
    (h : n % 0x40 = tailBits b) : tailByte n = b := by
  unfold tailBits at h
  exact eq_ofNat (by omega)

/-- The number of a character is a character. -/
theorem toNat_ofNat_char {n : Nat} (h : n < 0xD800 ∨ (0xDFFF < n ∧ n < 0x110000)) :
    (Char.ofNat n).toNat = n := by
  have hvalid : n.isValidChar := h
  rw [Char.ofNat, dif_pos hvalid]
  rfl

/-- A first byte that announces a form lies in the range of that form, and holds the second byte to
a range of continuation bytes that rules out the numbers which no character has. -/
theorem range_of_lead? {b : UInt8} {l : Lead} (h : lead? b = some l) :
    match l with
    | .one => b.toNat < 0x80
    | .two => 0xC2 ≤ b.toNat ∧ b.toNat < 0xE0
    | .three low high => 0xE0 ≤ b.toNat ∧ b.toNat < 0xF0 ∧ 0x80 ≤ low ∧ high < 0xC0 ∧
        (b.toNat = 0xE0 → 0xA0 ≤ low) ∧ (b.toNat = 0xED → high < 0xA0)
    | .four low high => 0xF0 ≤ b.toNat ∧ b.toNat < 0xF5 ∧ 0x80 ≤ low ∧ high < 0xC0 ∧
        (b.toNat = 0xF0 → 0x90 ≤ low) ∧ (b.toNat = 0xF4 → high < 0x90) := by
  unfold lead? at h
  simp only at h
  repeat' split at h
  all_goals cases h
  all_goals
    dsimp only
    omega

theorem encodeChar_one {a : UInt8} (h : a.toNat < 0x80) :
    encodeChar (Char.ofNat a.toNat) = [a] := by
  have hchar := toNat_ofNat_char (n := a.toNat) (by omega)
  rw [encodeChar, hchar, if_pos h, eq_ofNat rfl]

theorem encodeChar_two {a b : UInt8} (ha : 0xC2 ≤ a.toNat ∧ a.toNat < 0xE0)
    (hb : 0x80 ≤ b.toNat ∧ b.toNat < 0xC0) :
    encodeChar (Char.ofNat (a.toNat % 0x20 * 0x40 + tailBits b)) = [a, b] := by
  have hbits : tailBits b < 0x40 := Nat.mod_lt _ (by decide)
  have hchar := toNat_ofNat_char (n := a.toNat % 0x20 * 0x40 + tailBits b) (by omega)
  have hfirst : UInt8.ofNat (0xC0 + (a.toNat % 0x20 * 0x40 + tailBits b) / 0x40) = a :=
    eq_ofNat (by omega)
  have hsecond : tailByte (a.toNat % 0x20 * 0x40 + tailBits b) = b :=
    eq_tailByte hb.1 hb.2 (by omega)
  simp only [encodeChar, hchar, hfirst, hsecond]
  rw [if_neg (by omega), if_pos (by omega)]

/-- The form of three bytes is that of the number they carry, unless a shorter one would do or the
number is a surrogate. -/
theorem encodeChar_three {a b c : UInt8} (ha : 0xE0 ≤ a.toNat ∧ a.toNat < 0xF0)
    (hb : 0x80 ≤ b.toNat ∧ b.toNat < 0xC0) (hc : 0x80 ≤ c.toNat ∧ c.toNat < 0xC0)
    (hlong : a.toNat = 0xE0 → 0xA0 ≤ b.toNat) (hsurrogate : a.toNat = 0xED → b.toNat < 0xA0) :
    encodeChar (Char.ofNat (a.toNat % 0x10 * 0x1000 + tailBits b * 0x40 + tailBits c)) =
      [a, b, c] := by
  have hbits : tailBits b = b.toNat - 0x80 := by unfold tailBits; omega
  have hbits' : tailBits c < 0x40 := Nat.mod_lt _ (by decide)
  generalize hn : a.toNat % 0x10 * 0x1000 + tailBits b * 0x40 + tailBits c = n
  have hchar := toNat_ofNat_char (n := n) (by omega)
  have hfirst : UInt8.ofNat (0xE0 + n / 0x1000) = a := eq_ofNat (by omega)
  have hsecond : tailByte (n / 0x40) = b := eq_tailByte hb.1 hb.2 (by omega)
  have hthird : tailByte n = c := eq_tailByte hc.1 hc.2 (by omega)
  simp only [encodeChar, hchar, hfirst, hsecond, hthird]
  rw [if_neg (by omega), if_neg (by omega), if_pos (by omega)]

/-- The form of four bytes is that of the number they carry, unless a shorter one would do or the
number is past the last character. -/
theorem encodeChar_four {a b c d : UInt8} (ha : 0xF0 ≤ a.toNat ∧ a.toNat < 0xF5)
    (hb : 0x80 ≤ b.toNat ∧ b.toNat < 0xC0) (hc : 0x80 ≤ c.toNat ∧ c.toNat < 0xC0)
    (hd : 0x80 ≤ d.toNat ∧ d.toNat < 0xC0) (hlong : a.toNat = 0xF0 → 0x90 ≤ b.toNat)
    (hlarge : a.toNat = 0xF4 → b.toNat < 0x90) :
    encodeChar (Char.ofNat (a.toNat % 0x08 * 0x40000 + tailBits b * 0x1000 + tailBits c * 0x40 +
      tailBits d)) = [a, b, c, d] := by
  have hbits : tailBits b = b.toNat - 0x80 := by unfold tailBits; omega
  have hbits' : tailBits c < 0x40 := Nat.mod_lt _ (by decide)
  have hbits'' : tailBits d < 0x40 := Nat.mod_lt _ (by decide)
  generalize hn :
    a.toNat % 0x08 * 0x40000 + tailBits b * 0x1000 + tailBits c * 0x40 + tailBits d = n
  have hchar := toNat_ofNat_char (n := n) (by omega)
  have hfirst : UInt8.ofNat (0xF0 + n / 0x40000) = a := eq_ofNat (by omega)
  have hsecond : tailByte (n / 0x1000) = b := eq_tailByte hb.1 hb.2 (by omega)
  have hthird : tailByte (n / 0x40) = c := eq_tailByte hc.1 hc.2 (by omega)
  have hfourth : tailByte n = d := eq_tailByte hd.1 hd.2 (by omega)
  simp only [encodeChar, hchar, hfirst, hsecond, hthird, hfourth]
  rw [if_neg (by omega), if_neg (by omega), if_neg (by omega)]

theorem of_isTail {b : UInt8} (h : isTail b = true) : 0x80 ≤ b.toNat ∧ b.toNat < 0xC0 := by
  simpa [isTail] using h

theorem of_isBetween {low high : Nat} {b : UInt8} (h : isBetween low high b = true) :
    low ≤ b.toNat ∧ b.toNat ≤ high := by
  simpa [isBetween] using h

/-- **What is read as a character is the form of that character**, with the rest behind it. -/
theorem eq_encodeChar_append {a : UInt8} {rest left : List UInt8} {x : Char}
    (h : scanChar a rest = .ok (x, left)) : a :: rest = encodeChar x ++ left := by
  unfold scanChar at h
  split at h
  case h_1 => cases h
  case h_2 hlead =>
    cases h
    rw [encodeChar_one (range_of_lead? hlead), List.singleton_append]
  case h_3 hlead =>
    repeat' split at h
    all_goals cases h
    next hb =>
    rw [encodeChar_two (range_of_lead? hlead) (of_isTail hb)]
    rfl
  case h_4 low high hlead =>
    obtain ⟨hge, hlt, hlow, hhigh, hlong, hsurrogate⟩ := range_of_lead? hlead
    repeat' split at h
    all_goals cases h
    next hb _ _ hc =>
    have hbetween := of_isBetween hb
    rw [encodeChar_three ⟨hge, hlt⟩ (by omega) (of_isTail hc) (by omega) (by omega)]
    rfl
  case h_5 low high hlead =>
    obtain ⟨hge, hlt, hlow, hhigh, hlong, hlarge⟩ := range_of_lead? hlead
    repeat' split at h
    all_goals cases h
    next hb _ _ hc _ _ hd =>
    have hbetween := of_isBetween hb
    rw [encodeChar_four ⟨hge, hlt⟩ (by omega) (of_isTail hc) (of_isTail hd) (by omega)
      (by omega)]
    rfl

theorem eq_encodeChars_of_decodeFrom {bytes : List UInt8} {index : Nat} {cs : List Char}
    (h : decodeFrom index bytes = .ok cs) : bytes = encodeChars cs := by
  fun_induction decodeFrom index bytes generalizing cs with
  | case1 => cases h; rfl
  | case2 => cases h
  | case3 => cases h
  | case4 index a rest c left hscan cs' hmore ih =>
    cases h
    rw [eq_encodeChar_append hscan, ih hmore, encodeChars_cons]

/-- **What is read as a text are the bytes of that text.** -/
theorem eq_encode_of_decode {bytes : List UInt8} {s : String} (h : decode bytes = .ok s) :
    bytes = encode s := by
  unfold decode at h
  cases hchars : decodeFrom 0 bytes with
  | error e => rw [hchars] at h; cases h
  | ok cs =>
      rw [hchars] at h
      cases h
      rw [eq_encodeChars_of_decodeFrom hchars, encode, String.toList_ofList]

end SplitReader.Utf8
