import SplitReader.Json.Token
import SplitReader.Json.Writer
import SplitReader.Proofs.Utf8

/-! # Reading quoted texts

Between its quotes a text is spelled character by character, and there are four ways to spell a
character (`SpellsChar`): by its own bytes, none of which is a quote, a backslash or a control
character, since the bytes of a character that is not ASCII are not ASCII either; by a letter behind
a backslash; by its number in four hexadecimal digits; and, past the numbers of four digits, by the
numbers of two halves. Each is read back off the front. So the closing quote is found where it
stands, and the content is the text (`scanText_spelled`). A text is written in one of its spellings
(`spellsChar_escape`).
-/

set_option autoImplicit false

namespace SplitReader.Json.Token

open SplitReader.Utf8 (encodeChar encodeChars)

/-! ## Plain bytes -/

/-- A byte that stands for itself in a quoted text. -/
def IsPlain (b : UInt8) : Prop := 0x20 ≤ b.toNat ∧ b ≠ 0x22 ∧ b ≠ 0x5C

theorem prepend_prepend (xs ys : List UInt8) (s : TextScan) :
    (s.prepend ys).prepend xs = s.prepend (xs ++ ys) := by
  obtain ⟨content, rest⟩ := s
  cases content <;> simp [TextScan.prepend, Except.map]

theorem prepend_nil (s : TextScan) : s.prepend [] = s := by
  obtain ⟨content, rest⟩ := s
  cases content <;> rfl

theorem scanText_append {bytes : List UInt8} (h : ∀ b ∈ bytes, IsPlain b) (rest : List UInt8) :
    scanText (bytes ++ rest) = (scanText rest).prepend bytes := by
  induction bytes with
  | nil => exact (prepend_nil _).symm
  | cons b bytes ih =>
      obtain ⟨hlow, hquote, hslash⟩ := h b List.mem_cons_self
      rw [List.cons_append, scanText, if_neg hquote, if_neg (by omega), if_pos hslash,
        ih fun b' hb' => h b' (List.mem_cons_of_mem _ hb'), prepend_prepend]
      rfl

theorem isPlain_of_le {b : UInt8} (h : 0x80 ≤ b.toNat) : IsPlain b := by
  refine ⟨by omega, ?_, ?_⟩ <;>
  · rintro rfl
    simp at h

/-- The bytes of a character above the ASCII ones are above the ASCII ones. -/
theorem le_of_mem_encodeChar {c : Char} (hc : 0x80 ≤ c.toNat) {b : UInt8}
    (hb : b ∈ encodeChar c) : 0x80 ≤ b.toNat := by
  have hvalid := Utf8.toNat_isValid c
  have hlead : ∀ n, 0xC0 ≤ n → n < 0x100 → 0x80 ≤ (UInt8.ofNat n).toNat := by
    intro n hlow hhigh
    rw [Utf8.toNat_ofNat_of_lt hhigh]
    omega
  have htail : ∀ n, 0x80 ≤ (Utf8.tailByte n).toNat := by
    intro n
    rw [Utf8.toNat_tailByte]
    omega
  simp only [encodeChar] at hb
  rw [if_neg (by omega)] at hb
  split at hb
  · rcases List.mem_cons.mp hb with rfl | hb
    · exact hlead _ (by omega) (by omega)
    · rw [List.mem_singleton.mp hb]
      exact htail _
  · split at hb
    · simp only [List.mem_cons, List.not_mem_nil, or_false] at hb
      rcases hb with rfl | rfl | rfl
      · exact hlead _ (by omega) (by omega)
      · exact htail _
      · exact htail _
    · simp only [List.mem_cons, List.not_mem_nil, or_false] at hb
      rcases hb with rfl | rfl | rfl | rfl
      · exact hlead _ (by omega) (by omega)
      · exact htail _
      · exact htail _
      · exact htail _

/-- Characters that are neither control characters nor quotes nor backslashes have plain bytes. -/
theorem isPlain_of_mem_encodeChar {c : Char} (hlow : 0x20 ≤ c.toNat) (hquote : c.toNat ≠ 0x22)
    (hslash : c.toNat ≠ 0x5C) {b : UInt8} (hb : b ∈ encodeChar c) : IsPlain b := by
  by_cases hc : 0x80 ≤ c.toNat
  · exact isPlain_of_le (le_of_mem_encodeChar hc hb)
  · simp only [encodeChar] at hb
    rw [if_pos (by omega), List.mem_singleton] at hb
    have hbyte : b.toNat = c.toNat := by
      rw [hb]
      exact Utf8.toNat_ofNat_of_lt (by omega)
    refine ⟨by omega, ?_, ?_⟩
    · rintro rfl
      exact hquote hbyte.symm
    · rintro rfl
      exact hslash hbyte.symm

/-! ## Escapes -/

theorem scanText_of_scanEscape {c : Char} {bytes rest : List UInt8}
    (h : scanEscape bytes = .ok (.ok c, rest)) :
    scanText (0x5C :: bytes) = (scanText rest).prepend (encodeChar c) := by
  rw [scanText, if_neg (by decide), if_neg (by decide), if_neg (by decide)]
  split
  · next hfault =>
    rw [h] at hfault
    cases hfault
  · next hok =>
    rw [h] at hok
    cases hok
    rfl
  · next hfault =>
    rw [h] at hfault
    cases hfault

/-! ## Hexadecimal digits -/

/-- Four characters are the hexadecimal digits of a number. -/
inductive SpellsHex : Nat → List Char → Prop where
  /-- The digits of either case, the highest first. -/
  | digits {a b c d : Nat} {p q r s : Char} (ha : Hexadecimal.value? p = some a)
      (hb : Hexadecimal.value? q = some b) (hc : Hexadecimal.value? r = some c)
      (hd : Hexadecimal.value? s = some d) :
      SpellsHex (a * 0x1000 + b * 0x100 + c * 0x10 + d) [p, q, r, s]

theorem encodeChar_of_lt {c : Char} (h : c.toNat < 0x80) :
    ∃ b : UInt8, b.toNat = c.toNat ∧ encodeChar c = [b] := by
  refine ⟨UInt8.ofNat c.toNat, Utf8.toNat_ofNat_of_lt (by omega), ?_⟩
  simp only [encodeChar]
  rw [if_pos h]

theorem exists_hexDigit?_eq {c : Char} {d : Nat} (h : Hexadecimal.value? c = some d) :
    ∃ b, encodeChar c = [b] ∧ hexDigit? b = some d := by
  have hle : ∀ x y : Char, x ≤ y ↔ x.toNat ≤ y.toNat := fun _ _ => Iff.rfl
  simp only [Hexadecimal.value?, hle, show '0'.toNat = 0x30 from rfl,
    show '9'.toNat = 0x39 from rfl, show 'a'.toNat = 0x61 from rfl,
    show 'f'.toNat = 0x66 from rfl, show 'A'.toNat = 0x41 from rfl,
    show 'F'.toNat = 0x46 from rfl] at h
  obtain ⟨b, hb, hbytes⟩ := encodeChar_of_lt (c := c) (by grind)
  refine ⟨b, hbytes, ?_⟩
  simp only [hexDigit?, hb]
  grind

theorem scanHex_of_spellsHex {n : Nat} {ds : List Char} (h : SpellsHex n ds) (rest : List UInt8) :
    scanHex (encodeChars ds ++ rest) = .ok (n, rest) := by
  cases h with
  | digits ha hb hc hd =>
      obtain ⟨p, hp, ha⟩ := exists_hexDigit?_eq ha
      obtain ⟨q, hq, hb⟩ := exists_hexDigit?_eq hb
      obtain ⟨r, hr, hc⟩ := exists_hexDigit?_eq hc
      obtain ⟨s, hs, hd⟩ := exists_hexDigit?_eq hd
      simp only [Utf8.encodeChars_cons, Utf8.encodeChars_nil, hp, hq, hr, hs, List.cons_append,
        List.nil_append, scanHex, ha, hb, hc, hd]

theorem value?_digit {d : Nat} (h : d < 16) :
    Hexadecimal.value? (Hexadecimal.digit d) = some d := by
  have hall : ∀ d < 16, Hexadecimal.value? (Hexadecimal.digit d) = some d := by
    decide
  exact hall d h

theorem spellsHex_byte {n : Nat} (h : n < 0x100) :
    SpellsHex n ('0' :: '0' :: Hexadecimal.byte (UInt8.ofNat n)) := by
  have hbyte : (UInt8.ofNat n).toNat = n := Utf8.toNat_ofNat_of_lt h
  have hdigits := SpellsHex.digits (a := 0) (b := 0) (p := '0') (q := '0') rfl rfl
    (value?_digit (d := n / 16) (by omega)) (value?_digit (d := n % 16) (by omega))
  have hnumber : 0 * 0x1000 + 0 * 0x100 + n / 16 * 0x10 + n % 16 = n := by omega
  rw [hnumber] at hdigits
  rwa [Hexadecimal.byte, hbyte]

/-! ## Characters -/

/-- The letters that stand for a character behind a backslash, with that character. -/
def letters : List (Char × Char) :=
  [('"', '"'), ('\\', '\\'), ('/', '/'), ('b', Char.ofNat 0x08), ('f', Char.ofNat 0x0C),
    ('n', '\n'), ('r', '\r'), ('t', '\t')]

/-- The ways to spell a character between quotes. -/
inductive SpellsChar : Char → List Char → Prop where
  /-- The character itself, unless it is a control character, a quote or a backslash. -/
  | itself {c : Char} (hlow : 0x20 ≤ c.toNat) (hquote : c ≠ '"') (hslash : c ≠ '\\') :
      SpellsChar c [c]
  | letter {c l : Char} (h : (l, c) ∈ letters) : SpellsChar c ['\\', l]
  | number {c : Char} {ds : List Char} (h : SpellsHex c.toNat ds) :
      SpellsChar c ('\\' :: 'u' :: ds)
  /-- The numbers of the two halves of a character past those of four digits. -/
  | halves {c : Char} {high low : List Char} (hlarge : 0x10000 ≤ c.toNat)
      (hhigh : SpellsHex (0xD800 + (c.toNat - 0x10000) / 0x400) high)
      (hlow : SpellsHex (0xDC00 + (c.toNat - 0x10000) % 0x400) low) :
      SpellsChar c ('\\' :: 'u' :: (high ++ '\\' :: 'u' :: low))

theorem scanEscape_letter {c l : Char} (h : (l, c) ∈ letters) (rest : List UInt8) :
    scanEscape (encodeChars [l] ++ rest) = .ok (.ok c, rest) := by
  have hall : ∀ p ∈ letters, encodeChars [p.1] = [UInt8.ofNat p.1.toNat] ∧
      shortEscape? (UInt8.ofNat p.1.toNat) = some p.2 := by
    decide
  obtain ⟨hbytes, hshort⟩ := hall _ h
  simp only [hbytes, List.cons_append, List.nil_append, scanEscape, hshort]

theorem scanEscape_number {c : Char} {ds : List Char} (h : SpellsHex c.toNat ds)
    (rest : List UInt8) : scanEscape (encodeChars ('u' :: ds) ++ rest) = .ok (.ok c, rest) := by
  have hbytes : encodeChars ('u' :: ds) ++ rest = 0x75 :: (encodeChars ds ++ rest) := rfl
  have hshort : shortEscape? 0x75 = none := by decide
  have hvalid := Utf8.toNat_isValid c
  have hnotLow : isLowHalf c.toNat = false := by
    simp only [isLowHalf, Bool.and_eq_false_iff, decide_eq_false_iff_not]
    omega
  have hnotHigh : isHighHalf c.toNat = false := by
    simp only [isHighHalf, Bool.and_eq_false_iff, decide_eq_false_iff_not]
    omega
  rw [hbytes, scanEscape]
  simp only [hshort, scanHex_of_spellsHex h, hnotLow, hnotHigh, Char.ofNat_toNat]
  rfl

theorem scanEscape_halves {c : Char} {high low : List Char} (hlarge : 0x10000 ≤ c.toNat)
    (hhigh : SpellsHex (0xD800 + (c.toNat - 0x10000) / 0x400) high)
    (hlow : SpellsHex (0xDC00 + (c.toNat - 0x10000) % 0x400) low) (rest : List UInt8) :
    scanEscape (encodeChars ('u' :: (high ++ '\\' :: 'u' :: low)) ++ rest) =
      .ok (.ok c, rest) := by
  have hbytes : encodeChars ('u' :: (high ++ '\\' :: 'u' :: low)) ++ rest =
      0x75 :: (encodeChars high ++ 0x5C :: 0x75 :: (encodeChars low ++ rest)) := by
    rw [Utf8.encodeChars_cons, Utf8.encodeChars_append, List.append_assoc, List.append_assoc]
    rfl
  have hshort : shortEscape? 0x75 = none := by decide
  have hvalid := Utf8.toNat_isValid c
  generalize hoffset : c.toNat - 0x10000 = offset at hhigh hlow
  have hnotLow : isLowHalf (0xD800 + offset / 0x400) = false := by
    simp only [isLowHalf, Bool.and_eq_false_iff, decide_eq_false_iff_not]
    omega
  have hisHigh : isHighHalf (0xD800 + offset / 0x400) = true := by
    simp only [isHighHalf, Bool.and_eq_true, decide_eq_true_eq]
    omega
  have hisLow : isLowHalf (0xDC00 + offset % 0x400) = true := by
    simp only [isLowHalf, Bool.and_eq_true, decide_eq_true_eq]
    omega
  have hjoined : joinHalves (0xD800 + offset / 0x400) (0xDC00 + offset % 0x400) = c := by
    have hnumber : 0x10000 + (0xD800 + offset / 0x400 - 0xD800) * 0x400 +
        (0xDC00 + offset % 0x400 - 0xDC00) = c.toNat := by
      omega
    rw [joinHalves, hnumber, Char.ofNat_toNat]
  have hsecond : scanLowHalf (0x5C :: 0x75 :: (encodeChars low ++ rest)) =
      .ok (0xDC00 + offset % 0x400, rest) := by
    simp only [scanLowHalf, scanHex_of_spellsHex hlow, hisLow, ne_eq, not_true_eq_false, if_false,
      if_true]
  rw [hbytes, scanEscape]
  simp only [hshort, scanHex_of_spellsHex hhigh, hnotLow, hisHigh, hsecond, hjoined, ne_eq,
    not_true_eq_false, if_false, Bool.not_true, Bool.false_eq_true]

/-- **A spelled character is read back** off the front of a quoted text. -/
theorem scanText_of_spellsChar {c : Char} {cs : List Char} (h : SpellsChar c cs)
    (rest : List UInt8) :
    scanText (encodeChars cs ++ rest) = (scanText rest).prepend (encodeChar c) := by
  cases h with
  | itself hlow hquote hslash =>
      have hbytes : encodeChars [c] = encodeChar c := List.append_nil _
      have hne : ∀ d : Char, c ≠ d → c.toNat ≠ d.toNat := fun d hd heq => hd (Char.toNat_inj.mp heq)
      rw [hbytes]
      exact scanText_append
        (fun b hb => isPlain_of_mem_encodeChar hlow (hne _ hquote) (hne _ hslash) hb) rest
  | letter h => exact scanText_of_scanEscape (scanEscape_letter h rest)
  | number h => exact scanText_of_scanEscape (scanEscape_number h rest)
  | halves hlarge hhigh hlow =>
      exact scanText_of_scanEscape (scanEscape_halves hlarge hhigh hlow rest)

/-- A character is written in one of its spellings. -/
theorem spellsChar_escape (c : Char) : SpellsChar c (Writer.escape c) := by
  have hback : ∀ n, c.toNat = n → c = Char.ofNat n := by
    rintro n rfl
    exact (Char.ofNat_toNat c).symm
  have hletter : ∀ l n, c.toNat = n → (l, Char.ofNat n) ∈ letters →
      SpellsChar c ['\\', l] := by
    intro l n hn hmem
    rw [hback n hn]
    exact .letter hmem
  unfold Writer.escape
  split
  case h_8 n hquote hslash h8 h9 hA hC hD =>
    split
    · next hn =>
      exact .number (spellsHex_byte (Nat.lt_trans hn (by decide)))
    · next hn =>
      refine .itself (by omega) ?_ ?_
      · rintro rfl
        exact hquote rfl
      · rintro rfl
        exact hslash rfl
  case h_1 h => exact hletter _ _ h (by decide)
  case h_2 h => exact hletter _ _ h (by decide)
  case h_3 h => exact hletter _ _ h (by decide)
  case h_4 h => exact hletter _ _ h (by decide)
  case h_5 h => exact hletter _ _ h (by decide)
  case h_6 h => exact hletter _ _ h (by decide)
  case h_7 h => exact hletter _ _ h (by decide)

/-! ## Texts -/

/-- The ways to spell characters one after the other. -/
inductive SpellsChars : List Char → List Char → Prop where
  | nil : SpellsChars [] []
  | cons {c : Char} {cs xs ys : List Char} (h : SpellsChar c xs) (others : SpellsChars cs ys) :
      SpellsChars (c :: cs) (xs ++ ys)

/-- **A spelled text is read back** up to its closing quote. -/
theorem scanText_spelled {cs xs : List Char} (h : SpellsChars cs xs) (rest : List UInt8) :
    scanText (encodeChars xs ++ 0x22 :: rest) =
      { content := .ok (encodeChars cs), rest := .ok rest } := by
  induction h with
  | nil => rw [Utf8.encodeChars_nil, List.nil_append, scanText, if_pos rfl]
  | cons h _ ih =>
      rw [Utf8.encodeChars_append, List.append_assoc, scanText_of_spellsChar h, ih,
        Utf8.encodeChars_cons]
      rfl

theorem spellsChars_escape (cs : List Char) : SpellsChars cs (cs.flatMap Writer.escape) := by
  induction cs with
  | nil => exact .nil
  | cons c cs ih => exact .cons (spellsChar_escape c) ih

end SplitReader.Json.Token
