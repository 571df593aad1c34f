import SplitReader.Proofs.JsonNumber

/-! # Spellings of JSON texts

One value has many texts. Blanks may stand before and behind every token, and a quoted text has many
spellings; only a whole number has one, its digits without a zero in front, and a minus if it is
below zero. So a text is described by the tokens that it spells (`Spells`), and those of a value are
`Value.tokens`. Whatever the spelling, the text is cut into these tokens again
(`ofBytes_of_spells`).
-/

set_option autoImplicit false

namespace SplitReader.Json

namespace Token

/-! ## Tokens -/

/-- A character that may stand between tokens. -/
def IsBlankChar (c : Char) : Prop := c = ' ' ∨ c = '\n' ∨ c = '\t' ∨ c = '\r'

/-- Characters that may follow a number: none, or a blank, or one that separates or closes. -/
def EndsNumber (cs : List Char) : Prop :=
  ∀ c ∈ cs.head?, IsBlankChar c ∨ c = ',' ∨ c = ']' ∨ c = '\x7d'

inductive SpellsNumber : Numeral → List Char → Prop where
  | natural (n : UInt64) : SpellsNumber (.natural n) (Decimal.naturalChars n.toNat)
  | negative {n : Int64} (h : n.toInt < 0) :
      SpellsNumber (.negative n) ('-' :: Decimal.naturalChars n.toInt.natAbs)

inductive SpellsToken : Token → List Char → Prop where
  | beginObject : SpellsToken .beginObject ['\x7b']
  | endObject : SpellsToken .endObject ['\x7d']
  | beginArray : SpellsToken .beginArray ['[']
  | endArray : SpellsToken .endArray [']']
  | comma : SpellsToken .comma [',']
  | colon : SpellsToken .colon [':']
  | null : SpellsToken .null ['n', 'u', 'l', 'l']
  | isTrue : SpellsToken (.bool true) ['t', 'r', 'u', 'e']
  | isFalse : SpellsToken (.bool false) ['f', 'a', 'l', 's', 'e']
  | text {s : String} {xs : List Char} (h : SpellsChars s.toList xs) :
      SpellsToken (.text (.ok s)) ('"' :: (xs ++ ['"']))

/-- Characters spell tokens, with blanks between them. A number goes as far as it can, so what
follows it does not go on with it. -/
inductive Spells : List Token → List Char → Prop where
  | nil : Spells [] []
  | blank {c : Char} {ts : List Token} {cs : List Char} (hc : IsBlankChar c) (h : Spells ts cs) :
      Spells ts (c :: cs)
  | token {t : Token} {xs cs : List Char} {ts : List Token} (ht : SpellsToken t xs)
      (h : Spells ts cs) : Spells (t :: ts) (xs ++ cs)
  | number {n : Numeral} {xs cs : List Char} {ts : List Token} (hn : SpellsNumber n xs)
      (hends : EndsNumber cs) (h : Spells ts cs) : Spells (.number n :: ts) (xs ++ cs)

/-! ## Cutting a spelled text -/

theorem isBoundary_encodeChars {cs : List Char} (h : EndsNumber cs) :
    IsBoundary (Utf8.encodeChars cs) := by
  cases cs with
  | nil => rintro b ⟨⟩
  | cons c cs =>
      rw [Utf8.encodeChars_cons]
      rcases h c rfl with (rfl | rfl | rfl | rfl) | rfl | rfl | rfl <;>
        exact isBoundary_cons (by decide) _

theorem ofBytes_blank {c : Char} (h : IsBlankChar c) (rest : List UInt8) :
    ofBytes (Utf8.encodeChar c ++ rest) = ofBytes rest := by
  have hblank : ∀ b, isBlank b = true → ofBytes (b :: rest) = ofBytes rest := by
    intro b hb
    rw [ofBytes, hb]
    rfl
  rcases h with rfl | rfl | rfl | rfl <;> exact hblank _ rfl

theorem ofBytes_token {t : Token} {xs : List Char} (h : SpellsToken t xs) (rest : List UInt8) :
    ofBytes (Utf8.encodeChars xs ++ rest) = t :: ofBytes rest := by
  cases h with
  | text h =>
      rw [Utf8.encodeChars_cons, Utf8.encodeChars_append, List.append_assoc, List.append_assoc]
      exact ofBytes_spelled h rest
  | _ => exact ofBytes_cons rfl _

theorem ofBytes_spellsNumber {n : Numeral} {xs : List Char} (h : SpellsNumber n xs)
    {rest : List UInt8} (hrest : IsBoundary rest) :
    ofBytes (Utf8.encodeChars xs ++ rest) = .number n :: ofBytes rest := by
  cases h with
  | natural n =>
      have hcuts := cuts_natural n.toNat_lt rest hrest
      rwa [UInt64.ofNat_toNat, Writer.natural, Decimal.natural, Utf8.encode,
        String.toList_ofList] at hcuts
  | @negative n hneg =>
      have hcuts := cuts_integer hneg n.le_toInt rest hrest
      have hchars : (Writer.integer n.toInt).toList =
          '-' :: Decimal.naturalChars n.toInt.natAbs := by
        rw [Writer.integer, Decimal.integer, if_pos hneg, String.toList_append, Decimal.natural]
        exact congrArg ('-' :: ·) String.toList_ofList
      rwa [Int64.ofInt_toInt, Utf8.encode, hchars] at hcuts

/-- **A spelled text is cut into its tokens.** -/
theorem ofBytes_of_spells {ts : List Token} {cs : List Char} (h : Spells ts cs) :
    ofBytes (Utf8.encodeChars cs) = ts := by
  induction h with
  | nil => rw [Utf8.encodeChars_nil, ofBytes]
  | blank hc _ ih => rw [Utf8.encodeChars_cons, ofBytes_blank hc, ih]
  | token ht _ ih => rw [Utf8.encodeChars_append, ofBytes_token ht, ih]
  | number hn hends _ ih =>
      rw [Utf8.encodeChars_append, ofBytes_spellsNumber hn (isBoundary_encodeChars hends), ih]

end Token

/-! ## Tokens of values -/

namespace Value

mutual

/-- The tokens of a value. -/
def tokens : Value → List Token
  | null => [.null]
  | bool b => [.bool b]
  | number n => [.number n]
  | text s => [.text (.ok s)]
  | array items => Token.arrayTokens (itemTokens items)
  | object members => Token.objectTokens (membersTokens members)

def itemTokens : List Value → List (List Token)
  | [] => []
  | v :: vs => tokens v :: itemTokens vs

def membersTokens : List (String × Value) → List (String × List Token)
  | [] => []
  | (key, v) :: ms => (key, tokens v) :: membersTokens ms

end

end Value

end SplitReader.Json
