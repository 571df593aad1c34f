import SplitReader.Json.Numeral
import SplitReader.Text.Utf8

/-! # JSON tokens

A JSON text is cut into tokens. The cut never fails: where the text breaks the grammar inside
a token, that token says so and is the last one. Two kinds of callers see a broken token
differently. One reads the value and stops at the first fault; the other skips the value, does
not look at what a text means, and can meet its fault later or not at all. So a token carries
what each of the two gets.
-/

set_option autoImplicit false

namespace SplitReader.Json

/-- A piece of a JSON text. -/
inductive Token where
  | beginObject
  | endObject
  | beginArray
  | endArray
  | comma
  | colon
  | null
  | bool (value : Bool)
  | number (value : Numeral)
  /-- A quoted text, or what is wrong with its content. -/
  | text (content : Except Error String)
  /-- A quoted text that does not end properly. -/
  | brokenText (read skip : Error)
  /-- A word that begins like the one for no value and goes on differently. -/
  | brokenNull (fault : Error)
  /-- Anything else that does not end properly or is no token. -/
  | broken (read skip : Error)

namespace Token

/-! ## Quoted texts -/

/-- What is found behind an opening quote. -/
structure TextScan where
  /-- The bytes of the content, or the first fault in it. -/
  content : Except Error (List UInt8)
  /-- The bytes behind the closing quote, or why there is none. -/
  rest : Except Error (List UInt8)

def TextScan.unclosed (e : Error) : TextScan := { content := .error e, rest := .error e }

def TextScan.prepend (bytes : List UInt8) (s : TextScan) : TextScan :=
  { s with content := s.content.map (bytes ++ ·) }

def TextScan.spoil (e : Error) (s : TextScan) : TextScan := { s with content := .error e }

def hexDigit? (b : UInt8) : Option Nat :=
  let n := b.toNat
  if 0x30 ≤ n ∧ n ≤ 0x39 then some (n - 0x30)
  else if 0x41 ≤ n ∧ n ≤ 0x46 then some (n - 0x37)
  else if 0x61 ≤ n ∧ n ≤ 0x66 then some (n - 0x57)
  else none

def scanHex : List UInt8 → Except Error (Nat × List UInt8)
  | a :: b :: c :: d :: left =>
      match hexDigit? a, hexDigit? b, hexDigit? c, hexDigit? d with
      | some a, some b, some c, some d => .ok (a * 0x1000 + b * 0x100 + c * 0x10 + d, left)
      | _, _, _, _ => .error .malformed
  | _ => .error .endOfText

/-- The number is the first half of a pair that stands for one character. -/
def isHighHalf (n : Nat) : Bool := 0xD800 ≤ n && n < 0xDC00

/-- The number is the second half of a pair that stands for one character. -/
def isLowHalf (n : Nat) : Bool := 0xDC00 ≤ n && n < 0xE000

def joinHalves (high low : Nat) : Char :=
  Char.ofNat (0x10000 + (high - 0xD800) * 0x400 + (low - 0xDC00))

/-- Reads the second half of a pair: another escape with a number in the right range. -/
def scanLowHalf : List UInt8 → Except Error (Nat × List UInt8)
  | [] => .error .endOfText
  | backslash :: rest =>
      if backslash ≠ 0x5C then .error .malformed
      else
        match rest with
        | [] => .error .endOfText
        | u :: rest =>
            if u ≠ 0x75 then .error .malformed
            else
              match scanHex rest with
              | .error e => .error e
              | .ok (n, left) => if isLowHalf n then .ok (n, left) else .error .malformed

/-- The character that one letter behind a backslash stands for. -/
def shortEscape? (b : UInt8) : Option Char :=
  match b.toNat with
  | 0x22 => some '"'
  | 0x5C => some '\\'
  | 0x2F => some '/'
  | 0x62 => some (Char.ofNat 0x08)
  | 0x66 => some (Char.ofNat 0x0C)
  | 0x6E => some '\n'
  | 0x72 => some '\r'
  | 0x74 => some '\t'
  | _ => none

/-- Reads what stands behind a backslash: a character, or a fault that only matters to who
reads the text. -/
def scanEscape : List UInt8 → Except Error (Except Error Char × List UInt8)
  | [] => .error .endOfText
  | b :: rest =>
      match shortEscape? b with
      | some c => .ok (.ok c, rest)
      | none =>
          if b ≠ 0x75 then .error .malformed
          else
            match scanHex rest with
            | .error e => .error e
            | .ok (n, left) =>
                if isLowHalf n then .ok (.error .malformed, left)
                else if !isHighHalf n then .ok (.ok (Char.ofNat n), left)
                else
                  match scanLowHalf left with
                  | .error e => .ok (.error e, left)
                  | .ok (m, left) => .ok (.ok (joinHalves n m), left)

theorem length_le_of_scanHex {bytes left : List UInt8} {n : Nat}
    (h : scanHex bytes = .ok (n, left)) : left.length ≤ bytes.length := by
  unfold scanHex at h
  repeat' split at h
  all_goals cases h
  simp +arith

theorem length_le_of_scanLowHalf {bytes left : List UInt8} {n : Nat}
    (h : scanLowHalf bytes = .ok (n, left)) : left.length ≤ bytes.length := by
  unfold scanLowHalf at h
  split at h
  · cases h
  · split at h
    · cases h
    · split at h
      · cases h
      · split at h
        · cases h
        · split at h
          · cases h
          · next hhex =>
            split at h
            · cases h
              have := length_le_of_scanHex hhex
              simp only [List.length_cons]
              omega
            · cases h

theorem length_le_of_scanEscape {bytes left : List UInt8} {c : Except Error Char}
    (h : scanEscape bytes = .ok (c, left)) : left.length ≤ bytes.length := by
  unfold scanEscape at h
  split at h
  · cases h
  · split at h
    · cases h
      simp
    · split at h
      · cases h
      · split at h
        · cases h
        · next hhex =>
          have h1 := length_le_of_scanHex hhex
          simp only [List.length_cons]
          split at h
          · cases h
            omega
          · split at h
            · cases h
              omega
            · split at h
              · cases h
                omega
              · next hlow =>
                cases h
                have h2 := length_le_of_scanLowHalf hlow
                omega

def scanText (bytes : List UInt8) : TextScan :=
  match bytes with
  | [] => .unclosed .endOfText
  | b :: rest =>
      if b = 0x22 then { content := .ok [], rest := .ok rest }
      else if b.toNat < 0x20 then .unclosed .malformed
      else if b ≠ 0x5C then (scanText rest).prepend [b]
      else
        match _h : scanEscape rest with
        | .error e => .unclosed e
        | .ok (.ok c, left) => (scanText left).prepend (Utf8.encodeChar c)
        | .ok (.error e, left) => (scanText left).spoil e
termination_by bytes.length
decreasing_by
  · simp
  · have := length_le_of_scanEscape _h
    simp only [List.length_cons]
    omega
  · have := length_le_of_scanEscape _h
    simp only [List.length_cons]
    omega

def contentText (bytes : List UInt8) : Except Error String :=
  match Utf8.decode bytes with
  | .ok s => .ok s
  | .error _ => .error .malformed

def ofTextScan (s : TextScan) : Token × List UInt8 :=
  match s.rest with
  | .ok left => (.text (s.content.bind contentText), left)
  | .error skip =>
      match s.content with
      | .ok _ => (.brokenText skip skip, [])
      | .error read => (.brokenText read skip, [])

theorem length_le_of_scanText {bytes left : List UInt8} (h : (scanText bytes).rest = .ok left) :
    left.length ≤ bytes.length := by
  fun_induction scanText bytes with
  | case1 => cases h
  | case2 rest => cases h; simp
  | case3 => cases h
  | case4 b rest _ _ _ ih =>
    have := ih h
    simp only [List.length_cons]
    omega
  | case5 => cases h
  | case6 b rest _ _ _ c mid hc ih =>
    have h1 := length_le_of_scanEscape hc
    have h2 := ih h
    simp only [List.length_cons]
    omega
  | case7 b rest _ _ _ e mid hc ih =>
    have h1 := length_le_of_scanEscape hc
    have h2 := ih h
    simp only [List.length_cons]
    omega

/-! ## Words -/

/-- A fault that is the same to all callers. -/
def brokenWord (e : Error) : Token := .broken e e

/-- Reads the rest of a word whose first letter was seen. -/
def scanWord (token : Token) (fault : Error → Token) :
    List UInt8 → List UInt8 → Token × List UInt8
  | [], left => (token, left)
  | _ :: _, [] => (fault .endOfText, [])
  | w :: word, b :: left =>
      if w = b then scanWord token fault word left else (fault .malformed, [])

theorem length_scanWord_le (token : Token) (fault : Error → Token) (word bytes : List UInt8) :
    (scanWord token fault word bytes).2.length ≤ bytes.length := by
  fun_induction scanWord token fault word bytes with
  | case1 left => exact Nat.le_refl _
  | case2 => simp
  | case3 w word left ih =>
    simp only [List.length_cons]
    omega
  | case4 => simp

/-! ## Texts -/

/-- The letters behind the first one of the word for no value. -/
def nullTail : List UInt8 := [0x75, 0x6C, 0x6C]

def trueTail : List UInt8 := [0x72, 0x75, 0x65]

def falseTail : List UInt8 := [0x61, 0x6C, 0x73, 0x65]

/-- Reads a number. To who skips it, every fault of a number is one of the grammar. -/
def scanNumber (bytes : List UInt8) : Token × List UInt8 :=
  match Numeral.scan bytes with
  | .ok (n, left) => (.number n, left)
  | .error e => (.broken e .malformed, [])

/-- Reads the token that begins with byte `b`, and gives it with the bytes behind it. -/
def scan (b : UInt8) (rest : List UInt8) : Token × List UInt8 :=
  match b.toNat with
  | 0x7B => (.beginObject, rest)
  | 0x7D => (.endObject, rest)
  | 0x5B => (.beginArray, rest)
  | 0x5D => (.endArray, rest)
  | 0x2C => (.comma, rest)
  | 0x3A => (.colon, rest)
  | 0x22 => ofTextScan (scanText rest)
  | 0x6E => scanWord .null .brokenNull nullTail rest
  | 0x74 => scanWord (.bool true) brokenWord trueTail rest
  | 0x66 => scanWord (.bool false) brokenWord falseTail rest
  | _ =>
      if b = 0x2D ∨ Numeral.isDigit b then scanNumber (b :: rest)
      else (.broken .malformed .malformed, [])

/-- A token is taken off the front. -/
theorem length_scan_le (b : UInt8) (rest : List UInt8) :
    (scan b rest).2.length ≤ rest.length := by
  unfold scan
  split
  case h_7 =>
    unfold ofTextScan
    split
    · next left h => exact length_le_of_scanText h
    · split <;> simp
  case h_8 => exact length_scanWord_le _ _ _ _
  case h_9 => exact length_scanWord_le _ _ _ _
  case h_10 => exact length_scanWord_le _ _ _ _
  case h_11 =>
    split
    · unfold scanNumber
      split
      · next n left h => exact Numeral.length_le_of_scan h
      · simp
    · simp
  all_goals exact Nat.le_refl _

/-- A byte that separates tokens: a blank, a tabulator or one of the two line ends. -/
def isBlank (b : UInt8) : Bool := b = 0x20 || b = 0x0A || b = 0x09 || b = 0x0D

def ofBytes (bytes : List UInt8) : List Token :=
  match bytes with
  | [] => []
  | b :: rest => if isBlank b then ofBytes rest else (scan b rest).1 :: ofBytes (scan b rest).2
termination_by bytes.length
decreasing_by
  · simp
  · have := length_scan_le b rest
    simp only [List.length_cons]
    omega

end Token

end SplitReader.Json
