/-! # Byte places in texts

Characters take between one and four bytes. A place in a text may be given by the number of
bytes before it, and then it may lie inside of a character, where a text cannot be cut.
-/

set_option autoImplicit false

namespace SplitReader.Text

def width : List Char → Nat
  | [] => 0
  | c :: cs => c.utf8Size + width cs

/-- The characters from a byte place on, unless the place is inside of a character or past the
end. -/
def from? : Nat → List Char → Option (List Char)
  | 0, cs => some cs
  | _ + 1, [] => none
  | n + 1, c :: cs => if c.utf8Size ≤ n + 1 then from? (n + 1 - c.utf8Size) cs else none

/-- The characters up to a byte place, unless the place is inside of a character or past the
end. -/
def upTo? : Nat → List Char → Option (List Char)
  | 0, _ => some []
  | _ + 1, [] => none
  | n + 1, c :: cs =>
      if c.utf8Size ≤ n + 1 then (upTo? (n + 1 - c.utf8Size) cs).map (c :: ·) else none

def between? (first past : Nat) (cs : List Char) : Option (List Char) :=
  (from? first cs).bind (upTo? (past - first))

theorem width_append (as bs : List Char) : width (as ++ bs) = width as + width bs := by
  induction as with
  | nil => simp [width]
  | cons a as ih => simp only [List.cons_append, width, ih]; omega

/-- The place behind a part is no place inside of a character. -/
theorem from?_width_append (as bs : List Char) : from? (width as) (as ++ bs) = some bs := by
  induction as with
  | nil => simp [width, from?]
  | cons a as ih =>
    have h : 0 < a.utf8Size := a.utf8Size_pos
    obtain ⟨n, hn⟩ : ∃ n, width (a :: as) = n + 1 := ⟨a.utf8Size + width as - 1, by
      simp only [width]; omega⟩
    have hw : n + 1 - a.utf8Size = width as := by simp only [width] at hn; omega
    have hle : a.utf8Size ≤ n + 1 := by simp only [width] at hn; omega
    rw [hn, List.cons_append, from?, if_pos hle, hw, ih]

end SplitReader.Text
