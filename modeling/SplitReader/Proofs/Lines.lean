import SplitReader.LineReader

/-! # Lines of a content

What the lines of some bytes are, said without a reader. A line begins at the first byte and at
every byte behind a line feed, so every line start is below the length. It reaches up to the next
line feed or to the end; its text is what stands before that line feed, without one carriage
return directly before it.

Records of other contents begin at other offsets, so the offsets at which records begin are
treated for any set of them: a range is cut at any place, and an offset inside the range may be
moved up to the next beginning, without a change of what begins in it.
-/

set_option autoImplicit false

namespace SplitReader

/-! ## Beginnings -/

/-- The offsets of a range at which records begin, in order. -/
def startsIn (begins : Nat → Bool) (start stop : Nat) : List Nat :=
  (List.range' start (stop - start)).filter begins

section Beginnings

variable {begins : Nat → Bool} {i j k : Nat}

theorem mem_startsIn : k ∈ startsIn begins i j ↔ i ≤ k ∧ k < j ∧ begins k = true := by
  rw [startsIn, List.mem_filter, List.mem_range'_1]
  constructor
  · rintro ⟨⟨h1, h2⟩, h3⟩
    exact ⟨h1, by omega, h3⟩
  · rintro ⟨h1, h2, h3⟩
    exact ⟨⟨h1, by omega⟩, h3⟩

theorem nodup_startsIn (begins : Nat → Bool) (i j : Nat) : (startsIn begins i j).Nodup :=
  List.Pairwise.filter _ List.nodup_range'

theorem startsIn_of_le (begins : Nat → Bool) (h : j ≤ i) : startsIn begins i j = [] := by
  rw [startsIn, Nat.sub_eq_zero_of_le h]
  rfl

/-- A range may be cut anywhere. -/
theorem startsIn_append (begins : Nat → Bool) (hij : i ≤ j) (hjk : j ≤ k) :
    startsIn begins i j ++ startsIn begins j k = startsIn begins i k := by
  have hrange : List.range' i (j - i) ++ List.range' j (k - j) = List.range' i (k - i) := by
    have h := List.range'_append_1 (s := i) (m := j - i) (n := k - j)
    rw [show i + (j - i) = j by omega, show j - i + (k - j) = k - i by omega] at h
    exact h
  rw [startsIn, startsIn, startsIn, ← List.filter_append, hrange]

/-- Offsets at which nothing begins may be skipped at the front of a range. -/
theorem startsIn_skip (hij : i ≤ j) (hgap : ∀ o, i ≤ o → o < j → begins o = false) :
    startsIn begins i k = startsIn begins j k := by
  -- The range may end inside the gap.
  have hempty : ∀ e, e ≤ j → startsIn begins i e = [] := by
    intro e he
    rw [List.eq_nil_iff_forall_not_mem]
    intro o ho
    obtain ⟨h1, h2, h3⟩ := mem_startsIn.mp ho
    rw [hgap o h1 (by omega)] at h3
    cases h3
  rcases Nat.le_total j k with hjk | hkj
  · rw [← startsIn_append begins hij hjk, hempty j (Nat.le_refl j), List.nil_append]
  · rw [hempty k hkj, startsIn_of_le begins hkj]

theorem startsIn_cons (hik : i < k) (hi : begins i = true) (hij : i < j)
    (hgap : ∀ o, i < o → o < j → begins o = false) :
    startsIn begins i k = i :: startsIn begins j k := by
  rw [← startsIn_append begins (Nat.le_succ i) hik]
  have hone : startsIn begins i (i + 1) = [i] := by
    simp [startsIn, hi]
  rw [hone, startsIn_skip hij hgap]
  rfl

end Beginnings

/-! ## Lines -/

/-- A line: where it starts, and its bytes without the terminator. -/
structure Line where
  start : Nat
  /-- Its bytes without the terminator. -/
  text : List UInt8
  deriving DecidableEq, Repr

namespace Line

def startsAt (content : List UInt8) (offset : Nat) : Bool :=
  offset < content.length && (offset == 0 || content[offset - 1]? == some BufferedFile.lineFeed)

/-- How many bytes stand before the next line feed, or before the end if there is none. -/
def width (content : List UInt8) (offset : Nat) : Nat :=
  (content.drop offset).idxOf BufferedFile.lineFeed

/-- The offset behind the line that starts at an offset. -/
def behind (content : List UInt8) (offset : Nat) : Nat :=
  min (offset + width content offset + 1) content.length

/-- The text of the line that starts at an offset. Only a line that ends with a line feed has a
terminator, which may be a carriage return and a line feed. -/
def textAt (content : List UInt8) (offset : Nat) : List UInt8 :=
  let body := (content.drop offset).take (width content offset)
  if offset + body.length < content.length ∧ body.getLast? = some BufferedFile.carriageReturn then
    body.dropLast
  else body

/-- The lines of a content that start in a range, in order. -/
def allIn (content : List UInt8) (start stop : Nat) : List Line :=
  (startsIn (startsAt content) start stop).map fun offset => ⟨offset, textAt content offset⟩

-- Without a line feed at its end the last line keeps its carriage return.
example : allIn [97, 13, 10, 10, 98, 13] 0 6 = [⟨0, [97]⟩, ⟨3, []⟩, ⟨4, [98, 13]⟩] := by
  decide

variable {content : List UInt8} {offset : Nat}

theorem startsAt_iff : startsAt content offset = true ↔
    offset < content.length ∧
      (offset = 0 ∨ content[offset - 1]? = some BufferedFile.lineFeed) := by
  simp [startsAt]

theorem getElem?_ne_of_lt_width {i : Nat} (h : i < width content offset) :
    content[offset + i]? ≠ some BufferedFile.lineFeed := by
  intro hfeed
  rw [← List.getElem?_drop] at hfeed
  obtain ⟨hi, heq⟩ := List.getElem?_eq_some_iff.mp hfeed
  have hne := List.not_of_lt_findIdx (p := (· == BufferedFile.lineFeed)) h
  rw [heq] at hne
  simp at hne

theorem getElem?_width (h : offset + width content offset < content.length) :
    content[offset + width content offset]? = some BufferedFile.lineFeed := by
  have hlt : (content.drop offset).idxOf BufferedFile.lineFeed < (content.drop offset).length := by
    rw [List.length_drop]
    have := h
    unfold width at this
    omega
  rw [← List.getElem?_drop]
  unfold width
  rw [List.getElem?_eq_getElem hlt, List.getElem_idxOf hlt]

theorem behind_le (content : List UInt8) (offset : Nat) : behind content offset ≤ content.length :=
  Nat.min_le_right _ _

theorem lt_behind (h : offset < content.length) : offset < behind content offset := by
  unfold behind
  omega

/-- No line starts inside the line that starts at an offset, or inside the rest of a line. -/
theorem not_startsAt_of_lt_behind {o : Nat} (hlo : offset < o) (hhi : o < behind content offset) :
    startsAt content o = false := by
  have hlt : o - 1 - offset < width content offset := by
    unfold behind at hhi
    omega
  have hne := getElem?_ne_of_lt_width hlt
  rw [show offset + (o - 1 - offset) = o - 1 by omega] at hne
  rw [Bool.eq_false_iff, ne_eq, startsAt_iff]
  rintro ⟨-, rfl | hfeed⟩
  · omega
  · exact hne hfeed

/-- Behind a line starts another one, unless the content is at its end. -/
theorem startsAt_behind (h : behind content offset < content.length) :
    startsAt content (behind content offset) = true := by
  have heq : behind content offset = offset + width content offset + 1 := by
    unfold behind at h ⊢
    omega
  rw [startsAt_iff]
  refine ⟨h, Or.inr ?_⟩
  rw [heq, Nat.add_sub_cancel]
  exact getElem?_width (by omega)

end Line

end SplitReader
