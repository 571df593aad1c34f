import Mathlib.Data.String.Basic
import Mathlib.Order.Compare
import SplitReader.Position
import SplitReader.Proofs.Utf8

/-! # The order of positions

One position precedes another if both are of one kind and its payload is the smaller one, or if the
other is the end and it is not (`Precedes`). Texts are smaller if their bytes are. That is the order
in which their characters stand, since a smaller character has smaller bytes whatever follows
(`encode_lt_encode_iff`).

The comparison of positions decides this relation, its converse and equality, and gives no answer in
all other cases. So its laws follow from those of the relation, which is transitive because the kind
never changes along it except to the end, and nothing follows the end.
-/

set_option autoImplicit false

namespace SplitReader

/-! ## Texts in the order of their bytes -/

namespace Utf8

theorem cons_lt_cons {m n : Nat} {x y : List UInt8} (hn : n < 0x100) (hle : m ≤ n)
    (hlt : m = n → x < y) : UInt8.ofNat m :: x < UInt8.ofNat n :: y := by
  rw [List.cons_lt_cons_iff, UInt8.lt_iff_toNat_lt, toNat_ofNat_of_lt hn,
    toNat_ofNat_of_lt (Nat.lt_of_le_of_lt hle hn)]
  rcases Nat.lt_or_eq_of_le hle with h | h
  · exact Or.inl h
  · exact Or.inr ⟨by rw [h], hlt h⟩

/-- A smaller number has a smaller form, whatever follows. A longer form begins with a larger byte,
and forms of one length first differ at a byte that is larger in the form of the larger number. -/
theorem HasForm.append_lt {m n : Nat} {bytes bytes' : List UInt8} (hm : HasForm m bytes)
    (hn : HasForm n bytes') (hlt : m < n) (x y : List UInt8) : bytes ++ x < bytes' ++ y := by
  cases hm with
  | one =>
      cases hn <;> exact cons_lt_cons (by omega) (by omega) (by omega)
  | two =>
      cases hn with
      | one => omega
      | two =>
          exact cons_lt_cons (by omega) (by omega) fun h1 =>
            cons_lt_cons (by omega) (by omega) (by omega)
      | three => exact cons_lt_cons (by omega) (by omega) (by omega)
      | four => exact cons_lt_cons (by omega) (by omega) (by omega)
  | three =>
      cases hn with
      | one => omega
      | two => omega
      | three =>
          exact cons_lt_cons (by omega) (by omega) fun h1 =>
            cons_lt_cons (by omega) (by omega) fun h2 =>
              cons_lt_cons (by omega) (by omega) (by omega)
      | four => exact cons_lt_cons (by omega) (by omega) (by omega)
  | four =>
      cases hn with
      | one => omega
      | two => omega
      | three => omega
      | four =>
          exact cons_lt_cons (by omega) (by omega) fun h1 =>
            cons_lt_cons (by omega) (by omega) fun h2 =>
              cons_lt_cons (by omega) (by omega) fun h3 =>
                cons_lt_cons (by omega) (by omega) (by omega)

theorem encodeChars_lt {cs ds : List Char} (h : cs < ds) : encodeChars cs < encodeChars ds := by
  induction h with
  | nil =>
      rename_i d ds
      obtain ⟨b, tail, hchar, -⟩ := scanChar_encodeChar d []
      rw [encodeChars_cons, hchar]
      exact .nil
  | rel hlt =>
      rw [encodeChars_cons, encodeChars_cons]
      exact (hasForm_encodeChar _).append_lt (hasForm_encodeChar _) hlt _ _
  | cons _ ih =>
      rw [encodeChars_cons, encodeChars_cons]
      exact List.append_left_lt ih

/-- **Texts are in the order of their bytes.** -/
theorem encode_lt_encode_iff {s t : String} : encode s < encode t ↔ s < t := by
  rw [String.lt_iff_toList_lt]
  constructor
  · intro h
    rcases lt_trichotomy s.toList t.toList with hlt | heq | hgt
    · exact hlt
    · rw [encode, encode, heq] at h
      exact absurd h (List.lt_irrefl _)
    · exact absurd (List.lt_trans h (encodeChars_lt hgt)) (List.lt_irrefl _)
  · exact encodeChars_lt

end Utf8

/-! ## Precedence -/

namespace Position

/-- One position comes before another one. -/
inductive Precedes : Position → Position → Prop where
  | recordIndex {i j : UInt64} (h : i.toNat < j.toNat) :
      Precedes (.recordIndex i) (.recordIndex j)
  | byteOffset {i j : UInt64} (h : i.toNat < j.toNat) : Precedes (.byteOffset i) (.byteOffset j)
  | key {k l : String} (h : Utf8.encode k < Utf8.encode l) : Precedes (.key k) (.key l)
  | shufflePosition {p q : String} (h : Utf8.encode p < Utf8.encode q) :
      Precedes (.shufflePosition p) (.shufflePosition q)
  | endOfRange {a : Position} (h : a ≠ .endOfRange) : Precedes a .endOfRange

variable {a b c : Position}

theorem Precedes.trans (hab : Precedes a b) (hbc : Precedes b c) : Precedes a c := by
  cases hab with
  | recordIndex h =>
      cases hbc with
      | recordIndex h' => exact .recordIndex (Nat.lt_trans h h')
      | endOfRange => exact .endOfRange (by simp)
  | byteOffset h =>
      cases hbc with
      | byteOffset h' => exact .byteOffset (Nat.lt_trans h h')
      | endOfRange => exact .endOfRange (by simp)
  | key h =>
      cases hbc with
      | key h' => exact .key (List.lt_trans h h')
      | endOfRange => exact .endOfRange (by simp)
  | shufflePosition h =>
      cases hbc with
      | shufflePosition h' => exact .shufflePosition (List.lt_trans h h')
      | endOfRange => exact .endOfRange (by simp)
  | endOfRange =>
      -- Nothing comes behind the end.
      cases hbc with
      | endOfRange h => exact absurd rfl h

/-! ## What the comparison decides -/

theorem compare_word_eq_lt_iff {i j : UInt64} : compare i j = .lt ↔ i.toNat < j.toNat :=
  Std.compare_eq_lt.trans UInt64.lt_iff_toNat_lt

theorem compare_text_eq_lt_iff {s t : String} :
    compare s t = .lt ↔ Utf8.encode s < Utf8.encode t :=
  compare_lt_iff_lt.trans Utf8.encode_lt_encode_iff.symm

theorem compare?_eq_lt_iff : a.compare? b = some .lt ↔ Precedes a b := by
  constructor
  · intro h
    unfold compare? at h
    split at h
    case h_1 => cases h
    case h_2 => cases h
    case h_3 hne => exact .endOfRange hne
    case h_4 => exact .recordIndex (compare_word_eq_lt_iff.mp (Option.some.inj h))
    case h_5 => exact .byteOffset (compare_word_eq_lt_iff.mp (Option.some.inj h))
    case h_6 => exact .key (compare_text_eq_lt_iff.mp (Option.some.inj h))
    case h_7 => exact .shufflePosition (compare_text_eq_lt_iff.mp (Option.some.inj h))
    case h_8 => cases h
  · intro h
    cases h with
    | recordIndex h => exact congrArg some (compare_word_eq_lt_iff.mpr h)
    | byteOffset h => exact congrArg some (compare_word_eq_lt_iff.mpr h)
    | key h => exact congrArg some (compare_text_eq_lt_iff.mpr h)
    | shufflePosition h => exact congrArg some (compare_text_eq_lt_iff.mpr h)
    | endOfRange h =>
        cases a with
        | endOfRange => exact absurd rfl h
        | _ => rfl

theorem compare?_eq_eq_iff : a.compare? b = some .eq ↔ a = b := by
  constructor
  · intro h
    unfold compare? at h
    split at h
    case h_1 => rfl
    case h_2 => cases h
    case h_3 => cases h
    case h_4 => rw [Std.compare_eq_iff_eq.mp (Option.some.inj h)]
    case h_5 => rw [Std.compare_eq_iff_eq.mp (Option.some.inj h)]
    case h_6 => rw [Std.compare_eq_iff_eq.mp (Option.some.inj h)]
    case h_7 => rw [Std.compare_eq_iff_eq.mp (Option.some.inj h)]
    case h_8 => cases h
  · rintro rfl
    cases a with
    | endOfRange => rfl
    | _ => exact congrArg some Std.ReflOrd.compare_self

/-- Compared the other way round, positions are in the opposite order. -/
theorem compare?_swap (a b : Position) : b.compare? a = (a.compare? b).map Ordering.swap := by
  cases a <;> cases b <;> first | rfl | exact congrArg some Std.OrientedOrd.eq_swap

theorem compare?_eq_gt_iff : a.compare? b = some .gt ↔ b.compare? a = some .lt := by
  rw [compare?_swap a b]
  cases a.compare? b with
  | none => simp
  | some order => cases order <;> simp

theorem isSome_compare?_iff : (a.compare? b).isSome = true ↔
    a.kindName = b.kindName ∨ a = .endOfRange ∨ b = .endOfRange := by
  cases a <;> cases b <;> simp [compare?, kindName]

theorem isBefore_iff : a.isBefore b = true ↔ Precedes a b := by
  rw [isBefore, beq_iff_eq, compare?_eq_lt_iff]

/-- **Positions are partially ordered.** A position is before another one if it precedes it, which
is transitive. The comparison gives equality exactly for equal positions, turns round with its
arguments, and gives an answer exactly for positions of one kind and next to the end, which is
greater than every other position. -/
theorem partially_ordered (a b c : Position) :
    (a.isBefore b = true ↔ Precedes a b) ∧
      (a.compare? b = some .eq ↔ a = b) ∧
      (a.compare? b = some .lt ↔ b.compare? a = some .gt) ∧
      (a.isBefore b = true → b.isBefore c = true → a.isBefore c = true) ∧
      ((a.compare? b).isSome = true ↔
        a.kindName = b.kindName ∨ a = .endOfRange ∨ b = .endOfRange) ∧
      (a ≠ .endOfRange → Position.endOfRange.compare? a = some .gt) := by
  refine ⟨isBefore_iff, compare?_eq_eq_iff, compare?_eq_gt_iff.symm, ?_, isSome_compare?_iff, ?_⟩
  · simp only [isBefore_iff]
    exact Precedes.trans
  · intro h
    exact compare?_eq_gt_iff.mpr (compare?_eq_lt_iff.mpr (.endOfRange h))

/-- A letter with an accent is a key behind all plain letters, and before the end. -/
theorem partially_ordered_accent :
    (key "z").isBefore (key "é") = true ∧ (key "é").isBefore endOfRange = true ∧
      (key "z").isBefore endOfRange = true ∧
      Position.endOfRange.compare? (key "z") = some .gt := by
  have hkeys : (key "z").isBefore (key "é") = true := by decide
  have hend : (key "é").isBefore endOfRange = true := by decide
  obtain ⟨-, -, -, htrans, -, hgreatest⟩ := partially_ordered (key "z") (key "é") endOfRange
  exact ⟨hkeys, hend, htrans hkeys hend, hgreatest (by decide)⟩

end Position

end SplitReader
