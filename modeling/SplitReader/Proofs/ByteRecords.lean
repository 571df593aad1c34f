import SplitReader.Source.Memory

/-! # Records of one byte for every character

A record with one character for every byte is read character by character, whatever the width of a
character in an encoding of the text. Characters up to U+00FF stand for the byte of their code, and
every byte is stood for by one of them, so all byte strings can be carried.

A larger character stands for nothing. Records are read to the first one of these in all of them,
before the bounds are looked at, so it is found in records outside the bounds, too, and whatever the
bounds are (`refused_for_first_large`).
-/

set_option autoImplicit false

namespace SplitReader

namespace MemorySource

/-! ## Characters that stand for bytes -/

/-- All characters of some records stand for bytes. -/
def HoldBytes (records : List String) : Prop := ∀ s ∈ records, ∀ c ∈ s.toList, c.toNat ≤ 0xFF

/-- The bytes of some characters, one for each. -/
def bytesOf (cs : List Char) : List UInt8 := cs.map fun c => UInt8.ofNat c.toNat

def isLarge (c : Char) : Bool := 0xFF < c.toNat

theorem find?_isLarge_eq_none_iff {cs : List Char} :
    cs.find? isLarge = none ↔ ∀ c ∈ cs, c.toNat ≤ 0xFF := by
  simp [List.find?_eq_none, isLarge]

theorem byteOfChar?_eq (c : Char) :
    byteOfChar? c = if isLarge c then none else some (UInt8.ofNat c.toNat) := by
  unfold byteOfChar? isLarge
  by_cases hc : c.toNat < 0x100
  · have hsmall : ¬ 0xFF < c.toNat := by omega
    simp only [hc, hsmall, decide_false, Bool.false_eq_true, if_true, if_false]
  · have hlarge : 0xFF < c.toNat := by omega
    simp only [hc, hlarge, decide_true, if_true, if_false]

theorem map_toNat_bytesOf {cs : List Char} (h : ∀ c ∈ cs, c.toNat ≤ 0xFF) :
    (bytesOf cs).map UInt8.toNat = cs.map Char.toNat := by
  rw [bytesOf, List.map_map]
  refine List.map_congr_left fun c hc => ?_
  exact UInt8.toNat_ofNat_of_lt' (Nat.lt_succ_of_le (h c hc))

/-- A record is read up to its first large character. -/
theorem bytesOfChars_eq (record : Nat) (cs : List Char) :
    bytesOfChars record cs =
      match cs.find? isLarge with
      | some c => .error (.invalidArgument (.recordChar record c))
      | none => .ok (bytesOf cs) := by
  induction cs with
  | nil => rfl
  | cons c cs ih =>
      rw [bytesOfChars, byteOfChar?_eq, List.find?_cons]
      cases hc : isLarge c with
      | true => rfl
      | false =>
          simp only [Bool.false_eq_true, if_false, ih]
          cases cs.find? isLarge <;> rfl

/-! ## Records -/

/-- The first large character of some records: no record before it holds one, and it is the first
one in its record. -/
structure FirstLarge (records : List String) (record : Nat) (c : Char) : Prop where
  before : HoldBytes (records.take record)
  inside : ∃ s, records[record]? = some s ∧ s.toList.find? isLarge = some c

variable {records : List String} {record : Nat} {c : Char}

/-- Records hold bytes, or one of them holds the first large character. -/
theorem holdBytes_or_firstLarge (records : List String) :
    HoldBytes records ∨ ∃ record c, FirstLarge records record c := by
  induction records with
  | nil => exact Or.inl (by simp [HoldBytes])
  | cons s ss ih =>
      cases hs : s.toList.find? isLarge with
      | some c => exact Or.inr ⟨0, c, by simp [HoldBytes], s, rfl, hs⟩
      | none =>
          have hsmall := find?_isLarge_eq_none_iff.mp hs
          rcases ih with hrest | ⟨record, c, hbefore, hinside⟩
          · exact Or.inl (List.forall_mem_cons.mpr ⟨hsmall, hrest⟩)
          · exact Or.inr ⟨record + 1, c, List.forall_mem_cons.mpr ⟨hsmall, hbefore⟩, hinside⟩

theorem FirstLarge.not_holdBytes (h : FirstLarge records record c) : ¬ HoldBytes records := by
  intro hall
  obtain ⟨s, hs, hc⟩ := h.inside
  rw [find?_isLarge_eq_none_iff.mpr (hall s (List.mem_of_getElem? hs))] at hc
  cases hc

theorem bytesOfRecords_of_holdBytes (h : HoldBytes records) (first : Nat) :
    bytesOfRecords first records = .ok (records.map fun s => bytesOf s.toList) := by
  induction records generalizing first with
  | nil => rfl
  | cons s ss ih =>
      obtain ⟨hs, hss⟩ := List.forall_mem_cons.mp h
      rw [bytesOfRecords, bytesOfChars_eq, find?_isLarge_eq_none_iff.mpr hs]
      simp only [ih hss, Except.map, List.map_cons]

/-- Records are read up to the first large character of all of them. -/
theorem FirstLarge.bytesOfRecords_eq (h : FirstLarge records record c) (first : Nat) :
    bytesOfRecords first records = .error (.invalidArgument (.recordChar (first + record) c)) := by
  obtain ⟨hbefore, hinside⟩ := h
  induction records generalizing first record with
  | nil =>
      obtain ⟨s, hs, -⟩ := hinside
      cases hs
  | cons s ss ih =>
      rw [bytesOfRecords, bytesOfChars_eq]
      cases record with
      | zero =>
          obtain ⟨t, ht, hc⟩ := hinside
          cases ht
          rw [hc]
          rfl
      | succ record =>
          obtain ⟨hs, hss⟩ := List.forall_mem_cons.mp hbefore
          rw [find?_isLarge_eq_none_iff.mpr hs]
          simp only [ih (first + 1) hss hinside, Except.map]
          rw [Nat.add_assoc, Nat.add_comm 1]

/-- Records stand for byte strings, or one of them holds a character that is no byte. -/
theorem bytesOfRecords_cases (record : Nat) (ss : List String) :
    (HoldBytes ss ∧ bytesOfRecords record ss = .ok (ss.map fun s => bytesOf s.toList)) ∨
      (¬ HoldBytes ss ∧ ∃ e, bytesOfRecords record ss = .error (.invalidArgument e)) := by
  rcases holdBytes_or_firstLarge ss with hall | ⟨first, c, hlarge⟩
  · exact Or.inl ⟨hall, bytesOfRecords_of_holdBytes hall record⟩
  · exact Or.inr ⟨hlarge.not_holdBytes, _, hlarge.bytesOfRecords_eq record⟩

/-! ## Bytes as characters -/

/-- The text of a record with one character for every byte. -/
def byteString (bytes : List UInt8) : String :=
  String.ofList (bytes.map fun b => Char.ofNat b.toNat)

theorem toNat_ofNat_byte (b : UInt8) : (Char.ofNat b.toNat).toNat = b.toNat := by
  have hsmall : ∀ n, n < 0x100 → (Char.ofNat n).toNat = n := by
    decide +kernel
  exact hsmall _ b.toNat_lt

theorem bytesOf_byteString (bytes : List UInt8) : bytesOf (byteString bytes).toList = bytes := by
  rw [byteString, String.toList_ofList, bytesOf, List.map_map]
  refine (List.map_congr_left fun b _ => ?_).trans (List.map_id bytes)
  rw [Function.comp_apply, toNat_ofNat_byte, UInt8.ofNat_toNat, id_eq]

theorem holdBytes_byteStrings (records : List (List UInt8)) :
    HoldBytes (records.map byteString) := by
  intro s hs c hc
  obtain ⟨bytes, -, rfl⟩ := List.mem_map.mp hs
  rw [byteString, String.toList_ofList] at hc
  obtain ⟨b, -, rfl⟩ := List.mem_map.mp hc
  rw [toNat_ofNat_byte]
  exact Nat.le_of_lt_succ b.toNat_lt

/-- **Every list of byte strings is read back from its characters.** -/
theorem bytesOfRecords_byteStrings (record : Nat) (records : List (List UInt8)) :
    bytesOfRecords record (records.map byteString) = .ok records := by
  rw [bytesOfRecords_of_holdBytes (holdBytes_byteStrings records), List.map_map]
  refine congrArg Except.ok ((List.map_congr_left fun bytes _ => ?_).trans (List.map_id records))
  exact bytesOf_byteString bytes

/-! ## Sources -/

/-- What the bounds do is no fault of a character. -/
theorem new_ne_recordChar {rs : List (List UInt8)} {start stop : Option Int} :
    new rs start stop ≠ .error (.invalidArgument (.recordChar record c)) := by
  unfold new
  split <;> simp

theorem ofByteStrings_of_holdBytes (h : HoldBytes records) (start stop : Option Int) :
    ofByteStrings records start stop = new (records.map fun s => bytesOf s.toList) start stop := by
  rw [ofByteStrings, bytesOfRecords_of_holdBytes h]

/-- **Records are refused for their first large character**, and only for it. -/
theorem ofByteStrings_eq_recordChar_iff {start stop : Option Int} :
    ofByteStrings records start stop = .error (.invalidArgument (.recordChar record c)) ↔
      FirstLarge records record c := by
  constructor
  · intro h
    rcases holdBytes_or_firstLarge records with hall | ⟨other, d, hlarge⟩
    · rw [ofByteStrings_of_holdBytes hall] at h
      exact absurd h new_ne_recordChar
    · rw [ofByteStrings, hlarge.bytesOfRecords_eq, Nat.zero_add] at h
      cases h
      exact hlarge
  · intro h
    rw [ofByteStrings, h.bytesOfRecords_eq, Nat.zero_add]

/-- **How records of one byte for every character are judged.** For every list of texts and all
bounds, a character is the reason for a refusal exactly if some text, inside the bounds or outside
of them, holds one above U+00FF. The refusal names the first text that does and the first such
character in it, whatever the bounds are. If there is no such character, the range of the texts is
built, or refused for its bounds, as that of the records which hold, for every character, one byte
with the code of the character. So for every list of byte strings, what is built from the characters
of their bytes is what is built from the byte strings themselves. -/
theorem refused_for_first_large (records : List String) (start stop : Option Int) :
    let built := ofByteStrings records start stop
    ((∃ record c, built = .error (.invalidArgument (.recordChar record c))) ↔
        ∃ s ∈ records, ∃ c ∈ s.toList, 0xFF < c.toNat) ∧
      (∀ record c, built = .error (.invalidArgument (.recordChar record c)) ↔
        FirstLarge records record c) ∧
      ((∀ s ∈ records, ∀ c ∈ s.toList, c.toNat ≤ 0xFF) →
        ∃ rs : List (List UInt8),
          rs.map (List.map UInt8.toNat) = records.map (fun s => s.toList.map Char.toNat) ∧
            built = new rs start stop) ∧
      ∀ rs : List (List UInt8),
        ofByteStrings (rs.map byteString) start stop = new rs start stop := by
  refine ⟨?_, fun record c => ofByteStrings_eq_recordChar_iff, fun hall => ?_, fun rs => ?_⟩
  · simp only [ofByteStrings_eq_recordChar_iff]
    constructor
    · rintro ⟨record, c, -, s, hs, hc⟩
      have hlarge := List.find?_some hc
      exact ⟨s, List.mem_of_getElem? hs, c, List.mem_of_find?_eq_some hc, of_decide_eq_true hlarge⟩
    · rintro ⟨s, hs, c, hc, hlarge⟩
      refine (holdBytes_or_firstLarge records).resolve_left fun hall => ?_
      exact Nat.not_lt.mpr (hall s hs c hc) hlarge
  · refine ⟨records.map fun s => bytesOf s.toList, ?_, ofByteStrings_of_holdBytes hall start stop⟩
    rw [List.map_map]
    exact List.map_congr_left fun s hs => map_toNat_bytesOf (hall s hs)
  · rw [ofByteStrings, bytesOfRecords_byteStrings]

/-- The second record holds a byte above the ASCII ones and two larger characters, of which the
first one is reported, although the third record holds one, too, and the start is negative. Without
the large characters the records are those of a range that lies in order after it was lowered. -/
theorem refused_for_first_large_negativeStart :
    ofByteStrings ["ok", "éĀΩ", "Ω"] (some (-1)) none =
        .error (.invalidArgument (.recordChar 1 'Ā')) ∧
      (∀ s ∈ ["ok", "é", ""], ∀ c ∈ s.toList, c.toNat ≤ 0xFF) ∧
      ∃ rs : List (List UInt8), rs.map (List.map UInt8.toNat) = [[111, 107], [233], []] ∧
        ofByteStrings ["ok", "é", ""] (some 1) (some 9) = new rs (some 1) (some 9) := by
  have hbytes : ∀ s ∈ ["ok", "é", ""], ∀ c ∈ s.toList, c.toNat ≤ 0xFF := by
    simp
  have hfirst : FirstLarge ["ok", "éĀΩ", "Ω"] 1 'Ā' := ⟨by simp [HoldBytes], _, rfl, by decide⟩
  obtain ⟨-, hrefused, -, -⟩ := refused_for_first_large ["ok", "éĀΩ", "Ω"] (some (-1)) none
  obtain ⟨-, -, hbuilt, -⟩ := refused_for_first_large ["ok", "é", ""] (some 1) (some 9)
  exact ⟨(hrefused 1 'Ā').mpr hfirst, hbytes, hbuilt hbytes⟩

end MemorySource

end SplitReader
