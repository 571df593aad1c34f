import SplitReader.Codec

/-! # What a decoder makes of records

A decoder may keep a state from call to call, and may fail or crash on any call. A reader decodes
the records of a list one after the other: a record that was not decoded is tried again at the next
read, with whatever state the decoder was left in, and only a decoded record is left behind.
`Decodings` says which elements a reader can have given before it stands at an index.
-/

set_option autoImplicit false

namespace SplitReader

/-! ## Ranges of records -/

/-- The records of a range of record numbers. -/
def recordsIn (records : List (List UInt8)) (first past : Nat) : List (List UInt8) :=
  (records.drop first).take (past - first)

def bytesIn (records : List (List UInt8)) (first past : Nat) : Nat :=
  (recordsIn records first past).flatten.length

section Ranges

variable {records : List (List UInt8)} {first index : Nat} {bytes : List UInt8}

theorem recordsIn_self (records : List (List UInt8)) (first : Nat) :
    recordsIn records first first = [] := by
  rw [recordsIn, Nat.sub_self, List.take_zero]

theorem recordsIn_succ (h : records[index]? = some bytes) (hle : first ≤ index) :
    recordsIn records first (index + 1) = recordsIn records first index ++ [bytes] := by
  rw [recordsIn, recordsIn, Nat.succ_sub hle, List.take_add_one, List.getElem?_drop,
    Nat.add_sub_cancel' hle, h]
  rfl

theorem recordsIn_cons {past : Nat} (h : records[index]? = some bytes) (hlt : index < past) :
    recordsIn records index past = bytes :: recordsIn records (index + 1) past := by
  obtain ⟨hinside, rfl⟩ := List.getElem?_eq_some_iff.mp h
  have hcount : past - index = (past - (index + 1)) + 1 := by omega
  rw [recordsIn, recordsIn, List.drop_eq_getElem_cons hinside, hcount, List.take_succ_cons]

theorem bytesIn_self (records : List (List UInt8)) (first : Nat) :
    bytesIn records first first = 0 := by
  rw [bytesIn, recordsIn_self]
  rfl

theorem bytesIn_succ (h : records[index]? = some bytes) (hle : first ≤ index) :
    bytesIn records first (index + 1) = bytesIn records first index + bytes.length := by
  rw [bytesIn, bytesIn, recordsIn_succ h hle, List.flatten_append, List.flatten_singleton,
    List.length_append]

end Ranges

/-! ## Single records -/

namespace Decoder

variable {σ α : Type}

def DecodesAll (decoder : Decoder σ α) (records : List (List UInt8)) : Prop :=
  ∀ bytes ∈ records, ∀ c, ∃ a c', decoder.decode bytes c = (.value a, c')

/-- An element is what the decoder makes, in some state, of the record with a number. -/
def IsDecoded (decoder : Decoder σ α) (records : List (List UInt8)) (number : Nat) (a : α) : Prop :=
  ∃ bytes c c', records[number]? = some bytes ∧ decoder.decode bytes c = (.value a, c')

/-- Decodes records one after the other, and gives nothing if one of them is not decoded. -/
def decodeAll (decoder : Decoder σ α) : List (List UInt8) → σ → Option (List α × σ)
  | [], c => some ([], c)
  | bytes :: rest, c =>
      match decoder.decode bytes c with
      | (.value a, c) => (decoder.decodeAll rest c).map fun (as, c) => (a :: as, c)
      | _ => none

theorem of_isSome_decodeAll_cons {decoder : Decoder σ α} {bytes : List UInt8}
    {rest : List (List UInt8)} {c : σ} (h : (decoder.decodeAll (bytes :: rest) c).isSome = true) :
    ∃ a c', decoder.decode bytes c = (.value a, c') ∧
      (decoder.decodeAll rest c').isSome = true := by
  rw [decodeAll] at h
  split at h
  · next a c' hdecode =>
    rw [Option.isSome_map] at h
    exact ⟨a, c', hdecode, h⟩
  · cases h

theorem decodeAll_concat {decoder : Decoder σ α} {bytes : List UInt8} {a : α} {c' c'' : σ}
    (hdecode : decoder.decode bytes c' = (.value a, c'')) (read : List (List UInt8)) :
    ∀ {c : σ} {elements : List α}, decoder.decodeAll read c = some (elements, c') →
      decoder.decodeAll (read ++ [bytes]) c = some (elements ++ [a], c'') := by
  induction read with
  | nil =>
      intro c elements h
      cases h
      simp only [List.nil_append, decodeAll, hdecode, Option.map_some]
  | cons first read ih =>
      intro c elements h
      rw [decodeAll] at h
      rw [List.cons_append, decodeAll]
      split at h
      · next b c1 hfirst =>
        obtain ⟨⟨as, last⟩, hrest, heq⟩ := Option.map_eq_some_iff.mp h
        cases heq
        rw [ih hrest]
        rfl
      · cases h

end Decoder

/-! ## Records in order -/

section Order

variable {σ α : Type}

/-- A decoder can have given some elements, and be in some state, when everything from a first
record up to an index was decoded in order. A record that is not decoded changes the state of the
decoder at most. -/
inductive Decodings (decoder : Decoder σ α) (records : List (List UInt8)) (first : Nat)
    (codec : σ) : Nat → List α → σ → Prop where
  | start : Decodings decoder records first codec first [] codec
  | miss {index : Nat} {elements : List α} {c c' : σ} {bytes : List UInt8}
      {outcome : Outcome CodecError α} (h : Decodings decoder records first codec index elements c)
      (hbytes : records[index]? = some bytes) (hdecode : decoder.decode bytes c = (outcome, c'))
      (hmiss : ∀ a, outcome ≠ .value a) : Decodings decoder records first codec index elements c'
  | hit {index : Nat} {elements : List α} {c c' : σ} {bytes : List UInt8} {a : α}
      (h : Decodings decoder records first codec index elements c)
      (hbytes : records[index]? = some bytes) (hdecode : decoder.decode bytes c = (.value a, c')) :
      Decodings decoder records first codec (index + 1) (elements ++ [a]) c'

variable {decoder : Decoder σ α} {records : List (List UInt8)} {first index : Nat} {codec c : σ}
  {elements : List α}

theorem Decodings.length_elements (h : Decodings decoder records first codec index elements c) :
    first + elements.length = index := by
  induction h with
  | start => rfl
  | miss h hbytes hdecode hmiss ih => exact ih
  | hit h hbytes hdecode ih =>
      rw [List.length_append, List.length_singleton, ← Nat.add_assoc, ih]

theorem Decodings.isDecoded (h : Decodings decoder records first codec index elements c) :
    ∀ {k : Nat} {a : α}, elements[k]? = some a → decoder.IsDecoded records (first + k) a := by
  induction h with
  | start =>
      intro k a hk
      rw [List.getElem?_nil] at hk
      cases hk
  | miss h hbytes hdecode hmiss ih => exact ih
  | hit h hbytes hdecode ih =>
      intro k a hk
      have hlength := h.length_elements
      rcases Nat.lt_trichotomy k _ with hlt | heq | hgt
      · rw [List.getElem?_append_left hlt] at hk
        exact ih hk
      · subst heq
        rw [List.getElem?_concat_length] at hk
        cases hk
        rw [hlength]
        exact ⟨_, _, _, hbytes, hdecode⟩
      · rw [List.getElem?_eq_none (by simp; omega)] at hk
        cases hk

end Order

end SplitReader
