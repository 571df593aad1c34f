import SplitReader.Proofs.JsonSpelling

/-! # Members in any order

A reader of an object takes the members as they come, so it does not see them in one fixed order.
It is enough to know the values at each name (`valuesAt`), where the order of the names is lost: a
field stays as it was if there is no value at its name, and is read from the only one (`Settles`).
Members of names that are not known are kept as trees or skipped, which a plain value always allows
(`Value.IsPlain`).
-/

set_option autoImplicit false

namespace SplitReader.Json

/-! ## Plain values -/

namespace Value

/-- A value that a reader can skip: none, a truth value, a whole number of one word, or a text. -/
inductive IsPlain : Value → Prop where
  | null : IsPlain .null
  | bool (b : Bool) : IsPlain (.bool b)
  | natural (n : UInt64) : IsPlain (.number (.natural n))
  | negative (n : Int64) : IsPlain (.number (.negative n))
  | text (s : String) : IsPlain (.text s)

theorem IsPlain.takes {v : Value} (h : v.IsPlain) (depth : Nat) :
    Takes (Value.read depth) v.tokens v := by
  cases h <;> exact ⟨⟨_, [], rfl, trivial⟩, fun rest => by cases depth <;> rfl⟩

theorem IsPlain.skipValue {v : Value} (h : v.IsPlain) (rest : List Token) :
    Reader.skipValue (v.tokens ++ rest) = .ok rest := by
  cases h <;> rfl

theorem takes_texts (depth : Nat) (ss : List String) :
    Takes (Value.read (depth + 1)) (Value.array (ss.map text)).tokens (.array (ss.map text)) := by
  refine takes_array ?_
  induction ss with
  | nil => exact .nil
  | cons s ss ih => exact .cons ((IsPlain.text s).takes depth) ih

end Value

/-! ## Values at a name -/

/-- The values of the members of some name, in their order. -/
def valuesAt (name : String) (ms : List (String × Value)) : List Value :=
  ms.filterMap fun m => if m.1 = name then some m.2 else none

variable {name key : String} {v : Value} {ms : List (String × Value)}

theorem valuesAt_cons_self (name : String) (v : Value) (ms : List (String × Value)) :
    valuesAt name ((name, v) :: ms) = v :: valuesAt name ms :=
  List.filterMap_cons_some (if_pos rfl)

theorem valuesAt_cons_of_ne (h : key ≠ name) :
    valuesAt name ((key, v) :: ms) = valuesAt name ms :=
  List.filterMap_cons_none (if_neg h)

theorem mem_valuesAt (h : (name, v) ∈ ms) : v ∈ valuesAt name ms :=
  List.mem_filterMap.mpr ⟨(name, v), h, if_pos rfl⟩

theorem valuesAt_filter_ne (h : key ≠ name) (ms : List (String × Value)) :
    valuesAt name (ms.filter (·.1 ≠ key)) = valuesAt name ms := by
  induction ms with
  | nil => rfl
  | cons m ms ih =>
      obtain ⟨other, v⟩ := m
      by_cases hother : other = key
      · subst hother
        rw [List.filter_cons_of_neg (by simp), ih, valuesAt_cons_of_ne h]
      · rw [List.filter_cons_of_pos (by simpa using hother)]
        by_cases hname : other = name
        · rw [hname, valuesAt_cons_self, valuesAt_cons_self, ih]
        · rw [valuesAt_cons_of_ne hname, valuesAt_cons_of_ne hname, ih]

/-! ## Fields -/

/-- What becomes of a field by the values at its name: it stays as it was if there is none, and is
read from the only one. -/
inductive Settles {α : Type} (reads : Value → α → Prop) :
    List Value → Option α → Option α → Prop where
  | kept (seen : Option α) : Settles reads [] seen seen
  /-- There is one value, and none was read before. -/
  | read {v : Value} {a : α} (h : reads v a) : Settles reads [v] none (some a)

variable {α : Type} {seen final : Option α}

theorem Settles.eq_of_nil {reads : Value → α → Prop} (h : Settles reads [] seen final) :
    seen = final := by
  cases h
  rfl

/-- The first value at the name of a field is the one that is read. -/
theorem Settles.of_cons {reads : Value → α → Prop}
    (h : Settles reads (valuesAt name ((name, v) :: ms)) seen final) :
    seen = none ∧ ∃ a, reads v a ∧ Settles reads (valuesAt name ms) (some a) final := by
  rw [valuesAt_cons_self] at h
  generalize valuesAt name ms = vs at h ⊢
  cases h with
  | read h => exact ⟨rfl, _, h, .kept _⟩

theorem Settles.of_cons_of_ne {reads : Value → α → Prop} (hname : key ≠ name)
    (h : Settles reads (valuesAt name ((key, v) :: ms)) seen final) :
    Settles reads (valuesAt name ms) seen final := by
  rwa [valuesAt_cons_of_ne hname] at h

/-- The first value at the name of a field is read where it stands. -/
theorem Settles.exists_field_eq {read : Reader α}
    (h : Settles (fun v a => Takes read v.tokens a) (valuesAt name ((name, v) :: ms)) seen final) :
    ∃ seen', (∀ rest, Reader.field name read seen (.colon :: (v.tokens ++ rest)) =
        .ok (seen', rest)) ∧
      Settles (fun v a => Takes read v.tokens a) (valuesAt name ms) seen' final := by
  obtain ⟨rfl, a, htakes, hothers⟩ := h.of_cons
  exact ⟨some a, fun rest => field_of_read name (htakes.read_append rest), hothers⟩

end SplitReader.Json
