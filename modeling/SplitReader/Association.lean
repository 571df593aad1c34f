/-! # Associations

Lists of pairs that hold one value for a key. The pairs stay in the order in which their keys
came.
-/

set_option autoImplicit false

namespace SplitReader.Association

variable {κ α : Type} [DecidableEq κ]

/-- Puts a value under a key: in the place of the old one if there is one, or else at the end. -/
def put (k : κ) (a : α) : List (κ × α) → List (κ × α)
  | [] => [(k, a)]
  | (j, b) :: rest => if j = k then (k, a) :: rest else (j, b) :: put k a rest

def erase (k : κ) (pairs : List (κ × α)) : List (κ × α) := pairs.filter fun p => p.1 ≠ k

theorem lookup_cons_of_ne {j i : κ} (h : j ≠ i) (a : α) (rest : List (κ × α)) :
    ((i, a) :: rest).lookup j = rest.lookup j := by
  have hb : (j == i) = false := by simpa using h
  rw [List.lookup_cons, hb]

theorem lookup_cons_of_eq (k : κ) (a : α) (rest : List (κ × α)) :
    ((k, a) :: rest).lookup k = some a := by
  rw [List.lookup_cons, beq_self_eq_true]

theorem lookup_put_self (k : κ) (a : α) (pairs : List (κ × α)) :
    (put k a pairs).lookup k = some a := by
  induction pairs with
  | nil => exact lookup_cons_of_eq k a []
  | cons p rest ih =>
    obtain ⟨i, b⟩ := p
    by_cases h : i = k
    · rw [put, if_pos h, lookup_cons_of_eq]
    · rw [put, if_neg h, lookup_cons_of_ne (Ne.symm h), ih]

theorem lookup_put_of_ne {k j : κ} (h : j ≠ k) (a : α) (pairs : List (κ × α)) :
    (put k a pairs).lookup j = pairs.lookup j := by
  induction pairs with
  | nil => exact lookup_cons_of_ne h a []
  | cons p rest ih =>
    obtain ⟨i, b⟩ := p
    by_cases hi : i = k
    · subst hi
      rw [put, if_pos rfl, lookup_cons_of_ne h, lookup_cons_of_ne h]
    · by_cases hj : j = i
      · subst hj
        rw [put, if_neg hi, lookup_cons_of_eq, lookup_cons_of_eq]
      · rw [put, if_neg hi, lookup_cons_of_ne hj, lookup_cons_of_ne hj, ih]

end SplitReader.Association
