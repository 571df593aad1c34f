import SplitReader.Outcome

/-! # Lengths of time

A length of time is a number of whole seconds and a number of nanoseconds below one second.
-/

set_option autoImplicit false

namespace SplitReader

def nanosPerSecond : Nat := 1000000000

/-- A length of time in seconds and nanoseconds. -/
structure Duration where
  secs : UInt64
  nanos : UInt32
  nanos_lt : nanos.toNat < nanosPerSecond
  deriving DecidableEq, Repr

namespace Duration

/-- The length of time of some seconds and any number of nanoseconds: full seconds among the
nanoseconds are carried over. Nothing if the seconds then exceed a word. -/
def ofParts? (secs : UInt64) (nanos : UInt32) : Option Duration :=
  let total := secs.toNat + nanos.toNat / nanosPerSecond
  if total < UInt64.size then
    some ⟨UInt64.ofNat total, UInt32.ofNat (nanos.toNat % nanosPerSecond), by
      have h : nanos.toNat % nanosPerSecond < nanosPerSecond := Nat.mod_lt _ (by decide)
      have h' : nanos.toNat % nanosPerSecond < UInt32.size := Nat.lt_trans h (by decide)
      rw [UInt32.toNat_ofNat_of_lt' h']
      exact h⟩
  else
    none

theorem ofParts?_self (d : Duration) : ofParts? d.secs d.nanos = some d := by
  obtain ⟨secs, nanos, hnanos⟩ := d
  have hfull : nanos.toNat / nanosPerSecond = 0 := Nat.div_eq_of_lt hnanos
  have hrest : nanos.toNat % nanosPerSecond = nanos.toNat := Nat.mod_eq_of_lt hnanos
  simp only [ofParts?, hfull, hrest, Nat.add_zero, UInt64.ofNat_toNat, UInt32.ofNat_toNat]
  exact if_pos secs.toNat_lt

/-- The length of time of some seconds and nanoseconds, where too many seconds are a crash. -/
def ofParts {ε : Type} (secs : UInt64) (nanos : UInt32) : Outcome ε Duration :=
  match ofParts? secs nanos with
  | some d => .value d
  | none => .crashed "overflow in Duration::new"

end Duration

end SplitReader
