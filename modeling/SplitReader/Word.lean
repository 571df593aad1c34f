/-! # Words

The bounds of signed words. A word of 64 bits without a sign is below `UInt64.size`, and the
signed one below half of that.
-/

set_option autoImplicit false

namespace SplitReader.Word

/-- One more than the largest signed word of 64 bits. -/
def signedBound : Nat := 9223372036854775808

/-- One more than the largest signed word of 32 bits. -/
def signedHalfBound : Nat := 2147483648

/-- A whole number is a signed word of 64 bits. -/
def isSigned (n : Int) : Bool := -(signedBound : Int) ≤ n && n < signedBound

theorem two_signedBound : 2 * signedBound = UInt64.size := by decide

end SplitReader.Word
