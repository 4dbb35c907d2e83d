/-!
# Words of 64 bits

The bounds of the whole numbers that fit into 64 bits, with a sign or without one.

* `wordLimit`, `isWord`, `wrapWord`: numbers with a sign
* `unsignedLimit`, `isUnsignedWord`: numbers without a sign
-/

namespace Storefront

/-- The first number that is too large for 64 bits with a sign: two to the power of 63. -/
def wordLimit : Int := 9223372036854775808

/-- The first number that is too large for 64 bits without a sign: two to the power of 64. -/
def unsignedLimit : Int := 18446744073709551616

/-- The number fits into 64 bits with a sign. -/
def isWord (n : Int) : Bool := -wordLimit ≤ n && n < wordLimit

/-- The number that 64 bits with a sign keep of a number. -/
def wrapWord (n : Int) : Int := (n + wordLimit) % unsignedLimit - wordLimit

theorem isWord_iff {n : Int} : isWord n = true ↔ -wordLimit ≤ n ∧ n < wordLimit := by
  simp [isWord]

/-- The number fits into 64 bits without a sign. -/
def isUnsignedWord (n : Int) : Bool := 0 ≤ n && n < unsignedLimit

end Storefront
