import Storefront.Number.Binary64

/-!
# Decimal numbers and doubles

A decimal is a signed whole coefficient times a power of ten. This file rounds decimals to doubles
and finds the shortest decimal that reads back to a given double.

* `Decimal.toBinary64`: the double nearest to a decimal
* `Magnitude.shortest`: among the decimals with fewest digits that read back, the nearest one
* `Decimal.scale`: the product with another decimal, cut to a working precision
-/

namespace Storefront

/-- A decimal number, `± coefficient * 10 ^ exponent`. -/
structure Decimal where
  negative : Bool
  coefficient : Nat
  exponent : Int
deriving DecidableEq

/-! ## From decimals to doubles -/

namespace Magnitude

/-- The magnitude nearest to `coefficient * 10 ^ exponent`.

Beyond 10^400 and below 10^-400 the answer is known without computing the power. -/
def ofDecimal (coefficient : Nat) (exponent : Int) : Magnitude :=
  if coefficient = 0 then .zero
  else match exponent with
    | .ofNat e =>
      if 400 ≤ e then .infinity else .nearest (coefficient * Nat.pow 10 e) 1
    | .negSucc e =>
      if coefficient.log2 + 400 ≤ e then .zero else .nearest coefficient (Nat.pow 10 (e + 1))

end Magnitude

namespace Decimal

/-- The double nearest to a decimal. -/
def toBinary64 (d : Decimal) : Binary64 :=
  .signed d.negative (.ofDecimal d.coefficient d.exponent)

/-- The number of decimal digits of a natural number, 1 for zero. -/
def digitCount (n : Nat) : Nat := (Nat.toDigits 10 n).length

/-- A coefficient cut to a number of significant digits, half to even. -/
def cut (precision : Nat) (d : Decimal) : Decimal :=
  let extra := digitCount d.coefficient - precision
  if extra = 0 then d
  else
    let rounded := roundDiv d.coefficient (Nat.pow 10 extra)
    ⟨d.negative, rounded, d.exponent + extra⟩

/-- The product of two decimals, cut to a number of significant digits. -/
def scale (precision : Nat) (a b : Decimal) : Decimal :=
  cut precision
    ⟨a.negative != b.negative, a.coefficient * b.coefficient, a.exponent + b.exponent⟩

end Decimal

/-! ## From doubles to decimals -/

namespace Magnitude

/-- The coefficient on the grid of multiples of `10 ^ exponent` that reads back to a magnitude.

Only the two grid points around the value are tried, the nearer one first. -/
def coefficientAt? (m : Magnitude) (exponent : Int) : Option Nat :=
  let num := m.units * Nat.pow 10 (-exponent).toNat
  let den := unitsPerOne * Nat.pow 10 exponent.toNat
  let near := roundDiv num den
  let far := if near = num / den then near + 1 else num / den
  if ofDecimal near exponent = m then some near
  else if ofDecimal far exponent = m then some far
  else none

/-- The first grid, from `10 ^ exponent` downwards, with a point that reads back. -/
def shortestFrom (m : Magnitude) : Nat → Int → Option (Nat × Int)
  | 0, _ => none
  | steps + 1, exponent =>
    match m.coefficientAt? exponent with
    | some coefficient => some (coefficient, exponent)
    | none => shortestFrom m steps (exponent - 1)

/-- A power of ten above every decimal that reads back to the magnitude. -/
def topExponent (m : Magnitude) : Int :=
  ((m.units.log2 : Int) - 1074) * 30103 / 100000 + 1

/-- The shortest decimal that reads back to a finite magnitude, as coefficient and exponent.

Nineteen grids are enough; the exact expansion stands behind them. -/
def shortest (m : Magnitude) : Nat × Int :=
  if m.index = 0 then (0, 0)
  else (m.shortestFrom 19 m.topExponent).getD (m.units * Nat.pow 5 1074, -1074)

end Magnitude

namespace Binary64

/-- The shortest decimal that reads back to a finite number. -/
def toDecimal? : Binary64 → Option Decimal
  | .nan => none
  | .signed negative m =>
    if m.isFinite then some ⟨negative, m.shortest.1, m.shortest.2⟩ else none

end Binary64

end Storefront
