/-!
# Double-precision numbers

A double is "not a number" or a sign with a magnitude. The magnitudes are numbered in increasing
order, from zero to infinity, and every finite one is a whole number of units of 2^-1074, so exact
results are fractions of natural numbers and each operation is its exact result rounded once.

* `Magnitude`, `Magnitude.units`, `Magnitude.nearest`: the grid of magnitudes and rounding to it
* `Binary64`: the doubles, their order, their arithmetic and their conversion to whole numbers
-/

namespace Storefront

/-- The quotient of two natural numbers rounded to the nearest one, a tie to the even one. -/
def roundDiv (num den : Nat) : Nat :=
  let quotient := num / den
  let twice := 2 * (num % den)
  if twice < den then quotient
  else if den < twice then quotient + 1
  else quotient + quotient % 2

/-! ## Magnitudes -/

/-- The number of finite magnitudes, which is also the index of infinity. -/
def finiteMagnitudes : Nat := 2047 * Nat.pow 2 52

/-- A nonnegative double, given by its index in increasing order. -/
structure Magnitude where
  index : Nat
  index_le : index ≤ finiteMagnitudes
deriving DecidableEq

namespace Magnitude

/-- The magnitude with an index; infinity when there is no finite one. -/
def ofIndex (index : Nat) : Magnitude :=
  ⟨min index finiteMagnitudes, Nat.min_le_right _ _⟩

/-- The magnitude zero. -/
def zero : Magnitude := ofIndex 0

/-- The magnitude above every finite one. -/
def infinity : Magnitude := ofIndex finiteMagnitudes

/-- The magnitude is that of a finite number. -/
def isFinite (m : Magnitude) : Bool := m.index < finiteMagnitudes

/-- The exact value of a finite magnitude, counted in units of 2^-1074. -/
def units (m : Magnitude) : Nat :=
  let size := Nat.pow 2 52
  if m.index < size then m.index
  else (size + m.index % size) * Nat.pow 2 (m.index / size - 1)

/-- The magnitude nearest to `num / den` units, a tie going to the even index. -/
def nearestUnits (num den : Nat) : Magnitude :=
  let shift := (num / den).log2 - 52
  ofIndex (shift * Nat.pow 2 52 + roundDiv num (den * Nat.pow 2 shift))

/-- The number of units in one. -/
def unitsPerOne : Nat := Nat.pow 2 1074

/-- The magnitude nearest to the fraction `num / den`. -/
def nearest (num den : Nat) : Magnitude := nearestUnits (num * unitsPerOne) den

end Magnitude

/-! ## Doubles -/

/-- A double-precision number: not a number, or a sign and a magnitude. -/
inductive Binary64 where
  | nan
  | signed (negative : Bool) (magnitude : Magnitude)
deriving DecidableEq

namespace Binary64

/-- Positive zero. -/
def zero : Binary64 := .signed false .zero

/-- Positive infinity. -/
def infinity : Binary64 := .signed false .infinity

instance : Inhabited Binary64 := ⟨zero⟩

/-- The number is not a number. -/
def isNan : Binary64 → Bool
  | .nan => true
  | .signed _ _ => false

/-- The number is neither infinite nor "not a number". -/
def isFinite : Binary64 → Bool
  | .nan => false
  | .signed _ m => m.isFinite

/-- The number is positive or negative zero. -/
def isZero : Binary64 → Bool
  | .nan => false
  | .signed _ m => m.index == 0

/-- The exact value of a finite number, counted in units of 2^-1074. -/
def units : Binary64 → Int
  | .nan => 0
  | .signed true m => -m.units
  | .signed false m => m.units

/-! ## Order -/

/-- The place of a number on the line from minus infinity to infinity; both zeros stand at 0. -/
def place : Binary64 → Option Int
  | .nan => none
  | .signed true m => some (-m.index)
  | .signed false m => some m.index

/-- Numeric equality: both zeros are equal, and nothing equals "not a number". -/
def eq (a b : Binary64) : Bool :=
  match a.place, b.place with
  | some x, some y => x == y
  | _, _ => false

/-- Numeric "less than", false as soon as one side is not a number. -/
def lt (a b : Binary64) : Bool :=
  match a.place, b.place with
  | some x, some y => x < y
  | _, _ => false

/-- Numeric "at most", false as soon as one side is not a number. -/
def le (a b : Binary64) : Bool :=
  match a.place, b.place with
  | some x, some y => x ≤ y
  | _, _ => false

theorem lt_eq_true {a b : Binary64} :
    a.lt b = true ↔ ∃ x y, a.place = some x ∧ b.place = some y ∧ x < y := by
  unfold lt
  cases a.place <;> cases b.place <;> simp

theorem le_eq_true {a b : Binary64} :
    a.le b = true ↔ ∃ x y, a.place = some x ∧ b.place = some y ∧ x ≤ y := by
  unfold le
  cases a.place <;> cases b.place <;> simp

/-! ## Conversions -/

/-- The double nearest to a fraction with the given sign. -/
def ofRatio (negative : Bool) (num den : Nat) : Binary64 :=
  .signed negative (.nearest num den)

/-- The double nearest to a whole number. -/
def ofInt (n : Int) : Binary64 := ofRatio (n < 0) n.natAbs 1

/-- The double nearest to a natural number. -/
def ofNat (n : Nat) : Binary64 := ofRatio false n 1

/-- The double nearest to a whole number, if that is finite. -/
def ofInt? (n : Int) : Option Binary64 :=
  let x := ofInt n
  if x.isFinite then some x else none

theorem isNan_ofRatio (negative : Bool) (num den : Nat) :
    (ofRatio negative num den).isNan = false := by
  unfold ofRatio isNan
  rfl

theorem ofInt_natCast (n : Nat) : ofInt n = ofNat n := by
  have hsign : decide ((n : Int) < 0) = false := decide_eq_false (by omega)
  unfold ofInt ofNat
  rw [hsign, Int.natAbs_natCast]

theorem isNan_ofNat (n : Nat) : (ofNat n).isNan = false := isNan_ofRatio _ _ _

theorem isNan_of_ofInt? {n : Int} {x : Binary64} (h : ofInt? n = some x) : x.isNan = false := by
  unfold ofInt? at h
  dsimp only at h
  split at h
  · rw [← Option.some.inj h]
    exact isNan_ofRatio _ _ _
  · cases h

/-- The whole part of a finite number, cut toward zero. -/
def truncate? (x : Binary64) : Option Int :=
  if x.isFinite then some (x.units.tdiv Magnitude.unitsPerOne) else none

/-- The whole number that a finite number is, if it is one. -/
def toInt? (x : Binary64) : Option Int :=
  if x.isFinite && x.units % Magnitude.unitsPerOne == 0 then
    some (x.units / Magnitude.unitsPerOne)
  else none

/-- How a whole number compares with a double; nothing when the double is not a number. -/
def compareInt (n : Int) : Binary64 → Option Ordering
  | .nan => none
  | .signed negative m =>
    if m.isFinite then
      some (compare (n * Magnitude.unitsPerOne) (Binary64.signed negative m).units)
    else some (if negative then .gt else .lt)

/-! ## Arithmetic -/

/-- The number with the opposite sign. -/
def neg : Binary64 → Binary64
  | .nan => .nan
  | .signed negative m => .signed (!negative) m

/-- The number without its sign. -/
def abs : Binary64 → Binary64
  | .nan => .nan
  | .signed _ m => .signed false m

/-- The sum, rounded to nearest; an exact zero is negative only when both summands are. -/
def add : Binary64 → Binary64 → Binary64
  | .nan, _ => .nan
  | _, .nan => .nan
  | .signed s a, .signed t b =>
    match a.isFinite, b.isFinite with
    | true, true =>
      let sum := (Binary64.signed s a).units + (Binary64.signed t b).units
      if sum = 0 then .signed (s && t) .zero
      else .signed (sum < 0) (.nearestUnits sum.natAbs 1)
    | false, false => if s = t then .signed s .infinity else .nan
    | false, true => .signed s .infinity
    | true, false => .signed t .infinity

/-- The difference, rounded to nearest. -/
def sub (a b : Binary64) : Binary64 := a.add b.neg

/-- The product, rounded to nearest; zero times infinity is not a number. -/
def mul : Binary64 → Binary64 → Binary64
  | .nan, _ => .nan
  | _, .nan => .nan
  | .signed s a, .signed t b =>
    if a.isFinite && b.isFinite then
      .signed (s != t) (.nearestUnits (a.units * b.units) Magnitude.unitsPerOne)
    else if a.index = 0 || b.index = 0 then .nan
    else .signed (s != t) .infinity

/-- The quotient, rounded to nearest; a nonzero number over zero is infinite. -/
def div : Binary64 → Binary64 → Binary64
  | .nan, _ => .nan
  | _, .nan => .nan
  | .signed s a, .signed t b =>
    match a.isFinite, b.isFinite with
    | false, false => .nan
    | false, true => .signed (s != t) .infinity
    | true, false => .signed (s != t) .zero
    | true, true =>
      if b.index = 0 then if a.index = 0 then .nan else .signed (s != t) .infinity
      else .signed (s != t) (.nearest a.units b.units)

/-- The least whole number not below a finite number. -/
def ceil? (x : Binary64) : Option Int :=
  if x.isFinite then some (-((-x.units) / Magnitude.unitsPerOne)) else none

/-- The double nearest to the number rounded, half to even, to a count of decimal places. -/
def roundTo (places : Nat) : Binary64 → Binary64
  | .nan => .nan
  | .signed s m =>
    if m.isFinite then
      let scale := Nat.pow 10 places
      .signed s (.nearest (roundDiv (m.units * scale) Magnitude.unitsPerOne) scale)
    else .signed s m

end Binary64

end Storefront
