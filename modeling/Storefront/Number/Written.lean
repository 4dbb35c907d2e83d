import Storefront.Number.Decimal

/-!
# How numbers are written

Numbers are written with the fewest digits that read back, positionally for exponents from -4 to 15
and with a two-digit exponent otherwise, or with a fixed count of decimal places.

* `NumberStyle`: the choices that differ between outputs
* `Binary64.written`: a double in a style
* `Binary64.fixed`: a double with a fixed count of decimal places
* `Magnitude.rounded`: a magnitude with a fixed count of significant digits
* `intText`: a whole number
-/

namespace Storefront

/-- The spellings of the values that have no digits. -/
structure NumberStyle where
  nan : String
  infinity : String

/-- Plain text, as names in messages and fields of text. -/
def NumberStyle.plain : NumberStyle := ⟨"nan", "inf"⟩

/-- Data interchange: the three literals that JSON itself lacks. -/
def NumberStyle.interchange : NumberStyle := ⟨"NaN", "Infinity"⟩

/-- A whole number in decimal digits. -/
def intText (n : Int) : String :=
  let digits := String.ofList (Nat.toDigits 10 n.natAbs)
  if n < 0 then "-" ++ digits else digits

/-- A list of digits without its trailing zeros, and how many were dropped. -/
def dropTrailingZeros (digits : List Char) : List Char × Nat :=
  let kept := (digits.reverse.dropWhile (· == '0')).reverse
  (kept, digits.length - kept.length)

/-- The exponent part of a number: its sign and at least two digits. -/
def exponentText (exponent : Int) : List Char :=
  let digits := Nat.toDigits 10 exponent.natAbs
  let padded := if digits.length < 2 then '0' :: digits else digits
  'e' :: (if exponent < 0 then '-' else '+') :: padded

/-- Digits with the decimal point after the first `point` of them. -/
def positionalText (digits : List Char) (point : Int) : List Char :=
  if point ≤ 0 then
    '0' :: '.' :: List.replicate (-point).toNat '0' ++ digits
  else if (digits.length : Int) ≤ point then
    digits ++ List.replicate (point.toNat - digits.length) '0' ++ ['.', '0']
  else digits.take point.toNat ++ '.' :: digits.drop point.toNat

/-- Digits in exponent form: one digit before the point. -/
def scientificText (digits : List Char) (point : Int) : List Char :=
  let mantissa := match digits with
    | [] => ['0']
    | [d] => [d]
    | d :: rest => d :: '.' :: rest
  mantissa ++ exponentText (point - 1)

/-- The text of a finite magnitude. -/
def Magnitude.written (m : Magnitude) : List Char :=
  if m.index = 0 then ['0', '.', '0']
  else
    let (coefficient, exponent) := m.shortest
    let (digits, dropped) := dropTrailingZeros (Nat.toDigits 10 coefficient)
    let point := (digits.length : Int) + exponent + dropped
    if -4 < point ∧ point ≤ 16 then positionalText digits point
    else scientificText digits point

/-- A finite magnitude rounded, half to even, to a count of significant digits: the digits, and the
exponent of the first of them. -/
def Magnitude.rounded (count : Nat) (m : Magnitude) : List Char × Int :=
  if m.index = 0 then (List.replicate count '0', 0)
  else
    let exact := m.units * Nat.pow 5 1074
    let length := (Nat.toDigits 10 exact).length
    let digits := Nat.toDigits 10
      (roundDiv (exact * Nat.pow 10 (count - length)) (Nat.pow 10 (length - count)))
    (digits.take count, (length : Int) - 1075 + (digits.length - count : Nat))

namespace Binary64

/-- A double as text, in a style for the values without digits. -/
def written (style : NumberStyle) : Binary64 → String
  | .nan => style.nan
  | .signed negative m =>
    let body := if m.isFinite then String.ofList m.written else style.infinity
    if negative then "-" ++ body else body

/-- A double in plain text. -/
def text (x : Binary64) : String := x.written .plain

/-- A double rounded, half to even, to a fixed count of decimal places. -/
def fixed (places : Nat) : Binary64 → String
  | .nan => "nan"
  | .signed negative m =>
    let body :=
      if m.isFinite then
        let digits :=
          Nat.toDigits 10 (roundDiv (m.units * Nat.pow 10 places) Magnitude.unitsPerOne)
        let padded := List.replicate (places + 1 - digits.length) '0' ++ digits
        let whole := padded.take (padded.length - places)
        let part := padded.drop (padded.length - places)
        String.ofList (if places = 0 then whole else whole ++ '.' :: part)
      else "inf"
    if negative then "-" ++ body else body

end Binary64

end Storefront
