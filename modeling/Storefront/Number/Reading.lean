import Storefront.Number.Decimal
import Storefront.Text.Blank
import Storefront.Text.Digit

/-!
# How numbers are read

Readers for the forms in which numbers arrive as text. Each takes the whole text or nothing.

* `wholeNumber`: a whole number, digits of any script, single underscores between digits
* `decimalNumber?`: a double in general decimal notation, with names for the infinities
* `exactDecimal?`: a decimal number that is kept as it is written
* `fieldWhole?`, `fieldNumber?`: fields of a table; a double is read digit by digit in double
  precision
-/

namespace Storefront

/-! ## Parts of a number -/

/-- Splits off a sign; the flag says that it was a minus. -/
def takeSign : List Char → Bool × List Char
  | '-' :: rest => (true, rest)
  | '+' :: rest => (false, rest)
  | rest => (false, rest)

/-- Splits off the leading ASCII digits. -/
def takeDigits (cs : List Char) : List Nat × List Char :=
  ((cs.takeWhile Char.isDigit).map fun c => c.toNat - '0'.toNat, cs.dropWhile Char.isDigit)

/-- Splits off an exponent such as `e-3`; without digits it is no exponent. -/
def takeExponent (cs : List Char) : Int × List Char :=
  match cs with
  | c :: rest =>
    if c == 'e' || c == 'E' then
      let (negative, afterSign) := takeSign rest
      match takeDigits afterSign with
      | ([], _) => (0, cs)
      | (digits, after) => (if negative then -(ofDigits digits : Int) else ofDigits digits, after)
    else (0, cs)
  | [] => (0, cs)

/-- Splits off an unsigned decimal: digits on at least one side of the point, then an exponent. -/
def takeDecimal? (cs : List Char) : Option (Nat × Int × List Char) :=
  let (whole, afterWhole) := takeDigits cs
  let (part, afterPart) := match afterWhole with
    | '.' :: rest => takeDigits rest
    | rest => ([], rest)
  if whole.isEmpty && part.isEmpty then none
  else
    let (exponent, rest) := takeExponent afterPart
    some (ofDigits (whole ++ part), exponent - part.length, rest)

/-- Digits with single underscores between them; the flag says that a digit stands before. -/
def groupedDigits? (digit? : Char → Option Nat) : Bool → List Char → Option (List Nat)
  | afterDigit, [] => if afterDigit then some [] else none
  | afterDigit, c :: cs =>
    if c == '_' then if afterDigit then groupedDigits? digit? false cs else none
    else match digit? c with
      | some d => (groupedDigits? digit? true cs).map (d :: ·)
      | none => none

/-! ## Whole numbers -/

/-- Why a text is not taken as a whole number. -/
inductive WholeNumberFault where
  | malformed
  | tooLong
deriving DecidableEq, Repr

/-- The most digits a whole number may be written with. -/
def maxWholeDigits : Nat := 4300

/-- A whole number: blanks around it, a sign, and digits of any script. -/
def wholeNumber (s : String) : Except WholeNumberFault Int :=
  let (negative, cs) := takeSign (trimWhile isBlank s.toList)
  match groupedDigits? decimalDigit? false cs with
  | none => .error .malformed
  | some digits =>
    if maxWholeDigits < digits.length then .error .tooLong
    else .ok (if negative then -(ofDigits digits : Int) else ofDigits digits)

/-! ## Doubles -/

/-- The names of infinity, in any case. -/
def isInfinityName (cs : List Char) : Bool :=
  let name := cs.map Char.toLower
  name == "inf".toList || name == "infinity".toList

/-- The name of "not a number", in any case. -/
def isNanName (cs : List Char) : Bool := cs.map Char.toLower == "nan".toList

/-- A double in general decimal notation or by name, with a sign in front. -/
def decimalNumber? (cs : List Char) : Option Binary64 :=
  let (negative, body) := takeSign cs
  if isInfinityName body then some (.signed negative .infinity)
  else if isNanName body then some .nan
  else match takeDecimal? body with
    | some (coefficient, exponent, []) =>
      some (Decimal.toBinary64 ⟨negative, coefficient, exponent⟩)
    | _ => none

/-- A decimal number: blanks around it, digits of any script, and underscores that do not count. -/
def exactDecimal? (s : String) : Option Decimal :=
  let plain := ((trimWhile isBlank s.toList).filter (· != '_')).map fun c =>
    match decimalDigit? c with
    | some d => Nat.digitChar d
    | none => c
  let (negative, body) := takeSign plain
  match takeDecimal? body with
  | some (coefficient, exponent, []) => some ⟨negative, coefficient, exponent⟩
  | _ => none

/-! ## Fields of a table -/

/-- The most digits of a field that count toward its value. -/
def maxFieldDigits : Nat := 17

/-- Digits accumulated from the left, each step in double precision. -/
def accumulate (digits : List Nat) : Binary64 :=
  digits.foldl (fun x d => (x.mul (.ofNat 10)).add (.ofNat d)) .zero

/-- A double moved by a power of ten in one or two steps; far out it is infinite, or zero. -/
def scaleByPowerOfTen (x : Binary64) (exponent : Int) : Binary64 :=
  if x.isZero then x
  else if exponent > 308 then x.mul .infinity
  else if exponent > 0 then x.mul (.ofNat (Nat.pow 10 exponent.toNat))
  else if exponent < -616 then x.mul .zero
  else if exponent < -308 then
    (x.div (.ofNat (Nat.pow 10 (-308 - exponent).toNat))).div (.ofNat (Nat.pow 10 308))
  else x.div (.ofNat (Nat.pow 10 (-exponent).toNat))

/-- A field in decimal notation with blanks around it.

The first seventeen digits count; the digits left out before the point only move the point. -/
def fieldDecimal? (cs : List Char) : Option Binary64 :=
  let (negative, body) := takeSign (cs.dropWhile isPlainBlank)
  let (whole, afterWhole) := takeDigits body
  let (part, afterPart) := match afterWhole with
    | '.' :: rest => takeDigits rest
    | rest => ([], rest)
  if whole.isEmpty && part.isEmpty then none
  else
    let keptWhole := whole.take maxFieldDigits
    let keptPart := part.take (maxFieldDigits - keptWhole.length)
    let moved : Int := (whole.length - keptWhole.length : Nat) - (keptPart.length : Int)
    let (exponent, rest) := takeExponent afterPart
    let number := accumulate (keptWhole ++ keptPart)
    if rest.all isPlainBlank then
      some (scaleByPowerOfTen (if negative then number.neg else number) (moved + exponent))
    else none

/-- A field in digits, with a sign in front and blanks around it. -/
def fieldWhole? (cs : List Char) : Option Int :=
  let (negative, body) := takeSign (cs.dropWhile isPlainBlank)
  match takeDigits body with
  | ([], _) => none
  | (digits, rest) =>
    if rest.all isPlainBlank then
      some (if negative then -(ofDigits digits : Int) else ofDigits digits)
    else none

/-- A field that holds a number: a decimal with blanks around it, or infinity by name. -/
def fieldNumber? (cs : List Char) : Option Binary64 :=
  match fieldDecimal? cs with
  | some x => some x
  | none =>
    let (negative, body) := takeSign cs
    if isInfinityName body then some (.signed negative .infinity) else none

end Storefront
