import Storefront.Failure
import Storefront.Json.Printer
import Storefront.Number.Word
import Storefront.Number.Written
import Storefront.Text.Digit

/-!
# Message templates

A template is a text with places for arguments. A place is a percent sign, perhaps the name of an
argument in parentheses, flags, a width, a precision after a point, and a character for its kind.

* `Place`, `Piece`, `Template.pieces`: what a template consists of
* `Place.text`: an argument at a place
* `Supply`: the arguments that are left
* `Template.message`: the message of a template and its arguments
-/

namespace Storefront

namespace Template

/-! ## Places -/

/-- A width or a precision. -/
inductive Size where
  | given (n : Nat)
  /-- The next argument gives it. -/
  | taken

/-- A place for an argument. -/
structure Place where
  name : Option String := none
  /-- The argument stands at the left of its width. -/
  left : Bool := false
  /-- A number that is not negative has a plus. -/
  plus : Bool := false
  /-- A number that is not negative has a blank in the place of its sign. -/
  blank : Bool := false
  /-- The kind's other form. -/
  other : Bool := false
  /-- A number is filled up with zeros. -/
  zeros : Bool := false
  width : Option Size := none
  precision : Option Size := none
  kind : Char := 's'

/-- How far a place is read. -/
inductive Stage where
  | start
  /-- Inside a name, with so many parentheses open in it. -/
  | name (opened : Nat) (chars : List Char)
  | flags
  | width
  | afterWidth
  | point
  | precision
  | afterPrecision
  /-- Behind a letter that says nothing. -/
  | letter

/-- A part of a template. -/
inductive Piece where
  | char (c : Char)
  | place (p : Place)
  /-- A place that is not written to its end. -/
  | unfinished (stage : Stage) (p : Place)

/-- The place with a flag. -/
def Place.withFlag? (p : Place) (c : Char) : Option Place :=
  if c = '-' then some { p with left := true }
  else if c = '+' then some { p with plus := true }
  else if c = ' ' then some { p with blank := true }
  else if c = '#' then some { p with other := true }
  else if c = '0' then some { p with zeros := true }
  else none

/-- A size with one more digit. -/
def Size.withDigit (d : Nat) : Option Size → Option Size
  | some (.given n) => some (.given (n * 10 + d))
  | _ => some (.given d)

/-- The digit that a character is in ASCII. -/
def digit? (c : Char) : Option Nat := if c.isDigit then some (c.toNat - '0'.toNat) else none

/-- A letter that may stand in front of the kind, or else the kind. -/
def readLetter (p : Place) (c : Char) : Option (Stage × Place) :=
  if c = 'h' ∨ c = 'l' ∨ c = 'L' then some (.letter, p) else none

/-- The point in front of a precision, or what may follow instead. -/
def readPoint (p : Place) (c : Char) : Option (Stage × Place) :=
  if c = '.' then some (.point, { p with precision := some (.given 0) }) else readLetter p c

/-- A digit of a width, or what may follow it. -/
def readWidth (p : Place) (c : Char) : Option (Stage × Place) :=
  match digit? c with
  | some d => some (.width, { p with width := Size.withDigit d p.width })
  | none => readPoint p c

/-- A digit of a precision, or what may follow it. -/
def readPrecision (p : Place) (c : Char) : Option (Stage × Place) :=
  match digit? c with
  | some d => some (.precision, { p with precision := Size.withDigit d p.precision })
  | none => readLetter p c

/-- A flag, or what may follow the flags. -/
def readFlag (p : Place) (c : Char) : Option (Stage × Place) :=
  match p.withFlag? c with
  | some p => some (.flags, p)
  | none =>
    if c = '*' then some (.afterWidth, { p with width := some .taken }) else readWidth p c

/-- Reads one character of a place; nothing if the character is the kind, which ends the place. -/
def readPlace (p : Place) (c : Char) : Stage → Option (Stage × Place)
  | .start => if c = '(' then some (.name 0 [], p) else readFlag p c
  | .name opened chars =>
    if c = ')' then
      match opened with
      | 0 => some (.flags, { p with name := some (String.ofList chars) })
      | opened + 1 => some (.name opened (chars ++ [c]), p)
    else some (.name (if c = '(' then opened + 1 else opened) (chars ++ [c]), p)
  | .flags => readFlag p c
  | .width => readWidth p c
  | .afterWidth => readPoint p c
  | .point =>
    if c = '*' then some (.afterPrecision, { p with precision := some .taken })
    else readPrecision p c
  | .precision => readPrecision p c
  | .afterPrecision => readLetter p c
  | .letter => none

/-- The pieces of a template, given a place that is begun. -/
def piecesFrom : Option (Stage × Place) → List Char → List Piece
  | none, [] => []
  | some (stage, p), [] => [.unfinished stage p]
  | none, '%' :: '%' :: cs => .char '%' :: piecesFrom none cs
  | none, c :: cs =>
    if c = '%' then piecesFrom (some (.start, {})) cs else .char c :: piecesFrom none cs
  | some (stage, p), c :: cs =>
    match readPlace p c stage with
    | some begun => piecesFrom (some begun) cs
    | none => .place { p with kind := c } :: piecesFrom none cs

/-- The pieces of a template. -/
def pieces (template : String) : List Piece := piecesFrom none template.toList

/-! ## Numbers at places -/

/-- A number in text: its sign, what marks its base, and its digits. -/
structure Figure where
  negative : Bool
  mark : List Char := []
  digits : List Char

/-- The whole number of an argument; the whole part of a double counts. -/
def wholeOf : Value → Except Failure Int
  | .int n => .ok n
  | .bool b => .ok (if b then 1 else 0)
  | .float x => match x.truncate? with
    | some n => .ok n
    | none => .error (if x.isNan then .badValue else .overflow)
  | _ => .error .wrongType

/-- The whole number of an argument that is one. -/
def exactWholeOf : Value → Except Failure Int
  | .int n => .ok n
  | .bool b => .ok (if b then 1 else 0)
  | _ => .error .wrongType

/-- The double of an argument. -/
def doubleOf : Value → Except Failure Binary64
  | .float x => .ok x
  | .bool b => .ok (.ofNat (if b then 1 else 0))
  | .int n => match Binary64.ofInt? n with
    | some x => .ok x
    | none => .error .overflow
  | _ => .error .wrongType

/-- A whole number in a base, with at least so many digits. -/
def wholeFigure (base : Nat) (mark : List Char) (least : Nat) (n : Int) : Figure :=
  let digits := Nat.toDigits base n.natAbs
  { negative := n < 0, mark, digits := List.replicate (least - digits.length) '0' ++ digits }

/-- Digits with a point after the first one. The point is left out before nothing, unless it has to
be there. -/
def pointed (keepPoint : Bool) (whole part : List Char) : List Char :=
  if part.isEmpty && !keepPoint then whole else whole ++ '.' :: part

/-- A finite magnitude with an exponent and so many digits after the point. -/
def scientific (keepPoint : Bool) (places : Nat) (m : Magnitude) : List Char :=
  let (digits, exponent) := m.rounded (places + 1)
  pointed keepPoint (digits.take 1) (digits.drop 1) ++ exponentText exponent

/-- A finite magnitude with so many digits after the point. -/
def positional (keepPoint : Bool) (places : Nat) (m : Magnitude) : List Char :=
  let text := ((Binary64.signed false m).fixed places).toList
  if places = 0 && keepPoint then text ++ ['.'] else text

/-- A finite magnitude with so many significant digits, positionally unless its exponent is below -4
or beyond the digits. Zeros at the end are dropped, unless they have to be there. -/
def general (keepZeros : Bool) (count : Nat) (m : Magnitude) : List Char :=
  let count := max count 1
  let (digits, exponent) := m.rounded count
  let trim (part : List Char) := if keepZeros then part else (dropTrailingZeros part).1
  if exponent < -4 then
    pointed keepZeros (digits.take 1) (trim (digits.drop 1)) ++ exponentText exponent
  else if exponent < 0 then
    let part := List.replicate (-exponent - 1).toNat '0' ++ digits
    pointed keepZeros ['0'] (trim part)
  else if exponent < count then
    pointed keepZeros (digits.take (exponent.toNat + 1)) (trim (digits.drop (exponent.toNat + 1)))
  else pointed keepZeros (digits.take 1) (trim (digits.drop 1)) ++ exponentText exponent

/-- A double at a place of a kind. -/
def doubleFigure (kind : Char) (other : Bool) (precision : Option Nat) : Binary64 → Figure
  | .nan => { negative := false, digits := "nan".toList }
  | .signed negative m =>
    let places := precision.getD 6
    let digits :=
      if !m.isFinite then "inf".toList
      else if kind = 'e' then scientific other places m
      else if kind = 'f' then positional other places m
      else general other places m
    { negative, digits }

/-- The figure in upper case. -/
def Figure.upper (f : Figure) : Figure :=
  { f with mark := f.mark.map Char.toUpper, digits := f.digits.map Char.toUpper }

/-- The number at a place of a kind that is one for numbers. -/
def figure? (p : Place) (precision : Option Nat) (v : Value) : Option (Except Failure Figure) :=
  let based (base : Nat) (mark : String) :=
    (exactWholeOf v).map (wholeFigure base (if p.other then mark.toList else []) (precision.getD 0))
  let double (kind : Char) := (doubleOf v).map (doubleFigure kind p.other precision)
  if p.kind = 'd' ∨ p.kind = 'i' ∨ p.kind = 'u' then
    some do
      let n ← wholeOf v
      if (Value.int n).fits then return wholeFigure 10 [] (precision.getD 0) n else throw .badValue
  else if p.kind = 'o' then some (based 8 "0o")
  else if p.kind = 'x' then some (based 16 "0x")
  else if p.kind = 'X' then some ((based 16 "0x").map Figure.upper)
  else if p.kind = 'e' ∨ p.kind = 'f' ∨ p.kind = 'g' then some (double p.kind)
  else if p.kind = 'E' ∨ p.kind = 'F' ∨ p.kind = 'G' then
    some ((double p.kind.toLower).map Figure.upper)
  else none

/-! ## Texts at places -/

/-- The sign of a figure at a place. -/
def Place.sign (p : Place) (f : Figure) : List Char :=
  if f.negative then ['-'] else if p.plus then ['+'] else if p.blank then [' '] else []

/-- A figure at a place, filled up to a width. -/
def Place.figureText (p : Place) (left : Bool) (width : Nat) (f : Figure) : List Char :=
  let head := p.sign f ++ f.mark
  let missing := width - (head.length + f.digits.length)
  if left then head ++ f.digits ++ List.replicate missing ' '
  else if p.zeros then head ++ List.replicate missing '0' ++ f.digits
  else List.replicate missing ' ' ++ head ++ f.digits

/-- A text filled up to a width. -/
def filled (left : Bool) (width : Nat) (text : List Char) : List Char :=
  let blanks := List.replicate (width - text.length) ' '
  if left then text ++ blanks else blanks ++ text

/-- The character that an argument gives by its number, or as a text of one character. -/
def charOf : Value → Except Failure (List Char)
  | .text s => if s.length = 1 then .ok s.toList else .error .wrongType
  | v => do
    let n ← exactWholeOf v
    if 0 ≤ n ∧ n < 0x110000 then .ok [Char.ofNat n.toNat] else .error .overflow

/-- A character outside ASCII as an escape. -/
def asciiChar (c : Char) : List Char :=
  if c.toNat < 0x80 then [c]
  else if c.toNat ≤ 0xFF then '\\' :: 'x' :: hexText 2 c.toNat
  else if c.toNat ≤ 0xFFFF then '\\' :: 'u' :: hexText 4 c.toNat
  else '\\' :: 'U' :: hexText 8 c.toNat

/-- The argument at a place that is not one for numbers: `s` shown, `r` quoted, `a` quoted in ASCII,
`c` a character. -/
def plainText (kind : Char) (precision : Option Nat) (v : Value) : Except Failure (List Char) :=
  let cut (s : List Char) := match precision with
    | some n => s.take n
    | none => s
  let shown (text : List Char) := if v.fits then .ok (cut text) else .error .badValue
  if kind = 's' then shown v.shown.toList
  else if kind = 'r' then shown v.quotedForm.toList
  else if kind = 'a' then shown (v.quotedForm.toList.flatMap asciiChar)
  else if kind = 'c' then charOf v
  else .error .badValue

/-- An argument at a place with a width and a precision. -/
def Place.text (p : Place) (left : Bool) (width : Nat) (precision : Option Nat) (v : Value) :
    Except Failure (List Char) :=
  match figure? p precision v with
  | some figure => figure.map (p.figureText left width)
  | none => (plainText p.kind precision v).map (filled left width)

/-! ## Filling -/

/-- The arguments that are left: those of a list, or the fields of an object, of which one may be
chosen to be next. -/
inductive Supply where
  | list (arguments : List Value)
  | object (fields : Fields) (next : Option Value)

namespace Supply

/-- Takes the next argument. -/
def take : Supply → Except Failure (Value × Supply)
  | .list (v :: rest) => .ok (v, .list rest)
  | .object fields (some v) => .ok (v, .object fields none)
  | .list [] | .object _ none => .error .wrongType

/-- Chooses the argument with a name to be next. -/
def choose (s : Supply) : Option String → Except Failure Supply
  | none => .ok s
  | some name =>
    match s with
    | .list _ => .error .wrongType
    | .object fields _ =>
      match fields.lookup name with
      | some v => .ok (.object fields (some v))
      | none => .error (.unknownField name)

/-- The width or precision of a place below a limit; an argument may be taken for it. -/
def size (s : Supply) (limit : Int) : Option Size → Except Failure (Option Int × Supply)
  | none => .ok (none, s)
  | some (.given n) => if n < limit then .ok (some n, s) else .error .badValue
  | some .taken => do
    let (v, s) ← s.take
    let n ← exactWholeOf v
    if -limit ≤ n ∧ n < limit then return (some n, s) else throw .overflow

/-- The arguments may be left over: there is none, or they have names. -/
def mayEnd : Supply → Bool
  | .list arguments => arguments.isEmpty
  | .object _ _ => true

/-- The first precision that is too large: two to the power of 31. -/
def precisionLimit : Int := 2147483648

/-- The width and the precision of a place, after the choice of its argument. -/
def sizes (s : Supply) (p : Place) : Except Failure (Option Int × Option Int × Supply) := do
  let s ← s.choose p.name
  let (width, s) ← s.size wordLimit p.width
  let (precision, s) ← s.size precisionLimit p.precision
  return (width, precision, s)

/-- The text at a place, with the arguments that are left. A negative width sets to the left. -/
def atPlace (s : Supply) (p : Place) : Except Failure (List Char × Supply) := do
  let (width, precision, s) ← s.sizes p
  let (v, s) ← s.take
  let width := width.getD 0
  return (← p.text (p.left || width < 0) width.natAbs (precision.map Int.toNat) v, s)

/-- Why a place that is not written to its end fails: what it takes may not be there, and a name
needs arguments with names. -/
def unfinished (s : Supply) (stage : Stage) (p : Place) : Failure :=
  match stage, s with
  | .name _ _, .list _ => .wrongType
  | _, _ => match s.sizes p with
    | .error f => f
    | .ok _ => .badValue

end Supply

/-- Pieces with arguments at their places, of which every one has to be taken. -/
def fill : Supply → List Piece → Except Failure (List Char)
  | s, [] => if s.mayEnd then .ok [] else .error .wrongType
  | s, .char c :: rest => (fill s rest).map (c :: ·)
  | s, .place p :: rest => do
    let (text, s) ← s.atPlace p
    return text ++ (← fill s rest)
  | s, .unfinished stage p :: _ => .error (s.unfinished stage p)

/-- The message of a template with arguments. Without arguments the template is the message, and a
single object gives the arguments by their names. -/
def message (template : String) (arguments : List Value) : Except Failure String :=
  match arguments with
  | [] => .ok template
  | [.object (field :: fields)] =>
    let v := Value.object (field :: fields)
    (fill (.object (field :: fields) (some v)) (pieces template)).map String.ofList
  | arguments => (fill (.list arguments) (pieces template)).map String.ofList

end Template

end Storefront
