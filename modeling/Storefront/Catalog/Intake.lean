import Storefront.Catalog.Moment
import Storefront.Failure
import Storefront.Number.Word

/-!
# Reading records

Records arrive as fields with values. Each field is read leniently into the type it is declared
with, and a record with refused fields reports all of them, in the order of its declaration.

* `Intake.whole`, `Intake.number`, `Intake.flag`, `Intake.text`, `Intake.moment`: single values
* `Checked`: the outcome of reading fields, which gathers the refused ones
* `Intake.required`, `Intake.defaulted`, `Intake.optional`: fields of a record
-/

namespace Storefront

namespace Intake

/-! ## Whole numbers -/

/-- Digits in ASCII without a needless zero in front. -/
def plainDigits? (cs : List Char) : Option (List Nat) :=
  match takeDigits cs with
  | ([], _) => none
  | (digits, []) => if digits.head? = some 0 ∧ 1 < digits.length then none else some digits
  | _ => none

/-- A sign and plain digits; a plus is no sign here. -/
def plainWhole? (cs : List Char) : Option (Bool × List Nat) :=
  match cs with
  | '-' :: rest => (plainDigits? rest).map (true, ·)
  | _ => (plainDigits? cs).map (false, ·)

/-- The text from the last of the zeros in front of a number; nothing if it starts otherwise. -/
def dropLeadingZeros? (cs : List Char) : Option (List Char) :=
  match cs with
  | '0' :: rest =>
    match rest.dropWhile fun c => c == '0' || c == '_' with
    | [] => cs.getLast?.map ([·])
    | c :: tail =>
      if c == '.' then ((cs.take (cs.length - tail.length - 1)).getLast?).map (· :: c :: tail)
      else if c.isDigit then some (c :: tail)
      else none
  | c :: _ => if c == '-' || c.isDigit then some cs else none
  | [] => none

/-- The text without a point and zeros at its end. -/
def dropZeroFraction (cs : List Char) : List Char :=
  match cs.dropWhile (· != '.') with
  | '.' :: zeros => if zeros.all (· == '0') then cs.takeWhile (· != '.') else cs
  | _ => cs

/-- Single underscores inside a text. -/
def hasLooseUnderscore (cs : List Char) : Bool :=
  cs.head? == some '_' || cs.getLast? == some '_' ||
    (cs.zip cs.tail).any fun pair => pair.1 == '_' && pair.2 == '_'

/-- The text without its underscores. -/
def dropUnderscores (cs : List Char) : List Char := cs.filter (· != '_')

/-- The digits of a whole number as a field holds it: blanks, a plus, zeros in front, single
underscores and a fraction of zeros are allowed. -/
def lenientWhole? (cs : List Char) : Option (Bool × List Nat) :=
  match plainWhole? cs with
  | some digits => some digits
  | none =>
    let trimmed := trimWhile isWhiteSpace cs
    let unsigned := match trimmed with
      | '+' :: rest => if rest.head? == some '-' then [] else rest
      | _ => trimmed
    match dropLeadingZeros? unsigned with
    | none => none
    | some body =>
      let body := dropZeroFraction body
      if hasLooseUnderscore body then none else plainWhole? (dropUnderscores body)

/-- A whole number from its text. -/
def wholeOfText (s : String) : Except Refusal Int :=
  match lenientWhole? s.toList with
  | none => .error .unreadableWhole
  | some (negative, digits) =>
    if maxWholeDigits < digits.length then .error .oversizedWhole
    else .ok (if negative then -(ofDigits digits : Int) else ofDigits digits)

/-- A whole number from a double. -/
def wholeOfNumber (x : Binary64) : Except Refusal Int :=
  if !x.isFinite then .error .notFinite
  else match x.toInt? with
    | none => .error .fractionalWhole
    | some n => if -wordLimit < n ∧ n < wordLimit then .ok n else .error .oversizedWhole

/-- A whole number: from a number without fraction, a flag or a text. -/
def whole : Value → Except Refusal Int
  | .int n => .ok n
  | .bool b => .ok (if b then 1 else 0)
  | .float x => wholeOfNumber x
  | .text s => wholeOfText s
  | _ => .error .notWhole

/-! ## Doubles -/

/-- A double from its text: blanks around it and single underscores are allowed. -/
def numberOfText (s : String) : Except Refusal Binary64 :=
  let trimmed := trimWhile isWhiteSpace s.toList
  match decimalNumber? trimmed with
  | some x => .ok x
  | none =>
    if hasLooseUnderscore trimmed then .error .unreadableNumber
    else match decimalNumber? (dropUnderscores trimmed) with
      | some x => .ok x
      | none => .error .unreadableNumber

/-- A double: from a number, a flag or a text. -/
def number : Value → Except Refusal Binary64
  | .float x => .ok x
  | .int n => match Binary64.ofInt? n with
    | some x => .ok x
    | none => .error .notNumber
  | .bool b => .ok (.ofNat (if b then 1 else 0))
  | .text s => numberOfText s
  | _ => .error .notNumber

/-- Adds the condition that a number is at least another. -/
def atLeast (bound : Binary64) (x : Binary64) : Except Refusal Binary64 :=
  if bound.le x then .ok x else .error .tooSmall

/-- Adds the condition that a number is at most another. -/
def atMost (bound : Binary64) (x : Binary64) : Except Refusal Binary64 :=
  if x.le bound then .ok x else .error .tooLarge

/-! ## Flags, texts and moments -/

/-- The words for true. -/
def trueWords : List String := ["1", "on", "t", "true", "y", "yes"]

/-- The words for false. -/
def falseWords : List String := ["0", "off", "f", "false", "n", "no"]

/-- A flag from a word, in any case. -/
def flagOfText (s : String) : Except Refusal Bool :=
  let word := s.map Char.toLower
  if trueWords.contains word then .ok true
  else if falseWords.contains word then .ok false
  else .error .unreadableFlag

/-- A flag: from a truth value, 0 or 1, or a word. -/
def flag : Value → Except Refusal Bool
  | .bool b => .ok b
  | .int n => if n = 0 then .ok false else if n = 1 then .ok true else .error .unreadableFlag
  | .float x => match wholeOfNumber x with
    | .ok n => if n = 0 then .ok false else if n = 1 then .ok true else .error .unreadableFlag
    | .error _ => .error .notFlag
  | .text s => flagOfText s
  | _ => .error .notFlag

/-- A text; nothing else counts as one. -/
def text : Value → Except Refusal String
  | .text s => .ok s
  | _ => .error .notText

/-- The largest number that counts seconds since 1970; beyond it, milliseconds are counted. -/
def maxEpochSeconds : Int := 20000000000

/-- The first second since 1970 that a count may stand for; it is in the year 1600. -/
def firstEpochSecond : Int := -11676096000

/-- The moment of a count of seconds, or of milliseconds, since 1970, with microseconds added. -/
def momentOfEpoch? (count : Int) (extra : Int) : Option Moment :=
  let ticks := if count.natAbs ≤ maxEpochSeconds.natAbs then count * 1000000 else count * 1000
  if ticks < firstEpochSecond * 1000000 then none
  else Moment.ofEpochTicks? (ticks + extra) (some 0)

/-- The moment of a fractional count since 1970. -/
def momentOfNumber? (x : Binary64) : Option Moment := do
  let cut ← x.truncate?
  let floor := if x.units < 0 ∧ x.toInt? = none then cut - 1 else cut
  let part := x.units.natAbs % Magnitude.unitsPerOne
  momentOfEpoch? floor (roundDiv (part * 1000000) Magnitude.unitsPerOne)

/-- The characters that may stand between a date and a time. -/
def momentSeparators : List Char := ['T', 't', ' ', '_']

/-- A moment from a count since 1970 in digits, with a sign and a fraction if it has them. -/
def momentOfCount? (s : String) : Option Moment :=
  let (negative, unsigned) := takeSign s.toList
  match takeDigits unsigned with
  | ([], _) => none
  | (whole, []) => momentOfEpoch? (if negative then -(ofDigits whole : Int) else ofDigits whole) 0
  | (whole, '.' :: rest) =>
    match takeDigits rest with
    | ([], _) => none
    | (part, []) =>
      momentOfNumber?
        (Decimal.toBinary64 ⟨negative, ofDigits (whole ++ part), -(part.length : Int)⟩)
    | _ => none
  | _ => none

/-- A moment from its text: a date, a date with a time, or a count since 1970. -/
def momentOfText (s : String) : Except Refusal Moment :=
  match Moment.ofIso? momentSeparators s <|> momentOfCount? s with
  | some m => .ok m
  | none => .error .unreadableMoment

/-- A moment that a number gives, if it gives one. -/
def momentInRange : Option Moment → Except Refusal Moment
  | some m => .ok m
  | none => .error .momentOutOfRange

/-- A moment: from a text, or from a count of seconds or milliseconds since 1970. -/
def moment : Value → Except Refusal Moment
  | .text s => momentOfText s
  | .int n =>
    if (Binary64.ofInt n).isFinite then momentInRange (momentOfEpoch? n 0) else .error .notMoment
  | .float x => momentInRange (momentOfNumber? x)
  | _ => .error .notMoment

end Intake

/-! ## Records -/

/-- The outcome of reading fields: a result, or the fields that are refused. -/
inductive Checked (α : Type) where
  | accepted (a : α)
  | refused (faults : List FieldFault)

namespace Checked

variable {α β : Type}

/-- Two outcomes taken together; the refused fields of both are gathered. -/
def combine (f : Checked (α → β)) (x : Checked α) : Checked β :=
  match f, x with
  | .accepted f, .accepted a => .accepted (f a)
  | .refused e, .accepted _ => .refused e
  | .accepted _, .refused e => .refused e
  | .refused e, .refused e' => .refused (e ++ e')

instance : Applicative Checked where
  pure := .accepted
  seq f x := combine f (x ())

/-- The result, or the failure of a record with refused fields. -/
def result : Checked α → Except Failure α
  | .accepted a => .ok a
  | .refused faults => .error (.invalidRecord faults)

/-- The outcome of reading one field. -/
def ofField (path : List String) : Except Refusal α → Checked α
  | .ok a => .accepted a
  | .error refusal => .refused [⟨path, refusal⟩]

theorem map_eq_accepted {f : α → β} {x : Checked α} {b : β} (h : f <$> x = .accepted b) :
    ∃ a, x = .accepted a ∧ f a = b := by
  cases x with
  | accepted a => exact ⟨a, rfl, by cases h; rfl⟩
  | refused e => cases h

theorem seq_eq_accepted {f : Checked (α → β)} {x : Checked α} {b : β}
    (h : f <*> x = .accepted b) : ∃ g a, f = .accepted g ∧ x = .accepted a ∧ g a = b := by
  cases f <;> cases x <;> cases h
  exact ⟨_, _, rfl, rfl, rfl⟩

theorem result_eq_ok {x : Checked α} {a : α} : x.result = .ok a ↔ x = .accepted a := by
  cases x <;> simp [result]

theorem ofField_eq_accepted {path : List String} {x : Except Refusal α} {a : α} :
    ofField path x = .accepted a ↔ x = .ok a := by
  cases x <;> simp [ofField]

end Checked

namespace Intake

variable {α : Type}

/-- A field that must be there. -/
def required (name : String) (read : Value → Except Refusal α) (fields : Fields) : Checked α :=
  match fields.lookup name with
  | some v => .ofField [name] (read v)
  | none => .ofField [name] (.error .missing)

/-- A field with a value to take when it is absent. -/
def defaulted (name : String) (default : α) (read : Value → Except Refusal α) (fields : Fields) :
    Checked α :=
  match fields.lookup name with
  | some v => .ofField [name] (read v)
  | none => .accepted default

/-- A reader that takes null for nothing. -/
def nullable (read : Value → Except Refusal α) : Value → Except Refusal (Option α)
  | .null => .ok none
  | v => (read v).map some

/-- A field that may be absent or null. -/
def optional (name : String) (read : Value → Except Refusal α) (fields : Fields) :
    Checked (Option α) :=
  defaulted name none (nullable read) fields

end Intake

end Storefront
