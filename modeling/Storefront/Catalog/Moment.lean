import Storefront.Number.Reading
import Storefront.Number.Written

/-!
# Moments

A moment is a date and a time of day by the clock of a place, with or without the offset of that
clock from universal time.

* `Calendar`: days of the Gregorian calendar, counted from the first of January of year 1
* `Moment`: the moments, their parts and their order
* `Moment.iso`, `Moment.ofIso?`: their text and its reader
-/

namespace Storefront

/-! ## The calendar -/

namespace Calendar

/-- The year has 366 days. -/
def isLeap (year : Nat) : Bool := year % 4 == 0 && (year % 100 != 0 || year % 400 == 0)

/-- The number of days in a month. -/
def daysInMonth (year month : Nat) : Nat :=
  if month = 2 then if isLeap year then 29 else 28
  else if month = 4 || month = 6 || month = 9 || month = 11 then 30
  else 31

/-- The number of days before a year. -/
def daysBeforeYear (year : Nat) : Nat :=
  let past := year - 1
  past * 365 + past / 4 - past / 100 + past / 400

/-- The number of days of a year before a month. -/
def daysBeforeMonth (year month : Nat) : Nat :=
  (List.range (month - 1)).foldl (fun days m => days + daysInMonth year (m + 1)) 0

/-- The number of days from 0001-01-01 to a date, if it is one. -/
def dayNumber? (year month day : Nat) : Option Nat :=
  if 1 ≤ year ∧ year ≤ 9999 ∧ 1 ≤ month ∧ month ≤ 12 ∧ 1 ≤ day ∧ day ≤ daysInMonth year month then
    some (daysBeforeYear year + daysBeforeMonth year month + (day - 1))
  else none

/-- The year of a day, counted from 0001-01-01. -/
def yearOfDay (day : Nat) : Nat :=
  let guess := day / 366 + 1
  let later := (List.range 30).takeWhile fun k => daysBeforeYear (guess + k) ≤ day
  guess + later.length - 1

/-- The month of a day of a year, counted from 0. -/
def monthOfDay (year day : Nat) : Nat :=
  ((List.range 12).filter fun m => daysBeforeMonth year (m + 1) ≤ day).length

/-- Year, month and day of a day counted from 0001-01-01. -/
def dateOfDay (day : Nat) : Nat × Nat × Nat :=
  let year := yearOfDay day
  let inYear := day - daysBeforeYear year
  let month := monthOfDay year inYear
  (year, month, inYear - daysBeforeMonth year month + 1)

/-- The number of days from 0001-01-01 to 1970-01-01. -/
def epochDay : Nat := 719162

/-- The number of microseconds in a day. -/
def ticksPerDay : Nat := 86400000000

end Calendar

/-! ## Moments -/

/-- A moment: microseconds since 0001-01-01 by the clock of a place, and the seconds by which that
clock is ahead of universal time, if they are known. -/
structure Moment where
  ticks : Nat
  offset : Option Int
deriving DecidableEq, Repr

namespace Moment

/-- The microseconds since 0001-01-01 in universal time, or by the local clock. -/
def instant (m : Moment) : Int := m.ticks - m.offset.getD 0 * 1000000

/-- The moment of a date and a time of day, if both are proper. -/
def ofParts? (year month day hour minute second micro : Nat) (offset : Option Int) :
    Option Moment :=
  if hour ≤ 23 ∧ minute ≤ 59 ∧ second ≤ 59 ∧ micro ≤ 999999 then
    (Calendar.dayNumber? year month day).map fun days =>
      ⟨days * Calendar.ticksPerDay + (((hour * 60 + minute) * 60 + second) * 1000000 + micro),
        offset⟩
  else none

/-- The first instant after the year 9999. -/
def ticksLimit : Nat := 3652059 * Calendar.ticksPerDay

/-- The moment in universal time so many microseconds after 1970 began, from 0001 to 9999. -/
def ofEpochTicks? (ticks : Int) (offset : Option Int) : Option Moment :=
  let total := ticks + Calendar.epochDay * Calendar.ticksPerDay
  if 0 ≤ total ∧ total < ticksLimit then some ⟨total.toNat, offset⟩ else none

/-! ## Text -/

/-- A number in decimal digits, with zeros in front up to a width. -/
def padded (width n : Nat) : String :=
  let digits := Nat.toDigits 10 n
  String.ofList (List.replicate (width - digits.length) '0' ++ digits)

/-- The offset of a clock: a sign, hours and minutes, and seconds if there are any. -/
def offsetText (offset : Int) : String :=
  let size := offset.natAbs
  let minutes := (if offset < 0 then "-" else "+") ++ padded 2 (size / 3600) ++ ":" ++
    padded 2 (size / 60 % 60)
  if size % 60 = 0 then minutes else minutes ++ ":" ++ padded 2 (size % 60)

/-- The date, a separator and the time of day without offset. -/
def clockText (separator : String) (m : Moment) : String :=
  let (year, month, day) := Calendar.dateOfDay (m.ticks / Calendar.ticksPerDay)
  let inDay := m.ticks % Calendar.ticksPerDay
  let second := inDay / 1000000
  let micro := inDay % 1000000
  padded 4 year ++ "-" ++ padded 2 month ++ "-" ++ padded 2 day ++ separator ++
    padded 2 (second / 3600) ++ ":" ++ padded 2 (second / 60 % 60) ++ ":" ++
    padded 2 (second % 60) ++ (if micro = 0 then "" else "." ++ padded 6 micro)

/-- Date and time with a `T` between them, and the offset when there is one. -/
def iso (m : Moment) : String := m.clockText "T" ++ (m.offset.map offsetText).getD ""

/-- Date and time with a blank between them, and the offset when there is one. -/
def shown (m : Moment) : String := m.clockText " " ++ (m.offset.map offsetText).getD ""

/-- Date and time as in an answer: universal time is marked by `Z`. -/
def wireText (m : Moment) : String :=
  m.clockText "T" ++ (m.offset.map fun o => if o = 0 then "Z" else offsetText o).getD ""

/-! ## Reading -/

/-- Splits off a number of exactly so many ASCII digits. -/
def takeFixed? (width : Nat) (cs : List Char) : Option (Nat × List Char) :=
  let digits := (takeDigits (cs.take width)).1
  if digits.length = width then some (ofDigits digits, cs.drop width) else none

/-- Splits off a character out of a list. -/
def takeOneOf? (allowed : List Char) : List Char → Option (List Char)
  | c :: rest => if allowed.contains c then some rest else none
  | [] => none

/-- Splits off a date: year, month and day with hyphens between. -/
def takeDate? (cs : List Char) : Option ((Nat × Nat × Nat) × List Char) := do
  let (year, cs) ← takeFixed? 4 cs
  let cs ← takeOneOf? ['-'] cs
  let (month, cs) ← takeFixed? 2 cs
  let cs ← takeOneOf? ['-'] cs
  let (day, cs) ← takeFixed? 2 cs
  return ((year, month, day), cs)

/-- The microseconds that the digits of a fraction of a second stand for; only six count. -/
def fractionTicks (digits : List Nat) : Nat :=
  ofDigits ((digits ++ List.replicate 6 0).take 6)

/-- A time of day as it is written. -/
structure WrittenTime where
  hour : Nat
  minute : Nat
  second : Option Nat
  fraction : Option (List Nat)
deriving DecidableEq

/-- Splits off a time of day: hours and minutes, then perhaps seconds and a fraction of them. -/
def takeTime? (cs : List Char) : Option (WrittenTime × List Char) := do
  let (hour, cs) ← takeFixed? 2 cs
  let cs ← takeOneOf? [':'] cs
  let (minute, cs) ← takeFixed? 2 cs
  match cs with
  | ':' :: rest =>
    let (second, rest) ← takeFixed? 2 rest
    match rest with
    | '.' :: after =>
      let (digits, after) := takeDigits after
      if digits.isEmpty then none
      else return (⟨hour, minute, some second, some digits⟩, after)
    | _ => return (⟨hour, minute, some second, none⟩, rest)
  | _ => return (⟨hour, minute, none, none⟩, cs)

/-- The offset that ends a text: nothing, a `Z`, or a sign with hours and minutes. -/
def takeOffset? (cs : List Char) : Option (Option Int) :=
  match cs with
  | [] => some none
  | ['Z'] | ['z'] => some (some 0)
  | sign :: rest => do
    let rest ← if ['+', '-', '−'].contains sign then some rest else none
    let (hour, rest) ← takeFixed? 2 rest
    let rest := (takeOneOf? [':'] rest).getD rest
    let (minute, rest) ← takeFixed? 2 rest
    if rest.isEmpty ∧ hour ≤ 23 ∧ minute ≤ 59 then
      let size : Int := (hour * 60 + minute) * 60
      some (some (if sign = '+' then size else -size))
    else none

/-- The moment of a date with a written time and an offset. -/
def ofWritten? (date : Nat × Nat × Nat) (time : WrittenTime) (offset : Option Int) :
    Option Moment :=
  ofParts? date.1 date.2.1 date.2.2 time.hour time.minute (time.second.getD 0)
    (fractionTicks (time.fraction.getD [])) offset

/-- The moment that a text gives as a date, or as a date and a time of day with any separator out
of a list between them. -/
def ofIso? (separators : List Char) (s : String) : Option Moment := do
  let (date, rest) ← takeDate? s.toList
  if rest.isEmpty then ofWritten? date ⟨0, 0, none, none⟩ none
  else
    let rest ← takeOneOf? separators rest
    let (time, rest) ← takeTime? rest
    let offset ← takeOffset? rest
    ofWritten? date time offset

end Moment

end Storefront
