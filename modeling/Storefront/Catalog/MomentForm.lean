import Storefront.Catalog.Moment

/-!
# Forms of moments

A form is a list of parts: numbers of so many digits, names of months, offsets, and the marks
between them. A text is read under one form, which it has to fill from end to end. A text whose form
is not given has the first known form that fits it.

The known forms are those in which a date is written in digits or with the name of its month, with a
time of day in 24 hours. Moments can be written in others: with years of two digits, the halves of a
day, names of weekdays and zones, or without any marks. So what tables and stores are loaded with is a
reader of moments, of which the known forms are one; results about loading hold for each.

* `MomentPart`, `MomentForm`: the forms
* `MomentForm.read?`: the moment of a text under a form
* `MomentForm.known`: the known forms, the year first or last, with or without a time of day
* `MomentForm.ofText?`, `Moment.ofText?`: the form of a text, and its moment under that form
* `MomentReader`, `MomentReader.known`: how moments are read from texts
-/

namespace Storefront

/-! ## Parts -/

/-- What a number says about a moment. -/
inductive MomentField where
  | year
  | month
  | day
  | hour
  | minute
  | second
deriving DecidableEq

/-- One part of a form. -/
inductive MomentPart where
  /-- A number with no fewer and no more digits. -/
  | number (field : MomentField) (least most : Nat)
  /-- One of the names of the twelve months. -/
  | monthName (names : List String)
  /-- A fraction of a second behind a point. -/
  | fraction
  /-- The offset of a clock. -/
  | offset
  /-- A character of its own. -/
  | mark (c : Char)
deriving DecidableEq

/-- What has been read of a moment; a date starts its year, and a time its day. -/
structure MomentDraft where
  year : Nat := 1
  month : Nat := 1
  day : Nat := 1
  hour : Nat := 0
  minute : Nat := 0
  second : Nat := 0
  micro : Nat := 0
  offset : Option Int := none

namespace MomentDraft

/-- The draft with one of its numbers set. -/
def set (draft : MomentDraft) (field : MomentField) (n : Nat) : MomentDraft :=
  match field with
  | .year => { draft with year := n }
  | .month => { draft with month := n }
  | .day => { draft with day := n }
  | .hour => { draft with hour := n }
  | .minute => { draft with minute := n }
  | .second => { draft with second := n }

/-- The moment of a draft, if its date and its time of day are proper. -/
def toMoment? (draft : MomentDraft) : Option Moment :=
  Moment.ofParts? draft.year draft.month draft.day draft.hour draft.minute draft.second
    draft.micro draft.offset

end MomentDraft

namespace MomentPart

/-- Splits off a number with at most so many digits, if it has as many as it needs. -/
def takeNumber? (least most : Nat) (cs : List Char) : Option (Nat × List Char) :=
  let digits := (takeDigits (cs.take most)).1
  if least ≤ digits.length then some (ofDigits digits, cs.drop digits.length) else none

/-- Splits off one of several names: its place, counted from 1. -/
def takeName? (names : List String) (cs : List Char) : Option (Nat × List Char) :=
  (names.zipIdx.find? fun name => name.1.toList.isPrefixOf cs).map fun name =>
    (name.2 + 1, cs.drop name.1.length)

/-- Splits off an offset: a `Z`, or a sign with hours, and minutes if they are there. -/
def takeOffset? : List Char → Option (Int × List Char)
  | 'Z' :: rest => some (0, rest)
  | sign :: rest => do
    if sign != '+' && sign != '-' then none
    let (hours, rest) ← takeNumber? 2 2 rest
    let (minutes, rest) :=
      (takeNumber? 2 2 ((Moment.takeOneOf? [':'] rest).getD rest)).getD (0, rest)
    if hours ≤ 23 ∧ minutes ≤ 59 then
      let size : Int := (hours * 60 + minutes) * 60
      some (if sign = '+' then size else -size, rest)
    else none
  | [] => none

/-- Reads one part of a text into a draft. -/
def take? (part : MomentPart) (draft : MomentDraft) (cs : List Char) :
    Option (MomentDraft × List Char) :=
  match part with
  | .number field least most =>
    (takeNumber? least most cs).map fun (n, rest) => (draft.set field n, rest)
  | .monthName names =>
    (takeName? names cs).map fun (n, rest) => (draft.set .month n, rest)
  | .fraction => match cs with
    | '.' :: rest => match takeDigits rest with
      | ([], _) => none
      | (digits, rest) => some ({ draft with micro := Moment.fractionTicks digits }, rest)
    | _ => none
  | .offset =>
    (takeOffset? cs).map fun (ahead, rest) => ({ draft with offset := some ahead }, rest)
  | .mark c => (Moment.takeOneOf? [c] cs).map fun rest => (draft, rest)

end MomentPart

/-! ## Forms -/

/-- A form in which moments are written. -/
abbrev MomentForm := List MomentPart

namespace MomentForm

/-- Reads the parts of a form one after the other; nothing may be left at the end. -/
def readInto? : MomentForm → MomentDraft → List Char → Option MomentDraft
  | [], draft, cs => if cs.isEmpty then some draft else none
  | part :: form, draft, cs => do
    let (draft, rest) ← part.take? draft cs
    readInto? form draft rest

/-- The moment of a text under a form. -/
def read? (form : MomentForm) (s : String) : Option Moment :=
  (readInto? form {} s.toList).bind MomentDraft.toMoment?

/-! ## Dates -/

/-- A year of four digits. -/
def year : MomentPart := .number .year 4 4

/-- A month of one digit or two. -/
def month : MomentPart := .number .month 1 2

/-- A day of one digit or two. -/
def day : MomentPart := .number .day 1 2

/-- The characters that separate the numbers of a date. -/
def dateMarks : List Char := ['-', '/', '.', ' ']

/-- The names of the months. -/
def monthNames : List String :=
  ["January", "February", "March", "April", "May", "June", "July", "August", "September",
    "October", "November", "December"]

/-- The first three letters of the names of the months. -/
def shortMonthNames : List String :=
  ["Jan", "Feb", "Mar", "Apr", "May", "Jun", "Jul", "Aug", "Sep", "Oct", "Nov", "Dec"]

/-- Dates with the name of the month. -/
def namedDates (names : List String) : List MomentForm :=
  let name := MomentPart.monthName names
  [[name, .mark ' ', day, .mark ',', .mark ' ', year], [name, .mark ' ', day, .mark ' ', year],
    [day, .mark ' ', name, .mark ' ', year], [day, .mark '-', name, .mark '-', year]]

/-- Whole dates: the year first, or last after the month and the day, or after the day and the
month. -/
def dates : List MomentForm :=
  dateMarks.map (fun c => [year, .mark c, month, .mark c, day]) ++
  [[year, .number .month 2 2, .number .day 2 2]] ++
  dateMarks.map (fun c => [month, .mark c, day, .mark c, year]) ++
  dateMarks.map (fun c => [day, .mark c, month, .mark c, year]) ++
  namedDates monthNames ++ namedDates shortMonthNames

/-- Years, and years with a month. -/
def partialDates : List MomentForm := [[year], [year, .mark '-', month]]

/-! ## Times -/

/-- Times of day down to the hour, the minute, the second, or a fraction of it. -/
def clocks : List MomentForm :=
  let hour := MomentPart.number .hour 1 2
  let minute := MomentPart.number .minute 1 2
  let second := MomentPart.number .second 1 2
  [[.number .hour 2 2], [hour, .mark ':', minute], [hour, .mark ':', minute, .mark ':', second],
    [hour, .mark ':', minute, .mark ':', second, .fraction]]

/-- What stands behind a time of day: nothing, or an offset. -/
def zones : List MomentForm := [[], [.offset], [.mark ' ', .offset]]

/-- Times of day behind a date. -/
def times : List MomentForm :=
  [MomentPart.mark 'T', .mark ' '].flatMap fun separator =>
    clocks.flatMap fun clock => zones.map fun zone => separator :: clock ++ zone

/-- The known forms. -/
def known : List MomentForm :=
  dates ++ partialDates ++ dates.flatMap fun date => times.map (date ++ ·)

/-- The first known form that fits a text. -/
def ofText? (s : String) : Option MomentForm := known.find? fun form => (form.read? s).isSome

end MomentForm

/-- The moment of a text in any known form. -/
def Moment.ofText? (s : String) : Option Moment := (MomentForm.ofText? s).bind (·.read? s)

/-! ## Readers -/

/-- How moments are read from texts. -/
structure MomentReader where
  /-- The forms that a text can have. -/
  Form : Type
  /-- The form of a text. -/
  form? : String → Option Form
  /-- The moment of a text under a form. -/
  under? : Form → String → Option Moment
  /-- The moment of a text to which no form is given. -/
  alone? : String → Option Moment

/-- The reader of the known forms. -/
def MomentReader.known : MomentReader where
  Form := MomentForm
  form? := MomentForm.ofText?
  under? := MomentForm.read?
  alone? := Moment.ofText?

instance : DecidableEq MomentReader.known.Form := inferInstanceAs (DecidableEq MomentForm)

end Storefront
