import Storefront.Catalog.Membership
import Storefront.Catalog.Predicate
import Storefront.Catalog.Table
import Storefront.Text.UpperCase

/-!
# Matching rows

Whether a row matches a predicate is decided row by row; whether a predicate can be decided at all
is a question about the whole table, and is settled first. A condition whose value is a list takes
one item for each row. A text beside a moment is read in the known forms of moments.

* `Cell.equals`, `Cell.order?`: a cell beside a value
* `Predicate.check`: the predicate can be decided on a table
* `Predicate.holds`: a row matches
-/

namespace Storefront

/-! ## Cells beside values -/

/-- How two numbers of columns compare: as doubles, unless both are whole. -/
def columnOrder? : Number → Number → Option Ordering
  | .whole m, .whole n => some (compare m n)
  | .whole m, .double y => Number.order? (.double (.ofInt m)) (.double y)
  | .double x, .whole n => Number.order? (.double x) (.double (.ofInt n))
  | .double x, .double y => Number.order? (.double x) (.double y)

/-- The moment that a value stands for beside another moment: a text without offset is taken by the
same clock, and one with an offset needs a moment with one. -/
def momentBeside? (m : Moment) : Value → Option Moment
  | .text s =>
    match Moment.ofText? s with
    | some w =>
      match w.offset, m.offset with
      | none, offset => some { w with offset }
      | some _, none => none
      | some _, some _ => some w
    | none => none
  | _ => none

namespace Cell

/-- The cell equals a value; a missing cell equals nothing, and nothing equals a missing value. -/
def equals (cell : Cell) (v : Value) : Bool :=
  match cell with
  | .missing => false
  | .number n => match v.number? with
    | some w => columnOrder? n w == some .eq
    | none => false
  | .moment m => match momentBeside? m v with
    | some w => m.instant == w.instant
    | none => false
  | .value c => !v.isMissing && c.equals v

/-- How the cell compares with a value, if they have an order. -/
def order? (cell : Cell) (v : Value) : Option Ordering :=
  match cell with
  | .missing => none
  | .number n => v.number?.bind (columnOrder? n)
  | .moment m => (momentBeside? m v).map fun w => compare m.instant w.instant
  | .value c => (c.order? v).join

/-- How two cells compare, if they have an order. -/
def orderCell? : Cell → Cell → Option Ordering
  | .number m, .number n => columnOrder? m n
  | .moment m, .moment n => some (compare m.instant n.instant)
  | .value c, .value d => (c.order? d).join
  | .number m, .value d => d.number?.bind (columnOrder? m)
  | .value c, .number n => c.number?.bind fun m => columnOrder? m n
  | _, _ => none

end Cell

namespace Table

/-- The cells of a column. -/
def cells (t : Table) (column : Column) : List Cell := t.rows.map fun row => row.cell column

/-- The place of a row in the table. -/
def place (t : Table) (row : Row) : Nat := t.rows.findIdx fun r => r.id = row.id

/-- The value that a condition compares with a row. -/
def operand (t : Table) (v : Value) (row : Row) : Value :=
  match v with
  | .list items => (items[t.place row]?).getD .null
  | v => v

/-- All moments of the table fall on midnight. -/
def datesOnly (t : Table) : Bool :=
  t.rows.all fun row => row.createdAt.all fun m => m.ticks % Calendar.ticksPerDay == 0

/-- The text of a cell, in which a part is looked for. -/
def cellText (t : Table) (column : Column) (cell : Cell) : Option String :=
  match cell with
  | .missing => if column.kind = .moment then none else some ""
  | .number (.whole n) =>
    some (if column.kind = .flag then (Value.bool (n ≠ 0)).shown else intText n)
  | .number (.double x) => some x.text
  | .moment m => some (if t.datesOnly then String.ofList (m.shown.toList.take 10) else m.shown)
  | .value v => some v.shown

end Table

/-! ## Whether a predicate can be decided -/

namespace Predicate

/-- The column that a field names. -/
def column (field : String) : Except Failure Column :=
  match Column.ofName? field with
  | some column => .ok column
  | none => .error (.unknownField field)

/-- A list of values has one for each row, and none of them is a list itself. -/
def checkLength (t : Table) : Value → Except Failure Unit
  | .list items =>
    if items.length = t.rows.length ∧ items.any Value.isList = false then .ok () else .error .badValue
  | _ => .ok ()

/-- A whole number that is compared with doubles is in their range. -/
def checkRange (column : Column) : Value → Except Failure Unit
  | .int n =>
    if column.kind = .double ∧ (Binary64.ofInt? n).isNone then .error .overflow else .ok ()
  | _ => .ok ()

/-- A value has an order beside the cells of a column. -/
def isOrdered (t : Table) (column : Column) (v : Value) : Bool :=
  match column.kind with
  | .whole | .double | .flag => match v with
    | .list items => items.all fun item => item.number?.isSome
    | v => v.number?.isSome
  | .moment => match v with
    | .text s => match t.rows.findSome? (·.createdAt) with
      | some m => (momentBeside? m v).isSome
      | none => (Moment.ofText? s).isSome
    | _ => false
  | .value => t.rows.all fun row => match row.cell column with
    | .value c => (c.order? (t.operand v row)).isSome
    | _ => true

/-- A bound can be compared with the cells of a column. -/
def checkBound (t : Table) (column : Column) : Option Value → Except Failure Unit
  | none => .ok ()
  | some v => do
    checkLength t v
    checkRange column v
    if isOrdered t column v then .ok () else .error .wrongType

/-- A kind of cells that are numbers. -/
def isNumeric : ColumnKind → Bool
  | .whole | .double | .flag => true
  | .moment | .value => false

/-- Two cells of one row can be compared, in columns of the given kinds. -/
def areOrdered (first second : ColumnKind) (a b : Cell) : Bool :=
  match first, second with
  | .value, .value | .value, .whole | .value, .double | .value, .flag => match a, b with
    | .missing, _ | _, .missing => true
    | .value c, .value d => (c.order? d).isSome
    | .value c, _ => c.number?.isSome
    | _, _ => false
  | .whole, .value | .double, .value | .flag, .value => match b with
    | .value d => d.number?.isSome
    | _ => false
  | .moment, .moment => true
  | .moment, .value | .value, .moment => a.isMissing || b.isMissing
  | first, second => isNumeric first && isNumeric second

/-- The columns of two kinds can be compared at all. -/
def areComparable (first second : ColumnKind) : Bool :=
  !(first = .moment && isNumeric second) && !(isNumeric first && second = .moment)

/-- The predicate can be decided for the rows of a table. -/
def check (t : Table) : Predicate → Except Failure Unit
  | .undefined => .error .wrongType
  | .matchAll | .matchNone | .sharesCollection _ => .ok ()
  | .fieldEquals field v => do
    let column ← column field
    checkLength t v
    checkRange column v
  | .fieldContains field v => do
    let _ ← column field
    match v with
    | .text _ => return ()
    | _ => throw .noSuchPart
  | .fieldRange field minimum maximum => do
    let column ← column field
    checkBound t column minimum
    checkBound t column maximum
  | .fieldExceeds field other => do
    let first ← column field
    let second ← column other
    if areComparable first.kind second.kind &&
        t.rows.all fun row => areOrdered first.kind second.kind (row.cell first) (row.cell second)
    then return () else throw .wrongType
  | .not child => check t child
  | .allOf children => checkAll t children
  | .anyOf children => checkAll t children
where
  /-- Each predicate of a list can be decided. -/
  checkAll (t : Table) : List Predicate → Except Failure Unit
    | [] => .ok ()
    | p :: ps => do
      check t p
      checkAll t ps

/-! ## Whether a row matches -/

/-- A list of characters contains another as a part. -/
def containsPart (part : List Char) : List Char → Bool
  | [] => part.isEmpty
  | c :: cs => part.isPrefixOf (c :: cs) || containsPart part cs

/-- The cell's field lies at or above a bound. -/
def meetsMinimum (t : Table) (row : Row) (cell : Cell) : Option Value → Bool
  | none => true
  | some v => match cell.order? (t.operand v row) with
    | some .gt | some .eq => true
    | _ => false

/-- The cell's field lies at or below a bound. -/
def meetsMaximum (t : Table) (row : Row) (cell : Cell) : Option Value → Bool
  | none => true
  | some v => match cell.order? (t.operand v row) with
    | some .lt | some .eq => true
    | _ => false

/-- A field of a row, by name. -/
def cell? (field : String) (row : Row) : Cell :=
  match Column.ofName? field with
  | some column => row.cell column
  | none => .missing

/-- The row matches the predicate. -/
def holds (t : Table) (memberships : Memberships) (row : Row) : Predicate → Bool
  | .undefined | .matchNone => false
  | .matchAll => true
  | .fieldEquals field v => (cell? field row).equals (t.operand v row)
  | .fieldContains field v =>
    match v, Column.ofName? field with
    | .text part, some column =>
      match t.cellText column (row.cell column) with
      | some text => containsPart (upper part) (upper text)
      | none => false
    | _, _ => false
  | .fieldRange field minimum maximum =>
    let cell := cell? field row
    !cell.isMissing && meetsMinimum t row cell minimum && meetsMaximum t row cell maximum
  | .fieldExceeds field other => (cell? field row).orderCell? (cell? other row) == some .gt
  | .sharesCollection product => (memberships.companions product).contains row.id
  | .not child => !holds t memberships row child
  | .allOf children => holdsAll t memberships row children
  | .anyOf children => holdsAny t memberships row children
where
  /-- The row matches each predicate of a list. -/
  holdsAll (t : Table) (memberships : Memberships) (row : Row) : List Predicate → Bool
    | [] => true
    | p :: ps => holds t memberships row p && holdsAll t memberships row ps
  /-- The row matches some predicate of a list. -/
  holdsAny (t : Table) (memberships : Memberships) (row : Row) : List Predicate → Bool
    | [] => false
    | p :: ps => holds t memberships row p || holdsAny t memberships row ps

end Predicate

end Storefront
