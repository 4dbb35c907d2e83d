import Storefront.Catalog.Limit
import Storefront.Catalog.Matching

/-!
# Queries

A query takes the rows that match a predicate, puts them in order by any number of keys, and keeps
as many as its limit says. Rows that no key tells apart stand in ascending order of their ids, and a
missing value stands last in either direction.

* `SortKey`, `Query`: the queries
* `SortKey.cell`, `SortKey.before`: what a key compares
* `Table.query`: the products that a query gives
-/

namespace Storefront

/-- One key of an order: a field, or the distance of a field from a number. -/
structure SortKey where
  field : String
  descending : Bool := false
  distanceTo : Value := .null

/-- A predicate with an order and a limit; null is no limit. -/
structure Query where
  predicate : Predicate
  orderBy : List SortKey := []
  limit : Value := .null

/-! ## Order -/

namespace SortKey

/-- The cell of a number of a column; not a number is missing. -/
def numberCell (x : Binary64) : Cell := if x.isNan then .missing else .number (.double x)

/-- The cell of a double among values, which are compared exactly; not a number is missing. -/
def valueCell (x : Binary64) : Cell := if x.isNan then .missing else .value (.float x)

/-- A number as a double; a whole number has to be in their range. -/
def toDouble : Number → Except Failure Binary64
  | .double x => .ok x
  | .whole n => match Binary64.ofInt? n with
    | some x => .ok x
    | none => .error .overflow

/-- The distance of a cell from a number, in the arithmetic of its column: whole numbers have 64 bits
among themselves, and others are doubles, but among values whole numbers are exact. -/
def distanceCell (point : Number) : Cell → Except Failure Cell
  | .missing => .ok .missing
  | .number (.whole m) => match point with
    | .whole n => .ok (.number (.whole (wrapWord (wrapWord (m - n)).natAbs)))
    | .double y => .ok (numberCell ((Binary64.ofInt m).sub y).abs)
  | .number (.double x) => do return numberCell (x.sub (← toDouble point)).abs
  | .value v => match v.number?, point with
    | some (.whole m), .whole n => .ok (.value (.int (m - n).natAbs))
    | some number, point => do return valueCell ((← toDouble number).sub (← toDouble point)).abs
    | none, _ => .error .wrongType
  | .moment _ => .error .wrongType

/-- What the key compares of a row, in a column. -/
def cell (key : SortKey) (column : Column) (row : Row) : Except Failure Cell :=
  match key.distanceTo with
  | .null => .ok (row.cell column)
  | v => match v.number? with
    | none => .error .wrongType
    | some point => distanceCell point (row.cell column)

/-- The cell stands before another one, or level with it; a missing cell stands last. -/
def before (descending : Bool) (a b : Cell) : Bool :=
  if b.isMissing then true
  else if a.isMissing then false
  else match a.orderCell? b with
    | some .lt => !descending
    | some .gt => descending
    | _ => true

/-- The values that cells hold. -/
def valuesOf (cells : List Cell) : List Value :=
  cells.filterMap fun
    | .value v => some v
    | _ => none

/-- Cells that hold values are in one order only if each two of them are. A list with an item that is
not a number has no place in any. -/
def areSortable (cells : List Cell) : Bool :=
  let values := valuesOf cells
  values.length ≤ 1 || values.all fun v => values.all fun w => (v.order? w).join.isSome

theorem mem_valuesOf {cells : List Cell} {v : Value} : v ∈ valuesOf cells ↔ .value v ∈ cells := by
  unfold valuesOf
  rw [List.mem_filterMap]
  constructor
  · rintro ⟨cell, hcell, hv⟩
    cases cell with
    | value w =>
      cases hv
      exact hcell
    | _ => cases hv
  · exact fun h => ⟨_, h, rfl⟩

/-- The distance can be taken in a column, whatever rows there are: moments have none, flags have none
from a flag, and a whole number has to be in the range of the column. -/
def checkDistance (key : SortKey) (column : Column) : Except Failure Unit :=
  match key.distanceTo, column.kind with
  | .null, _ => .ok ()
  | .bool _, .flag => .error .wrongType
  | _, .moment => .error .wrongType
  | .int n, .whole | .int n, .flag => if isWord n then .ok () else .error .overflow
  | .int n, .double => if (Binary64.ofInt? n).isSome then .ok () else .error .overflow
  | v, _ => if v.number?.isSome then .ok () else .error .wrongType

/-- Rows in the order of one key; rows it does not tell apart keep their order. -/
def sort (key : SortKey) (rows : List Row) : Except Failure (List Row) := do
  let column ← Predicate.column key.field
  key.checkDistance column
  let keyed ← rows.mapM fun row => return (← key.cell column row, row)
  if !areSortable (keyed.map Prod.fst) then throw .wrongType
  return (sortBy (fun a b => before key.descending a.1 b.1) keyed).map Prod.snd

end SortKey

/-- Rows in the order of several keys, the first of which counts most. -/
def orderRows (keys : List SortKey) (rows : List Row) : Except Failure (List Row) :=
  keys.foldr (fun key sorted => do key.sort (← sorted)) (.ok rows)

/-! ## Answers -/

namespace Table

/-- The rows that a query selects, in its order. -/
def select (t : Table) (memberships : Memberships) (query : Query) : Except Failure (List Row) := do
  query.predicate.check t
  let matched := t.rows.filter fun row => query.predicate.holds t memberships row
  let ordered ← orderRows query.orderBy matched
  match ← Limit.headCount query.limit with
  | none => return ordered
  | some n => return ordered.take n

/-- The failures of a query that the store answers for. -/
def isQueryFailure : Failure → Bool
  | .wrongType | .badValue | .notWhole _ | .unknownField _ | .invalidRecord _ => true
  | _ => false

/-- A failure of a query as a failure of the store. -/
def queryFailure (e : Failure) : Failure :=
  if isQueryFailure e then .store "query_products" e else e

/-- The products that a query gives. -/
def query (t : Table) (memberships : Memberships) (q : Query) : Except Failure (List Product) :=
  match t.select memberships q with
  | .error e => .error (queryFailure e)
  | .ok rows => match rows.mapM Row.toProduct with
    | .error e => .error (queryFailure e)
    | .ok products => .ok products

/-- The product with an id. -/
def product? (t : Table) (id : Value) : Except Failure (Option Product) := do
  let predicate := Predicate.fieldEquals "id" id
  predicate.check t
  match t.rows.find? fun row => predicate.holds t .empty row with
  | none => return none
  | some row => return some (← row.toProduct)

/-- The different values of a field that occur, in ascending order. -/
def distinct (t : Table) (field : String) : Except Failure (List Value) := do
  let column ← Predicate.column field
  let present := (t.cells column).filter (!·.isMissing)
  let values := present.map fun
    | .number (.whole n) => if column.kind = .flag then Value.bool (n ≠ 0) else .int n
    | .number (.double x) => .float x
    | .moment m => .text m.iso
    | .value v => v
    | .missing => .null
  if values.any fun v => match v with
    | .list _ | .object _ => true
    | _ => false then throw .wrongType
  let once := values.foldl (fun seen v => if seen.any v.equals then seen else seen ++ [v]) []
  if !SortKey.areSortable (once.map .value) then throw .wrongType
  return sortBy (fun a b => (a.order? b).join != some .gt) once

end Table

end Storefront
