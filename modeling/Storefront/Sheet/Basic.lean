import Storefront.Sheet.Columns
import Storefront.Sheet.Records

/-!
# Sheets

A sheet is a table in comma-separated text: a header with the names of the columns, and rows of
fields.

* `Sheet`, `Sheet.read?`: sheets and how they are read
* `Sheet.columns`: the columns with their values
* `Sheet.records`: the rows as records
-/

namespace Storefront

/-- A table of fields with named columns. -/
structure Sheet where
  names : List String
  rows : List (List String)

namespace Sheet

/-- A row brought to a width by empty fields. -/
def padded (width : Nat) (row : List String) : List String :=
  row ++ List.replicate (width - row.length) ""

/-- The sheet of records, the first of which is the header.

The first row may be wider than the header: then as many columns at the left have no name and do not
count. Shorter rows are filled up, and a later row that is still wider is an error. -/
def ofRecords? : List (List String) → Option Sheet
  | [] => none
  | names :: rows =>
    let width := max names.length ((rows.head?.map List.length).getD 0)
    if rows.any fun row => decide (width < row.length) then none
    else some ⟨names, rows.map fun row => (padded width row).drop (width - names.length)⟩

/-- The sheet that a text holds. -/
def read? (s : String) : Option Sheet := (records? s).bind ofRecords?

/-- The fields of the column at a place. -/
def fieldsAt (sheet : Sheet) (place : Nat) : List String :=
  sheet.rows.map fun row => row.getD place ""

/-- The first column of each name. -/
def firstOfEachName {α : Type} : List (String × α) → List (String × α)
  | [] => []
  | column :: rest => column :: (firstOfEachName rest).filter fun other => other.1 ≠ column.1

/-- The columns: their names and their values. A name that is repeated counts only once. -/
def columns (sheet : Sheet) : List (String × List Value) :=
  firstOfEachName
    (sheet.names.zipIdx.map fun column => (column.1, columnValues (sheet.fieldsAt column.2)))

/-- The rows as records. -/
def records (sheet : Sheet) : List Fields :=
  let columns := sheet.columns
  (List.range sheet.rows.length).map fun place =>
    columns.map fun column => (column.1, column.2.getD place .null)

end Sheet

end Storefront
