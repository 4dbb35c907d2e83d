import Storefront.Catalog.Row

/-!
# Raw tables

Products arrive as a table whose columns hold anything. A column that mixes whole numbers, doubles
and missing cells is a column of doubles; every other column keeps its cells as they are.

* `RawCell`, `RawTable`: raw cells and tables
* `Product.toRecord`: a product as a raw record
* `RawTable.ofRecords`: the table of a list of records
* `ColumnShape`, `columnShape`: what the cells of a column have in common
-/

namespace Storefront

/-- A raw cell: a value, or a moment that needs no reading. -/
inductive RawCell where
  | value (v : Value)
  | moment (m : Moment)
deriving Inhabited

namespace RawCell

/-- The cell that holds nothing. -/
def null : RawCell := .value .null

/-- Nothing is in the cell. -/
def isMissing : RawCell → Bool
  | .value v => v.isMissing
  | .moment _ => false

/-- The value of a cell; a moment is given by its text. -/
def toValue : RawCell → Value
  | .value v => v
  | .moment m => .text m.shown

/-- The cell holds a whole number. -/
def isWhole : RawCell → Bool
  | .value (.int _) => true
  | _ => false

/-- The cell holds a number that is no flag. -/
def isNumber : RawCell → Bool
  | .value (.int _) | .value (.float _) => true
  | _ => false

/-- The cell holds a flag. -/
def isFlag : RawCell → Bool
  | .value (.bool _) => true
  | _ => false

/-- The cell holds a text. -/
def isText : RawCell → Bool
  | .value (.text _) => true
  | _ => false

/-- The cell as a double, if it holds a whole number. -/
def widen : RawCell → RawCell
  | .value (.int n) => .value (.float (.ofInt n))
  | cell => cell

end RawCell

/-- A raw record: named cells. -/
abbrev RawRecord := List (String × RawCell)

/-- A product as a raw record: its tags are joined into one text, and its moment of creation needs no
reading. -/
def Product.toRecord (p : Product) : RawRecord :=
  [("id", .value (.int p.id)), ("title", .value (.text p.title)),
    ("handle", .value (textValue p.handle)), ("tags", .value (.text p.tags.toText)),
    ("vendor", .value (textValue p.vendor)), ("product_type", .value (textValue p.productType)),
    ("price", .value (.float p.price)), ("compare_at_price", .value (numberValue p.compareAtPrice)),
    ("in_stock", .value (.bool p.inStock)), ("rating", .value (numberValue p.rating)),
    ("review_count", .value ((p.reviewCount.map Value.int).getD .null)),
    ("created_at", (p.createdAt.map RawCell.moment).getD .null),
    ("bestseller_score", .value (numberValue p.bestsellerScore))]

/-- A table of raw cells, by columns of one height. -/
structure RawTable where
  columns : List (String × List RawCell)
  height : Nat

/-! ## Columns -/

/-- What the cells of a raw column have in common, missing ones apart. -/
inductive ColumnShape where
  | missing
  | wholes
  | doubles
  | flags
  | texts
  | mixed
deriving DecidableEq

/-- What the cells of a column have in common.

A missing cell fits among doubles and texts, and makes every other column a mixed one. -/
def columnShape (cells : List RawCell) : ColumnShape :=
  if cells.all (·.isMissing) then .missing
  else if cells.all (·.isWhole) then .wholes
  else if cells.all fun c => c.isNumber || c.isMissing then .doubles
  else if cells.all (·.isFlag) then .flags
  else if cells.all fun c => c.isText || c.isMissing then .texts
  else .mixed

/-- The cells of a column as they are kept: a column of doubles holds doubles only. -/
def keptCells (cells : List RawCell) : List RawCell :=
  if columnShape cells = .doubles then cells.map (·.widen) else cells

namespace RawTable

/-- The names of the fields of records, each once, in the order of their first occurrence. -/
def fieldNames (records : List RawRecord) : List String :=
  (records.flatMap fun record => record.map Prod.fst).foldl
    (fun names name => if names.contains name then names else names ++ [name]) []

/-- The table of a list of records; a field that a record lacks is missing. -/
def ofRecords (records : List RawRecord) : RawTable where
  columns := (fieldNames records).map fun name =>
    (name, keptCells (records.map fun record => (record.lookup name).getD .null))
  height := records.length

/-- The cells of a column; a column that the table lacks has missing cells. -/
def cells (t : RawTable) (column : Column) : List RawCell :=
  (t.columns.lookup column.name).getD (List.replicate t.height .null)

/-- The names of the columns. -/
def names (t : RawTable) : List String := t.columns.map Prod.fst

end RawTable

end Storefront
