import Storefront.Catalog.Product
import Storefront.Json.Comparison
import Storefront.Outcome

/-!
# Rows of the catalog

The catalog keeps products as rows of thirteen columns. Numbers, tags, the stock flag and the moment
of creation have one type each; a text column keeps whatever value it was given.

* `Column`, `Column.kind`: the columns and what their cells hold
* `Row`, `Row.cell`: the rows and their cells
* `Row.IsNormal`: the rows that normalisation leaves
* `Row.toProduct`, `Row.ReadsAs`: the product that a row gives
-/

namespace Storefront

/-! ## Columns -/

/-- The columns of the catalog. -/
inductive Column where
  | id
  | title
  | handle
  | tags
  | vendor
  | productType
  | price
  | compareAtPrice
  | inStock
  | rating
  | reviewCount
  | createdAt
  | bestsellerScore
deriving DecidableEq

/-- What the cells of a column hold. -/
inductive ColumnKind where
  | whole
  | double
  | flag
  | moment
  | value
deriving DecidableEq

namespace Column

/-- The columns in the order in which they are stored. -/
def all : List Column :=
  [.id, .title, .handle, .tags, .vendor, .productType, .price, .compareAtPrice, .inStock, .rating,
    .reviewCount, .createdAt, .bestsellerScore]

/-- The name of a column. -/
def name : Column → String
  | .id => "id"
  | .title => "title"
  | .handle => "handle"
  | .tags => "tags"
  | .vendor => "vendor"
  | .productType => "product_type"
  | .price => "price"
  | .compareAtPrice => "compare_at_price"
  | .inStock => "in_stock"
  | .rating => "rating"
  | .reviewCount => "review_count"
  | .createdAt => "created_at"
  | .bestsellerScore => "bestseller_score"

/-- The column with a name. -/
def ofName? (name : String) : Option Column := all.find? (·.name = name)

/-- What the cells of a column hold. -/
def kind : Column → ColumnKind
  | .id => .whole
  | .title | .handle | .tags | .vendor | .productType => .value
  | .price | .compareAtPrice | .rating | .reviewCount | .bestsellerScore => .double
  | .inStock => .flag
  | .createdAt => .moment

end Column

/-! ## Rows -/

/-- A product as the catalog stores it. -/
structure Row where
  id : Int
  title : Option Value := none
  handle : Option Value := none
  tags : String := ""
  vendor : Option Value := none
  productType : Option Value := none
  price : Option Binary64 := none
  compareAtPrice : Option Binary64 := none
  inStock : Bool := true
  rating : Option Binary64 := none
  reviewCount : Option Binary64 := none
  createdAt : Option Moment := none
  bestsellerScore : Option Binary64 := none

/-- A row in which everything but the id is missing. -/
def Row.blank (id : Int) : Row := { id }

/-- The content of one cell. -/
inductive Cell where
  | missing
  | number (n : Number)
  | moment (m : Moment)
  | value (v : Value)

namespace Cell

/-- The cell of an optional double. -/
def ofNumber? (x : Option Binary64) : Cell :=
  match x with
  | some x => .number (.double x)
  | none => .missing

/-- The cell of an optional value. -/
def ofValue? (v : Option Value) : Cell :=
  match v with
  | some v => .value v
  | none => .missing

/-- The cell of a flag, which counts as 1 or 0. -/
def ofFlag (b : Bool) : Cell := .number (.whole (if b then 1 else 0))

/-- The cell of an optional moment. -/
def ofMoment? (m : Option Moment) : Cell :=
  match m with
  | some m => .moment m
  | none => .missing

/-- Nothing is in the cell. -/
def isMissing : Cell → Bool
  | .missing => true
  | _ => false

/-- What is in the cell, if anything, does not itself stand for a missing value. -/
def isProper : Cell → Bool
  | .number (.double x) => !x.isNan
  | .value v => !v.isMissing
  | .missing | .number (.whole _) | .moment _ => true

theorem isNan_of_isProper {x : Binary64} (h : (ofNumber? (some x)).isProper) : x.isNan = false := by
  simpa [ofNumber?, isProper] using h

theorem isMissing_of_isProper {v : Value} (h : (ofValue? (some v)).isProper) :
    v.isMissing = false := by
  simpa [ofValue?, isProper] using h

end Cell

namespace Row

/-- The cell of a row in a column. -/
def cell (row : Row) : Column → Cell
  | .id => .number (.whole row.id)
  | .title => .ofValue? row.title
  | .handle => .ofValue? row.handle
  | .tags => .value (.text row.tags)
  | .vendor => .ofValue? row.vendor
  | .productType => .ofValue? row.productType
  | .price => .ofNumber? row.price
  | .compareAtPrice => .ofNumber? row.compareAtPrice
  | .inStock => .ofFlag row.inStock
  | .rating => .ofNumber? row.rating
  | .reviewCount => .ofNumber? row.reviewCount
  | .createdAt => .ofMoment? row.createdAt
  | .bestsellerScore => .ofNumber? row.bestsellerScore

/-- A row as the catalog keeps it: the id fits into 64 bits, no cell holds a value that stands for
a missing one, and the moment has the offset that all moments of the catalog have. -/
structure IsNormal (offset : Option Int) (row : Row) : Prop where
  isWord_id : isWord row.id
  isProper_cell : ∀ column, (row.cell column).isProper
  offset_createdAt : ∀ m ∈ row.createdAt, m.offset = offset

/-- A row differs from another one in a single cell, which is not its id. -/
structure DiffersIn (column : Column) (cell : Cell) (changed row : Row) : Prop where
  id_eq : changed.id = row.id
  cell_eq : ∀ c, changed.cell c = if c = column then cell else row.cell c

/-- A row stays normal when one cell changes to a proper one. -/
theorem IsNormal.of_differsIn {offset : Option Int} {column : Column} {cell : Cell}
    {changed row : Row} (h : row.IsNormal offset) (hd : changed.DiffersIn column cell row)
    (hcell : cell.isProper) (hmoment : ∀ m ∈ changed.createdAt, m.offset = offset) :
    changed.IsNormal offset where
  isWord_id := by
    rw [hd.id_eq]
    exact h.isWord_id
  isProper_cell c := by
    rw [hd.cell_eq c]
    split
    · exact hcell
    · exact h.isProper_cell c
  offset_createdAt := hmoment

/-! ## Products -/

/-- The whole part of an optional count; an infinite one is out of range. -/
def wholeCount (x : Option Binary64) : Except Failure (Option Int) :=
  match x with
  | none => .ok none
  | some x => match x.truncate? with
    | some n => .ok (some n)
    | none => .error .overflow

/-- An optional number under a condition. -/
def checkedNumber (name : String) (check : Value → Except Refusal Binary64)
    (x : Option Binary64) : Checked (Option Binary64) :=
  .ofField [name] (Intake.nullable check (Product.numberValue x))

/-- An optional text out of a cell that may hold anything. -/
def checkedText (name : String) (v : Option Value) : Checked (Option String) :=
  .ofField [name] (Intake.nullable Intake.text (v.getD .null))

/-- The product that a row gives: a missing price is zero, and a missing title is empty. -/
def toProduct (row : Row) : Except Failure Product := do
  let count ← wholeCount row.reviewCount
  let product : Checked Product :=
    (fun title handle vendor productType price rating reviewCount =>
      { id := row.id, title, handle, tags := .ofText row.tags, vendor, productType, price,
        compareAtPrice := row.compareAtPrice, inStock := row.inStock, rating, reviewCount,
        createdAt := row.createdAt, bestsellerScore := row.bestsellerScore })
    <$> .ofField ["title"] (Intake.text (row.title.getD (.text "")))
    <*> checkedText "handle" row.handle
    <*> checkedText "vendor" row.vendor
    <*> checkedText "product_type" row.productType
    <*> .ofField ["price"] (Product.readPrice (.float (row.price.getD .zero)))
    <*> checkedNumber "rating" Product.readRating row.rating
    <*> .ofField ["review_count"]
      (Intake.nullable Product.readCount ((count.map Value.int).getD .null))
  product.result

/-- A row reads as a product: some cells are taken over as they are, and the others are read as
their fields are. -/
structure ReadsAs (row : Row) (p : Product) : Prop where
  id_eq : p.id = row.id
  tags_eq : p.tags = .ofText row.tags
  compareAtPrice_eq : p.compareAtPrice = row.compareAtPrice
  inStock_eq : p.inStock = row.inStock
  createdAt_eq : p.createdAt = row.createdAt
  bestsellerScore_eq : p.bestsellerScore = row.bestsellerScore
  title_read : Intake.text (row.title.getD (.text "")) = .ok p.title
  handle_read : Intake.nullable Intake.text (row.handle.getD .null) = .ok p.handle
  vendor_read : Intake.nullable Intake.text (row.vendor.getD .null) = .ok p.vendor
  productType_read : Intake.nullable Intake.text (row.productType.getD .null) = .ok p.productType
  price_read : Product.readPrice (.float (row.price.getD .zero)) = .ok p.price
  rating_read : Intake.nullable Product.readRating (Product.numberValue row.rating) = .ok p.rating
  reviewCount_read : ∃ count, wholeCount row.reviewCount = .ok count ∧
    Intake.nullable Product.readCount ((count.map Value.int).getD .null) = .ok p.reviewCount

theorem readsAs_of_toProduct {row : Row} {p : Product} (h : row.toProduct = .ok p) :
    row.ReadsAs p := by
  obtain ⟨count, hcount, hresult⟩ := bind_eq_ok.1 h
  obtain ⟨_, reviewCount, hrating, hreviewCount, rfl⟩ :=
    Checked.seq_eq_accepted (Checked.result_eq_ok.1 hresult)
  obtain ⟨_, rating, hprice, hreadRating, rfl⟩ := Checked.seq_eq_accepted hrating
  obtain ⟨_, price, htype, hreadPrice, rfl⟩ := Checked.seq_eq_accepted hprice
  obtain ⟨_, productType, hvendor, hreadType, rfl⟩ := Checked.seq_eq_accepted htype
  obtain ⟨_, vendor, hhandle, hreadVendor, rfl⟩ := Checked.seq_eq_accepted hvendor
  obtain ⟨_, handle, htitle, hreadHandle, rfl⟩ := Checked.seq_eq_accepted hhandle
  obtain ⟨title, hreadTitle, rfl⟩ := Checked.map_eq_accepted htitle
  exact {
    id_eq := rfl
    tags_eq := rfl
    compareAtPrice_eq := rfl
    inStock_eq := rfl
    createdAt_eq := rfl
    bestsellerScore_eq := rfl
    title_read := Checked.ofField_eq_accepted.1 hreadTitle
    handle_read := Checked.ofField_eq_accepted.1 hreadHandle
    vendor_read := Checked.ofField_eq_accepted.1 hreadVendor
    productType_read := Checked.ofField_eq_accepted.1 hreadType
    price_read := Checked.ofField_eq_accepted.1 hreadPrice
    rating_read := Checked.ofField_eq_accepted.1 hreadRating
    reviewCount_read := ⟨count, hcount, Checked.ofField_eq_accepted.1 hreviewCount⟩ }

theorem id_of_toProduct {row : Row} {p : Product} (h : row.toProduct = .ok p) : p.id = row.id :=
  (readsAs_of_toProduct h).id_eq

theorem inStock_of_toProduct {row : Row} {p : Product} (h : row.toProduct = .ok p) :
    p.inStock = row.inStock :=
  (readsAs_of_toProduct h).inStock_eq

end Row

end Storefront
