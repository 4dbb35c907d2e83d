import Storefront.Catalog.Intake
import Storefront.Catalog.Tag

/-!
# Products

A product as it is read from the catalog.

* `Product`: the fields of a product
* `Product.read`: the product that a record gives
-/

namespace Storefront

/-- A catalog product. -/
structure Product where
  id : Int
  title : String := ""
  handle : Option String := none
  tags : TagSet := .empty
  vendor : Option String := none
  productType : Option String := none
  price : Binary64 := .zero
  compareAtPrice : Option Binary64 := none
  inStock : Bool := true
  rating : Option Binary64 := none
  reviewCount : Option Int := none
  createdAt : Option Moment := none
  bestsellerScore : Option Binary64 := none
deriving DecidableEq

namespace Product

/-- The greatest rating. -/
def maxRating : Binary64 := .ofNat 5

/-- A price: a number that is not negative. -/
def readPrice (v : Value) : Except Refusal Binary64 := do
  Intake.atLeast .zero (← Intake.number v)

/-- A rating: a number from 0 to 5. -/
def readRating (v : Value) : Except Refusal Binary64 := do
  Intake.atLeast .zero (← Intake.atMost maxRating (← Intake.number v))

/-- A count: a whole number that is not negative. -/
def readCount (v : Value) : Except Refusal Int := do
  let n ← Intake.whole v
  if n < 0 then .error .tooSmall else .ok n

/-- The product that a record gives.

A `tags` field that cannot be split fails on its own; otherwise every refused field is reported. -/
def read (fields : Fields) : Except Failure Product := do
  let tags ← TagSet.read ((fields.lookup "tags").getD .null)
  let product : Checked Product :=
    (fun id title handle vendor productType price compareAtPrice inStock rating reviewCount
        createdAt bestsellerScore =>
      { id, title, handle, tags, vendor, productType, price, compareAtPrice, inStock, rating,
        reviewCount, createdAt, bestsellerScore })
    <$> Intake.required "id" Intake.whole fields
    <*> Intake.defaulted "title" "" Intake.text fields
    <*> Intake.optional "handle" Intake.text fields
    <*> Intake.optional "vendor" Intake.text fields
    <*> Intake.optional "product_type" Intake.text fields
    <*> Intake.defaulted "price" .zero readPrice fields
    <*> Intake.optional "compare_at_price" Intake.number fields
    <*> Intake.defaulted "in_stock" true Intake.flag fields
    <*> Intake.optional "rating" readRating fields
    <*> Intake.optional "review_count" readCount fields
    <*> Intake.optional "created_at" Intake.moment fields
    <*> Intake.optional "bestseller_score" Intake.number fields
  product.result

/-- A number or null. -/
def numberValue (x : Option Binary64) : Value := (x.map Value.float).getD .null

/-- A text or null. -/
def textValue (s : Option String) : Value := (s.map Value.text).getD .null

/-- A product as a record, its moment of creation in the given text form. -/
def toFields (momentText : Moment → String) (p : Product) : Fields :=
  [("id", .int p.id), ("title", .text p.title), ("handle", textValue p.handle),
    ("tags", .list (p.tags.toList.map .text)), ("vendor", textValue p.vendor),
    ("product_type", textValue p.productType), ("price", .float p.price),
    ("compare_at_price", numberValue p.compareAtPrice), ("in_stock", .bool p.inStock),
    ("rating", numberValue p.rating), ("review_count", (p.reviewCount.map Value.int).getD .null),
    ("created_at", textValue (p.createdAt.map momentText)),
    ("bestseller_score", numberValue p.bestsellerScore)]

end Product

end Storefront
