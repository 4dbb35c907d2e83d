import Storefront.Catalog.Store
import Storefront.Recommend.Signal

/-!
# Recall

Each signal, and each strategy for suggestions, queries the store for the products that it speaks
for. Products out of stock are never recalled, nor is the product that others are related to.

* `Match`: a product recalled by a signal
* `priceWindow`: the prices that count as close to another
* `Store.recallBy`: the products that a signal recalls for a product
* `Strategy`, `Store.suggest`: the products that a strategy suggests
-/

namespace Storefront

/-- A product recalled by a signal, with the weight that this counts. -/
structure Match where
  product : Product
  signal : Signal
  weight : Binary64

/-! ## Prices -/

/-- The significant digits with which prices are scaled. -/
def pricePrecision : Nat := 28

/-- The factor from a price to the lowest close one. -/
def lowerFactor : Decimal := ⟨false, 7, -1⟩

/-- The factor from a price to the highest close one. -/
def upperFactor : Decimal := ⟨false, 13, -1⟩

/-- A price times a decimal factor: the price is taken as it is written. -/
def scalePrice (factor : Decimal) (price : Binary64) : Binary64 :=
  match price.toDecimal? with
  | some d => (Decimal.scale pricePrecision d factor).toBinary64
  | none => price

/-- A price given by any value times a decimal factor. -/
def scaleValue (factor : Decimal) : Value → Except Failure Binary64
  | .float x => .ok (scalePrice factor x)
  | .int n => .ok (Decimal.scale pricePrecision ⟨n < 0, n.natAbs, 0⟩ factor).toBinary64
  | .text s =>
    match exactDecimal? s, decimalNumber? (trimWhile isBlank s.toList) with
    | some d, _ => .ok (Decimal.scale pricePrecision d factor).toBinary64
    | none, some x => .ok x
    | none, none => .error .notDecimal
  | .null | .bool _ | .list _ | .object _ => .error .notDecimal

/-- The lowest and the highest price that count as close to a price. -/
def priceWindow (price : Binary64) : Binary64 × Binary64 :=
  (scalePrice lowerFactor price, scalePrice upperFactor price)

/-! ## Signals -/

/-- The best rated first, and of those the most reviewed. -/
def byQuality : List SortKey :=
  [{ field := "rating", descending := true }, { field := "review_count", descending := true }]

/-- A text that says something. -/
def presentText? (s : Option String) : Option String := s.filter fun s => !s.isEmpty

/-- What a signal asks of the products that it recalls for a product, and in which order it takes
them; a product that lacks what the signal goes by gets none. -/
def Signal.search? (signal : Signal) (source : Product) : Option (Predicate × List SortKey) :=
  match signal with
  | .collection => some (.sharesCollection (.int source.id), [])
  | .tags =>
    if source.tags.toList.isEmpty then none
    else some (.disjunction (source.tags.toList.map fun tag =>
      .fieldContains "tags" (.text tag)), [])
  | .vendor =>
    (presentText? source.vendor).map fun s => (.fieldEquals "vendor" (.text s), byQuality)
  | .price =>
    if source.price.isZero then none
    else
      let (low, high) := priceWindow source.price
      some (.fieldRange "price" (some (.float low)) (some (.float high)),
        [{ field := "price", distanceTo := .float source.price }])
  | .type => (presentText? source.productType).map fun s =>
    (.fieldEquals "product_type" (.text s), byQuality)

/-- The condition, products in stock only, and another product than the source. -/
def eligible (predicate : Predicate) (source : Product) : Predicate :=
  .conjunction [predicate, .inStock, .not (.fieldEquals "id" (.int source.id))]

namespace Store

/-- The products that a signal recalls for a product, up to a limit. -/
def recallBy (s : Store) (faults : Faults) (signal : Signal) (source : Product) (limit : Value) :
    Except Failure (List Match) := do
  match signal.search? source with
  | none => return []
  | some (predicate, orderBy) =>
    if ← Limit.isNone limit then return []
    let products ← s.query faults { predicate := eligible predicate source, orderBy, limit }
    return products.map fun product => ⟨product, signal, signal.weight⟩

/-- What several signals recall, one after the other. -/
def recallEach (s : Store) (faults : Faults) (signals : List Signal) (source : Product)
    (limit : Value) : Except Failure (List Match) := do
  return (← signals.mapM fun signal => s.recallBy faults signal source limit).flatten

end Store

/-! ## Strategies -/

/-- A way to choose products without reference to another one. -/
inductive Strategy where
  | trending
  | bestsellers
  | highRated
  | new
deriving DecidableEq

namespace Strategy

/-- The least rating and the least number of reviews of a product that is trending. -/
def trendingBounds : Binary64 × Nat := (Decimal.toBinary64 ⟨false, 45, -1⟩, 50)

/-- The least rating and the least number of reviews of a product that is rated high. -/
def highRatedBounds : Binary64 × Nat := (Decimal.toBinary64 ⟨false, 40, -1⟩, 10)

/-- At least a rating and a number of reviews. -/
def rated (bounds : Binary64 × Nat) : Predicate :=
  .conjunction [.fieldRange "rating" (some (.float bounds.1)) none,
    .fieldRange "review_count" (some (.int bounds.2)) none]

/-- What a strategy asks of products. -/
def predicate : Strategy → Predicate
  | .trending => rated trendingBounds
  | .highRated => rated highRatedBounds
  | .bestsellers | .new => .matchAll

/-- The order in which a strategy takes products. -/
def orderBy : Strategy → List SortKey
  | .trending | .highRated => byQuality
  | .bestsellers =>
    [{ field := "bestseller_score", descending := true },
      { field := "review_count", descending := true }]
  | .new => [{ field := "created_at", descending := true }]

end Strategy

/-- The products that a strategy suggests, up to a limit. -/
def Store.suggest (s : Store) (faults : Faults) (strategy : Strategy) (limit : Value) :
    Except Failure (List Product) := do
  if ← Limit.isNone limit then return []
  s.query faults ⟨.conjunction [strategy.predicate, .inStock], strategy.orderBy, limit⟩

end Storefront
