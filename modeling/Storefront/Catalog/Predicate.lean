import Storefront.Json.Value
import Storefront.Number.Binary64

/-!
# Predicates

A predicate describes a set of products by the cells of their rows and by the collections that they
share. Fields are named by text, so a predicate may name a field that no row has.

* `Predicate`: the predicates
* `Predicate.conjunction`, `Predicate.disjunction`: combinations without needless nesting
* `Predicate.inStock`, `Predicate.outOfStock`: the two values of the stock flag
-/

namespace Storefront

/-- A condition on products. -/
inductive Predicate where
  /-- A condition without meaning. -/
  | undefined
  /-- Every product. -/
  | matchAll
  /-- No product. -/
  | matchNone
  /-- The field is present and equals a value. -/
  | fieldEquals (field : String) (value : Value)
  /-- The field's text contains another, in any case. -/
  | fieldContains (field : String) (value : Value)
  /-- The field is present and lies between the bounds, ends included. -/
  | fieldRange (field : String) (minimum maximum : Option Value)
  /-- The field is present and greater than another field. -/
  | fieldExceeds (field other : String)
  /-- The product is in a collection with another one. -/
  | sharesCollection (productId : Value)
  /-- The product fails a condition. -/
  | not (child : Predicate)
  /-- The product meets all conditions. -/
  | allOf (children : List Predicate)
  /-- The product meets some condition. -/
  | anyOf (children : List Predicate)
deriving Inhabited

namespace Predicate

/-- The conditions that a predicate joins, if it is a conjunction, or else itself. -/
def conjuncts : Predicate → List Predicate
  | .allOf children => children
  | p => [p]

/-- The conjunction of predicates, in which conjunctions are flattened. -/
def conjunction (ps : List Predicate) : Predicate :=
  match ps.flatMap conjuncts with
  | [p] => p
  | children => .allOf children

/-- The disjunction of predicates. -/
def disjunction : List Predicate → Predicate
  | [p] => p
  | children => .anyOf children

/-- The product is in stock. -/
def inStock : Predicate := .fieldEquals "in_stock" (.bool true)

/-- The product is out of stock. -/
def outOfStock : Predicate := .fieldEquals "in_stock" (.bool false)

end Predicate

end Storefront
