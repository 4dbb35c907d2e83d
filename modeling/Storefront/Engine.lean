import Storefront.Catalog.Sync
import Storefront.Recommend.Suggestion

/-!
# The catalog engine

What a shop asks of its catalog: smart collections are synced, collections are listed and put in
order, and products are recommended. Every operation names its collection or product by a value. Where
that is an id which failures or the log name, because nothing has it or because its collection is not
to be reordered, it is taken to be one that can be written (`Value.fits`).

* `Store.syncById`, `Store.syncAll`: syncing
* `Store.page`, `Store.statistics`, `Store.ruleOptions`: reading
* `Store.reorder`: the order of a manual collection
-/

namespace Storefront

namespace Store

/-- Syncs the collection that a value names. -/
def syncById (s : Store) (faults : Faults) (id : Value) : Store × Except Failure Nat :=
  match s.requireCollection id with
  | .error failure => (s, .error failure)
  | .ok collection => s.sync faults collection

/-- One page of the products of a collection that has to exist. -/
def page (s : Store) (id page limit : Value) : Except Failure (List Product) := do
  let _ ← s.requireCollection id
  s.collectionPage id page limit

/-- Puts listed members of a manual collection first; a smart collection is left alone. -/
def reorder (s : Store) (faults : Faults) (id productIds : Value) :
    Store × Except Failure Bool :=
  match s.requireCollection id with
  | .error failure => (s, .error failure)
  | .ok collection =>
    if collection.isSmart then (s, .ok false)
    else match itemsOfValue productIds with
      | .error failure => (s, .error failure)
      | .ok ids =>
        let (s, outcome) := s.reorderMembers faults collection.id ids
        (s, outcome.map fun _ => true)

/-- What is known about a collection. -/
structure Statistics where
  collectionId : Int
  productCount : Nat
  isSmart : Bool

/-- What is known about a collection that has to exist. -/
def statistics (s : Store) (id : Value) : Except Failure Statistics := do
  let collection ← s.requireCollection id
  return ⟨collection.id, (s.memberships.members collection.id).length, collection.isSmart⟩

/-- The values that rules on product types and on vendors can name. -/
structure RuleOptions where
  productTypes : List Value
  vendors : List Value

/-- The product types and the vendors of the catalog. -/
def ruleOptions (s : Store) : Except Failure RuleOptions := do
  return ⟨← s.distinct "product_type", ← s.distinct "vendor"⟩

end Store

end Storefront
