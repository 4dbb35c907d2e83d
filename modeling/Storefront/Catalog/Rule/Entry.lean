import Storefront.Catalog.Predicate
import Storefront.Catalog.Rule.Node
import Storefront.Text.UpperCase

/-!
# Rules and their predicates

A rule that is read to its last condition is a tree of entries. Its predicate is built from the
conditions that can be used; the others are left out with a warning.

* `Entry`, `Entry.read`: the tree of a rule
* `Entry.predicate?`, `Entry.warnings`: its predicate and what is reported about it
* `Rule.compile`: both together, for any value
-/

namespace Storefront

/-- A rule, or one of its conditions, read to the end. -/
inductive Entry where
  /-- Nothing is given. -/
  | blank
  /-- What is given is no node. -/
  | rejected (warning : Warning)
  /-- A single condition. -/
  | leaf (leaf : Leaf)
  /-- Conditions joined by a logic word. -/
  | group (logic : String) (entries : List Entry)

namespace Entry

mutual

/-- The tree of a value that is read as a rule. -/
def read (v : Value) : Except Failure Entry :=
  match h : Node.read v with
  | .error e => .error e
  | .ok none => .ok .blank
  | .ok (some (.error warning)) => .ok (.rejected warning)
  | .ok (some (.ok (.leaf l))) => .ok (.leaf l)
  | .ok (some (.ok (.composite logic conditions))) => do
    have := Node.weights_read h
    return .group logic (← readAll conditions)
termination_by 2 * v.weight

/-- The trees of a list of values. -/
def readAll (conditions : List Value) : Except Failure (List Entry) :=
  match conditions with
  | [] => .ok []
  | condition :: rest => do
    have := condition.weight_pos
    have : Value.weight.weights (condition :: rest) =
      condition.weight + Value.weight.weights rest := rfl
    let entry ← read condition
    let entries ← readAll rest
    return entry :: entries
termination_by 2 * Value.weight.weights conditions + 1

end

end Entry

/-! ## Conditions -/

namespace Leaf

/-- The condition that a field contains or equals the value of a leaf, if that is not empty. -/
def withValue (leaf : Leaf) (predicate : Value → Predicate) : Option Predicate :=
  match leaf.value with
  | some s => if s.isEmpty then none else some (predicate (.text s))
  | none => none

/-- The predicate of a single condition; conditions of unknown type, and those that lack what they
need, have none. -/
def predicate? (leaf : Leaf) : Option Predicate :=
  match leaf.type with
  | "all" => some .matchAll
  | "tag_contains" => leaf.withValue (.fieldContains "tags")
  | "has_compare_price" => some (.fieldExceeds "compare_at_price" "price")
  | "price_range" =>
    if leaf.minPrice.isNone && leaf.maxPrice.isNone then none
    else some (.fieldRange "price" (leaf.minPrice.map .float) (leaf.maxPrice.map .float))
  | "product_type" => leaf.withValue (.fieldEquals "product_type")
  | "vendor" => leaf.withValue (.fieldEquals "vendor")
  | "in_stock" => some .inStock
  | "out_of_stock" => some .outOfStock
  | _ => none

end Leaf

namespace Entry

/-- The logic word asks for any of the conditions, not for all of them. -/
def isDisjunction (logic : String) : Bool := upper (trimBlank logic) == "OR".toList

/-- The combination of the predicates of a group; an empty one has none. -/
def combine? (logic : String) : List Predicate → Option Predicate
  | [] => none
  | children =>
    some (if isDisjunction logic then .disjunction children else .conjunction children)

/-- The predicate of an entry, if it has a usable one. -/
def predicate? : Entry → Option Predicate
  | .blank | .rejected _ => none
  | .leaf l => l.predicate?
  | .group logic entries => combine? logic (predicates entries)
where
  /-- The usable predicates of a list of entries. -/
  predicates : List Entry → List Predicate
    | [] => []
    | entry :: rest => match entry.predicate? with
      | some p => p :: predicates rest
      | none => predicates rest

/-- What is reported about an entry, in the order of its conditions. -/
def warnings : Entry → List Warning
  | .blank => []
  | .rejected warning => [warning]
  | .leaf l => if l.predicate?.isNone then [.unusableLeaf l.type] else []
  | .group _ entries => allWarnings entries
where
  /-- What is reported about a list of entries. -/
  allWarnings : List Entry → List Warning
    | [] => []
    | entry :: rest => entry.warnings ++ allWarnings rest

/-- The predicate of an entry; one without a usable predicate matches no product. -/
def predicate (entry : Entry) : Predicate := entry.predicate?.getD .matchNone

end Entry

namespace Rule

/-- The predicate of a rule, with what is reported about it. -/
def compile (rule : Value) : Except Failure (Predicate × List Warning) := do
  let entry ← Entry.read rule
  return (entry.predicate, entry.warnings)

end Rule

end Storefront
