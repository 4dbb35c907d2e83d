import Storefront.Catalog.Product
import Storefront.Number.Decimal

/-!
# Signals of relatedness

A product is related to another one for reasons of five kinds, each with a weight.

* `Signal`: the signals, in the order in which they are recalled
* `Signal.weight`: how much a signal counts
* `Signal.select`: the signals that options ask for
-/

namespace Storefront

/-- A reason for which products are related. -/
inductive Signal where
  | collection
  | tags
  | vendor
  | price
  | type
deriving DecidableEq

namespace Signal

/-- The signals in the order in which they are recalled. -/
def all : List Signal := [.collection, .tags, .vendor, .price, .type]

/-- The name of a signal. -/
def name : Signal → String
  | .collection => "collection"
  | .tags => "tags"
  | .vendor => "vendor"
  | .price => "price"
  | .type => "type"

/-- The signal with a name. -/
def ofName? (name : String) : Option Signal := all.find? (·.name = name)

/-- The signal that a value names. -/
def ofValue? : Value → Option Signal
  | .text s => ofName? s
  | _ => none

/-- How much a signal counts, in tenths. -/
def tenths : Signal → Nat
  | .collection => 30
  | .type => 25
  | .tags => 20
  | .vendor => 15
  | .price => 10

/-- How much a signal counts. -/
def weight (s : Signal) : Binary64 := Decimal.toBinary64 ⟨false, s.tenths, -1⟩

/-- The values that a request for signals lists. -/
def requested : Value → Except Failure (List Value)
  | .list items => .ok items
  | .text s => .ok (s.toList.map fun c => .text (String.singleton c))
  | .object fields => .ok (fields.map fun field => .text field.1)
  | .null | .bool _ | .int _ | .float _ => .error .wrongType

/-- The signals that are named by values, in the order of recall; other values are ignored. -/
def named (values : List Value) : List Signal :=
  all.filter fun s => values.any fun v => ofValue? v == some s

/-- The signals that options ask for: all of them unless the options list some. -/
def select (options : Value) : Except Failure (List Signal) :=
  if !options.isTruthy then .ok all
  else match options with
    | .object fields =>
      let signals := (fields.lookup "signals").getD .null
      if signals.isTruthy then (requested signals).map named else .ok all
    | _ => .error .noSuchPart

end Signal

end Storefront
