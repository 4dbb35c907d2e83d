import Storefront.Json.Value

/-!
# Comparing values

Flags count as 0 and 1 among the numbers, and whole numbers and doubles are compared by their exact
values. Lists are compared by the first items that are different, and a list that ends before that is
less. Values of different kinds are different, and have no order.

* `Number`: a whole number or a double, with its order
* `Value.equals`: equality of values
* `Value.order?`: the order of numbers, of texts and of lists among themselves
-/

namespace Storefront

/-- A number as it is held in a value. -/
inductive Number where
  | whole (n : Int)
  | double (x : Binary64)
deriving DecidableEq

namespace Number

/-- How two numbers compare; nothing when one of them is not a number. -/
def order? : Number → Number → Option Ordering
  | .whole m, .whole n => some (compare m n)
  | .whole m, .double y => y.compareInt m
  | .double x, .whole n => (x.compareInt n).map Ordering.swap
  | .double x, .double y =>
    match x.place, y.place with
    | some a, some b => some (compare a b)
    | _, _ => none

theorem order?_doubles {a b : Binary64} {o : Ordering} :
    order? (.double a) (.double b) = some o ↔
      ∃ x y, a.place = some x ∧ b.place = some y ∧ compare x y = o := by
  unfold order?
  dsimp only
  cases a.place <;> cases b.place <;> simp

/-- Two numbers have the same value. -/
def equals (a b : Number) : Bool := a.order? b == some .eq

end Number

namespace Value

/-- The number that a value counts as. -/
def number? : Value → Option Number
  | .bool b => some (.whole (if b then 1 else 0))
  | .int n => some (.whole n)
  | .float x => some (.double x)
  | _ => none

/-- Equality of values. -/
def equals : Value → Value → Bool
  | .null, .null => true
  | .text s, .text t => s == t
  | .list xs, .list ys => equalItems xs ys
  | .object fs, .object gs => fs.length == gs.length && equalFields fs gs
  | v, w =>
    match v.number?, w.number? with
    | some a, some b => a.equals b
    | _, _ => false
where
  /-- Equality of lists, item by item. -/
  equalItems : List Value → List Value → Bool
    | [], [] => true
    | x :: xs, y :: ys => x.equals y && equalItems xs ys
    | _, _ => false
  /-- Each of the fields has an equal one of the same name among the others. -/
  equalFields : Fields → Fields → Bool
    | [], _ => true
    | (name, x) :: rest, others =>
      (match others.lookup name with
        | some y => x.equals y
        | none => false) && equalFields rest others

/-- Whole numbers are equal as values if they are equal. -/
theorem equals_int {m n : Int} : (int m).equals (.int n) = true ↔ m = n := by
  show (some (compare m n) == some Ordering.eq) = true ↔ _
  rw [beq_iff_eq, Option.some_inj]
  exact Int.compare_eq_eq

/-- The order of two texts, by code point. -/
def orderText (s t : String) : Ordering := if s < t then .lt else if s = t then .eq else .gt

/-- How two values compare, when they have an order at all; not a number has no place in it. -/
def order? : Value → Value → Option (Option Ordering)
  | .text s, .text t => some (some (orderText s t))
  | .list xs, .list ys => orderItems? xs ys
  | v, w =>
    match v.number?, w.number? with
    | some a, some b => some (a.order? b)
    | _, _ => none
where
  /-- How two lists compare: as their first items that are different. -/
  orderItems? : List Value → List Value → Option (Option Ordering)
    | [], [] => some (some .eq)
    | [], _ :: _ => some (some .lt)
    | _ :: _, [] => some (some .gt)
    | x :: xs, y :: ys => if x.equals y then orderItems? xs ys else x.order? y

end Value

end Storefront
