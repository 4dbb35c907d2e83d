import Storefront.Failure
import Storefront.Json.Comparison

/-!
# Limits

Limits, offsets and page numbers arrive as values. A whole number always does; what another value
does depends on what is asked of it.

* `Limit.headCount`: how many rows a query keeps
* `Limit.isNone`, `Limit.isReached`: the limit admits nothing, or no more
* `Limit.takeCount`: how many candidates a ranking keeps
* `Limit.slice`, `Limit.pageBounds`: a run of rows, and the bounds of a page
* `Limit.quota`: a third of a limit, rounded up
-/

namespace Storefront

namespace Limit

/-- The whole number that a value counts as in arithmetic, flags included. -/
def whole? : Value → Option Int
  | .int n => some n
  | .bool b => some (if b then 1 else 0)
  | _ => none

/-- How many rows a query keeps; null keeps all of them. -/
def headCount : Value → Except Failure (Option Nat)
  | .null => .ok none
  | .int n => .ok (some n.toNat)
  | .float x => if x.lt .zero then .ok (some 0) else .error .wrongType
  | _ => .error .wrongType

/-- A limit that is zero or less admits nothing. -/
def isNone (limit : Value) : Except Failure Bool :=
  match limit.number? with
  | some n => .ok (n.order? (.whole 0) == some .lt || n.order? (.whole 0) == some .eq)
  | none => .error .wrongType

/-- A count has come up to a limit. -/
def isReached (limit : Value) (count : Nat) : Bool :=
  match limit.number? with
  | some n => (Number.whole count).order? n == some .gt || (Number.whole count).order? n == some .eq
  | none => false

/-- How many candidates a ranking keeps of a limit that admits some. -/
def takeCount (limit : Value) : Except Failure Nat :=
  match whole? limit with
  | some n => .ok n.toNat
  | none => .error .wrongType

/-! ## Slices -/

/-- The place in a list that a bound of a slice means; a negative one counts from the end. -/
def bound (length : Nat) (n : Int) : Nat :=
  if n < 0 then (n + length).toNat else min n.toNat length

/-- The part of a list from one bound to another, each of which may be open. -/
def between {α : Type} (start stop : Option Int) (xs : List α) : List α :=
  let first := (start.map (bound xs.length)).getD 0
  let last := (stop.map (bound xs.length)).getD xs.length
  (xs.take last).drop first

/-- The bounds of a slice: an offset, and a limit counted from there. -/
def slice (offset limit : Value) : Except Failure (Option Int × Option Int) :=
  match offset, limit with
  | .null, .null => .ok (none, none)
  | .int n, .null => .ok (some n, none)
  | .int n, limit => match whole? limit with
    | some m => .ok (some n, some (n + m))
    | none => .error .wrongType
  | _, _ => .error .wrongType

/-- The number of pages before a page; a page before the first counts as the first. -/
def pagesBefore : Value → Except Failure Int
  | .int n => .ok (max (n - 1) 0)
  | .bool _ => .ok 0
  | .float x => if x.lt (.ofNat 1) then .ok 0 else .error .wrongType
  | _ => .error .wrongType

/-- Where a page begins and where it ends. -/
def pageBounds (page limit : Value) : Except Failure (Int × Int) := do
  let pages ← pagesBefore page
  match whole? limit with
  | some m => return (pages * m, pages * m + m)
  | none => throw .wrongType

/-! ## Shares -/

/-- The number of strategies that share a mixed request. -/
def shares : Nat := 3

/-- A third of a number, in double precision. -/
def third : Number → Except Failure Binary64
  | .whole n =>
    let x := Binary64.ofRatio (n < 0) n.natAbs shares
    if x.isFinite then .ok x else .error .overflow
  | .double x => .ok (x.div (.ofNat shares))

/-- The share of each strategy in a mixed request. -/
def quota (limit : Value) : Except Failure Int := do
  if ← isNone limit then return 0
  match limit.number? with
  | none => throw .wrongType
  | some n =>
    let x ← third n
    match x.ceil? with
    | some q => return q
    | none => throw (if x.isNan then .badValue else .overflow)

end Limit

end Storefront
