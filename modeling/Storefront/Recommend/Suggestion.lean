import Storefront.Recommend.Score

/-!
# Recommendations

Related products are recalled by every selected signal, gathered and ranked. Suggested products come
from one strategy, or from three that share the request. A store that fails gives no products. The id
of a product that does not exist is taken to be one that can be written (`Value.fits`), since the log
names it.

* `Store.relatedCandidates`, `Store.related`: products related to a product
* `Mixture`, `mix`, `Store.mixed`: products of several lists, each once
* `Plan`, `Store.suggested`: suggested products
-/

namespace Storefront

/-- The number of products to recommend when nothing is said. -/
def defaultLimit : Value := .int 12

/-- Takes no products from a store that fails; other failures are passed on. -/
def orNothing {α : Type} : Except Failure (List α) → Except Failure (List α)
  | .error (.store _ _) => .ok []
  | outcome => outcome

/-! ## Related products -/

namespace Store

/-- The best candidates among the products related to a product; none if it does not exist. -/
def relatedCandidates (s : Store) (faults : Faults) (id limit options : Value) :
    Except Failure (List Candidate) := do
  match ← s.product? id with
  | none => return []
  | some source =>
    let signals ← Signal.select options
    rank (gather (← s.recallEach faults signals source limit)) limit

/-- The best candidates, or none if the store fails. -/
def related (s : Store) (faults : Faults) (id limit options : Value) :
    Except Failure (List Candidate) :=
  orNothing (s.relatedCandidates faults id limit options)

end Store

/-! ## Suggested products -/

/-- A mixture under way: the ids that were seen, and the products that were taken. -/
structure Mixture where
  seen : List Int
  products : List Product

namespace Mixture

/-- Takes a product, unless its id was seen. A mixture that this fills is given back at once, as the
exit from the mixing. -/
def take (isFull : Nat → Bool) (mixture : Mixture) (p : Product) : Except (List Product) Mixture :=
  if mixture.seen.contains p.id then .ok mixture
  else
    let products := mixture.products ++ [p]
    if isFull products.length then .error products else .ok ⟨p.id :: mixture.seen, products⟩

/-- Takes the products of several lists one after the other, until the mixture is full. -/
def ofStreams (isFull : Nat → Bool) (streams : List (List Product)) : List Product :=
  match streams.foldlM (fun mixture stream => stream.foldlM (take isFull) mixture) ⟨[], []⟩ with
  | .ok mixture => mixture.products
  | .error products => products

end Mixture

/-- The first products of several lists in a row, each product once. -/
def mix (streams : List (List Product)) (limit : Value) : Except Failure (List Product) := do
  if ← Limit.isNone limit then return []
  return Mixture.ofStreams (Limit.isReached limit) streams

/-- What a request for suggestions asks for: one strategy, or a mixture. -/
inductive Plan where
  | single (strategy : Strategy)
  | mixed
deriving DecidableEq

namespace Plan

/-- The plans that a request can name. -/
def all : List Plan :=
  [.single .trending, .single .bestsellers, .single .highRated, .single .new, .mixed]

/-- The name of a plan. -/
def name : Plan → String
  | .single .trending => "trending"
  | .single .bestsellers => "bestsellers"
  | .single .highRated => "high_rated"
  | .single .new => "new"
  | .mixed => "mixed"

/-- The plan that a value names; any other value asks for a mixture. -/
def ofValue : Value → Plan
  | .text s => (all.find? (·.name = s)).getD .mixed
  | _ => .mixed

end Plan

/-- The strategies that share a mixture, in order of priority. -/
def mixedStrategies : List Strategy := [.trending, .bestsellers, .new]

namespace Store

/-- A mixture of products, of which each strategy has an equal share. -/
def mixed (s : Store) (faults : Faults) (limit : Value) : Except Failure (List Product) := do
  let quota ← Limit.quota limit
  mix (← mixedStrategies.mapM fun strategy => s.suggest faults strategy (.int quota)) limit

/-- The products that a plan suggests, or none if the store fails. -/
def suggested (s : Store) (faults : Faults) (limit : Value) (plan : Plan) :
    Except Failure (List Product) :=
  orNothing (match plan with
    | .single strategy => s.suggest faults strategy limit
    | .mixed => s.mixed faults limit)

end Store

end Storefront
