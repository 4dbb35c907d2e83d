import Storefront.Recommend.Recall

/-!
# Scores and ranking

Recalled rows are gathered by product: a product's score is the sum of the weights of its rows, and
a bonus for good and many ratings. The ranking takes the highest scores first.

* `Candidate`, `gather`: the candidates of a list of rows
* `qualityBonus`: the bonus of a product
* `rank`: the best candidates
-/

namespace Storefront

/-- A product with the signals that recalled it and its score. -/
structure Candidate where
  product : Product
  signals : List Signal
  score : Binary64

/-! ## Bonus -/

/-- The rating from which on there is a bonus. -/
def highRating : Binary64 := Decimal.toBinary64 ⟨false, 45, -1⟩

/-- The bonus for a high rating. -/
def highRatingBonus : Binary64 := Decimal.toBinary64 ⟨false, 5, -1⟩

/-- The number of reviews from which on there is a bonus. -/
def manyReviews : Int := 50

/-- The bonus for many reviews. -/
def manyReviewsBonus : Binary64 := Decimal.toBinary64 ⟨false, 3, -1⟩

/-- The bonus of a product; what is not known earns nothing. -/
def qualityBonus (p : Product) : Binary64 :=
  let rated := if p.rating.any highRating.le then Binary64.zero.add highRatingBonus else .zero
  if p.reviewCount.any fun n => decide (manyReviews ≤ n) then rated.add manyReviewsBonus else rated

/-! ## Candidates -/

/-- Adds a signal to a list that holds each signal once. -/
def addSignal (signal : Signal) (signals : List Signal) : List Signal :=
  if signals.contains signal then signals else signals ++ [signal]

/-- Adds a row to the candidate of its product, or starts a new candidate. -/
def addMatch (m : Match) : List Candidate → List Candidate
  | [] => [⟨m.product, [m.signal], Binary64.zero.add m.weight⟩]
  | c :: rest =>
    if c.product.id = m.product.id then
      ⟨c.product, addSignal m.signal c.signals, c.score.add m.weight⟩ :: rest
    else c :: addMatch m rest

/-- The candidates of a list of rows, in the order in which their products first occur. -/
def gather (rows : List Match) : List Candidate :=
  (rows.foldl (fun candidates m => addMatch m candidates) []).map fun c =>
    { c with score := c.score.add (qualityBonus c.product) }

/-! ## Ranking -/

/-- A score stands before another one, or level with it. -/
def scoreBefore (a b : Binary64) : Bool := !a.lt b

/-- The candidates with the highest scores, up to a limit; equal scores keep their order. -/
def rank (candidates : List Candidate) (limit : Value) : Except Failure (List Candidate) := do
  if ← Limit.isNone limit then return []
  let sorted := sortBy (fun a b => scoreBefore a.score b.score) candidates
  return sorted.take (← Limit.takeCount limit)

/-- The names of a candidate's signals, in order. -/
def Candidate.reasons (c : Candidate) : List String :=
  (TagSet.ofList (c.signals.map Signal.name)).toList

/-- The decimal places of a score that is shown. -/
def shownPlaces : Nat := 4

/-- The score of a candidate as it is shown. -/
def Candidate.shownScore (c : Candidate) : Binary64 := c.score.roundTo shownPlaces

end Storefront
