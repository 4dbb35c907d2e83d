import Mathlib.Algebra.BigOperators.Group.List.Basic
import Storefront.Proofs.Scoring

/-!
# Tallies in exact arithmetic

Gathering adds weights up and looks at nothing that comes out. So it can be done in any arithmetic, and
which products have a score, and for which signals, does not depend on the arithmetic. In an exact one
the score of a product is a sum that does not depend on the order of its rows.

* `Arithmetic`, `Tally.gather`: rows gathered in some arithmetic
* `gather_eq_tallies`: the candidates of rows are what the arithmetic of doubles gives
* `Tally.contents_ofRows`: every arithmetic gives the same products and signals
* `Tally.total_addRow`: what one row adds
* `AreTallies`, `areTallies_gather`: what an exact arithmetic gives
-/

namespace Storefront

/-! ## Arithmetic -/

/-- A way to add up, from nothing on. -/
structure Arithmetic (α : Type) where
  zero : α
  add : α → α → α

namespace Arithmetic

/-- The arithmetic of doubles, which rounds. -/
def doubles : Arithmetic Binary64 := ⟨.zero, .add⟩

/-- The arithmetic of a group, which is exact. -/
def ofGroup (α : Type) [AddCommGroup α] : Arithmetic α := ⟨0, fun a b => a + b⟩

end Arithmetic

/-! ## Tallies -/

/-- A product with the signals that recalled it and its score in some arithmetic. -/
structure Tally (α : Type) where
  product : Product
  signals : List Signal
  score : α

namespace Tally

section Gathering

variable {α β : Type} (arith : Arithmetic α) (weight : Match → α)

/-- Adds a row to the tally of its product, or starts a new one. -/
def addRow (m : Match) : List (Tally α) → List (Tally α)
  | [] => [⟨m.product, [m.signal], arith.add arith.zero (weight m)⟩]
  | t :: rest =>
    if t.product.id = m.product.id then
      ⟨t.product, addSignal m.signal t.signals, arith.add t.score (weight m)⟩ :: rest
    else t :: addRow m rest

/-- The tallies of a list of rows, before any bonus. -/
def ofRows (rows : List Match) : List (Tally α) :=
  rows.foldl (fun tallies m => addRow arith weight m tallies) []

/-- The tallies of a list of rows, in the order in which their products first occur. -/
def gather (bonus : Product → α) (rows : List Match) : List (Tally α) :=
  (ofRows arith weight rows).map fun t => { t with score := arith.add t.score (bonus t.product) }

end Gathering

/-- A tally in doubles as a candidate. -/
def toCandidate (t : Tally Binary64) : Candidate := ⟨t.product, t.signals, t.score⟩

theorem map_toCandidate_addRow (m : Match) (tallies : List (Tally Binary64)) :
    (addRow .doubles (·.weight) m tallies).map toCandidate =
      addMatch m (tallies.map toCandidate) := by
  induction tallies with
  | nil => rfl
  | cons t rest ih =>
    rw [List.map_cons, addRow, addMatch, ← ih]
    show _ = if t.product.id = m.product.id then _ else _
    split <;> rfl

theorem map_toCandidate_ofRows (rows : List Match) :
    (ofRows .doubles (·.weight) rows).map toCandidate =
      rows.foldl (fun candidates m => addMatch m candidates) [] := by
  have hfold : rows.foldl (fun candidates m => addMatch m candidates) ([].map toCandidate) =
      (ofRows .doubles (·.weight) rows).map toCandidate :=
    List.foldl_hom _ fun tallies m => (map_toCandidate_addRow m tallies).symm
  exact hfold.symm

end Tally

/-- The candidates of rows are their tallies in doubles. -/
theorem gather_eq_tallies (rows : List Match) : gather rows =
    (Tally.gather .doubles (·.weight) qualityBonus rows).map Tally.toCandidate := by
  unfold gather Tally.gather
  rw [← Tally.map_toCandidate_ofRows, List.map_map, List.map_map]
  rfl

namespace Tally

section Contents

variable {α β : Type} (a : Arithmetic α) (b : Arithmetic β) (weight : Match → α)
  (other : Match → β)

/-- The arithmetic plays no part in which products have a tally, nor in their signals. -/
theorem contents_addRow {ts : List (Tally α)} {us : List (Tally β)} (m : Match)
    (h : ts.map (fun t => (t.product, t.signals)) = us.map fun u => (u.product, u.signals)) :
    (addRow a weight m ts).map (fun t => (t.product, t.signals)) =
      (addRow b other m us).map fun u => (u.product, u.signals) := by
  induction ts generalizing us with
  | nil =>
    cases us with
    | nil => rfl
    | cons => cases h
  | cons t ts ih =>
    cases us with
    | nil => cases h
    | cons u us =>
      obtain ⟨hfirst, hrest⟩ := List.cons_eq_cons.1 h
      obtain ⟨hproduct, hsignals⟩ := Prod.ext_iff.1 hfirst
      dsimp only at hproduct hsignals
      rw [addRow, addRow, hproduct]
      split
      · rw [List.map_cons, List.map_cons, hrest, hsignals]
      · rw [List.map_cons, List.map_cons, ih hrest, hproduct, hsignals]

theorem contents_ofRows (rows : List Match) :
    (ofRows a weight rows).map (fun t => (t.product, t.signals)) =
      (ofRows b other rows).map fun u => (u.product, u.signals) := by
  unfold ofRows
  generalize hts : ([] : List (Tally α)) = ts
  generalize hus : ([] : List (Tally β)) = us
  have hcontents : ts.map (fun t => (t.product, t.signals)) =
      us.map fun u => (u.product, u.signals) := by
    rw [← hts, ← hus]
    rfl
  clear hts hus
  induction rows generalizing ts us with
  | nil => exact hcontents
  | cons m rows ih => exact ih _ _ (contents_addRow a b weight other m hcontents)

end Contents

/-! ## Exact scores -/

section Exact

variable {α : Type} [AddCommGroup α] {id : Int}

/-- The scores of a product together. -/
def total (id : Int) (tallies : List (Tally α)) : α :=
  ((tallies.filter fun t => t.product.id = id).map (·.score)).sum

theorem total_cons (t : Tally α) (tallies : List (Tally α)) : total id (t :: tallies) =
    (if t.product.id = id then t.score else 0) + total id tallies := by
  unfold total
  rw [List.filter_cons]
  by_cases hid : t.product.id = id
  · simp [hid]
  · simp [hid]

/-- What the rows of a product count together. -/
def rowsWeight (weight : Match → α) (id : Int) (rows : List Match) : α :=
  ((rowsOf id rows).map weight).sum

theorem rowsWeight_cons (weight : Match → α) (m : Match) (rows : List Match) :
    rowsWeight weight id (m :: rows) =
      (if m.product.id = id then weight m else 0) + rowsWeight weight id rows := by
  unfold rowsWeight
  rw [rowsOf_cons]
  split <;> simp

/-- A row adds its weight to the score of its product. -/
theorem total_addRow (weight : Match → α) (m : Match) (tallies : List (Tally α)) :
    total id (addRow (.ofGroup α) weight m tallies) =
      total id tallies + if m.product.id = id then weight m else 0 := by
  induction tallies with
  | nil =>
    rw [addRow, total_cons]
    show (if m.product.id = id then 0 + weight m else 0) + total id [] = _
    rw [zero_add, add_comm]
  | cons t rest ih =>
    rw [addRow, total_cons]
    by_cases hsame : t.product.id = m.product.id
    · rw [if_pos hsame, total_cons, hsame]
      show (if m.product.id = id then t.score + weight m else 0) + total id rest = _
      split
      · exact add_right_comm _ _ _
      · simp
    · rw [if_neg hsame, total_cons, ih, add_assoc]

theorem total_foldl_addRow (weight : Match → α) (id : Int) (rows : List Match)
    (tallies : List (Tally α)) :
    total id (rows.foldl (fun tallies m => addRow (.ofGroup α) weight m tallies) tallies) =
      total id tallies + rowsWeight weight id rows := by
  induction rows generalizing tallies with
  | nil => simp [rowsWeight, rowsOf]
  | cons m rows ih => rw [List.foldl_cons, ih, total_addRow, rowsWeight_cons, add_assoc]

/-- Where products do not repeat, a score is all there is of its product. -/
theorem total_of_mem {tallies : List (Tally α)} (hnodup : (tallies.map (·.product.id)).Nodup)
    {t : Tally α} (ht : t ∈ tallies) : total t.product.id tallies = t.score := by
  induction tallies with
  | nil => cases ht
  | cons u rest ih =>
    obtain ⟨hu, hrest⟩ := List.nodup_cons.1 hnodup
    rw [total_cons]
    rcases List.mem_cons.1 ht with rfl | ht
    · have hothers : rest.filter (fun u => u.product.id = t.product.id) = [] := by
        refine List.filter_eq_nil_iff.2 fun u hmem hid => hu ?_
        exact List.mem_map.2 ⟨u, hmem, of_decide_eq_true hid⟩
      simp [total, hothers]
    · have hne : u.product.id ≠ t.product.id := fun hid => hu (List.mem_map.2 ⟨t, ht, hid.symm⟩)
      rw [if_neg hne, zero_add]
      exact ih hrest ht

end Exact

end Tally

/-! ## What rows give -/

/-- Tallies are what rows give in exact arithmetic: there is one for each product of a row, and its
score is the bonus of the product and the sum of the weights of its rows. -/
structure AreTallies {α : Type} [AddCommGroup α] (weight : Match → α) (bonus : Product → α)
    (rows : List Match) (tallies : List (Tally α)) : Prop where
  nodup : (tallies.map (·.product.id)).Nodup
  mem_ids : ∀ id, id ∈ tallies.map (·.product.id) ↔ id ∈ rows.map (·.product.id)
  product_mem : ∀ t ∈ tallies, t.product ∈ rows.map (·.product)
  score_eq : ∀ t ∈ tallies, t.score = Tally.rowsWeight weight t.product.id rows + bonus t.product

/-- What is gathered in exact arithmetic is what the rows give. -/
theorem areTallies_gather {α : Type} [AddCommGroup α] (weight : Match → α) (bonus : Product → α)
    (rows : List Match) :
    AreTallies weight bonus rows (Tally.gather (.ofGroup α) weight bonus rows) := by
  have hgathered := gathered_rows rows
  have hproducts : (Tally.ofRows (.ofGroup α) weight rows).map (·.product) =
      (rows.foldl (fun candidates m => addMatch m candidates) []).map (·.product) := by
    have hcontents := congrArg (List.map Prod.fst) (Tally.contents_ofRows (.ofGroup α) .doubles
      weight (·.weight) rows)
    rw [List.map_map, List.map_map] at hcontents
    rw [← Tally.map_toCandidate_ofRows, List.map_map]
    exact hcontents
  have hids : (Tally.ofRows (.ofGroup α) weight rows).map (·.product.id) =
      (rows.foldl (fun candidates m => addMatch m candidates) []).map (·.product.id) := by
    have hmap := congrArg (List.map Product.id) hproducts
    rw [List.map_map, List.map_map] at hmap
    exact hmap
  have hnodup := hids ▸ hgathered.nodup
  have hsame : (Tally.gather (.ofGroup α) weight bonus rows).map (·.product.id) =
      (Tally.ofRows (.ofGroup α) weight rows).map (·.product.id) := by
    unfold Tally.gather
    rw [List.map_map]
    rfl
  refine ⟨hsame ▸ hnodup, fun id => ?_, fun t ht => ?_, fun t ht => ?_⟩
  · rw [hsame, hids]
    exact hgathered.mem_ids id
  all_goals obtain ⟨u, hu, rfl⟩ := List.mem_map.1 ht
  · obtain ⟨c, hc, hproduct⟩ := List.mem_map.1 (hproducts ▸ List.mem_map_of_mem hu)
    exact hproduct ▸ hgathered.product_mem c hc
  · have htotal := Tally.total_foldl_addRow weight u.product.id rows []
    have hscore : u.score = Tally.rowsWeight weight u.product.id rows :=
      (Tally.total_of_mem hnodup hu).symm.trans (htotal.trans (zero_add _))
    show u.score + bonus u.product = _
    rw [hscore]

end Storefront
