import Mathlib.Algebra.Order.Ring.Rat
import Mathlib.Data.Finset.Dedup
import Storefront.FirstOccurrences
import Storefront.Proofs.Tallies

/-!
# Aggregation as a fold for each product

Rows are aggregated in one pass over all of them, which keeps a tally for each product, and a second
pass that adds the bonuses. What comes out for a product can be told from its own rows: the pass
over all rows is, for each product, a pass over the rows of the product.

* `WeighedRow`, `aggregate`: rows aggregated in some arithmetic
* `gather_eq_aggregate`: candidates are what aggregating in doubles gives
* `addTo_of_not_mem`, `addTo_of_mem`: what one row changes
* `foldl_addTo`: what the first pass has built, by induction on the rows
* `IsFold`, `mem_aggregate`: a tally is among those of all rows if its own rows fold to it
* `aggregate_folds`: exact aggregation, and the rows that a candidate depends on
-/

namespace Storefront

/-! ## Rows in some arithmetic -/

namespace Tally

/-- A row that counts for a product, with a weight in some arithmetic. -/
structure WeighedRow (α : Type) where
  product : Product
  signal : Signal
  weight : α

/-- A recalled product as a row. -/
def WeighedRow.ofMatch (m : Match) : WeighedRow Binary64 := ⟨m.product, m.signal, m.weight⟩

/-- The rows of a product. -/
def ownRows {α : Type} (id : Int) (rows : List (WeighedRow α)) : List (WeighedRow α) :=
  rows.filter fun r => r.product.id = id

section Aggregation

variable {α : Type} (arith : Arithmetic α)

/-- Adds a row to the tally of its product, or starts a new one. -/
def addTo (r : WeighedRow α) : List (Tally α) → List (Tally α)
  | [] => [⟨r.product, [r.signal], arith.add arith.zero r.weight⟩]
  | t :: rest =>
    if t.product.id = r.product.id then
      ⟨t.product, addSignal r.signal t.signals, arith.add t.score r.weight⟩ :: rest
    else t :: addTo r rest

/-- A tally with the bonus of its product. -/
def withBonus (bonus : Product → α) (t : Tally α) : Tally α :=
  { t with score := arith.add t.score (bonus t.product) }

/-- The tallies of rows: the rows are added one after the other, and then the bonuses are. -/
def aggregate (bonus : Product → α) (rows : List (WeighedRow α)) : List (Tally α) :=
  (rows.foldl (fun tallies r => addTo arith r tallies) []).map (withBonus arith bonus)

end Aggregation

theorem addRow_eq_addTo (m : Match) (tallies : List (Tally Binary64)) :
    addRow .doubles (·.weight) m tallies = addTo .doubles (.ofMatch m) tallies := by
  induction tallies with
  | nil => rfl
  | cons t rest ih =>
    rw [addRow, addTo, ih]
    rfl

/-- The candidates of recalled products are what aggregating them in doubles gives. -/
theorem gather_eq_aggregate (recalled : List Match) : Storefront.gather recalled =
    (aggregate .doubles qualityBonus (recalled.map .ofMatch)).map toCandidate := by
  have hrows : ofRows .doubles (·.weight) recalled =
      (recalled.map WeighedRow.ofMatch).foldl (fun tallies r => addTo .doubles r tallies) [] := by
    simp only [ofRows, List.foldl_map, addRow_eq_addTo]
  rw [gather_eq_tallies, Tally.gather, hrows]
  rfl

/-! ## One row -/

section OneRow

variable {α : Type} {arith : Arithmetic α} {tallies : List (Tally α)} {r : WeighedRow α}

/-- A row of a product without a tally starts one, behind the others. -/
theorem addTo_of_not_mem (h : r.product.id ∉ tallies.map (·.product.id)) :
    addTo arith r tallies =
      tallies ++ [⟨r.product, [r.signal], arith.add arith.zero r.weight⟩] := by
  induction tallies with
  | nil => rfl
  | cons t rest ih =>
    rw [List.map_cons, List.mem_cons, not_or] at h
    rw [addTo, if_neg fun hid => h.1 hid.symm, ih h.2, List.cons_append]

/-- A row of a product with a tally changes that one alone. -/
theorem addTo_of_mem (hnodup : (tallies.map (·.product.id)).Nodup)
    (h : r.product.id ∈ tallies.map (·.product.id)) :
    addTo arith r tallies = tallies.map fun t =>
      if t.product.id = r.product.id then
        ⟨t.product, addSignal r.signal t.signals, arith.add t.score r.weight⟩
      else t := by
  induction tallies with
  | nil => cases h
  | cons t rest ih =>
    obtain ⟨ht, hrest⟩ := List.nodup_cons.1 hnodup
    rw [addTo, List.map_cons]
    by_cases hid : t.product.id = r.product.id
    · rw [if_pos hid, if_pos hid]
      congr 1
      refine (List.map_id rest).symm.trans (List.map_congr_left fun u hu => ?_)
      exact (if_neg fun hsame => ht (List.mem_map.2 ⟨u, hu, hsame.trans hid.symm⟩)).symm
    · rw [if_neg hid, if_neg hid]
      rcases List.mem_cons.1 h with heq | hmem
      · exact absurd heq.symm hid
      · rw [ih hrest hmem]

end OneRow

/-! ## All rows -/

section AllRows

variable {α : Type} (arith : Arithmetic α) (bonus : Product → α) {rows others : List (WeighedRow α)}

theorem ownRows_append (rows : List (WeighedRow α)) (r : WeighedRow α) (id : Int) :
    ownRows id (rows ++ [r]) =
      if r.product.id = id then ownRows id rows ++ [r] else ownRows id rows := by
  unfold ownRows
  rw [List.filter_append]
  split <;> simp [*]

theorem ownRows_eq_nil {id : Int} (h : id ∉ rows.map (·.product.id)) : ownRows id rows = [] := by
  refine List.filter_eq_nil_iff.2 fun r hr hid => h ?_
  exact List.mem_map.2 ⟨r, hr, of_decide_eq_true hid⟩

/-- What rows of one product fold to, before its bonus. -/
def ofOwn (product : Product) (own : List (WeighedRow α)) : Tally α :=
  ⟨product, firstsBy id (own.map (·.signal)), (own.map (·.weight)).foldl arith.add arith.zero⟩

/-- One more row of its own. -/
theorem ofOwn_append (product : Product) (own : List (WeighedRow α)) (r : WeighedRow α) :
    ofOwn arith product (own ++ [r]) =
      ⟨product, addSignal r.signal (ofOwn arith product own).signals,
        arith.add (ofOwn arith product own).score r.weight⟩ := by
  have hsignals : addSignal r.signal (firstsBy id (own.map (·.signal))) =
      firstsBy id (own.map (·.signal) ++ [r.signal]) := by
    rw [← appendNew_firstsBy]
    unfold addSignal appendNew
    congr 2
    rw [List.contains_eq_any_beq]
    congr 1
    funext signal
    exact Bool.beq_comm.trans (beq_eq_decide _ _)
  simp only [ofOwn, List.map_append, List.map_singleton, List.foldl_append, hsignals]
  rfl

/-- For each product, in the order of first rows, what the rows of the product fold to. -/
def ofOwns (rows : List (WeighedRow α)) : List (Tally α) :=
  (firstsBy (fun r => r.product.id) rows).map fun r =>
    ofOwn arith r.product (ownRows r.product.id rows)

theorem ids_ofOwns (rows : List (WeighedRow α)) : (ofOwns arith rows).map (·.product.id) =
    (firstsBy (fun r => r.product.id) rows).map (·.product.id) := List.map_map

theorem mem_ids_ofOwns {id : Int} :
    id ∈ (ofOwns arith rows).map (·.product.id) ↔ id ∈ rows.map (·.product.id) := by
  rw [ids_ofOwns]
  exact mem_keys_firstsBy

/-- One more row of a product that has a tally. -/
theorem ofOwns_append_of_mem {r : WeighedRow α} (h : r.product.id ∈ rows.map (·.product.id)) :
    ofOwns arith (rows ++ [r]) = addTo arith r (ofOwns arith rows) := by
  have hnodup : ((ofOwns arith rows).map (·.product.id)).Nodup := by
    rw [ids_ofOwns]
    exact nodup_firstsBy rows
  have hnew : (firstsBy (fun r : WeighedRow α => r.product.id) [r]).filter
      (fun r => r.product.id ∉ rows.map (·.product.id)) = [] := by
    simpa [firstsBy] using h
  rw [addTo_of_mem hnodup ((mem_ids_ofOwns arith).2 h), ofOwns, ofOwns, firstsBy_append, hnew,
    List.append_nil, List.map_map]
  refine List.map_congr_left fun first _ => ?_
  rw [Function.comp_apply, ownRows_append]
  by_cases hid : first.product.id = r.product.id
  · rw [if_pos hid.symm, ofOwn_append]
    exact (if_pos hid).symm
  · rw [if_neg (Ne.symm hid)]
    exact (if_neg hid).symm

/-- A first row of a product, whose tally comes last. -/
theorem ofOwns_append_of_not_mem {r : WeighedRow α} (h : r.product.id ∉ rows.map (·.product.id)) :
    ofOwns arith (rows ++ [r]) = addTo arith r (ofOwns arith rows) := by
  have hnew : (firstsBy (fun r : WeighedRow α => r.product.id) [r]).filter
      (fun r => r.product.id ∉ rows.map (·.product.id)) = [r] := by
    simpa [firstsBy] using h
  rw [addTo_of_not_mem (mt (mem_ids_ofOwns arith).1 h), ofOwns, ofOwns, firstsBy_append, hnew,
    List.map_append, List.map_singleton, ownRows_append, if_pos rfl, ownRows_eq_nil h]
  congr 1
  refine List.map_congr_left fun first hfirst => ?_
  rw [ownRows_append, if_neg]
  intro hid
  exact h (hid ▸ List.mem_map.2 ⟨first, (firstsBy_sublist rows).subset hfirst, rfl⟩)

/-- The first pass builds what the rows of each product fold to. -/
theorem foldl_addTo (rows : List (WeighedRow α)) :
    rows.foldl (fun tallies r => addTo arith r tallies) [] = ofOwns arith rows := by
  induction rows using List.reverseRecOn with
  | nil => rfl
  | append_singleton rows r ih =>
    rw [List.foldl_append, List.foldl_cons, List.foldl_nil, ih]
    by_cases hknown : r.product.id ∈ rows.map (·.product.id)
    · exact (ofOwns_append_of_mem arith hknown).symm
    · exact (ofOwns_append_of_not_mem arith hknown).symm

/-- The products are those of the first rows. -/
theorem products_aggregate (rows : List (WeighedRow α)) :
    (aggregate arith bonus rows).map (·.product) =
      (firstsBy (fun r => r.product.id) rows).map (·.product) := by
  rw [aggregate, foldl_addTo, ofOwns, List.map_map, List.map_map]
  rfl

/-- There is one tally for each product, in the order in which the products first occur. -/
theorem ids_aggregate (rows : List (WeighedRow α)) :
    (aggregate arith bonus rows).map (·.product.id) = firstsBy id (rows.map (·.product.id)) := by
  have hids := congrArg (List.map Product.id) (products_aggregate arith bonus rows)
  rw [List.map_map, List.map_map] at hids
  exact hids.trans (map_firstsBy rows)

/-! ## Own rows -/

/-- A tally is what rows fold to: it has the product of the first row, the signals of all of them,
and a score to which they were added one after the other, and the bonus once. -/
structure IsFold (own : List (WeighedRow α)) (t : Tally α) : Prop where
  product_eq : own.head?.map (·.product) = some t.product
  signals_eq : t.signals = firstsBy id (own.map (·.signal))
  score_eq : t.score =
    arith.add ((own.map (·.weight)).foldl arith.add arith.zero) (bonus t.product)

/-- Whether a tally is among those of all rows can be told from the rows of its product. -/
theorem mem_aggregate {t : Tally α} :
    t ∈ aggregate arith bonus rows ↔ IsFold arith bonus (ownRows t.product.id rows) t := by
  rw [aggregate, foldl_addTo, ofOwns, List.map_map, List.mem_map]
  constructor
  · rintro ⟨first, hfirst, rfl⟩
    refine ⟨?_, rfl, rfl⟩
    have hhead : (ownRows first.product.id rows).head? = some first := by
      rw [ownRows, List.head?_filter]
      exact mem_firstsBy_iff.1 hfirst
    exact congrArg (Option.map (·.product)) hhead
  · rintro ⟨hproduct, hsignals, hscore⟩
    obtain ⟨first, hfirst, hsame⟩ := Option.map_eq_some_iff.1 hproduct
    rw [← hsame, ownRows, List.head?_filter] at hfirst
    refine ⟨first, mem_firstsBy_iff.2 hfirst, ?_⟩
    show withBonus arith bonus (ofOwn arith first.product (ownRows first.product.id rows)) = t
    rw [hsame]
    exact congr (congrArg (mk t.product) hsignals.symm) hscore.symm

/-- Rows of other products do not count for a product. -/
theorem mem_aggregate_congr {id : Int} (h : ownRows id others = ownRows id rows)
    {t : Tally α} (ht : t.product.id = id) :
    t ∈ aggregate arith bonus others ↔ t ∈ aggregate arith bonus rows := by
  rw [mem_aggregate, mem_aggregate, ht, h]

end AllRows

/-- Whether there is a candidate can be told from the recalls of its product. -/
theorem mem_gather_iff {recalled : List Match} {c : Candidate} : c ∈ Storefront.gather recalled ↔
    IsFold .doubles qualityBonus ((rowsOf c.product.id recalled).map .ofMatch)
      ⟨c.product, c.signals, c.score⟩ := by
  have hrows : (rowsOf c.product.id recalled).map .ofMatch =
      ownRows c.product.id (recalled.map .ofMatch) := by
    rw [ownRows, List.filter_map]
    rfl
  rw [gather_eq_aggregate, hrows]
  constructor
  · intro h
    obtain ⟨t, ht, rfl⟩ := List.mem_map.1 h
    exact (mem_aggregate _ _).1 ht
  · intro h
    exact List.mem_map.2 ⟨⟨c.product, c.signals, c.score⟩, (mem_aggregate _ _).2 h, rfl⟩

/-! ## Exact arithmetic -/

section Exact

variable {α : Type} {arith : Arithmetic α} {bonus : Product → α}
  {rows others own : List (WeighedRow α)} {t u : Tally α}

/-- The product of a tally is that of a row. -/
theorem IsFold.exists_row (h : IsFold arith bonus own t) : ∃ r ∈ own, r.product = t.product := by
  obtain ⟨r, hr, hproduct⟩ := Option.map_eq_some_iff.1 h.product_eq
  exact ⟨r, List.mem_of_head? hr, hproduct⟩

/-- The signals of a tally are those of its rows. -/
theorem IsFold.mem_signals (h : IsFold arith bonus own t) {signal : Signal} :
    signal ∈ t.signals ↔ ∃ r ∈ own, r.signal = signal := by
  rw [h.signals_eq, mem_firstsBy_id, List.mem_map]

/-- What a tally tells, its signals as a set. -/
def outcome (t : Tally α) : Product × Finset Signal × α := (t.product, t.signals.toFinset, t.score)

/-- Rows of one product carry that product. -/
def WeighedRow.AreOfProducts (rows : List (WeighedRow α)) : Prop :=
  ∀ r ∈ rows, ∀ s ∈ rows, r.product.id = s.product.id → r.product = s.product

theorem nodup_outcomes (rows : List (WeighedRow α)) :
    ((aggregate arith bonus rows).map outcome).Nodup := by
  have hids : (((aggregate arith bonus rows).map outcome).map fun o => o.1.id).Nodup := by
    have hkeys := nodup_firstsBy_id (rows.map (·.product.id))
    rw [← ids_aggregate arith bonus] at hkeys
    rw [List.map_map]
    exact hkeys
  exact hids.of_map _

variable [AddCommGroup α]

/-- In exact arithmetic a score is a sum. -/
theorem IsFold.score_eq_sum (h : IsFold (.ofGroup α) bonus own t) :
    t.score = (own.map (·.weight)).sum + bonus t.product := by
  rw [h.score_eq, List.sum_eq_foldl]
  rfl

/-- The order of its rows does not count for a product. -/
theorem IsFold.outcome_eq (ht : IsFold (.ofGroup α) bonus own t) {reordered : List (WeighedRow α)}
    (hu : IsFold (.ofGroup α) bonus reordered u) (hperm : own.Perm reordered)
    (hproduct : t.product = u.product) : t.outcome = u.outcome := by
  have hsignals : t.signals.toFinset = u.signals.toFinset := by
    ext signal
    rw [List.mem_toFinset, List.mem_toFinset, ht.mem_signals, hu.mem_signals]
    simp only [hperm.mem_iff]
  have hscore : t.score = u.score := by
    rw [ht.score_eq_sum, hu.score_eq_sum, hproduct, (hperm.map _).sum_eq]
  simp only [outcome, hproduct, hsignals, hscore]

theorem mem_outcomes_of_perm (hperm : others.Perm rows) (hproducts : WeighedRow.AreOfProducts rows)
    (ht : t ∈ aggregate (.ofGroup α) bonus others) :
    t.outcome ∈ (aggregate (.ofGroup α) bonus rows).map outcome := by
  have hids : t.product.id ∈ (aggregate (.ofGroup α) bonus rows).map (·.product.id) := by
    rw [ids_aggregate, mem_firstsBy_id, ← (hperm.map _).mem_iff, ← mem_firstsBy_id,
      ← ids_aggregate (.ofGroup α) bonus]
    exact List.mem_map_of_mem ht
  obtain ⟨u, hu, hid⟩ := List.mem_map.1 hids
  have hfoldt := (mem_aggregate _ _).1 ht
  have hfoldu := (mem_aggregate _ _).1 hu
  have hproduct : t.product = u.product := by
    obtain ⟨r, hr, hrt⟩ := hfoldt.exists_row
    obtain ⟨s, hs, hsu⟩ := hfoldu.exists_row
    have hrows := hproducts r (hperm.mem_iff.1 (List.mem_filter.1 hr).1) s (List.mem_filter.1 hs).1
    rw [hrt, hsu] at hrows
    exact hrows hid.symm
  refine List.mem_map.2 ⟨u, hu, (hfoldt.outcome_eq hfoldu ?_ hproduct).symm⟩
  rw [hid]
  exact hperm.filter _

/-- The order of all rows counts only for the order of what comes out. -/
theorem outcomes_perm (hperm : others.Perm rows) (hproducts : WeighedRow.AreOfProducts rows) :
    ((aggregate (.ofGroup α) bonus others).map outcome).Perm
      ((aggregate (.ofGroup α) bonus rows).map outcome) := by
  have hothers : WeighedRow.AreOfProducts others := fun r hr s hs =>
    hproducts r (hperm.mem_iff.1 hr) s (hperm.mem_iff.1 hs)
  rw [List.perm_ext_iff_of_nodup (nodup_outcomes _) (nodup_outcomes _)]
  intro o
  constructor
  · intro ho
    obtain ⟨t, ht, rfl⟩ := List.mem_map.1 ho
    exact mem_outcomes_of_perm hperm hproducts ht
  · intro ho
    obtain ⟨t, ht, rfl⟩ := List.mem_map.1 ho
    exact mem_outcomes_of_perm hperm.symm hothers ht

end Exact

/-- Tallies are a fold of rows for each product: there is one for each product, in the order in
which the products first occur, with the product of its first row and the signals of its rows, and
with the sum of their weights and the bonus of the product. -/
structure FoldByProduct (bonus : Product → ℚ) (rows : List (WeighedRow ℚ))
    (tallies : List (Tally ℚ)) : Prop where
  ids_eq : tallies.map (·.product.id) = firstsBy id (rows.map (·.product.id))
  product_eq : ∀ t ∈ tallies,
    (rows.find? fun r => r.product.id = t.product.id).map (·.product) = some t.product
  nodup_signals : ∀ t ∈ tallies, t.signals.Nodup
  mem_signals : ∀ t ∈ tallies, ∀ signal,
    signal ∈ t.signals ↔ ∃ r ∈ rows, r.product.id = t.product.id ∧ r.signal = signal
  score_eq : ∀ t ∈ tallies,
    t.score = ((ownRows t.product.id rows).map (·.weight)).sum + bonus t.product

/-- Aggregating is a fold for each product. So rows of other products play no part in a candidate,
and the order of all rows plays none but for the order of the candidates. This is about exact
weights, whatever bonuses products have. With doubles and the bonuses for quality the candidates are
those that are gathered, which do not depend on other products' rows either. -/
theorem aggregate_folds (bonus : Product → ℚ) (rows : List (WeighedRow ℚ)) :
    FoldByProduct bonus rows (aggregate (.ofGroup ℚ) bonus rows) ∧
      (∀ others id, ownRows id others = ownRows id rows →
        ∀ t : Tally ℚ, t.product.id = id → (t ∈ aggregate (.ofGroup ℚ) bonus others ↔
          t ∈ aggregate (.ofGroup ℚ) bonus rows)) ∧
      (∀ others : List (WeighedRow ℚ), others.Perm rows → WeighedRow.AreOfProducts rows →
        ((aggregate (.ofGroup ℚ) bonus others).map outcome).Perm
          ((aggregate (.ofGroup ℚ) bonus rows).map outcome)) ∧
      (∀ recalled : List Match, Storefront.gather recalled =
        (aggregate .doubles qualityBonus (recalled.map .ofMatch)).map toCandidate) ∧
      ∀ (recalled others : List Match) (id : Int), rowsOf id others = rowsOf id recalled →
        ∀ c : Candidate, c.product.id = id →
          (c ∈ Storefront.gather others ↔ c ∈ Storefront.gather recalled) := by
  refine ⟨⟨ids_aggregate _ _ rows, ?_, ?_, ?_, ?_⟩, ?_, ?_, gather_eq_aggregate, ?_⟩
  · intro t ht
    rw [← List.head?_filter]
    exact ((mem_aggregate _ _).1 ht).product_eq
  · intro t ht
    rw [((mem_aggregate _ _).1 ht).signals_eq]
    exact nodup_firstsBy_id _
  · intro t ht signal
    rw [((mem_aggregate _ _).1 ht).mem_signals]
    simp only [ownRows, List.mem_filter, decide_eq_true_eq, and_assoc]
  · intro t ht
    exact ((mem_aggregate _ _).1 ht).score_eq_sum
  · intro others id hrows t ht
    exact mem_aggregate_congr _ _ hrows ht
  · intro others hperm hproducts
    exact outcomes_perm hperm hproducts
  · intro recalled others id hrows c hc
    rw [mem_gather_iff, mem_gather_iff, hc, hrows]

end Tally

end Storefront
