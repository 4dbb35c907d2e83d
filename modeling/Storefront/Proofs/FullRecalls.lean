import Storefront.Proofs.Degrading
import Storefront.Proofs.Ordering

/-!
# Recalls that leave nothing out

A recall whose limit admits every product of the store leaves out no product that meets its condition.
It succeeds as soon as the rows that it goes through read back.

* `Store.IsEligible`: the rows that a signal speaks for
* `Store.exists_recallBy`: a recall that goes through rows that read back
* `Store.exists_row_of_product?`: what is found under an id is the product of a row
-/

namespace Storefront

namespace Store

variable {s : Store} {signal : Signal} {source : Product} {limit : Int}

/-- A row of the store is in stock, has another id than the source and meets the condition of the
signal. -/
structure IsEligible (s : Store) (signal : Signal) (source : Product) (row : Row) : Prop where
  stored : row ∈ s.table.rows
  inStock : row.inStock = true
  ne_source : row.id ≠ source.id
  matches_source : signal.Matches s.memberships source row

/-- The rows that a query for eligible products goes through are the eligible ones. -/
theorem mem_matching_eligible {p : Predicate} {keys : List SortKey}
    (hsearch : signal.search? source = some (p, keys)) {row : Row} :
    row ∈ s.matching (eligible p source) ↔ s.IsEligible signal source row := by
  have hcondition : p.holds s.table s.memberships row = true ↔
      signal.Matches s.memberships source row := by
    rw [← Signal.exists_search_iff (t := s.table), hsearch]
    simp
  rw [matching, List.mem_filter, holds_eligible, hcondition]
  exact ⟨fun ⟨stored, matches_source, inStock, ne_source⟩ =>
      ⟨stored, inStock, ne_source, matches_source⟩,
    fun h => ⟨h.stored, h.matches_source, h.inStock, h.ne_source⟩⟩

/-- A query that admits every product gives those of all rows that match. -/
theorem exists_query_matching {p : Predicate} {keys : List SortKey}
    (hcheck : p.check s.table = .ok ()) (hkeys : ∀ key ∈ keys, ∃ column, key.IsTotal column)
    (hlimit : (s.productCount : Int) ≤ limit)
    (hread : ∀ row ∈ s.matching p, ∃ product, row.toProduct = .ok product) :
    ∃ products, s.query .none ⟨p, keys, .int limit⟩ = .ok products ∧
      ∀ product, product ∈ products ↔ ∃ row ∈ s.matching p, row.toProduct = .ok product := by
  obtain ⟨ordered, hordered⟩ := exists_orderRows hkeys (s.matching p)
  have hperm := perm_of_orderRows hordered
  have hlength : ordered.length ≤ limit.toNat := by
    have hmatching : (s.matching p).length ≤ s.productCount := List.length_filter_le _ _
    rw [hperm.length_eq]
    omega
  obtain ⟨products, hproducts⟩ := exists_mapM_eq_ok fun row hrow =>
    hread row (hperm.mem_iff.1 hrow)
  refine ⟨products, ?_, fun product => ?_⟩
  · show s.query .none ⟨p, keys, (some limit).elim .null .int⟩ = .ok products
    refine query_eq_ok_of_limit.2 ⟨rfl, hcheck, ordered, hordered, ?_⟩
    show (ordered.take limit.toNat).mapM Row.toProduct = .ok products
    rw [List.take_of_length_le hlength]
    exact hproducts
  · constructor
    · intro hproduct
      obtain ⟨row, hrow, hread⟩ := mem_of_mapM_eq_ok hproducts hproduct
      exact ⟨row, hperm.mem_iff.1 hrow, hread⟩
    · rintro ⟨row, hrow, hread⟩
      obtain ⟨found, hfound, hread'⟩ := exists_of_mapM_eq_ok hproducts (hperm.mem_iff.2 hrow)
      cases hread.symm.trans hread'
      exact hfound

/-- A recall that admits every product gives those of all eligible rows, if these read back. -/
theorem exists_recallBy (hlimit : (s.productCount : Int) ≤ limit)
    (hread : ∀ row, s.IsEligible signal source row → ∃ product, row.toProduct = .ok product) :
    ∃ rows, s.recallBy .none signal source (.int limit) = .ok rows ∧
      ∀ row ∈ s.table.rows, ∀ product, row.toProduct = .ok product →
        (⟨product, signal, signal.weight⟩ ∈ rows ↔ s.IsEligible signal source row) := by
  cases hsearch : signal.search? source with
  | none =>
    refine ⟨[], ?_, fun row _ product _ => iff_of_false List.not_mem_nil fun heligible => ?_⟩
    · unfold recallBy
      rw [hsearch]
      rfl
    · obtain ⟨p, keys, hsome, -⟩ :=
        (Signal.exists_search_iff (t := s.table)).2 heligible.matches_source
      cases hsearch.symm.trans hsome
  | some search =>
    obtain ⟨p, keys⟩ := search
    by_cases hpositive : limit ≤ 0
    · -- nothing is asked for, and there is nothing that could be given
      have hnone : Limit.isNone (.int limit) = .ok true := by
        rw [isNone_int, decide_eq_true hpositive]
      have hempty : s.table.rows = [] := List.length_eq_zero_iff.1 (by
        unfold productCount at hlimit
        omega)
      refine ⟨[], ?_, fun row hrow => ?_⟩
      · unfold recallBy
        rw [hsearch]
        dsimp only
        rw [hnone]
        rfl
      · rw [hempty] at hrow
        cases hrow
    · have hsome : Limit.isNone (.int limit) = .ok false := by
        rw [isNone_int, decide_eq_false hpositive]
      obtain ⟨products, hproducts, hmem⟩ := exists_query_matching
        (check_eligible (Signal.check_search hsearch) source) (Signal.isTotal_search hsearch)
        hlimit fun row hrow => hread row ((mem_matching_eligible hsearch).1 hrow)
      refine ⟨products.map fun product => ⟨product, signal, signal.weight⟩, ?_,
        fun row hrow product hproduct => ?_⟩
      · unfold recallBy
        rw [hsearch]
        dsimp only
        rw [hsome]
        show (do let products ← s.query .none _; _) = _
        rw [hproducts]
        rfl
      · have hmatch : (⟨product, signal, signal.weight⟩ : Match) ∈
            products.map (fun product => ⟨product, signal, signal.weight⟩) ↔
              product ∈ products := by
          simp
        rw [hmatch, hmem]
        constructor
        · rintro ⟨other, hother, hread'⟩
          obtain rfl := s.table.eq_of_id_eq (List.mem_filter.1 hother).1 hrow
            ((Row.id_of_toProduct hread').symm.trans (Row.id_of_toProduct hproduct))
          exact (mem_matching_eligible hsearch).1 hother
        · exact fun heligible =>
            ⟨row, (mem_matching_eligible hsearch).2 heligible, hproduct⟩

/-- What is found under an id is the product of the row with that id. -/
theorem exists_row_of_product? {id : Int} {product : Product}
    (h : s.product? (.int id) = .ok (some product)) :
    ∃ row ∈ s.table.rows, row.id = id ∧ row.toProduct = .ok product := by
  rcases s.product?_int id with ⟨row, hrow, hid, hlookup⟩ | ⟨-, hlookup⟩
  · rw [hlookup] at h
    obtain ⟨found, hfound, hsome⟩ := map_eq_ok.1 h
    cases hsome
    exact ⟨row, hrow, hid, hfound⟩
  · cases hlookup.symm.trans h

end Store

end Storefront
