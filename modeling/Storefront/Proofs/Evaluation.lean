import Storefront.Catalog.Sync
import Storefront.Proofs.Answers
import Storefront.Proofs.RuleMeaning

/-!
# Evaluating rules

The ids that a predicate evaluates to are those of the rows that match it, in the order of the
table. For the predicate of a rule, these are the rows that satisfy the rule.

* `Store.matchingRows`: the rows that match a predicate
* `Store.eq_of_evaluate`, `Store.exists_evaluate`: what an evaluation gives, and when it gives it
* `Rule.evaluate_compile`: what the evaluation of a rule gives
-/

namespace Storefront

namespace Store

variable {s : Store} {faults : Faults} {p : Predicate} {ids : List Int}

/-- The rows that match a predicate. -/
def matchingRows (s : Store) (p : Predicate) : List Row :=
  s.table.rows.filter fun row => p.holds s.table s.memberships row

theorem pairwise_matchingRows (s : Store) (p : Predicate) :
    ((s.matchingRows p).map (·.id)).Pairwise (· < ·) :=
  List.pairwise_map.2 (s.table.ascending.sublist List.filter_sublist)

theorem evaluate_of_ne_matchNone (h : p ≠ .matchNone) :
    s.evaluate faults p = (s.query faults { predicate := p, orderBy := evaluationOrder }).map
      fun products => products.map (·.id) := by
  unfold evaluate
  split
  · exact absurd rfl h
  · rfl

/-- A predicate that can be decided selects the rows that match it, in the order of their ids. -/
theorem select_matchingRows (hcheck : p.check s.table = .ok ()) :
    s.table.select s.memberships { predicate := p, orderBy := evaluationOrder } =
      .ok (s.matchingRows p) :=
  Table.select_eq_ok.2 ⟨s.matchingRows p, none, hcheck,
    orderRows_byId (s.table.ascending.sublist List.filter_sublist), rfl, rfl⟩

/-- An evaluation that succeeds gives the ids of the rows that match. -/
theorem eq_of_evaluate (hcheck : p.check s.table = .ok ()) (h : s.evaluate faults p = .ok ids) :
    ids = (s.matchingRows p).map (·.id) := by
  by_cases hp : p = .matchNone
  · subst hp
    cases h
    have hnone : s.matchingRows .matchNone = [] := List.filter_eq_nil_iff.2 fun _ _ => by
      simp [Predicate.holds]
    rw [hnone]
    rfl
  · rw [evaluate_of_ne_matchNone hp, map_eq_ok] at h
    obtain ⟨products, hproducts, rfl⟩ := h
    unfold query at hproducts
    split at hproducts
    · cases hproducts
    · obtain ⟨rows, hrows, hproducts⟩ := Table.query_eq_ok.1 hproducts
      cases (select_matchingRows hcheck).symm.trans hrows
      exact map_eq_of_mapM_eq_ok (fun _ _ => Row.id_of_toProduct) hproducts

/-- A predicate that can be decided is evaluated if the scan does not fail and every row that
matches reads back as a product. -/
theorem exists_evaluate (hcheck : p.check s.table = .ok ()) (hscan : faults.scan p = none)
    (hread : ∀ row ∈ s.matchingRows p, ∃ product, row.toProduct = .ok product) :
    ∃ ids, s.evaluate faults p = .ok ids := by
  by_cases hp : p = .matchNone
  · subst hp
    exact ⟨[], rfl⟩
  · obtain ⟨products, hproducts⟩ := exists_mapM_eq_ok hread
    refine ⟨products.map (·.id), ?_⟩
    rw [evaluate_of_ne_matchNone hp]
    have hquery : s.query faults { predicate := p, orderBy := evaluationOrder } = .ok products := by
      unfold query
      rw [hscan]
      exact Table.query_eq_ok.2 ⟨_, select_matchingRows hcheck, hproducts⟩
    rw [hquery]
    rfl

/-- Faults that leave the scan alone make no difference to an evaluation that succeeds. -/
theorem evaluate_of_scan_eq_none {others : Faults} (h : s.evaluate faults p = .ok ids)
    (hscan : others.scan p = none) : s.evaluate others p = .ok ids := by
  by_cases hp : p = .matchNone
  · subst hp
    exact h
  · rw [evaluate_of_ne_matchNone hp] at h ⊢
    unfold query at h ⊢
    rw [hscan]
    dsimp only at h
    cases hfaults : faults.scan p with
    | some failure =>
      rw [hfaults] at h
      cases h
    | none =>
      rw [hfaults] at h
      exact h

/-- What a compiled rule evaluates to depends on the table alone. -/
theorem evaluate_eq_of_table_eq {rule : Value} {warnings : List Warning} {other : Store}
    (h : Rule.compile rule = .ok (p, warnings)) (htable : other.table = s.table) :
    other.evaluate faults p = s.evaluate faults p := by
  have hholds : ∀ row, p.holds s.table other.memberships row =
      p.holds s.table s.memberships row := by
    intro row
    exact Bool.eq_iff_iff.2 ((Rule.holds_compile h).trans (Rule.holds_compile h).symm)
  have hselect : ∀ keys limit, s.table.select other.memberships ⟨p, keys, limit⟩ =
      s.table.select s.memberships ⟨p, keys, limit⟩ := by
    intro keys limit
    unfold Table.select
    simp only [hholds]
  by_cases hp : p = .matchNone
  · subst hp
    rfl
  · rw [evaluate_of_ne_matchNone hp, evaluate_of_ne_matchNone hp]
    unfold query Table.query
    simp only [htable, hselect]

end Store

namespace Rule

variable {rule : Value} {p : Predicate} {warnings : List Warning}

/-- Evaluating a compiled rule gives the ids of the rows that satisfy the rule, in strictly
ascending order, as soon as those rows read back as products. -/
theorem evaluate_compile (s : Store) (h : compile rule = .ok (p, warnings))
    (hread : ∀ row ∈ s.table.rows, IsSatisfiedBy row rule → ∃ product, row.toProduct = .ok product) :
    ∃ ids, s.evaluate .none p = .ok ids ∧ ids.Pairwise (· < ·) ∧
      ∀ id, id ∈ ids ↔ ∃ row ∈ s.table.rows, row.id = id ∧ IsSatisfiedBy row rule := by
  have hmatching : ∀ row, row ∈ s.matchingRows p ↔ row ∈ s.table.rows ∧ IsSatisfiedBy row rule := by
    intro row
    rw [← holds_compile h]
    exact List.mem_filter
  obtain ⟨ids, hids⟩ := Store.exists_evaluate (check_compile h) (show Faults.none.scan p = none from rfl)
    fun row hrow => hread row ((hmatching row).1 hrow).1 ((hmatching row).1 hrow).2
  have heq := Store.eq_of_evaluate (check_compile h) hids
  refine ⟨ids, hids, ?_, fun id => ?_⟩
  · rw [heq]
    exact s.pairwise_matchingRows p
  · rw [heq, List.mem_map]
    constructor
    · intro hexists
      obtain ⟨row, hrow, rfl⟩ := hexists
      exact ⟨row, ((hmatching row).1 hrow).1, rfl, ((hmatching row).1 hrow).2⟩
    · intro hexists
      obtain ⟨row, hmem, rfl, hsatisfied⟩ := hexists
      exact ⟨row, (hmatching row).2 ⟨hmem, hsatisfied⟩, rfl⟩

end Rule

/-- Three products of one vendor, the last of which is out of stock. -/
def Table.acme : Table where
  rows := [{ id := 1, vendor := some (.text "Acme"), tags := "lamp" },
    { id := 2, vendor := some (.text "Acme"), tags := "lamp, sale" },
    { id := 3, vendor := some (.text "Acme"), inStock := false }]
  ascending := by simp
  normal := by
    refine ⟨none, fun row hrow => ?_⟩
    simp only [List.mem_cons, List.not_mem_nil, or_false] at hrow
    rcases hrow with rfl | rfl | rfl
    all_goals exact ⟨rfl, fun column => by cases column <;> rfl, fun m hm => nomatch hm⟩

theorem Table.exists_product_acme {row : Row} (h : row ∈ Table.acme.rows) :
    ∃ product, row.toProduct = .ok product := by
  unfold acme at h
  simp only [List.mem_cons, List.not_mem_nil, or_false] at h
  rcases h with rfl | rfl | rfl
  all_goals exact ⟨_, rfl⟩

/-- The store of these products, without collections. -/
def Store.acme : Store := .ofParts Table.acme [] .empty

namespace Rule

/-- The products of the vendor that are in stock; two of the conditions cannot be used. -/
def acmeInStock : Value :=
  .object [("type", .text "multiple"), ("logic", .text " all "),
    ("conditions", .list [.object [("type", .text "vendor"), ("value", .text "Acme")], .int 5,
      .object [("type", .text "tag_contains")], .object [("type", .text "in_stock")]])]

theorem evaluate_compile_acme :
    ∃ ids, Store.acme.evaluate .none (.allOf [.fieldEquals "vendor" (.text "Acme"), .inStock]) =
        .ok ids ∧ ids.Pairwise (· < ·) ∧
      ∀ id, id ∈ ids ↔ ∃ row ∈ Store.acme.table.rows, row.id = id ∧
        IsSatisfiedBy row acmeInStock := by
  have hcompile : compile acmeInStock = .ok (.allOf [.fieldEquals "vendor" (.text "Acme"),
      .inStock], [.noType "5", .unusableLeaf "tag_contains"]) := by
    refine compile_eq_ok.2 ⟨.group " all " [.leaf ⟨"vendor", some "Acme", none, none⟩,
      .rejected (.noType "5"), .leaf ⟨"tag_contains", none, none, none⟩,
      .leaf ⟨"in_stock", none, none, none⟩], ?_, rfl, rfl⟩
    rw [Entry.read_eq]
    show (Entry.group " all " <$> List.mapM Entry.read [_, _, _, _] : Except Failure Entry) = _
    simp only [List.mapM_cons, Entry.read_eq]
    rfl
  exact evaluate_compile Store.acme hcompile fun row hrow _ => Table.exists_product_acme hrow

end Rule

end Storefront
