import Mathlib.Data.List.Nodup
import Storefront.Catalog.Store

/-!
# What queries give

An order only rearranges rows, and a limit only cuts them off. So every product that a query gives
is that of a matching row, no product is given twice, and without a limit none is left out.

* `perm_of_orderRows`: an order rearranges rows
* `orderRows_byId`: the rows of a table are in order of their ids
* `Table.holds_of_mem_select`, `Table.nodup_select`: the rows that a query selects
* `Table.query_eq_ok`, `Store.query_eq_ok`: the products of a query are those of the rows that it
  selects
-/

namespace Storefront

/-! ## Orders -/

theorem SortKey.sort_eq_ok {key : SortKey} {rows sorted : List Row} :
    key.sort rows = .ok sorted ↔ ∃ column keyed, Predicate.column key.field = .ok column ∧
      key.checkDistance column = .ok () ∧
      rows.mapM (fun row => return (← key.cell column row, row)) = .ok keyed ∧
      areSortable (keyed.map Prod.fst) ∧
      sorted = (sortBy (fun a b => before key.descending a.1 b.1) keyed).map Prod.snd := by
  unfold SortKey.sort
  rw [bind_eq_ok]
  constructor
  · intro h
    obtain ⟨column, hcolumn, h⟩ := h
    obtain ⟨_, hcheck, h⟩ := bind_eq_ok.1 h
    obtain ⟨keyed, hkeyed, h⟩ := bind_eq_ok.1 h
    split at h
    · cases h
    · rename_i hsortable
      cases h
      exact ⟨column, keyed, hcolumn, hcheck, hkeyed, by simpa using hsortable, rfl⟩
  · intro h
    obtain ⟨column, keyed, hcolumn, hcheck, hkeyed, hsortable, rfl⟩ := h
    refine ⟨column, hcolumn, bind_eq_ok.2 ⟨(), hcheck, bind_eq_ok.2 ⟨keyed, hkeyed, ?_⟩⟩⟩
    rw [if_neg (by simp [hsortable])]
    rfl

theorem SortKey.perm_of_sort {key : SortKey} {rows sorted : List Row}
    (h : key.sort rows = .ok sorted) : sorted.Perm rows := by
  obtain ⟨column, keyed, -, -, hkeyed, -, rfl⟩ := SortKey.sort_eq_ok.1 h
  have hrows : keyed.map Prod.snd = rows.map id := by
    refine map_eq_of_mapM_eq_ok (fun row pair hpair => ?_) hkeyed
    obtain ⟨cell, -, hpair⟩ := bind_eq_ok.1 hpair
    cases hpair
    rfl
  rw [List.map_id] at hrows
  rw [← hrows]
  exact (sortBy_perm _ keyed).map Prod.snd

/-- An order only rearranges rows. -/
theorem perm_of_orderRows {keys : List SortKey} {rows sorted : List Row}
    (h : orderRows keys rows = .ok sorted) : sorted.Perm rows := by
  unfold orderRows at h
  induction keys generalizing sorted with
  | nil =>
    cases h
    exact .refl _
  | cons key keys ih =>
    rw [List.foldr_cons] at h
    obtain ⟨middle, hmiddle, hsort⟩ := bind_eq_ok.1 h
    exact (SortKey.perm_of_sort hsort).trans (ih hmiddle)

/-- Cells that hold no values are in one order. -/
theorem SortKey.areSortable_of_no_value {cells : List Cell}
    (h : ∀ cell ∈ cells, ∀ v, cell ≠ .value v) : areSortable cells = true := by
  have hnone : valuesOf cells = [] :=
    List.eq_nil_iff_forall_not_mem.2 fun v hv => h _ (mem_valuesOf.1 hv) v rfl
  unfold areSortable
  rw [hnone]
  rfl

theorem before_wholes (a b : Int) :
    SortKey.before false (.number (.whole a)) (.number (.whole b)) = true ↔ a ≤ b := by
  have hcell : (Cell.number (.whole a)).orderCell? (.number (.whole b)) = some (compare a b) := rfl
  unfold SortKey.before
  rw [hcell]
  cases hab : compare a b with
  | lt => simpa [Cell.isMissing] using Int.le_of_lt (Int.compare_eq_lt.1 hab)
  | eq => simpa [Cell.isMissing] using Int.le_of_eq (Int.compare_eq_eq.1 hab)
  | gt => simpa [Cell.isMissing] using Int.compare_eq_gt.1 hab

/-- Rows in ascending order of their ids are in order by id. -/
theorem orderRows_byId {rows : List Row} (h : rows.Pairwise fun r s => r.id < s.id) :
    orderRows [{ field := "id" }] rows = .ok rows := by
  have hkeyed : rows.mapM (fun row => (return (Cell.number (.whole row.id), row) :
      Except Failure (Cell × Row))) = .ok (rows.map fun row => (.number (.whole row.id), row)) := by
    induction rows with
    | nil => rfl
    | cons row rows ih =>
      exact mapM_cons_eq_ok.2 ⟨_, _, rfl, ih (List.pairwise_cons.1 h).2, rfl⟩
  have hsorted : (rows.map fun row => (Cell.number (.whole row.id), row)).Pairwise
      fun a b => SortKey.before false a.1 b.1 = true := by
    rw [List.pairwise_map]
    exact h.imp fun hlt => (before_wholes _ _).2 (Int.le_of_lt hlt)
  show SortKey.sort { field := "id" } rows = .ok rows
  refine SortKey.sort_eq_ok.2 ⟨.id, _, rfl, rfl, hkeyed, ?_, ?_⟩
  · apply SortKey.areSortable_of_no_value
    intro cell hcell v
    rw [List.map_map] at hcell
    obtain ⟨row, -, rfl⟩ := List.mem_map.1 hcell
    exact fun h => nomatch h
  · rw [sortBy_eq_self hsorted]
    simp [Function.comp_def]

/-! ## Selected rows -/

namespace Table

variable {t : Table} {m : Memberships} {q : Query} {rows : List Row} {products : List Product}

/-- A query selects rows by deciding its predicate, ordering the rows that match, and cutting. -/
theorem select_eq_ok : t.select m q = .ok rows ↔ ∃ ordered count,
    q.predicate.check t = .ok () ∧
    orderRows q.orderBy (t.rows.filter fun row => q.predicate.holds t m row) = .ok ordered ∧
    Limit.headCount q.limit = .ok count ∧
    rows = count.elim ordered fun n => ordered.take n := by
  unfold select
  rw [bind_eq_ok]
  constructor
  · intro h
    obtain ⟨_, hcheck, h⟩ := h
    dsimp only at h
    obtain ⟨ordered, hordered, h⟩ := bind_eq_ok.1 h
    obtain ⟨count, hcount, h⟩ := bind_eq_ok.1 h
    refine ⟨ordered, count, hcheck, hordered, hcount, ?_⟩
    cases count with
    | none =>
      cases h
      rfl
    | some n =>
      cases h
      rfl
  · intro h
    obtain ⟨ordered, count, hcheck, hordered, hcount, rfl⟩ := h
    refine ⟨(), hcheck, bind_eq_ok.2 ⟨ordered, hordered, bind_eq_ok.2 ⟨count, hcount, ?_⟩⟩⟩
    cases count with
    | none => rfl
    | some n => rfl

/-- The products of a query are those of the rows that it selects. -/
theorem query_eq_ok :
    t.query m q = .ok products ↔ ∃ rows, t.select m q = .ok rows ∧
      rows.mapM Row.toProduct = .ok products := by
  unfold query
  cases hselect : t.select m q with
  | error e => simp
  | ok rows =>
    dsimp only
    cases hproducts : rows.mapM Row.toProduct with
    | error e => simp [hproducts]
    | ok products' => simp [hproducts]

/-- Selected rows are rows of the table that match. -/
theorem holds_of_mem_select (h : t.select m q = .ok rows) {row : Row} (hrow : row ∈ rows) :
    row ∈ t.rows ∧ q.predicate.holds t m row = true := by
  obtain ⟨ordered, count, -, hordered, -, rfl⟩ := select_eq_ok.1 h
  have hmem : row ∈ ordered := by
    cases count with
    | none => exact hrow
    | some n => exact List.mem_of_mem_take hrow
  exact List.mem_filter.1 ((perm_of_orderRows hordered).mem_iff.1 hmem)

/-- The rows of a table have ids of their own. -/
theorem nodup_ids (t : Table) : (t.rows.map (·.id)).Nodup :=
  List.pairwise_map.2 (t.ascending.imp fun h => Int.ne_of_lt h)

/-- No id is selected twice. -/
theorem nodup_select (h : t.select m q = .ok rows) : (rows.map (·.id)).Nodup := by
  obtain ⟨ordered, count, -, hordered, -, rfl⟩ := select_eq_ok.1 h
  have hnodup : (ordered.map (·.id)).Nodup :=
    ((perm_of_orderRows hordered).map _).nodup_iff.2
      (t.nodup_ids.sublist (List.filter_sublist.map _))
  cases count with
  | none => exact hnodup
  | some n => exact hnodup.sublist ((List.take_sublist n ordered).map _)

/-- Two rows of a table with one id are one row. -/
theorem eq_of_id_eq (t : Table) {row other : Row} (hrow : row ∈ t.rows) (hother : other ∈ t.rows)
    (h : row.id = other.id) : row = other :=
  List.inj_on_of_nodup_map t.nodup_ids hrow hother h

/-- A query gives no product twice. -/
theorem nodup_query (h : t.query m q = .ok products) : (products.map (·.id)).Nodup := by
  obtain ⟨rows, hselect, hproducts⟩ := query_eq_ok.1 h
  rw [map_eq_of_mapM_eq_ok (fun _ _ => Row.id_of_toProduct) hproducts]
  exact nodup_select hselect

/-- Each product of a query is that of a row of the table that matches. -/
theorem exists_row_of_mem_query (h : t.query m q = .ok products) {p : Product}
    (hp : p ∈ products) :
    ∃ row ∈ t.rows, row.toProduct = .ok p ∧ q.predicate.holds t m row = true := by
  obtain ⟨rows, hselect, hproducts⟩ := query_eq_ok.1 h
  obtain ⟨row, hrow, hrowp⟩ := mem_of_mapM_eq_ok hproducts hp
  obtain ⟨hmem, hholds⟩ := holds_of_mem_select hselect hrow
  exact ⟨row, hmem, hrowp, hholds⟩

end Table

/-- A query gives products if the scan does not fail and the table gives them. -/
theorem Store.query_eq_ok {s : Store} {faults : Faults} {q : Query} {products : List Product} :
    s.query faults q = .ok products ↔
      faults.scan q.predicate = none ∧ s.table.query s.memberships q = .ok products := by
  unfold Store.query
  cases faults.scan q.predicate <;> simp

end Storefront
