import Storefront.Catalog.RawColumn
import Storefront.StableSort

/-!
# The product table

The catalog's table is made from a raw one: every column is brought to its type, every product has
an id of its own, and the rows stand in ascending order of their ids.

* `Table`: the normalised table
* `Table.readRows`: the rows of a raw table, which are normal and have ids of their own
* `Table.ofRaw`: the table of a raw one
* `Table.toRaw`: a table as raw records
-/

namespace Storefront

/-- The products of a catalog, in ascending order of their ids. -/
structure Table where
  rows : List Row
  ascending : rows.Pairwise fun r s => r.id < s.id
  normal : ∃ offset, ∀ row ∈ rows, row.IsNormal offset

namespace Table

/-- The table without products. -/
def empty : Table := ⟨[], .nil, none, fun _ h => nomatch h⟩

/-! ## Ids of their own -/

/-- Some number occurs twice. -/
def hasRepetition : List Int → Bool
  | [] => false
  | n :: ns => ns.contains n || hasRepetition ns

theorem hasRepetition_eq_false {ns : List Int} : hasRepetition ns = false ↔ ns.Nodup := by
  induction ns with
  | nil => simp [hasRepetition]
  | cons n ns ih => simp [hasRepetition, List.nodup_cons, ih]

/-- The rows in ascending order of their ids. -/
def sortRows (rows : List Row) : List Row := sortBy (fun a b => decide (a.id ≤ b.id)) rows

theorem pairwise_sortRows {rows : List Row} (h : (rows.map (·.id)).Nodup) :
    (sortRows rows).Pairwise fun r s => r.id < s.id :=
  pairwise_sortBy_key h

/-- The table of rows that are normal and have ids of their own. -/
def ofRows (rows : List Row) (distinct : (rows.map (·.id)).Nodup)
    (normal : ∃ offset, ∀ row ∈ rows, row.IsNormal offset) : Table where
  rows := sortRows rows
  ascending := pairwise_sortRows distinct
  normal := normal.imp fun _ h row hrow => h row (mem_sortBy.1 hrow)

/-! ## Filling columns -/

/-- Rows with one column set from a list of cells. -/
def fill {α : Type} (set : Row → α → Row) (cells : List α) (rows : List Row) : List Row :=
  List.zipWith set rows cells

/-- Rows under way from ids to a table: they have the first of the ids, and they are normal. -/
structure UnderWay (ids : List Int) (offset : Option Int) (rows : List Row) : Prop where
  ids_isPrefix : rows.map (·.id) <+: ids
  normal : ∀ row ∈ rows, row.IsNormal offset

theorem underWay_blank {ids : List Int} (h : ∀ n ∈ ids, isWord n) (offset : Option Int) :
    UnderWay ids offset (ids.map Row.blank) where
  ids_isPrefix := by
    rw [List.map_map]
    exact (List.map_id' ids).symm ▸ List.prefix_refl _
  normal := by
    intro row hrow
    obtain ⟨n, hn, rfl⟩ := List.mem_map.1 hrow
    exact ⟨h n hn, fun column => by cases column <;> rfl, fun m hm => nomatch hm⟩

theorem mem_zipWith {α β γ : Type} {f : α → β → γ} {xs : List α} {ys : List β} {z : γ}
    (h : z ∈ List.zipWith f xs ys) : ∃ x ∈ xs, ∃ y ∈ ys, f x y = z := by
  obtain ⟨i, hi, rfl⟩ := List.mem_iff_getElem.1 h
  rw [List.getElem_zipWith]
  exact ⟨_, List.getElem_mem _, _, List.getElem_mem _, rfl⟩

theorem map_zipWith_isPrefix {α β γ : Type} {f : α → β → α} {g : α → γ}
    (hf : ∀ x y, g (f x y) = g x) (xs : List α) (ys : List β) :
    (List.zipWith f xs ys).map g <+: xs.map g := by
  induction xs generalizing ys with
  | nil => simp
  | cons x xs ih =>
    cases ys with
    | nil => simp
    | cons y ys => simpa [hf] using ih ys

section Fill

variable {α : Type} {ids : List Int} {offset : Option Int} {rows : List Row}
  {set : Row → α → Row} {cells : List α}

/-- Setting one column to proper cells keeps rows under way. -/
theorem UnderWay.fill (h : UnderWay ids offset rows) (column : Column) (cell : α → Cell)
    (hcell : ∀ a ∈ cells, (cell a).isProper)
    (hmoment : ∀ a ∈ cells, ∀ row : Row, row.IsNormal offset →
      ∀ m ∈ (set row a).createdAt, m.offset = offset)
    (hset : ∀ row a, (set row a).DiffersIn column (cell a) row := by
      exact fun row a => ⟨rfl, fun c => by cases c <;> rfl⟩) :
    UnderWay ids offset (fill set cells rows) where
  ids_isPrefix := (map_zipWith_isPrefix (fun r a => (hset r a).id_eq) rows cells).trans
    h.ids_isPrefix
  normal := by
    intro row hrow
    obtain ⟨r, hr, a, ha, rfl⟩ := mem_zipWith hrow
    have hnormal := h.normal r hr
    exact hnormal.of_differsIn (hset r a) (hcell a ha) (hmoment a ha r hnormal)

end Fill

theorem isProper_readValue (cell : RawCell) : (Cell.ofValue? (readValue cell)).isProper := by
  cases h : readValue cell with
  | none => rfl
  | some v => simp [Cell.ofValue?, Cell.isProper, isMissing_of_readValue h]

theorem isProper_of_mem_readValues {cells : List RawCell} {v : Option Value}
    (h : v ∈ cells.map readValue) : (Cell.ofValue? v).isProper := by
  obtain ⟨cell, -, rfl⟩ := List.mem_map.1 h
  exact isProper_readValue cell

theorem isProper_of_mem_readNumbers {cells : List RawCell} {xs : List (Option Binary64)}
    (h : cells.mapM readNumber = .ok xs) {x : Option Binary64} (hx : x ∈ xs) :
    (Cell.ofNumber? x).isProper := by
  obtain ⟨cell, -, hcell⟩ := mem_of_mapM_eq_ok h hx
  cases x with
  | none => rfl
  | some x => simp [Cell.ofNumber?, Cell.isProper, isNan_of_readNumber hcell]

/-! ## The table -/

/-- The columns without which there is no table. -/
def requiredColumns : List String := ["id", "price"]

/-- The ids of a raw table, which has the columns it needs and no id twice. -/
def readDistinctIds (raw : RawTable) : Except Failure (List Int) := do
  let absent := requiredColumns.filter fun name => !raw.names.contains name
  if !absent.isEmpty then throw (.missingColumns "Products data" absent)
  let ids ← readIds (raw.cells .id)
  if hasRepetition ids then throw .duplicateProducts
  return ids

/-- The rows of a raw table. -/
def readRows (raw : RawTable) (reader : MomentReader := .known) : Except Failure (List Row) := do
  let ids ← readDistinctIds raw
  let prices ← (raw.cells .price).mapM readNumber
  let compareAtPrices ← (raw.cells .compareAtPrice).mapM readNumber
  let ratings ← (raw.cells .rating).mapM readNumber
  let reviewCounts ← (raw.cells .reviewCount).mapM readNumber
  let bestsellerScores ← (raw.cells .bestsellerScore).mapM readNumber
  let tags ← (raw.cells .tags).mapM readTags
  let createdAt ← readMoments (raw.cells .createdAt) reader
  return ids.map Row.blank
    |> fill (fun row v => { row with title := v }) ((raw.cells .title).map readValue)
    |> fill (fun row v => { row with handle := v }) ((raw.cells .handle).map readValue)
    |> fill (fun row v => { row with tags := v }) tags
    |> fill (fun row v => { row with vendor := v }) ((raw.cells .vendor).map readValue)
    |> fill (fun row v => { row with productType := v }) ((raw.cells .productType).map readValue)
    |> fill (fun row v => { row with price := v }) prices
    |> fill (fun row v => { row with compareAtPrice := v }) compareAtPrices
    |> fill (fun row v => { row with inStock := v })
      ((raw.cells .inStock).map fun cell => readFlag true cell.toValue)
    |> fill (fun row v => { row with rating := v }) ratings
    |> fill (fun row v => { row with reviewCount := v }) reviewCounts
    |> fill (fun row v => { row with createdAt := v }) createdAt
    |> fill (fun row v => { row with bestsellerScore := v }) bestsellerScores

theorem isWord_and_nodup_of_readDistinctIds {raw : RawTable} {ids : List Int}
    (h : readDistinctIds raw = .ok ids) : (∀ n ∈ ids, isWord n) ∧ ids.Nodup := by
  simp only [readDistinctIds] at h
  split at h
  · cases h
  · obtain ⟨ns, hns, h⟩ := bind_eq_ok.1 h
    split at h
    · cases h
    · rename_i hrep
      cases h
      exact ⟨isWord_of_readIds hns, hasRepetition_eq_false.1 (Bool.eq_false_iff.2 hrep)⟩

section Readers

variable {raw : RawTable} {reader : MomentReader} {rows : List Row}

theorem underWay_readRows (h : readRows raw reader = .ok rows) :
    ∃ ids offset, ids.Nodup ∧ UnderWay ids offset rows := by
  obtain ⟨ids, hids, h⟩ := bind_eq_ok.1 h
  obtain ⟨prices, hprices, h⟩ := bind_eq_ok.1 h
  obtain ⟨compareAtPrices, hcompare, h⟩ := bind_eq_ok.1 h
  obtain ⟨ratings, hratings, h⟩ := bind_eq_ok.1 h
  obtain ⟨reviewCounts, hcounts, h⟩ := bind_eq_ok.1 h
  obtain ⟨bestsellerScores, hscores, h⟩ := bind_eq_ok.1 h
  obtain ⟨tags, -, h⟩ := bind_eq_ok.1 h
  obtain ⟨createdAt, hmoments, h⟩ := bind_eq_ok.1 h
  cases h
  obtain ⟨hwords, hnodup⟩ := isWord_and_nodup_of_readDistinctIds hids
  obtain ⟨offset, hoffset⟩ := offset_of_readMoments hmoments
  refine ⟨ids, offset, hnodup, ?_⟩
  refine UnderWay.fill ?_ .bestsellerScore .ofNumber?
    (fun _ => isProper_of_mem_readNumbers hscores) (fun _ _ _ hrow => hrow.offset_createdAt)
  refine UnderWay.fill ?_ .createdAt .ofMoment? (fun m _ => by cases m <;> rfl)
    (fun _ hm _ _ => hoffset _ hm)
  refine UnderWay.fill ?_ .reviewCount .ofNumber?
    (fun _ => isProper_of_mem_readNumbers hcounts) (fun _ _ _ hrow => hrow.offset_createdAt)
  refine UnderWay.fill ?_ .rating .ofNumber?
    (fun _ => isProper_of_mem_readNumbers hratings) (fun _ _ _ hrow => hrow.offset_createdAt)
  refine UnderWay.fill ?_ .inStock .ofFlag
    (fun _ _ => rfl) (fun _ _ _ hrow => hrow.offset_createdAt)
  refine UnderWay.fill ?_ .compareAtPrice .ofNumber?
    (fun _ => isProper_of_mem_readNumbers hcompare) (fun _ _ _ hrow => hrow.offset_createdAt)
  refine UnderWay.fill ?_ .price .ofNumber?
    (fun _ => isProper_of_mem_readNumbers hprices) (fun _ _ _ hrow => hrow.offset_createdAt)
  refine UnderWay.fill ?_ .productType .ofValue?
    (fun _ => isProper_of_mem_readValues) (fun _ _ _ hrow => hrow.offset_createdAt)
  refine UnderWay.fill ?_ .vendor .ofValue?
    (fun _ => isProper_of_mem_readValues) (fun _ _ _ hrow => hrow.offset_createdAt)
  refine UnderWay.fill ?_ .tags (fun s => .value (.text s))
    (fun _ _ => rfl) (fun _ _ _ hrow => hrow.offset_createdAt)
  refine UnderWay.fill ?_ .handle .ofValue?
    (fun _ => isProper_of_mem_readValues) (fun _ _ _ hrow => hrow.offset_createdAt)
  refine UnderWay.fill ?_ .title .ofValue?
    (fun _ => isProper_of_mem_readValues) (fun _ _ _ hrow => hrow.offset_createdAt)
  exact underWay_blank hwords offset

theorem nodup_readRows (h : readRows raw reader = .ok rows) :
    (rows.map (·.id)).Nodup := by
  obtain ⟨ids, offset, hnodup, hway⟩ := underWay_readRows h
  exact hnodup.sublist hway.ids_isPrefix.sublist

theorem normal_readRows (h : readRows raw reader = .ok rows) :
    ∃ offset, ∀ row ∈ rows, row.IsNormal offset := by
  obtain ⟨ids, offset, -, hway⟩ := underWay_readRows h
  exact ⟨offset, hway.normal⟩

end Readers

/-- The table of a raw one. -/
def ofRaw (raw : RawTable) (reader : MomentReader := .known) : Except Failure Table :=
  match h : readRows raw reader with
  | .error e => .error e
  | .ok rows => .ok (ofRows rows (nodup_readRows h) (normal_readRows h))

/-- A cell of a table as a raw cell. -/
def rawCell : Cell → RawCell
  | .missing => .null
  | .number (.whole n) => .value (.int n)
  | .number (.double x) => .value (.float x)
  | .moment m => .moment m
  | .value v => .value v

/-- A table as a raw one with all its columns. -/
def toRaw (t : Table) : RawTable where
  columns := Column.all.map fun column =>
    (column.name, t.rows.map fun row => rawCell (row.cell column))
  height := t.rows.length

end Table

end Storefront
