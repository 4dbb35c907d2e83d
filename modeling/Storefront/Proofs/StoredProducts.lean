import Storefront.Proofs.Rounding
import Storefront.Proofs.RowReading
import Storefront.Proofs.TagTexts

/-!
# Products in a store

A product is put into a store as a raw record, its record becomes a row, and the row is read back as a
product. On the way tags become text, whole numbers become doubles, and what is missing is written in
three ways; but nothing of a product is lost that has what the catalog can keep.

* `Product.IsValid`, `Product.isValid_of_read`: what every product has that a record gives
* `Product.IsStorable`: what a product has that the catalog can keep
* `Product.toRow`, `Product.reads_toRow`, `Product.toProduct_toRow`: the row of a product, from its
  record and back to the product
* `Store.products_survive`: the products of a store are those that it was made from
-/

namespace Storefront

/-! ## What products have -/

/-- A product has what every product has that is read from a record: its price is not negative, its
rating lies between 0 and the greatest one, and its count of reviews is not negative. -/
structure Product.IsValid (p : Product) : Prop where
  price : Binary64.zero.le p.price = true
  rating : ∀ x ∈ p.rating, Binary64.zero.le x = true ∧ x.le maxRating = true
  reviewCount : ∀ n ∈ p.reviewCount, 0 ≤ n

/-- A product has what the catalog can keep: its id fits into 64 bits, its tags are those of a text,
its numbers are numbers, its count of reviews has at most 53 binary digits, and its moment of creation
has no offset. -/
structure Product.IsStorable (p : Product) : Prop where
  id : isWord p.id = true
  tags : ∃ s, p.tags = .ofText s
  compareAtPrice : ∀ x ∈ p.compareAtPrice, x.isNan = false
  bestsellerScore : ∀ x ∈ p.bestsellerScore, x.isNan = false
  reviewCount : ∀ n ∈ p.reviewCount, n ≤ 2 ^ 53
  createdAt : ∀ m ∈ p.createdAt, m.offset = none

namespace Product

theorem nullable_eq_ok {α : Type} {read : Value → Except Refusal α} {v : Value} {a : Option α}
    (h : Intake.nullable read v = .ok a) : ∀ x ∈ a, read v = .ok x := by
  intro x hx
  cases hx
  unfold Intake.nullable at h
  split at h
  · cases h
  · obtain ⟨y, hy, hsome⟩ := map_eq_ok.1 h
    cases hsome
    exact hy

theorem defaulted_eq_accepted {α : Type} {name : String} {default a : α}
    {read : Value → Except Refusal α} {fields : Fields}
    (h : Intake.defaulted name default read fields = .accepted a) :
    a = default ∨ ∃ v, read v = .ok a := by
  unfold Intake.defaulted at h
  split at h
  · exact .inr ⟨_, Checked.ofField_eq_accepted.1 h⟩
  · cases h
    exact .inl rfl

theorem optional_eq_accepted {α : Type} {name : String} {a : Option α}
    {read : Value → Except Refusal α} {fields : Fields}
    (h : Intake.optional name read fields = .accepted a) : ∀ x ∈ a, ∃ v, read v = .ok x := by
  intro x hx
  rcases defaulted_eq_accepted h with rfl | ⟨v, hv⟩
  · cases hx
  · exact ⟨v, nullable_eq_ok hv x hx⟩

theorem isPrice_of_readPrice {v : Value} {x : Binary64} (h : readPrice v = .ok x) :
    Binary64.zero.le x = true := by
  obtain ⟨y, -, h⟩ := bind_eq_ok.1 h
  obtain ⟨hle, rfl⟩ := Row.atLeast_eq_ok.1 h
  exact hle

theorem isRating_of_readRating {v : Value} {x : Binary64} (h : readRating v = .ok x) :
    Binary64.zero.le x = true ∧ x.le maxRating = true := by
  obtain ⟨y, -, h⟩ := bind_eq_ok.1 h
  obtain ⟨z, hz, h⟩ := bind_eq_ok.1 h
  obtain ⟨hmost, rfl⟩ := Row.atMost_eq_ok.1 hz
  obtain ⟨hleast, rfl⟩ := Row.atLeast_eq_ok.1 h
  exact ⟨hleast, hmost⟩

theorem isCount_of_readCount {v : Value} {n : Int} (h : readCount v = .ok n) : 0 ≤ n := by
  obtain ⟨m, -, h⟩ := bind_eq_ok.1 h
  split at h
  · cases h
  · cases h
    omega

/-- Every product that a record gives is valid. -/
theorem isValid_of_read {fields : Fields} {p : Product} (h : read fields = .ok p) : p.IsValid := by
  obtain ⟨tags, -, hresult⟩ := bind_eq_ok.1 h
  obtain ⟨_, score, hcreated, -, rfl⟩ :=
    Checked.seq_eq_accepted (Checked.result_eq_ok.1 hresult)
  obtain ⟨_, createdAt, hcounted, -, rfl⟩ := Checked.seq_eq_accepted hcreated
  obtain ⟨_, reviewCount, hrated, hcount, rfl⟩ := Checked.seq_eq_accepted hcounted
  obtain ⟨_, rating, hstocked, hrating, rfl⟩ := Checked.seq_eq_accepted hrated
  obtain ⟨_, inStock, hcompared, -, rfl⟩ := Checked.seq_eq_accepted hstocked
  obtain ⟨_, compareAtPrice, hpriced, -, rfl⟩ := Checked.seq_eq_accepted hcompared
  obtain ⟨_, price, htyped, hprice, rfl⟩ := Checked.seq_eq_accepted hpriced
  obtain ⟨_, productType, hvendor, -, rfl⟩ := Checked.seq_eq_accepted htyped
  obtain ⟨_, vendor, hhandle, -, rfl⟩ := Checked.seq_eq_accepted hvendor
  obtain ⟨_, handle, htitle, -, rfl⟩ := Checked.seq_eq_accepted hhandle
  obtain ⟨_, title, hid, -, rfl⟩ := Checked.seq_eq_accepted htitle
  obtain ⟨id, -, rfl⟩ := Checked.map_eq_accepted hid
  exact {
    price := by
      show Binary64.zero.le price = true
      rcases defaulted_eq_accepted hprice with rfl | ⟨v, hv⟩
      · decide
      · exact isPrice_of_readPrice hv
    rating := by
      intro x hx
      obtain ⟨v, hv⟩ := optional_eq_accepted hrating x hx
      exact isRating_of_readRating hv
    reviewCount := by
      intro n hn
      obtain ⟨v, hv⟩ := optional_eq_accepted hcount n hn
      exact isCount_of_readCount hv }

/-! ## The row of a product -/

/-- The row that the catalog keeps of a product. -/
def toRow (p : Product) : Row where
  id := p.id
  title := some (.text p.title)
  handle := p.handle.map .text
  tags := p.tags.toText
  vendor := p.vendor.map .text
  productType := p.productType.map .text
  price := some p.price
  compareAtPrice := p.compareAtPrice
  inStock := p.inStock
  rating := p.rating
  reviewCount := p.reviewCount.map .ofInt
  createdAt := p.createdAt
  bestsellerScore := p.bestsellerScore

theorem isNan_of_le {x y : Binary64} (h : x.le y = true) : y.isNan = false := by
  obtain ⟨_, _, -, hy, -⟩ := Binary64.le_eq_true.1 h
  cases y with
  | nan => cases hy
  | signed => rfl

theorem readNumber_numberValue {x : Option Binary64} (h : ∀ y ∈ x, y.isNan = false) :
    Table.readNumber (.value (numberValue x)) = .ok x := by
  have hproper : (Cell.ofNumber? x).isProper := by
    cases x with
    | none => rfl
    | some y => simp [Cell.ofNumber?, Cell.isProper, h y rfl]
  have hcell : RawCell.value (numberValue x) = Table.rawCell (.ofNumber? x) := by cases x <;> rfl
  rw [hcell, Table.readNumber_rawCell hproper]

theorem readValue_textValue (s : Option String) :
    Table.readValue (.value (textValue s)) = s.map .text := by
  cases s <;> rfl

/-- The cell of a product's record in a column. -/
def rawCell (p : Product) : Column → RawCell
  | .id => .value (.int p.id)
  | .title => .value (.text p.title)
  | .handle => .value (textValue p.handle)
  | .tags => .value (.text p.tags.toText)
  | .vendor => .value (textValue p.vendor)
  | .productType => .value (textValue p.productType)
  | .price => .value (numberValue (some p.price))
  | .compareAtPrice => .value (numberValue p.compareAtPrice)
  | .inStock => .value (.bool p.inStock)
  | .rating => .value (numberValue p.rating)
  | .reviewCount => .value ((p.reviewCount.map Value.int).getD .null)
  | .createdAt => (p.createdAt.map RawCell.moment).getD .null
  | .bestsellerScore => .value (numberValue p.bestsellerScore)

theorem rawCell_createdAt (p : Product) :
    p.rawCell .createdAt = Table.rawCell (.ofMoment? p.createdAt) := by
  unfold rawCell
  cases p.createdAt <;> rfl

theorem lookup_toRecord (p : Product) (column : Column) :
    p.toRecord.lookup column.name = some (p.rawCell column) := by
  cases column <;> rfl

theorem rowOf_toRecord (p : Product) (shape : Column → ColumnShape) (column : Column) :
    RawTable.rowOf shape p.toRecord column =
      if shape column = .doubles then (p.rawCell column).widen else p.rawCell column := by
  unfold RawTable.rowOf
  rw [lookup_toRecord, Option.getD_some]

/-- A cell without a whole number is taken over as it is, whatever else is in its column. -/
theorem rowOf_toRecord_of_not_isWhole {p : Product} {column : Column}
    (h : (p.rawCell column).isWhole = false) (shape : Column → ColumnShape) :
    RawTable.rowOf shape p.toRecord column = p.rawCell column := by
  have hwiden : (p.rawCell column).widen = p.rawCell column := by
    unfold RawCell.widen
    split
    · rename_i n hcell
      rw [hcell] at h
      cases h
    · rfl
  rw [rowOf_toRecord, hwiden, ite_self]

theorem isWhole_numberValue (x : Option Binary64) :
    (RawCell.value (numberValue x)).isWhole = false := by
  cases x <;> rfl

theorem isWhole_textValue (s : Option String) : (RawCell.value (textValue s)).isWhole = false := by
  cases s <;> rfl

/-- Whole numbers stand in two columns only. -/
theorem rowOf_toRecord_eq (p : Product) (shape : Column → ColumnShape) {column : Column}
    (hid : column ≠ .id) (hcount : column ≠ .reviewCount) :
    RawTable.rowOf shape p.toRecord column = p.rawCell column := by
  refine rowOf_toRecord_of_not_isWhole ?_ shape
  cases column with
  | id => exact absurd rfl hid
  | reviewCount => exact absurd rfl hcount
  | title | tags | inStock => rfl
  | handle | vendor | productType => exact isWhole_textValue _
  | price | compareAtPrice | rating | bestsellerScore => exact isWhole_numberValue _
  | createdAt =>
    unfold rawCell
    cases p.createdAt <;> rfl

/-- A count of reviews is read as the double that it is, in a column of whole numbers and in one of
doubles. -/
theorem readNumber_reviewCount {p : Product} (hvalid : p.IsValid) (h : p.IsStorable)
    (shape : Column → ColumnShape) :
    Table.readNumber (RawTable.rowOf shape p.toRecord .reviewCount) =
      .ok (p.reviewCount.map .ofInt) := by
  rw [rowOf_toRecord]
  unfold rawCell
  cases hcount : p.reviewCount with
  | none => split <;> rfl
  | some n =>
    obtain ⟨hrange, -⟩ := Binary64.ofInt_exact (hvalid.reviewCount n hcount) (h.reviewCount n hcount)
    split
    · show Except.ok (Table.present? (.ofInt n)) = _
      unfold Table.present?
      rw [Binary64.isNan_of_ofInt? hrange]
      rfl
    · show Table.numberOfWhole n = _
      unfold Table.numberOfWhole
      rw [hrange]
      rfl

/-- The record of a product reads as its row. -/
theorem reads_toRow {p : Product} (hvalid : p.IsValid) (h : p.IsStorable) {reading : Reading}
    {shape : Column → ColumnShape} (hshape : shape .id = .wholes)
    (hid : reading.id (.value (.int p.id)) = .ok p.id)
    (hmoment : reading.moment (p.rawCell .createdAt) = p.createdAt) :
    reading.Reads (RawTable.rowOf shape p.toRecord) p.toRow := by
  have hcell {column : Column} (hid : column ≠ .id) (hcount : column ≠ .reviewCount) :=
    p.rowOf_toRecord_eq shape hid hcount
  exact {
    id := by
      rw [rowOf_toRecord, hshape]
      exact hid
    price := by
      rw [hcell (by decide) (by decide)]
      exact readNumber_numberValue fun x hx => Option.some.inj hx ▸ isNan_of_le hvalid.price
    compareAtPrice := by
      rw [hcell (by decide) (by decide)]
      exact readNumber_numberValue h.compareAtPrice
    rating := by
      rw [hcell (by decide) (by decide)]
      exact readNumber_numberValue fun x hx => isNan_of_le (hvalid.rating x hx).1
    reviewCount := readNumber_reviewCount hvalid h shape
    bestsellerScore := by
      rw [hcell (by decide) (by decide)]
      exact readNumber_numberValue h.bestsellerScore
    tags := by
      rw [hcell (by decide) (by decide)]
      rfl
    title := by
      rw [hcell (by decide) (by decide)]
      rfl
    handle := by
      rw [hcell (by decide) (by decide)]
      exact (readValue_textValue p.handle).symm
    vendor := by
      rw [hcell (by decide) (by decide)]
      exact (readValue_textValue p.vendor).symm
    productType := by
      rw [hcell (by decide) (by decide)]
      exact (readValue_textValue p.productType).symm
    inStock := by
      rw [hcell (by decide) (by decide)]
      show p.inStock = Table.readFlag true (.bool p.inStock)
      cases p.inStock <;> rfl
    createdAt := by
      rw [hcell (by decide) (by decide)]
      exact hmoment.symm }

theorem nullable_textValue (s : Option String) :
    Intake.nullable Intake.text ((s.map Value.text).getD .null) = .ok s := by
  cases s <;> rfl

theorem readPrice_eq_ok {x : Binary64} (h : Binary64.zero.le x = true) :
    readPrice (.float x) = .ok x :=
  bind_eq_ok.2 ⟨x, rfl, Row.atLeast_eq_ok.2 ⟨h, rfl⟩⟩

theorem readRating_eq_ok {x : Binary64} (hleast : Binary64.zero.le x = true)
    (hmost : x.le maxRating = true) : readRating (.float x) = .ok x :=
  bind_eq_ok.2 ⟨x, rfl, bind_eq_ok.2 ⟨x, Row.atMost_eq_ok.2 ⟨hmost, rfl⟩,
    Row.atLeast_eq_ok.2 ⟨hleast, rfl⟩⟩⟩

theorem wholeCount_of_truncate? {x : Binary64} {n : Int} (h : x.truncate? = some n) :
    Row.wholeCount (some x) = .ok (some n) := by
  unfold Row.wholeCount
  dsimp only
  rw [h]

/-- The whole part of a count of reviews is the count. -/
theorem wholeCount_reviewCount {p : Product} (hvalid : p.IsValid) (h : p.IsStorable) :
    Row.wholeCount (p.reviewCount.map .ofInt) = .ok p.reviewCount := by
  cases hcount : p.reviewCount with
  | none => rfl
  | some n =>
    obtain ⟨-, hwhole⟩ := Binary64.ofInt_exact (hvalid.reviewCount n hcount) (h.reviewCount n hcount)
    exact wholeCount_of_truncate? hwhole

theorem readCount_reviewCount {p : Product} (hvalid : p.IsValid) :
    Intake.nullable readCount ((p.reviewCount.map Value.int).getD .null) = .ok p.reviewCount := by
  cases hcount : p.reviewCount with
  | none => rfl
  | some n =>
    have hn := hvalid.reviewCount n hcount
    exact map_eq_ok.2 ⟨n, if_neg (Int.not_lt.2 hn), rfl⟩

/-- The row of a product reads as the product. -/
theorem readsAs_toRow {p : Product} (hvalid : p.IsValid) (h : p.IsStorable) :
    p.toRow.ReadsAs p where
  id_eq := rfl
  tags_eq := by
    obtain ⟨s, hs⟩ := h.tags
    show p.tags = .ofText p.tags.toText
    rw [hs, TagSet.ofText_toText_ofText]
  compareAtPrice_eq := rfl
  inStock_eq := rfl
  createdAt_eq := rfl
  bestsellerScore_eq := rfl
  title_read := rfl
  handle_read := nullable_textValue p.handle
  vendor_read := nullable_textValue p.vendor
  productType_read := nullable_textValue p.productType
  price_read := readPrice_eq_ok hvalid.price
  rating_read := by
    show Intake.nullable readRating (numberValue p.rating) = _
    cases hrating : p.rating with
    | none => rfl
    | some x =>
      obtain ⟨hleast, hmost⟩ := hvalid.rating x hrating
      exact map_eq_ok.2 ⟨x, readRating_eq_ok hleast hmost, rfl⟩
  reviewCount_read := ⟨p.reviewCount, wholeCount_reviewCount hvalid h, readCount_reviewCount hvalid⟩

end Product

/-- A row that reads as a product gives it. -/
theorem Row.toProduct_of_readsAs {row : Row} {p : Product} (h : row.ReadsAs p) :
    row.toProduct = .ok p := by
  obtain ⟨count, hcount, hreviewCount⟩ := h.reviewCount_read
  unfold toProduct checkedText checkedNumber
  rw [hcount, h.title_read, h.handle_read, h.vendor_read, h.productType_read, h.price_read,
    h.rating_read]
  dsimp only [bind, Except.bind]
  rw [hreviewCount]
  rw [← h.id_eq, ← h.tags_eq, ← h.compareAtPrice_eq, ← h.inStock_eq, ← h.createdAt_eq,
    ← h.bestsellerScore_eq]
  rfl

/-- The row of a product gives the product. -/
theorem Product.toProduct_toRow {p : Product} (hvalid : p.IsValid) (h : p.IsStorable) :
    p.toRow.toProduct = .ok p :=
  Row.toProduct_of_readsAs (readsAs_toRow hvalid h)

/-! ## The table of products -/

namespace Table

theorem exists_ofRaw {raw : RawTable} {reader : MomentReader} {rows : List Row}
    (h : readRows raw reader = .ok rows) : ∃ t, ofRaw raw reader = .ok t ∧ t.rows.Perm rows := by
  unfold ofRaw
  split
  · rename_i hfails
    cases h.symm.trans hfails
  · rename_i hrows
    cases h.symm.trans hrows
    exact ⟨_, rfl, sortBy_perm _ rows⟩

theorem idOfWhole_eq_ok {n : Int} (h : isWord n = true) (unsigned : Bool) :
    idOfWhole unsigned (.value (.int n)) = .ok n := by
  cases unsigned with
  | true => exact congrArg Except.ok (if_pos (isWord_iff.1 h).2)
  | false => exact word_eq_ok h

/-- Moments of one offset are read one by one as they are. -/
theorem read_ofCells_rawCell (reader : MomentReader) {moments : List (Option Moment)}
    {offset : Option Int} (h : ∀ moment ∈ moments, ∀ m ∈ moment, m.offset = offset) :
    ∀ moment ∈ moments,
      (MomentConvention.ofCells reader (moments.map fun m => rawCell (.ofMoment? m))).read
        (rawCell (.ofMoment? moment)) = moment := by
  obtain ⟨hread, -⟩ := readMoments_eq_ok.1 (readMoments_rawCells h reader)
  rw [List.map_map] at hread
  exact fun moment hmoment =>
    (List.map_inj_left.1 ((List.map_id moments).trans hread) moment hmoment).symm

end Table

section Records

variable {products : List Product}

/-- The ids of products make a column of whole numbers. -/
theorem columnShape_ids (hne : products ≠ []) :
    columnShape (products.map fun p => .value (.int p.id)) = .wholes := by
  have hids : products.map (·.id) ≠ [] := fun h => hne (List.map_eq_nil_iff.1 h)
  have hshape := Table.columnShape_ints hids
  rwa [List.map_map] at hshape

theorem shapeOf_id (hne : products ≠ []) :
    RawTable.shapeOf (products.map Product.toRecord) .id = .wholes := by
  unfold RawTable.shapeOf
  rw [List.map_map]
  exact columnShape_ids hne

/-- The raw rows of products are those of their records. -/
theorem cells_ofRecords_toRecord (products : List Product) (column : Column) :
    (RawTable.ofRecords (products.map Product.toRecord)).cells column = products.map fun p =>
      RawTable.rowOf (RawTable.shapeOf (products.map Product.toRecord)) p.toRecord column := by
  rw [RawTable.cells_ofRecords, RawTable.rowsOf, List.map_map, List.map_map]
  rfl

/-- The record of a product reads as its row among those of other products. -/
theorem row_toRecord (reader : MomentReader) (hvalid : ∀ p ∈ products, p.IsValid)
    (h : ∀ p ∈ products, p.IsStorable) {p : Product} (hp : p ∈ products) :
    (Reading.ofTable (.ofRecords (products.map Product.toRecord)) reader).row
      (RawTable.rowOf (RawTable.shapeOf (products.map Product.toRecord)) p.toRecord) =
        .ok p.toRow := by
  have hne := List.ne_nil_of_mem hp
  refine Reading.row_eq_ok.2 (Product.reads_toRow (hvalid p hp) (h p hp) (shapeOf_id hne) ?_ ?_)
  · have hcells : (RawTable.ofRecords (products.map Product.toRecord)).cells .id =
        products.map fun p => .value (.int p.id) := by
      rw [cells_ofRecords_toRecord]
      refine List.map_congr_left fun p _ => ?_
      rw [Product.rowOf_toRecord, shapeOf_id hne]
      rfl
    show Table.idReader _ _ = _
    unfold Table.idReader
    rw [hcells, columnShape_ids hne]
    exact Table.idOfWhole_eq_ok (h p hp).id _
  · have hcells : (RawTable.ofRecords (products.map Product.toRecord)).cells .createdAt =
        (products.map (·.createdAt)).map fun m => Table.rawCell (.ofMoment? m) := by
      rw [cells_ofRecords_toRecord, List.map_map]
      refine List.map_congr_left fun p _ => ?_
      rw [p.rowOf_toRecord_eq _ (by decide) (by decide)]
      exact p.rawCell_createdAt
    have hoffset : ∀ moment ∈ products.map (·.createdAt), ∀ m ∈ moment, m.offset = none := by
      intro moment hmoment
      obtain ⟨p, hp, rfl⟩ := List.mem_map.1 hmoment
      exact (h p hp).createdAt
    show MomentConvention.read (.ofCells reader _) _ = _
    rw [hcells, p.rawCell_createdAt]
    exact Table.read_ofCells_rawCell reader hoffset _ (List.mem_map_of_mem hp)

/-- The rows of the records of products are those of the products. -/
theorem readRows_toRecord (reader : MomentReader) (hne : products ≠ [])
    (hvalid : ∀ p ∈ products, p.IsValid) (h : ∀ p ∈ products, p.IsStorable)
    (hids : (products.map (·.id)).Nodup) :
    Table.readRows (.ofRecords (products.map Product.toRecord)) reader =
      .ok (products.map Product.toRow) := by
  refine (Table.readRows_eq_ok (RawTable.cells_ofRecords _)).2 ⟨fun name hname => ?_, ?_, ?_, ?_⟩
  · -- every record has all fields
    obtain ⟨p, hp⟩ := List.exists_mem_of_ne_nil products hne
    rw [RawTable.names_ofRecords, RawTable.mem_fieldNames]
    refine ⟨p.toRecord, List.mem_map_of_mem hp, ?_⟩
    have hfields : ∀ name ∈ Table.requiredColumns, name ∈ Column.all.map Column.name := by decide
    exact hfields name hname
  · rw [RawTable.rowsOf, List.mapM_map, List.mapM_map]
    exact mapM_eq_ok_map fun p hp => row_toRecord reader hvalid h hp
  · rw [List.map_map]
    exact hids
  · intro m n hm hn
    have hnone : ∀ m, some m ∈ (products.map Product.toRow).map (·.createdAt) →
        m.offset = none := by
      intro m hm
      rw [List.map_map] at hm
      obtain ⟨p, hp, hcreated⟩ := List.mem_map.1 hm
      exact (h p hp).createdAt m hcreated
    rw [hnone m hm, hnone n hn]

end Records

/-! ## Stores of products -/

namespace Store

/-- A store of products has their rows. -/
theorem exists_ofProducts (reader : MomentReader) {products : List Product}
    (hvalid : ∀ p ∈ products, p.IsValid) (h : ∀ p ∈ products, p.IsStorable)
    (hids : (products.map (·.id)).Nodup) :
    ∃ s, ofProducts products [] [] reader = .ok s ∧
      s.table.rows.Perm (products.map Product.toRow) := by
  by_cases hne : products = []
  · subst hne
    exact ⟨_, rfl, .nil⟩
  · have hrows := readRows_toRecord reader hne hvalid h hids
    obtain ⟨t, ht, hperm⟩ := Table.exists_ofRaw hrows
    refine ⟨ofParts t [] .empty, ?_, hperm⟩
    have hrecords : (products.map Product.toRecord).isEmpty = false := by
      cases products with
      | nil => exact absurd rfl hne
      | cons => rfl
    unfold ofProducts ofRecords build
    rw [hrecords]
    exact bind_eq_ok.2 ⟨t, ht, rfl⟩

/-- Valid products with ids of their own that the catalog can keep make a store, in whichever way
moments are read from texts. It gives back these products and no others, in ascending order of their
ids, and each of them under its id. -/
theorem products_survive (reader : MomentReader) {products : List Product}
    (hvalid : ∀ p ∈ products, p.IsValid) (h : ∀ p ∈ products, p.IsStorable)
    (hids : (products.map (·.id)).Nodup) :
    ∃ s listed, ofProducts products [] [] reader = .ok s ∧
      s.query .none { predicate := .matchAll } = .ok listed ∧ listed.Perm products ∧
      (listed.map (·.id)).Pairwise (· < ·) ∧
      (∀ p ∈ products, s.product? (.int p.id) = .ok (some p)) ∧
      ∀ id, (∀ p ∈ products, p.id ≠ id) → s.product? (.int id) = .ok none := by
  obtain ⟨s, hs, hperm⟩ := exists_ofProducts reader hvalid h hids
  have hproducts : (products.map Product.toRow).mapM Row.toProduct = .ok products := by
    have hread : products.mapM (fun p => p.toRow.toProduct) = .ok (products.map id) :=
      mapM_eq_ok_map fun p hp => Product.toProduct_toRow (hvalid p hp) (h p hp)
    rw [List.mapM_map]
    rwa [List.map_id] at hread
  obtain ⟨listed, hlisted, hlistedPerm⟩ := exists_mapM_of_perm hperm.symm hproducts
  refine ⟨s, listed, hs, query_matchAll.2 hlisted, hlistedPerm.symm, ?_, fun p hp => ?_,
    fun id hid => ?_⟩
  · rw [map_eq_of_mapM_eq_ok (fun _ _ => Row.id_of_toProduct) hlisted]
    exact List.pairwise_map.2 s.table.ascending
  · have hrow : p.toRow ∈ s.table.rows := hperm.mem_iff.2 (List.mem_map_of_mem hp)
    rcases s.product?_int p.id with ⟨row, hmem, hid, hlookup⟩ | ⟨hnone, -⟩
    · cases s.table.eq_of_id_eq hmem hrow hid
      rw [hlookup, Product.toProduct_toRow (hvalid p hp) (h p hp)]
      rfl
    · exact absurd rfl (hnone _ hrow)
  · rcases s.product?_int id with ⟨row, hmem, hrow, -⟩ | ⟨-, hlookup⟩
    · obtain ⟨p, hp, rfl⟩ := List.mem_map.1 (hperm.mem_iff.1 hmem)
      exact absurd hrow (hid p hp)
    · exact hlookup

/-- Two lamps, of which the second one has nothing but an id and a price. -/
def lamps : List Product :=
  [{ id := 2, title := "Lamp", tags := .ofText "sale,, lamp ", vendor := some "Acme",
      price := .ofNat 20, rating := some (.ofNat 4), reviewCount := some 12,
      createdAt := some ⟨0, none⟩ },
    { id := -1, price := .zero }]

theorem isStorable_lamps : ∀ p ∈ lamps, p.IsValid ∧ p.IsStorable := by
  intro p hp
  simp only [lamps, List.mem_cons, List.not_mem_nil, or_false] at hp
  rcases hp with rfl | rfl
  · refine ⟨⟨by decide +kernel, ?_, ?_⟩, ⟨rfl, ⟨_, rfl⟩, ?_, ?_, ?_, ?_⟩⟩
    · rintro x ⟨⟩
      decide +kernel
    · rintro n ⟨⟩
      decide
    · rintro x ⟨⟩
    · rintro x ⟨⟩
    · rintro n ⟨⟩
      decide
    · rintro m ⟨⟩
      rfl
  · refine ⟨⟨by decide, ?_, ?_⟩, ⟨rfl, ⟨"", rfl⟩, ?_, ?_, ?_, ?_⟩⟩
    all_goals rintro x ⟨⟩

/-- Both lamps are given back, the second one first. -/
theorem products_survive_lamps : ∃ s listed, ofProducts lamps [] [] = .ok s ∧
    s.query .none { predicate := .matchAll } = .ok listed ∧ listed.Perm lamps ∧
    (listed.map (·.id)).Pairwise (· < ·) ∧
    (∀ p ∈ lamps, s.product? (.int p.id) = .ok (some p)) ∧ s.product? (.int 1) = .ok none := by
  obtain ⟨s, listed, hs, hlisted, hperm, hascending, hfound, hnone⟩ :=
    products_survive .known (fun p hp => (isStorable_lamps p hp).1)
      (fun p hp => (isStorable_lamps p hp).2) (by decide)
  exact ⟨s, listed, hs, hlisted, hperm, hascending, hfound, hnone 1 (by decide)⟩

end Store

end Storefront
