import Storefront.Proofs.ReadingBack
import Storefront.Proofs.Restoring

/-!
# Reading raw rows

A raw table is read column by column. What a cell is read as depends on its column in three respects
only: whether the column is one of doubles, how the ids are written, and which convention the moments
follow. Once these are known, every raw row is read by itself.

* `Table.idReader`, `Table.readIds_eq_mapM`: ids, one by one
* `MomentConvention`, `Table.readMoments_eq_ok`: moments, one by one
* `Reading`, `Reading.row`: the row that a raw row gives
* `Table.readRows_eq_ok`: the rows of a raw table, one by one
* `RawTable.rowsOf`, `RawTable.cells_ofRecords`: the raw rows of records
-/

namespace Storefront

/-! ## Ids -/

namespace Table

/-- The cell holds a whole number that fits into 64 bits without a sign. -/
def isUnsigned : RawCell → Bool
  | .value (.int n) => isUnsignedWord n
  | _ => false

/-- The id of a cell in a column of whole numbers, which all fit into 64 bits without a sign or do
not. -/
def idOfWhole (unsigned : Bool) : RawCell → Except Failure Int
  | .value (.int n) =>
    if unsigned then .ok (if n < wordLimit then n else n - unsignedLimit) else word n
  | _ => .error .wrongType

/-- How the ids of a column are read. -/
def idReader (cells : List RawCell) : RawCell → Except Failure Int :=
  match columnShape cells with
  | .wholes => idOfWhole (cells.all isUnsigned)
  | .doubles => idOfDouble
  | .texts => idOfText
  | .missing | .flags | .mixed => fun cell => idOfValue cell.toValue

theorem exists_map_int {cells : List RawCell} (h : ∀ cell ∈ cells, cell.isWhole = true) :
    ∃ ns : List Int, cells = ns.map fun n => .value (.int n) := by
  induction cells with
  | nil => exact ⟨[], rfl⟩
  | cons cell cells ih =>
    obtain ⟨ns, hns⟩ := ih fun c hc => h c (List.mem_cons_of_mem cell hc)
    have hwhole := h cell List.mem_cons_self
    obtain ⟨n, hn⟩ : ∃ n, cell = .value (.int n) := by
      cases cell with
      | moment m => cases hwhole
      | value v => cases v <;> first | exact ⟨_, rfl⟩ | cases hwhole
    exact ⟨n :: ns, by rw [List.map_cons, hn, hns]⟩

theorem idsOfWholes_eq_mapM (ns : List Int) : idsOfWholes ns =
    (ns.map fun n => RawCell.value (.int n)).mapM (idOfWhole (ns.all isUnsignedWord)) := by
  unfold idsOfWholes
  rw [List.mapM_map]
  cases ns.all isUnsignedWord with
  | true => exact (mapM_eq_ok_map fun n _ => rfl).symm
  | false => rfl

/-- The ids of a column are read one by one. -/
theorem readIds_eq_mapM (cells : List RawCell) : readIds cells = cells.mapM (idReader cells) := by
  unfold readIds idReader
  cases hshape : columnShape cells with
  | wholes =>
    obtain ⟨ns, rfl⟩ := exists_map_int (isWhole_of_columnShape hshape)
    have hall : (ns.map fun n => RawCell.value (.int n)).all isUnsigned = ns.all isUnsignedWord := by
      rw [List.all_map]
      rfl
    dsimp only
    rw [List.filterMap_map, hall, ← idsOfWholes_eq_mapM]
    congr 1
    exact List.filterMap_some
  | doubles | texts | missing | flags | mixed => rfl

end Table

/-! ## Moments -/

/-- What the moments of a column are read by: the form of its texts, and whether its moments have an
offset. -/
structure MomentConvention (reader : MomentReader) where
  form : Option reader.Form
  isOffset : Option Bool

namespace MomentConvention

variable {reader : MomentReader}

instance [DecidableEq reader.Form] : DecidableEq (MomentConvention reader) := fun a b =>
  decidable_of_iff (a.form = b.form ∧ a.isOffset = b.isOffset) (by cases a; cases b; simp)

/-- The convention of a column: the form of its first text, if that is what comes first, and what holds
of its first moment. -/
def ofCells (reader : MomentReader) (cells : List RawCell) : MomentConvention reader :=
  let form := (Table.firstText? cells).bind reader.form?
  ⟨form, ((cells.map (Table.momentOfCell? reader form)).findSome? id).map (·.offset.isSome)⟩

/-- The moment of a cell under a convention. -/
def read (convention : MomentConvention reader) (cell : RawCell) : Option Moment :=
  (Table.momentOfCell? reader convention.form cell).filter fun m =>
    convention.isOffset == some m.offset.isSome

end MomentConvention

/-- Moments have one offset, or none of them has any. -/
def HaveOneOffset (moments : List (Option Moment)) : Prop :=
  ∀ m n, some m ∈ moments → some n ∈ moments → m.offset = n.offset

/-- It is enough to compare the offsets of all moments with that of one of them. -/
theorem all_offset_eq_iff {moments : List (Option Moment)} {first : Moment}
    (hfirst : some first ∈ moments) :
    (moments.all fun m => m.all fun m => m.offset == first.offset) = true ↔
      HaveOneOffset moments := by
  rw [List.all_eq_true]
  constructor
  · intro h m n hm hn
    have hone (m : Moment) (hm : some m ∈ moments) : m.offset = first.offset := by
      simpa using h (some m) hm
    rw [hone m hm, hone n hn]
  · intro h m hm
    cases m with
    | none => rfl
    | some m => simpa using h m first hm hfirst

namespace Table

variable {reader : MomentReader} {cells : List RawCell} {moments : List (Option Moment)}

/-- The moments of a column are read one by one, unless they have several offsets. -/
theorem readMoments_cases (reader : MomentReader) (cells : List RawCell) :
    (HaveOneOffset (cells.map (MomentConvention.ofCells reader cells).read) ∧
      readMoments cells reader = .ok (cells.map (MomentConvention.ofCells reader cells).read)) ∨
    (¬HaveOneOffset (cells.map (MomentConvention.ofCells reader cells).read) ∧
      readMoments cells reader = .error .badValue) := by
  let form := (firstText? cells).bind reader.form?
  have hread : cells.map (MomentConvention.ofCells reader cells).read =
      (cells.map (momentOfCell? reader form)).map fun m => m.filter fun m =>
        (MomentConvention.ofCells reader cells).isOffset == some m.offset.isSome := by
    rw [List.map_map]
    rfl
  rw [hread]
  unfold readMoments
  dsimp only [MomentConvention.ofCells]
  generalize cells.map (momentOfCell? reader form) = moments
  cases hfirst : moments.findSome? id with
  | none =>
    have hnone : ∀ m ∈ moments, m = none := List.findSome?_eq_none_iff.1 hfirst
    have hsame : moments.map (fun m => m.filter fun m => none == some m.offset.isSome) =
        moments.map id := by
      refine List.map_congr_left fun m hm => ?_
      rw [hnone m hm]
      rfl
    dsimp only [Option.map_none]
    rw [hsame, List.map_id]
    exact .inl ⟨fun m n hm _ => (nomatch hnone _ hm), rfl⟩
  | some first =>
    have hmem : some first ∈ moments := by
      obtain ⟨_, hmem, hid⟩ := List.exists_of_findSome?_eq_some hfirst
      exact hid ▸ hmem
    have hsame : moments.map (fun m => m.filter fun m =>
        some first.offset.isSome == some m.offset.isSome) =
          moments.map fun m => m.filter fun m => m.offset.isSome == first.offset.isSome := by
      refine List.map_congr_left fun m _ => congrArg (Option.filter · m) (funext fun m => ?_)
      rw [Option.some_beq_some, Bool.beq_comm]
    dsimp only [Option.map_some]
    rw [hsame]
    generalize halike : (moments.map fun m =>
      m.filter fun m => m.offset.isSome == first.offset.isSome) = alike
    have hkept : some first ∈ alike := by
      rw [← halike]
      exact List.mem_map.2 ⟨some first, hmem, by simp⟩
    have hall := all_offset_eq_iff hkept
    by_cases hone : HaveOneOffset alike
    · exact .inl ⟨hone, if_pos (hall.2 hone)⟩
    · exact .inr ⟨hone, if_neg fun h => hone (hall.1 h)⟩

theorem readMoments_eq_ok :
    readMoments cells reader = .ok moments ↔
      moments = cells.map (MomentConvention.ofCells reader cells).read ∧ HaveOneOffset moments := by
  rcases readMoments_cases reader cells with ⟨hone, hread⟩ | ⟨hmixed, hread⟩
  · rw [hread]
    constructor
    · intro h
      cases h
      exact ⟨rfl, hone⟩
    · rintro ⟨rfl, -⟩
      rfl
  · rw [hread]
    refine iff_of_false (fun h => nomatch h) ?_
    rintro ⟨rfl, hone⟩
    exact hmixed hone

theorem readMoments_eq_error {failure : Failure} :
    readMoments cells reader = .error failure ↔ failure = .badValue ∧
      ¬HaveOneOffset (cells.map (MomentConvention.ofCells reader cells).read) := by
  rcases readMoments_cases reader cells with ⟨hone, hread⟩ | ⟨hmixed, hread⟩
  · rw [hread]
    exact iff_of_false (fun h => nomatch h) fun h => h.2 hone
  · rw [hread]
    exact ⟨fun h => ⟨(Except.error.inj h).symm, hmixed⟩, fun h => by rw [h.1]⟩

end Table

/-! ## Rows -/

/-- The cells of a raw row. -/
abbrev RawRow := Column → RawCell

/-- What the columns of a raw table decide as wholes: how an id is read, and how a moment is. -/
structure Reading where
  id : RawCell → Except Failure Int
  moment : RawCell → Option Moment

namespace Reading

/-- The row that a raw row gives. -/
def row (reading : Reading) (cells : RawRow) : Except Failure Row := do
  let id ← reading.id (cells .id)
  let price ← Table.readNumber (cells .price)
  let compareAtPrice ← Table.readNumber (cells .compareAtPrice)
  let rating ← Table.readNumber (cells .rating)
  let reviewCount ← Table.readNumber (cells .reviewCount)
  let bestsellerScore ← Table.readNumber (cells .bestsellerScore)
  let tags ← Table.readTags (cells .tags)
  return {
    id, title := Table.readValue (cells .title), handle := Table.readValue (cells .handle), tags,
    vendor := Table.readValue (cells .vendor), productType := Table.readValue (cells .productType),
    price, compareAtPrice, inStock := Table.readFlag true (cells .inStock).toValue, rating,
    reviewCount, createdAt := reading.moment (cells .createdAt), bestsellerScore }

/-- The reading of a table: the ids as their column is, and the moments by the convention of theirs. -/
def ofTable (raw : RawTable) (reader : MomentReader) : Reading where
  id := Table.idReader (raw.cells .id)
  moment := (MomentConvention.ofCells reader (raw.cells .createdAt)).read

/-- A row is what a raw one reads as. -/
structure Reads (reading : Reading) (cells : RawRow) (row : Row) : Prop where
  id : reading.id (cells .id) = .ok row.id
  price : Table.readNumber (cells .price) = .ok row.price
  compareAtPrice : Table.readNumber (cells .compareAtPrice) = .ok row.compareAtPrice
  rating : Table.readNumber (cells .rating) = .ok row.rating
  reviewCount : Table.readNumber (cells .reviewCount) = .ok row.reviewCount
  bestsellerScore : Table.readNumber (cells .bestsellerScore) = .ok row.bestsellerScore
  tags : Table.readTags (cells .tags) = .ok row.tags
  title : row.title = Table.readValue (cells .title)
  handle : row.handle = Table.readValue (cells .handle)
  vendor : row.vendor = Table.readValue (cells .vendor)
  productType : row.productType = Table.readValue (cells .productType)
  inStock : row.inStock = Table.readFlag true (cells .inStock).toValue
  createdAt : row.createdAt = reading.moment (cells .createdAt)

theorem row_eq_ok {reading : Reading} {cells : RawRow} {row : Row} :
    reading.row cells = .ok row ↔ reading.Reads cells row := by
  constructor
  · intro h
    obtain ⟨id, hid, h⟩ := bind_eq_ok.1 h
    obtain ⟨price, hprice, h⟩ := bind_eq_ok.1 h
    obtain ⟨compareAtPrice, hcompare, h⟩ := bind_eq_ok.1 h
    obtain ⟨rating, hrating, h⟩ := bind_eq_ok.1 h
    obtain ⟨reviewCount, hcount, h⟩ := bind_eq_ok.1 h
    obtain ⟨bestsellerScore, hscore, h⟩ := bind_eq_ok.1 h
    obtain ⟨tags, htags, h⟩ := bind_eq_ok.1 h
    cases h
    exact ⟨hid, hprice, hcompare, hrating, hcount, hscore, htags, rfl, rfl, rfl, rfl, rfl, rfl⟩
  · intro h
    obtain ⟨id, title, handle, tags, vendor, productType, price, compareAtPrice, inStock, rating,
      reviewCount, createdAt, bestsellerScore⟩ := row
    obtain ⟨hid, hprice, hcompare, hrating, hcount, hscore, htags, htitle, hhandle, hvendor, htype,
      hstock, hcreated⟩ := h
    dsimp only at htitle hhandle hvendor htype hstock hcreated
    subst htitle hhandle hvendor htype hstock hcreated
    exact bind_eq_ok.2 ⟨_, hid, bind_eq_ok.2 ⟨_, hprice, bind_eq_ok.2 ⟨_, hcompare,
      bind_eq_ok.2 ⟨_, hrating, bind_eq_ok.2 ⟨_, hcount, bind_eq_ok.2 ⟨_, hscore,
        bind_eq_ok.2 ⟨_, htags, rfl⟩⟩⟩⟩⟩⟩⟩

end Reading

/-! ## Tables -/

namespace Table

variable {raw : RawTable} {reader : MomentReader} {xs : List RawRow} {rows : List Row}

theorem readDistinctIds_eq_ok {ids : List Int} : readDistinctIds raw = .ok ids ↔
    (∀ name ∈ requiredColumns, name ∈ raw.names) ∧ readIds (raw.cells .id) = .ok ids ∧
      ids.Nodup := by
  have habsent : (requiredColumns.filter fun name => !raw.names.contains name).isEmpty = true ↔
      ∀ name ∈ requiredColumns, name ∈ raw.names := by
    rw [List.isEmpty_iff, List.filter_eq_nil_iff]
    simp
  simp only [readDistinctIds]
  constructor
  · intro h
    split at h
    · cases h
    · rename_i hpresent
      obtain ⟨ns, hns, h⟩ := bind_eq_ok.1 h
      split at h
      · cases h
      · rename_i hrepeated
        cases h
        exact ⟨habsent.1 (by simpa using hpresent), hns,
          hasRepetition_eq_false.1 (Bool.eq_false_iff.2 hrepeated)⟩
  · rintro ⟨hnames, hids, hnodup⟩
    rw [if_neg (by simpa using habsent.2 hnames)]
    refine bind_eq_ok.2 ⟨ids, hids, ?_⟩
    rw [hasRepetition_eq_false.2 hnodup]
    rfl

section Rows

variable (hcells : ∀ column, raw.cells column = xs.map fun cells => cells column)

include hcells

theorem mapM_cells {α : Type} (f : RawCell → Except Failure α) (column : Column) :
    (raw.cells column).mapM f = xs.mapM fun cells => f (cells column) := by
  rw [hcells, List.mapM_map]
  rfl

theorem readIds_cells (reader : MomentReader) : readIds (raw.cells .id) =
    xs.mapM fun cells => (Reading.ofTable raw reader).id (cells .id) := by
  rw [readIds_eq_mapM]
  exact mapM_cells hcells _ .id

theorem map_moment_cells : (raw.cells .createdAt).map (Reading.ofTable raw reader).moment =
    xs.map fun cells => (Reading.ofTable raw reader).moment (cells .createdAt) := by
  rw [hcells, List.map_map]
  rfl

/-- Where every raw row reads as a row and no id occurs twice, the moments alone can be refused. -/
theorem readRows_of_rows (hnames : ∀ name ∈ requiredColumns, name ∈ raw.names)
    (hrows : xs.mapM (Reading.ofTable raw reader).row = .ok rows) (hnodup : (rows.map (·.id)).Nodup) :
    readRows raw reader = (readMoments (raw.cells .createdAt) reader).map fun _ => rows := by
  have : Inhabited Row := ⟨.blank 0⟩
  obtain ⟨g, rfl, hread⟩ := exists_map_of_mapM_eq_ok hrows
  have hreads (x : RawRow) (hx : x ∈ xs) := Reading.row_eq_ok.1 (hread x hx)
  have hcolumn {α : Type} {f : RawCell → Except Failure α} {column : Column} {k : Row → α}
      (hk : ∀ x ∈ xs, f (x column) = .ok (k (g x))) :
      (raw.cells column).mapM f = .ok (xs.map fun x => k (g x)) := by
    rw [mapM_cells hcells]
    exact mapM_eq_ok_map hk
  have hdistinct : readDistinctIds raw = .ok (xs.map fun x => (g x).id) := by
    refine readDistinctIds_eq_ok.2 ⟨hnames, ?_, by rwa [List.map_map] at hnodup⟩
    rw [readIds_cells hcells reader]
    exact mapM_eq_ok_map fun x hx => (hreads x hx).id
  unfold readRows
  rw [hdistinct, hcolumn fun x hx => (hreads x hx).price,
    hcolumn fun x hx => (hreads x hx).compareAtPrice, hcolumn fun x hx => (hreads x hx).rating,
    hcolumn fun x hx => (hreads x hx).reviewCount,
    hcolumn fun x hx => (hreads x hx).bestsellerScore, hcolumn fun x hx => (hreads x hx).tags]
  cases hmoments : readMoments (raw.cells .createdAt) reader with
  | error failure => rfl
  | ok moments =>
    obtain rfl : moments = xs.map fun x => (Reading.ofTable raw reader).moment (x .createdAt) :=
      (readMoments_eq_ok.1 hmoments).1.trans (map_moment_cells hcells)
    show Except.ok _ = Except.ok (xs.map g)
    simp only [hcells, List.map_map, fill_map]
    refine congrArg Except.ok (List.map_congr_left fun x hx => ?_)
    have hx := hreads x hx
    show Row.mk _ _ _ _ _ _ _ _ _ _ _ _ _ = g x
    simp only [Function.comp_apply, ← hx.title, ← hx.handle, ← hx.vendor, ← hx.productType,
      ← hx.inStock, ← hx.createdAt]
    rfl

/-- A raw table is read row by row: it has rows if it has the columns it needs, each of its raw rows
reads as a row, no id occurs twice, and the moments do not have several offsets. -/
theorem readRows_eq_ok : readRows raw reader = .ok rows ↔
    (∀ name ∈ requiredColumns, name ∈ raw.names) ∧
    xs.mapM (Reading.ofTable raw reader).row = .ok rows ∧ (rows.map (·.id)).Nodup ∧
    HaveOneOffset (rows.map (·.createdAt)) := by
  constructor
  · intro h
    obtain ⟨ids, hdistinct, h⟩ := bind_eq_ok.1 h
    obtain ⟨prices, hprices, h⟩ := bind_eq_ok.1 h
    obtain ⟨compareAtPrices, hcompare, h⟩ := bind_eq_ok.1 h
    obtain ⟨ratings, hratings, h⟩ := bind_eq_ok.1 h
    obtain ⟨reviewCounts, hcounts, h⟩ := bind_eq_ok.1 h
    obtain ⟨bestsellerScores, hscores, h⟩ := bind_eq_ok.1 h
    obtain ⟨tags, htags, h⟩ := bind_eq_ok.1 h
    obtain ⟨createdAt, hcreated, h⟩ := bind_eq_ok.1 h
    obtain ⟨hnames, hread, hnodup⟩ := readDistinctIds_eq_ok.1 hdistinct
    obtain ⟨hcreatedAt, hone⟩ := readMoments_eq_ok.1 hcreated
    rw [mapM_cells hcells] at hprices hcompare hratings hcounts hscores htags
    rw [readIds_cells hcells reader] at hread
    obtain ⟨id, rfl, hid⟩ := exists_map_of_mapM_eq_ok hread
    obtain ⟨price, rfl, hprice⟩ := exists_map_of_mapM_eq_ok hprices
    obtain ⟨compareAtPrice, rfl, hcompareAt⟩ := exists_map_of_mapM_eq_ok hcompare
    obtain ⟨rating, rfl, hrating⟩ := exists_map_of_mapM_eq_ok hratings
    obtain ⟨count, rfl, hcount⟩ := exists_map_of_mapM_eq_ok hcounts
    obtain ⟨score, rfl, hscore⟩ := exists_map_of_mapM_eq_ok hscores
    obtain ⟨tagText, rfl, htagText⟩ := exists_map_of_mapM_eq_ok htags
    obtain rfl : createdAt = _ := hcreatedAt.trans (map_moment_cells hcells)
    cases h
    simp only [hcells, List.map_map, fill_map]
    refine ⟨hnames, mapM_eq_ok_map fun x hx => Reading.row_eq_ok.2 ?_, hnodup, hone⟩
    exact ⟨hid x hx, hprice x hx, hcompareAt x hx, hrating x hx, hcount x hx, hscore x hx,
      htagText x hx, rfl, rfl, rfl, rfl, rfl, rfl⟩
  · rintro ⟨hnames, hrows, hnodup, hone⟩
    have hcreated : rows.map (·.createdAt) =
        xs.map fun cells => (Reading.ofTable raw reader).moment (cells .createdAt) :=
      map_eq_of_mapM_eq_ok (fun _ _ hrow => (Reading.row_eq_ok.1 hrow).createdAt) hrows
    have hmoments : readMoments (raw.cells .createdAt) reader = .ok (rows.map (·.createdAt)) :=
      readMoments_eq_ok.2 ⟨hcreated.trans (map_moment_cells hcells).symm, hone⟩
    rw [readRows_of_rows hcells hnames hrows hnodup, hmoments]
    rfl

end Rows

end Table

/-! ## Records -/

namespace RawTable

/-- What the cells of a column of records have in common. -/
def shapeOf (records : List RawRecord) (column : Column) : ColumnShape :=
  columnShape (records.map fun record => (record.lookup column.name).getD .null)

/-- The raw row of a record among columns of given shapes; whole numbers among doubles are widened. -/
def rowOf (shape : Column → ColumnShape) (record : RawRecord) : RawRow := fun column =>
  let cell := (record.lookup column.name).getD .null
  if shape column = .doubles then cell.widen else cell

/-- The raw rows of records. -/
def rowsOf (records : List RawRecord) : List RawRow := records.map (rowOf (shapeOf records))

theorem mem_foldl_names {names known : List String} {name : String} :
    name ∈ names.foldl (fun names name => if names.contains name then names else names ++ [name])
        known ↔ name ∈ known ∨ name ∈ names := by
  induction names generalizing known with
  | nil => simp
  | cons first names ih =>
    rw [List.foldl_cons, ih, List.mem_cons]
    by_cases hfirst : known.contains first = true
    · have hmem : first ∈ known := by simpa using hfirst
      rw [if_pos hfirst]
      constructor
      · exact fun h => h.imp_right .inr
      · rintro (h | rfl | h)
        · exact .inl h
        · exact .inl hmem
        · exact .inr h
    · rw [if_neg hfirst, List.mem_append, List.mem_singleton, or_assoc]

/-- The fields of records are those of each. -/
theorem mem_fieldNames {records : List RawRecord} {name : String} :
    name ∈ fieldNames records ↔ ∃ record ∈ records, name ∈ record.map Prod.fst := by
  unfold fieldNames
  rw [mem_foldl_names, List.mem_flatMap]
  simp

theorem names_ofRecords (records : List RawRecord) :
    (ofRecords records).names = fieldNames records := by
  unfold names ofRecords
  rw [List.map_map]
  exact List.map_id' _

theorem lookup_map_mk {α : Type} (f : String → α) (names : List String) (name : String) :
    (names.map fun n => (n, f n)).lookup name = if name ∈ names then some (f name) else none := by
  induction names with
  | nil => rfl
  | cons first names ih =>
    rw [List.map_cons, List.lookup_cons, ih]
    by_cases hfirst : name = first
    · simp [hfirst]
    · have hbeq : (name == first) = false := by simpa using hfirst
      simp [hbeq, hfirst]

/-- A field that no record has is missing in each. -/
theorem lookup_of_not_mem_fieldNames {records : List RawRecord} {name : String}
    (h : name ∉ fieldNames records) {record : RawRecord} (hrecord : record ∈ records) :
    record.lookup name = none := by
  rw [List.lookup_eq_none_iff]
  intro field hfield
  have hne : name ≠ field.1 := by
    rintro rfl
    exact h (mem_fieldNames.2 ⟨record, hrecord, List.mem_map_of_mem hfield⟩)
  simpa using hne

/-- The cells of a table of records are those of its raw rows. -/
theorem cells_ofRecords (records : List RawRecord) (column : Column) :
    (ofRecords records).cells column = (rowsOf records).map fun cells => cells column := by
  unfold rowsOf
  rw [List.map_map]
  unfold cells ofRecords
  rw [lookup_map_mk]
  by_cases hname : column.name ∈ fieldNames records
  · rw [if_pos hname, Option.getD_some]
    show keptCells _ = records.map fun record =>
      if shapeOf records column = .doubles then _ else _
    unfold keptCells shapeOf
    split
    · rw [List.map_map]
      rfl
    · rfl
  · have hmissing : ∀ record ∈ records, (record.lookup column.name).getD .null = .null := by
      intro record hrecord
      rw [lookup_of_not_mem_fieldNames hname hrecord]
      rfl
    have hshape : shapeOf records column = .missing := by
      unfold shapeOf columnShape
      rw [List.map_congr_left hmissing, if_pos]
      simp [RawCell.null, RawCell.isMissing, Value.isMissing]
    have hcell : ∀ record ∈ records, rowOf (shapeOf records) record column = .null := by
      intro record hrecord
      unfold rowOf
      rw [hshape, hmissing record hrecord]
      rfl
    rw [if_neg hname, Option.getD_none]
    show List.replicate records.length RawCell.null =
      records.map fun record => rowOf (shapeOf records) record column
    rw [List.map_congr_left hcell, List.map_const']

end RawTable

end Storefront
