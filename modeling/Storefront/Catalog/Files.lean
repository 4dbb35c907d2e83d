import Storefront.Catalog.Store
import Storefront.Sheet.Basic

/-!
# Catalogs in files

A catalog is loaded from three sheets: products, collections and memberships. A membership says that
a product is in a collection at a position.

* `CatalogFile`, `CatalogFiles`: the files of a catalog
* `membershipsOfSheet`: members in order of their positions
* `Store.ofFiles`: the store of a catalog's files
* `Store.ofFiles_eq_ok`: when files give a store, and which
-/

namespace Storefront

/-! ## Files -/

/-- A file that a catalog may have. -/
inductive CatalogFile where
  /-- No file is named. -/
  | unnamed
  /-- The file that is named does not exist. -/
  | absent
  /-- The file has this text. -/
  | text (content : String)

/-- The files of a catalog. -/
structure CatalogFiles where
  products : CatalogFile
  collections : CatalogFile := .unnamed
  memberships : CatalogFile := .unnamed

/-- The columns that each file needs. -/
def requiredProductColumns : List String := ["id", "price"]

@[inherit_doc requiredProductColumns]
def requiredCollectionColumns : List String := ["id", "is_smart"]

@[inherit_doc requiredProductColumns]
def requiredMembershipColumns : List String := ["collection_id", "product_id", "position"]

/-- The sheet in a text, which must have the columns it needs. -/
def readSheet (label : String) (required : List String) (text : String) :
    Except Failure Sheet :=
  match Sheet.read? text with
  | none => .error .badValue
  | some sheet =>
    let absent := required.filter fun name => !sheet.names.contains name
    if absent.isEmpty then .ok sheet else .error (.missingColumns (label ++ " CSV") absent)

/-- The sheet in a file, if a file is named. -/
def CatalogFile.sheet? (label : String) (required : List String) :
    CatalogFile → Except Failure (Option Sheet)
  | .unnamed => .ok none
  | .absent => .error .missingFile
  | .text content => (readSheet label required content).map some

/-! ## Memberships -/

/-- A line of a memberships sheet. -/
structure MembershipLine where
  collection : Value
  product : Value
  position : Value

/-- The lines of a memberships sheet. -/
def membershipLines (sheet : Sheet) : List MembershipLine :=
  sheet.records.map fun fields =>
    let cell (name : String) := (fields.lookup name).getD .null
    ⟨cell "collection_id", cell "product_id", cell "position"⟩

/-- A value comes before another one or stands level with it; missing values come last. -/
def comesBefore (v w : Value) : Bool :=
  if w.isMissing then true
  else if v.isMissing then false
  else match v.order? w with
    | some (some order) => order != .gt
    | _ => true

/-- The lines in order of position, those of one position in order of the sheet. -/
def inOrderOfPosition (lines : List MembershipLine) : List MembershipLine :=
  sortBy (fun a b => comesBefore a.position b.position) lines

/-- The collections of lines in ascending order, each with its lines in order of position.

Lines without a collection do not count. -/
def linesByCollection (lines : List MembershipLine) : List (Value × List MembershipLine) :=
  let named := (inOrderOfPosition lines).filter (!·.collection.isMissing)
  let collections := (sortBy comesBefore (named.map (·.collection))).foldl
    (fun seen v => if seen.any v.equals then seen else seen ++ [v]) []
  collections.map fun v => (v, named.filter fun line => line.collection.equals v)

/-- The memberships that a sheet lists. -/
def membershipsOfSheet (sheet : Sheet) : Except Failure Memberships :=
  (linesByCollection (membershipLines sheet)).foldlM (fun memberships group => do
    let collection ← idOfValue group.1
    let members ← group.2.mapM fun line => Member.ofId <$> idOfValue line.product
    return memberships.replace collection members) Memberships.empty

/-! ## The store -/

/-- The raw table of a sheet of products. -/
def rawTableOfSheet (sheet : Sheet) : RawTable where
  columns := sheet.columns.map fun column => (column.1, column.2.map RawCell.value)
  height := sheet.rows.length

/-- The sheet of products, which must exist and list a product. -/
def productsSheet (file : CatalogFile) : Except Failure Sheet := do
  match ← file.sheet? "products" requiredProductColumns with
  | none => throw .missingFile
  | some sheet => if sheet.rows.isEmpty then throw .noProducts else return sheet

namespace Store

/-- The store that the files of a catalog give; collections and memberships may be left out. -/
def ofFiles (files : CatalogFiles) (reader : MomentReader := .known) : Except Failure Store := do
  let products ← productsSheet files.products
  let collections ← files.collections.sheet? "collections" requiredCollectionColumns
  let memberships ← match ← files.memberships.sheet? "memberships" requiredMembershipColumns with
    | none => pure Memberships.empty
    | some sheet => membershipsOfSheet sheet
  let table ← Table.ofRaw (rawTableOfSheet products) reader
  let collections ← ((collections.map Sheet.records).getD []).mapM Collection.ofRow
  return ofParts table collections memberships

/-- Files give a store that is put together from a table, collections and memberships, each read from
its own file. -/
theorem ofFiles_eq_ok {files : CatalogFiles} {reader : MomentReader} {s : Store} :
    ofFiles files reader = .ok s ↔ ∃ products collections memberships table rows,
      productsSheet files.products = .ok products ∧
      files.collections.sheet? "collections" requiredCollectionColumns = .ok collections ∧
      files.memberships.sheet? "memberships" requiredMembershipColumns = .ok memberships ∧
      memberships.elim (.ok .empty) membershipsOfSheet = .ok s.memberships ∧
      Table.ofRaw (rawTableOfSheet products) reader = .ok table ∧
      ((collections.map Sheet.records).getD []).mapM Collection.ofRow = .ok rows ∧
      s = ofParts table rows s.memberships := by
  constructor
  · intro h
    obtain ⟨products, hproducts, h⟩ := bind_eq_ok.1 h
    obtain ⟨collections, hcollections, h⟩ := bind_eq_ok.1 h
    obtain ⟨sheet, hsheet, h⟩ := bind_eq_ok.1 h
    obtain ⟨memberships, hmemberships, h⟩ : ∃ memberships,
        sheet.elim (.ok .empty) membershipsOfSheet = .ok memberships ∧ (do
          let table ← Table.ofRaw (rawTableOfSheet products) reader
          let rows ← ((collections.map Sheet.records).getD []).mapM Collection.ofRow
          return ofParts table rows memberships) = Except.ok s := by
      cases sheet with
      | none => exact ⟨.empty, rfl, h⟩
      | some sheet => exact bind_eq_ok.1 h
    obtain ⟨table, htable, h⟩ := bind_eq_ok.1 h
    obtain ⟨rows, hrows, h⟩ := bind_eq_ok.1 h
    cases h
    exact ⟨products, collections, sheet, table, rows, hproducts, hcollections, hsheet,
      hmemberships, htable, hrows, rfl⟩
  · intro h
    obtain ⟨products, collections, sheet, table, rows, hproducts, hcollections, hsheet,
      hmemberships, htable, hrows, hs⟩ := h
    rw [hs]
    refine bind_eq_ok.2 ⟨products, hproducts, bind_eq_ok.2 ⟨collections, hcollections, ?_⟩⟩
    refine bind_eq_ok.2 ⟨sheet, hsheet, ?_⟩
    have hstore : (do
        let table ← Table.ofRaw (rawTableOfSheet products) reader
        let rows ← ((collections.map Sheet.records).getD []).mapM Collection.ofRow
        return ofParts table rows s.memberships) = Except.ok (ofParts table rows s.memberships) :=
      bind_eq_ok.2 ⟨table, htable, bind_eq_ok.2 ⟨rows, hrows, rfl⟩⟩
    cases sheet with
    | none =>
      rw [← Except.ok.inj hmemberships] at hstore ⊢
      exact hstore
    | some sheet => exact bind_eq_ok.2 ⟨s.memberships, hmemberships, hstore⟩

end Store

end Storefront
