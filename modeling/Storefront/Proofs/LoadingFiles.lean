import Storefront.Proofs.Degrading
import Storefront.Proofs.SheetFailures

/-!
# Failures of loading

Loading the files of a catalog gives a store, or fails with one of the promised failures, or
fails for one of three values in the sheets. Which of these it is can be told from the files.

* `CatalogFiles.HaveSheets`: the sheets of a catalog's files
* `CatalogFiles.Escapes`: what the files hold when loading does not keep its promise
* `Store.ofFiles_fails`: how loading ends
-/

namespace Storefront

/-! ## Catalogs -/

/-- The sheet of a file has the columns that it needs. -/
theorem mem_names_of_sheet? {file : CatalogFile} {label : String} {required : List String}
    {sheet : Sheet} (h : file.sheet? label required = .ok (some sheet)) :
    ∀ name ∈ required, name ∈ sheet.names := by
  cases file with
  | unnamed | absent => cases h
  | text content =>
    obtain ⟨other, hother, hsame⟩ := map_eq_ok.1 h
    cases hsame
    unfold readSheet at hother
    split at hother
    · cases hother
    · dsimp only at hother
      split at hother
      · rename_i hnone
        cases hother
        intro name hname
        have habsent := List.filter_eq_nil_iff.1 (List.isEmpty_iff.1 hnone) name hname
        simpa using habsent
      · cases hother

theorem mem_names_of_productsSheet {file : CatalogFile} {sheet : Sheet}
    (h : productsSheet file = .ok sheet) : ∀ name ∈ requiredProductColumns, name ∈ sheet.names := by
  obtain ⟨other, hother, h⟩ := bind_eq_ok.1 h
  split at h
  · cases h
  · split at h
    · cases h
    · cases h
      exact mem_names_of_sheet? hother

/-- The files of a catalog have these sheets. -/
structure CatalogFiles.HaveSheets (files : CatalogFiles) (products : Sheet)
    (collections memberships : Option Sheet) : Prop where
  products_eq : productsSheet files.products = .ok products
  collections_eq :
    files.collections.sheet? "collections" requiredCollectionColumns = .ok collections
  memberships_eq :
    files.memberships.sheet? "memberships" requiredMembershipColumns = .ok memberships

/-- How loading fails otherwise than with a promised failure. -/
inductive CatalogFiles.Escapes (files : CatalogFiles) : Failure → Prop
  /-- An id in the sheet of memberships is infinite. -/
  | infiniteMember {products sheet : Sheet} {collections : Option Sheet}
    (sheets : files.HaveSheets products collections (some sheet))
    (ids : HasInfiniteId (idsOfMemberships sheet)) : Escapes files .overflow
  /-- An id of a product is a text of a whole number with more than 64 bits. -/
  | longId {products : Sheet} {collections memberships : Option Sheet} {m : Memberships}
    (sheets : files.HaveSheets products collections memberships)
    (members : memberships.elim (.ok .empty) membershipsOfSheet = .ok m)
    (ids : Table.HasLongId (products.column "id")) : Escapes files .overflow
  /-- The tags of a product are a number or a flag. -/
  | tagsWithoutText {products : Sheet} {collections memberships : Option Sheet} {m : Memberships}
    {ids : List Int} (sheets : files.HaveSheets products collections memberships)
    (members : memberships.elim (.ok .empty) membershipsOfSheet = .ok m)
    (ids_eq : Table.readDistinctIds (rawTableOfSheet products) = .ok ids)
    (tags : Table.HasTagsWithoutText (products.column "tags")) : Escapes files .wrongType

namespace Store

variable {files : CatalogFiles} {products : Sheet} {collections memberships : Option Sheet}
  {reader : MomentReader}

/-- Files with sheets are loaded by reading the memberships, the products and the collections. -/
theorem ofFiles_of_haveSheets (h : files.HaveSheets products collections memberships) :
    ofFiles files reader = do
      let m ← memberships.elim (.ok .empty) membershipsOfSheet
      let table ← Table.ofRaw (rawTableOfSheet products) reader
      let rows ← ((collections.map Sheet.records).getD []).mapM Collection.ofRow
      return ofParts table rows m := by
  unfold ofFiles
  rw [h.products_eq, h.collections_eq, h.memberships_eq]
  cases memberships with
  | none => rfl
  | some sheet => rfl

/-- Files that do not have the sheets of a catalog are refused as promised. -/
theorem haveSheets_or_isPromised {f : Failure} (h : ofFiles files reader = .error f) :
    f.IsPromised ∨ ∃ products collections memberships,
      files.HaveSheets products collections memberships := by
  rcases bind_eq_error.1 h with hproducts | ⟨products, hproducts, h⟩
  · exact .inl (isPromised_of_productsSheet hproducts)
  · rcases bind_eq_error.1 h with hcollections | ⟨collections, hcollections, h⟩
    · exact .inl (isPromised_of_sheet? hcollections)
    · rcases bind_eq_error.1 h with hmemberships | ⟨memberships, hmemberships, -⟩
      · exact .inl (isPromised_of_sheet? hmemberships)
      · exact .inr ⟨products, collections, memberships, hproducts, hcollections, hmemberships⟩

/-- Every failure of loading is a promised one, or can be told from what the sheets say. -/
theorem isPromised_or_escapes {f : Failure} (h : ofFiles files reader = .error f) :
    f.IsPromised ∨ files.Escapes f := by
  rcases haveSheets_or_isPromised h with hpromised | ⟨products, collections, memberships, hsheets⟩
  · exact .inl hpromised
  rw [ofFiles_of_haveSheets hsheets] at h
  rcases bind_eq_error.1 h with hmembers | ⟨m, hmembers, h⟩
  · cases memberships with
    | none => cases hmembers
    | some sheet =>
      refine (membershipsOfSheet_cases (mem_names_of_sheet? hsheets.memberships_eq)
        hmembers).imp_right ?_
      rintro ⟨rfl, hids⟩
      exact .infiniteMember hsheets hids
  rcases bind_eq_error.1 h with htable | ⟨table, -, h⟩
  · rcases Table.readRows_eq_error.1 (Table.ofRaw_eq_error htable) with hids | ⟨ids, hids, hrows⟩
    · have hid := mem_names_of_productsSheet hsheets.products_eq "id" (by decide)
      refine (Table.readDistinctIds_cases hid hids).imp_right ?_
      rintro ⟨rfl, hlong⟩
      exact .longId hsheets hmembers hlong
    · rcases hrows with htags | ⟨tags, -, hmoments⟩
      · obtain ⟨rfl, hnone⟩ := Table.readTags_eq_error.1 htags
        exact .inr (.tagsWithoutText hsheets hmembers hids hnone)
      · cases (Table.readMoments_eq_error.1 hmoments).1
        exact .inl (by decide)
  · rcases bind_eq_error.1 h with hrows | ⟨rows, -, h⟩
    · obtain ⟨fields, -, hfields⟩ := exists_of_mapM_eq_error hrows
      obtain ⟨faults, rfl⟩ := Checked.exists_of_result_eq_error hfields
      exact .inl (show "ValidationError" ∈ Failure.promisedKinds by decide)
    · cases h

/-- What can be told from what the sheets say is a failure of loading, and is not promised. -/
theorem ofFiles_of_escapes {f : Failure} (h : files.Escapes f) :
    ofFiles files reader = .error f ∧ ¬f.IsPromised := by
  cases h with
  | infiniteMember sheets ids =>
    refine ⟨?_, by decide⟩
    rw [ofFiles_of_haveSheets sheets]
    exact bind_eq_error.2 (.inl (membershipsOfSheet_of_hasInfiniteId ids))
  | longId sheets members ids =>
    have hids := Table.readDistinctIds_of_hasLongId
      (mem_names_of_productsSheet sheets.products_eq) ids
    refine ⟨?_, by decide⟩
    rw [ofFiles_of_haveSheets sheets]
    refine bind_eq_error.2 (.inr ⟨_, members, bind_eq_error.2 (.inl ?_)⟩)
    exact Table.ofRaw_of_readRows_eq_error (Table.readRows_eq_error.2 (.inl hids))
  | tagsWithoutText sheets members ids_eq tags =>
    have htags := Table.readTags_eq_error.2 ⟨rfl, tags⟩
    refine ⟨?_, by decide⟩
    rw [ofFiles_of_haveSheets sheets]
    refine bind_eq_error.2 (.inr ⟨_, members, bind_eq_error.2 (.inl ?_)⟩)
    exact Table.ofRaw_of_readRows_eq_error (Table.readRows_eq_error.2
      (.inr ⟨_, ids_eq, .inl htags⟩))

/-- Loading the files of a catalog gives a store or fails as promised, unless an id of a membership
is infinite, an id of a product is too long or the tags of a product are no text. Then it fails, and
not as promised. How moments are read from texts makes no difference to this. -/
theorem ofFiles_fails (files : CatalogFiles) (reader : MomentReader) :
    ((∃ s, ofFiles files reader = .ok s) ∨
      ∃ f, ofFiles files reader = .error f ∧ (f.IsPromised ∨ files.Escapes f)) ∧
    ∀ f, files.Escapes f → ofFiles files reader = .error f ∧ ¬f.IsPromised := by
  refine ⟨?_, fun f h => ofFiles_of_escapes h⟩
  cases h : ofFiles files reader with
  | ok s => exact .inl ⟨s, rfl⟩
  | error f => exact .inr ⟨f, rfl, isPromised_or_escapes h⟩

/-- The kind of the failure of loading, if it fails. -/
def failureKind? (files : CatalogFiles) : Option String :=
  match ofFiles files with
  | .ok _ => none
  | .error f => some f.kind

/-- A catalog in which the only tag is written in digits. -/
def taggedFive : CatalogFiles := { products := .text "id,price,tags\n1,1,5\n" }

/-- Loading does not always keep its promise. -/
theorem not_forall_isPromised : ¬ ∀ files, (∃ s, ofFiles files = .ok s) ∨
    ∃ f, ofFiles files = .error f ∧ f.IsPromised := by
  intro h
  have hkind : failureKind? taggedFive = some "TypeError" := by decide +kernel
  unfold failureKind? at hkind
  rcases h taggedFive with ⟨s, hs⟩ | ⟨f, hf, hpromised⟩
  · rw [hs] at hkind
    cases hkind
  · rw [hf] at hkind
    unfold Failure.IsPromised at hpromised
    rw [Option.some.inj hkind] at hpromised
    exact absurd hpromised (by decide)

end Store

end Storefront
