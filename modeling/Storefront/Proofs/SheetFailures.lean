import Storefront.Proofs.Rounding
import Storefront.Proofs.RowOrder
import Storefront.Proofs.SheetColumns

/-!
# Failures of reading sheets

Loading a catalog is to fail because a file does not exist or a value is bad, and in no other
way. Reading the sheets keeps to that but for three values: an infinite id of a membership, an id of
a product that is a text of too long a whole number, and tags that are a number or a flag. When the
sheets fail for one of these can be told from their values.

* `Failure.IsPromised`: the failures that loading is to have
* `idsOfMemberships`, `membershipsOfSheet_cases`: ids of memberships, and how they fail
* `Table.readIds_cases`, `Table.exists_readNumbers`, `Table.readTags_eq_error`: columns of products
* `Table.readRows_eq_error`: how a sheet of products fails
-/

namespace Storefront

/-- The doubles nearest to whole numbers of 64 bits are finite. -/
theorem Magnitude.isFinite_nearest {n : Nat} (h : n ≤ 2 ^ 64) :
    (Magnitude.nearest n 1).isFinite = true := by
  have hlast : (Magnitude.nearest (2 ^ 64) 1).index < finiteMagnitudes := by decide +kernel
  have hmono : (Magnitude.nearest n 1).index ≤ (Magnitude.nearest (2 ^ 64) 1).index := by
    unfold nearest
    rw [nearestUnits_eq_nearestTo _ Nat.one_pos, nearestUnits_eq_nearestTo _ Nat.one_pos]
    refine nearestTo_mono (div_nonneg (Nat.cast_nonneg _) (Nat.cast_nonneg _)) ?_
    exact div_le_div_of_nonneg_right (Nat.cast_le.2 (Nat.mul_le_mul_right _ h)) (Nat.cast_nonneg _)
  exact decide_eq_true (Nat.lt_of_le_of_lt hmono hlast)

/-! ## The promise -/

/-- The kinds of the failures that loading is to have. -/
def Failure.promisedKinds : List String := ["FileNotFoundError", "ValueError", "ValidationError"]

/-- A failure that loading is to have: a file does not exist, or a value is bad. -/
def Failure.IsPromised (f : Failure) : Prop := f.kind ∈ promisedKinds

instance (f : Failure) : Decidable f.IsPromised := inferInstanceAs (Decidable (_ ∈ _))

variable {f : Failure}

theorem isPromised_of_sheet? {file : CatalogFile} {label : String} {required : List String}
    (h : file.sheet? label required = .error f) : f.IsPromised := by
  cases file with
  | unnamed => cases h
  | absent =>
    cases h
    decide
  | text content =>
    unfold CatalogFile.sheet? readSheet at h
    dsimp only at h
    split at h
    · cases h
      decide
    · split at h
      · cases h
      · cases h
        show "ValueError" ∈ Failure.promisedKinds
        decide

theorem isPromised_of_productsSheet {file : CatalogFile} (h : productsSheet file = .error f) :
    f.IsPromised := by
  rcases bind_eq_error.1 h with h | ⟨sheet, -, h⟩
  · exact isPromised_of_sheet? h
  · split at h
    · cases h
      decide
    · split at h
      · cases h
        decide
      · cases h

/-! ## Ids of memberships -/

/-- The ids of a sheet of memberships in the order in which they are read: for each collection its
own id and those of its members. -/
def idsOfMemberships (sheet : Sheet) : List Value :=
  (linesByCollection (membershipLines sheet)).flatMap fun group =>
    group.1 :: group.2.map (·.product)

/-- Reads the members of one collection. -/
def readGroup (memberships : Memberships) (group : Value × List MembershipLine) :
    Except Failure Memberships := do
  let collection ← idOfValue group.1
  let members ← group.2.mapM fun line => Member.ofId <$> idOfValue line.product
  return memberships.replace collection members

/-- Reading the members of one collection fails as the first of the ids that is none. -/
theorem readGroup_eq_error {memberships : Memberships} {group : Value × List MembershipLine} :
    readGroup memberships group = .error f ↔
      firstFailure idOfValue (group.1 :: group.2.map (·.product)) = some f := by
  rw [readGroup, firstFailure, firstFailure_map, ← firstFailure_result _ Member.ofId, bind_eq_error]
  cases hcollection : idOfValue group.1 with
  | error e => simp
  | ok collection =>
    dsimp only
    rw [firstFailure_eq_some]
    constructor
    · rintro (h | ⟨n, hn, h⟩)
      · cases h
      · rcases bind_eq_error.1 h with h | ⟨members, -, h⟩
        · exact h
        · cases h
    · intro h
      exact .inr ⟨collection, rfl, bind_eq_error.2 (.inl h)⟩

/-- A sheet of memberships fails as the first of its ids that is none. -/
theorem membershipsOfSheet_eq_error {sheet : Sheet} : membershipsOfSheet sheet = .error f ↔
    firstFailure idOfValue (idsOfMemberships sheet) = some f := by
  show (linesByCollection (membershipLines sheet)).foldlM readGroup .empty = .error f ↔ _
  unfold idsOfMemberships
  generalize Memberships.empty = memberships
  induction linesByCollection (membershipLines sheet) generalizing memberships with
  | nil => exact ⟨fun h => (nomatch h), fun h => (nomatch h)⟩
  | cons group groups ih =>
    rw [List.foldlM_cons, List.flatMap_cons, firstFailure_append, bind_eq_error]
    cases hgroup : readGroup memberships group with
    | error e => simp [readGroup_eq_error.1 hgroup]
    | ok next =>
      have hnone : firstFailure idOfValue (group.1 :: group.2.map (·.product)) = none := by
        rw [Option.eq_none_iff_forall_ne_some]
        intro e he
        cases hgroup.symm.trans (readGroup_eq_error.2 he)
      rw [hnone, Option.none_or, ← ih next]
      simp

/-- The first id of a sheet of memberships that is none is infinite. -/
def HasInfiniteId (ids : List Value) : Prop :=
  ∃ before negative after, ids = before ++ .float (.signed negative .infinity) :: after ∧
    ∀ v ∈ before, ∃ id, idOfValue v = .ok id

/-- The lines by collection have nothing in them but what the lines have. -/
theorem mem_linesByCollection {lines : List MembershipLine}
    {group : Value × List MembershipLine} (h : group ∈ linesByCollection lines) :
    group.1 ∈ lines.map (·.collection) ∧ ∀ line ∈ group.2, line ∈ lines := by
  have hdistinct (vs seen : List Value) :
      ∀ v ∈ vs.foldl (fun seen v => if seen.any v.equals then seen else seen ++ [v]) seen,
        v ∈ seen ∨ v ∈ vs := by
    induction vs generalizing seen with
    | nil => exact fun v hv => .inl hv
    | cons w vs ih =>
      intro v hv
      rw [List.foldl_cons] at hv
      rcases ih _ v hv with hseen | hvs
      · split at hseen
        · exact .inl hseen
        · rcases List.mem_append.1 hseen with hseen | hnew
          · exact .inl hseen
          · exact .inr (List.mem_singleton.1 hnew ▸ List.mem_cons_self)
      · exact .inr (List.mem_cons_of_mem w hvs)
  have hnamed {line : MembershipLine}
      (hline : line ∈ (inOrderOfPosition lines).filter (!·.collection.isMissing)) :
      line ∈ lines := mem_sortBy.1 (List.mem_filter.1 hline).1
  obtain ⟨v, hv, rfl⟩ := List.mem_map.1 h
  constructor
  · rcases hdistinct _ _ v hv with hnone | hv
    · cases hnone
    · obtain ⟨line, hline, rfl⟩ := List.mem_map.1 (mem_sortBy.1 hv)
      exact List.mem_map_of_mem (hnamed hline)
  · exact fun line hline => hnamed (List.mem_filter.1 hline).1

/-- The ids of a sheet of memberships are numbers, flags or texts. -/
theorem isScalar_of_mem_idsOfMemberships {sheet : Sheet}
    (h : ∀ name ∈ requiredMembershipColumns, name ∈ sheet.names) {v : Value}
    (hv : v ∈ idsOfMemberships sheet) : v.isScalar = true := by
  obtain ⟨group, hgroup, hv⟩ := List.mem_flatMap.1 hv
  obtain ⟨hcollection, hlines⟩ := mem_linesByCollection hgroup
  rcases List.mem_cons.1 hv with rfl | hv
  · obtain ⟨line, hline, hsame⟩ := List.mem_map.1 hcollection
    exact hsame ▸ (isScalar_of_mem_membershipLines h hline).1
  · obtain ⟨line, hline, rfl⟩ := List.mem_map.1 hv
    exact (isScalar_of_mem_membershipLines h (hlines line hline)).2

/-- An id that is none is a bad value, a text that is no whole number, or infinite. -/
theorem idOfValue_eq_error {v : Value} (hv : v.isScalar = true) (h : idOfValue v = .error f) :
    f.IsPromised ∨ f = .overflow ∧ ∃ negative, v = .float (.signed negative .infinity) := by
  cases v with
  | null | list _ | object _ => cases hv
  | int _ | bool _ => cases h
  | float x =>
    cases x with
    | nan =>
      cases h
      exact .inl (by decide)
    | signed negative m =>
      by_cases hfinite : (Binary64.signed negative m).isFinite = true
      · rw [idOfValue, Binary64.truncate?, if_pos hfinite] at h
        cases h
      · rw [idOfValue, Binary64.truncate?, if_neg hfinite] at h
        cases h
        have hindex : ¬m.index < finiteMagnitudes := fun hlt => hfinite (decide_eq_true hlt)
        have hm : m = .infinity := Magnitude.eq_of_index_eq
          ((Nat.le_antisymm m.index_le (Nat.le_of_not_lt hindex)).trans (Nat.min_self _).symm)
        exact .inr ⟨rfl, negative, hm ▸ rfl⟩
  | text s =>
    rw [idOfValue] at h
    split at h
    · cases h
    · cases h
      exact .inl (show "ValueError" ∈ Failure.promisedKinds by decide)
    · cases h
      exact .inl (by decide)

/-- A sheet of memberships fails as promised, unless the first id that is none is infinite. -/
theorem membershipsOfSheet_cases {sheet : Sheet}
    (hnames : ∀ name ∈ requiredMembershipColumns, name ∈ sheet.names)
    (h : membershipsOfSheet sheet = .error f) :
    f.IsPromised ∨ f = .overflow ∧ HasInfiniteId (idsOfMemberships sheet) := by
  obtain ⟨before, v, after, hids, hbefore, hfails⟩ :=
    firstFailure_eq_some_iff.1 (membershipsOfSheet_eq_error.1 h)
  have hv : v ∈ idsOfMemberships sheet := hids ▸ List.mem_append_right _ List.mem_cons_self
  refine (idOfValue_eq_error (isScalar_of_mem_idsOfMemberships hnames hv) hfails).imp_right ?_
  rintro ⟨rfl, negative, rfl⟩
  exact ⟨rfl, before, negative, after, hids, hbefore⟩

theorem idOfValue_infinity (negative : Bool) :
    idOfValue (.float (.signed negative .infinity)) = .error .overflow := by
  have hinfinite : ¬(Binary64.signed negative .infinity).isFinite = true := by
    show ¬Magnitude.infinity.isFinite = true
    decide
  rw [idOfValue, Binary64.truncate?, if_neg hinfinite]
  rfl

/-- An infinite id is beyond its range. -/
theorem membershipsOfSheet_of_hasInfiniteId {sheet : Sheet}
    (h : HasInfiniteId (idsOfMemberships sheet)) : membershipsOfSheet sheet = .error .overflow := by
  obtain ⟨before, negative, after, hids, hbefore⟩ := h
  rw [membershipsOfSheet_eq_error, firstFailure_eq_some_iff]
  exact ⟨before, _, after, hids, hbefore, idOfValue_infinity negative⟩

/-! ## Ids of products -/

namespace Table

variable {cells : List RawCell} {values : List Value} {v : Value}

theorem columnShape_wholes (hne : cells ≠ []) (h : ∀ cell ∈ cells, cell.isWhole = true) :
    columnShape cells = .wholes := by
  obtain ⟨cell, rest, rfl⟩ := List.exists_cons_of_ne_nil hne
  have hpresent : cell.isMissing = false := by
    have hwhole := h cell List.mem_cons_self
    cases cell with
    | moment m => rfl
    | value v => cases v <;> first | rfl | cases hwhole
  unfold columnShape
  rw [if_neg, if_pos (List.all_eq_true.2 h)]
  rw [List.all_cons, hpresent]
  exact Bool.false_ne_true

/-- In a column of doubles every cell is a number or missing, and one of them is not missing. -/
theorem of_columnShape_doubles (h : columnShape cells = .doubles) :
    (∃ cell ∈ cells, cell.isMissing = false) ∧
      ∀ cell ∈ cells, (cell.isNumber || cell.isMissing) = true := by
  unfold columnShape at h
  split at h
  · cases h
  · rename_i hmissing
    split at h
    · cases h
    · split at h
      · rename_i hnumbers
        refine ⟨?_, List.all_eq_true.1 hnumbers⟩
        simpa using hmissing
      · split at h
        · cases h
        · split at h <;> cases h

/-- In a column of texts every cell is a text or missing. -/
theorem of_columnShape_texts (h : columnShape cells = .texts) :
    ∀ cell ∈ cells, (cell.isText || cell.isMissing) = true := by
  unfold columnShape at h
  split at h
  · cases h
  · split at h
    · cases h
    · split at h
      · cases h
      · split at h
        · cases h
        · split at h
          · rename_i htexts
            exact List.all_eq_true.1 htexts
          · cases h

/-- A column in which every cell is a number or missing is one of doubles, unless nothing else or
nothing at all is missing. -/
theorem columnShape_of_numbers (h : ∀ cell ∈ cells, (cell.isNumber || cell.isMissing) = true) :
    (columnShape cells = .missing ∧ ∀ cell ∈ cells, cell.isMissing = true) ∨
      columnShape cells = .wholes ∨ columnShape cells = .doubles := by
  unfold columnShape
  split
  · rename_i hmissing
    exact .inl ⟨rfl, List.all_eq_true.1 hmissing⟩
  · split
    · exact .inr (.inl rfl)
    · rw [if_pos (List.all_eq_true.2 h)]
      exact .inr (.inr rfl)

/-- Whole numbers of 64 bits are ids. -/
theorem exists_readIds_wholes (h : (∀ v ∈ values, ∃ n, v = .int n ∧ isUnsignedWord n = true) ∨
    ∀ v ∈ values, ∃ n, v = .int n ∧ isWord n = true) :
    ∃ ids, readIds (values.map .value) = .ok ids := by
  rw [readIds_eq_mapM]
  refine exists_mapM_eq_ok fun cell hcell => ?_
  have hshape : columnShape (values.map .value) = .wholes := by
    refine columnShape_wholes (List.ne_nil_of_mem hcell) fun cell hcell => ?_
    obtain ⟨v, hv, rfl⟩ := List.mem_map.1 hcell
    obtain ⟨n, rfl⟩ : ∃ n, v = .int n := by
      rcases h with h | h
      · exact (h v hv).imp fun n hn => hn.1
      · exact (h v hv).imp fun n hn => hn.1
    rfl
  obtain ⟨v, hv, rfl⟩ := List.mem_map.1 hcell
  unfold idReader
  rw [hshape]
  dsimp only
  rcases h with h | h
  · have hall : (values.map RawCell.value).all isUnsigned = true := by
      rw [List.all_map, List.all_eq_true]
      intro w hw
      obtain ⟨n, rfl, hn⟩ := h w hw
      exact hn
    obtain ⟨n, rfl, -⟩ := h v hv
    rw [hall]
    exact ⟨_, rfl⟩
  · obtain ⟨n, rfl, hn⟩ := h v hv
    cases (values.map RawCell.value).all isUnsigned with
    | true => exact ⟨_, rfl⟩
    | false => exact ⟨n, word_eq_ok hn⟩

/-- Doubles are ids, or bad values. -/
theorem readIds_doubles (h : ∀ v ∈ values, ∃ x, v = .float x)
    (hids : readIds (values.map .value) = .error f) : f = .badValue := by
  rw [readIds_eq_mapM] at hids
  obtain ⟨cell, hcell, hfails⟩ := exists_of_mapM_eq_error hids
  have hdoubles : ∀ cell ∈ values.map RawCell.value, ∃ x, cell = .value (.float x) := by
    intro cell hcell
    obtain ⟨v, hv, rfl⟩ := List.mem_map.1 hcell
    exact (h v hv).imp fun x hx => congrArg RawCell.value hx
  have hnumbers : ∀ cell ∈ values.map RawCell.value, (cell.isNumber || cell.isMissing) = true := by
    intro cell hcell
    obtain ⟨x, rfl⟩ := hdoubles cell hcell
    rfl
  obtain ⟨x, rfl⟩ := hdoubles cell hcell
  unfold idReader at hfails
  rcases columnShape_of_numbers hnumbers with ⟨hshape, hmissing⟩ | hshape | hshape
  · -- only numbers that are none are missing
    cases x with
    | nan =>
      rw [hshape] at hfails
      cases hfails
      rfl
    | signed negative m => cases hmissing _ hcell
  · cases isWhole_of_columnShape hshape _ hcell
  · rw [hshape] at hfails
    replace hfails : idOfNumber x = .error f := hfails
    unfold idOfNumber at hfails
    split at hfails
    · cases hfails
    · cases hfails
      rfl

/-- Missing cells, flags and texts are read as ids by themselves. -/
theorem readIds_eq_mapM_idOfValue
    (h : ∀ v ∈ values, v = Sheet.missingValue ∨ (∃ b, v = .bool b) ∨ ∃ s, v = .text s) :
    readIds (values.map .value) = values.mapM idOfValue := by
  rw [readIds_eq_mapM, List.mapM_map]
  refine mapM_congr fun v hv => ?_
  have hmem : RawCell.value v ∈ values.map RawCell.value := List.mem_map_of_mem hv
  unfold idReader
  cases hshape : columnShape (values.map RawCell.value) with
  | missing | flags | mixed => rfl
  | wholes =>
    have hwhole := isWhole_of_columnShape hshape _ hmem
    rcases h v hv with rfl | ⟨b, rfl⟩ | ⟨s, rfl⟩ <;> cases hwhole
  | doubles =>
    obtain ⟨⟨cell, hcell, hpresent⟩, hnumbers⟩ := of_columnShape_doubles hshape
    have hnumber := hnumbers cell hcell
    obtain ⟨w, hw, rfl⟩ := List.mem_map.1 hcell
    rcases h w hw with rfl | ⟨b, rfl⟩ | ⟨s, rfl⟩
    · cases hpresent
    · cases hnumber
    · cases hnumber
  | texts =>
    have htext := of_columnShape_texts hshape _ hmem
    rcases h v hv with rfl | ⟨b, rfl⟩ | ⟨s, rfl⟩
    · rfl
    · cases htext
    · rfl

/-- An id that is none is a bad value, a text that is no whole number, or one that is too long. -/
theorem idOfValue_eq_error
    (h : v = Sheet.missingValue ∨ (∃ b, v = .bool b) ∨ ∃ s, v = .text s)
    (hfails : idOfValue v = .error f) : f.IsPromised ∨ f = .overflow ∧
      ∃ s n, v = .text s ∧ wholeNumber s = .ok n ∧ isWord n = false := by
  rcases h with rfl | ⟨b, rfl⟩ | ⟨s, rfl⟩
  · cases hfails
    exact .inl (by decide)
  · cases hfails
  · rw [idOfValue] at hfails
    split at hfails
    · rename_i n hs
      unfold word at hfails
      split at hfails
      · cases hfails
      · rename_i hword
        cases hfails
        exact .inr ⟨rfl, s, n, rfl, hs, Bool.eq_false_iff.2 hword⟩
    · cases hfails
      exact .inl (show "ValueError" ∈ Failure.promisedKinds by decide)
    · cases hfails
      exact .inl (by decide)

/-- The first id of a column that is none is a text, of a whole number with more than 64 bits. -/
def HasLongId (ids : List Value) : Prop :=
  ∃ before s n after, ids = before ++ .text s :: after ∧
    (∀ v ∈ before, ∃ id, idOfValue v = .ok id) ∧ wholeNumber s = .ok n ∧ isWord n = false

/-- A column of ids fails as promised, unless the first id that is none is too long. -/
theorem readIds_cases (h : Sheet.IsColumn values)
    (hfails : readIds (values.map .value) = .error f) :
    f.IsPromised ∨ f = .overflow ∧ HasLongId values := by
  have hplain (h : ∀ v ∈ values, v = Sheet.missingValue ∨ (∃ b, v = .bool b) ∨ ∃ s, v = .text s) :
      f.IsPromised ∨ f = .overflow ∧ HasLongId values := by
    rw [readIds_eq_mapM_idOfValue h] at hfails
    obtain ⟨before, v, after, hids, hbefore, hfails⟩ :=
      firstFailure_eq_some_iff.1 (firstFailure_eq_some.2 hfails)
    have hv : v ∈ values := hids ▸ List.mem_append_right _ List.mem_cons_self
    refine (idOfValue_eq_error (h v hv) hfails).imp_right ?_
    rintro ⟨rfl, s, n, rfl, hs, hn⟩
    exact ⟨rfl, before, s, n, after, hids, hbefore, hs, hn⟩
  cases h with
  | unsigned h =>
    obtain ⟨ids, hids⟩ := exists_readIds_wholes (.inl h)
    cases hids.symm.trans hfails
  | signed h =>
    obtain ⟨ids, hids⟩ := exists_readIds_wholes (.inr h)
    cases hids.symm.trans hfails
  | doubles h =>
    cases readIds_doubles h hfails
    exact .inl (by decide)
  | flags h => exact hplain fun v hv => (h v hv).imp_right .inl
  | texts h => exact hplain fun v hv => (h v hv).imp_right .inr

/-- An id that is too long is beyond its range. -/
theorem readIds_of_hasLongId (h : Sheet.IsColumn values) (hlong : HasLongId values) :
    readIds (values.map .value) = .error .overflow := by
  obtain ⟨before, s, n, after, hids, hbefore, hs, hn⟩ := hlong
  have hmem : .text s ∈ values := hids ▸ List.mem_append_right _ List.mem_cons_self
  have hfails : idOfValue (.text s) = .error .overflow := by
    rw [idOfValue, hs]
    exact if_neg (Bool.eq_false_iff.1 hn)
  have htexts : ∀ v ∈ values, v = Sheet.missingValue ∨ (∃ b, v = .bool b) ∨ ∃ s, v = .text s := by
    cases h with
    | unsigned h | signed h =>
      obtain ⟨n, hn, -⟩ := h _ hmem
      cases hn
    | doubles h =>
      obtain ⟨x, hx⟩ := h _ hmem
      cases hx
    | flags h => exact fun v hv => (h v hv).imp_right .inl
    | texts h => exact fun v hv => (h v hv).imp_right .inr
  rw [readIds_eq_mapM_idOfValue htexts, ← firstFailure_eq_some, firstFailure_eq_some_iff]
  exact ⟨before, _, after, hids, hbefore, hfails⟩

/-! ## Numbers and tags -/

/-- Whole numbers of 64 bits are in the range of doubles. -/
theorem exists_numberOfWhole {n : Int} (h : isUnsignedWord n = true ∨ isWord n = true) :
    ∃ x, numberOfWhole n = .ok x := by
  have hle : n.natAbs ≤ 2 ^ 64 := by
    simp only [isUnsignedWord, isWord, Bool.and_eq_true, decide_eq_true_eq] at h
    unfold unsignedLimit wordLimit at h
    omega
  have hfinite : (Binary64.ofInt n).isFinite = true := Magnitude.isFinite_nearest hle
  unfold numberOfWhole Binary64.ofInt?
  dsimp only
  rw [if_pos hfinite]
  exact ⟨_, rfl⟩

/-- The numbers of a column can be read. -/
theorem exists_readNumbers (sheet : Sheet) (column : Column) :
    ∃ xs, ((rawTableOfSheet sheet).cells column).mapM readNumber = .ok xs := by
  rw [Sheet.cells_rawTableOfSheet, List.mapM_map]
  refine exists_mapM_eq_ok fun v hv => ?_
  show ∃ x, readNumber (.value v) = .ok x
  rcases Sheet.isColumn_column sheet column.name with h | h
  · cases h with
    | unsigned h =>
      obtain ⟨n, rfl, hn⟩ := h v hv
      exact exists_numberOfWhole (.inl hn)
    | signed h =>
      obtain ⟨n, rfl, hn⟩ := h v hv
      exact exists_numberOfWhole (.inr hn)
    | doubles h =>
      obtain ⟨x, rfl⟩ := h v hv
      exact ⟨_, rfl⟩
    | flags h | texts h =>
      rcases h v hv with rfl | ⟨_, rfl⟩
      · exact ⟨_, rfl⟩
      · exact ⟨_, rfl⟩
  · rw [h v hv]
    exact ⟨none, rfl⟩

/-- Some tags are given by a number or a flag. -/
def HasTagsWithoutText (tags : List Value) : Prop :=
  ∃ v ∈ tags, v.isMissing = false ∧ ∀ s, v ≠ .text s

/-- A cell of tags is read if it is missing or a text, and is of the wrong type elsewhere. -/
theorem readTags_cases {v : Value} (h : v.isScalar = true ∨ v = .null) :
    ((v.isMissing = false ∧ ∀ s, v ≠ .text s) ∧ readTags (.value v) = .error .wrongType) ∨
      ¬(v.isMissing = false ∧ ∀ s, v ≠ .text s) ∧ ∃ s, readTags (.value v) = .ok s := by
  cases v with
  | null => exact .inr ⟨fun h => (nomatch h.1), "", rfl⟩
  | bool b => exact .inl ⟨⟨rfl, fun s => Value.noConfusion⟩, rfl⟩
  | int n => exact .inl ⟨⟨rfl, fun s => Value.noConfusion⟩, rfl⟩
  | float x =>
    cases x with
    | nan => exact .inr ⟨fun h => (nomatch h.1), "", rfl⟩
    | signed negative m => exact .inl ⟨⟨rfl, fun s => Value.noConfusion⟩, rfl⟩
  | text s => exact .inr ⟨fun h => h.2 s rfl, s, rfl⟩
  | list items => rcases h with h | h <;> cases h
  | object fields => rcases h with h | h <;> cases h

/-- Tags are of the wrong type where a number or a flag gives them, and are read elsewhere. -/
theorem readTags_eq_error {sheet : Sheet} :
    ((rawTableOfSheet sheet).cells .tags).mapM readTags = .error f ↔
      f = .wrongType ∧ HasTagsWithoutText (sheet.column "tags") := by
  have hcases (v : Value) (hv : v ∈ sheet.column "tags") := readTags_cases (v := v) <| by
    rcases Sheet.isColumn_column sheet "tags" with h | h
    · exact .inl (h.isScalar hv)
    · exact .inr (h v hv)
  rw [Sheet.cells_rawTableOfSheet, List.mapM_map]
  constructor
  · intro h
    obtain ⟨v, hv, hfails⟩ := exists_of_mapM_eq_error h
    rcases hcases v hv with ⟨hnone, hread⟩ | ⟨-, s, hread⟩
    · cases hread.symm.trans hfails
      exact ⟨rfl, v, hv, hnone⟩
    · cases hread.symm.trans hfails
  · rintro ⟨rfl, v, hv, hnone⟩
    cases hall : (sheet.column "tags").mapM (readTags ∘ RawCell.value) with
    | ok texts =>
      obtain ⟨s, -, hs⟩ := exists_of_mapM_eq_ok hall hv
      rcases hcases v hv with ⟨-, hread⟩ | ⟨htext, -⟩
      · cases hread.symm.trans hs
      · exact absurd hnone htext
    | error e =>
      obtain ⟨w, hw, hfails⟩ := exists_of_mapM_eq_error hall
      rcases hcases w hw with ⟨-, hread⟩ | ⟨-, s, hread⟩
      · cases hread.symm.trans hfails
        exact hall
      · cases hread.symm.trans hfails

/-! ## Products -/

section Products

variable {sheet : Sheet} {reader : MomentReader}

/-- The ids of a sheet of products fail as promised, unless the first one that is none is too
long. -/
theorem readDistinctIds_cases (hid : "id" ∈ sheet.names)
    (h : readDistinctIds (rawTableOfSheet sheet) = .error f) :
    f.IsPromised ∨ f = .overflow ∧ HasLongId (sheet.column "id") := by
  simp only [readDistinctIds] at h
  split at h
  · cases h
    exact .inl (show "ValueError" ∈ Failure.promisedKinds by decide)
  · rcases bind_eq_error.1 h with hids | ⟨ids, -, h⟩
    · rw [Sheet.cells_rawTableOfSheet] at hids
      exact readIds_cases (Sheet.isColumn_of_mem hid) hids
    · split at h
      · cases h
        exact .inl (by decide)
      · cases h

/-- The first id that is none is beyond its range if it is too long. -/
theorem readDistinctIds_of_hasLongId (hnames : ∀ name ∈ requiredColumns, name ∈ sheet.names)
    (h : HasLongId (sheet.column "id")) :
    readDistinctIds (rawTableOfSheet sheet) = .error .overflow := by
  have hpresent : (requiredColumns.filter fun name =>
      !(rawTableOfSheet sheet).names.contains name) = [] := by
    refine List.filter_eq_nil_iff.2 fun name hname => ?_
    simpa using Sheet.mem_names_rawTableOfSheet (hnames name hname)
  simp only [readDistinctIds, hpresent]
  refine bind_eq_error.2 (.inl ?_)
  rw [Sheet.cells_rawTableOfSheet]
  exact readIds_of_hasLongId (Sheet.isColumn_of_mem (hnames _ (by decide))) h

/-- Rows of products fail where their ids do, or else their tags, or else their moments. -/
theorem readRows_eq_error : readRows (rawTableOfSheet sheet) reader = .error f ↔
    readDistinctIds (rawTableOfSheet sheet) = .error f ∨
    ∃ ids, readDistinctIds (rawTableOfSheet sheet) = .ok ids ∧
      (((rawTableOfSheet sheet).cells .tags).mapM readTags = .error f ∨
      ∃ tags, ((rawTableOfSheet sheet).cells .tags).mapM readTags = .ok tags ∧
        readMoments ((rawTableOfSheet sheet).cells .createdAt) reader = .error f) := by
  obtain ⟨prices, hprices⟩ := exists_readNumbers sheet .price
  obtain ⟨compareAtPrices, hcompare⟩ := exists_readNumbers sheet .compareAtPrice
  obtain ⟨ratings, hratings⟩ := exists_readNumbers sheet .rating
  obtain ⟨reviewCounts, hcounts⟩ := exists_readNumbers sheet .reviewCount
  obtain ⟨bestsellerScores, hscores⟩ := exists_readNumbers sheet .bestsellerScore
  rw [readRows, bind_eq_error]
  refine or_congr_right (exists_congr fun ids => and_congr_right fun _ => ?_)
  have hnext {α β : Type} (a : α) (next : α → Except Failure β) : (.ok a >>= next) = next a := rfl
  rw [hprices, hnext, hcompare, hnext, hratings, hnext, hcounts, hnext, hscores, hnext,
    bind_eq_error]
  refine or_congr_right (exists_congr fun tags => and_congr_right fun _ => ?_)
  rw [bind_eq_error]
  constructor
  · rintro (h | ⟨moments, -, h⟩)
    · exact h
    · cases h
  · exact .inl

end Products

end Table

end Storefront
