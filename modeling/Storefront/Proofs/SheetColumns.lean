import Storefront.Catalog.Files
import Storefront.FirstOccurrences

/-!
# What columns of a sheet hold

The fields of a column decide together what they are: whole numbers of 64 bits, all with a sign or
all without one, doubles, flags or texts. A missing field is not a number among doubles, flags and
texts, and no cell of a sheet is null, a list or an object.

* `Sheet.IsColumn`, `Sheet.isColumn_columnValues`: what the values of a column are
* `Sheet.column`, `Sheet.isColumn_column`: the columns of a sheet by name
* `Sheet.cells_rawTableOfSheet`: the raw table of a sheet
* `isScalar_of_mem_membershipLines`: the cells of a sheet of memberships
-/

namespace Storefront

/-- The value is a number, a flag or a text. -/
def Value.isScalar : Value → Bool
  | .bool _ | .int _ | .float _ | .text _ => true
  | .null | .list _ | .object _ => false

namespace Sheet

/-! ## Columns -/

/-- The values of one column. -/
inductive IsColumn (values : List Value) : Prop
  | unsigned (h : ∀ v ∈ values, ∃ n, v = .int n ∧ isUnsignedWord n = true)
  | signed (h : ∀ v ∈ values, ∃ n, v = .int n ∧ isWord n = true)
  | doubles (h : ∀ v ∈ values, ∃ x, v = .float x)
  | flags (h : ∀ v ∈ values, v = missingValue ∨ ∃ b, v = .bool b)
  | texts (h : ∀ v ∈ values, v = missingValue ∨ ∃ s, v = .text s)

variable {fields : List String} {values : List Value} {v : Value}

/-- A value that is read from a field is missing, or is what the reader makes of the field. -/
theorem mem_of_valuesBy? {read? : String → Option Value}
    (h : valuesBy? read? fields = some values) :
    values.length = fields.length ∧
      ∀ v ∈ values, v = missingValue ∨ ∃ field, read? field = some v := by
  unfold valuesBy? at h
  induction fields generalizing values with
  | nil =>
    cases h
    exact ⟨rfl, fun v hv => nomatch hv⟩
  | cons field rest ih =>
    rw [List.mapM_cons, Option.bind_eq_bind, Option.bind_eq_some_iff] at h
    obtain ⟨first, hfirst, h⟩ := h
    obtain ⟨others, hothers, h⟩ := Option.bind_eq_some_iff.1 h
    cases h
    obtain ⟨hlength, hmem⟩ := ih hothers
    refine ⟨congrArg (· + 1) hlength, List.forall_mem_cons.2 ⟨?_, hmem⟩⟩
    split at hfirst
    · exact .inl (Option.some.inj hfirst).symm
    · exact .inr ⟨field, hfirst⟩

theorem isColumn_rawValues (fields : List String) : IsColumn (fields.map rawValue) := by
  refine .texts fun v hv => ?_
  obtain ⟨field, -, rfl⟩ := List.mem_map.1 hv
  exact .inr ⟨field, rfl⟩

theorem isColumn_textValues (fields : List String) : IsColumn (textValues fields) := by
  unfold textValues
  cases hvalues : valuesBy? textValue? fields with
  | none => exact isColumn_rawValues fields
  | some values =>
    refine .texts fun v hv => ?_
    rcases (mem_of_valuesBy? hvalues).2 v hv with hmissing | ⟨field, hfield⟩
    · exact .inl hmissing
    · exact .inr ⟨field, (Option.some.inj hfield).symm⟩

theorem length_textValues (fields : List String) : (textValues fields).length = fields.length := by
  unfold textValues
  cases hvalues : valuesBy? textValue? fields with
  | none => exact List.length_map _
  | some values => exact (mem_of_valuesBy? hvalues).1

theorem anyWhole_eq_false {condition : Int → Bool} (h : anyWhole condition values ≠ true) {n : Int}
    (hn : .int n ∈ values) : condition n = false := by
  rw [ne_eq, Bool.not_eq_true, anyWhole, List.any_eq_false] at h
  exact Bool.eq_false_iff.2 (h _ hn)

/-- Whole numbers stay whole where they all have 64 bits, and become doubles or texts elsewhere. -/
theorem isColumn_settleWholes (fields : List String)
    (h : ∀ v ∈ values, v = missingValue ∨ ∃ n, v = .int n) :
    IsColumn (settleWholes fields values) := by
  have hwhole (hpresent : values.any (·.isMissing) ≠ true) {v : Value} (hv : v ∈ values) :
      ∃ n, v = .int n := by
    rcases h v hv with rfl | hn
    · exact absurd (List.any_eq_true.2 ⟨missingValue, hv, rfl⟩) hpresent
    · exact hn
  unfold settleWholes
  dsimp only
  split
  · exact isColumn_textValues fields
  · rename_i hunsigned
    split
    · split
      · exact isColumn_rawValues fields
      · rename_i hpositive
        rw [Bool.or_eq_true, not_or] at hpositive
        refine .unsigned fun v hv => ?_
        obtain ⟨n, rfl⟩ := hwhole hpositive.1 hv
        have hlow := anyWhole_eq_false hpositive.2 hv
        have hhigh := anyWhole_eq_false hunsigned hv
        simp only [decide_eq_false_iff_not] at hlow hhigh
        exact ⟨n, rfl, by simp only [isUnsignedWord, Bool.and_eq_true, decide_eq_true_eq]; omega⟩
    · rename_i hsigned
      split
      · exact isColumn_textValues fields
      · rename_i hnegative
        split
        · refine .doubles fun v hv => ?_
          obtain ⟨w, hw, rfl⟩ := List.mem_map.1 hv
          rcases h w hw with rfl | ⟨n, rfl⟩
          · exact ⟨.nan, rfl⟩
          · exact ⟨.ofInt n, rfl⟩
        · rename_i hpresent
          refine .signed fun v hv => ?_
          obtain ⟨n, rfl⟩ := hwhole hpresent hv
          have hlow := anyWhole_eq_false hnegative hv
          have hhigh := anyWhole_eq_false hsigned hv
          simp only [decide_eq_false_iff_not] at hlow hhigh
          exact ⟨n, rfl, isWord_iff.2 (by omega)⟩

theorem length_settleWholes (h : values.length = fields.length) :
    (settleWholes fields values).length = fields.length := by
  unfold settleWholes
  dsimp only
  split
  · exact length_textValues fields
  · split
    · split
      · exact List.length_map _
      · exact h
    · split
      · exact length_textValues fields
      · split
        · exact (List.length_map _).trans h
        · exact h

/-- A column has one value for each field, and is of one kind. -/
theorem isColumn_columnValues (fields : List String) :
    IsColumn (columnValues fields) ∧ (columnValues fields).length = fields.length := by
  unfold columnValues
  split
  · rename_i wholes _ hwholes
    obtain ⟨hlength, hmem⟩ := mem_of_valuesBy? hwholes
    refine ⟨isColumn_settleWholes fields fun v hv => (hmem v hv).imp_right ?_,
      length_settleWholes hlength⟩
    rintro ⟨field, hfield⟩
    obtain ⟨n, -, rfl⟩ := Option.map_eq_some_iff.1 hfield
    exact ⟨n, rfl⟩
  · rename_i numbers _ _ hnumbers
    obtain ⟨hlength, hmem⟩ := mem_of_valuesBy? hnumbers
    refine ⟨.doubles fun v hv => ?_, hlength⟩
    rcases hmem v hv with rfl | ⟨field, hfield⟩
    · exact ⟨.nan, rfl⟩
    · obtain ⟨x, -, rfl⟩ := Option.map_eq_some_iff.1 hfield
      exact ⟨x, rfl⟩
  · rename_i flags _ _ hflags
    obtain ⟨hlength, hmem⟩ := mem_of_valuesBy? hflags
    refine ⟨.flags fun v hv => (hmem v hv).imp_right ?_, hlength⟩
    rintro ⟨field, hfield⟩
    unfold flagValue? at hfield
    dsimp only at hfield
    split at hfield
    · exact ⟨true, (Option.some.inj hfield).symm⟩
    · split at hfield
      · exact ⟨false, (Option.some.inj hfield).symm⟩
      · cases hfield
  · exact ⟨isColumn_textValues fields, length_textValues fields⟩

/-- No cell of a column is null, a list or an object. -/
theorem IsColumn.isScalar (h : IsColumn values) (hv : v ∈ values) : v.isScalar = true := by
  cases h with
  | unsigned h | signed h =>
    obtain ⟨n, rfl, -⟩ := h v hv
    rfl
  | doubles h =>
    obtain ⟨x, rfl⟩ := h v hv
    rfl
  | flags h | texts h =>
    rcases h v hv with rfl | ⟨_, rfl⟩
    · rfl
    · rfl

/-! ## Columns by name -/

theorem firstOfEachName_eq {α : Type} (columns : List (String × α)) :
    firstOfEachName columns = firstsBy Prod.fst columns := by
  induction columns with
  | nil => rfl
  | cons column rest ih => rw [firstOfEachName, firstsBy, ih]

/-- The values of the column with a name; a column that is not there holds nothing. -/
def column (sheet : Sheet) (name : String) : List Value :=
  (sheet.columns.lookup name).getD (List.replicate sheet.rows.length .null)

variable {sheet : Sheet} {name : String}

theorem lookup_map_snd {α β : Type} (f : α → β) (entries : List (String × α)) (name : String) :
    (entries.map fun entry => (entry.1, f entry.2)).lookup name = (entries.lookup name).map f := by
  induction entries with
  | nil => rfl
  | cons entry rest ih =>
    rw [List.map_cons, List.lookup_cons, List.lookup_cons, ih]
    split
    · rfl
    · rfl

/-- Each of the columns is a column of values, one for each row. -/
theorem isColumn_of_mem_columns (h : (name, values) ∈ sheet.columns) :
    IsColumn values ∧ values.length = sheet.rows.length := by
  have hmem : (name, values) ∈ firstsBy Prod.fst (sheet.names.zipIdx.map fun column =>
      (column.1, columnValues (sheet.fieldsAt column.2))) := by
    rw [← firstOfEachName_eq]
    exact h
  obtain ⟨⟨other, place⟩, -, hcolumn⟩ := List.mem_map.1 ((firstsBy_sublist _).subset hmem)
  obtain ⟨-, rfl⟩ := Prod.ext_iff.1 hcolumn
  obtain ⟨hcolumn, hlength⟩ := isColumn_columnValues (sheet.fieldsAt place)
  exact ⟨hcolumn, hlength.trans (List.length_map _)⟩

/-- What is found under a name is a column. -/
theorem isColumn_of_lookup (h : sheet.columns.lookup name = some values) :
    IsColumn values ∧ values.length = sheet.rows.length := by
  obtain ⟨before, after, hsplit, -⟩ := List.lookup_eq_some_iff.1 h
  have hmem : (name, values) ∈ sheet.columns := by
    rw [hsplit]
    exact List.mem_append_right _ List.mem_cons_self
  exact isColumn_of_mem_columns hmem

/-- A column that a sheet names is there. -/
theorem mem_names_columns (h : name ∈ sheet.names) : name ∈ sheet.columns.map Prod.fst := by
  rw [columns, firstOfEachName_eq, mem_keys_firstsBy, List.map_map]
  show name ∈ sheet.names.zipIdx.map Prod.fst
  rwa [List.zipIdx_map_fst]

theorem exists_lookup (h : name ∈ sheet.names) :
    ∃ values, sheet.columns.lookup name = some values := by
  obtain ⟨column, hcolumn, rfl⟩ := List.mem_map.1 (mem_names_columns h)
  rw [← Option.isSome_iff_exists, List.lookup_isSome_iff]
  exact ⟨column, hcolumn, beq_self_eq_true _⟩

/-- The values under a name of a sheet are a column. -/
theorem isColumn_of_mem (h : name ∈ sheet.names) : IsColumn (sheet.column name) := by
  obtain ⟨values, hvalues⟩ := exists_lookup h
  unfold column
  rw [hvalues]
  exact (isColumn_of_lookup hvalues).1

/-- The values under any name are a column, or there are none. -/
theorem isColumn_column (sheet : Sheet) (name : String) :
    IsColumn (sheet.column name) ∨ ∀ v ∈ sheet.column name, v = .null := by
  unfold column
  cases hvalues : sheet.columns.lookup name with
  | none => exact .inr fun v hv => List.eq_of_mem_replicate hv
  | some values => exact .inl (isColumn_of_lookup hvalues).1

/-- The raw table of a sheet has the columns that the sheet names. -/
theorem mem_names_rawTableOfSheet (h : name ∈ sheet.names) :
    name ∈ (rawTableOfSheet sheet).names := by
  unfold RawTable.names rawTableOfSheet
  rw [List.map_map]
  exact mem_names_columns h

/-- The columns of a raw table are those of its sheet. -/
theorem cells_rawTableOfSheet (sheet : Sheet) (column : Column) :
    (rawTableOfSheet sheet).cells column = (sheet.column column.name).map .value := by
  unfold RawTable.cells rawTableOfSheet Sheet.column
  dsimp only
  rw [lookup_map_snd]
  cases sheet.columns.lookup column.name with
  | none => exact List.map_replicate.symm
  | some values => rfl

/-- A cell of a column that a sheet has is a number, a flag or a text. -/
theorem isScalar_cell (h : name ∈ sheet.names) {record : Fields}
    (hrecord : record ∈ sheet.records) : ((record.lookup name).getD .null).isScalar = true := by
  obtain ⟨place, hplace, rfl⟩ := List.mem_map.1 hrecord
  obtain ⟨values, hvalues⟩ := exists_lookup h
  obtain ⟨hcolumn, hlength⟩ := isColumn_of_lookup hvalues
  have hlt : place < values.length := hlength ▸ List.mem_range.1 hplace
  rw [lookup_map_snd (fun values : List Value => values.getD place .null), hvalues]
  show (values.getD place .null).isScalar = true
  rw [List.getD_eq_getElem?_getD, List.getElem?_eq_getElem hlt, Option.getD_some]
  exact hcolumn.isScalar (List.getElem_mem hlt)

end Sheet

/-- The collections and products of a sheet of memberships are numbers, flags or texts. -/
theorem isScalar_of_mem_membershipLines {sheet : Sheet}
    (h : ∀ name ∈ requiredMembershipColumns, name ∈ sheet.names) {line : MembershipLine}
    (hline : line ∈ membershipLines sheet) :
    line.collection.isScalar = true ∧ line.product.isScalar = true := by
  obtain ⟨record, hrecord, rfl⟩ := List.mem_map.1 hline
  constructor
  · exact Sheet.isScalar_cell (h _ (by decide)) hrecord
  · exact Sheet.isScalar_cell (h _ (by decide)) hrecord

end Storefront
