import Storefront.Number.Reading

/-!
# Values

Data as it arrives: rows, rules, request bodies and options. Numbers are whole numbers of any size
or doubles, and an object keeps its fields in the order in which they were first written.

* `Value`: the values
* `Value.field?`, `insertField`: fields of an object, of which the last one written wins
* `Value.weight`: the measure by which nested values get smaller
* `Value.fits`: no whole number in a value is too long to be written
-/

namespace Storefront

/-- A value: the data model of JSON with whole numbers and doubles told apart. -/
inductive Value where
  | null
  | bool (b : Bool)
  | int (n : Int)
  | float (x : Binary64)
  | text (s : String)
  | list (items : List Value)
  | object (fields : List (String × Value))
deriving Inhabited

/-- The fields of an object: names with values. -/
abbrev Fields := List (String × Value)

/-! ## Fields -/

/-- Sets a field: a new one goes to the end, a known one keeps its place. -/
def insertField {α : Type} (name : String) (value : α) :
    List (String × α) → List (String × α)
  | [] => [(name, value)]
  | (key, old) :: rest =>
    if key = name then (key, value) :: rest else (key, old) :: insertField name value rest

/-- Fields with each name once: the place of its first value and the last value itself. -/
def mergeFields {α : Type} (fields : List (String × α)) : List (String × α) :=
  fields.foldl (fun merged field => insertField field.1 field.2 merged) []

namespace Value

/-- The field of an object with a name. -/
def field? (name : String) : Value → Option Value
  | .object fields => fields.lookup name
  | _ => none

/-! ## Truth -/

/-- The truth of a value: zero, the empty and null are false. -/
def isTruthy : Value → Bool
  | .null => false
  | .bool b => b
  | .int n => n ≠ 0
  | .float x => !x.isZero
  | .text s => !s.isEmpty
  | .list items => !items.isEmpty
  | .object fields => !fields.isEmpty

/-- The value is missing: null or not a number. -/
def isMissing : Value → Bool
  | .null => true
  | .float x => x.isNan
  | _ => false

/-- The value is a list. -/
def isList : Value → Bool
  | .list _ => true
  | _ => false

/-! ## Weight -/

/-- The size of a value, in which a text weighs more than any value written in it. -/
def weight : Value → Nat
  | .null | .bool _ | .int _ | .float _ => 1
  | .text s => s.length + 1
  | .list items => weights items + 1
  | .object fields => fieldWeights fields + 1
where
  /-- The total weight of a list of values. -/
  weights : List Value → Nat
    | [] => 0
    | item :: rest => item.weight + weights rest
  /-- The total weight of the values of fields. -/
  fieldWeights : List (String × Value) → Nat
    | [] => 0
    | (_, value) :: rest => value.weight + fieldWeights rest

theorem weight_pos (v : Value) : 0 < v.weight := by cases v <;> simp [weight]

theorem weight_le_weights {v : Value} {items : List Value} (h : v ∈ items) :
    v.weight ≤ weight.weights items := by
  induction items with
  | nil => cases h
  | cons item rest ih =>
    rw [weight.weights]
    cases h with
    | head => omega
    | tail _ h => have := ih h; omega

theorem weight_le_fieldWeights {name : String} {v : Value} {fields : Fields}
    (h : fields.lookup name = some v) : v.weight ≤ weight.fieldWeights fields := by
  induction fields with
  | nil => simp at h
  | cons field rest ih =>
    obtain ⟨key, value⟩ := field
    rw [weight.fieldWeights]
    rw [List.lookup_cons] at h
    split at h
    · cases h; omega
    · have := ih h; omega

theorem fieldWeights_insertField (name : String) (v : Value) (fields : Fields) :
    weight.fieldWeights (insertField name v fields) ≤ v.weight + weight.fieldWeights fields := by
  induction fields with
  | nil => simp [insertField, weight.fieldWeights]
  | cons field rest ih =>
    obtain ⟨key, old⟩ := field
    simp only [insertField]
    split <;> simp only [weight.fieldWeights] <;> omega

theorem fieldWeights_mergeFields (fields : Fields) :
    weight.fieldWeights (mergeFields fields) ≤ weight.fieldWeights fields := by
  suffices h : ∀ merged, weight.fieldWeights
      (fields.foldl (fun merged field => insertField field.1 field.2 merged) merged) ≤
      weight.fieldWeights merged + weight.fieldWeights fields by
    simpa [mergeFields, weight.fieldWeights] using h []
  induction fields with
  | nil => intro merged; simp [weight.fieldWeights]
  | cons field rest ih =>
    intro merged
    have := ih (insertField field.1 field.2 merged)
    have := fieldWeights_insertField field.1 field.2 merged
    simp only [List.foldl_cons, weight.fieldWeights]
    omega

/-! ## Whole numbers that can be written -/

/-- The whole numbers in a value have no more digits than may be written. -/
def fits : Value → Bool
  | .null | .bool _ | .float _ | .text _ => true
  | .int n => (Nat.toDigits 10 n.natAbs).length ≤ maxWholeDigits
  | .list items => itemsFit items
  | .object fields => fieldsFit fields
where
  /-- The whole numbers in the items of a list fit. -/
  itemsFit : List Value → Bool
    | [] => true
    | item :: rest => item.fits && itemsFit rest
  /-- The whole numbers in the values of fields fit. -/
  fieldsFit : Fields → Bool
    | [] => true
    | (_, value) :: rest => value.fits && fieldsFit rest

theorem fits_list_cons {v : Value} {items : List Value} :
    (list (v :: items)).fits = true ↔ v.fits = true ∧ (list items).fits = true :=
  Bool.and_eq_true_iff

theorem fits_object_cons {name : String} {v : Value} {fields : Fields} :
    (object ((name, v) :: fields)).fits = true ↔ v.fits = true ∧ (object fields).fits = true :=
  Bool.and_eq_true_iff

theorem fits_list {items : List Value} : (Value.list items).fits = items.all fits := by
  have hitems : ∀ items, fits.itemsFit items = items.all fits := by
    intro items
    induction items with
    | nil => rfl
    | cons v items ih => rw [fits.itemsFit, ih, List.all_cons]
  exact hitems items

theorem fits_object {fields : Fields} :
    (Value.object fields).fits = fields.all fun field => field.2.fits := by
  have hfields : ∀ fields, fits.fieldsFit fields = fields.all fun field => field.2.fits := by
    intro fields
    induction fields with
    | nil => rfl
    | cons field fields ih => rw [fits.fieldsFit, ih, List.all_cons]
  exact hfields fields

theorem fits_insertField {name : String} {v : Value} {fields : Fields} (hv : v.fits = true)
    (h : (object fields).fits = true) : (object (insertField name v fields)).fits = true := by
  induction fields with
  | nil => exact fits_object_cons.2 ⟨hv, rfl⟩
  | cons field rest ih =>
    obtain ⟨hold, hrest⟩ := fits_object_cons.1 h
    rw [insertField]
    split
    · exact fits_object_cons.2 ⟨hv, hrest⟩
    · exact fits_object_cons.2 ⟨hold, ih hrest⟩

/-- Merged fields hold none but the values that are merged. -/
theorem fits_mergeFields {fields : Fields} (h : (object fields).fits = true) :
    (object (mergeFields fields)).fits = true := by
  suffices hfold : ∀ merged, (object merged).fits = true → (object (fields.foldl
      (fun merged field => insertField field.1 field.2 merged) merged)).fits = true from
    hfold [] rfl
  induction fields with
  | nil => exact fun _ hmerged => hmerged
  | cons field rest ih =>
    obtain ⟨hfield, hrest⟩ := fits_object_cons.1 h
    exact fun merged hmerged => ih hrest _ (fits_insertField hfield hmerged)

end Value

end Storefront
