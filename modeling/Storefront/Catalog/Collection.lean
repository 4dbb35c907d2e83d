import Storefront.Catalog.Intake

/-!
# Collections

A collection has a list of member products, which for a smart collection follows from a rule.

* `StoredRule`: a rule as it is stored
* `Collection`, `Collection.read`: the collection that a record gives
* `Collection.toFields`: the record of a collection
-/

namespace Storefront

/-- A rule as it is stored: JSON text, or an object. -/
inductive StoredRule where
  | text (s : String)
  | object (fields : Fields)

/-- The value of a stored rule. -/
def StoredRule.toValue : StoredRule → Value
  | .text s => .text s
  | .object fields => .object fields

/-- A product collection. -/
structure Collection where
  id : Int
  title : String := ""
  handle : Option String := none
  isSmart : Bool := false
  rule : Option StoredRule := none

namespace Collection

/-- The field of a collection's rule under one of its names.

A value that is neither text nor object is refused on both accounts. -/
def ruleField (name : String) : Value → Checked (Option StoredRule)
  | .null => .accepted none
  | .text s => .accepted (some (.text s))
  | .object fields => .accepted (some (.object fields))
  | _ => .refused [⟨[name, "str"], .notText⟩, ⟨[name, "dict[any,any]"], .notObject⟩]

/-- The rule of a collection: the field `rule`, or else the field `rules`. -/
def readRule (fields : Fields) : Checked (Option StoredRule) :=
  match fields.lookup "rule", fields.lookup "rules" with
  | some v, _ => ruleField "rule" v
  | none, some v => ruleField "rules" v
  | none, none => .accepted none

/-- The collection that a record gives. -/
def read (fields : Fields) : Except Failure Collection :=
  let collection : Checked Collection :=
    (fun id title handle isSmart rule => { id, title, handle, isSmart, rule })
    <$> Intake.required "id" Intake.whole fields
    <*> Intake.defaulted "title" "" Intake.text fields
    <*> Intake.optional "handle" Intake.text fields
    <*> Intake.defaulted "is_smart" false Intake.flag fields
    <*> readRule fields
  collection.result

/-- The collection that a row of a table gives; missing cells count as absent. -/
def ofRow (fields : Fields) : Except Failure Collection :=
  read (fields.filter (!·.2.isMissing))

/-- A collection as a record. -/
def toFields (c : Collection) : Fields :=
  [("id", .int c.id), ("title", .text c.title),
    ("handle", (c.handle.map Value.text).getD .null), ("is_smart", .bool c.isSmart),
    ("rule", (c.rule.map StoredRule.toValue).getD .null)]

end Collection

end Storefront
