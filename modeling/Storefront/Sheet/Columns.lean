import Storefront.Json.Value
import Storefront.Number.Reading
import Storefront.Number.Word

/-!
# Columns of a sheet

A column of a sheet has one type, which all of its fields decide together: whole numbers, doubles,
flags or texts, the first of them that fits. Certain words say that a field is missing.

The type is that of the whole column, however long the sheet is. A large sheet may be typed in portions
of rows instead, so that a column whose portions have different types holds values of several types;
such columns are not followed here.

* `missingWords`: the words for a missing field
* `settleWholes`: which whole numbers stay whole
* `columnValues`: the values of a column of fields
-/

namespace Storefront

namespace Sheet

/-- The words for a missing field. -/
def missingWords : List String :=
  ["", "#N/A", "#N/A N/A", "#NA", "-1.#IND", "-1.#QNAN", "-NaN", "-nan", "1.#IND", "1.#QNAN",
    "<NA>", "N/A", "NA", "NULL", "NaN", "None", "n/a", "nan", "null"]

/-- The field is missing. -/
def isMissingField (field : String) : Bool := missingWords.contains field

/-- The value of a missing field. -/
def missingValue : Value := .float .nan

/-- The values of fields under a reader, if it reads every field that is not missing. -/
def valuesBy? (read? : String → Option Value) (fields : List String) : Option (List Value) :=
  fields.mapM fun field => if isMissingField field then some missingValue else read? field

/-- A whole number. -/
def wholeValue? (field : String) : Option Value := (fieldWhole? field.toList).map .int

/-- A double. -/
def numberValue? (field : String) : Option Value := (fieldNumber? field.toList).map .float

/-- A flag: one of the words true and false, in any case. -/
def flagValue? (field : String) : Option Value :=
  let word := field.map Char.toLower
  if word = "true" then some (.bool true)
  else if word = "false" then some (.bool false)
  else none

/-- A text. -/
def textValue? (field : String) : Option Value := some (.text field)

/-- A field as it stands, whatever it says. -/
def rawValue (field : String) : Value := .text field

/-- The texts of a column; missing fields are missing. -/
def textValues (fields : List String) : List Value :=
  (valuesBy? textValue? fields).getD (fields.map rawValue)

/-- A whole number as a double. -/
def widened : Value → Value
  | .int n => .float (.ofInt n)
  | v => v

/-- Some whole number of a column meets a condition. -/
def anyWhole (condition : Int → Bool) (values : List Value) : Bool :=
  values.any fun
    | .int n => condition n
    | _ => false

/-- A column of whole numbers. They have 64 bits; signed ones are doubles when some are missing, and
unsigned ones go neither with negative numbers nor with missing fields. A column that is neither
holds the texts of its fields. -/
def settleWholes (fields : List String) (values : List Value) : List Value :=
  let someMissing := values.any (·.isMissing)
  if anyWhole (fun n => unsignedLimit ≤ n) values then textValues fields
  else if anyWhole (fun n => wordLimit ≤ n) values then
    if someMissing || anyWhole (· < 0) values then fields.map rawValue else values
  else if anyWhole (· < -wordLimit) values then textValues fields
  else if someMissing then values.map widened
  else values

/-- The values of a column: the first type counts that fits all its fields. -/
def columnValues (fields : List String) : List Value :=
  match valuesBy? wholeValue? fields, valuesBy? numberValue? fields,
    valuesBy? flagValue? fields with
  | some wholes, _, _ => settleWholes fields wholes
  | none, some numbers, _ => numbers
  | none, none, some flags => flags
  | none, none, none => textValues fields

end Sheet

end Storefront
