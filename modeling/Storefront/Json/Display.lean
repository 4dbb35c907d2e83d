import Storefront.Json.Value
import Storefront.Number.Written
import Storefront.Text.Quoted

/-!
# Values in messages

How a value is shown inside a message: a text stands for itself, and texts inside lists and objects
are quoted.

* `Value.quotedForm`: the form in which a value is shown inside another one
* `Value.shown`: the form in which a value is shown in a message
-/

namespace Storefront

namespace Value

/-- The form of a value inside a list or an object. -/
def quotedForm : Value → String
  | .null => "None"
  | .bool true => "True"
  | .bool false => "False"
  | .int n => intText n
  | .float x => x.text
  | .text s => quoted s
  | .list items => "[" ++ ", ".intercalate (itemForms items) ++ "]"
  | .object fields => "\x7b" ++ ", ".intercalate (fieldForms fields) ++ "\x7d"
where
  /-- The forms of the items of a list. -/
  itemForms : List Value → List String
    | [] => []
    | item :: rest => item.quotedForm :: itemForms rest
  /-- The forms of the fields of an object. -/
  fieldForms : Fields → List String
    | [] => []
    | (name, value) :: rest => (quoted name ++ ": " ++ value.quotedForm) :: fieldForms rest

/-- The form of a value in a message. -/
def shown : Value → String
  | .text s => s
  | v => v.quotedForm

end Value

end Storefront
