import Storefront.Json.Display
import Storefront.StableSort

/-!
# Failures

What can go wrong, as causes; their wording and their kinds are functions of the cause.

An id in a wording is taken to be one that can be written (`Value.fits`, at most 4300 digits). Where a
failure, or a line of the log, has to name an id with more digits, the attempt to write it fails before
the failure is there; that is not followed here.

* `FieldFault`: one field of a record that is refused
* `Failure`: the causes
* `Failure.kind`, `Failure.text`: the name of a cause's kind, and its wording
* `Report`, `Failure.report?`: message, status and details of the failures the service answers with
-/

namespace Storefront

/-! ## Refused fields -/

/-- Why a field of a record is refused. -/
inductive Refusal where
  | missing
  | notText
  | notWhole
  | unreadableWhole
  | fractionalWhole
  | oversizedWhole
  | notFinite
  | notNumber
  | unreadableNumber
  | notFlag
  | unreadableFlag
  | notMoment
  | unreadableMoment
  | momentOutOfRange
  | tooSmall
  | tooLarge
  | notList
  | notObject
  | notRecord
  | notChoice
  | notJson
  | badNumber
deriving DecidableEq, Repr

/-- The code of a refusal. -/
def Refusal.code : Refusal → String
  | .missing => "missing"
  | .notText => "string_type"
  | .notWhole => "int_type"
  | .unreadableWhole => "int_parsing"
  | .fractionalWhole => "int_from_float"
  | .oversizedWhole => "int_parsing_size"
  | .notFinite => "finite_number"
  | .notNumber => "float_type"
  | .unreadableNumber => "float_parsing"
  | .notFlag => "bool_type"
  | .unreadableFlag => "bool_parsing"
  | .notMoment => "datetime_type"
  | .unreadableMoment => "datetime_from_date_parsing"
  | .momentOutOfRange => "datetime_parsing"
  | .tooSmall => "greater_than_equal"
  | .tooLarge => "less_than_equal"
  | .notList => "list_type"
  | .notObject => "dict_type"
  | .notRecord => "model_attributes_type"
  | .notChoice => "literal_error"
  | .notJson => "json_invalid"
  | .badNumber => "value_error"

/-- A refused field: the path to it, and why it is refused. -/
structure FieldFault where
  path : List String
  refusal : Refusal
deriving DecidableEq, Repr

/-! ## Causes -/

/-- Why an operation fails. -/
inductive Failure where
  /-- A value of the wrong type. -/
  | wrongType
  /-- A value of the right type that is no good. -/
  | badValue
  /-- A text that is no whole number. -/
  | notWhole (text : String)
  /-- Two products with one id. -/
  | duplicateProducts
  /-- A catalog file without products. -/
  | noProducts
  /-- A table without some of the columns it needs. -/
  | missingColumns (table : String) (columns : List String)
  /-- A name that is no column. -/
  | unknownField (name : String)
  /-- A value that lacks what is asked of it. -/
  | noSuchPart
  /-- A number beyond its range. -/
  | overflow
  /-- A text that is no decimal number. -/
  | notDecimal
  /-- A file that does not exist. -/
  | missingFile
  /-- A record with refused fields. -/
  | invalidRecord (faults : List FieldFault)
  /-- A failure of something outside, known by its kind and its text. -/
  | outside (kind text : String)
  /-- A directory without a catalog. -/
  | catalogNotFound (directory : String)
  /-- A read or write that the store could not do. -/
  | store (operation : String) (cause : Failure)
  /-- An id that no collection has. -/
  | collectionNotFound (id : Value)
  /-- Collections that could not be synced, with the last cause. -/
  | syncFailed (ids : List Int) (cause : Failure)
deriving Inhabited

namespace Failure

/-- The name of a cause's kind. -/
def kind : Failure → String
  | .wrongType => "TypeError"
  | .badValue | .notWhole _ | .duplicateProducts | .noProducts | .missingColumns _ _ =>
    "ValueError"
  | .unknownField _ => "KeyError"
  | .noSuchPart => "AttributeError"
  | .overflow => "OverflowError"
  | .notDecimal => "InvalidOperation"
  | .missingFile => "FileNotFoundError"
  | .invalidRecord _ => "ValidationError"
  | .outside kind _ => kind
  | .catalogNotFound _ => "CatalogNotFoundError"
  | .store _ _ => "StoreError"
  | .collectionNotFound _ => "CollectionNotFoundError"
  | .syncFailed _ _ => "SyncFailedError"

/-- A list of names in quotes, in order, between braces. -/
def nameSet (names : List String) : String :=
  "\x7b" ++ ", ".intercalate ((sortBy (fun a b => decide (a ≤ b)) names).map quoted) ++ "\x7d"

/-- The texts that are shown for the failures whose wording is their own. -/
def ownText? : Failure → Option String
  | .notWhole text =>
    some ("invalid literal for int() with base 10: " ++
      String.ofList ((quoted text).toList.take 200))
  | .duplicateProducts => some "Products data contains duplicate product IDs"
  | .noProducts => some "Cannot load a catalog with no products"
  | .missingColumns table columns =>
    some (table ++ " missing required columns: " ++ nameSet columns)
  | .unknownField name => some (quoted name)
  | _ => none

/-- The wording of a failure. -/
def text : Failure → String
  | .unknownField name => quoted name
  | .outside kind text => if kind = "KeyError" then quoted text else text
  | .catalogNotFound directory =>
    "Catalog not found in '" ++ directory ++ "'. Generate or import a catalog first."
  | .store operation cause =>
    "Product store failed during '" ++ operation ++ "': " ++ cause.text
  | .collectionNotFound id => "Collection " ++ id.shown ++ " not found"
  | .syncFailed ids cause =>
    "Failed to sync collection(s) " ++ ", ".intercalate (ids.map intText) ++ ": " ++ cause.text
  | f => "<" ++ f.kind ++ ">"

end Failure

/-! ## Reports -/

/-- What the service answers when an operation fails. -/
structure Report where
  message : String
  status : Int
  details : Fields

/-- Details that are given, or others where none are given. -/
def Report.detailsOr (given fallback : Fields) : Fields :=
  if given.isEmpty then fallback else given

/-- The report of a failure that the service answers with; the others have none. -/
def Failure.report? (f : Failure) : Option Report :=
  match f with
  | .catalogNotFound directory =>
    some ⟨f.text, 503, [("catalog_dir", .text directory)]⟩
  | .store operation cause =>
    some ⟨f.text, 503, [("operation", .text operation), ("error", .text cause.text),
      ("error_type", .text cause.kind)]⟩
  | .collectionNotFound id =>
    some ⟨f.text, 404, [("collection_id", id)]⟩
  | .syncFailed ids cause =>
    some ⟨f.text, 500, [("collection_ids", .list (ids.map .int)), ("error", .text cause.text),
      ("error_type", .text cause.kind)]⟩
  | _ => none

end Storefront
