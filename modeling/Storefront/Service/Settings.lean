import Storefront.Failure
import Storefront.Number.Reading
import Storefront.Service.Path

/-!
# Settings

Where the catalog lies and how much is answered, with defaults that named variables replace.

* `Settings`, `Settings.read`: the settings
* `Settings.snapshotPath`, `Settings.productsPath` and others: the files of the catalog
-/

namespace Storefront

/-- The settings of the service. -/
structure Settings where
  catalogDirectory : String := "data"
  logLevel : String := "INFO"
  relatedLimit : Int := 12
  suggestionLimit : Int := 12
  maxLimit : Int := 100

namespace Settings

/-- The settings without any variable. -/
def standard : Settings := {}

/-- A whole number given by a variable, if the variable is set. -/
def readWhole (assigned : List (String × String)) (name : String) (default : Int) :
    Except Failure Int :=
  match assigned.lookup name with
  | none => .ok default
  | some s => match wholeNumber s with
    | .ok n => .ok n
    | .error .malformed => .error (.notWhole s)
    | .error .tooLong => .error .badValue

/-- The settings under assigned variables. -/
def read (assigned : List (String × String)) : Except Failure Settings := do
  let text (name default : String) := (assigned.lookup name).getD default
  let relatedLimit ← readWhole assigned "CATALOGREC_RELATED_LIMIT" standard.relatedLimit
  let suggestionLimit ←
    readWhole assigned "CATALOGREC_SUGGESTION_LIMIT" standard.suggestionLimit
  let maxLimit ← readWhole assigned "CATALOGREC_MAX_LIMIT" standard.maxLimit
  let catalogDirectory := text "CATALOGREC_CATALOG_DIR" standard.catalogDirectory
  let logLevel := text "CATALOGREC_LOG_LEVEL" standard.logLevel
  return ⟨catalogDirectory, logLevel, relatedLimit, suggestionLimit, maxLimit⟩

/-- A file in the catalog's directory. -/
def pathOf (s : Settings) (name : String) : Path := (Path.ofText s.catalogDirectory).child name

/-- The file of the catalog's snapshot. -/
def snapshotPath (s : Settings) : Path := s.pathOf "catalog_snapshot.joblib"

/-- The file of the products. -/
def productsPath (s : Settings) : Path := s.pathOf "products.csv"

/-- The file of the collections. -/
def collectionsPath (s : Settings) : Path := s.pathOf "collections.csv"

/-- The file of the memberships. -/
def membershipsPath (s : Settings) : Path := s.pathOf "product_collections.csv"

/-- The settings and the paths that follow from them. -/
def toFields (s : Settings) : Fields :=
  [("catalog_dir", .text s.catalogDirectory), ("log_level", .text s.logLevel),
    ("default_related_limit", .int s.relatedLimit),
    ("default_suggestion_limit", .int s.suggestionLimit), ("max_limit", .int s.maxLimit),
    ("snapshot_path", .text s.snapshotPath.text), ("products_csv", .text s.productsPath.text),
    ("collections_csv", .text s.collectionsPath.text),
    ("memberships_csv", .text s.membershipsPath.text)]

end Settings

end Storefront
