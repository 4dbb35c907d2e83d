import Storefront.Catalog.Files

/-!
# Catalog directories

A directory holds the files of a catalog, and a snapshot once one was saved. The snapshot counts
before the files.

* `Directory`: a directory with what it holds
* `Directory.load`: the store of the catalog in a directory
* `Directory.save`: a directory with a snapshot of a store
-/

namespace Storefront

/-- A catalog directory: its name, the texts of its files, and its snapshot. -/
structure Directory where
  name : String
  products : Option String := none
  collections : Option String := none
  memberships : Option String := none
  snapshot : Option Store := none

namespace Directory

/-- A directory that holds nothing, or does not exist. -/
def empty (name : String) : Directory := { name }

/-- A file that may be left out. -/
def optionalFile : Option String → CatalogFile
  | some content => .text content
  | none => .unnamed

/-- The store of the catalog in a directory: that of the snapshot, or else that of the files. -/
def load (d : Directory) : Except Failure Store :=
  match d.snapshot, d.products with
  | some store, _ => store.restored
  | none, some products =>
    Store.ofFiles ⟨.text products, optionalFile d.collections, optionalFile d.memberships⟩
  | none, none => .error (.catalogNotFound d.name)

/-- The directory with a snapshot of a store. -/
def save (d : Directory) (store : Store) : Directory := { d with snapshot := some store }

end Directory

end Storefront
