import Storefront.Catalog.Store
import Storefront.Json.Printer
import Storefront.Json.Reader

/-!
# Snapshots

The text in which a store is kept between two runs: the columns of its table, the records of its
collections, and their memberships, as one line of JSON.

* `Snapshot.write`: the snapshot of a store
* `Snapshot.read?`: the store of a snapshot
-/

namespace Storefront.Snapshot

/-! ## Writing -/

/-- A cell: a moment is an object, and any other value stands alone in a list. -/
def ofCell : RawCell → Value
  | .value v => .list [v]
  | .moment m =>
    .object [("ticks", .int m.ticks), ("offset", (m.offset.map Value.int).getD .null)]

/-- The columns of a table, by name. -/
def ofTable (t : RawTable) : Fields :=
  t.columns.map fun column => (column.1, .list (column.2.map ofCell))

/-- The members of collections, by the texts of the collections' ids. -/
def ofMemberships (m : Memberships) : Fields :=
  m.entries.map fun entry => (intText entry.1, .list (entry.2.map fun member => .int member.id))

/-- The snapshot of a store. -/
def write (s : Store) : String :=
  Value.written (.object [("products", .object (ofTable s.table.toRaw)),
    ("collections", .list (s.collections.map fun c => .object c.toFields)),
    ("memberships", .object (ofMemberships s.memberships))])

/-! ## Reading -/

/-- The cell that a value gives. -/
def cell? : Value → Option RawCell
  | .list [v] => some (.value v)
  | .object [("ticks", .int (.ofNat ticks)), ("offset", .null)] => some (.moment ⟨ticks, none⟩)
  | .object [("ticks", .int (.ofNat ticks)), ("offset", .int offset)] =>
    some (.moment ⟨ticks, some offset⟩)
  | _ => none

/-- The cells of a column. -/
def cells? : Value → Option (List RawCell)
  | .list cells => cells.mapM cell?
  | _ => none

/-- The table of columns of one height. -/
def table? (columns : Fields) : Option RawTable := do
  let columns ← columns.mapM fun field => (cells? field.2).map fun cells => (field.1, cells)
  let height := (columns.head?.map fun column => column.2.length).getD 0
  if columns.all fun column => column.2.length = height then return ⟨columns, height⟩ else none

/-- The fields of an object. -/
def fields? : Value → Option Fields
  | .object fields => some fields
  | _ => none

/-- The records in a list. -/
def records? : Value → Option (List Fields)
  | .list records => records.mapM fields?
  | _ => none

/-- The store of a snapshot. -/
def read? (text : String) : Option Store := do
  let snapshot ← (Value.read text).toOption
  let table ← table? (← fields? (← snapshot.field? "products"))
  let collections ← records? (← snapshot.field? "collections")
  let memberships ← fields? (← snapshot.field? "memberships")
  (Store.build (some table) collections memberships).toOption

end Storefront.Snapshot
