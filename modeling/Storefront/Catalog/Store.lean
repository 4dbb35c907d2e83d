import Storefront.Catalog.Collection
import Storefront.Catalog.Query
import Storefront.FirstOccurrences

/-!
# The store

A store holds the product table, the collections and their memberships. Reads never change it. A
write stages the new memberships and publishes them as a whole, or fails and changes nothing.

* `Store`, `Store.build`, `Store.ofRecords`, `Store.ofProducts`: stores
* `Faults`: failures of what lies beneath the store
* `Store.query`, `Store.collection?`, `Store.collectionProducts`: reads
* `Store.replaceMembers`, `Store.reorderMembers`: writes, which give the store they leave
-/

namespace Storefront

/-- Products, collections with ids of their own, and memberships. -/
structure Store where
  table : Table
  collections : List Collection
  memberships : Memberships
  distinctIds : (collections.map (·.id)).Nodup

/-- What fails beneath the store: a scan of the products, or the publication of memberships. -/
structure Faults where
  scan : Predicate → Option Failure
  commit : Option Failure

/-- Nothing fails. -/
def Faults.none : Faults := ⟨fun _ => .none, .none⟩

namespace Store

/-! ## Building -/

/-- Adds a collection; one with the same id is replaced where it stands. -/
def insertCollection (c : Collection) : List Collection → List Collection
  | [] => [c]
  | d :: rest => if d.id = c.id then c :: rest else d :: insertCollection c rest

/-- The collections of a list in which the last one with an id counts. -/
def gatherCollections (collections : List Collection) : List Collection :=
  collections.foldl (fun known c => insertCollection c known) []

theorem mem_insertCollection {c d : Collection} {known : List Collection}
    (h : d ∈ insertCollection c known) : d = c ∨ d ∈ known := by
  induction known with
  | nil => simpa [insertCollection] using h
  | cons e rest ih =>
    rw [insertCollection] at h
    split at h
    · rcases List.mem_cons.1 h with h | h
      · exact .inl h
      · exact .inr (List.mem_cons_of_mem e h)
    · rcases List.mem_cons.1 h with rfl | h
      · exact .inr List.mem_cons_self
      · exact (ih h).imp_right (List.mem_cons_of_mem e)

theorem nodup_insertCollection {c : Collection} {known : List Collection}
    (h : (known.map (·.id)).Nodup) : ((insertCollection c known).map (·.id)).Nodup := by
  induction known with
  | nil => simp [insertCollection]
  | cons d rest ih =>
    obtain ⟨hd, hrest⟩ := List.nodup_cons.1 h
    rw [insertCollection]
    by_cases hc : d.id = c.id
    · rw [if_pos hc, List.map_cons, ← hc]
      exact List.nodup_cons.2 ⟨hd, hrest⟩
    · rw [if_neg hc]
      refine List.nodup_cons.2 ⟨fun hmem => ?_, ih hrest⟩
      obtain ⟨e, he, hid⟩ := List.mem_map.1 hmem
      rcases mem_insertCollection he with rfl | he
      · exact hc hid.symm
      · exact hd (List.mem_map.2 ⟨e, he, hid⟩)

/-- Gathered collections have ids of their own. -/
theorem nodup_gatherCollections (collections : List Collection) :
    ((gatherCollections collections).map (·.id)).Nodup := by
  suffices h : ∀ known : List Collection, (known.map (·.id)).Nodup →
      ((collections.foldl (fun known c => insertCollection c known) known).map (·.id)).Nodup from
    h [] .nil
  induction collections with
  | nil => exact fun _ h => h
  | cons c rest ih => exact fun known h => ih (insertCollection c known) (nodup_insertCollection h)

/-- The store of a table, collections, of which the last one with an id counts, and memberships. -/
def ofParts (table : Table) (collections : List Collection) (memberships : Memberships) : Store :=
  ⟨table, gatherCollections collections, memberships, nodup_gatherCollections collections⟩

/-- The store of a raw table, rows of collections and memberships. -/
def build (raw : Option RawTable) (collections : List Fields) (memberships : Fields)
    (reader : MomentReader := .known) : Except Failure Store := do
  let table ← match raw with
    | some raw => Table.ofRaw raw reader
    | none => pure Table.empty
  let collections ← collections.mapM Collection.ofRow
  let memberships ← Memberships.ofFields memberships
  return ofParts table collections memberships

/-- The store of raw records, rows of collections and memberships; without records its table is
empty. -/
def ofRecords (records : List RawRecord) (collections : List Fields) (memberships : Fields)
    (reader : MomentReader := .known) : Except Failure Store :=
  build (if records.isEmpty then none else some (.ofRecords records)) collections memberships reader

/-- The store of products, rows of collections and memberships. -/
def ofProducts (products : List Product) (collections : List Fields) (memberships : Fields)
    (reader : MomentReader := .known) : Except Failure Store :=
  ofRecords (products.map Product.toRecord) collections memberships reader

/-! ## Reading -/

/-- The number of products. -/
def productCount (s : Store) : Nat := s.table.rows.length

/-- The number of collections. -/
def collectionCount (s : Store) : Nat := s.collections.length

/-- The whole number that a value names a collection by. -/
def collectionKey? : Value → Except Failure (Option Int)
  | .int n => .ok (some n)
  | .bool b => .ok (some (if b then 1 else 0))
  | .float x => .ok x.toInt?
  | .null | .text _ => .ok none
  | .list _ | .object _ => .error .wrongType

/-- The collection with an id. -/
def findCollection? (s : Store) (id : Int) : Option Collection :=
  s.collections.find? fun c => c.id = id

/-- The collection that a value names. -/
def collection? (s : Store) (id : Value) : Except Failure (Option Collection) := do
  return (← collectionKey? id).bind s.findCollection?

/-- The collection that a value names, which has to exist. -/
def requireCollection (s : Store) (id : Value) : Except Failure Collection := do
  match ← s.collection? id with
  | some c => return c
  | none => throw (.collectionNotFound id)

/-- The collections, or only the smart ones, in ascending order of their ids. -/
def listCollections (s : Store) (smartOnly : Bool) : List Collection :=
  let sorted := sortBy (fun a b => decide (a.id ≤ b.id)) s.collections
  if smartOnly then sorted.filter (·.isSmart) else sorted

/-- The members of the collection that a value names. -/
def membersOf (s : Store) (id : Value) : Except Failure (List Member) := do
  match ← collectionKey? id with
  | some key => return s.memberships.members key
  | none => return []

/-- The product with an id. -/
def product? (s : Store) (id : Value) : Except Failure (Option Product) := s.table.product? id

/-- The products that a query gives, unless the scan fails. -/
def query (s : Store) (faults : Faults) (q : Query) : Except Failure (List Product) :=
  match faults.scan q.predicate with
  | some failure => .error failure
  | none => s.table.query s.memberships q

/-- The last position of a product among members. -/
def lastPosition? (members : List Member) (id : Int) : Option Nat :=
  (members.zipIdx.filter fun m => m.1.id = id).getLast?.map Prod.snd

/-- The rows of the members that the catalog has, in order of their last positions. -/
def memberRows (s : Store) (members : List Member) : List Row :=
  let placed := s.table.rows.filterMap fun row =>
    (lastPosition? members row.id).map fun position => (position, row)
  (sortBy (fun a b => decide (a.1 ≤ b.1)) placed).map Prod.snd

/-- The products of a collection from an offset on, up to a limit. -/
def collectionProducts (s : Store) (id offset limit : Value) : Except Failure (List Product) := do
  let rows := s.memberRows (← s.membersOf id)
  let (start, stop) ← Limit.slice offset limit
  (Limit.between start stop rows).mapM Row.toProduct

/-- One page of the products of a collection. -/
def collectionPage (s : Store) (id page limit : Value) : Except Failure (List Product) := do
  let rows := s.memberRows (← s.membersOf id)
  let (start, stop) ← Limit.pageBounds page limit
  (Limit.between (some start) (some stop) rows).mapM Row.toProduct

/-- The different values of a field, in ascending order. -/
def distinct (s : Store) (field : String) : Except Failure (List Value) := s.table.distinct field

/-! ## Writing -/

/-- Publishes new memberships. A failure of the store itself is passed on; any other one becomes a
failure of the operation. -/
def publish (s : Store) (faults : Faults) (operation : String) (staged : Memberships) :
    Store × Except Failure Unit :=
  match faults.commit with
  | none => ({ s with memberships := staged }, .ok ())
  | some (.store op cause) => (s, .error (.store op cause))
  | some cause => (s, .error (.store operation cause))

/-- Replaces the members of a collection. -/
def replaceMembers (s : Store) (faults : Faults) (collection : Int) (members : List Member) :
    Store × Except Failure Unit :=
  s.publish faults "replace_collection_membership" (s.memberships.replace collection members)

/-- The members that ids name, in the order of the ids and written as in the ids. -/
def namedMembers (current : List Member) (ids : List Value) : List Member :=
  ids.filterMap fun id =>
    (current.find? fun m => (Value.int m.id).equals id).map fun m => ⟨m.id, id⟩

/-- Members with the named ones moved to the front, each member once. They are listed one after the
other, and one that is listed already is passed over. -/
def moveToFront (current : List Member) (ids : List Value) : List Member :=
  let named := (namedMembers current ids).foldl (appendNew (·.id)) []
  current.foldl (appendNew (·.id)) named

/-- The members that are listed are those that are named and then all, each where it comes first. -/
theorem moveToFront_eq (current : List Member) (ids : List Value) :
    moveToFront current ids = firstsBy (·.id) (namedMembers current ids ++ current) := by
  have hnamed : (namedMembers current ids).foldl (appendNew (·.id)) [] =
      firstsBy (·.id) (namedMembers current ids) := foldl_appendNew [] _
  unfold moveToFront
  dsimp only
  rw [hnamed, foldl_appendNew]

/-- The value can be looked for among ids. -/
def isSearchable : Value → Bool
  | .list _ | .object _ => false
  | _ => true

/-- Moves members of a collection to the front, in the order of a list of ids. -/
def reorderMembers (s : Store) (faults : Faults) (collection : Int) (ids : List Value) :
    Store × Except Failure Unit :=
  if ids.all isSearchable then
    s.publish faults "reorder_collection_membership"
      (s.memberships.replace collection (moveToFront (s.memberships.members collection) ids))
  else (s, .error .wrongType)

/-! ## Keeping -/

/-- The store that is built again from the parts of a store. -/
def restored (s : Store) : Except Failure Store := do
  let table ← Table.ofRaw s.table.toRaw
  let collections ← (s.listCollections false).mapM fun c => Collection.ofRow c.toFields
  let memberships := s.memberships.entries.foldl (fun memberships entry =>
    memberships.replace entry.1 (entry.2.map fun m => Member.ofId m.id)) Memberships.empty
  return ofParts table collections memberships

end Store

end Storefront
