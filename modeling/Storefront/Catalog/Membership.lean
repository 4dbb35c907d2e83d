import Storefront.Json.Comparison
import Storefront.Failure
import Storefront.Number.Reading

/-!
# Memberships

A collection's members are product ids in order of position. A member keeps the way its id was
written, which counts for nothing but how it is shown.

* `Member`: one member
* `Memberships`: the members of all collections
* `Memberships.members?`, `Memberships.replace`: reading and writing one collection
-/

namespace Storefront

/-- A member of a collection. -/
structure Member where
  id : Int
  written : Value := .int id

/-- The member with an id. -/
def Member.ofId (id : Int) : Member := { id }

/-! ## Entries -/

namespace Memberships

/-- Sets the members of a collection in a list of entries. -/
def setEntry (collection : Int) (members : List Member) :
    List (Int × List Member) → List (Int × List Member)
  | [] => [(collection, members)]
  | (key, old) :: rest =>
    if key = collection then (key, members) :: rest
    else (key, old) :: setEntry collection members rest

theorem lookup_setEntry (collection key : Int) (members : List Member)
    (entries : List (Int × List Member)) :
    (setEntry collection members entries).lookup key =
      if key = collection then some members else entries.lookup key := by
  induction entries with
  | nil =>
    by_cases h : key = collection
    · simp [setEntry, h]
    · have : (key == collection) = false := by simpa using h
      simp [setEntry, h, List.lookup_cons, this]
  | cons entry rest ih =>
    obtain ⟨k, old⟩ := entry
    rw [setEntry]
    by_cases hk : k = collection
    · subst hk
      by_cases h : key = k
      · simp [h]
      · have : (key == k) = false := by simpa using h
        simp [List.lookup_cons, this, h]
    · rw [if_neg hk, List.lookup_cons, List.lookup_cons, ih]
      by_cases h : key = k
      · subst h; simp [hk]
      · have : (key == k) = false := by simpa using h
        simp [this]

theorem mem_keys_setEntry {collection key : Int} {members : List Member}
    {entries : List (Int × List Member)} :
    key ∈ (setEntry collection members entries).map Prod.fst ↔
      key = collection ∨ key ∈ entries.map Prod.fst := by
  induction entries with
  | nil => simp [setEntry]
  | cons entry rest ih =>
    obtain ⟨k, old⟩ := entry
    rw [setEntry]
    by_cases hk : k = collection
    · subst hk
      simp
    · rw [if_neg hk, List.map_cons, List.mem_cons, ih, List.map_cons, List.mem_cons]
      constructor
      · rintro (h | h | h) <;> simp [h]
      · rintro (h | h | h) <;> simp [h]

theorem nodup_keys_setEntry {collection : Int} {members : List Member}
    {entries : List (Int × List Member)} (h : (entries.map Prod.fst).Nodup) :
    ((setEntry collection members entries).map Prod.fst).Nodup := by
  induction entries with
  | nil => simp [setEntry]
  | cons entry rest ih =>
    obtain ⟨k, old⟩ := entry
    obtain ⟨hk, hrest⟩ := List.nodup_cons.1 h
    rw [setEntry]
    by_cases hc : k = collection
    · rw [if_pos hc]
      exact List.nodup_cons.2 ⟨hk, hrest⟩
    · rw [if_neg hc]
      refine List.nodup_cons.2 ⟨fun hmem => ?_, ih hrest⟩
      rcases mem_keys_setEntry.1 hmem with h | h
      · exact hc h
      · exact hk h

end Memberships

/-! ## Memberships -/

/-- The members of collections, by the ids of the collections in the order of their first write. -/
structure Memberships where
  entries : List (Int × List Member)
  distinct : (entries.map Prod.fst).Nodup

namespace Memberships

/-- No collection has members. -/
def empty : Memberships := ⟨[], .nil⟩

/-- The members of a collection, if they were ever written. -/
def members? (m : Memberships) (collection : Int) : Option (List Member) :=
  m.entries.lookup collection

/-- The members of a collection; one that was never written has none. -/
def members (m : Memberships) (collection : Int) : List Member :=
  (m.members? collection).getD []

/-- The memberships with the members of one collection replaced. -/
def replace (m : Memberships) (collection : Int) (members : List Member) : Memberships :=
  ⟨setEntry collection members m.entries, nodup_keys_setEntry m.distinct⟩

/-- The products that are in some collection with a given one. -/
def companions (m : Memberships) (product : Value) : List Int :=
  (m.entries.filter fun entry => entry.2.any fun member => (Value.int member.id).equals product)
    |>.flatMap fun entry => entry.2.map (·.id)

/-- A replaced collection has its new members, and every other one keeps its own. -/
theorem members?_replace (m : Memberships) (collection key : Int) (members : List Member) :
    (m.replace collection members).members? key =
      if key = collection then some members else m.members? key :=
  lookup_setEntry collection key members m.entries

theorem members_replace (m : Memberships) (collection key : Int) (members : List Member) :
    (m.replace collection members).members key =
      if key = collection then members else m.members key := by
  simp only [Memberships.members, members?_replace]
  split <;> rfl

end Memberships

/-! ## Ids -/

/-- The id that a value stands for; the whole part of a double counts. -/
def idOfValue : Value → Except Failure Int
  | .int n => .ok n
  | .bool b => .ok (if b then 1 else 0)
  | .float x => match x.truncate? with
    | some n => .ok n
    | none => .error (if x.isNan then .badValue else .overflow)
  | .text s => match wholeNumber s with
    | .ok n => .ok n
    | .error .malformed => .error (.notWhole s)
    | .error .tooLong => .error .badValue
  | .null | .list _ | .object _ => .error .wrongType

/-- The values that a value holds one after the other. -/
def itemsOfValue : Value → Except Failure (List Value)
  | .list items => .ok items
  | .text s => .ok (s.toList.map fun c => .text (String.singleton c))
  | .object fields => .ok (fields.map fun field => .text field.1)
  | .null | .bool _ | .int _ | .float _ => .error .wrongType

/-- The members that a value gives, each as a whole number. -/
def membersOfValue (v : Value) : Except Failure (List Member) := do
  (← itemsOfValue v).mapM fun item => Member.ofId <$> idOfValue item

/-- The memberships that fields give: collection ids with lists of product ids. -/
def Memberships.ofFields (fields : Fields) : Except Failure Memberships :=
  fields.foldlM (fun memberships field => do
    let collection ← idOfValue (.text field.1)
    let members ← membersOfValue field.2
    return memberships.replace collection members) Memberships.empty

end Storefront
