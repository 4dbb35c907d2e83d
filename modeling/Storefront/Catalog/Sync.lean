import Storefront.Catalog.Rule.Entry
import Storefront.Catalog.Store

/-!
# Syncing smart collections

A sync evaluates the rule of a smart collection against the catalog and replaces the collection's
members by the result. A failure of the store leaves the members as they were. The ids of collections
are taken to be ones that can be written (`Value.fits`), since failures and the log name them.

* `Store.evaluate`: the products of a predicate, by id
* `Store.sync`: one collection
* `Store.syncAll`: every smart collection, whichever of them fail
-/

namespace Storefront

namespace Store

/-- The order in which a rule's products become members. -/
def evaluationOrder : List SortKey := [{ field := "id" }]

/-- The ids of the products that match a predicate, in ascending order. -/
def evaluate (s : Store) (faults : Faults) : Predicate → Except Failure (List Int)
  | .matchNone => .ok []
  | p => (s.query faults { predicate := p, orderBy := evaluationOrder }).map
      fun products => products.map (·.id)

/-- Replaces the members of a collection by the products of a predicate, and counts them. -/
def writeMatches (s : Store) (faults : Faults) (collection : Int) (p : Predicate) :
    Store × Except Failure Nat :=
  match s.evaluate faults p with
  | .error failure => (s, .error failure)
  | .ok ids =>
    let (s, outcome) := s.replaceMembers faults collection (ids.map Member.ofId)
    (s, outcome.map fun _ => ids.length)

/-- The predicate of a collection's rule; a collection that is not smart, or whose rule cannot be
read, has none. -/
def syncPredicate? (c : Collection) : Except Failure (Option Predicate) := do
  if !c.isSmart then return none
  match ← Entry.read ((c.rule.map StoredRule.toValue).getD .null) with
  | .blank | .rejected _ => return none
  | entry => return some entry.predicate

/-- A failure of the store as a failure to sync a collection. -/
def asSyncFailure (collection : Int) : Except Failure Nat → Except Failure Nat
  | .error (.store operation cause) => .error (.syncFailed [collection] (.store operation cause))
  | outcome => outcome

/-- Syncs a collection: the store that this leaves, and the number of members written. -/
def sync (s : Store) (faults : Faults) (c : Collection) : Store × Except Failure Nat :=
  match syncPredicate? c with
  | .error failure => (s, .error failure)
  | .ok none => (s, .ok 0)
  | .ok (some p) =>
    let (s, outcome) := s.writeMatches faults c.id p
    (s, asSyncFailure c.id outcome)

/-- Syncs collections one after the other, each under its own faults: the store after them, with the
number of members written and the failures by collection. A failure that is not one of syncing ends
the run. -/
def syncEach (faults : Int → Faults) (s : Store) :
    List Collection → Store × Except Failure (Nat × List (Int × Failure))
  | [] => (s, .ok (0, []))
  | c :: rest =>
    match s.sync (faults c.id) c with
    | (s, .ok count) =>
      let (s, outcome) := syncEach faults s rest
      (s, outcome.map fun r => (count + r.1, r.2))
    | (s, .error (.syncFailed ids cause)) =>
      let (s, outcome) := syncEach faults s rest
      (s, outcome.map fun r => (r.1, (c.id, .syncFailed ids cause) :: r.2))
    | (s, .error failure) => (s, .error failure)

/-- Syncs every smart collection, each under its own faults. Each one is attempted, and the failed
ones are reported together, with the cause of the last. -/
def syncAll (s : Store) (faults : Int → Faults) : Store × Except Failure Nat :=
  let (s, outcome) := syncEach faults s (s.listCollections true)
  match outcome with
  | .error failure => (s, .error failure)
  | .ok (total, failed) =>
    match failed.getLast? with
    | none => (s, .ok total)
    | some (_, cause) => (s, .error (.syncFailed (failed.map Prod.fst) cause))

end Store

end Storefront
