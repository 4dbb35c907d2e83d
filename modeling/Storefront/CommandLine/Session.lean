import Storefront.Catalog.Directory
import Storefront.CommandLine.Command
import Storefront.Engine

/-!
# Command-line sessions

Commands run one after the other on the directories of a workspace. Only a sync that succeeds and is
told to save changes a directory.

* `Workspace`: directories by their paths
* `Printed`: what a command prints and how it ends
* `Command.run`: what a command does
-/

namespace Storefront

/-! ## Workspaces -/

/-- The catalog directories below the current directory. -/
structure Workspace where
  directories : List (Path × Directory)

namespace Workspace

/-- The directory that a text names; one that is not known holds nothing. -/
def directory (w : Workspace) (name : String) : Directory :=
  match w.directories.lookup (Path.ofText name) with
  | some d => { d with name := name }
  | none => .empty name

/-- Replaces a directory among directories by paths. -/
def replace (path : Path) (d : Directory) : List (Path × Directory) → List (Path × Directory)
  | [] => [(path, d)]
  | (known, old) :: rest =>
    if known = path then (path, d) :: rest else (known, old) :: replace path d rest

/-- The workspace with a directory in the place of the one of its name. -/
def update (w : Workspace) (d : Directory) : Workspace :=
  ⟨replace (Path.ofText d.name) d w.directories⟩

end Workspace

/-! ## Output -/

/-- What a command prints, and its exit code unless it fails without one. -/
structure Printed where
  output : String
  errors : String := ""
  ending : Except Failure Int

namespace Printed

/-- A command that succeeds. -/
def success (output : String) : Printed := { output, ending := .ok 0 }

/-- A command that ends with an exit code and prints nothing. -/
def silent (code : Int) : Printed := { output := "", ending := .ok code }

/-- A command that fails: for the failures that have a report it ends with code 1. -/
def ofFailure (errors : Report → String) (f : Failure) : Printed :=
  match f.report? with
  | some r => { output := "", errors := errors r, ending := .ok 1 }
  | none => { output := "", ending := .error f }

end Printed

namespace CommandLine

/-- A text set to the right in a column of a width. -/
def rightAligned (width : Nat) (s : String) : String :=
  String.ofList (List.replicate (width - s.length) ' ') ++ s

/-- A product in a list: its rank, id, title and price. -/
def productLine (rank : Nat) (p : Product) : String :=
  "  " ++ rightAligned 2 (intText rank) ++ ". [" ++ intText p.id ++ "] " ++ p.title ++ " - " ++
    p.price.fixed 2

/-- The score of a candidate and the reasons for it. -/
def scoreNote (c : Candidate) : String :=
  "  (score " ++ c.shownScore.text ++ ": " ++ ", ".intercalate c.reasons ++ ")"

/-- Lines under a headline, with a blank line before and after; no lines are noted as such. -/
def listing (headline : String) (lines : List String) : String :=
  let body := if lines.isEmpty then ["  (none)"] else lines
  "\n".intercalate (["", headline] ++ body ++ ["", ""])

/-- The list of related products, with scores if they are to be explained. -/
def relatedListing (product : Int) (explain : Bool) (candidates : List Candidate) : String :=
  listing ("Related products for product " ++ intText product ++ ":")
    (candidates.zipIdx.map fun (c, place) =>
      productLine (place + 1) c.product ++ if explain then scoreNote c else "")

/-- The list of suggested products. -/
def suggestedListing (plan : Plan) (products : List Product) : String :=
  listing ("Suggested products (strategy: " ++ plan.name ++ "):")
    (products.zipIdx.map fun (p, place) => productLine (place + 1) p)

/-! ## Running -/

/-- A failure of the recommendation program is printed when the catalog cannot be loaded. -/
def loadError (r : Report) : String := "Error: " ++ r.message ++ "\n"

/-- Runs a command that only reads the catalog. -/
def readCatalog (d : Directory) (read : Store → Except Failure String) : Printed :=
  match d.load with
  | .error f => .ofFailure loadError f
  | .ok store =>
    match read store with
    | .ok output => .success output
    | .error f => { output := "", ending := .error f }

/-- Syncs one collection or all: the store after it, and what is said about it. -/
def syncStore (store : Store) (collection : Option Int) : Store × Except Failure String :=
  match collection with
  | some id =>
    let (store, outcome) := store.syncById .none (.int id)
    (store, outcome.map fun n =>
      "Synced collection " ++ intText id ++ ": " ++ intText n ++ " products\n")
  | none =>
    let (store, outcome) := store.syncAll fun _ => .none
    (store, outcome.map fun n =>
      "Synced all smart collections: " ++ intText n ++ " products\n")

/-- What is said about a snapshot. -/
def savedNote (directory : String) : String :=
  let settings : Settings := { catalogDirectory := directory }
  "Snapshot saved to " ++ settings.snapshotPath.text ++ "\n"

end CommandLine

/-- Runs a command in a workspace. -/
def Command.run (w : Workspace) : Command → Workspace × Printed
  | .related product limit explain directory =>
    (w, CommandLine.readCatalog (w.directory directory) fun store => do
      let candidates ← store.related .none (.int product) (.int limit) .null
      return CommandLine.relatedListing product explain candidates)
  | .suggested plan limit directory =>
    (w, CommandLine.readCatalog (w.directory directory) fun store => do
      return CommandLine.suggestedListing plan (← store.suggested .none (.int limit) plan))
  | .sync collection save directory =>
    let d := w.directory directory
    match d.load with
    | .error f => (w, .ofFailure (fun _ => "") f)
    | .ok store =>
      match CommandLine.syncStore store collection with
      | (_, .error f) => (w, .ofFailure (fun _ => "") f)
      | (store, .ok said) =>
        if save then (w.update (d.save store), .success (said ++ CommandLine.savedNote directory))
        else (w, .success said)

/-- Runs what arguments ask for; arguments that do not fit end with code 2. -/
def Invocation.run (w : Workspace) : Invocation → Workspace × Printed
  | .command c => c.run w
  | .help => (w, .silent 0)
  | .misuse => (w, .silent 2)

end Storefront
