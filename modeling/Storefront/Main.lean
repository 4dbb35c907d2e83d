import Storefront.Catalog.Snapshot
import Storefront.CommandLine.Session

/-!
# The program

Reads a catalog directory from disk, runs one command on it, and writes the snapshot that the
command saves. The first argument `sync` asks for the sync program; other arguments go to the
recommendation program.
-/

namespace Storefront.Main

/-- The text of a file, if the file exists. -/
def fileText? (path : Path) : IO (Option String) := do
  try
    return some (← IO.FS.readFile path.text)
  catch
    | .noFileOrDirectory .. => return none
    | e => throw e

/-- What a catalog directory holds. -/
def readDirectory (name : String) : IO Directory := do
  let settings : Settings := { catalogDirectory := name }
  let snapshot ← fileText? settings.snapshotPath
  let store := snapshot.bind Snapshot.read?
  if snapshot.isSome && store.isNone then
    throw (IO.userError ("unreadable snapshot: " ++ settings.snapshotPath.text))
  return {
    name
    products := ← fileText? settings.productsPath
    collections := ← fileText? settings.collectionsPath
    memberships := ← fileText? settings.membershipsPath
    snapshot := store }

/-- Writes the snapshot of a catalog directory, if it has one. -/
def writeSnapshot (d : Directory) : IO Unit := do
  if let some store := d.snapshot then
    let settings : Settings := { catalogDirectory := d.name }
    IO.FS.writeFile settings.snapshotPath.text (Snapshot.write store)

/-- Prints the output and the errors of a command; the result is its exit code. -/
def report (printed : Printed) : IO UInt32 := do
  IO.print printed.output
  IO.eprint printed.errors
  match printed.ending with
  | .ok code => return code.toNat.toUInt32
  | .error f =>
    IO.eprintln (f.kind ++ ": " ++ f.text)
    return 1

/-- Runs a command on its catalog directory. -/
def runCommand (c : Command) : IO UInt32 := do
  let name := c.directory
  let (after, printed) := c.run ⟨[(Path.ofText name, ← readDirectory name)]⟩
  if c.saves && printed.ending matches .ok 0 then writeSnapshot (after.directory name)
  report printed

/-- Runs what arguments ask for. -/
def perform : Invocation → IO UInt32
  | .command c => runCommand c
  | .help => do
    IO.print CommandLine.usage
    return 0
  | .misuse => do
    IO.eprint CommandLine.usage
    return 2

end Storefront.Main

/-- Runs the program that the first argument names. -/
def main : List String → IO UInt32
  | "sync" :: arguments => Storefront.Main.perform (Storefront.CommandLine.sync arguments)
  | arguments => Storefront.Main.perform (Storefront.CommandLine.recommend arguments)
