import Storefront.Text.Split

/-!
# Paths

A path is a chain of names below a root or below the current directory. Empty names and single dots
say nothing and are left out; double dots are kept.

* `Path`, `Path.ofText`, `Path.text`: paths and their texts
* `Path.child`: the path of a file in a directory
* `stemOf`: the name of a file without its ending
-/

namespace Storefront

/-- A path: slashes for its root, if it has one, and names. -/
structure Path where
  root : String
  names : List String
deriving DecidableEq

namespace Path

/-- The root of a path that starts with so many slashes; exactly two are a root of their own. -/
def rootOf (slashes : Nat) : String :=
  if slashes = 0 then "" else if slashes = 2 then "//" else "/"

/-- The path that a text gives. -/
def ofText (s : String) : Path where
  root := rootOf (s.toList.takeWhile (· == '/')).length
  names := ((splitBy (· == '/') s.toList).filter fun name => name ≠ [] ∧ name ≠ ['.']).map
    String.ofList

/-- The path of a file in the directory of a path. -/
def child (p : Path) (name : String) : Path := { p with names := p.names ++ [name] }

/-- The text of a path; the current directory is a dot. -/
def text (p : Path) : String :=
  if p.root = "" ∧ p.names = [] then "." else p.root ++ "/".intercalate p.names

end Path

/-- The name of the file that a path ends with. -/
def fileNameOf (s : String) : String :=
  String.ofList ((s.toList.reverse.takeWhile (· != '/')).reverse)

/-- The name of a file without its ending: the last dot and what follows it, unless only dots stand
before it. -/
def stemOf (s : String) : String :=
  let name := (fileNameOf s).toList
  let ending := name.reverse.takeWhile (· != '.')
  let stem := name.take (name.length - ending.length - 1)
  if ending.length = name.length ∨ stem.all (· == '.') then String.ofList name
  else String.ofList stem

end Storefront
