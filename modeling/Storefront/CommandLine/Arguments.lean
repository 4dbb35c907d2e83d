import Storefront.Text.Blank
import Storefront.Text.Digit

/-!
# Command-line arguments

Options start with a hyphen. A long option may be cut short as long as no other one starts alike,
and its value follows it or an equals sign. Short flags may stand together behind one hyphen. Two
hyphens end the options.

* `OptionName`, `Word`: options, and what an argument can be
* `Word.ofArgument`: what an argument is
* `Arguments`, `Arguments.read?`: the options and the other arguments of a command
-/

namespace Storefront

/-- An option of a command: its long name, its short one, and whether a value belongs to it. -/
structure OptionName where
  long : String
  short : Option Char := none
  takesValue : Bool := false
deriving DecidableEq

/-- What an argument is. -/
inductive Word where
  /-- An option, with the value behind its equals sign. -/
  | option (o : OptionName) (value : Option String)
  /-- Flags that stand together. -/
  | flags (os : List OptionName)
  | plain (s : String)
  /-- The end of the options. -/
  | dashes
  /-- No option, or more than one. -/
  | bad

namespace Word

/-- The text is a negative number. -/
def isNegativeNumber : List Char → Bool
  | '-' :: cs =>
    let isDigit (c : Char) := (decimalDigit? c).isSome
    match cs.dropWhile isDigit with
    | [] => !cs.isEmpty
    | '.' :: part => !part.isEmpty && part.all isDigit
    | _ => false
  | _ => false

/-- The options whose long name is a text, or else those whose long name starts with it. -/
def matching (options : List OptionName) (name : List Char) : List OptionName :=
  match options.filter fun o => o.long.toList == name with
  | [] => options.filter fun o => name.isPrefixOf o.long.toList
  | exact => exact

/-- A long option with the value behind its equals sign, if one is there. -/
def ofLong (options : List OptionName) (cs : List Char) : Word :=
  let value := match cs.dropWhile (· != '=') with
    | _ :: value => some (String.ofList value)
    | [] => none
  match matching options (cs.takeWhile (· != '=')) with
  | [o] => .option o value
  | [] => if cs.contains ' ' then .plain (String.ofList cs) else .bad
  | _ => .bad

/-- Short flags behind one hyphen. -/
def ofShort (options : List OptionName) (cs : List Char) : Word :=
  match cs.mapM fun c => options.find? fun o => o.short == some c with
  | some os => .flags os
  | none =>
    if isNegativeNumber ('-' :: cs) || (cs.contains ' ' &&
        !options.any fun o => o.short.isSome && o.short == cs.head?) then
      .plain (String.ofList ('-' :: cs))
    else .bad

/-- What an argument in front of the end of the options is. -/
def ofArgument (options : List OptionName) (argument : String) : Word :=
  match argument.toList with
  | ['-', '-'] => .dashes
  | '-' :: '-' :: cs => ofLong options ('-' :: '-' :: cs)
  | '-' :: c :: cs => ofShort options (c :: cs)
  | _ => .plain argument

/-- What the arguments are. -/
def ofArguments (options : List OptionName) : List String → List Word
  | [] => []
  | argument :: rest =>
    match ofArgument options argument with
    | .dashes => .dashes :: rest.map .plain
    | word => word :: ofArguments options rest

end Word

/-- The arguments of a command: its options in order, and the rest. -/
structure Arguments where
  options : List (OptionName × String) := []
  rest : List String := []

namespace Arguments

/-- Adds an option in front. -/
def addOption (o : OptionName) (value : String) (a : Arguments) : Arguments :=
  { a with options := (o, value) :: a.options }

/-- Adds an argument in front. -/
def addRest (s : String) (a : Arguments) : Arguments := { a with rest := s :: a.rest }

/-- The arguments that words give, of which so many may be no options. The end of the options has to
stand next to such a one; the flag says that one stands before. -/
def ofWords? : Nat → Bool → List Word → Option Arguments
  | _, _, [] => some {}
  | spare, _, .option o none :: words =>
    if o.takesValue then
      match words with
      | .plain value :: words => (ofWords? spare false words).map (addOption o value)
      | _ => none
    else (ofWords? spare false words).map (addOption o "")
  | spare, _, .option o (some value) :: words =>
    if o.takesValue then (ofWords? spare false words).map (addOption o value) else none
  | spare, _, .flags os :: words =>
    if os.any (·.takesValue) then none
    else (ofWords? spare false words).map fun a => os.foldr (fun o => addOption o "") a
  | spare + 1, _, .plain s :: words => (ofWords? spare true words).map (addRest s)
  | 0, _, .plain _ :: _ => none
  | spare + 1, _, .dashes :: words => ofWords? (spare + 1) false words
  | 0, true, [.dashes] => some {}
  | 0, _, .dashes :: _ => none
  | _, _, .bad :: _ => none

/-- The arguments of a command with the given options, of which so many may be no options. -/
def read? (options : List OptionName) (rest : Nat) (arguments : List String) : Option Arguments :=
  ofWords? rest false (Word.ofArguments options arguments)

/-- All values of an option. -/
def values (a : Arguments) (o : OptionName) : List String :=
  (a.options.filter (·.1 = o)).map Prod.snd

/-- The last value of an option, or a default. All its values have to be readable. -/
def valueOr? {α : Type} (a : Arguments) (o : OptionName) (default : α)
    (read? : String → Option α) : Option α :=
  ((a.values o).mapM read?).map fun values => values.getLast?.getD default

/-- The option is given. -/
def has (a : Arguments) (o : OptionName) : Bool := !(a.values o).isEmpty

end Arguments

end Storefront
