import Storefront.CommandLine.Arguments
import Storefront.Recommend.Suggestion
import Storefront.Service.Settings

/-!
# Commands

Two programs work on a catalog directory. One shows recommendations: products related to a product,
or suggested ones. The other syncs smart collections, all or one, and may save a snapshot.

* `Command`: what can be asked
* `CommandLine.recommend`, `CommandLine.sync`: the command that arguments give
-/

namespace Storefront

/-- What is asked on the command line, in a catalog directory. -/
inductive Command where
  | related (product limit : Int) (explain : Bool) (directory : String)
  | suggested (plan : Plan) (limit : Int) (directory : String)
  | sync (collection : Option Int) (save : Bool) (directory : String)

namespace Command

/-- The catalog directory that a command works on. -/
def directory : Command → String
  | .related _ _ _ directory | .suggested _ _ directory | .sync _ _ directory => directory

/-- The command saves a snapshot when it succeeds. -/
def saves : Command → Bool
  | .sync _ save _ => save
  | _ => false

end Command

/-- What arguments ask for. -/
inductive Invocation where
  | command (c : Command)
  | help
  /-- The arguments do not fit. -/
  | misuse

namespace CommandLine

/-! ## Options -/

/-- Asks for help. -/
def helpOption : OptionName := { long := "--help", short := some 'h' }

/-- Asks for the reasons of recommendations. -/
def explainOption : OptionName := { long := "--explain" }

/-- The number of products. -/
def limitOption : OptionName := { long := "--limit", takesValue := true }

/-- The catalog directory. -/
def directoryOption : OptionName := { long := "--catalog-dir", takesValue := true }

/-- Asks for more to be logged. -/
def verboseOption : OptionName := { long := "--verbose", short := some 'v' }

/-- The strategy for suggestions. -/
def strategyOption : OptionName := { long := "--strategy", takesValue := true }

/-- The collection to sync. -/
def collectionOption : OptionName := { long := "--collection-id", takesValue := true }

/-- Asks for a snapshot. -/
def saveOption : OptionName := { long := "--save-snapshot" }

/-- A whole number. -/
def whole? (s : String) : Option Int := (wholeNumber s).toOption

/-- A plan by its exact name. -/
def plan? (s : String) : Option Plan := Plan.all.find? (·.name = s)

/-- The command that arguments give under a reader, or help if it is asked for. -/
def invocation (options : List OptionName) (rest : Nat) (arguments : List String)
    (command? : Arguments → Option Command) : Invocation :=
  match Arguments.read? options rest arguments with
  | none => .misuse
  | some a =>
    if a.has helpOption then .help
    else match command? a with
      | some command => .command command
      | none => .misuse

/-- The catalog directory that arguments name, or the standard one. -/
def directoryOf? (a : Arguments) : Option String :=
  a.valueOr? directoryOption Settings.standard.catalogDirectory some

/-! ## Commands -/

/-- The command for related products. -/
def related (arguments : List String) : Invocation :=
  invocation [helpOption, explainOption, limitOption, directoryOption, verboseOption] 1 arguments
    fun a => do
      let product ← whole? (← a.rest.head?)
      let limit ← a.valueOr? limitOption Settings.standard.relatedLimit whole?
      return .related product limit (a.has explainOption) (← directoryOf? a)

/-- The command for suggested products. -/
def suggested (arguments : List String) : Invocation :=
  invocation [helpOption, strategyOption, limitOption, directoryOption, verboseOption] 0 arguments
    fun a => do
      let plan ← a.valueOr? strategyOption .mixed plan?
      let limit ← a.valueOr? limitOption Settings.standard.suggestionLimit whole?
      return .suggested plan limit (← directoryOf? a)

/-- The command that the arguments of the recommendation program give: its name comes first. -/
def recommend : List String → Invocation
  | "related" :: arguments => related arguments
  | "suggested" :: arguments => suggested arguments
  | "-h" :: _ | "--help" :: _ => .help
  | _ => .misuse

/-- The command that the arguments of the sync program give. -/
def sync (arguments : List String) : Invocation :=
  invocation [helpOption, directoryOption, collectionOption, saveOption, verboseOption] 0 arguments
    fun a => do
      let collection ← a.valueOr? collectionOption none fun s => (whole? s).map some
      return .sync collection (a.has saveOption) (← directoryOf? a)

/-- The commands and their options. -/
def usage : String :=
  "usage: related ID [--limit N] [--explain] [--catalog-dir DIR] [--verbose]\n" ++
  "       suggested [--strategy NAME] [--limit N] [--catalog-dir DIR] [--verbose]\n" ++
  "       sync [--collection-id ID] [--save-snapshot] [--catalog-dir DIR] [--verbose]\n"

end CommandLine

end Storefront
