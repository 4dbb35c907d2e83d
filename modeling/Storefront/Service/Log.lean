import Storefront.Catalog.Moment
import Storefront.Failure
import Storefront.Json.Printer
import Storefront.Number.Word
import Storefront.Service.Path
import Storefront.Service.Template
import Storefront.Text.UpperCase

/-!
# Log records

A log record is written as one JSON object on a line of its own. Fields that a record carries beyond
its own attributes are gathered under `context`.

* `Level`, `LogSetup`: names and numbers of levels, and how much is logged
* `LogRecord`, `LogRecord.written`: records and how they are written
-/

namespace Storefront

/-! ## Levels -/

namespace Level

/-- The levels that have a name. -/
def named : List (Int × String) :=
  [(50, "CRITICAL"), (40, "ERROR"), (30, "WARNING"), (20, "INFO"), (10, "DEBUG"), (0, "NOTSET")]

/-- The name of a level. -/
def name (level : Int) : String := (named.lookup level).getD ("Level " ++ intText level)

/-- The level of ordinary messages. -/
def info : Int := 20

/-- The level of warnings. -/
def warning : Int := 30

/-- The level of errors. -/
def error : Int := 40

/-- The words for a level. -/
def words : List (String × Int) :=
  [("CRITICAL", 50), ("FATAL", 50), ("ERROR", 40), ("WARNING", 30), ("WARN", 30), ("INFO", 20),
    ("DEBUG", 10), ("NOTSET", 0)]

/-- The level that a word in any case names, and the ordinary one if it names none.

Two words name something other than a level, and are refused. -/
def ofWord (word : String) : Except Failure Int :=
  let key := String.ofList (upper word)
  match words.lookup key with
  | some level => .ok level
  | none =>
    if key = "BASIC_FORMAT" then .error .badValue
    else if key = "_STYLES" then .error .wrongType
    else .ok info

end Level

/-- How much is logged: the least level of all records and of those of the access log, and the
number of places that records are written to. -/
structure LogSetup where
  threshold : Int
  accessThreshold : Int
  outputs : Nat

/-- The setup for a level given by a word: one output, and of the access log only warnings. -/
def LogSetup.ofWord (word : String) : Except Failure LogSetup := do
  return ⟨← Level.ofWord word, Level.warning, 1⟩

/-! ## Records -/

/-- A log record: what is said, where and when, and further fields. -/
structure LogRecord where
  logger : String
  level : Int
  file : String
  line : Int
  function : Value
  template : String
  arguments : List Value
  /-- Seconds since 1970 began. -/
  created : Binary64
  extra : Fields

namespace LogRecord

/-- The names of a record's own attributes, which never count as further fields. -/
def attributes : List String :=
  ["args", "asctime", "created", "exc_info", "exc_text", "filename", "funcName", "levelname",
    "levelno", "lineno", "message", "module", "msecs", "msg", "name", "pathname", "process",
    "processName", "relativeCreated", "stack_info", "taskName", "thread", "threadName"]

/-- The further fields of a record. -/
def context (r : LogRecord) : Fields := r.extra.filter fun field => !attributes.contains field.1

/-- The moment so many seconds after 1970 began, to the nearest microsecond. -/
def momentOfSeconds (seconds : Binary64) : Except Failure Moment := do
  let some whole := seconds.truncate? | throw (if seconds.isNan then .badValue else .overflow)
  if !isWord whole then throw .overflow
  let part := (seconds.sub (.ofInt whole)).mul (.ofNat 1000000)
  let micros : Int := roundDiv part.units.natAbs Magnitude.unitsPerOne
  match Moment.ofEpochTicks? (whole * 1000000 + if part.units < 0 then -micros else micros)
    (some 0) with
  | some moment => return moment
  | none => throw .badValue

/-- An attribute of a record; a further field of that name takes its place. -/
def attributeOr (r : LogRecord) (name : String) (own : Value) : Value :=
  (r.extra.lookup name).getD own

/-- An attribute of a record as it is shown. -/
def shownOr (r : LogRecord) (name : String) (own : Value) : Except Failure String :=
  let v := r.attributeOr name own
  if v.fits then .ok v.shown else .error .badValue

/-- The name under which a record is asked for its message. A further field of that name is what is
asked instead, and answers nothing. -/
def messageMethod : String := "getMessage"

/-- The message of a record. -/
def message (r : LogRecord) : Except Failure String := do
  if (r.extra.lookup messageMethod).isSome then throw .wrongType
  Template.message (← r.shownOr "msg" (.text r.template)) r.arguments

/-- Where a record was made: module, function and line. -/
def source (r : LogRecord) : Except Failure String := do
  let module ← r.shownOr "module" (.text (stemOf r.file))
  let function ← r.shownOr "funcName" r.function
  let line ← r.shownOr "lineno" (.int r.line)
  return ":".intercalate [module, function, line]

/-- The entry of a record: when, how grave, by whom, what and where, and the context if there is
any. -/
def entry (r : LogRecord) : Except Failure Fields := do
  if !(Value.int r.level).fits then throw .badValue
  let moment ← momentOfSeconds r.created
  let message ← r.message
  let source ← r.source
  let own : Fields :=
    [("timestamp", .text moment.iso),
      ("level", r.attributeOr "levelname" (.text (Level.name r.level))),
      ("logger", r.attributeOr "name" (.text r.logger)), ("message", .text message),
      ("source", .text source)]
  return if r.context.isEmpty then own else own ++ [("context", .object r.context)]

/-- A record as one line of JSON. -/
def written (r : LogRecord) : Except Failure String := do
  let entry ← r.entry
  if (Value.object entry).fits then return (Value.object entry).written else throw .badValue

/-- A set of values as it is written in a context. -/
def setText (items : List Value) : String :=
  if items.isEmpty then "set()"
  else "\x7b" ++ ", ".intercalate (items.map Value.quotedForm) ++ "\x7d"

end LogRecord

end Storefront
