import Storefront.Text.Split

/-!
# Records of comma-separated text

A text is first read into marks: characters of fields, and the commas and line ends between them. A
field in double quotes may hold commas, line ends, and quotes written twice. The marks are then
split into lines and fields; blank lines do not count.

* `Mark`, `readMarks`: the marks of a text
* `records?`: the records of a text, if every quoted field is closed
-/

namespace Storefront

namespace Sheet

/-! ## Marks -/

/-- What a text consists of, once quotes are understood. -/
inductive Mark where
  /-- A character of a field. -/
  | char (c : Char)
  /-- The quote that opens a quoted field. -/
  | quote
  /-- The end of a field that is not the last one of its line. -/
  | comma
  /-- The end of a line. -/
  | lineEnd
deriving DecidableEq

/-- Where in a field the reader stands. -/
inductive Place where
  | start
  | plain
  | quoted
  /-- Behind a quote inside a quoted field, which closes the field unless it is doubled. -/
  | closing

/-- The marks of a text; nothing if it ends inside a quoted field. -/
def readMarks : Place → List Char → Option (List Mark)
  | .quoted, [] => none
  | _, [] => some []
  | .quoted, '"' :: cs => readMarks .closing cs
  | .quoted, c :: cs => (readMarks .quoted cs).map (.char c :: ·)
  | .closing, '"' :: cs => (readMarks .quoted cs).map (.char '"' :: ·)
  | .start, '"' :: cs => (readMarks .quoted cs).map (.quote :: ·)
  | _, ',' :: cs => (readMarks .start cs).map (.comma :: ·)
  | _, '\n' :: cs => (readMarks .start cs).map (.lineEnd :: ·)
  | _, '\r' :: '\n' :: cs => (readMarks .start cs).map (.lineEnd :: ·)
  | _, '\r' :: cs => (readMarks .start cs).map (.lineEnd :: ·)
  | _, c :: cs => (readMarks .plain cs).map (.char c :: ·)

/-! ## Lines and fields -/

/-- A line without fields: nothing in it, or only spaces and tabs. -/
def isBlankLine (line : List Mark) : Bool :=
  line.all fun mark => mark == .char ' ' || mark == .char '\t'

/-- The text of a field; a null character ends it. -/
def fieldText (marks : List Mark) : String :=
  let chars := marks.filterMap fun
    | .char c => some c
    | _ => none
  String.ofList (chars.takeWhile (· != '\x00'))

/-- The fields of a line. -/
def fieldsOfLine (line : List Mark) : List String :=
  (splitBy (· == .comma) line).map fieldText

/-- The text without a byte order mark at its start. -/
def dropByteOrderMark : List Char → List Char
  | '\uFEFF' :: cs => cs
  | cs => cs

/-- The records of a text: the fields of every line that is not blank. -/
def records? (s : String) : Option (List (List String)) :=
  (readMarks .start (dropByteOrderMark s.toList)).map fun marks =>
    ((splitBy (· == .lineEnd) marks).filter (!isBlankLine ·)).map fieldsOfLine

end Sheet

end Storefront
