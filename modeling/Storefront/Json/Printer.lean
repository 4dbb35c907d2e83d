import Storefront.Json.Value
import Storefront.Number.Written
import Storefront.Text.Quoted

/-!
# Writing JSON text

A value on one line of ASCII characters: a comma and a blank between items, a colon and a blank
after names, and `\u` escapes, in surrogate pairs where needed, for everything else.

* `jsonText`: a text between double quotes
* `Value.written`: a value
-/

namespace Storefront

/-- A 16-bit unit as an escape. -/
def unitEscape (unit : Nat) : List Char := '\\' :: 'u' :: hexText 4 unit

/-- One character inside double quotes. -/
def jsonChar (c : Char) : List Char :=
  if c == '"' then ['\\', '"']
  else if c == '\\' then ['\\', '\\']
  else if c == '\n' then ['\\', 'n']
  else if c == '\r' then ['\\', 'r']
  else if c == '\t' then ['\\', 't']
  else if c == '\x08' then ['\\', 'b']
  else if c == '\x0c' then ['\\', 'f']
  else if 0x20 ≤ c.toNat ∧ c.toNat ≤ 0x7E then [c]
  else if c.toNat ≤ 0xFFFF then unitEscape c.toNat
  else
    let offset := c.toNat - 0x10000
    unitEscape (0xD800 + offset / 0x400) ++ unitEscape (0xDC00 + offset % 0x400)

/-- A text between double quotes. -/
def jsonText (s : String) : List Char := '"' :: s.toList.flatMap jsonChar ++ ['"']

namespace Value

/-- The characters of a value. -/
def chars : Value → List Char
  | .null => "null".toList
  | .bool true => "true".toList
  | .bool false => "false".toList
  | .int n => (intText n).toList
  | .float x => (x.written .interchange).toList
  | .text s => jsonText s
  | .list [] => ['[', ']']
  | .list (item :: rest) => '[' :: item.chars ++ itemChars rest
  | .object [] => ['\x7b', '\x7d']
  | .object ((name, value) :: rest) =>
    '\x7b' :: jsonText name ++ ':' :: ' ' :: value.chars ++ fieldChars rest
where
  /-- The further items of a list, with its closing bracket. -/
  itemChars : List Value → List Char
    | [] => [']']
    | item :: rest => ',' :: ' ' :: item.chars ++ itemChars rest
  /-- The further fields of an object, with its closing brace. -/
  fieldChars : Fields → List Char
    | [] => ['\x7d']
    | (name, value) :: rest =>
      ',' :: ' ' :: jsonText name ++ ':' :: ' ' :: value.chars ++ fieldChars rest

/-- A value as one line of text. -/
def written (v : Value) : String := String.ofList v.chars

end Value

end Storefront
