import Storefront.Json.Reader
import Storefront.Text.Split

/-!
# Text in addresses

An address writes bytes as a percent sign with two hexadecimal digits. The bytes are text in UTF-8;
where they are not, a replacement character stands for them.

* `percentDecoded`: the text that a part of an address stands for
* `queryPairs`: the names and values of a query
-/

namespace Storefront

namespace UrlText

/-! ## Bytes -/

/-- The UTF-8 bytes of a character. -/
def bytesOf (c : Char) : List Nat := (String.utf8EncodeChar c).map UInt8.toNat

/-- The bytes of a text in which percent signs with two hexadecimal digits stand for bytes. -/
def percentBytes : List Char → List Nat
  | '%' :: a :: b :: cs =>
    match JsonReader.hexDigit? a, JsonReader.hexDigit? b with
    | some high, some low => (high * 16 + low) :: percentBytes cs
    | _, _ => bytesOf '%' ++ percentBytes (a :: b :: cs)
  | c :: cs => bytesOf c ++ percentBytes cs
  | [] => []

/-! ## Characters -/

/-- The character that stands for bytes that are no text. -/
def replacement : Char := '\uFFFD'

/-- How a character goes on after its first byte: the bits of the first byte, the number of bytes
that follow, and the range of the first of those. -/
structure Lead where
  bits : Nat
  following : Nat
  low : Nat := 0x80
  high : Nat := 0xBF

/-- What a first byte says about its character, if it is one. -/
def lead? (byte : Nat) : Option Lead :=
  if byte < 0x80 then some { bits := byte, following := 0 }
  else if 0xC2 ≤ byte ∧ byte ≤ 0xDF then some { bits := byte - 0xC0, following := 1 }
  else if byte = 0xE0 then some { bits := 0, following := 2, low := 0xA0 }
  else if byte = 0xED then some { bits := 0xD, following := 2, high := 0x9F }
  else if 0xE1 ≤ byte ∧ byte ≤ 0xEF then some { bits := byte - 0xE0, following := 2 }
  else if byte = 0xF0 then some { bits := 0, following := 3, low := 0x90 }
  else if byte = 0xF4 then some { bits := 4, following := 3, high := 0x8F }
  else if 0xF1 ≤ byte ∧ byte ≤ 0xF3 then some { bits := byte - 0xF0, following := 3 }
  else none

/-- Begins a character with a byte: the characters that are complete, and one that is begun. -/
def beginChar (byte : Nat) : List Char × Option Lead :=
  match lead? byte with
  | none => ([replacement], none)
  | some lead =>
    if lead.following = 0 then ([Char.ofNat lead.bits], none) else ([], some lead)

/-- Takes one more byte. A character that is begun and does not go on is replaced. -/
def takeByte (begun : Option Lead) (byte : Nat) : List Char × Option Lead :=
  match begun with
  | none => beginChar byte
  | some lead =>
    if lead.low ≤ byte ∧ byte ≤ lead.high then
      let bits := lead.bits * 64 + (byte - 0x80)
      if lead.following ≤ 1 then ([Char.ofNat bits], none)
      else ([], some { bits, following := lead.following - 1 })
    else
      let (complete, next) := beginChar byte
      (replacement :: complete, next)

/-- The characters of bytes, given a character that is begun. -/
def charsOfBytes : Option Lead → List Nat → List Char
  | none, [] => []
  | some _, [] => [replacement]
  | begun, byte :: bytes =>
    let (complete, next) := takeByte begun byte
    complete ++ charsOfBytes next bytes

/-- The text that a part of an address stands for. -/
def percentDecoded (cs : List Char) : String :=
  String.ofList (charsOfBytes none (percentBytes cs))

/-! ## Queries -/

/-- A name or a value in a query; a plus stands for a blank. -/
def queryText (cs : List Char) : String :=
  percentDecoded (cs.map fun c => if c = '+' then ' ' else c)

/-- The names and values of a query, in its order; a name without value has an empty one. -/
def queryPairs (cs : List Char) : List (String × String) :=
  ((splitBy (· == '&') cs).filter (!·.isEmpty)).map fun pair =>
    (queryText (pair.takeWhile (· != '=')), queryText ((pair.dropWhile (· != '=')).drop 1))

end UrlText

end Storefront
