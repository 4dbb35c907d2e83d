import Storefront.Json.Value
import Storefront.Number.Reading

/-!
# Reading JSON text

A reader for JSON text in which, beyond the standard, `NaN`, `Infinity` and `-Infinity` are numbers.
Every step returns what is left of the text, and the value read never weighs more than the text it
was read from.

A text is one of Unicode characters. Half of a surrogate pair, which an escape can write alone, is none:
it is read as the replacement mark, so that texts that differ only in such halves are not told apart.

* `Value.read`: the value of a whole text
* `Value.fits_of_read`: a value that is read holds no whole number too long to be written
* `Value.weight_read_le`: a value weighs no more than its text
-/

namespace Storefront

/-- Why a text is not read: where it stops being JSON, or a whole number with too many digits. -/
inductive JsonFault where
  | malformed (position : Nat)
  | wholeTooLong
deriving DecidableEq, Repr

namespace JsonReader

/-- A fault while reading, placed by the number of characters from it to the end of the text. -/
inductive Fault where
  | malformed (remaining : Nat)
  | wholeTooLong

/-- The fault, placed from the start of a text of the given length. -/
def Fault.placed (length : Nat) : Fault → JsonFault
  | .malformed remaining => .malformed (length - remaining)
  | .wholeTooLong => .wholeTooLong

/-! ## Blanks -/

/-- The blanks that may stand between the parts of a JSON text. -/
def isSpace (c : Char) : Bool := c == ' ' || c == '\t' || c == '\n' || c == '\r'

/-- The text from its first character that is no blank. -/
def skipSpace (cs : List Char) : List Char := cs.dropWhile isSpace

theorem length_dropWhile_le {α : Type} (p : α → Bool) (xs : List α) :
    (xs.dropWhile p).length ≤ xs.length := by
  induction xs with
  | nil => simp
  | cons x xs ih =>
    rw [List.dropWhile_cons]
    split
    · rw [List.length_cons]; omega
    · exact Nat.le_refl _

theorem length_skipSpace_le (cs : List Char) : (skipSpace cs).length ≤ cs.length :=
  length_dropWhile_le isSpace cs

/-! ## Text -/

/-- The value of a hexadecimal digit. -/
def hexDigit? (c : Char) : Option Nat :=
  if '0' ≤ c ∧ c ≤ '9' then some (c.toNat - '0'.toNat)
  else if 'a' ≤ c ∧ c ≤ 'f' then some (c.toNat - 'a'.toNat + 10)
  else if 'A' ≤ c ∧ c ≤ 'F' then some (c.toNat - 'A'.toNat + 10)
  else none

/-- The number that four hexadecimal digits write. -/
def hexUnit? (a b c d : Char) : Option Nat := do
  let a ← hexDigit? a
  let b ← hexDigit? b
  let c ← hexDigit? c
  let d ← hexDigit? d
  return ((a * 16 + b) * 16 + c) * 16 + d

/-- The character that stands for a letter after a backslash. -/
def escape? : Char → Option Char
  | '"' => some '"'
  | '\\' => some '\\'
  | '/' => some '/'
  | 'b' => some '\x08'
  | 'f' => some '\x0c'
  | 'n' => some '\n'
  | 'r' => some '\r'
  | 't' => some '\t'
  | _ => none

/-- The number is the first half of a surrogate pair. -/
def isHighSurrogate (unit : Nat) : Bool := 0xD800 ≤ unit && unit ≤ 0xDBFF

/-- The number is the second half of a surrogate pair. -/
def isLowSurrogate (unit : Nat) : Bool := 0xDC00 ≤ unit && unit ≤ 0xDFFF

/-- The code points of a text up to its closing quote, and what follows the quote.

An escape may give half of a surrogate pair. `opened` is the number of characters from the opening
quote to the end of the text. -/
def readCodePoints (opened : Nat) : List Char → Except Fault (List Nat × List Char)
  | [] => .error (.malformed opened)
  | '"' :: rest => .ok ([], rest)
  | '\\' :: 'u' :: a :: b :: c :: d :: rest =>
    match hexUnit? a b c d with
    | some unit =>
      if rest.isEmpty then .error (.malformed 5)
      else (readCodePoints opened rest).map fun r => (unit :: r.1, r.2)
    | none => .error (.malformed (rest.length + 5))
  | '\\' :: 'u' :: rest => .error (.malformed (rest.length + 1))
  | ['\\'] => .error (.malformed opened)
  | '\\' :: c :: rest =>
    match escape? c with
    | some c => (readCodePoints opened rest).map fun r => (c.toNat :: r.1, r.2)
    | none => .error (.malformed (rest.length + 2))
  | c :: rest =>
    if c.toNat ≤ 0x1F then .error (.malformed (rest.length + 1))
    else (readCodePoints opened rest).map fun r => (c.toNat :: r.1, r.2)

/-- Characters for code points: a surrogate pair is one character, a lone half the replacement
mark. -/
def joinPairs : List Nat → List Char
  | [] => []
  | [unit] => [unitChar unit]
  | high :: low :: rest =>
    if isHighSurrogate high && isLowSurrogate low then
      Char.ofNat (0x10000 + (high - 0xD800) * 0x400 + (low - 0xDC00)) :: joinPairs rest
    else unitChar high :: joinPairs (low :: rest)
where
  /-- The character of one code point. -/
  unitChar (unit : Nat) : Char :=
    if isHighSurrogate unit || isLowSurrogate unit then '\uFFFD' else Char.ofNat unit

theorem exists_of_map_eq_ok {ε α β : Type} {f : α → β} {x : Except ε α} {b : β}
    (h : x.map f = .ok b) : ∃ a, x = .ok a ∧ f a = b := by
  cases x with
  | error e => cases h
  | ok a => exact ⟨a, rfl, Except.ok.inj h⟩

theorem length_readCodePoints {opened : Nat} {cs : List Char} {r : List Nat × List Char}
    (h : readCodePoints opened cs = .ok r) : r.1.length + r.2.length < cs.length := by
  fun_induction readCodePoints opened cs generalizing r with
  | case2 => cases h; simp
  | case4 | case8 | case11 =>
    obtain ⟨r, hr, rfl⟩ := exists_of_map_eq_ok h
    rename_i ih
    have := ih hr
    simp only [List.length_cons]
    omega
  | _ => cases h

theorem length_joinPairs_le (units : List Nat) : (joinPairs units).length ≤ units.length := by
  fun_induction joinPairs units with
  | case1 => simp
  | case2 => simp
  | case3 high low rest _ ih => simp only [List.length_cons]; omega
  | case4 high low rest _ ih => simp only [List.length_cons] at *; omega

/-- The text up to its closing quote, and what follows the quote. -/
def readText (opened : Nat) (cs : List Char) : Except Fault (String × List Char) :=
  (readCodePoints opened cs).map fun r => (String.ofList (joinPairs r.1), r.2)

theorem length_readText {opened : Nat} {cs : List Char} {r : String × List Char}
    (h : readText opened cs = .ok r) : r.1.length + r.2.length < cs.length := by
  obtain ⟨u, hu, rfl⟩ := exists_of_map_eq_ok h
  have := length_readCodePoints hu
  have := length_joinPairs_le u.1
  simp only [String.length_ofList]
  omega

/-! ## Numbers -/

theorem length_takeDigits (cs : List Char) :
    (takeDigits cs).1.length + (takeDigits cs).2.length = cs.length := by
  rw [takeDigits, List.length_map, ← List.length_append, List.takeWhile_append_dropWhile]

/-- Splits off the digits before the point; more than one digit does not start with zero. -/
def takeWhole? (cs : List Char) : Option (List Nat × List Char) :=
  match cs with
  | '0' :: rest => some ([0], rest)
  | _ => if (takeDigits cs).1.isEmpty then none else some (takeDigits cs)

/-- Splits off the digits after the point, if there are any. -/
def takePart? (cs : List Char) : Option (List Nat × List Char) :=
  match cs with
  | '.' :: rest => if (takeDigits rest).1.isEmpty then none else some (takeDigits rest)
  | _ => none

/-- The number at the start of a text without a sign, and what follows it. -/
def readUnsigned? (negative : Bool) (cs : List Char) : Option (Except Fault (Value × List Char)) :=
  match takeWhole? cs with
  | none => none
  | some (whole, afterWhole) =>
    let (part, afterPart) := (takePart? afterWhole).getD ([], afterWhole)
    let (exponent, rest) := takeExponent afterPart
    if rest.length = afterWhole.length then
      if maxWholeDigits < whole.length then some (.error .wholeTooLong)
      else some (.ok (.int (if negative then -(ofDigits whole : Int) else ofDigits whole), rest))
    else
      let number := Decimal.toBinary64 ⟨negative, ofDigits (whole ++ part), exponent - part.length⟩
      some (.ok (.float number, rest))

/-- The literals and the values they stand for. -/
def literals : List (String × Value) :=
  [("null", .null), ("true", .bool true), ("false", .bool false), ("NaN", .float .nan),
    ("Infinity", .float .infinity), ("-Infinity", .float Binary64.infinity.neg)]

/-- The rest of a text that begins with a word. -/
def afterWord? : List Char → List Char → Option (List Char)
  | [], cs => some cs
  | w :: word, c :: cs => if w = c then afterWord? word cs else none
  | _ :: _, [] => none

/-- The literal at the start of a text, and what follows it. -/
def readLiteral? (cs : List Char) : Option (Value × List Char) :=
  literals.findSome? fun literal => (afterWord? literal.1.toList cs).map (literal.2, ·)

/-- The number or literal at the start of a text, and what follows it. -/
def readScalar (cs : List Char) : Except Fault (Value × List Char) :=
  match readLiteral? cs with
  | some r => .ok r
  | none =>
    let number := match cs with
      | '-' :: rest => readUnsigned? true rest
      | _ => readUnsigned? false cs
    number.getD (.error (.malformed cs.length))

theorem length_afterWord? {word cs rest : List Char} (h : afterWord? word cs = some rest) :
    word.length + rest.length = cs.length := by
  fun_induction afterWord? word cs with
  | case1 => cases h; simp
  | case2 word c cs ih => have := ih h; simp only [List.length_cons]; omega
  | case3 => cases h
  | case4 => cases h

theorem length_takeSign_le (cs : List Char) : (takeSign cs).2.length ≤ cs.length := by
  unfold takeSign
  split <;> simp

theorem length_takeExponent_le (cs : List Char) : (takeExponent cs).2.length ≤ cs.length := by
  cases cs with
  | nil => simp [takeExponent]
  | cons c rest =>
    simp only [takeExponent]
    split
    · split
      · simp
      · rename_i digits after _ h
        have := length_takeSign_le rest
        have := length_takeDigits (takeSign rest).2
        simp only [h, List.length_cons] at *
        omega
    · simp

theorem length_takeWhole? {cs : List Char} {r : List Nat × List Char} (h : takeWhole? cs = some r) :
    r.2.length < cs.length := by
  unfold takeWhole? at h
  split at h
  · cases h; simp
  · split at h
    · cases h
    · rename_i hne
      cases h
      have := length_takeDigits cs
      have : 0 < (takeDigits cs).1.length := by
        cases hd : (takeDigits cs).1 with
        | nil => simp [hd] at hne
        | cons d ds => simp
      omega

theorem length_takePart? {cs : List Char} {r : List Nat × List Char} (h : takePart? cs = some r) :
    r.2.length ≤ cs.length := by
  unfold takePart? at h
  split at h
  · rename_i rest
    split at h
    · cases h
    · cases h
      have := length_takeDigits rest
      simp only [List.length_cons]
      omega
  · cases h

theorem length_readUnsigned? {negative : Bool} {cs : List Char} {r : Value × List Char}
    (h : readUnsigned? negative cs = some (.ok r)) : r.1.weight + r.2.length ≤ cs.length := by
  unfold readUnsigned? at h
  split at h
  · cases h
  · rename_i whole afterWhole hwhole
    have hwhole := length_takeWhole? hwhole
    have hpart : ((takePart? afterWhole).getD ([], afterWhole)).2.length ≤ afterWhole.length := by
      cases hp : takePart? afterWhole with
      | none => simp
      | some part => exact length_takePart? hp
    have hrest := length_takeExponent_le ((takePart? afterWhole).getD ([], afterWhole)).2
    simp only at h hwhole
    split at h
    · split at h
      · cases h
      · cases h; simp only [Value.weight]; omega
    · cases h; simp only [Value.weight]; omega

theorem length_readScalar {cs : List Char} {r : Value × List Char}
    (h : readScalar cs = .ok r) : r.1.weight + r.2.length ≤ cs.length := by
  unfold readScalar at h
  split at h
  · rename_i literal hl
    cases h
    obtain ⟨⟨word, value⟩, hmem, hrest⟩ := List.exists_of_findSome?_eq_some hl
    obtain ⟨rest, hrest, hr⟩ := Option.map_eq_some_iff.1 hrest
    have hlen := length_afterWord? hrest
    subst hr
    simp only [literals, List.mem_cons, Prod.mk.injEq, List.not_mem_nil, or_false] at hmem
    obtain ⟨rfl, rfl⟩ | ⟨rfl, rfl⟩ | ⟨rfl, rfl⟩ | ⟨rfl, rfl⟩ | ⟨rfl, rfl⟩ | ⟨rfl, rfl⟩ := hmem <;>
      simp only [Value.weight] <;> simp at hlen <;> omega
  · split at h
    · rename_i rest _
      cases hu : readUnsigned? true rest with
      | none => simp [hu] at h
      | some u =>
        simp only [hu, Option.getD_some] at h
        have := length_readUnsigned? (h ▸ hu)
        simp only [List.length_cons]
        omega
    · cases hu : readUnsigned? false cs with
      | none => simp [hu] at h
      | some u =>
        simp only [hu, Option.getD_some] at h
        exact length_readUnsigned? (h ▸ hu)

theorem lt_ten_of_mem_takeDigits {cs : List Char} {d : Nat} (h : d ∈ (takeDigits cs).1) : d < 10 := by
  obtain ⟨c, hc, rfl⟩ := List.mem_map.1 h
  have hdigit := List.all_eq_true.1 List.all_takeWhile c hc
  simp only [Char.isDigit, Bool.and_eq_true, decide_eq_true_eq] at hdigit
  have hle : c.toNat ≤ '9'.toNat := hdigit.2
  simp only [Char.reduceToNat] at hle ⊢
  omega

theorem lt_ten_of_mem_takeWhole? {cs : List Char} {r : List Nat × List Char}
    (h : takeWhole? cs = some r) : ∀ d ∈ r.1, d < 10 := by
  unfold takeWhole? at h
  split at h
  · cases h
    simp
  · split at h
    · cases h
    · cases h
      exact fun d => lt_ten_of_mem_takeDigits

/-- Digits write a number below the power of ten with their count as exponent. -/
theorem ofDigits_lt {digits : List Nat} (h : ∀ d ∈ digits, d < 10) :
    ofDigits digits < Nat.pow 10 digits.length := by
  suffices hfold : ∀ n,
      digits.foldl (fun n d => 10 * n + d) n < (n + 1) * Nat.pow 10 digits.length by
    simpa [ofDigits] using hfold 0
  induction digits with
  | nil => intro n; simp
  | cons d digits ih =>
    intro n
    have hd := h d List.mem_cons_self
    have hrest := ih (fun e he => h e (List.mem_cons_of_mem d he)) (10 * n + d)
    rw [List.foldl_cons, List.length_cons, Nat.pow]
    calc digits.foldl (fun n d => 10 * n + d) (10 * n + d)
        < (10 * n + d + 1) * Nat.pow 10 digits.length := hrest
      _ ≤ ((n + 1) * 10) * Nat.pow 10 digits.length := Nat.mul_le_mul_right _ (by omega)
      _ = (n + 1) * (Nat.pow 10 digits.length * 10) := by rw [Nat.mul_assoc, Nat.mul_comm 10]

/-- A whole number of so many digits is written with no more. -/
theorem fits_ofDigits {digits : List Nat} (hdigits : ∀ d ∈ digits, d < 10)
    (hlength : digits.length ≤ maxWholeDigits) (negative : Bool) :
    (Value.int (if negative then -(ofDigits digits : Int) else ofDigits digits)).fits = true := by
  have habs : (if negative then -(ofDigits digits : Int) else ofDigits digits).natAbs =
      ofDigits digits := by
    cases negative <;> simp
  have hpos : 0 < maxWholeDigits := by decide
  rw [Value.fits, habs, decide_eq_true_eq]
  refine (Nat.length_toDigits_le_iff (by decide) hpos).2 ?_
  generalize maxWholeDigits = most at hlength ⊢
  exact Nat.lt_of_lt_of_le (ofDigits_lt hdigits) (Nat.pow_le_pow_right (by decide) hlength)

theorem fits_readUnsigned? {negative : Bool} {cs : List Char} {r : Value × List Char}
    (h : readUnsigned? negative cs = some (.ok r)) : r.1.fits = true := by
  unfold readUnsigned? at h
  split at h
  · cases h
  · rename_i whole afterWhole hwhole
    dsimp only at h
    split at h
    · split at h
      · cases h
      · rename_i hlength
        cases h
        exact fits_ofDigits (lt_ten_of_mem_takeWhole? hwhole) (Nat.not_lt.1 hlength) negative
    · cases h
      rfl

theorem fits_readScalar {cs : List Char} {r : Value × List Char} (h : readScalar cs = .ok r) :
    r.1.fits = true := by
  unfold readScalar at h
  split at h
  · rename_i literal hl
    cases h
    obtain ⟨⟨word, value⟩, hmem, hrest⟩ := List.exists_of_findSome?_eq_some hl
    obtain ⟨rest, -, rfl⟩ := Option.map_eq_some_iff.1 hrest
    have hliterals : ∀ literal ∈ literals, literal.2.fits = true := by decide
    exact hliterals _ hmem
  · have hnumber (negative : Bool) (cs' : List Char) (hcs : (readUnsigned? negative cs').getD
        (.error (.malformed cs.length)) = .ok r) : r.1.fits = true := by
      cases hu : readUnsigned? negative cs' with
      | none => rw [hu] at hcs; cases hcs
      | some u =>
        rw [hu] at hcs
        exact fits_readUnsigned? (hu.trans (congrArg some hcs))
    split at h
    · exact hnumber _ _ h
    · exact hnumber _ _ h

/-! ## Values -/

/-- A value read from the start of a text, with what is left of the text. Its whole numbers have no
more digits than may be written. -/
abbrev Parsed (cs : List Char) :=
  { r : Value × List Char // r.1.fits = true ∧ r.1.weight + r.2.length ≤ cs.length }

/-- The items of a list read from the start of a text, with what is left of the text. -/
abbrev ParsedItems (cs : List Char) :=
  { r : List Value × List Char //
    (Value.list r.1).fits = true ∧ Value.weight.weights r.1 + r.2.length < cs.length }

/-- The fields of an object read from the start of a text, with what is left of the text. -/
abbrev ParsedFields (cs : List Char) :=
  { r : Fields × List Char //
    (Value.object r.1).fits = true ∧ Value.weight.fieldWeights r.1 + r.2.length < cs.length }

mutual

/-- The value at the start of a text. -/
def readValue (cs : List Char) : Except Fault (Parsed cs) :=
  match hcs : cs with
  | '"' :: rest =>
    match h : readText cs.length rest with
    | .ok (s, after) => .ok ⟨(.text s, after), rfl, by
        have := length_readText h; simp only [Value.weight, List.length_cons] at *; omega⟩
    | .error e => .error e
  | '[' :: rest =>
    match h : skipSpace rest with
    | ']' :: after => .ok ⟨(.list [], after), rfl, by
        have := length_skipSpace_le rest
        simp only [h, Value.weight, Value.weight.weights, List.length_cons] at *; omega⟩
    | _ => do
      have := length_skipSpace_le rest
      let ⟨(items, after), hr⟩ ← readItems (skipSpace rest)
      .ok ⟨(.list items, after), hr.1, by
        simp only [Value.weight, List.length_cons] at *; omega⟩
  | '{' :: rest =>
    match h : skipSpace rest with
    | '}' :: after => .ok ⟨(.object [], after), rfl, by
        have := length_skipSpace_le rest
        simp only [h, Value.weight, Value.weight.fieldWeights, List.length_cons] at *; omega⟩
    | _ => do
      have := length_skipSpace_le rest
      let ⟨(fields, after), hr⟩ ← readFields (skipSpace rest)
      .ok ⟨(.object (mergeFields fields), after), Value.fits_mergeFields hr.1, by
        have := Value.fieldWeights_mergeFields fields
        simp only [Value.weight, List.length_cons] at *; omega⟩
  | _ =>
    match h : readScalar cs with
    | .ok r => .ok ⟨r, fits_readScalar h, hcs ▸ length_readScalar h⟩
    | .error e => .error e
termination_by 2 * cs.length

/-- The items of a list from the first one on, up to the closing bracket. -/
def readItems (cs : List Char) : Except Fault (ParsedItems cs) := do
  let ⟨(item, rest), hr⟩ ← readValue cs
  have hspace := length_skipSpace_le rest
  match h : skipSpace rest with
  | ']' :: after => .ok ⟨([item], after), Value.fits_list_cons.2 ⟨hr.1, rfl⟩, by
      simp only [h, Value.weight.weights, List.length_cons] at *; omega⟩
  | ',' :: after => do
    have := length_skipSpace_le after
    have hafter : after.length < cs.length := by
      have := item.weight_pos
      simp only [h, List.length_cons] at *; omega
    let ⟨(items, last), hi⟩ ← readItems (skipSpace after)
    .ok ⟨(item :: items, last), Value.fits_list_cons.2 ⟨hr.1, hi.1⟩, by
      simp only [h, Value.weight.weights, List.length_cons] at *; omega⟩
  | other => .error (.malformed other.length)
termination_by 2 * cs.length + 1

/-- The fields of an object from the first name on, up to the closing brace. -/
def readFields (cs : List Char) : Except Fault (ParsedFields cs) :=
  match cs with
  | '"' :: afterQuote =>
    match hname : readText (afterQuote.length + 1) afterQuote with
    | .error e => .error e
    | .ok (name, afterName) =>
      have hname := length_readText hname
      have hbefore := length_skipSpace_le afterName
      match hc : skipSpace afterName with
      | ':' :: afterColon => do
        have hcolon := length_skipSpace_le afterColon
        have hlt : afterColon.length < afterQuote.length := by
          simp only [hc, List.length_cons] at *; omega
        let ⟨(value, rest), hr⟩ ← readValue (skipSpace afterColon)
        have hspace := length_skipSpace_le rest
        match hn : skipSpace rest with
        | '}' :: after => .ok ⟨([(name, value)], after), Value.fits_object_cons.2 ⟨hr.1, rfl⟩, by
            simp only [hn, Value.weight.fieldWeights, List.length_cons] at *; omega⟩
        | ',' :: after => do
          have hlast := length_skipSpace_le after
          have hafter : after.length < afterQuote.length := by
            have := value.weight_pos
            simp only [hn, List.length_cons] at *; omega
          let ⟨(fields, last), hf⟩ ← readFields (skipSpace after)
          .ok ⟨((name, value) :: fields, last), Value.fits_object_cons.2 ⟨hr.1, hf.1⟩, by
            simp only [hn, Value.weight.fieldWeights, List.length_cons] at *; omega⟩
        | other => .error (.malformed other.length)
      | other => .error (.malformed other.length)
  | _ => .error (.malformed cs.length)
termination_by 2 * cs.length

end

end JsonReader

/-! ## Whole texts -/

namespace Value

open JsonReader in
/-- The value that a whole text writes, with blanks around it. -/
def read (s : String) : Except JsonFault Value :=
  let placed := Fault.placed s.length
  match readValue (skipSpace s.toList) with
  | .error e => .error (placed e)
  | .ok ⟨(v, rest), _⟩ =>
    match skipSpace rest with
    | [] => .ok v
    | extra => .error (placed (.malformed extra.length))

theorem fits_and_weight_le_of_read {s : String} {v : Value} (h : read s = .ok v) :
    v.fits = true ∧ v.weight ≤ s.length := by
  simp only [read] at h
  split at h
  · cases h
  · rename_i value rest hr _
    split at h
    · cases h
      have := JsonReader.length_skipSpace_le s.toList
      simp only [String.length_toList] at this hr
      exact ⟨hr.1, by omega⟩
    · cases h

/-- The whole numbers of a value that is read can be written again. -/
theorem fits_of_read {s : String} {v : Value} (h : read s = .ok v) : v.fits = true :=
  (fits_and_weight_le_of_read h).1

theorem weight_read_le {s : String} {v : Value} (h : read s = .ok v) : v.weight ≤ s.length :=
  (fits_and_weight_le_of_read h).2

end Value

end Storefront
