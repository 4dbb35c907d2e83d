import Storefront.Catalog.MomentForm
import Storefront.Catalog.RawTable
import Storefront.Json.Display
import Storefront.Number.Word

/-!
# Reading raw columns

Every column of a raw table is brought to the type that the catalog keeps it in.

* `readIds`, `readNumber`, `readTags`, `readFlag`, `readMoments`: the columns
* `isWord_of_readIds`, `isNan_of_readNumber`, `isMissing_of_readValue`, `offset_of_readMoments`:
  what is read holds nothing that stands for a missing value, and is of one form
-/

namespace Storefront.Table

/-! ## Ids -/

/-- A whole number that fits into 64 bits. -/
def word (n : Int) : Except Failure Int :=
  if isWord n then .ok n else .error .overflow

/-- The id of a value in a column of mixed cells. -/
def idOfValue : Value → Except Failure Int
  | .int n => word n
  | .bool b => .ok (if b then 1 else 0)
  | .float x => match x.truncate? with
    | some n => word n
    | none => .error (if x.isNan then .badValue else .overflow)
  | .text s => match wholeNumber s with
    | .ok n => word n
    | .error .malformed => .error (.notWhole s)
    | .error .tooLong => .error .badValue
  | .null | .list _ | .object _ => .error .wrongType

/-- The id of a double: its whole part, or the least word when that is none. -/
def idOfNumber (x : Binary64) : Except Failure Int :=
  match x.truncate? with
  | some n => .ok (if isWord n then n else -wordLimit)
  | none => .error .badValue

/-- The id of a cell in a column of doubles. -/
def idOfDouble : RawCell → Except Failure Int
  | .value (.float x) => idOfNumber x
  | _ => .error .badValue

/-- The id of a cell in a column of texts. -/
def idOfText : RawCell → Except Failure Int
  | .value (.text s) => idOfValue (.text s)
  | _ => .error .badValue

/-- The ids of a column of whole numbers; numbers of 64 bits without sign are taken as signed. -/
def idsOfWholes (ns : List Int) : Except Failure (List Int) :=
  if ns.all isUnsignedWord then
    .ok (ns.map fun n => if n < wordLimit then n else n - unsignedLimit)
  else ns.mapM word

/-- The ids of a column. -/
def readIds (cells : List RawCell) : Except Failure (List Int) :=
  match columnShape cells with
  | .wholes => idsOfWholes (cells.filterMap fun
    | .value (.int n) => some n
    | _ => none)
  | .doubles => cells.mapM idOfDouble
  | .texts => cells.mapM idOfText
  | .missing | .flags | .mixed => cells.mapM fun cell => idOfValue cell.toValue

theorem isWord_of_word {n m : Int} (h : word n = .ok m) : isWord m := by
  rw [word] at h
  split at h
  · rename_i hword
    cases h
    exact hword
  · cases h

theorem isWord_of_idOfValue {v : Value} {n : Int} (h : idOfValue v = .ok n) : isWord n := by
  cases v with
  | int m => exact isWord_of_word h
  | bool b => cases b <;> cases h <;> decide
  | float x =>
    rw [idOfValue] at h
    split at h
    · exact isWord_of_word h
    · cases h
  | text s =>
    rw [idOfValue] at h
    split at h
    · exact isWord_of_word h
    · cases h
    · cases h
  | null | list _ | object _ => cases h

theorem isWord_of_idOfDouble {cell : RawCell} {n : Int} (h : idOfDouble cell = .ok n) :
    isWord n := by
  rw [idOfDouble.eq_def] at h
  split at h
  · rename_i x
    rw [idOfNumber] at h
    split at h
    · cases h
      split
      · assumption
      · decide
    · cases h
  · cases h

theorem isWord_of_idOfText {cell : RawCell} {n : Int} (h : idOfText cell = .ok n) : isWord n := by
  rw [idOfText.eq_def] at h
  split at h
  · exact isWord_of_idOfValue h
  · cases h

/-- A word without sign, taken as one with sign, is a word. -/
theorem isWord_signed {n : Int} (h : isUnsignedWord n) :
    isWord (if n < wordLimit then n else n - unsignedLimit) := by
  simp only [isUnsignedWord, Bool.and_eq_true, decide_eq_true_eq] at h
  simp only [isWord, Bool.and_eq_true, decide_eq_true_eq]
  by_cases hlt : n < wordLimit
  · rw [if_pos hlt]
    unfold wordLimit at hlt ⊢
    omega
  · rw [if_neg hlt]
    unfold wordLimit at hlt ⊢
    unfold unsignedLimit at h ⊢
    omega

theorem isWord_of_idsOfWholes {ns ids : List Int} (h : idsOfWholes ns = .ok ids) :
    ∀ n ∈ ids, isWord n := by
  intro n hn
  rw [idsOfWholes] at h
  split at h
  · rename_i hwords
    cases h
    obtain ⟨m, hm, rfl⟩ := List.mem_map.1 hn
    exact isWord_signed (List.all_eq_true.1 hwords m hm)
  · obtain ⟨m, -, hm⟩ := mem_of_mapM_eq_ok h hn
    exact isWord_of_word hm

/-- Every id of a column fits into 64 bits. -/
theorem isWord_of_readIds {cells : List RawCell} {ids : List Int} (h : readIds cells = .ok ids) :
    ∀ n ∈ ids, isWord n := by
  intro n hn
  rw [readIds] at h
  split at h
  · exact isWord_of_idsOfWholes h n hn
  · obtain ⟨_, -, hcell⟩ := mem_of_mapM_eq_ok h hn
    exact isWord_of_idOfDouble hcell
  · obtain ⟨_, -, hcell⟩ := mem_of_mapM_eq_ok h hn
    exact isWord_of_idOfText hcell
  all_goals
    obtain ⟨_, -, hcell⟩ := mem_of_mapM_eq_ok h hn
    exact isWord_of_idOfValue hcell

/-! ## Numbers, tags and flags -/

/-- A double that is a number. -/
def present? (x : Binary64) : Option Binary64 := if x.isNan then none else some x

/-- The double nearest to a whole number, which has to be in range. -/
def numberOfWhole (n : Int) : Except Failure (Option Binary64) :=
  (Binary64.ofInt? n).elim (.error .overflow) fun x => .ok (some x)

/-- The number that a cell holds; whatever is no number is missing. -/
def readNumber : RawCell → Except Failure (Option Binary64)
  | .value (.int n) => numberOfWhole n
  | .value (.bool b) => .ok (some (.ofNat (if b then 1 else 0)))
  | .value (.float x) => .ok (present? x)
  | .value (.text s) => .ok ((fieldNumber? s.toList).bind present?)
  | _ => .ok none

/-- The value that a text cell keeps, if it holds one. -/
def readValue (cell : RawCell) : Option Value :=
  if cell.isMissing then none else some cell.toValue

theorem isNan_of_present? {x y : Binary64} (h : present? x = some y) : y.isNan = false := by
  rw [present?] at h
  split at h
  · cases h
  · rename_i hx
    cases h
    exact Bool.eq_false_iff.2 hx

theorem isNan_of_numberOfWhole {n : Int} {x : Binary64}
    (h : numberOfWhole n = .ok (some x)) : x.isNan = false := by
  unfold numberOfWhole at h
  cases hn : Binary64.ofInt? n with
  | none =>
    rw [hn] at h
    cases h
  | some y =>
    rw [hn] at h
    rw [← Option.some.inj (Except.ok.inj h)]
    exact Binary64.isNan_of_ofInt? hn

/-- A number that is read from a cell is a number. -/
theorem isNan_of_readNumber {cell : RawCell} {x : Binary64}
    (h : readNumber cell = .ok (some x)) : x.isNan = false := by
  cases cell with
  | moment m => cases h
  | value v =>
    cases v with
    | int n => exact isNan_of_numberOfWhole h
    | bool b =>
      rw [← Option.some.inj (Except.ok.inj h)]
      exact Binary64.isNan_ofNat _
    | float y => exact isNan_of_present? (Except.ok.inj h)
    | text s =>
      obtain ⟨y, -, hy⟩ := Option.bind_eq_some_iff.1 (Except.ok.inj h)
      exact isNan_of_present? hy
    | null | list _ | object _ => cases h

/-- A value that is kept in a text cell is there. -/
theorem isMissing_of_readValue {cell : RawCell} {v : Value} (h : readValue cell = some v) :
    v.isMissing = false := by
  rw [readValue] at h
  split at h
  · cases h
  · rename_i hcell
    cases h
    cases cell with
    | value v => exact Bool.eq_false_iff.2 hcell
    | moment m => rfl

/-- The stored text of a tags cell: a text is kept, and a set of tags is joined. -/
def readTags (cell : RawCell) : Except Failure String :=
  if cell.isMissing then .ok ""
  else match cell.toValue with
    | .text s => .ok s
    | v => (TagSet.read v).map TagSet.toText

/-- The words for true in a flag cell. -/
def trueWords : List String := ["1", "true", "yes", "y"]

/-- The flag of a value: a missing one has a default, and a text is true if it is a word for
true. -/
def readFlag (default : Bool) (v : Value) : Bool :=
  if v.isMissing then default
  else match v with
    | .text s => trueWords.contains ((trimBlank s).map Char.toLower)
    | v => v.isTruthy

/-! ## Moments -/

/-- The words that stand for no moment, or for none in particular. -/
def vagueMoments : List String :=
  ["", "NaT", "nat", "NAT", "nan", "NaN", "NAN", "now", "today"]

/-- The first cell that says something, if it is a text. -/
def firstText? (cells : List RawCell) : Option String :=
  let telling := cells.find? fun cell =>
    !cell.isMissing && !(match cell with
      | .value (.text s) => vagueMoments.contains s
      | _ => false)
  match telling with
  | some (.value (.text s)) => some s
  | _ => none

/-- The moment so many nanoseconds after 1970 began. -/
def momentOfNanoseconds? (n : Int) : Option Moment :=
  if -wordLimit < n ∧ n < wordLimit then Moment.ofEpochTicks? (n / 1000) none else none

/-- The moment of a value in a column without a form; numbers count nanoseconds since 1970. -/
def momentAlone? (reader : MomentReader) : Value → Option Moment
  | .text s => reader.alone? s
  | .int n => momentOfNanoseconds? n
  | .float x => x.truncate?.bind momentOfNanoseconds?
  | _ => none

/-- The moment of a value in a column with a form, under which every value is read as it is shown. -/
def momentUnder? (reader : MomentReader) (form : reader.Form) (v : Value) : Option Moment :=
  if v.isMissing || !v.fits then none else reader.under? form v.shown

/-- The moment of a cell. -/
def momentOfCell? (reader : MomentReader) (form : Option reader.Form) : RawCell → Option Moment
  | .moment m => some m
  | .value v => match form with
    | some form => momentUnder? reader form v
    | none => momentAlone? reader v

/-- The moments of a column, in the form of its first text. Moments with and without offset do not
mix: the first one decides. Offsets that differ are refused. -/
def readMoments (cells : List RawCell) (reader : MomentReader := .known) :
    Except Failure (List (Option Moment)) :=
  let form := (firstText? cells).bind reader.form?
  let moments := cells.map (momentOfCell? reader form)
  match moments.findSome? id with
  | none => .ok moments
  | some first =>
    let alike := moments.map fun m => m.filter fun m => m.offset.isSome == first.offset.isSome
    if alike.all fun m => m.all fun m => m.offset == first.offset then .ok alike
    else .error .badValue

/-- The moments of a column have one offset, or none of them has any. -/
theorem offset_of_readMoments {reader : MomentReader} {cells : List RawCell}
    {moments : List (Option Moment)} (h : readMoments cells reader = .ok moments) :
    ∃ offset, ∀ moment ∈ moments, ∀ m ∈ moment, m.offset = offset := by
  rw [readMoments] at h
  dsimp only at h
  split at h
  · rename_i hnone
    cases h
    refine ⟨none, fun moment hmoment m hm => ?_⟩
    have := List.findSome?_eq_none_iff.1 hnone moment hmoment
    simp_all
  · rename_i first _
    split at h
    · rename_i halike
      cases h
      refine ⟨first.offset, fun moment hmoment m hm => ?_⟩
      have hall := List.all_eq_true.1 halike moment hmoment
      rw [Option.mem_def.1 hm] at hall
      simpa using hall
    · cases h

end Storefront.Table
