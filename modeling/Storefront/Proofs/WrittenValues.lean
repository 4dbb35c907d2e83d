import Storefront.Json.Printer
import Storefront.Json.Reader
import Storefront.Proofs.WrittenNumbers

/-!
# Values as they are written

A value is written on one line of printable ASCII characters. Reading the line gives the value back,
unless the value holds a double, whose text may be the same as that of another one, or an object in
which a name is there twice.

* `JsonReader.charUnits`, `JsonReader.readText_jsonText`: texts are read back
* `JsonReader.readScalar_intText`: whole numbers are read back
* `JsonReader.Reads`, `ReadsItems`, `ReadsFields`: what is read from the start of a text
* `Value.IsExact`, `JsonReader.isReadBack_of_isExact`: values are read back, by induction on the
  value
* `Value.read_written`: a value and its text
* `isPlainChar`, `Value.IsExact.all_chars`: the characters of the text
-/

namespace Storefront

/-! ## Hexadecimal digits -/

theorem hexText_succ {width : Nat} (h : 0 < width) (n : Nat) :
    hexText (width + 1) n = hexText width (n / 16) ++ [Nat.digitChar (n % 16)] := by
  unfold hexText
  rw [Nat.toDigits_eq_if (by decide)]
  by_cases hn : n < 16
  · rw [if_pos hn, Nat.div_eq_of_lt hn, Nat.mod_eq_of_lt hn, Nat.toDigits_of_lt_base (by decide)]
    obtain ⟨k, rfl⟩ := Nat.exists_eq_succ_of_ne_zero (Nat.ne_of_gt h)
    simp [List.replicate_succ']
  · rw [if_neg hn]
    simp

/-- The four hexadecimal digits of a 16-bit unit. -/
theorem hexText_four {unit : Nat} (h : unit < 0x10000) : hexText 4 unit =
    [Nat.digitChar (unit / 0x1000), Nat.digitChar (unit / 0x100 % 16),
      Nat.digitChar (unit / 0x10 % 16), Nat.digitChar (unit % 16)] := by
  have hlast : hexText 1 (unit / 16 / 16 / 16) = [Nat.digitChar (unit / 16 / 16 / 16)] := by
    unfold hexText
    rw [Nat.toDigits_of_lt_base (by omega)]
    rfl
  rw [hexText_succ (by decide), hexText_succ (by decide), hexText_succ (by decide), hlast,
    Nat.div_div_eq_div_mul, Nat.div_div_eq_div_mul, Nat.div_div_eq_div_mul]
  rfl

namespace JsonReader

/-! ## Texts -/

theorem hexDigit?_digitChar : ∀ d < 16, hexDigit? (Nat.digitChar d) = some d := by decide

theorem hexUnit?_digits {unit : Nat} (h : unit < 0x10000) :
    hexUnit? (Nat.digitChar (unit / 0x1000)) (Nat.digitChar (unit / 0x100 % 16))
      (Nat.digitChar (unit / 0x10 % 16)) (Nat.digitChar (unit % 16)) = some unit := by
  unfold hexUnit?
  rw [hexDigit?_digitChar _ (by omega), hexDigit?_digitChar _ (by omega),
    hexDigit?_digitChar _ (by omega), hexDigit?_digitChar _ (by omega)]
  refine congrArg some ?_
  show ((unit / 0x1000 * 16 + unit / 0x100 % 16) * 16 + unit / 0x10 % 16) * 16 + unit % 16 = unit
  omega

/-- The 16-bit units of a character: those beyond 16 bits have a pair of them. -/
def charUnits (c : Char) : List Nat :=
  if c.toNat ≤ 0xFFFF then [c.toNat]
  else [0xD800 + (c.toNat - 0x10000) / 0x400, 0xDC00 + (c.toNat - 0x10000) % 0x400]

variable {opened : Nat} {rest : List Char}

theorem readCodePoints_unitEscape {unit : Nat} (h : unit < 0x10000) (hrest : rest ≠ []) :
    readCodePoints opened (unitEscape unit ++ rest) =
      (readCodePoints opened rest).map fun r => (unit :: r.1, r.2) := by
  have hsome : rest.isEmpty = false := List.isEmpty_eq_false_iff.2 hrest
  unfold unitEscape
  rw [hexText_four h]
  show readCodePoints opened ('\\' :: 'u' :: _ :: _ :: _ :: _ :: rest) = _
  rw [readCodePoints, hexUnit?_digits h]
  dsimp only
  rw [hsome]
  rfl

theorem isValid_toNat (c : Char) : c.toNat < 0xD800 ∨ 0xDFFF < c.toNat ∧ c.toNat < 0x110000 :=
  c.valid

theorem readCodePoints_plain {c : Char} (hquote : c ≠ '"') (hback : c ≠ '\\')
    (hcontrol : 0x1F < c.toNat) : readCodePoints opened (c :: rest) =
      (readCodePoints opened rest).map fun r => (c.toNat :: r.1, r.2) := by
  rw [readCodePoints, if_neg (Nat.not_le.2 hcontrol)]
  · exact hquote
  all_goals
    intros
    exact absurd ‹c = '\\'› hback

/-- A character is read as its units. -/
theorem readCodePoints_jsonChar (c : Char) (hrest : rest ≠ []) :
    readCodePoints opened (jsonChar c ++ rest) =
      (readCodePoints opened rest).map fun r => (charUnits c ++ r.1, r.2) := by
  by_cases hnamed : c ∈ ['"', '\\', '\n', '\r', '\t', '\x08', '\x0c']
  · simp only [List.mem_cons, List.not_mem_nil, or_false] at hnamed
    obtain rfl | rfl | rfl | rfl | rfl | rfl | rfl := hnamed <;>
      simp [jsonChar, readCodePoints, escape?, charUnits]
  simp only [List.mem_cons, List.not_mem_nil, or_false, not_or] at hnamed
  obtain ⟨hquote, hback, hn, hr, ht, hb, hf⟩ := hnamed
  by_cases hplain : 0x20 ≤ c.toNat ∧ c.toNat ≤ 0x7E
  · have hunits : charUnits c = [c.toNat] := by
      rw [charUnits, if_pos (by omega)]
    rw [show jsonChar c = [c] by simp [jsonChar, *], hunits]
    exact readCodePoints_plain hquote hback (by omega)
  by_cases hshort : c.toNat ≤ 0xFFFF
  · rw [show jsonChar c = unitEscape c.toNat by simp [jsonChar, *], charUnits, if_pos hshort]
    exact readCodePoints_unitEscape (by omega) hrest
  · have hpair : jsonChar c = unitEscape (0xD800 + (c.toNat - 0x10000) / 0x400) ++
        unitEscape (0xDC00 + (c.toNat - 0x10000) % 0x400) := by simp [jsonChar, *]
    have hbound := isValid_toNat c
    have hne : unitEscape (0xDC00 + (c.toNat - 0x10000) % 0x400) ++ rest ≠ [] :=
      List.cons_ne_nil _ _
    rw [hpair, charUnits, if_neg hshort, List.append_assoc,
      readCodePoints_unitEscape (by omega) hne, readCodePoints_unitEscape (by omega) hrest]
    cases readCodePoints opened rest <;> rfl

/-- Characters up to the closing quote are read as their units. -/
theorem readCodePoints_flatMap (cs rest : List Char) :
    readCodePoints opened (cs.flatMap jsonChar ++ '"' :: rest) =
      .ok (cs.flatMap charUnits, rest) := by
  induction cs with
  | nil => simp [readCodePoints]
  | cons c cs ih =>
    rw [List.flatMap_cons, List.append_assoc, readCodePoints_jsonChar c (by simp), ih]
    rfl

/-- The units of a character are joined to the character. -/
theorem joinPairs_charUnits (c : Char) (units : List Nat) :
    joinPairs (charUnits c ++ units) = c :: joinPairs units := by
  have hbound := isValid_toNat c
  unfold charUnits
  split
  case isTrue hshort =>
    have hhigh : isHighSurrogate c.toNat = false := by
      simp only [isHighSurrogate, Bool.and_eq_false_iff, decide_eq_false_iff_not]; omega
    have hlow : isLowSurrogate c.toNat = false := by
      simp only [isLowSurrogate, Bool.and_eq_false_iff, decide_eq_false_iff_not]; omega
    have hunit : joinPairs.unitChar c.toNat = c := by simp [joinPairs.unitChar, *]
    cases units with
    | nil => simp [joinPairs, hunit]
    | cons unit units => simp [joinPairs, hhigh, hunit]
  case isFalse hlong =>
    have hhigh : isHighSurrogate (0xD800 + (c.toNat - 0x10000) / 0x400) = true := by
      simp only [isHighSurrogate, Bool.and_eq_true, decide_eq_true_eq]; omega
    have hlow : isLowSurrogate (0xDC00 + (c.toNat - 0x10000) % 0x400) = true := by
      simp only [isLowSurrogate, Bool.and_eq_true, decide_eq_true_eq]; omega
    have hjoined : 0x10000 + (0xD800 + (c.toNat - 0x10000) / 0x400 - 0xD800) * 0x400 +
        (0xDC00 + (c.toNat - 0x10000) % 0x400 - 0xDC00) = c.toNat := by omega
    show joinPairs (_ :: _ :: units) = _
    rw [joinPairs, hhigh, hlow, hjoined, Char.ofNat_toNat]
    rfl

/-- A written text is read back. -/
theorem readText_jsonText (s : String) (rest : List Char) :
    readText opened (s.toList.flatMap jsonChar ++ '"' :: rest) = .ok (s, rest) := by
  have hjoined : ∀ cs : List Char, joinPairs (cs.flatMap charUnits) = cs := by
    intro cs
    induction cs with
    | nil => rfl
    | cons c cs ih => rw [List.flatMap_cons, joinPairs_charUnits, ih]
  rw [readText, readCodePoints_flatMap]
  show Except.ok (String.ofList (joinPairs (s.toList.flatMap charUnits)), rest) = _
  rw [hjoined, String.ofList_toList]

/-! ## Whole numbers -/

theorem head?_toDigits {n : Nat} (h : 0 < n) : (Nat.toDigits 10 n).head? ≠ some '0' := by
  induction n using Nat.strongRecOn with
  | ind n ih =>
    have hdigit : ∀ d < 10, 0 < d → Nat.digitChar d ≠ '0' := by decide
    rw [Nat.toDigits_eq_if (by decide)]
    split
    case isTrue hn => simpa using hdigit n hn h
    case isFalse hn =>
      rw [List.head?_append_of_ne_nil _ Nat.toDigits_ne_nil]
      exact ih (n / 10) (by omega) (by omega)

/-- What may follow a value inside of another one. -/
def FollowsValue (rest : List Char) : Prop := ∀ c ∈ rest.head?, c ∈ [',', ']', '\x7d']

theorem FollowsValue.isDigit (h : FollowsValue rest) : ∀ c ∈ rest.head?, c.isDigit = false := by
  intro c hc
  obtain rfl | rfl | rfl : c = ',' ∨ c = ']' ∨ c = '\x7d' := by simpa using h c hc
  all_goals rfl

theorem takeWhole?_toDigits (n : Nat) (hrest : FollowsValue rest) :
    takeWhole? (Nat.toDigits 10 n ++ rest) =
      some ((Nat.toDigits 10 n).map fun c => c.toNat - '0'.toNat, rest) := by
  obtain rfl | hpos := Nat.eq_zero_or_pos n
  · rfl
  · unfold takeWhole?
    split
    case h_1 after heq =>
      have hhead := congrArg List.head? heq
      rw [List.head?_append_of_ne_nil _ Nat.toDigits_ne_nil] at hhead
      exact absurd hhead (head?_toDigits hpos)
    case h_2 =>
      rw [takeDigits_append isDigit_of_mem_toDigits hrest.isDigit, if_neg]
      simp

theorem takePart?_of_followsValue (hrest : FollowsValue rest) : takePart? rest = none := by
  unfold takePart?
  split
  · exact absurd (hrest '.' rfl) (by decide)
  · rfl

theorem takeExponent_of_followsValue (hrest : FollowsValue rest) :
    takeExponent rest = (0, rest) := by
  cases rest with
  | nil => rfl
  | cons c rest =>
    have hc := hrest c rfl
    have hexponent : (c == 'e' || c == 'E') = false := by
      obtain rfl | rfl | rfl : c = ',' ∨ c = ']' ∨ c = '\x7d' := by simpa using hc
      all_goals rfl
    simp only [takeExponent, hexponent, Bool.false_eq_true, if_false]

theorem readUnsigned?_toDigits {n : Nat} (negative : Bool)
    (hfits : (Nat.toDigits 10 n).length ≤ maxWholeDigits) (hrest : FollowsValue rest) :
    readUnsigned? negative (Nat.toDigits 10 n ++ rest) =
      some (.ok (.int (if negative then -(n : Int) else n), rest)) := by
  simp only [readUnsigned?, takeWhole?_toDigits n hrest, takePart?_of_followsValue hrest,
    Option.getD_none, takeExponent_of_followsValue hrest, if_true]
  rw [if_neg (by simpa using hfits), ofDigits_map_toNat, Nat.ofDigitChars_ten_toDigits]

theorem not_mem_of_isDigit {c : Char} (h : c.isDigit = true) {others : List Char}
    (hothers : others.all (fun d => !d.isDigit) = true) : c ∉ others := by
  intro hmem
  have hc := List.all_eq_true.1 hothers c hmem
  simp [h] at hc

/-- No literal begins with a digit, or with a minus and a digit. -/
theorem readLiteral?_of_isDigit {c : Char} (h : c.isDigit = true) (cs : List Char) :
    readLiteral? (c :: cs) = none ∧ readLiteral? ('-' :: c :: cs) = none := by
  have hne : c ∉ ['n', 't', 'f', 'N', 'I', '-'] := not_mem_of_isDigit h (by decide)
  simp only [List.mem_cons, List.not_mem_nil, or_false, not_or, ne_comm (a := c)] at hne
  constructor <;> simp [readLiteral?, literals, afterWord?, hne]

/-- A written whole number begins with no blank, quote or bracket. -/
theorem exists_intText_eq (n : Int) : ∃ c cs, (intText n).toList = c :: cs ∧
    isSpace c = false ∧ c ∉ ['"', '[', ']', '\x7b', '\x7d'] := by
  obtain ⟨c, cs, hdigits⟩ :=
    List.exists_cons_of_ne_nil (Nat.toDigits_ne_nil (b := 10) (n := n.natAbs))
  by_cases hn : n < 0
  · exact ⟨'-', c :: cs, by simp [intText, hn, hdigits], by decide⟩
  · have hc : c.isDigit = true := isDigit_of_mem_toDigits c (by rw [hdigits]; exact .head _)
    have hne : c ∉ ['"', '[', ']', '\x7b', '\x7d', ' ', '\t', '\n', '\r'] :=
      not_mem_of_isDigit hc (by decide)
    refine ⟨c, cs, by simp [intText, hn, hdigits], ?_⟩
    simp_all [isSpace]

/-- A written whole number is read back. -/
theorem readScalar_intText (n : Int) (hfits : (Value.int n).fits = true)
    (hrest : FollowsValue rest) :
    readScalar ((intText n).toList ++ rest) = .ok (.int n, rest) := by
  have hlength : (Nat.toDigits 10 n.natAbs).length ≤ maxWholeDigits := by
    simpa [Value.fits] using hfits
  have hread := fun negative => readUnsigned?_toDigits negative hlength hrest
  obtain ⟨c, cs, hdigits⟩ :=
    List.exists_cons_of_ne_nil (Nat.toDigits_ne_nil (b := 10) (n := n.natAbs))
  have hc : c.isDigit = true := isDigit_of_mem_toDigits c (by rw [hdigits]; exact .head _)
  have hliteral := readLiteral?_of_isDigit hc (cs ++ rest)
  rw [hdigits] at hread
  by_cases hn : n < 0
  · have hchars : (intText n).toList ++ rest = '-' :: c :: (cs ++ rest) := by
      simp [intText, hn, hdigits]
    rw [hchars, readScalar, hliteral.2]
    dsimp only
    rw [← List.cons_append, hread true, if_pos rfl, Int.ofNat_natAbs_of_nonpos (by omega),
      Int.neg_neg]
    rfl
  · have hchars : (intText n).toList ++ rest = c :: (cs ++ rest) := by
      simp [intText, hn, hdigits]
    have hunsigned : readUnsigned? false (c :: (cs ++ rest)) = some (.ok (.int n, rest)) := by
      rw [← List.cons_append, hread false, if_neg (by decide), Int.natAbs_of_nonneg (by omega)]
    rw [hchars, readScalar, hliteral.1]
    · dsimp only
      rw [hunsigned]
      rfl
    · rintro after heq
      cases heq
      exact absurd hc (by decide)

/-! ## What is read -/

/-- A value is read from the start of a text, with what is left of the text. -/
def Reads (cs : List Char) (v : Value) (rest : List Char) : Prop :=
  (readValue cs).map Subtype.val = .ok (v, rest)

/-- The items of a list are read from the first one on, up to the closing bracket. -/
def ReadsItems (cs : List Char) (items : List Value) (rest : List Char) : Prop :=
  (readItems cs).map Subtype.val = .ok (items, rest)

/-- The fields of an object are read from the first name on, up to the closing brace. -/
def ReadsFields (cs : List Char) (fields : Fields) (rest : List Char) : Prop :=
  (readFields cs).map Subtype.val = .ok (fields, rest)

theorem exists_of_map_val {ε α : Type} {p : α → Prop} {x : Except ε (Subtype p)} {a : α}
    (h : x.map Subtype.val = .ok a) : ∃ ha, x = .ok ⟨a, ha⟩ := by
  obtain ⟨⟨b, hb⟩, hx, rfl⟩ := exists_of_map_eq_ok h
  exact ⟨hb, hx⟩

section Steps

variable {cs after : List Char} {v : Value} {items : List Value} {name : String}
  {fields : Fields}

theorem Reads.text {s : String} (h : readText (cs.length + 1) cs = .ok (s, rest)) :
    Reads ('"' :: cs) (.text s) rest := by
  unfold Reads
  rw [readValue]
  split
  case h_1 t after heq =>
    obtain ⟨rfl, rfl⟩ := Prod.mk.inj (Except.ok.inj (heq.symm.trans h))
    rfl
  case h_2 e heq => cases heq.symm.trans h

theorem Reads.scalar {c : Char} (hplain : c ∉ ['"', '[', '\x7b'])
    (h : readScalar (c :: cs) = .ok (v, rest)) : Reads (c :: cs) v rest := by
  unfold Reads
  rw [readValue]
  · split
    case h_1 r heq =>
      cases heq.symm.trans h
      rfl
    case h_2 e heq => cases heq.symm.trans h
  all_goals
    rintro after heq
    cases heq
    exact hplain (by decide)

theorem Reads.emptyList : Reads ('[' :: ']' :: rest) (.list []) rest := by
  unfold Reads
  rw [readValue]
  rfl

theorem Reads.list (hhead : (skipSpace cs).head? ≠ some ']')
    (h : ReadsItems (skipSpace cs) items rest) : Reads ('[' :: cs) (.list items) rest := by
  obtain ⟨_, hitems⟩ := exists_of_map_val h
  unfold Reads
  rw [readValue]
  split
  case h_1 heq => exact absurd (congrArg List.head? heq) hhead
  case h_2 => rw [hitems]; rfl

theorem Reads.emptyObject : Reads ('\x7b' :: '\x7d' :: rest) (.object []) rest := by
  unfold Reads
  rw [readValue]
  rfl

theorem Reads.object (hhead : (skipSpace cs).head? ≠ some '\x7d')
    (h : ReadsFields (skipSpace cs) fields rest) :
    Reads ('\x7b' :: cs) (.object (mergeFields fields)) rest := by
  obtain ⟨_, hfields⟩ := exists_of_map_val h
  unfold Reads
  rw [readValue]
  split
  case h_1 heq => exact absurd (congrArg List.head? heq) hhead
  case h_2 => rw [hfields]; rfl

/-- Items are read when the first one is, and after it the end of the list or the others. -/
theorem ReadsItems.cons (h : Reads cs v after)
    (hafter : skipSpace after = ']' :: rest ∧ items = [] ∨
      ∃ next, skipSpace after = ',' :: next ∧ ReadsItems (skipSpace next) items rest) :
    ReadsItems cs (v :: items) rest := by
  obtain ⟨_, hitem⟩ := exists_of_map_val h
  unfold ReadsItems
  rw [readItems, hitem]
  dsimp only [bind, Except.bind]
  obtain ⟨hend, rfl⟩ | ⟨next, hcomma, hitems⟩ := hafter
  · split
    case h_1 heq =>
      cases heq.symm.trans hend
      rfl
    case h_2 heq => cases heq.symm.trans hend
    case h_3 hbracket _ => exact absurd hend (hbracket rest)
  · obtain ⟨_, hitems⟩ := exists_of_map_val hitems
    split
    case h_1 heq => cases heq.symm.trans hcomma
    case h_2 heq =>
      cases heq.symm.trans hcomma
      rw [hitems]
      rfl
    case h_3 _ hnone => exact absurd hcomma (hnone next)

/-- Fields are read when the first one is, and after it the end of the object or the others. -/
theorem ReadsFields.cons {afterName : List Char}
    (hname : readText (cs.length + 1) cs = .ok (name, ':' :: afterName))
    (h : Reads (skipSpace afterName) v after)
    (hafter : skipSpace after = '\x7d' :: rest ∧ fields = [] ∨
      ∃ next, skipSpace after = ',' :: next ∧ ReadsFields (skipSpace next) fields rest) :
    ReadsFields ('"' :: cs) ((name, v) :: fields) rest := by
  obtain ⟨_, hvalue⟩ := exists_of_map_val h
  unfold ReadsFields
  rw [readFields]
  split
  case h_1 heq => cases heq.symm.trans hname
  cases ‹readText _ _ = _›.symm.trans hname
  split
  case h_2 hcolon => exact absurd rfl (hcolon afterName)
  case h_1 afterColon heq =>
    obtain rfl : afterName = afterColon := (List.cons.inj heq).2
    rw [hvalue]
    dsimp only [bind, Except.bind]
    obtain ⟨hend, rfl⟩ | ⟨next, hcomma, hfields⟩ := hafter
    · split
      case h_1 heq =>
        cases heq.symm.trans hend
        rfl
      case h_2 heq => cases heq.symm.trans hend
      case h_3 hbrace _ => exact absurd hend (hbrace rest)
    · obtain ⟨_, hfields⟩ := exists_of_map_val hfields
      split
      case h_1 heq => cases heq.symm.trans hcomma
      case h_2 heq =>
        cases heq.symm.trans hcomma
        rw [hfields]
        rfl
      case h_3 _ hnone => exact absurd hcomma (hnone next)

end Steps

end JsonReader

/-! ## Values that are read back -/

/-- No doubles, and every name once in an object: the text of such a value says which one it is. -/
inductive Value.IsExact : Value → Prop where
  | null : IsExact .null
  | bool (b : Bool) : IsExact (.bool b)
  | int (n : Int) : IsExact (.int n)
  | text (s : String) : IsExact (.text s)
  | list {items : List Value} (hitems : ∀ v ∈ items, IsExact v) : IsExact (.list items)
  | object {fields : Fields} (hnames : (fields.map Prod.fst).Nodup)
      (hfields : ∀ field ∈ fields, IsExact field.2) : IsExact (.object fields)

theorem insertField_of_not_mem {α : Type} {name : String} {v : α} {fields : List (String × α)}
    (h : name ∉ fields.map Prod.fst) : insertField name v fields = fields ++ [(name, v)] := by
  induction fields with
  | nil => rfl
  | cons field fields ih =>
    obtain ⟨key, old⟩ := field
    rw [List.map_cons, List.mem_cons, not_or] at h
    rw [insertField, if_neg (Ne.symm h.1), ih h.2, List.cons_append]

/-- Fields with every name once stay as they are. -/
theorem mergeFields_of_nodup {α : Type} {fields : List (String × α)}
    (h : (fields.map Prod.fst).Nodup) : mergeFields fields = fields := by
  induction fields using List.reverseRecOn with
  | nil => rfl
  | append_singleton fields field ih =>
    rw [List.map_append, List.nodup_append'] at h
    have hnew : field.1 ∉ fields.map Prod.fst := fun hmem => h.2.2 hmem (.head _)
    have hmerged : mergeFields (fields ++ [field]) =
        insertField field.1 field.2 (mergeFields fields) := by
      rw [mergeFields, List.foldl_append]
      rfl
    rw [hmerged, ih h.1, insertField_of_not_mem hnew]

namespace Value

/-- A written value begins with a character that is neither a blank nor a closing bracket. -/
theorem IsExact.exists_chars_eq {v : Value} (h : v.IsExact) :
    ∃ c cs, v.chars = c :: cs ∧ JsonReader.isSpace c = false ∧ c ≠ ']' := by
  cases h with
  | null => exact ⟨_, _, rfl, by decide⟩
  | bool b => cases b <;> exact ⟨_, _, rfl, by decide⟩
  | int n =>
    obtain ⟨c, cs, hchars, hspace, hplain⟩ := JsonReader.exists_intText_eq n
    exact ⟨c, cs, hchars, hspace, by rintro rfl; exact hplain (by decide)⟩
  | text s => exact ⟨_, _, rfl, by decide⟩
  | @list items => cases items <;> exact ⟨_, _, rfl, by decide⟩
  | @object fields => cases fields <;> exact ⟨_, _, rfl, by decide⟩

end Value

namespace JsonReader

variable {rest : List Char} {v : Value} {name : String}

theorem skipSpace_chars (h : v.IsExact) (rest : List Char) :
    skipSpace (v.chars ++ rest) = v.chars ++ rest := by
  obtain ⟨c, cs, hchars, hspace, -⟩ := h.exists_chars_eq
  rw [hchars, List.cons_append, skipSpace, List.dropWhile_cons_of_neg (by simp [hspace])]

theorem jsonText_append (s : String) (rest : List Char) :
    jsonText s ++ rest = '"' :: (s.toList.flatMap jsonChar ++ '"' :: rest) := by
  simp [jsonText]

theorem followsValue_itemChars (items : List Value) (rest : List Char) :
    FollowsValue (Value.chars.itemChars items ++ rest) := by
  intro c hc
  cases items <;> cases hc <;> decide

theorem followsValue_fieldChars (fields : Fields) (rest : List Char) :
    FollowsValue (Value.chars.fieldChars fields ++ rest) := by
  intro c hc
  cases fields <;> cases hc <;> decide

theorem Reads.intText {n : Int} (hfits : (Value.int n).fits = true) (hrest : FollowsValue rest) :
    Reads ((intText n).toList ++ rest) (.int n) rest := by
  obtain ⟨c, cs, hchars, -, hplain⟩ := exists_intText_eq n
  have hread := readScalar_intText n hfits hrest
  rw [hchars] at hread ⊢
  exact .scalar (by simp_all) hread

/-- The value is read back wherever it is written. -/
def IsReadBack (v : Value) : Prop :=
  ∀ rest, FollowsValue rest → Reads (v.chars ++ rest) v rest

theorem readsItems_chars {item : Value} {items : List Value}
    (hexact : ∀ v ∈ item :: items, v.IsExact) (hback : ∀ v ∈ item :: items, IsReadBack v) :
    ReadsItems (item.chars ++ (Value.chars.itemChars items ++ rest)) (item :: items) rest := by
  induction items generalizing item with
  | nil => exact .cons (hback item (.head _) _ (followsValue_itemChars [] rest)) (.inl ⟨rfl, rfl⟩)
  | cons next items ih =>
    have hitem := hback item (.head _) _ (followsValue_itemChars (next :: items) rest)
    have hnext := ih (fun v hv => hexact v (.tail _ hv)) fun v hv => hback v (.tail _ hv)
    refine .cons hitem (.inr ⟨_, rfl, ?_⟩)
    show ReadsItems (skipSpace (next.chars ++ Value.chars.itemChars items ++ rest)) _ _
    rwa [List.append_assoc, skipSpace_chars (hexact next (.tail _ (.head _)))]

theorem readsFields_chars {fields : Fields}
    (hexact : ∀ field ∈ (name, v) :: fields, field.2.IsExact)
    (hback : ∀ field ∈ (name, v) :: fields, IsReadBack field.2) :
    ReadsFields
      (jsonText name ++ ':' :: ' ' :: (v.chars ++ (Value.chars.fieldChars fields ++ rest)))
      ((name, v) :: fields) rest := by
  induction fields generalizing name v with
  | nil =>
    have hvalue := hback (name, v) (.head _) _ (followsValue_fieldChars [] rest)
    rw [← skipSpace_chars (hexact (name, v) (.head _))] at hvalue
    rw [jsonText_append]
    exact .cons (readText_jsonText name _) hvalue (.inl ⟨rfl, rfl⟩)
  | cons next fields ih =>
    obtain ⟨nextName, next⟩ := next
    have hvalue := hback (name, v) (.head _) _
      (followsValue_fieldChars ((nextName, next) :: fields) rest)
    have hnext := ih (fun field hf => hexact field (.tail _ hf))
      fun field hf => hback field (.tail _ hf)
    rw [← skipSpace_chars (hexact (name, v) (.head _))] at hvalue
    rw [jsonText_append]
    refine .cons (readText_jsonText name _) hvalue (.inr ⟨_, rfl, ?_⟩)
    show ReadsFields (jsonText nextName ++ ':' :: ' ' :: next.chars ++
      Value.chars.fieldChars fields ++ rest) _ _
    simpa only [List.append_assoc, List.cons_append] using hnext

/-- A written list is read back when its items are. -/
theorem isReadBack_list {items : List Value} (hexact : ∀ v ∈ items, v.IsExact)
    (hback : ∀ v ∈ items, IsReadBack v) : IsReadBack (.list items) := by
  intro rest _
  cases items with
  | nil => exact .emptyList
  | cons item items =>
    have hskip := skipSpace_chars (hexact item (.head _)) (Value.chars.itemChars items ++ rest)
    obtain ⟨c, cs, hchars, -, hclose⟩ := (hexact item (.head _)).exists_chars_eq
    show Reads ('[' :: (item.chars ++ Value.chars.itemChars items ++ rest)) _ _
    rw [List.append_assoc]
    refine .list ?_ ?_
    · rw [hskip, hchars]
      simpa using hclose
    · rw [hskip]
      exact readsItems_chars hexact hback

/-- A written object is read back when the values of its fields are. -/
theorem isReadBack_object {fields : Fields} (hnames : (fields.map Prod.fst).Nodup)
    (hexact : ∀ field ∈ fields, field.2.IsExact) (hback : ∀ field ∈ fields, IsReadBack field.2) :
    IsReadBack (.object fields) := by
  intro rest _
  cases fields with
  | nil => exact .emptyObject
  | cons field fields =>
    obtain ⟨name, v⟩ := field
    have hobject : Reads ('\x7b' :: jsonText name ++ ':' :: ' ' ::
        (v.chars ++ (Value.chars.fieldChars fields ++ rest))) _ rest :=
      .object (fun h => absurd (Option.some.inj h) (by decide)) (readsFields_chars hexact hback)
    rw [mergeFields_of_nodup hnames] at hobject
    show Reads ('\x7b' :: jsonText name ++ ':' :: ' ' :: v.chars ++
      Value.chars.fieldChars fields ++ rest) _ _
    simpa only [List.append_assoc, List.cons_append] using hobject

/-- A written value is read back. -/
theorem isReadBack_of_isExact (h : v.IsExact) (hfits : v.fits = true) : IsReadBack v := by
  induction h with
  | null => exact fun rest _ => .scalar (by decide) rfl
  | bool b => exact fun rest _ => by cases b <;> exact .scalar (by decide) rfl
  | int n => exact fun rest hrest => .intText hfits hrest
  | text s =>
    intro rest _
    show Reads (jsonText s ++ rest) _ _
    rw [jsonText_append]
    exact .text (readText_jsonText s rest)
  | list hitems ih =>
    rw [Value.fits_list, List.all_eq_true] at hfits
    exact isReadBack_list hitems fun v hv => ih v hv (hfits v hv)
  | object hnames hfields ih =>
    rw [Value.fits_object, List.all_eq_true] at hfits
    exact isReadBack_object hnames hfields fun field hf => ih field hf (hfits field hf)

end JsonReader

namespace Value

theorem read_of_reads {s : String} {v : Value}
    (h : JsonReader.Reads (JsonReader.skipSpace s.toList) v []) : read s = .ok v := by
  obtain ⟨_, hread⟩ := JsonReader.exists_of_map_val h
  rw [read, hread]
  rfl

/-- A written value is read back from its whole text. -/
theorem read_written {v : Value} (h : v.IsExact) (hfits : v.fits = true) :
    read v.written = .ok v := by
  have hreads := JsonReader.isReadBack_of_isExact h hfits [] (by simp [JsonReader.FollowsValue])
  apply read_of_reads
  rwa [written, String.toList_ofList, ← List.append_nil v.chars, JsonReader.skipSpace_chars h]

end Value

/-! ## The characters of a text -/

/-- The character is a printable one of ASCII, and so no line break. -/
def isPlainChar (c : Char) : Bool := 0x20 ≤ c.toNat && c.toNat ≤ 0x7E

theorem isPlainChar_of_isDigit {c : Char} (h : c.isDigit = true) : isPlainChar c = true := by
  obtain ⟨hzero, hnine⟩ := Char.isDigit_iff_toNat.1 h
  have hleast : 0x20 ≤ c.toNat := Nat.le_trans (by decide) hzero
  have hmost : c.toNat ≤ 0x7E := Nat.le_trans hnine (by decide)
  simp [isPlainChar, hleast, hmost]

theorem all_unitEscape {unit : Nat} (h : unit < 0x10000) :
    (unitEscape unit).all isPlainChar = true := by
  have hdigit : ∀ d < 16, isPlainChar (Nat.digitChar d) = true := by decide
  rw [unitEscape, hexText_four h]
  simp only [List.all_cons, List.all_nil, Bool.and_true, Bool.and_eq_true]
  exact ⟨rfl, rfl, hdigit _ (by omega), hdigit _ (by omega), hdigit _ (by omega),
    hdigit _ (by omega)⟩

theorem all_jsonChar (c : Char) : (jsonChar c).all isPlainChar = true := by
  have hbound := JsonReader.isValid_toNat c
  fun_cases jsonChar c
  case case8 h => simpa [isPlainChar] using h
  case case9 h => exact all_unitEscape (by omega)
  case case10 h _ =>
    rw [List.all_append, all_unitEscape (by omega), all_unitEscape (by omega)]
    rfl
  all_goals rfl

theorem all_jsonText (s : String) : (jsonText s).all isPlainChar = true := by
  have hchars : (s.toList.flatMap jsonChar).all isPlainChar = true := by
    rw [List.all_flatMap, List.all_eq_true]
    exact fun c _ => all_jsonChar c
  rw [jsonText, List.cons_append, List.all_cons, List.all_append, hchars]
  rfl

theorem all_intText (n : Int) : (intText n).toList.all isPlainChar = true := by
  have hdigits : (Nat.toDigits 10 n.natAbs).all isPlainChar = true :=
    List.all_eq_true.2 fun c hc => isPlainChar_of_isDigit (isDigit_of_mem_toDigits c hc)
  by_cases hn : n < 0
  · simp only [intText, if_pos hn, String.toList_append, List.all_append, String.toList_ofList,
      hdigits]
    rfl
  · rw [intText, if_neg hn, String.toList_ofList, hdigits]

namespace Value

theorem all_itemChars {items : List Value}
    (h : ∀ v ∈ items, v.chars.all isPlainChar = true) :
    (chars.itemChars items).all isPlainChar = true := by
  induction items with
  | nil => rfl
  | cons item items ih =>
    obtain ⟨hitem, hitems⟩ := List.forall_mem_cons.1 h
    simp only [chars.itemChars, List.cons_append, List.all_cons, List.all_append, hitem, ih hitems]
    rfl

theorem all_fieldChars {fields : Fields}
    (h : ∀ field ∈ fields, field.2.chars.all isPlainChar = true) :
    (chars.fieldChars fields).all isPlainChar = true := by
  induction fields with
  | nil => rfl
  | cons field fields ih =>
    obtain ⟨hfield, hfields⟩ := List.forall_mem_cons.1 h
    simp only [chars.fieldChars, List.cons_append, List.all_cons, List.all_append, all_jsonText,
      hfield, ih hfields]
    rfl

/-- A value is written in printable characters of ASCII. -/
theorem IsExact.all_chars {v : Value} (h : v.IsExact) : v.chars.all isPlainChar = true := by
  induction h with
  | null => rfl
  | bool b => cases b <;> rfl
  | int n => exact all_intText n
  | text s => exact all_jsonText s
  | @list items _ ih =>
    cases items with
    | nil => rfl
    | cons item items =>
      obtain ⟨hitem, hitems⟩ := List.forall_mem_cons.1 ih
      simp only [chars, List.cons_append, List.all_cons, List.all_append, hitem,
        all_itemChars hitems]
      rfl
  | @object fields _ _ ih =>
    cases fields with
    | nil => rfl
    | cons field fields =>
      obtain ⟨hfield, hfields⟩ := List.forall_mem_cons.1 ih
      simp only [chars, List.cons_append, List.all_cons, List.all_append, all_jsonText, hfield,
        all_fieldChars hfields]
      rfl

end Value

end Storefront
