import Mathlib.Tactic.IntervalCases
import Storefront.Number.Reading
import Storefront.Number.Written
import Storefront.Proofs.ShortestDecimals

/-!
# Numbers as they are written

A finite double is written as its shortest decimal, in one of several forms. Whatever the form, the
reader of exact decimals finds that decimal in the text.

* `IsDecimalText`: a text in which readers find a decimal with a given value
* `Magnitude.isDecimalText_written`: a magnitude is written so
* `Decimal.value`, `Binary64.writtenValue`: the value of a decimal, and of the text of a double
* `Binary64.writtenValue_signed`: the text has the value of the shortest decimal
-/

namespace Storefront

/-! ## Digits -/

section Digits

variable {digits rest : List Char}

theorem ofDigits_map_toNat (cs : List Char) :
    ofDigits (cs.map fun c => c.toNat - '0'.toNat) = Nat.ofDigitChars 10 cs 0 := by
  rw [ofDigits, Nat.ofDigitChars_eq_foldl, List.foldl_map]

theorem takeDigits_append (hdigits : ∀ c ∈ digits, c.isDigit = true)
    (hrest : ∀ c ∈ rest.head?, c.isDigit = false) :
    takeDigits (digits ++ rest) = (digits.map fun c => c.toNat - '0'.toNat, rest) := by
  have hnone : rest.takeWhile Char.isDigit = [] := by
    cases rest with
    | nil => rfl
    | cons c rest => exact List.takeWhile_cons_of_neg (by simp [hrest c rfl])
  rw [takeDigits, List.takeWhile_append_of_pos hdigits, List.dropWhile_append_of_pos hdigits, hnone,
    List.append_nil, dropWhile_eq_self hrest]

theorem takeSign_of_isDigit {cs : List Char} (h : ∀ c ∈ cs.head?, c.isDigit = true) :
    takeSign cs = (false, cs) := by
  unfold takeSign
  split
  · exact absurd (h '-' rfl) (by decide)
  · exact absurd (h '+' rfl) (by decide)
  · rfl

theorem isDigit_of_mem_toDigits {n : Nat} : ∀ c ∈ Nat.toDigits 10 n, c.isDigit = true :=
  fun _ hc => Nat.isDigit_of_mem_toDigits (by decide) (by decide) hc

/-- Digits are what is kept of them with zeros after that. -/
theorem dropTrailingZeros_append (digits : List Char) :
    (dropTrailingZeros digits).1 ++ List.replicate (dropTrailingZeros digits).2 '0' = digits := by
  unfold dropTrailingZeros
  dsimp only
  have hsplit := List.takeWhile_append_dropWhile (p := (· == '0')) (l := digits.reverse)
  have hzeros : digits.reverse.takeWhile (· == '0') =
      List.replicate (digits.reverse.takeWhile (· == '0')).length '0' :=
    List.eq_replicate_of_mem fun c hc => by
      simpa using List.all_eq_true.1 List.all_takeWhile c hc
  have hlength := congrArg List.length hsplit
  rw [List.length_append, List.length_reverse] at hlength
  rw [List.length_reverse, ← hlength, Nat.add_sub_cancel, ← List.reverse_inj, List.reverse_append,
    List.reverse_reverse, List.reverse_replicate, ← hzeros, hsplit]

end Digits

/-! ## Exponents -/

/-- The characters that numbers are written with. -/
def isNumberChar (c : Char) : Bool := c.isDigit || c == '.' || c == 'e' || c == '+' || c == '-'

theorem isNumberChar_of_isDigit {cs : List Char} (h : ∀ c ∈ cs, c.isDigit = true) :
    ∀ c ∈ cs, isNumberChar c = true := by
  intro c hc
  rw [isNumberChar, h c hc]
  rfl

/-- The exponent part of a number is its sign and the digits that write its amount. -/
theorem exists_exponentText_eq (exponent : Int) : ∃ padded,
    exponentText exponent = 'e' :: (if exponent < 0 then '-' else '+') :: padded ∧
      (∀ c ∈ padded, c.isDigit = true) ∧ padded ≠ [] ∧
        Nat.ofDigitChars 10 padded 0 = exponent.natAbs := by
  unfold exponentText
  refine ⟨_, rfl, ?_, ?_, ?_⟩
  all_goals split
  · exact List.forall_mem_cons.2 ⟨by decide, isDigit_of_mem_toDigits⟩
  · exact isDigit_of_mem_toDigits
  · exact List.cons_ne_nil _ _
  · exact Nat.toDigits_ne_nil
  · rw [Nat.ofDigitChars_cons]
    exact Nat.ofDigitChars_ten_toDigits
  · exact Nat.ofDigitChars_ten_toDigits

/-- The exponent part of a number is read for the exponent. -/
theorem takeExponent_exponentText (exponent : Int) :
    takeExponent (exponentText exponent) = (exponent, []) := by
  obtain ⟨padded, htext, hdigits, hne, hvalue⟩ := exists_exponentText_eq exponent
  have htake : takeDigits (padded ++ []) = (padded.map fun c => c.toNat - '0'.toNat, []) :=
    takeDigits_append hdigits (by simp)
  rw [List.append_nil] at htake
  have hsign : takeSign ((if exponent < 0 then '-' else '+') :: padded) =
      (decide (exponent < 0), padded) := by
    by_cases hneg : exponent < 0
    · rw [if_pos hneg, decide_eq_true hneg]
      rfl
    · rw [if_neg hneg, decide_eq_false hneg]
      rfl
  rw [htext, takeExponent]
  simp only [BEq.rfl, Bool.true_or, if_true, hsign, htake]
  have hmap : padded.map (fun c => c.toNat - '0'.toNat) ≠ [] := by simpa using hne
  have hnat := ofDigits_map_toNat padded
  generalize padded.map (fun c => c.toNat - '0'.toNat) = values at *
  cases values with
  | nil => exact absurd rfl hmap
  | cons value values =>
    dsimp only
    rw [hnat, hvalue]
    simp only [decide_eq_true_eq, Prod.mk.injEq, and_true]
    split <;> omega

/-- What stands after the digits of a number: nothing, or the exponent part. -/
inductive IsExponentPart : List Char → Int → Prop
  | absent : IsExponentPart [] 0
  | present (exponent : Int) : IsExponentPart (exponentText exponent) exponent

namespace IsExponentPart

variable {rest : List Char} {exponent : Int} (h : IsExponentPart rest exponent)

include h

theorem takeExponent_eq : takeExponent rest = (exponent, []) := by
  cases h with
  | absent => rfl
  | present => exact takeExponent_exponentText exponent

theorem eq_of_mem_head? : ∀ c ∈ rest.head?, c = 'e' := by
  cases h with
  | absent => exact fun c hc => nomatch hc
  | present => exact fun c hc => (Option.some.inj hc).symm

theorem isNumberChar_of_mem : ∀ c ∈ rest, isNumberChar c = true := by
  cases h with
  | absent => exact fun c hc => nomatch hc
  | present =>
    obtain ⟨padded, htext, hdigits, -⟩ := exists_exponentText_eq exponent
    rw [htext]
    refine List.forall_mem_cons.2
      ⟨rfl, List.forall_mem_cons.2 ⟨?_, isNumberChar_of_isDigit hdigits⟩⟩
    split <;> rfl

end IsExponentPart

/-! ## Decimals -/

/-- A text of characters of numbers that starts with a digit, in which readers find a decimal with a
given value. -/
structure IsDecimalText (cs : List Char) (value : ℚ) : Prop where
  isNumberChar_of_mem : ∀ c ∈ cs, isNumberChar c = true
  isDigit_of_mem_head? : ∃ c ∈ cs.head?, c.isDigit = true
  reads : ∃ coefficient exponent, takeDecimal? cs = some (coefficient, exponent, []) ∧
    (coefficient : ℚ) * 10 ^ exponent = value

section Decimals

variable {whole part rest : List Char} {exponent : Int}

/-- Digits with a point among them are read for the number that all of them write. -/
theorem isDecimalText_point (hwhole : ∀ c ∈ whole, c.isDigit = true) (hne : whole ≠ [])
    (hpart : ∀ c ∈ part, c.isDigit = true) (hrest : IsExponentPart rest exponent) :
    IsDecimalText (whole ++ '.' :: (part ++ rest))
      (Nat.ofDigitChars 10 (whole ++ part) 0 * 10 ^ (exponent - part.length)) where
  isNumberChar_of_mem := by
    refine List.forall_mem_append.2
      ⟨isNumberChar_of_isDigit hwhole, List.forall_mem_cons.2 ⟨rfl, ?_⟩⟩
    exact List.forall_mem_append.2 ⟨isNumberChar_of_isDigit hpart, hrest.isNumberChar_of_mem⟩
  isDigit_of_mem_head? := by
    cases whole with
    | nil => exact absurd rfl hne
    | cons c whole => exact ⟨c, rfl, hwhole c List.mem_cons_self⟩
  reads := by
    refine ⟨_, _, ?_, rfl⟩
    have hhead : ∀ c ∈ rest.head?, c.isDigit = false := fun c hc =>
      hrest.eq_of_mem_head? c hc ▸ rfl
    have hpoint : ∀ c ∈ ('.' :: (part ++ rest)).head?, c.isDigit = false := fun c hc =>
      Option.some.inj hc ▸ rfl
    have hempty : (whole.map fun c => c.toNat - '0'.toNat).isEmpty = false := by simpa using hne
    unfold takeDecimal?
    rw [takeDigits_append hwhole hpoint]
    simp only [takeDigits_append hpart hhead]
    rw [hempty, hrest.takeExponent_eq, ← List.map_append, ofDigits_map_toNat, List.length_map]
    rfl

/-- Digits without a point are read for the number that they write. -/
theorem isDecimalText_whole (hwhole : ∀ c ∈ whole, c.isDigit = true) (hne : whole ≠ [])
    (hrest : IsExponentPart rest exponent) :
    IsDecimalText (whole ++ rest) (Nat.ofDigitChars 10 whole 0 * 10 ^ exponent) where
  isNumberChar_of_mem :=
    List.forall_mem_append.2 ⟨isNumberChar_of_isDigit hwhole, hrest.isNumberChar_of_mem⟩
  isDigit_of_mem_head? := by
    cases whole with
    | nil => exact absurd rfl hne
    | cons c whole => exact ⟨c, rfl, hwhole c List.mem_cons_self⟩
  reads := by
    refine ⟨_, _, ?_, rfl⟩
    have hhead : ∀ c ∈ rest.head?, c.isDigit = false := fun c hc =>
      hrest.eq_of_mem_head? c hc ▸ rfl
    have hempty : (whole.map fun c => c.toNat - '0'.toNat).isEmpty = false := by simpa using hne
    unfold takeDecimal?
    rw [takeDigits_append hwhole hhead]
    dsimp only
    rw [hempty, Bool.false_and, if_neg Bool.false_ne_true]
    split
    · exact absurd (hrest.eq_of_mem_head? '.' rfl) (by decide)
    · rw [hrest.takeExponent_eq, List.append_nil, ofDigits_map_toNat, List.length_nil,
        Int.natCast_zero, Int.sub_zero]

theorem isDigit_of_mem_zeros (count : Nat) : ∀ c ∈ List.replicate count '0', c.isDigit = true :=
  fun _ hc => (List.eq_of_mem_replicate hc).symm ▸ rfl

variable {digits : List Char} (hdigits : ∀ c ∈ digits, c.isDigit = true) (point : Int)

include hdigits

variable {point} in
theorem isDecimalText_point_before (hpoint : point ≤ 0) :
    IsDecimalText ('0' :: '.' :: List.replicate (-point).toNat '0' ++ digits)
      (Nat.ofDigitChars 10 digits 0 * 10 ^ (point - digits.length)) := by
  have hpart : ∀ c ∈ List.replicate (-point).toNat '0' ++ digits, c.isDigit = true :=
    List.forall_mem_append.2 ⟨isDigit_of_mem_zeros _, hdigits⟩
  have htext :=
    isDecimalText_point (isDigit_of_mem_zeros 1) (List.cons_ne_nil _ _) hpart .absent
  have hvalue : Nat.ofDigitChars 10 (['0'] ++ (List.replicate (-point).toNat '0' ++ digits)) 0 =
      Nat.ofDigitChars 10 digits 0 := by
    rw [Nat.ofDigitChars_append, Nat.ofDigitChars_append, Nat.ofDigitChars_replicate_zero]
    rfl
  have hexponent : (0 : Int) - (List.replicate (-point).toNat '0' ++ digits).length =
      point - digits.length := by
    rw [List.length_append, List.length_replicate]
    omega
  rw [List.append_nil, List.replicate_one, hvalue, hexponent] at htext
  exact htext

variable {point} in
theorem isDecimalText_point_after (hpoint : 0 < point) (hlength : (digits.length : Int) ≤ point) :
    IsDecimalText (digits ++ List.replicate (point.toNat - digits.length) '0' ++ ['.', '0'])
      (Nat.ofDigitChars 10 digits 0 * 10 ^ (point - digits.length)) := by
  have hwhole : ∀ c ∈ digits ++ List.replicate (point.toNat - digits.length) '0',
      c.isDigit = true := List.forall_mem_append.2 ⟨hdigits, isDigit_of_mem_zeros _⟩
  have hne : digits ++ List.replicate (point.toNat - digits.length) '0' ≠ [] := by
    rw [← List.length_pos_iff, List.length_append, List.length_replicate]
    omega
  have htext := isDecimalText_point hwhole hne (isDigit_of_mem_zeros 1) .absent
  have hvalue : Nat.ofDigitChars 10
      (digits ++ List.replicate (point.toNat - digits.length) '0' ++ List.replicate 1 '0') 0 =
        Nat.ofDigitChars 10 digits 0 * 10 ^ (point.toNat - digits.length + 1) := by
    rw [Nat.ofDigitChars_append, Nat.ofDigitChars_append, Nat.ofDigitChars_replicate_zero,
      Nat.ofDigitChars_replicate_zero, ← Nat.mul_assoc, ← Nat.pow_add, Nat.mul_comm, Nat.add_comm]
  -- the zero after the point is read as a digit too, and its place takes the factor back
  have hexponent : ((point.toNat - digits.length + 1 : Nat) : Int) +
      (0 - (List.replicate 1 '0').length) = point - digits.length := by
    rw [List.length_replicate]
    omega
  rw [hvalue, Nat.cast_mul, Nat.cast_pow, Nat.cast_ofNat, mul_assoc, ← zpow_natCast,
    ← zpow_add₀ (by norm_num), hexponent, List.append_nil] at htext
  exact htext

variable {point} in
theorem isDecimalText_point_among (hpoint : 0 < point) (hlength : point < digits.length) :
    IsDecimalText (digits.take point.toNat ++ '.' :: digits.drop point.toNat)
      (Nat.ofDigitChars 10 digits 0 * 10 ^ (point - digits.length)) := by
  have hne : digits.take point.toNat ≠ [] := by
    rw [← List.length_pos_iff, List.length_take]
    omega
  have hwhole : ∀ c ∈ digits.take point.toNat, c.isDigit = true := fun c hc =>
    hdigits c (List.mem_of_mem_take hc)
  have hpart : ∀ c ∈ digits.drop point.toNat, c.isDigit = true := fun c hc =>
    hdigits c (List.mem_of_mem_drop hc)
  have htext := isDecimalText_point hwhole hne hpart .absent
  have hexponent : (0 : Int) - (digits.drop point.toNat).length = point - digits.length := by
    rw [List.length_drop]
    omega
  rw [List.append_nil, List.take_append_drop, hexponent] at htext
  exact htext

/-- Digits with the point at a place are read for them at that place. -/
theorem isDecimalText_positional : IsDecimalText (positionalText digits point)
    (Nat.ofDigitChars 10 digits 0 * 10 ^ (point - digits.length)) := by
  unfold positionalText
  split
  · rename_i hpoint
    exact isDecimalText_point_before hdigits hpoint
  · rename_i hpoint
    split
    · rename_i hlength
      exact isDecimalText_point_after hdigits (not_le.1 hpoint) hlength
    · rename_i hlength
      exact isDecimalText_point_among hdigits (not_le.1 hpoint) (not_le.1 hlength)

/-- Digits in exponent form are read for them with the point at its place. -/
theorem isDecimalText_scientific : IsDecimalText (scientificText digits point)
    (Nat.ofDigitChars 10 digits 0 * 10 ^ (point - digits.length)) := by
  unfold scientificText
  cases digits with
  | nil =>
    have hzero : ∀ c ∈ ['0'], c.isDigit = true := List.forall_mem_singleton.2 rfl
    have htext := isDecimalText_whole hzero (List.cons_ne_nil _ _) (.present (point - 1))
    have hvalue : Nat.ofDigitChars 10 ['0'] 0 = Nat.ofDigitChars 10 [] 0 := rfl
    rw [hvalue, Nat.ofDigitChars_nil, Nat.cast_zero, zero_mul] at htext
    rwa [Nat.ofDigitChars_nil, Nat.cast_zero, zero_mul]
  | cons d rest =>
    obtain ⟨hd, hrest⟩ := List.forall_mem_cons.1 hdigits
    cases rest with
    | nil => exact isDecimalText_whole hdigits (List.cons_ne_nil _ _) (.present (point - 1))
    | cons d' rest =>
      have hwhole : ∀ c ∈ [d], c.isDigit = true := List.forall_mem_singleton.2 hd
      have htext := isDecimalText_point hwhole (List.cons_ne_nil _ _) hrest (.present (point - 1))
      have hexponent : point - 1 - ((d' :: rest).length : Int) =
          point - ((d :: d' :: rest).length : Int) := by
        rw [List.length_cons (a := d)]
        omega
      rw [hexponent] at htext
      exact htext

end Decimals

/-- A magnitude is written so that its shortest decimal is read. -/
theorem Magnitude.isDecimalText_written (m : Magnitude) :
    IsDecimalText m.written (m.shortest.1 * 10 ^ m.shortest.2) := by
  unfold written
  by_cases hzero : m.index = 0
  · have hdigit : ∀ c ∈ ['0'], c.isDigit = true := List.forall_mem_singleton.2 rfl
    have htext := isDecimalText_point hdigit (List.cons_ne_nil _ _) hdigit .absent
    have hvalue : Nat.ofDigitChars 10 (['0'] ++ ['0']) 0 = 0 := rfl
    rw [hvalue, Nat.cast_zero, zero_mul] at htext
    rw [shortest, if_pos hzero, if_pos hzero, Nat.cast_zero, zero_mul]
    exact htext
  · rw [if_neg hzero]
    obtain ⟨coefficient, exponent⟩ := m.shortest
    have hsplit := dropTrailingZeros_append (Nat.toDigits 10 coefficient)
    dsimp only
    generalize dropTrailingZeros (Nat.toDigits 10 coefficient) = kept at *
    obtain ⟨digits, dropped⟩ := kept
    dsimp only at hsplit ⊢
    have hdigits : ∀ c ∈ digits, c.isDigit = true := fun c hc =>
      isDigit_of_mem_toDigits c (hsplit ▸ List.mem_append_left _ hc)
    have hvalue : (Nat.ofDigitChars 10 digits 0 : ℚ) *
        10 ^ (digits.length + exponent + dropped - digits.length) =
          coefficient * 10 ^ exponent := by
      have hcoefficient : coefficient = 10 ^ dropped * Nat.ofDigitChars 10 digits 0 := by
        rw [← Nat.ofDigitChars_replicate_zero, ← Nat.ofDigitChars_append, hsplit,
          Nat.ofDigitChars_ten_toDigits]
      have hexponent : digits.length + exponent + dropped - digits.length = dropped + exponent := by
        omega
      rw [hcoefficient, hexponent, zpow_add₀ (by norm_num), zpow_natCast, Nat.cast_mul,
        Nat.cast_pow, Nat.cast_ofNat, mul_left_comm, mul_assoc]
    split
    · exact hvalue ▸ isDecimalText_positional hdigits _
    · exact hvalue ▸ isDecimalText_scientific hdigits _

/-! ## Readers -/

/-- Characters of numbers are no blanks, no underscores and no capitals, and digits among them stand
for themselves. -/
theorem plain_of_isNumberChar {c : Char} (h : isNumberChar c = true) :
    isBlank c = false ∧ c ≠ '_' ∧ c.toLower = c ∧
      (match decimalDigit? c with
        | some d => Nat.digitChar d
        | none => c) = c := by
  unfold isNumberChar at h
  simp only [Bool.or_eq_true, beq_iff_eq] at h
  rcases h with (((hdigit | rfl) | rfl) | rfl) | rfl
  · have hdigit : 48 ≤ c.toNat ∧ c.toNat ≤ 57 := by
      simpa [Char.isDigit, UInt32.le_iff_toNat_le] using hdigit
    obtain ⟨hleast, hmost⟩ := hdigit
    rw [← Char.ofNat_toNat c]
    interval_cases c.toNat <;> decide
  all_goals decide

section Readers

variable {cs : List Char} {value : ℚ} (h : IsDecimalText cs value) (negative : Bool)

include h

theorem isNumberChar_of_mem_signed :
    ∀ c ∈ if negative then '-' :: cs else cs, isNumberChar c = true := by
  cases negative with
  | true => exact List.forall_mem_cons.2 ⟨rfl, h.isNumberChar_of_mem⟩
  | false => exact h.isNumberChar_of_mem

theorem takeSign_signed : takeSign (if negative then '-' :: cs else cs) = (negative, cs) := by
  cases negative with
  | true => rfl
  | false =>
    obtain ⟨c, hc, hdigit⟩ := h.isDigit_of_mem_head?
    refine takeSign_of_isDigit fun c' hc' => ?_
    cases hc.symm.trans hc'
    exact hdigit

/-- The reader of exact decimals finds the decimal, with the sign before it. -/
theorem exists_exactDecimal? : ∃ coefficient exponent,
    exactDecimal? (String.ofList (if negative then '-' :: cs else cs)) =
      some ⟨negative, coefficient, exponent⟩ ∧ (coefficient : ℚ) * 10 ^ exponent = value := by
  obtain ⟨coefficient, exponent, hreads, hvalue⟩ := h.reads
  refine ⟨coefficient, exponent, ?_, hvalue⟩
  have hplain := isNumberChar_of_mem_signed h negative
  have hsign := takeSign_signed h negative
  generalize (if negative then '-' :: cs else cs) = text at *
  have htrim : trimWhile isBlank text = text := by
    refine trimWhile_eq_self (fun c hc => ?_) fun c hc => ?_
    · exact (plain_of_isNumberChar (hplain c (List.mem_of_mem_head? hc))).1
    · exact (plain_of_isNumberChar (hplain c (List.mem_of_mem_getLast? hc))).1
  have hfilter : text.filter (· != '_') = text :=
    List.filter_eq_self.2 fun c hc => bne_iff_ne.2 (plain_of_isNumberChar (hplain c hc)).2.1
  have hmap : (text.map fun c => match decimalDigit? c with
      | some d => Nat.digitChar d
      | none => c) = text :=
    (List.map_congr_left fun c hc =>
      (plain_of_isNumberChar (hplain c hc)).2.2.2).trans (List.map_id' _)
  unfold exactDecimal?
  dsimp only
  rw [String.toList_ofList, htrim, hfilter]
  generalize hread : List.map _ text = read
  obtain rfl : text = read := hmap.symm.trans hread
  rw [hsign]
  dsimp only
  rw [hreads]

end Readers

/-! ## Doubles -/

/-- The exact value of a decimal. -/
def Decimal.value (d : Decimal) : ℚ :=
  (if d.negative then -1 else 1) * (d.coefficient * 10 ^ d.exponent)

namespace Binary64

/-- The exact value of the decimal that a double is written as. -/
def writtenValue (x : Binary64) : ℚ := ((exactDecimal? x.text).map Decimal.value).getD 0

theorem writtenValue_eq {x : Binary64} {d : Decimal} (h : exactDecimal? x.text = some d) :
    x.writtenValue = d.value := by
  rw [writtenValue, h]
  rfl

variable {negative : Bool} {m : Magnitude}

theorem text_signed (hfinite : m.isFinite = true) :
    (signed negative m).text =
      String.ofList (if negative then '-' :: m.written else m.written) := by
  unfold text written
  dsimp only
  rw [if_pos hfinite]
  cases negative with
  | true =>
    rw [if_pos rfl, if_pos rfl]
    show String.ofList ['-'] ++ String.ofList m.written = _
    rw [← String.ofList_append]
    rfl
  | false => rfl

/-- The text of a finite double is a decimal, of the value that its shortest decimal has. -/
theorem exists_exactDecimal?_text (negative : Bool) (hfinite : m.isFinite = true) :
    ∃ coefficient exponent,
    exactDecimal? (signed negative m).text = some ⟨negative, coefficient, exponent⟩ ∧
      (coefficient : ℚ) * 10 ^ exponent = m.shortest.1 * 10 ^ m.shortest.2 := by
  rw [text_signed hfinite]
  exact exists_exactDecimal? m.isDecimalText_written negative

/-- The value of the text of a double is that of its shortest decimal. -/
theorem writtenValue_signed (hfinite : m.isFinite = true) :
    (signed negative m).writtenValue =
      (if negative then -1 else 1) * (m.shortest.1 * 10 ^ m.shortest.2) := by
  obtain ⟨coefficient, exponent, htext, hvalue⟩ :=
    exists_exactDecimal?_text negative hfinite
  rw [writtenValue_eq htext, ← hvalue]
  rfl

end Binary64

end Storefront
