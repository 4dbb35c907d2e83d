import Mathlib.Algebra.Order.Field.Basic
import Mathlib.Data.Nat.Cast.Order.Field
import Mathlib.Data.Rat.Cast.Order
import Mathlib.Tactic.GCongr
import Mathlib.Tactic.Linarith
import Mathlib.Tactic.NormNum
import Mathlib.Tactic.Positivity
import Mathlib.Tactic.Ring
import Storefront.Number.Decimal
import Storefront.Proofs.ExactValues

/-!
# Rounding to the grid of magnitudes

Rounding takes a number of units to the magnitude whose exact value is nearest, where infinity counts
as the value that would follow the greatest finite one. That is all that is needed of it here:
rounding depends on the number alone and not on the fraction that it is written as, is exact where it
can be, and keeps the order of numbers.

* `Magnitude.nearestTo`, `Magnitude.ofRat`: the magnitude nearest to a number of units, or to a number
* `Magnitude.abs_sub_nearestTo_le`: no magnitude is nearer
* `Magnitude.nearestTo_mono`, `Magnitude.nearestTo_units`: order and exactness
* `Magnitude.exists_units_eq`: numbers of at most 53 binary digits are magnitudes
* `Magnitude.unitsAt_le_mul_abs_sub`: how far magnitudes lie apart
* `Magnitude.ofDecimal_eq`: decimals are rounded once
* `Binary64.ofInt_exact`: counts of at most 53 binary digits are doubles
-/

namespace Storefront

/-! ## Quotients -/

theorem roundDiv_mul_left {k : Nat} (hk : 0 < k) (num den : Nat) :
    roundDiv (k * num) (k * den) = roundDiv num den := by
  have hrest : 2 * (k * num % (k * den)) = k * (2 * (num % den)) := by
    rw [Nat.mul_mod_mul_left, Nat.mul_left_comm]
  unfold roundDiv
  dsimp only
  rw [hrest, Nat.mul_div_mul_left num den hk]
  simp only [Nat.mul_lt_mul_left hk]

/-- The rounded quotient is at most half away from the exact one. -/
theorem abs_sub_roundDiv_le (num : Nat) {den : Nat} (h : 0 < den) :
    |(num / den : ℚ) - roundDiv num den| ≤ 1 / 2 := by
  have hbounds : 2 * num ≤ 2 * (roundDiv num den * den) + den ∧
      2 * (roundDiv num den * den) ≤ 2 * num + den := by
    have hnum : num / den * den + num % den = num := Nat.div_add_mod' num den
    have hrest : num % den < den := Nat.mod_lt num h
    have hparity := Nat.mod_two_eq_zero_or_one (num / den)
    unfold roundDiv
    dsimp only
    split
    · omega
    · split
      · rw [Nat.add_mul (num / den)]
        omega
      · rw [Nat.add_mul (num / den)]
        rcases hparity with hparity | hparity <;> rw [hparity] <;> omega
  obtain ⟨hlow, hhigh⟩ := hbounds
  have hden : (0 : ℚ) < den := Nat.cast_pos.2 h
  have hlow : (2 * num : ℚ) ≤ 2 * (roundDiv num den * den) + den := by exact_mod_cast hlow
  have hhigh : (2 * (roundDiv num den * den) : ℚ) ≤ 2 * num + den := by exact_mod_cast hhigh
  rw [abs_le, neg_le_sub_iff_le_add, sub_le_iff_le_add, div_le_iff₀ hden]
  constructor
  · rw [← sub_le_iff_le_add, le_div_iff₀ hden]
    linarith
  · linarith

/-- Nothing on the grid of whole numbers is nearer to a number than what is at most half away. -/
theorem abs_sub_le_of_le_half {x : ℚ} {n : Nat} (h : |x - n| ≤ 1 / 2) (k : Nat) :
    |x - n| ≤ |x - k| := by
  rcases eq_or_ne k n with rfl | hne
  · exact le_rfl
  · have hstep : (1 : ℚ) ≤ |(n : ℚ) - k| := by
      exact_mod_cast Int.one_le_abs (show (n : Int) - k ≠ 0 by omega)
    have htriangle : |(n : ℚ) - k| ≤ |x - n| + |x - k| := by
      rw [abs_sub_comm x n]
      exact abs_sub_le (n : ℚ) x k
    linarith

namespace Magnitude

/-! ## The grid -/

theorem eq_of_index_eq {m n : Magnitude} (h : m.index = n.index) : m = n := by
  cases m
  cases n
  cases h
  rfl

/-- A place on the grid is one in a binade, in which every magnitude but those of the lowest binade
has 53 digits. -/
theorem exists_binade (index : Nat) : ∃ binade digits, index = binade * Nat.pow 2 52 + digits ∧
    digits < 2 * Nat.pow 2 52 ∧ (binade = 0 ∨ Nat.pow 2 52 ≤ digits) := by
  have hsize : Nat.pow 2 52 = 4503599627370496 := rfl
  rw [hsize]
  by_cases hlow : index < 4503599627370496
  · exact ⟨0, index, by omega, by omega, .inl rfl⟩
  · refine ⟨index / 4503599627370496 - 1, 4503599627370496 + index % 4503599627370496, ?_, ?_, ?_⟩
    all_goals omega

/-- A magnitude is a multiple of a power of two, or less than that with 53 digits. -/
theorem unitsAt_multiple_or_lt (index shift : Nat) :
    (∃ k, unitsAt index = k * Nat.pow 2 shift) ∨
      unitsAt index < Nat.pow 2 52 * Nat.pow 2 shift := by
  obtain ⟨binade, digits, rfl, hmost, hleast⟩ := exists_binade index
  rw [unitsAt_binade (Nat.le_of_lt hmost) hleast]
  rcases Nat.lt_or_ge binade shift with hlt | hge
  · have hpower : 2 * Nat.pow 2 binade ≤ Nat.pow 2 shift := by
      have hsucc : Nat.pow 2 (binade + 1) ≤ Nat.pow 2 shift := Nat.pow_le_pow_right Nat.two_pos hlt
      rwa [Nat.mul_comm]
    refine .inr ?_
    calc digits * Nat.pow 2 binade
        < 2 * Nat.pow 2 52 * Nat.pow 2 binade :=
          Nat.mul_lt_mul_of_pos_right hmost (two_pow_pos binade)
      _ = Nat.pow 2 52 * (2 * Nat.pow 2 binade) := by ring
      _ ≤ Nat.pow 2 52 * Nat.pow 2 shift := Nat.mul_le_mul_left _ hpower
  · have hpower : Nat.pow 2 binade = Nat.pow 2 (binade - shift) * Nat.pow 2 shift := by
      have hsum : Nat.pow 2 (binade - shift + shift) = _ := Nat.pow_add 2 (binade - shift) shift
      rwa [Nat.sub_add_cancel hge] at hsum
    exact .inl ⟨digits * Nat.pow 2 (binade - shift), by rw [hpower, Nat.mul_assoc]⟩

/-- The step to a magnitude is at least its 53rd binary digit. -/
theorem unitsAt_succ_le (index : Nat) :
    unitsAt (index + 1) ≤ 2 * Nat.pow 2 52 * (unitsAt (index + 1) - unitsAt index) := by
  obtain ⟨binade, digits, rfl, hmost, hleast⟩ := exists_binade index
  have hnext : unitsAt (binade * Nat.pow 2 52 + digits + 1) = (digits + 1) * Nat.pow 2 binade := by
    rw [Nat.add_assoc]
    exact unitsAt_binade hmost (hleast.imp_right fun h => Nat.le_succ_of_le h)
  have hstep : (digits + 1) * Nat.pow 2 binade - digits * Nat.pow 2 binade = Nat.pow 2 binade := by
    rw [← Nat.sub_mul, Nat.add_sub_cancel_left, Nat.one_mul]
  rw [hnext, unitsAt_binade (Nat.le_of_lt hmost) hleast, hstep]
  exact Nat.mul_le_mul_right _ hmost

/-- Different magnitudes lie apart by at least the 53rd binary digit of each. -/
theorem unitsAt_le_mul_abs_sub {i j : Nat} (h : i ≠ j) :
    (unitsAt i : ℚ) ≤ 2 * 2 ^ 52 * |(unitsAt i : ℚ) - unitsAt j| := by
  have hmono := strictMono_unitsAt.monotone
  have hstep (index : Nat) : (unitsAt (index + 1) : ℚ) ≤
      2 * 2 ^ 52 * (unitsAt (index + 1) - unitsAt index) := by
    have hle := unitsAt_succ_le index
    rw [← Nat.cast_sub (hmono (Nat.le_succ index))]
    exact_mod_cast hle
  rcases Nat.lt_or_gt_of_ne h with hlt | hgt
  · have hfirst : (unitsAt i : ℚ) ≤ unitsAt (i + 1) := Nat.cast_le.2 (hmono (Nat.le_succ i))
    have hlast : (unitsAt (i + 1) : ℚ) ≤ unitsAt j := Nat.cast_le.2 (hmono hlt)
    have hbound := hstep i
    rw [abs_sub_comm, abs_of_nonneg (by linarith)]
    linarith
  · obtain ⟨k, rfl⟩ : ∃ k, i = k + 1 := ⟨i - 1, by omega⟩
    have hlast : (unitsAt j : ℚ) ≤ unitsAt k := Nat.cast_le.2 (hmono (Nat.le_of_lt_succ hgt))
    have hnext : (unitsAt k : ℚ) ≤ unitsAt (k + 1) := Nat.cast_le.2 (hmono (Nat.le_succ k))
    have hbound := hstep k
    rw [abs_of_nonneg (by linarith)]
    linarith

/-! ## Rounding a fraction -/

/-- A fraction is rounded to a whole number of digits in a binade in which it has 53 of them, or in
the lowest one. -/
theorem exists_digits_nearestUnits (num : Nat) {den : Nat} (h : 0 < den) :
    ∃ binade digits, nearestUnits num den = ofIndex (binade * Nat.pow 2 52 + digits) ∧
      digits ≤ 2 * Nat.pow 2 52 ∧
      (binade = 0 ∨ Nat.pow 2 52 ≤ digits ∧
        ((Nat.pow 2 52 * Nat.pow 2 binade : Nat) : ℚ) ≤ num / den) ∧
      |(num / den : ℚ) / (Nat.pow 2 binade : Nat) - digits| ≤ 1 / 2 := by
  have hhalf (shift : Nat) : |(num / den : ℚ) / (Nat.pow 2 shift : Nat) -
      roundDiv num (den * Nat.pow 2 shift)| ≤ 1 / 2 := by
    rw [div_div, ← Nat.cast_mul]
    exact abs_sub_roundDiv_le num (Nat.mul_pos h (two_pow_pos shift))
  have hlow (shift : Nat) : num / den / Nat.pow 2 shift ≤ roundDiv num (den * Nat.pow 2 shift) := by
    rw [Nat.div_div_eq_div_mul]
    exact le_roundDiv _ _
  have hhigh (shift : Nat) :
      roundDiv num (den * Nat.pow 2 shift) ≤ num / den / Nat.pow 2 shift + 1 := by
    rw [Nat.div_div_eq_div_mul]
    exact roundDiv_le _ _
  refine ⟨(num / den).log2 - 52, _, rfl, ?_, ?_, hhalf _⟩
  · rcases Nat.eq_zero_or_pos (num / den) with hzero | hpos
    · have hmost := hhigh ((num / den).log2 - 52)
      rw [hzero, Nat.zero_div] at hmost
      rw [hzero]
      exact Nat.le_trans hmost (by decide)
    · obtain ⟨-, hmost, -⟩ := binade_bounds hpos
      exact Nat.le_trans (hhigh _) hmost
  · rcases Nat.eq_zero_or_pos (num / den) with hzero | hpos
    · rw [hzero]
      exact .inl rfl
    · obtain ⟨-, -, hleast⟩ := binade_bounds hpos
      refine hleast.imp_right fun hleast => ⟨Nat.le_trans hleast (hlow _), ?_⟩
      have hmul : Nat.pow 2 52 * Nat.pow 2 ((num / den).log2 - 52) ≤ num / den :=
        (Nat.le_div_iff_mul_le (two_pow_pos _)).1 hleast
      exact le_trans (Nat.cast_le.2 hmul) Nat.cast_div_le

/-- No magnitude is nearer to a fraction of units than the one it is rounded to. -/
theorem abs_sub_nearestUnits_le (num : Nat) {den : Nat} (h : 0 < den) {index : Nat}
    (hindex : index ≤ finiteMagnitudes) :
    |(num / den : ℚ) - (nearestUnits num den).units| ≤ |(num / den : ℚ) - unitsAt index| := by
  obtain ⟨binade, digits, hrounded, hmost, hleast, hhalf⟩ := exists_digits_nearestUnits num h
  generalize (num / den : ℚ) = x at *
  have hunit : (0 : ℚ) < (Nat.pow 2 binade : Nat) := Nat.cast_pos.2 (two_pow_pos binade)
  have hvalue : unitsAt (binade * Nat.pow 2 52 + digits) = digits * Nat.pow 2 binade :=
    unitsAt_binade hmost (hleast.imp_right And.left)
  -- the digits are nearest among the multiples of the unit of the binade
  have hmultiple (k : Nat) : |x - (digits * Nat.pow 2 binade : Nat)| ≤
      |x - (k * Nat.pow 2 binade : Nat)| := by
    have hscale (n : Nat) : |x - (n * Nat.pow 2 binade : Nat)| =
        |x / (Nat.pow 2 binade : Nat) - n| * (Nat.pow 2 binade : Nat) := by
      rw [← abs_of_pos hunit, ← abs_mul, abs_of_pos hunit, sub_mul, div_mul_cancel₀ _ hunit.ne',
        Nat.cast_mul]
    rw [hscale, hscale]
    exact mul_le_mul_of_nonneg_right (abs_sub_le_of_le_half hhalf k) hunit.le
  -- a magnitude that is no such multiple lies below the binade, and the number does not
  have hnearest (j : Nat) : |x - unitsAt (binade * Nat.pow 2 52 + digits)| ≤ |x - unitsAt j| := by
    rw [hvalue]
    rcases unitsAt_multiple_or_lt j binade with ⟨k, hk⟩ | hlt
    · rw [hk]
      exact hmultiple k
    · rcases hleast with rfl | ⟨-, hle⟩
      · have hk := hmultiple (unitsAt j)
        rwa [show unitsAt j * Nat.pow 2 0 = unitsAt j from Nat.mul_one _] at hk
      · have hlt : (unitsAt j : ℚ) < (Nat.pow 2 52 * Nat.pow 2 binade : Nat) := Nat.cast_lt.2 hlt
        refine le_trans (hmultiple (Nat.pow 2 52)) ?_
        rw [abs_of_nonneg (by linarith), abs_of_nonneg (by linarith)]
        linarith
  rw [units_eq_unitsAt, hrounded]
  unfold ofIndex
  dsimp only
  rcases Nat.le_total (binade * Nat.pow 2 52 + digits) finiteMagnitudes with hle | hge
  · rw [Nat.min_eq_left hle]
    exact hnearest index
  · -- the number lies above infinity, which is nearest to it from below
    rw [Nat.min_eq_right hge]
    have hmono := strictMono_unitsAt.monotone
    have htop : (unitsAt finiteMagnitudes : ℚ) ≤ unitsAt (binade * Nat.pow 2 52 + digits) :=
      Nat.cast_le.2 (hmono hge)
    have hbelow : (unitsAt index : ℚ) ≤ unitsAt finiteMagnitudes := Nat.cast_le.2 (hmono hindex)
    rcases le_or_gt (unitsAt finiteMagnitudes : ℚ) x with hle | hlt
    · rw [abs_of_nonneg (by linarith), abs_of_nonneg (by linarith)]
      linarith
    · have hnear := hnearest finiteMagnitudes
      rw [abs_of_neg (by linarith), abs_of_neg (by linarith)] at hnear
      have hequal : (unitsAt finiteMagnitudes : ℚ) =
          unitsAt (binade * Nat.pow 2 52 + digits) := by
        linarith
      rw [hequal]
      exact hnearest index

/-- The rounded magnitude depends on the fraction alone, not on how it is written. -/
theorem nearestUnits_eq_of_mul_eq {num den num' den' : Nat} (h : 0 < den) (h' : 0 < den')
    (hmul : num * den' = num' * den) : nearestUnits num den = nearestUnits num' den' := by
  have hscale {k : Nat} (hk : 0 < k) (num den : Nat) :
      nearestUnits (k * num) (k * den) = nearestUnits num den := by
    unfold nearestUnits
    dsimp only
    rw [Nat.mul_div_mul_left num den hk, Nat.mul_assoc, roundDiv_mul_left hk]
  rw [← hscale h' num den, ← hscale h num' den', Nat.mul_comm den' num, Nat.mul_comm den num',
    Nat.mul_comm den' den, hmul]

/-! ## Rounding a number -/

/-- The magnitude nearest to a number of units that is not negative. -/
def nearestTo (x : ℚ) : Magnitude := nearestUnits x.num.natAbs x.den

/-- The magnitude nearest to a number that is not negative. -/
def ofRat (x : ℚ) : Magnitude := nearestTo (x * unitsPerOne)

theorem cast_natAbs_num_div_den {x : ℚ} (hx : 0 ≤ x) : (x.num.natAbs / x.den : ℚ) = x := by
  have hnum : ((x.num.natAbs : Int) : ℚ) = x.num := by
    rw [Int.natAbs_of_nonneg (Rat.num_nonneg.2 hx)]
  rw [← Int.cast_natCast, hnum, Rat.num_div_den]

theorem nearestUnits_eq_nearestTo (num : Nat) {den : Nat} (h : 0 < den) :
    nearestUnits num den = nearestTo (num / den) := by
  have hx : (0 : ℚ) ≤ num / den := by positivity
  have hvalue := cast_natAbs_num_div_den hx
  have hden : 0 < (num / den : ℚ).den := Rat.den_pos _
  refine nearestUnits_eq_of_mul_eq h hden ?_
  rw [div_eq_div_iff (Nat.cast_ne_zero.2 hden.ne') (Nat.cast_ne_zero.2 h.ne')] at hvalue
  exact_mod_cast hvalue.symm

/-- No magnitude is nearer to a number of units than the one it is rounded to. -/
theorem abs_sub_nearestTo_le {x : ℚ} (hx : 0 ≤ x) {index : Nat}
    (hindex : index ≤ finiteMagnitudes) :
    |x - (nearestTo x).units| ≤ |x - unitsAt index| := by
  have hnearest := abs_sub_nearestUnits_le x.num.natAbs x.den_pos hindex
  rwa [cast_natAbs_num_div_den hx] at hnearest

/-- A number to which one magnitude is nearer than every other is rounded to that one. -/
theorem nearestTo_eq {x : ℚ} (hx : 0 ≤ x) {m : Magnitude}
    (h : ∀ index ≤ finiteMagnitudes, index ≠ m.index → |x - m.units| < |x - unitsAt index|) :
    nearestTo x = m := by
  by_contra hne
  have hcloser := h (nearestTo x).index (nearestTo x).index_le fun heq => hne (eq_of_index_eq heq)
  rw [← units_eq_unitsAt] at hcloser
  exact absurd (abs_sub_nearestTo_le hx m.index_le) (not_le.2 hcloser)

/-- A magnitude is rounded to itself. -/
theorem nearestTo_units (m : Magnitude) : nearestTo m.units = m := by
  refine nearestTo_eq (Nat.cast_nonneg _) fun index _ hne => ?_
  rw [sub_self, abs_zero, abs_pos, sub_ne_zero, units_eq_unitsAt]
  exact fun heq => hne (strictMono_unitsAt.injective (Nat.cast_injective heq)).symm

/-- Rounding keeps the order of numbers. -/
theorem nearestTo_mono {x y : ℚ} (hx : 0 ≤ x) (h : x ≤ y) :
    (nearestTo x).index ≤ (nearestTo y).index := by
  by_contra hgt
  have hgt : (nearestTo y).index < (nearestTo x).index := Nat.lt_of_not_le hgt
  have hunits : ((nearestTo y).units : ℚ) < (nearestTo x).units :=
    Nat.cast_lt.2 (strictMono_unitsAt hgt)
  have hlow := abs_sub_nearestTo_le hx (nearestTo y).index_le
  have hhigh := abs_sub_nearestTo_le (le_trans hx h) (nearestTo x).index_le
  rw [← units_eq_unitsAt] at hlow hhigh
  -- the middle between the two is not above the lower number and not below the greater one
  have hsame : x = y := by
    rw [← sq_le_sq] at hlow hhigh
    nlinarith
  rw [hsame] at hgt
  exact Nat.lt_irrefl _ hgt

theorem ofRat_mono {x y : ℚ} (hx : 0 ≤ x) (h : x ≤ y) : (ofRat x).index ≤ (ofRat y).index :=
  nearestTo_mono (mul_nonneg hx (Nat.cast_nonneg _))
    (mul_le_mul_of_nonneg_right h (Nat.cast_nonneg _))

theorem nearest_eq_ofRat (num : Nat) {den : Nat} (h : 0 < den) :
    nearest num den = ofRat (num / den) := by
  have hmul : (num / den : ℚ) * unitsPerOne = (num * unitsPerOne : Nat) / den := by
    rw [Nat.cast_mul, div_mul_eq_mul_div]
  rw [nearest, nearestUnits_eq_nearestTo _ h, ofRat, hmul]

/-! ## Numbers of few digits -/

/-- How fine and how great the grid is. -/
theorem grid_bounds : unitsPerOne = 2 ^ 1074 ∧ unitsAt finiteMagnitudes = 2 ^ 2098 ∧
    8 * unitsPerOne = 8 ^ 359 ∧ infinity.units ≤ 8 ^ 342 * unitsPerOne := by
  decide +kernel

/-- Numbers of at most 53 binary digits stand on the grid. -/
theorem exists_unitsAt_eq {k : Nat} (hk : k ≤ 2 * Nat.pow 2 52) (shift : Nat) :
    ∃ index, unitsAt index = k * Nat.pow 2 shift := by
  induction shift generalizing k with
  | zero => exact ⟨_, unitsAt_binade hk (.inl rfl)⟩
  | succ shift ih =>
    rcases Nat.le_total (Nat.pow 2 52) k with hfull | hfew
    · exact ⟨_, unitsAt_binade hk (.inr hfull)⟩
    · -- there is room for one more digit
      obtain ⟨index, hindex⟩ := ih (Nat.mul_le_mul_left 2 hfew)
      refine ⟨index, hindex.trans ?_⟩
      show 2 * k * Nat.pow 2 shift = k * (Nat.pow 2 shift * 2)
      ring

/-- Numbers of at most 53 binary digits are magnitudes, unless they are too great. -/
theorem exists_units_eq {k shift : Nat} (hk : k ≤ 2 * Nat.pow 2 52) (hshift : shift ≤ 2000) :
    ∃ m : Magnitude, m.units = k * 2 ^ shift ∧ m.isFinite = true := by
  obtain ⟨index, hindex⟩ := exists_unitsAt_eq hk shift
  have hfinite : index < finiteMagnitudes := by
    rw [← strictMono_unitsAt.lt_iff_lt, hindex, grid_bounds.2.1]
    calc k * Nat.pow 2 shift ≤ 2 * Nat.pow 2 52 * Nat.pow 2 shift := Nat.mul_le_mul_right _ hk
      _ = 2 ^ (53 + shift) := by
        rw [pow_add]
        rfl
      _ < 2 ^ 2098 := pow_lt_pow_right₀ (by decide) (by omega)
  exact ⟨⟨index, Nat.le_of_lt hfinite⟩, hindex, decide_eq_true hfinite⟩

/-! ## Rounding decimals -/

/-- Numbers far beyond the finite ones are rounded to infinity. -/
theorem ofRat_eq_infinity {x : ℚ} (h : 8 ^ 342 ≤ x) : ofRat x = .infinity := by
  obtain ⟨-, -, -, hunits⟩ := grid_bounds
  have hunits : (infinity.units : ℚ) ≤ 8 ^ 342 * unitsPerOne := by exact_mod_cast hunits
  have hmono : (nearestTo infinity.units).index ≤ (ofRat x).index :=
    nearestTo_mono (Nat.cast_nonneg _)
      (le_trans hunits (mul_le_mul_of_nonneg_right h (Nat.cast_nonneg _)))
  rw [nearestTo_units] at hmono
  exact eq_of_index_eq (Nat.le_antisymm (ofRat x).index_le hmono)

/-- Numbers of at most a quarter of a unit are rounded to zero. -/
theorem ofRat_eq_zero {x : ℚ} (hx : 0 ≤ x) (h : x * unitsPerOne ≤ 1 / 4) : ofRat x = .zero := by
  have hquarter : nearestTo (1 / 4) = .zero := by
    have hfraction := nearestUnits_eq_nearestTo 1 (show 0 < 4 by decide)
    rw [Nat.cast_one, Nat.cast_ofNat] at hfraction
    rw [← hfraction]
    rfl
  have hmono := nearestTo_mono (mul_nonneg hx (Nat.cast_nonneg unitsPerOne)) h
  rw [hquarter] at hmono
  exact eq_of_index_eq (Nat.le_antisymm hmono (Nat.zero_le _))

theorem eight_pow_le_ten_pow {n e : Nat} (h : n ≤ e) : 8 ^ n ≤ 10 ^ e :=
  Nat.le_trans (Nat.pow_le_pow_left (by decide) n) (Nat.pow_le_pow_right (by decide) h)

theorem eight_mul_unitsPerOne_le {e : Nat} (h : 359 ≤ e) : 8 * unitsPerOne ≤ 10 ^ e := by
  rw [grid_bounds.2.2.1]
  exact eight_pow_le_ten_pow h

theorem mul_unitsPerOne_le_ten_pow {coefficient e : Nat} (h : coefficient.log2 + 400 ≤ e) :
    coefficient * unitsPerOne * 4 ≤ 10 ^ (e + 1) := by
  have hcoefficient : coefficient ≤ 2 ^ coefficient.log2 * 2 := Nat.le_of_lt Nat.lt_log2_self
  have hbase : 2 ^ coefficient.log2 ≤ 10 ^ coefficient.log2 := Nat.pow_le_pow_left (by decide) _
  have hunit : 8 * unitsPerOne ≤ 10 ^ (e + 1 - coefficient.log2) :=
    eight_mul_unitsPerOne_le (by omega)
  calc coefficient * unitsPerOne * 4
      ≤ 2 ^ coefficient.log2 * 2 * unitsPerOne * 4 := by gcongr
    _ = 2 ^ coefficient.log2 * (8 * unitsPerOne) := by ring
    _ ≤ 10 ^ coefficient.log2 * 10 ^ (e + 1 - coefficient.log2) := Nat.mul_le_mul hbase hunit
    _ = 10 ^ (e + 1) := by rw [← pow_add, Nat.add_sub_cancel' (by omega)]

/-- A decimal is rounded once, also where the answer is known without computing its power of ten. -/
theorem ofDecimal_eq (coefficient : Nat) (exponent : Int) :
    ofDecimal coefficient exponent = ofRat (coefficient * 10 ^ exponent) := by
  unfold ofDecimal
  by_cases hc : coefficient = 0
  · rw [if_pos hc, hc, Nat.cast_zero, zero_mul, ofRat_eq_zero le_rfl (by rw [zero_mul]; norm_num)]
  · rw [if_neg hc]
    have hone : (1 : ℚ) ≤ coefficient := Nat.one_le_cast.2 (Nat.pos_of_ne_zero hc)
    cases exponent with
    | ofNat e =>
      rw [Int.ofNat_eq_natCast, zpow_natCast]
      dsimp only
      split
      · rename_i hlarge
        have hpower : (8 : ℚ) ^ 342 ≤ 10 ^ e := by
          exact_mod_cast eight_pow_le_ten_pow (show 342 ≤ e by omega)
        refine (ofRat_eq_infinity (le_trans hpower ?_)).symm
        exact le_mul_of_one_le_left (by positivity) hone
      · rw [nearest_eq_ofRat _ Nat.one_pos, Nat.cast_one, div_one, Nat.cast_mul, Nat.pow_eq,
          Nat.cast_pow, Nat.cast_ofNat]
    | negSucc e =>
      rw [zpow_negSucc, ← div_eq_mul_inv]
      dsimp only
      split
      · rename_i hsmall
        refine (ofRat_eq_zero (by positivity) ?_).symm
        have hpower : (coefficient * unitsPerOne * 4 : ℚ) ≤ 10 ^ (e + 1) := by
          exact_mod_cast mul_unitsPerOne_le_ten_pow hsmall
        rw [div_mul_eq_mul_div, div_le_iff₀ (by positivity)]
        linarith
      · rw [Nat.pow_eq, nearest_eq_ofRat _ (by positivity), Nat.cast_pow, Nat.cast_ofNat]

end Magnitude

/-! ## Whole numbers -/

namespace Binary64

/-- A whole number of at most 53 binary digits is a double. -/
theorem exists_ofNat_eq {n : Nat} (h : n ≤ 2 * Nat.pow 2 52) : ∃ m : Magnitude,
    ofNat n = .signed false m ∧ m.units = n * Magnitude.unitsPerOne ∧ m.isFinite = true := by
  obtain ⟨m, hunits, hfinite⟩ := Magnitude.exists_units_eq h (show 1074 ≤ 2000 by decide)
  rw [← Magnitude.grid_bounds.1] at hunits
  refine ⟨m, ?_, hunits, hfinite⟩
  show Binary64.signed false (.nearestUnits (n * Magnitude.unitsPerOne) 1) = _
  rw [Magnitude.nearestUnits_eq_nearestTo _ Nat.one_pos, Nat.cast_one, div_one]
  exact congrArg _ ((congrArg (fun units : Nat => Magnitude.nearestTo units) hunits.symm).trans
    (Magnitude.nearestTo_units m))

/-- A count of at most 53 binary digits is in the range of doubles, and their whole part gives it
back. -/
theorem ofInt_exact {n : Int} (hn : 0 ≤ n) (h : n ≤ 2 ^ 53) :
    ofInt? n = some (ofInt n) ∧ (ofInt n).truncate? = some n := by
  obtain ⟨k, rfl⟩ := Int.eq_ofNat_of_zero_le hn
  have hk : k ≤ 2 * Nat.pow 2 52 := by exact_mod_cast h
  obtain ⟨m, hm, hunits, hfinite⟩ := exists_ofNat_eq hk
  have hfinite : (Binary64.signed false m).isFinite = true := hfinite
  unfold ofInt? truncate?
  rw [ofInt_natCast, hm]
  dsimp only
  rw [if_pos hfinite, if_pos hfinite]
  refine ⟨rfl, congrArg some ?_⟩
  show ((m.units : Int)).tdiv Magnitude.unitsPerOne = k
  rw [hunits, Int.natCast_mul]
  exact Int.mul_tdiv_cancel _ (Int.natCast_ne_zero.2 Magnitude.unitsPerOne_pos.ne')

end Binary64

end Storefront
