import Mathlib.Algebra.Order.Field.Power
import Mathlib.Tactic.FieldSimp
import Storefront.Proofs.Rounding

/-!
# The shortest decimals of doubles

A double is written as a decimal that reads back to it. The search for one goes from coarse grids of
decimals to finer ones, and 17 digits are enough: the grid that has them is finer than the distance
from a double to the next one. So the search always ends with a decimal of at most 20 digits.

* `ten_zpow_le_two_zpow`, `two_zpow_le_ten_zpow`: powers of ten beside powers of two
* `Magnitude.exists_coefficientAt?`: a grid that is fine enough has a point that reads back
* `Magnitude.ofDecimal_shortest`: the shortest decimal reads back, and is short
-/

namespace Storefront

/-! ## Powers of ten and of two -/

/-- Powers of two numbers of which one is at most twice the other are not far apart. -/
theorem zpow_le_mul_zpow {x y : ℚ} (hx : 0 < x) (hxy : x ≤ y) (hyx : y ≤ 2 * x) {l : Int} {a : Nat}
    (hl : l.natAbs ≤ a) : y ^ l ≤ 2 ^ a * x ^ l ∧ x ^ l ≤ 2 ^ a * y ^ l := by
  have hy : 0 < y := lt_of_lt_of_le hx hxy
  have hone : (1 : ℚ) ≤ 2 ^ a := one_le_pow₀ (by norm_num)
  have hpower : (2 : ℚ) ^ l.natAbs ≤ 2 ^ a := pow_le_pow_right₀ (by norm_num) hl
  have hleast : x ^ l.natAbs ≤ y ^ l.natAbs := pow_le_pow_left₀ hx.le hxy _
  have hmost : y ^ l.natAbs ≤ 2 ^ a * x ^ l.natAbs :=
    calc y ^ l.natAbs ≤ (2 * x) ^ l.natAbs := pow_le_pow_left₀ hy.le hyx _
      _ = 2 ^ l.natAbs * x ^ l.natAbs := mul_pow _ _ _
      _ ≤ 2 ^ a * x ^ l.natAbs := mul_le_mul_of_nonneg_right hpower (pow_pos hx _).le
  have hxl := pow_pos hx l.natAbs
  have hyl := pow_pos hy l.natAbs
  obtain ⟨n, rfl | rfl⟩ := l.eq_nat_or_neg
  · rw [Int.natAbs_natCast] at *
    rw [zpow_natCast, zpow_natCast]
    exact ⟨hmost, le_trans hleast (le_mul_of_one_le_left hyl.le hone)⟩
  · rw [Int.natAbs_neg, Int.natAbs_natCast] at *
    rw [zpow_neg, zpow_neg, zpow_natCast, zpow_natCast, ← div_eq_mul_inv, ← div_eq_mul_inv,
      le_div_iff₀ hxl, le_div_iff₀ hyl, inv_mul_le_iff₀ hyl, inv_mul_le_iff₀ hxl, mul_comm (y ^ n),
      mul_comm (x ^ n)]
    exact ⟨le_trans hleast (le_mul_of_one_le_left hyl.le hone), hmost⟩

section Logarithm

variable {a b : Nat} (hlow : 2 ^ a ≤ 10 ^ b) (hhigh : 10 ^ b ≤ 2 ^ (a + 1)) (ha : 0 < a) {l f : Int}
  (hl : l.natAbs ≤ a)

include hlow hhigh hl

theorem zpow_le_mul_zpow_of_pow_le : ((10 : ℚ) ^ b) ^ l ≤ 2 ^ a * (2 ^ a) ^ l ∧
    ((2 : ℚ) ^ a) ^ l ≤ 2 ^ a * (10 ^ b) ^ l := by
  have hlow : (2 : ℚ) ^ a ≤ 10 ^ b := by exact_mod_cast hlow
  have hhigh : (10 : ℚ) ^ b ≤ 2 * 2 ^ a := by
    rw [← pow_succ']
    exact_mod_cast hhigh
  exact zpow_le_mul_zpow (by positivity) hlow hhigh hl

include ha

/-- A power of ten is at most the power of two whose logarithm is a little greater. -/
theorem ten_zpow_le_two_zpow (hf : f * a ≤ l * b) : (10 : ℚ) ^ f ≤ 2 ^ (l + 1) := by
  rw [← pow_le_pow_iff_left₀ (by positivity) (by positivity) ha.ne']
  calc ((10 : ℚ) ^ f) ^ a = 10 ^ (f * a) := by rw [← zpow_natCast, ← zpow_mul]
    _ ≤ 10 ^ (l * b) := zpow_le_zpow_right₀ (by norm_num) hf
    _ = (10 ^ b) ^ l := by rw [mul_comm, zpow_mul, zpow_natCast]
    _ ≤ 2 ^ a * (2 ^ a) ^ l := (zpow_le_mul_zpow_of_pow_le hlow hhigh hl).1
    _ = (2 ^ (l + 1)) ^ a := by
      rw [← zpow_natCast (2 : ℚ) a, ← zpow_mul, ← zpow_natCast _ a, ← zpow_mul,
        ← zpow_add₀ (by norm_num)]
      congr 1
      ring

/-- A power of two is at most the power of ten whose logarithm is a little greater. -/
theorem two_zpow_le_ten_zpow (hf : l * b ≤ (f + 1) * a) : (2 : ℚ) ^ l ≤ 10 ^ (f + 2) := by
  rw [← pow_le_pow_iff_left₀ (by positivity) (by positivity) ha.ne']
  calc ((2 : ℚ) ^ l) ^ a = (2 ^ a) ^ l := by
        rw [← zpow_natCast, ← zpow_mul, mul_comm, zpow_mul, zpow_natCast]
    _ ≤ 2 ^ a * (10 ^ b) ^ l := (zpow_le_mul_zpow_of_pow_le hlow hhigh hl).2
    _ = 2 ^ a * 10 ^ (l * b) := by rw [← zpow_natCast (10 : ℚ) b, ← zpow_mul, mul_comm l]
    _ ≤ 10 ^ a * 10 ^ ((f + 1) * a) := by
      gcongr <;> norm_num
    _ = (10 ^ (f + 2)) ^ a := by
      rw [← zpow_natCast (10 : ℚ) a, ← zpow_natCast _ a, ← zpow_mul, ← zpow_add₀ (by norm_num)]
      congr 1
      ring

end Logarithm

namespace Magnitude

/-! ## Grids of decimals -/

variable {m : Magnitude} {exponent : Int} {coefficient : Nat}

/-- The fraction that is rounded on a grid is the value counted in steps of the grid. -/
theorem scaled_eq (m : Magnitude) (exponent : Int) :
    ((m.units * Nat.pow 10 (-exponent).toNat : Nat) : ℚ) /
      (unitsPerOne * Nat.pow 10 exponent.toNat : Nat) =
        m.units / unitsPerOne / 10 ^ exponent := by
  rw [Nat.pow_eq, Nat.pow_eq, Nat.cast_mul, Nat.cast_mul, Nat.cast_pow, Nat.cast_pow, Nat.cast_ofNat,
    div_div]
  cases exponent with
  | ofNat e =>
    have hneg : (-(Int.ofNat e)).toNat = 0 := by simp
    rw [hneg, pow_zero, mul_one, Int.ofNat_eq_natCast, zpow_natCast, Int.toNat_natCast]
  | negSucc e =>
    have hneg : (-(Int.negSucc e)).toNat = e + 1 := by omega
    have hpos : (Int.negSucc e).toNat = 0 := rfl
    rw [hneg, hpos, pow_zero, mul_one, zpow_negSucc, ← div_eq_mul_inv, div_div_eq_mul_div]

/-- What is found on a grid reads back, and is at most one step above the value. -/
theorem coefficientAt?_eq_some (h : m.coefficientAt? exponent = some coefficient) :
    ofDecimal coefficient exponent = m ∧
      (coefficient : ℚ) ≤ m.units / unitsPerOne / 10 ^ exponent + 1 := by
  have hscaled := m.scaled_eq exponent
  unfold coefficientAt? at h
  dsimp only at h
  generalize m.units * Nat.pow 10 (-exponent).toNat = num at *
  generalize unitsPerOne * Nat.pow 10 exponent.toNat = den at *
  have hbound {c : Nat} (hc : c ≤ num / den + 1) :
      (c : ℚ) ≤ m.units / unitsPerOne / 10 ^ exponent + 1 := by
    rw [← hscaled]
    have hquotient : ((num / den : Nat) : ℚ) ≤ num / den := Nat.cast_div_le
    have hc : (c : ℚ) ≤ (num / den : Nat) + 1 := by exact_mod_cast hc
    linarith
  have hnear := roundDiv_le num den
  have hfar : (if roundDiv num den = num / den then roundDiv num den + 1 else num / den) ≤
      num / den + 1 := by
    split <;> omega
  generalize (if roundDiv num den = num / den then roundDiv num den + 1 else num / den) = far at *
  split at h
  · rename_i hreads
    cases h
    exact ⟨hreads, hbound hnear⟩
  · split at h
    · rename_i hreads
      cases h
      exact ⟨hreads, hbound hfar⟩
    · cases h

/-- A grid with steps below the 53rd binary digit of a magnitude has a point that reads back. -/
theorem exists_coefficientAt? (h : (10 : ℚ) ^ exponent * unitsPerOne * (2 * 2 ^ 52) < m.units) :
    ∃ coefficient, m.coefficientAt? exponent = some coefficient := by
  have hscaled := m.scaled_eq exponent
  have hden : 0 < unitsPerOne * Nat.pow 10 exponent.toNat :=
    Nat.mul_pos unitsPerOne_pos (Nat.pow_pos (by decide))
  have hnear := abs_sub_roundDiv_le (m.units * Nat.pow 10 (-exponent).toNat) hden
  rw [hscaled] at hnear
  unfold coefficientAt?
  dsimp only
  generalize roundDiv _ _ = near at *
  have hstep : (0 : ℚ) < 10 ^ exponent * unitsPerOne :=
    mul_pos (by positivity) (Nat.cast_pos.2 unitsPerOne_pos)
  -- the nearest point of the grid is at most half a step away
  have hclose : |(near : ℚ) * 10 ^ exponent * unitsPerOne - m.units| ≤
      10 ^ exponent * unitsPerOne / 2 := by
    have hunits : (near : ℚ) * 10 ^ exponent * unitsPerOne - m.units =
        -((m.units / unitsPerOne / 10 ^ exponent - near) * (10 ^ exponent * unitsPerOne)) := by
      have hone : (unitsPerOne : ℚ) ≠ 0 := Nat.cast_ne_zero.2 unitsPerOne_pos.ne'
      field_simp
      ring
    rw [hunits, abs_neg, abs_mul, abs_of_pos hstep]
    linarith [mul_le_mul_of_nonneg_right hnear hstep.le]
  have hreads : ofDecimal near exponent = m := by
    rw [ofDecimal_eq]
    have hnonneg : (0 : ℚ) ≤ near * 10 ^ exponent * unitsPerOne := by
      rw [mul_assoc]
      exact mul_nonneg (Nat.cast_nonneg _) hstep.le
    refine nearestTo_eq hnonneg fun index _ hne => ?_
    have hgap := unitsAt_le_mul_abs_sub (Ne.symm hne)
    rw [← units_eq_unitsAt] at hgap
    have htriangle : |(m.units : ℚ) - unitsAt index| ≤
        |near * 10 ^ exponent * unitsPerOne - (m.units : ℚ)| +
          |near * 10 ^ exponent * unitsPerOne - (unitsAt index : ℚ)| := by
      rw [abs_sub_comm _ (m.units : ℚ)]
      exact abs_sub_le _ _ _
    linarith
  rw [if_pos hreads]
  exact ⟨near, rfl⟩

theorem log2_lt_of_lt_two_pow {n k : Nat} (hn : 0 < n) (h : n < 2 ^ k) : n.log2 < k :=
  (Nat.log2_lt (Nat.ne_of_gt hn)).2 h

/-! ## The search -/

section Search

attribute [local irreducible] coefficientAt? unitsPerOne

theorem shortestFrom_succ (m : Magnitude) (steps : Nat) (exponent : Int) :
    m.shortestFrom (steps + 1) exponent =
      match m.coefficientAt? exponent with
      | some coefficient => some (coefficient, exponent)
      | none => m.shortestFrom steps (exponent - 1) := rfl

/-- The search ends on the first grid with a point that reads back. -/
theorem exists_shortestFrom {steps k : Nat} (hk : k < steps)
    (h : ∃ coefficient, m.coefficientAt? (exponent - k) = some coefficient) :
    ∃ coefficient found, m.shortestFrom steps exponent = some (coefficient, found) ∧
      m.coefficientAt? found = some coefficient ∧ exponent - k ≤ found := by
  induction steps generalizing k exponent with
  | zero => exact absurd hk (Nat.not_lt_zero k)
  | succ steps ih =>
    rw [shortestFrom_succ]
    rcases hfirst : m.coefficientAt? exponent with _ | coefficient
    · cases k with
      | zero =>
        obtain ⟨coefficient, hcoefficient⟩ := h
        rw [Int.natCast_zero, Int.sub_zero, hfirst] at hcoefficient
        cases hcoefficient
      | succ k =>
        have hexponent : exponent - (k + 1 : Nat) = exponent - 1 - k := by omega
        rw [hexponent] at h ⊢
        exact ih (Nat.lt_of_succ_lt_succ hk) h
    · exact ⟨coefficient, exponent, rfl, hfirst, by omega⟩

/-- The value of a magnitude beside the power of two of its first binary digit. -/
theorem units_log2_bounds (hpos : 0 < m.units) :
    (2 : ℚ) ^ ((m.units.log2 : Int) - 1074) * unitsPerOne ≤ m.units ∧
      (m.units : ℚ) < 2 * (2 ^ ((m.units.log2 : Int) - 1074) * unitsPerOne) := by
  have hpower : (2 : ℚ) ^ ((m.units.log2 : Int) - 1074) * unitsPerOne = 2 ^ m.units.log2 := by
    rw [grid_bounds.1, Nat.cast_pow, Nat.cast_ofNat, zpow_sub₀ (by norm_num),
      zpow_natCast, zpow_ofNat, div_mul_cancel₀ _ (by positivity)]
  have hleast : 2 ^ m.units.log2 ≤ m.units := Nat.log2_self_le (Nat.ne_of_gt hpos)
  have hmost : m.units < 2 ^ m.units.log2 * 2 := Nat.lt_log2_self
  rw [hpower]
  constructor
  · exact_mod_cast hleast
  · rw [mul_comm]
    exact_mod_cast hmost

section Finite

variable (hfinite : m.isFinite = true) (hpos : 0 < m.units)

include hfinite hpos

theorem log2_units_lt : m.units.log2 < 2098 := by
  have hindex : m.index < finiteMagnitudes := of_decide_eq_true hfinite
  have hunits := strictMono_unitsAt hindex
  rw [grid_bounds.2.1, ← units_eq_unitsAt] at hunits
  exact log2_lt_of_lt_two_pow hpos hunits

/-- The value of a magnitude beside powers of ten. -/
theorem units_topExponent_bounds :
    (10 : ℚ) ^ (m.topExponent - 1) * unitsPerOne ≤ 2 * m.units ∧
      (m.units : ℚ) < 2 * (10 ^ (m.topExponent + 1) * unitsPerOne) := by
  obtain ⟨hleast, hmost⟩ := units_log2_bounds hpos
  have hlog2 := log2_units_lt hfinite hpos
  have hone : (0 : ℚ) ≤ unitsPerOne := Nat.cast_nonneg _
  unfold topExponent
  generalize hl : (m.units.log2 : Int) - 1074 = l at *
  have hsmall : l.natAbs ≤ 100000 := by omega
  obtain ⟨hlow, hhigh⟩ : 2 ^ 100000 ≤ 10 ^ 30103 ∧ 10 ^ 30103 ≤ 2 ^ (100000 + 1) := by
    decide +kernel
  have hten : (10 : ℚ) ^ (l * 30103 / 100000) ≤ 2 ^ (l + 1) :=
    ten_zpow_le_two_zpow hlow hhigh (by decide) hsmall (Int.ediv_mul_le _ (by decide))
  have htwo : (2 : ℚ) ^ l ≤ 10 ^ (l * 30103 / 100000 + 2) :=
    two_zpow_le_ten_zpow hlow hhigh (by decide) hsmall
      (Int.le_of_lt (Int.lt_ediv_add_one_mul_self _ (by decide)))
  generalize l * 30103 / 100000 = f at *
  rw [zpow_add_one₀ (by norm_num)] at hten
  have hten := mul_le_mul_of_nonneg_right hten hone
  have htwo := mul_le_mul_of_nonneg_right htwo hone
  rw [Int.add_sub_cancel, Int.add_assoc f 1 1]
  constructor
  · linarith
  · exact lt_of_lt_of_le hmost (mul_le_mul_of_nonneg_left htwo (by norm_num))

/-- The grid of the 18th step is fine enough for every magnitude. -/
theorem exists_coefficientAt?_topExponent :
    ∃ coefficient, m.coefficientAt? (m.topExponent - (18 : Nat)) = some coefficient := by
  obtain ⟨hten, -⟩ := units_topExponent_bounds hfinite hpos
  have hunits : (0 : ℚ) < m.units := Nat.cast_pos.2 hpos
  have hexponent : m.topExponent - (18 : Nat) = m.topExponent - 1 - 17 := by omega
  refine exists_coefficientAt? ?_
  rw [hexponent, zpow_sub₀ (by norm_num)]
  generalize (10 : ℚ) ^ (m.topExponent - 1) = x at *
  generalize (unitsPerOne : ℚ) = one at *
  have hx : x / 10 ^ (17 : Int) * one * (2 * 2 ^ 52) = x * one * (2 * 2 ^ 52 / 10 ^ 17) := by
    rw [← zpow_natCast (10 : ℚ) 17]
    ring
  rw [hx]
  norm_num
  linarith

/-- The shortest decimal of a positive magnitude is found on one of the grids that are searched. -/
theorem exists_shortest : ∃ coefficient exponent, m.shortest = (coefficient, exponent) ∧
    m.coefficientAt? exponent = some coefficient ∧ m.topExponent - 18 ≤ exponent := by
  have hindex : m.index ≠ 0 := by
    intro hzero
    rw [units_eq_unitsAt, hzero] at hpos
    exact absurd hpos (by decide)
  obtain ⟨coefficient, exponent, hfrom, hsome, hle⟩ :=
    exists_shortestFrom (show 18 < 19 by decide) (exists_coefficientAt?_topExponent hfinite hpos)
  refine ⟨coefficient, exponent, ?_, hsome, hle⟩
  unfold shortest
  rw [if_neg hindex, hfrom, Option.getD_some]

end Finite

/-- The shortest decimal of a finite magnitude reads back, and it has at most 20 digits. -/
theorem ofDecimal_shortest (hfinite : m.isFinite = true) :
    ofDecimal m.shortest.1 m.shortest.2 = m ∧ m.shortest.1 < 10 ^ 20 := by
  rcases Nat.eq_zero_or_pos m.index with hzero | hpos
  · have hm : m = .zero := eq_of_index_eq hzero
    unfold shortest
    rw [if_pos hzero, hm]
    exact ⟨rfl, by decide⟩
  · have hunits : 0 < m.units := by
      rw [units_eq_unitsAt]
      exact Nat.lt_of_le_of_lt (Nat.zero_le _) (strictMono_unitsAt hpos)
    obtain ⟨coefficient, exponent, hshortest, hsome, hle⟩ := exists_shortest hfinite hunits
    obtain ⟨hreads, hmost⟩ := coefficientAt?_eq_some hsome
    obtain ⟨-, htop⟩ := units_topExponent_bounds hfinite hunits
    rw [hshortest]
    refine ⟨hreads, ?_⟩
    have hone : (0 : ℚ) < unitsPerOne := Nat.cast_pos.2 unitsPerOne_pos
    have hstep : (0 : ℚ) < 10 ^ exponent := zpow_pos (by norm_num) _
    have hsteps : (10 : ℚ) ^ (m.topExponent + 1) ≤ 10 ^ 19 * 10 ^ exponent := by
      rw [← zpow_natCast, ← zpow_add₀ (by norm_num)]
      exact zpow_le_zpow_right₀ (by norm_num) (by omega)
    have hvalue : (m.units : ℚ) / unitsPerOne / 10 ^ exponent < 2 * 10 ^ 19 := by
      rw [div_lt_iff₀ hstep, div_lt_iff₀ hone]
      have := mul_le_mul_of_nonneg_right hsteps hone.le
      linarith
    have hfew : (coefficient : ℚ) < 10 ^ 20 := by linarith
    exact_mod_cast hfew

end Search

end Magnitude

end Storefront
