import Mathlib.Order.ConditionallyCompleteLattice.Basic
import Mathlib.Data.Int.ConditionallyCompleteOrder
import Mathlib.Order.Compare
import Mathlib.Order.Monotone.Basic
import Mathlib.Order.WithBot
import Storefront.Json.Comparison

/-!
# Exact values of numbers

Every number has an exact value on a line of whole numbers of units, with an end on either side for
the infinities. Doubles stand on that line in the order of their places, and whole numbers beside
doubles are compared by it.

* `Magnitude.strictMono_unitsAt`: a greater magnitude has a greater exact value
* `Magnitude.units_nearestUnits_le`: how far rounding goes at most
* `Binary64.value`, `Number.value`: the exact values
* `Number.order?_eq_compare`: numbers compare as their exact values do
-/

namespace Storefront

namespace Magnitude

/-- The exact value, in units, of the magnitude with an index. -/
def unitsAt (index : Nat) : Nat :=
  let size := Nat.pow 2 52
  if index < size then index
  else (size + index % size) * Nat.pow 2 (index / size - 1)

theorem units_eq_unitsAt (m : Magnitude) : m.units = unitsAt m.index := rfl

theorem two_pow_pos (n : Nat) : 0 < Nat.pow 2 n := Nat.pow_pos Nat.two_pos

/-- From one magnitude to the next, the exact value grows. -/
theorem unitsAt_lt_succ (index : Nat) : unitsAt index < unitsAt (index + 1) := by
  have hsize : Nat.pow 2 52 = 4503599627370496 := rfl
  unfold unitsAt
  rw [hsize]
  dsimp only
  by_cases hlow : index + 1 < 4503599627370496
  · rw [if_pos hlow, if_pos (by omega)]
    omega
  · rw [if_neg hlow]
    by_cases hlast : index < 4503599627370496
    · have hindex : index = 4503599627370495 := by omega
      rw [if_pos hlast, hindex]
      decide
    · rw [if_neg hlast]
      by_cases hfull : (index + 1) % 4503599627370496 = 0
      · -- the next magnitude is the first of its binade
        have hrest : index % 4503599627370496 = 4503599627370495 := by omega
        obtain ⟨k, hk⟩ : ∃ k, index / 4503599627370496 = k + 1 :=
          ⟨index / 4503599627370496 - 1, by omega⟩
        have hnext : (index + 1) / 4503599627370496 = k + 2 := by omega
        have hpos : 0 < Nat.pow 2 k := two_pow_pos k
        rw [hrest, hfull, hk, hnext]
        show _ * Nat.pow 2 k < _ * (Nat.pow 2 k * 2)
        omega
      · have hrest : (index + 1) % 4503599627370496 = index % 4503599627370496 + 1 := by omega
        have hsame : (index + 1) / 4503599627370496 = index / 4503599627370496 := by omega
        rw [hrest, hsame]
        exact Nat.mul_lt_mul_of_pos_right (by omega) (two_pow_pos _)

theorem strictMono_unitsAt : StrictMono unitsAt := strictMono_nat_of_lt_succ unitsAt_lt_succ

theorem unitsPerOne_pos : 0 < unitsPerOne := by decide +kernel

/-! ### Rounding -/

theorem le_roundDiv (num den : Nat) : num / den ≤ roundDiv num den := by
  unfold roundDiv
  dsimp only
  split
  · exact Nat.le_refl _
  · split <;> omega

theorem roundDiv_le (num den : Nat) : roundDiv num den ≤ num / den + 1 := by
  unfold roundDiv
  dsimp only
  split
  · omega
  · split <;> omega

/-- The exact value of a magnitude by its binade and its digits there. -/
theorem unitsAt_binade {binade digits : Nat} (hmost : digits ≤ 2 * Nat.pow 2 52)
    (hleast : binade = 0 ∨ Nat.pow 2 52 ≤ digits) :
    unitsAt (binade * Nat.pow 2 52 + digits) = digits * Nat.pow 2 binade := by
  have hsize : Nat.pow 2 52 = 4503599627370496 := rfl
  rw [hsize] at hmost hleast
  unfold unitsAt
  rw [hsize]
  dsimp only
  by_cases hlow : binade * 4503599627370496 + digits < 4503599627370496
  · obtain rfl : binade = 0 := by omega
    rw [if_pos hlow, Nat.zero_mul, Nat.zero_add]
    exact (Nat.mul_one digits).symm
  · rw [if_neg hlow]
    by_cases hfull : digits = 2 * 4503599627370496
    · -- the digits run over into the next binade
      have hrest : (binade * 4503599627370496 + digits) % 4503599627370496 = 0 := by omega
      have hnext : (binade * 4503599627370496 + digits) / 4503599627370496 - 1 = binade + 1 := by
        omega
      rw [hrest, hnext, hfull]
      show _ * (Nat.pow 2 binade * 2) = _
      omega
    · have hrest : 4503599627370496 + (binade * 4503599627370496 + digits) % 4503599627370496 =
          digits := by omega
      have hsame : (binade * 4503599627370496 + digits) / 4503599627370496 - 1 = binade := by omega
      rw [hrest, hsame]

/-- A number of units is rounded in a binade in which it has 53 digits, or in the lowest one. -/
theorem binade_bounds {n : Nat} (h : 0 < n) :
    Nat.pow 2 (n.log2 - 52) ≤ n ∧ n / Nat.pow 2 (n.log2 - 52) < 2 * Nat.pow 2 52 ∧
      (n.log2 - 52 = 0 ∨ Nat.pow 2 52 ≤ n / Nat.pow 2 (n.log2 - 52)) := by
  have hleast : Nat.pow 2 n.log2 ≤ n := Nat.log2_self_le (Nat.ne_of_gt h)
  have hmost : n < Nat.pow 2 n.log2 * 2 := Nat.lt_log2_self
  rcases Nat.le_total n.log2 52 with hlow | hhigh
  · have hpower : Nat.pow 2 n.log2 ≤ Nat.pow 2 52 := Nat.pow_le_pow_right Nat.two_pos hlow
    rw [Nat.sub_eq_zero_of_le hlow]
    show 1 ≤ n ∧ n / 1 < _ ∧ _
    rw [Nat.div_one]
    exact ⟨h, by omega, .inl rfl⟩
  · have hpower : Nat.pow 2 n.log2 = Nat.pow 2 52 * Nat.pow 2 (n.log2 - 52) := by
      have hsum : Nat.pow 2 (52 + (n.log2 - 52)) = Nat.pow 2 52 * Nat.pow 2 (n.log2 - 52) :=
        Nat.pow_add 2 52 (n.log2 - 52)
      rwa [Nat.add_sub_cancel' hhigh] at hsum
    have hpos : 0 < Nat.pow 2 (n.log2 - 52) := two_pow_pos _
    rw [hpower] at hleast hmost
    have hdigits : n < 2 * Nat.pow 2 52 * Nat.pow 2 (n.log2 - 52) := by
      rwa [Nat.mul_assoc, Nat.mul_comm]
    exact ⟨Nat.le_trans (Nat.le_mul_of_pos_left _ (two_pow_pos 52)) hleast,
      (Nat.div_lt_iff_lt_mul hpos).2 hdigits, .inr ((Nat.le_div_iff_mul_le hpos).2 hleast)⟩

/-- The magnitude nearest to a fraction of units is at most twice the whole part of the fraction. -/
theorem units_nearestUnits_le {num den : Nat} (h : 0 < num / den) :
    (nearestUnits num den).units ≤ 2 * (num / den) := by
  obtain ⟨hbinade, hmost, hleast⟩ := binade_bounds h
  rw [units_eq_unitsAt]
  unfold nearestUnits ofIndex
  dsimp only
  refine Nat.le_trans (strictMono_unitsAt.monotone (Nat.min_le_left _ _)) ?_
  generalize (num / den).log2 - 52 = binade at *
  have hlow := le_roundDiv num (den * Nat.pow 2 binade)
  have hhigh := roundDiv_le num (den * Nat.pow 2 binade)
  rw [← Nat.div_div_eq_div_mul] at hlow hhigh
  rw [unitsAt_binade (by omega) (by omega)]
  calc roundDiv num (den * Nat.pow 2 binade) * Nat.pow 2 binade
      ≤ (num / den / Nat.pow 2 binade + 1) * Nat.pow 2 binade := Nat.mul_le_mul_right _ hhigh
    _ = num / den / Nat.pow 2 binade * Nat.pow 2 binade + Nat.pow 2 binade := Nat.succ_mul _ _
    _ ≤ num / den + num / den := Nat.add_le_add (Nat.div_mul_le_self _ _) hbinade
    _ = 2 * (num / den) := (Nat.two_mul _).symm

end Magnitude

/-! ## Numbers -/

/-- The line of whole numbers with two ends. -/
abbrev Line := WithBot (WithTop Int)

namespace Binary64

/-- The exact value, in units, of the finite number at a place. -/
def unitsAtPlace (place : Int) : Int :=
  if place < 0 then -(Magnitude.unitsAt place.natAbs : Int) else Magnitude.unitsAt place.natAbs

theorem strictMono_unitsAtPlace : StrictMono unitsAtPlace := by
  intro x y hxy
  have hzero : Magnitude.unitsAt 0 = 0 := by decide
  have hmono := @Magnitude.strictMono_unitsAt.lt_iff_lt
  unfold unitsAtPlace
  by_cases hx : x < 0
  · rw [if_pos hx]
    have hxpos : Magnitude.unitsAt 0 < Magnitude.unitsAt x.natAbs := hmono.2 (by omega)
    by_cases hy : y < 0
    · have hlt : Magnitude.unitsAt y.natAbs < Magnitude.unitsAt x.natAbs := hmono.2 (by omega)
      rw [if_pos hy]
      omega
    · rw [if_neg hy]
      omega
  · have hlt : Magnitude.unitsAt x.natAbs < Magnitude.unitsAt y.natAbs := hmono.2 (by omega)
    rw [if_neg hx, if_neg (by omega)]
    omega

theorem units_of_place {x : Binary64} {place : Int} (h : x.place = some place) :
    x.units = unitsAtPlace place := by
  cases x with
  | nan => cases h
  | signed negative m =>
    cases negative <;> cases h
    · rfl
    · unfold unitsAtPlace
      rw [Int.natAbs_neg, Int.natAbs_natCast]
      split
      · rfl
      · have hindex : m.index = 0 := by omega
        have hunits : m.units = 0 := by
          rw [Magnitude.units_eq_unitsAt, hindex]
          rfl
        show -(m.units : Int) = _
        rw [hindex, hunits]
        rfl

/-- The exact value of a number, in units, on the line of whole numbers with two ends. -/
def value : Binary64 → Line
  | .nan => ⊥
  | .signed negative m =>
    if m.isFinite then (((Binary64.signed negative m).units : WithTop Int) : Line)
    else if negative then ⊥ else ((⊤ : WithTop Int) : Line)

theorem value_of_place {x : Binary64} {place : Int} (h : x.place = some place) :
    place.natAbs ≤ finiteMagnitudes ∧
      x.value = if place.natAbs < finiteMagnitudes then ((unitsAtPlace place : WithTop Int) : Line)
        else if place < 0 then ⊥ else ((⊤ : WithTop Int) : Line) := by
  have hunits := units_of_place h
  cases x with
  | nan => cases h
  | signed negative m =>
    have hle := m.index_le
    have hpos : 0 < finiteMagnitudes := by decide
    have hsize : place.natAbs = m.index := by cases negative <;> cases h <;> simp
    refine ⟨by omega, ?_⟩
    show (if m.isFinite then (((signed negative m).units : WithTop Int) : Line)
      else if negative then ⊥ else ((⊤ : WithTop Int) : Line)) = _
    unfold Magnitude.isFinite
    rw [hunits, hsize]
    by_cases hfinite : m.index < finiteMagnitudes
    · simp [hfinite]
    · have hsign : place < 0 ↔ negative = true := by
        cases negative <;> cases h
        · simp
        · simp only [iff_true]
          omega
      simp [hfinite, hsign]

/-- Of two numbers, the one with the lower place has the lower exact value. -/
theorem value_lt_iff {a b : Binary64} {x y : Int} (ha : a.place = some x) (hb : b.place = some y) :
    a.value < b.value ↔ x < y := by
  obtain ⟨hx, hax⟩ := value_of_place ha
  obtain ⟨hy, hby⟩ := value_of_place hb
  rw [hax, hby]
  by_cases hxf : x.natAbs < finiteMagnitudes
  · by_cases hyf : y.natAbs < finiteMagnitudes
    · rw [if_pos hxf, if_pos hyf, WithBot.coe_lt_coe, WithTop.coe_lt_coe]
      exact strictMono_unitsAtPlace.lt_iff_lt
    · rw [if_pos hxf, if_neg hyf]
      split
      · exact iff_of_false not_lt_bot (by omega)
      · exact iff_of_true (WithBot.coe_lt_coe.2 (WithTop.coe_lt_top _)) (by omega)
  · by_cases hyf : y.natAbs < finiteMagnitudes
    · rw [if_neg hxf, if_pos hyf]
      split
      · exact iff_of_true (WithBot.bot_lt_coe _) (by omega)
      · exact iff_of_false (fun h => not_top_lt (WithBot.coe_lt_coe.1 h)) (by omega)
    · rw [if_neg hxf, if_neg hyf]
      split <;> split
      · exact iff_of_false (lt_irrefl _) (by omega)
      · exact iff_of_true (WithBot.bot_lt_coe _) (by omega)
      · exact iff_of_false not_lt_bot (by omega)
      · exact iff_of_false (lt_irrefl _) (by omega)

theorem exists_place {x : Binary64} (h : x.isNan = false) : ∃ n, x.place = some n := by
  cases x with
  | nan => cases h
  | signed negative m => cases negative <;> exact ⟨_, rfl⟩

end Binary64

namespace Number

/-- The exact value of a number, in units. -/
def value : Number → Line
  | .whole n => ((n * Magnitude.unitsPerOne : Int) : WithTop Int)
  | .double x => x.value

/-- The number is a double that is not a number. -/
def isNan : Number → Bool
  | .whole _ => false
  | .double x => x.isNan

/-- Elements of two orders that stand alike compare alike. -/
theorem compare_eq_of_lt_iff {α β : Type} [LinearOrder α] [LinearOrder β] {a b : α} {x y : β}
    (hlt : a < b ↔ x < y) (hgt : b < a ↔ y < x) : compare a b = compare x y := by
  rcases lt_trichotomy a b with h | rfl | h
  · rw [compare_lt_iff_lt.2 h, compare_lt_iff_lt.2 (hlt.1 h)]
  · have heq : x = y := le_antisymm (not_lt.1 fun h => lt_irrefl _ (hgt.2 h))
      (not_lt.1 fun h => lt_irrefl _ (hlt.2 h))
    rw [heq, compare_eq_iff_eq.2 rfl, compare_eq_iff_eq.2 rfl]
  · rw [compare_gt_iff_gt.2 h, compare_gt_iff_gt.2 (hgt.1 h)]

/-- A whole number compares with a double as their exact values do. -/
theorem compareInt_eq {x : Binary64} (n : Int) (hx : x.isNan = false) :
    x.compareInt n = some (compare (Number.whole n).value x.value) := by
  cases x with
  | nan => cases hx
  | signed negative m =>
    show (if m.isFinite then some (compare (n * Magnitude.unitsPerOne)
        (Binary64.signed negative m).units) else some (if negative then .gt else .lt)) =
      some (compare (((n * Magnitude.unitsPerOne : Int) : WithTop Int) : Line)
        (if m.isFinite then (((Binary64.signed negative m).units : WithTop Int) : Line)
        else if negative then ⊥ else ((⊤ : WithTop Int) : Line)))
    by_cases hfinite : m.isFinite = true
    · rw [if_pos hfinite, if_pos hfinite]
      congr 1
      exact compare_eq_of_lt_iff (by rw [WithBot.coe_lt_coe, WithTop.coe_lt_coe])
        (by rw [WithBot.coe_lt_coe, WithTop.coe_lt_coe])
    · rw [if_neg hfinite, if_neg hfinite]
      congr 1
      cases negative with
      | true => exact (compare_gt_iff_gt.2 (WithBot.bot_lt_coe _)).symm
      | false => exact (compare_lt_iff_lt.2 (WithBot.coe_lt_coe.2 (WithTop.coe_lt_top _))).symm

/-- Numbers compare as their exact values do. -/
theorem order?_eq_compare {a b : Number} (ha : a.isNan = false) (hb : b.isNan = false) :
    a.order? b = some (compare a.value b.value) := by
  have hunit : (0 : Int) < Magnitude.unitsPerOne := Int.natCast_pos.2 Magnitude.unitsPerOne_pos
  cases a with
  | whole m =>
    cases b with
    | whole n =>
      show some (compare m n) = _
      congr 1
      refine compare_eq_of_lt_iff ?_ ?_
      all_goals
        show _ ↔ (((_ * _ : Int) : WithTop Int) : Line) < (((_ * _ : Int) : WithTop Int) : Line)
        rw [WithBot.coe_lt_coe, WithTop.coe_lt_coe, Int.mul_lt_mul_right hunit]
    | double y => exact compareInt_eq m hb
  | double x =>
    cases b with
    | whole n =>
      show (x.compareInt n).map Ordering.swap = _
      rw [compareInt_eq n ha, Option.map_some, ← Std.OrientedOrd.eq_swap]
      rfl
    | double y =>
      obtain ⟨p, hp⟩ := Binary64.exists_place ha
      obtain ⟨q, hq⟩ := Binary64.exists_place hb
      refine order?_doubles.2 ⟨p, q, hp, hq, ?_⟩
      exact compare_eq_of_lt_iff (Binary64.value_lt_iff hp hq).symm
        (Binary64.value_lt_iff hq hp).symm

end Number

end Storefront
