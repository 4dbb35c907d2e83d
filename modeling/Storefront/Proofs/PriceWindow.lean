import Mathlib.Algebra.Order.Floor.Semiring
import Mathlib.Data.Rat.Floor
import Storefront.Proofs.FullRecalls
import Storefront.Proofs.WrittenNumbers

/-!
# Prices close to a price

A recall by price asks for prices from seven to thirteen tenths of a price. The bounds are products
of the decimal that the price is written as, and are rounded to doubles once. Rounding keeps the order
of numbers, so no price whose decimal is within the exact bounds is lost. Where prices are in whole
cents no other price is gained: between two different thousandths there are doubles that keep them
apart.

* `priceWindow_eq`: the bounds are rounded from the exact products
* `Magnitude.ofRat_lt`: numbers that are far enough apart are not rounded to the same double
* `Binary64.ofRat_le`, `Binary64.lt_of_ofRat_le`: a double beside a rounded number
* `Store.MeetsPrice`: the condition of the recall by price
* `Store.price_window`: which products it recalls
-/

namespace Storefront

/-! ## The bounds -/

/-- A coefficient of few digits is not cut. -/
theorem Decimal.cut_eq_self {precision : Nat} {d : Decimal} (hprecision : 0 < precision)
    (h : d.coefficient < 10 ^ precision) : cut precision d = d := by
  have hdigits : digitCount d.coefficient ≤ precision :=
    (Nat.length_toDigits_le_iff (by decide) hprecision).2 h
  unfold cut
  dsimp only
  rw [Nat.sub_eq_zero_of_le hdigits, if_pos rfl]

/-- A price times tenths is the exact product of its decimal, rounded once. -/
theorem scalePrice_eq {m : Magnitude} (hfinite : m.isFinite = true) {tenths : Nat}
    (htenths : tenths ≤ 10 ^ 8) : scalePrice ⟨false, tenths, -1⟩ (.signed false m) =
      .signed false (.ofRat (tenths / 10 * (Binary64.signed false m).writtenValue)) := by
  obtain ⟨-, hfew⟩ := Magnitude.ofDecimal_shortest hfinite
  have hcoefficient : m.shortest.1 * tenths < 10 ^ pricePrecision :=
    calc m.shortest.1 * tenths ≤ m.shortest.1 * 10 ^ 8 := Nat.mul_le_mul_left _ htenths
      _ < 10 ^ 20 * 10 ^ 8 := Nat.mul_lt_mul_of_pos_right hfew (by decide)
  have hvalue : ((m.shortest.1 * tenths : Nat) : ℚ) * 10 ^ (m.shortest.2 + -1) =
      tenths / 10 * (Binary64.signed false m).writtenValue := by
    rw [Binary64.writtenValue_signed hfinite, zpow_add₀ (by norm_num), Nat.cast_mul, zpow_neg_one]
    simp only [Bool.false_eq_true, if_false]
    ring
  have hdecimal : (Binary64.signed false m).toDecimal? = some ⟨false, m.shortest.1, m.shortest.2⟩ :=
    if_pos hfinite
  unfold scalePrice
  rw [hdecimal]
  dsimp only
  rw [Decimal.scale, Decimal.cut_eq_self (by decide) hcoefficient, Decimal.toBinary64,
    Magnitude.ofDecimal_eq, hvalue]
  rfl

/-- The bounds are the exact products of the decimal, each rounded once. -/
theorem priceWindow_eq {m : Magnitude} (hfinite : m.isFinite = true) :
    priceWindow (.signed false m) =
      (.signed false (.ofRat (7 / 10 * (Binary64.signed false m).writtenValue)),
        .signed false (.ofRat (13 / 10 * (Binary64.signed false m).writtenValue))) := by
  unfold priceWindow
  rw [lowerFactor, upperFactor, scalePrice_eq hfinite (by decide), scalePrice_eq hfinite (by decide)]
  rfl

/-! ## Numbers between doubles -/

namespace Magnitude

/-- Different multiples of a small step are different magnitudes, up to 2^34. -/
theorem ofRat_div_lt {k l : Nat} (hkl : k < l) (hl : l ≤ 2 * Nat.pow 2 52) :
    (ofRat (k / 2 ^ 19)).index < (ofRat (l / 2 ^ 19)).index := by
  have hunits {k : Nat} (hk : k ≤ 2 * Nat.pow 2 52) : (ofRat (k / 2 ^ 19)).units = k * 2 ^ 1055 := by
    obtain ⟨m, hunits, -⟩ := exists_units_eq hk (show 1055 ≤ 2000 by decide)
    have hvalue : (k / 2 ^ 19 : ℚ) * unitsPerOne = m.units := by
      rw [grid_bounds.1, hunits, Nat.cast_mul, Nat.cast_pow, Nat.cast_pow, Nat.cast_ofNat,
        pow_add 2 19 1055]
      field_simp
    rw [ofRat, hvalue, nearestTo_units, hunits]
  rw [← strictMono_unitsAt.lt_iff_lt, ← units_eq_unitsAt, ← units_eq_unitsAt,
    hunits (Nat.le_trans (Nat.le_of_lt hkl) hl), hunits hl]
  exact Nat.mul_lt_mul_of_pos_right hkl (pow_pos Nat.two_pos _)

/-- Numbers that lie apart by two such steps or more are rounded to different magnitudes. -/
theorem ofRat_lt {x y : ℚ} (hx : 0 ≤ x) (hmost : x + 1 / 2 ^ 18 ≤ 2 ^ 34)
    (hgap : x + 1 / 2 ^ 18 ≤ y) : (ofRat x).index < (ofRat y).index := by
  -- two multiples of the step that follow the lower number
  have hfloor : (⌊x * 2 ^ 19⌋₊ : ℚ) ≤ x * 2 ^ 19 := Nat.floor_le (by positivity)
  have hnext : x * 2 ^ 19 < ⌊x * 2 ^ 19⌋₊ + 1 := Nat.lt_floor_add_one _
  generalize ⌊x * 2 ^ 19⌋₊ = k at *
  have hk : k + 2 ≤ 2 * Nat.pow 2 52 := by
    have hk : (k + 2 : ℚ) ≤ (2 * 2 ^ 52 : Nat) := by
      push_cast
      linarith
    exact_mod_cast hk
  have hlow : x ≤ (k + 1 : Nat) / 2 ^ 19 := by
    rw [le_div_iff₀ (by norm_num)]
    push_cast
    exact hnext.le
  have hhigh : ((k + 2 : Nat) / 2 ^ 19 : ℚ) ≤ y := by
    rw [div_le_iff₀ (by norm_num)]
    push_cast
    linarith
  calc (ofRat x).index ≤ (ofRat ((k + 1 : Nat) / 2 ^ 19)).index := ofRat_mono hx hlow
    _ < (ofRat ((k + 2 : Nat) / 2 ^ 19)).index := ofRat_div_lt (Nat.lt_succ_self _) hk
    _ ≤ (ofRat y).index := ofRat_mono (by positivity) hhigh

end Magnitude

namespace Binary64

/-! ## Doubles beside rounded numbers -/

theorem le_signed_false {m n : Magnitude} :
    (signed false m).le (signed false n) = true ↔ m.index ≤ n.index := by
  unfold le place
  dsimp only
  rw [decide_eq_true_eq]
  exact Int.ofNat_le

theorem exists_magnitude_of_pos {p : Binary64} (h : zero.lt p = true) :
    ∃ m, p = signed false m ∧ 0 < m.index := by
  obtain ⟨low, place, hlow, hplace, hlt⟩ := lt_eq_true.1 h
  cases hlow
  obtain _ | ⟨_ | _, m⟩ := p
  · cases hplace
  · cases hplace
    exact ⟨m, rfl, by exact_mod_cast hlt⟩
  · cases hplace
    have hneg : (0 : Int) < -(m.index : Int) := hlt
    omega

section WrittenValues

variable {m : Magnitude} (hfinite : m.isFinite = true)

include hfinite

/-- A double is rounded from the value of its text. -/
theorem ofRat_writtenValue : .ofRat (signed false m).writtenValue = m := by
  rw [writtenValue_signed hfinite, if_neg Bool.false_ne_true, one_mul, ← Magnitude.ofDecimal_eq]
  exact (Magnitude.ofDecimal_shortest hfinite).1

theorem writtenValue_false_nonneg : 0 ≤ (signed false m).writtenValue := by
  rw [writtenValue_signed hfinite, if_neg Bool.false_ne_true, one_mul]
  positivity

theorem writtenValue_true_nonpos : (signed true m).writtenValue ≤ 0 := by
  rw [writtenValue_signed hfinite, if_pos rfl, neg_one_mul, neg_nonpos]
  positivity

theorem writtenValue_pos (hpos : 0 < m.index) : 0 < (signed false m).writtenValue := by
  refine lt_of_le_of_ne (writtenValue_false_nonneg hfinite) fun hzero => ?_
  have hm := ofRat_writtenValue hfinite
  rw [← hzero, Magnitude.ofRat_eq_zero le_rfl (by rw [zero_mul]; norm_num)] at hm
  rw [← hm] at hpos
  exact absurd hpos (by decide)

end WrittenValues

variable {x : ℚ} {q : Binary64} (hfinite : q.isFinite = true)

include hfinite

/-- A number that is at most the value of a double is not rounded above the double. -/
theorem ofRat_le (hx : 0 < x) (h : x ≤ q.writtenValue) : (signed false (.ofRat x)).le q = true := by
  obtain _ | ⟨_ | _, m⟩ := q
  · cases hfinite
  · have hmono := Magnitude.ofRat_mono hx.le h
    rw [ofRat_writtenValue hfinite] at hmono
    exact le_signed_false.2 hmono
  · exact absurd (lt_of_lt_of_le hx h) (not_lt.2 (writtenValue_true_nonpos hfinite))

/-- A number that is at least the value of a double is not rounded below the double. -/
theorem le_ofRat (h : q.writtenValue ≤ x) : q.le (signed false (.ofRat x)) = true := by
  obtain _ | ⟨_ | _, m⟩ := q
  · cases hfinite
  · have hmono := Magnitude.ofRat_mono (writtenValue_false_nonneg hfinite) h
    rw [ofRat_writtenValue hfinite] at hmono
    exact le_signed_false.2 hmono
  · refine le_eq_true.2 ⟨_, _, rfl, rfl, ?_⟩
    omega

/-- A number that is not rounded above a double is hardly greater than the value of the double. -/
theorem lt_of_ofRat_le (hx : 1 / 2 ^ 18 ≤ x) (hmost : x ≤ 2 ^ 34)
    (h : (signed false (.ofRat x)).le q = true) : x < q.writtenValue + 1 / 2 ^ 18 := by
  by_contra hgap
  have hgap := not_lt.1 hgap
  obtain _ | ⟨_ | _, m⟩ := q
  · cases hfinite
  · have hlt := Magnitude.ofRat_lt (writtenValue_false_nonneg hfinite) (le_trans hgap hmost) hgap
    rw [ofRat_writtenValue hfinite] at hlt
    exact absurd (le_signed_false.1 h) (Nat.not_le_of_lt hlt)
  · -- a double that is not positive is not above a number that is rounded to a positive one
    rw [← zero_add (1 / 2 ^ 18)] at hx
    have hlt := Magnitude.ofRat_lt le_rfl (le_trans hx hmost) hx
    obtain ⟨_, _, hlow, hhigh, hle⟩ := le_eq_true.1 h
    cases hlow
    cases hhigh
    omega

/-- A number that is not rounded below a double is hardly less than the value of the double. -/
theorem lt_of_le_ofRat (hx : 0 ≤ x) (hmost : x + 1 / 2 ^ 18 ≤ 2 ^ 34)
    (h : q.le (signed false (.ofRat x)) = true) : q.writtenValue < x + 1 / 2 ^ 18 := by
  by_contra hgap
  have hgap := not_lt.1 hgap
  obtain _ | ⟨_ | _, m⟩ := q
  · cases hfinite
  · have hlt := Magnitude.ofRat_lt hx hmost hgap
    rw [ofRat_writtenValue hfinite] at hlt
    exact absurd (le_signed_false.1 h) (Nat.not_le_of_lt hlt)
  · have hneg := writtenValue_true_nonpos hfinite
    linarith

end Binary64

/-! ## The window -/

section Window

variable {p q : Binary64} (hp : p.isFinite = true) (hpositive : Binary64.zero.lt p = true)
  (hq : q.isFinite = true)

include hp hpositive

/-- A positive price is written as a positive number, whose products are the bounds. -/
theorem priceWindow_of_pos : 0 < p.writtenValue ∧
    priceWindow p = (.signed false (.ofRat (7 / 10 * p.writtenValue)),
      .signed false (.ofRat (13 / 10 * p.writtenValue))) := by
  obtain ⟨m, rfl, hpos⟩ := Binary64.exists_magnitude_of_pos hpositive
  exact ⟨Binary64.writtenValue_pos hp hpos, priceWindow_eq hp⟩

include hq

/-- No price whose decimal is within the exact bounds is lost. -/
theorem within_priceWindow (hlow : 7 * p.writtenValue ≤ 10 * q.writtenValue)
    (hhigh : 10 * q.writtenValue ≤ 13 * p.writtenValue) :
    (priceWindow p).1.le q = true ∧ q.le (priceWindow p).2 = true := by
  obtain ⟨hpos, hwindow⟩ := priceWindow_of_pos hp hpositive
  rw [hwindow]
  exact ⟨Binary64.ofRat_le hq (by linarith) (by linarith), Binary64.le_ofRat hq (by linarith)⟩

/-- Where prices are in whole cents, no price whose decimal is outside the exact bounds is gained. -/
theorem within_priceWindow_iff {cents cents' : Int} (hcents : p.writtenValue = cents / 100)
    (hcents' : q.writtenValue = cents' / 100) (hmost : cents < 10 ^ 12) :
    (priceWindow p).1.le q = true ∧ q.le (priceWindow p).2 = true ↔
      7 * cents ≤ 10 * cents' ∧ 10 * cents' ≤ 13 * cents := by
  obtain ⟨hpos, hwindow⟩ := priceWindow_of_pos hp hpositive
  have hleast : (1 : ℚ) ≤ cents := by
    have hpos : (0 : ℚ) < cents := by linarith
    exact_mod_cast hpos
  have hmost : (cents : ℚ) < 10 ^ 12 := by exact_mod_cast hmost
  constructor
  · rw [hwindow]
    rintro ⟨hlow, hhigh⟩
    have hlow := Binary64.lt_of_ofRat_le hq (by linarith) (by linarith) hlow
    have hhigh := Binary64.lt_of_le_ofRat hq (by linarith) (by linarith) hhigh
    rw [hcents, hcents'] at hlow hhigh
    have hlow : (7 * cents : ℚ) < 10 * cents' + 1 := by linarith
    have hhigh : (10 * cents' : ℚ) < 13 * cents + 1 := by linarith
    norm_cast at hlow hhigh
    omega
  · rintro ⟨hlow, hhigh⟩
    have hlow : (7 * cents : ℚ) ≤ 10 * cents' := by exact_mod_cast hlow
    have hhigh : (10 * cents' : ℚ) ≤ 13 * cents := by exact_mod_cast hhigh
    exact within_priceWindow hp hpositive hq (by linarith) (by linarith)

end Window

namespace Store

/-! ## The recall -/

/-- A row meets the condition on which products are recalled for a source by price. -/
def MeetsPrice (s : Store) (source : Product) (row : Row) : Prop :=
  ∃ p keys, Signal.price.search? source = some (p, keys) ∧
    p.holds s.table s.memberships row = true

variable {s : Store} {source : Product} {row : Row}

theorem meetsPrice_iff (hpositive : Binary64.zero.lt source.price = true) :
    s.MeetsPrice source row ↔ ∃ x, row.price = some x ∧
      (priceWindow source.price).1.le x = true ∧ x.le (priceWindow source.price).2 = true := by
  have hnonzero : source.price.isZero = false := by
    obtain ⟨m, hm, hpos⟩ := Binary64.exists_magnitude_of_pos hpositive
    rw [hm]
    exact beq_false_of_ne hpos.ne'
  rw [MeetsPrice, Signal.exists_search_iff]
  exact and_iff_right hnonzero

/-- A recall by price that admits every product has those that meet the condition, if these read
back. -/
theorem exists_recallBy_price {limit : Int} (hlimit : (s.productCount : Int) ≤ limit)
    (hrow : row ∈ s.table.rows) (hstock : row.inStock = true) (hother : row.id ≠ source.id)
    (hread : ∀ row, s.IsEligible .price source row → ∃ product, row.toProduct = .ok product) :
    ∃ rows, s.recallBy .none .price source (.int limit) = .ok rows ∧
      (row.id ∈ rows.map (·.product.id) ↔ s.MeetsPrice source row) := by
  obtain ⟨rows, hrows, hmem⟩ := exists_recallBy hlimit hread
  refine ⟨rows, hrows, ?_⟩
  rw [MeetsPrice, Signal.exists_search_iff]
  constructor
  · intro hid
    obtain ⟨m, hm, hid⟩ := List.mem_map.1 hid
    obtain ⟨found, hfound, hproduct, hmatches⟩ := matches_of_mem_recall hrows hm
    rwa [s.table.eq_of_id_eq hrow hfound (hid.symm.trans (Row.id_of_toProduct hproduct))]
  · intro hmatches
    have heligible : s.IsEligible .price source row := ⟨hrow, hstock, hother, hmatches⟩
    obtain ⟨product, hproduct⟩ := hread row heligible
    exact List.mem_map.2 ⟨_, (hmem row hrow product hproduct).2 heligible,
      Row.id_of_toProduct hproduct⟩

/-- The value that stands for a missing price is written as zero. -/
theorem writtenValue_zero : Binary64.zero.writtenValue = 0 := by
  have hshortest : Magnitude.zero.shortest = (0, 0) := if_pos rfl
  rw [Binary64.zero, Binary64.writtenValue_signed rfl, hshortest, Nat.cast_zero, zero_mul, mul_zero]

/-- A recall by price goes by the decimals that prices are written as. Every price from seven to
thirteen tenths of the price of the source meets its condition, and where prices below 10^10 are in
whole cents no other price does. A recall that admits every product has all that meet the condition in
stock, if these read back. A missing price counts as zero. -/
theorem price_window (s : Store) (source : Product) (row : Row)
    (hsource : source.price.isFinite = true) (hpositive : Binary64.zero.lt source.price = true)
    (hprice : (row.price.getD .zero).isFinite = true) :
    let p := source.price.writtenValue
    let q := (row.price.getD .zero).writtenValue
    (7 * p ≤ 10 * q ∧ 10 * q ≤ 13 * p → s.MeetsPrice source row) ∧
    (∀ cents cents' : Int, p = cents / 100 → q = cents' / 100 → cents < 10 ^ 12 →
      (s.MeetsPrice source row ↔ 7 * cents ≤ 10 * cents' ∧ 10 * cents' ≤ 13 * cents)) ∧
    ∀ limit : Int, (s.productCount : Int) ≤ limit → row ∈ s.table.rows → row.inStock = true →
      row.id ≠ source.id →
      (∀ row, s.IsEligible .price source row → ∃ product, row.toProduct = .ok product) →
      ∃ rows, s.recallBy .none .price source (.int limit) = .ok rows ∧
        (row.id ∈ rows.map (·.product.id) ↔ s.MeetsPrice source row) := by
  obtain ⟨hpos, -⟩ := priceWindow_of_pos hsource hpositive
  refine ⟨fun ⟨hlow, hhigh⟩ => ?_, fun cents cents' hcents hcents' hmost => ?_,
    fun limit hlimit hrow hstock hother hread =>
      exists_recallBy_price hlimit hrow hstock hother hread⟩
  all_goals rw [meetsPrice_iff hpositive]
  · cases hx : row.price with
    | none =>
      rw [hx, Option.getD_none, writtenValue_zero] at hlow
      linarith
    | some x =>
      rw [hx] at hprice hlow hhigh
      exact ⟨x, rfl, within_priceWindow hsource hpositive hprice hlow hhigh⟩
  · cases hx : row.price with
    | none =>
      rw [hx, Option.getD_none, writtenValue_zero] at hcents'
      refine iff_of_false (fun ⟨x, hsome, _⟩ => nomatch hsome) fun ⟨hlow, _⟩ => ?_
      have hlow : (7 * cents : ℚ) ≤ 10 * cents' := by exact_mod_cast hlow
      linarith
    | some x =>
      rw [hx] at hprice hcents'
      rw [← within_priceWindow_iff hsource hpositive hprice hcents hcents' hmost]
      exact ⟨fun ⟨y, hy, hwithin⟩ => Option.some.inj hy ▸ hwithin,
        fun hwithin => ⟨x, rfl, hwithin⟩⟩

end Store

/-- Lamps for 69.99 and for 70. -/
def Table.priced : Table where
  rows := [{ id := 2, price := some (Decimal.toBinary64 ⟨false, 6999, -2⟩) },
    { id := 3, price := some (.ofNat 70) }]
  ascending := by simp
  normal := by
    refine ⟨none, fun row hrow => ?_⟩
    simp only [List.mem_cons, List.not_mem_nil, or_false] at hrow
    rcases hrow with rfl | rfl
    all_goals exact ⟨rfl, fun column => by cases column <;> rfl, fun m hm => nomatch hm⟩

namespace Store

/-- The store of these lamps, without collections. -/
def priced : Store := .ofParts Table.priced [] .empty

theorem writtenValue_priced : (Binary64.ofNat 100).writtenValue = 100 ∧
    (Binary64.ofNat 70).writtenValue = 70 ∧
      (Decimal.toBinary64 ⟨false, 6999, -2⟩).writtenValue = 6999 / 100 := by
  refine ⟨?_, ?_, ?_⟩
  · have htext : exactDecimal? (Binary64.ofNat 100).text = some ⟨false, 1000, -1⟩ := by
      decide +kernel
    rw [Binary64.writtenValue_eq htext]
    norm_num [Decimal.value]
  · have htext : exactDecimal? (Binary64.ofNat 70).text = some ⟨false, 700, -1⟩ := by
      decide +kernel
    rw [Binary64.writtenValue_eq htext]
    norm_num [Decimal.value]
  · have htext : exactDecimal? (Decimal.toBinary64 ⟨false, 6999, -2⟩).text =
        some ⟨false, 6999, -2⟩ := by
      decide +kernel
    rw [Binary64.writtenValue_eq htext]
    norm_num [Decimal.value]

/-- For a price of 100 the lamp at the lower bound is recalled, and the one a cent below it is not. -/
theorem price_window_boundary :
    ∃ rows, priced.recallBy .none .price { id := 1, price := .ofNat 100 } (.int 2) = .ok rows ∧
      3 ∈ rows.map (·.product.id) ∧ 2 ∉ rows.map (·.product.id) := by
  obtain ⟨hsource, hbound, hbelow⟩ := writtenValue_priced
  have hread : ∀ row, priced.IsEligible .price { id := 1, price := .ofNat 100 } row →
      ∃ product, row.toProduct = .ok product := by
    intro row heligible
    have hall : ∀ row ∈ priced.table.rows,
        row.toProduct.toOption.map (·.id) = some row.id := by decide +kernel
    obtain ⟨product, hproduct, -⟩ :=
      exists_of_toOption_map_eq_some (hall row heligible.stored)
    exact ⟨product, hproduct⟩
  obtain ⟨hmeets, -, hrecall⟩ := price_window priced { id := 1, price := .ofNat 100 }
    { id := 3, price := some (.ofNat 70) }
    (by decide +kernel) (by decide +kernel) (by decide +kernel)
  obtain ⟨-, hmeets', hrecall'⟩ := price_window priced { id := 1, price := .ofNat 100 }
    { id := 2, price := some (Decimal.toBinary64 ⟨false, 6999, -2⟩) }
    (by decide +kernel) (by decide +kernel) (by decide +kernel)
  obtain ⟨rows, hrows, hmem⟩ := hrecall 2 (by decide)
    (List.mem_cons_of_mem _ List.mem_cons_self) rfl (by decide) hread
  obtain ⟨rows', hrows', hmem'⟩ := hrecall' 2 (by decide) List.mem_cons_self rfl (by decide) hread
  cases hrows.symm.trans hrows'
  refine ⟨rows, hrows, hmem.2 (hmeets ?_), fun hid => ?_⟩
  · dsimp only [Option.getD_some]
    rw [hsource, hbound]
    norm_num
  · have hsource : (Binary64.ofNat 100).writtenValue = (10000 : Int) / 100 := by
      rw [hsource]
      norm_num
    have hcents := (hmeets' 10000 6999 hsource hbelow (by decide)).1 (hmem'.1 hid)
    exact absurd hcents (by decide)

end Store

/-- Two lamps for 10, the second of which has a rating that no product may have. -/
def Table.overrated : Table where
  rows := [{ id := 2, price := some (.ofNat 10) },
    { id := 3, price := some (.ofNat 10), rating := some (.ofNat 9) }]
  ascending := by simp
  normal := by
    refine ⟨none, fun row hrow => ?_⟩
    simp only [List.mem_cons, List.not_mem_nil, or_false] at hrow
    rcases hrow with rfl | rfl
    all_goals exact ⟨rfl, fun column => by cases column <;> rfl, fun m hm => nomatch hm⟩

namespace Store

/-- The store of these lamps, without collections. -/
def overrated : Store := .ofParts Table.overrated [] .empty

/-- A product whose price is in the window need not be recalled: the recall fails when another row in
the window does not read back. -/
theorem not_forall_price_recalled :
    ¬∀ (s : Store) (source : Product) (row : Row) (product : Product) (limit : Int),
      source.price.isFinite = true → Binary64.zero.lt source.price = true → row ∈ s.table.rows →
      row.toProduct = .ok product → product.inStock = true → product.id ≠ source.id →
      product.price.isFinite = true →
      7 * source.price.writtenValue ≤ 10 * product.price.writtenValue →
      10 * product.price.writtenValue ≤ 13 * source.price.writtenValue →
      (s.productCount : Int) ≤ limit →
      ∃ rows, s.recallBy .none .price source (.int limit) = .ok rows ∧
        product ∈ rows.map (·.product) := by
  intro h
  have hvalue : (Row.toProduct { id := 2, price := some (.ofNat 10) }).toOption.map
      (fun p => (p.inStock, p.id, p.price)) = some (true, 2, .ofNat 10) := by decide +kernel
  obtain ⟨product, hproduct, hfields⟩ := exists_of_toOption_map_eq_some hvalue
  rw [Prod.mk.injEq, Prod.mk.injEq] at hfields
  obtain ⟨hstock, hid, hprice⟩ := hfields
  have hfails : (overrated.recallBy .none .price { id := 1, price := .ofNat 10 }
      (.int 2)).toOption.isNone = true := by decide +kernel
  have hpositive : Binary64.zero.lt (.ofNat 10) = true := by decide +kernel
  have hpos := (priceWindow_of_pos (by decide +kernel) hpositive).1
  obtain ⟨rows, hrows, -⟩ := h overrated { id := 1, price := .ofNat 10 } _ product 2
    (by decide +kernel) hpositive List.mem_cons_self hproduct hstock (hid ▸ by decide)
    (hprice ▸ by decide +kernel) (by rw [hprice]; linarith) (by rw [hprice]; linarith) (by decide)
  rw [hrows] at hfails
  cases hfails

end Store

end Storefront
