import Mathlib.Order.Bounds.Basic
import Storefront.Proofs.Mixing
import Storefront.Proofs.Rounding

/-!
# Shares of a limit

Three streams share a limit, and the share of each is to be the least number of products with which
they fill it: a third of the limit, rounded up. The third is taken as a double. Up to 3 · 2^52 that
makes no difference, since doubles of that size have halves. Beyond, the third is rounded to a whole
number with 53 binary digits before it could be rounded up, so that the share is the nearest such
number, which can be too small or too great; and from a certain limit on there is none.

* `Limit.Fills`, `Limit.IsShare`: streams that fill a limit, and a third of it rounded up
* `IsShort`: whole numbers of at most 53 binary digits, zeros at the end apart
* `Limit.tooGreat`, `Limit.isFinite_third_iff`: from which limit on the third is not finite
* `Limit.natAbs_sub_thirdUnits_le`: no double is nearer to a third than the one it is rounded to
* `Limit.quota_of_le`: shares of limits up to 3 · 2^52
* `Limit.exists_quota_of_gt`, `Limit.isNearest_of_thirdUnits_eq`: shares of greater limits
* `Limit.quota_shares`: the share of every limit
-/

namespace Storefront

/-! ## Filling a limit -/

theorem length_flatten_of_forall_length_eq {α : Type} {xss : List (List α)} {count : Nat}
    (h : ∀ xs ∈ xss, xs.length = count) : xss.flatten.length = xss.length * count := by
  induction xss with
  | nil => simp
  | cons xs xss ih =>
    simp only [List.forall_mem_cons] at h
    rw [List.flatten_cons, List.length_append, ih h.2, h.1, List.length_cons, Nat.succ_mul,
      Nat.add_comm]

namespace Limit

/-- However three streams of so many products are made, all products being different, mixing them
gives as many products as the limit asks for. -/
def Fills (limit : Int) (count : Nat) : Prop :=
  ∀ streams : List (List Product), streams.length = shares →
    (∀ stream ∈ streams, stream.length = count) → (streams.flatten.map (·.id)).Nodup →
      ∃ products, mix streams (.int limit) = .ok products ∧ products.length = limit.toNat

/-- A number is a third of a limit, rounded up. -/
def IsShare (limit q : Int) : Prop := 3 * (q - 1) < limit ∧ limit ≤ 3 * q

/-- A product that has nothing but a number. -/
def numbered (n : Nat) : Product := { id := (n : Int) }

/-- Three streams of different products. -/
def numberedStreams (count : Nat) : List (List Product) :=
  [(List.range' 0 count).map numbered, (List.range' count count).map numbered,
    (List.range' (count + count) count).map numbered]

theorem flatten_numberedStreams (count : Nat) :
    (numberedStreams count).flatten = (List.range' 0 (count + (count + count))).map numbered := by
  have hjoined : List.range' 0 count ++ (List.range' count count ++
      List.range' (count + count) count) = List.range' 0 (count + (count + count)) := by
    rw [List.range'_append_1, ← List.range'_append_1 (s := 0), Nat.zero_add]
  rw [← hjoined, List.map_append, List.map_append]
  simp [numberedStreams]

theorem nodup_numberedStreams (count : Nat) :
    ((numberedStreams count).flatten.map (·.id)).Nodup := by
  rw [flatten_numberedStreams, List.map_map]
  exact List.Nodup.map Nat.cast_injective List.nodup_range'

theorem exists_mix_of_nodup {streams : List (List Product)}
    (h : (streams.flatten.map (·.id)).Nodup) (limit : Int) :
    ∃ products, mix streams (.int limit) = .ok products ∧
      products.length = min limit.toNat streams.flatten.length := by
  refine ⟨_, mix_int streams limit, ?_⟩
  rw [firstsBy_of_nodup h, List.length_take]

/-- Three streams fill a limit if and only if together they have as many products. -/
theorem fills_iff {limit : Int} {count : Nat} : Fills limit count ↔ limit ≤ 3 * count := by
  constructor
  · intro h
    have hnodup := nodup_numberedStreams count
    obtain ⟨products, hproducts, hlength⟩ :=
      h (numberedStreams count) rfl (by simp [numberedStreams]) hnodup
    obtain ⟨others, hothers, hcount⟩ := exists_mix_of_nodup hnodup limit
    cases hproducts.symm.trans hothers
    rw [flatten_numberedStreams, List.length_map, List.length_range'] at hcount
    omega
  · intro h streams hshares hlengths hnodup
    obtain ⟨products, hproducts, hlength⟩ := exists_mix_of_nodup hnodup limit
    refine ⟨products, hproducts, ?_⟩
    rw [length_flatten_of_forall_length_eq hlengths, hshares] at hlength
    unfold shares at hlength
    omega

/-- The third of a limit, rounded up, is the least number with which streams fill the limit. -/
theorem isLeast_fills_iff {limit : Int} {q : Nat} (h : 0 < limit) :
    IsLeast {count | Fills limit count} q ↔ IsShare limit q := by
  simp only [IsLeast, lowerBounds, Set.mem_ofPred_eq, fills_iff, IsShare]
  constructor
  · rintro ⟨hfills, hleast⟩
    have hbelow : ¬limit ≤ 3 * ((q - 1 : Nat) : Int) := by
      intro hle
      have := hleast hle
      omega
    omega
  · rintro ⟨hbelow, hfills⟩
    refine ⟨hfills, fun count hcount => ?_⟩
    omega

end Limit

/-! ## Numbers of few digits -/

/-- A whole number has at most 53 binary digits, zeros at its end apart. -/
def IsShort (n : Nat) : Prop := ∃ digits zeros, digits < 2 ^ 53 ∧ n = digits * 2 ^ zeros

theorem isShort_of_le {n : Nat} (h : n ≤ 2 ^ 53) : IsShort n := by
  rcases Nat.lt_or_eq_of_le h with hlt | rfl
  · exact ⟨n, 0, hlt, (Nat.mul_one n).symm⟩
  · exact ⟨1, 53, by decide, (Nat.one_mul _).symm⟩

theorem even_of_isShort {n : Nat} (h : IsShort n) (hn : 2 ^ 53 < n) : n % 2 = 0 := by
  obtain ⟨digits, zeros, hdigits, rfl⟩ := h
  cases zeros with
  | zero => omega
  | succ zeros => rw [Nat.pow_succ, ← Nat.mul_assoc, Nat.mul_mod_left]

namespace Magnitude

/-- The short numbers are the whole numbers on the grid. -/
theorem isShort_iff {n : Nat} : IsShort n ↔ ∃ index, unitsAt index = n * unitsPerOne := by
  constructor
  · rintro ⟨digits, zeros, hdigits, rfl⟩
    obtain ⟨index, hindex⟩ := exists_unitsAt_eq (Nat.le_of_lt hdigits) (zeros + 1074)
    refine ⟨index, hindex.trans ?_⟩
    rw [grid_bounds.1, Nat.mul_assoc, ← Nat.pow_add]
    rfl
  · rintro ⟨index, hindex⟩
    obtain ⟨binade, digits, rfl, hmost, hleast⟩ := exists_binade index
    rw [unitsAt_binade (Nat.le_of_lt hmost) hleast] at hindex
    have hunit := unitsPerOne_pos
    rw [grid_bounds.1] at hindex hunit
    rcases Nat.le_total 1074 binade with hge | hle
    · refine ⟨digits, binade - 1074, hmost, Nat.eq_of_mul_eq_mul_right hunit ?_⟩
      rw [← hindex, Nat.mul_assoc, ← Nat.pow_add, Nat.sub_add_cancel hge]
      rfl
    · have hsplit : 2 ^ 1074 = 2 ^ (1074 - binade) * 2 ^ binade := by
        rw [← Nat.pow_add, Nat.sub_add_cancel hle]
      rw [hsplit, ← Nat.mul_assoc] at hindex
      have hdigits := Nat.eq_of_mul_eq_mul_right (two_pow_pos binade) hindex
      have hfew : n ≤ digits := by
        rw [hdigits]
        exact Nat.le_mul_of_pos_right n (Nat.two_pow_pos _)
      exact isShort_of_le (Nat.le_trans hfew (Nat.le_of_lt hmost))

/-- A number that is rounded to a finite magnitude is no nearer to any place of the grid, those beyond
infinity included. -/
theorem abs_sub_nearestTo_le_of_isFinite {x : ℚ} (hx : 0 ≤ x) (h : (nearestTo x).isFinite = true)
    (index : Nat) : |x - (nearestTo x).units| ≤ |x - unitsAt index| := by
  rcases Nat.le_total index finiteMagnitudes with hle | hge
  · exact abs_sub_nearestTo_le hx hle
  · have hbelow : x < unitsAt finiteMagnitudes := by
      have htop : infinity.index = finiteMagnitudes := Nat.min_self _
      rw [← htop, ← units_eq_unitsAt]
      by_contra hnot
      have hmono := nearestTo_mono (Nat.cast_nonneg _) (not_lt.1 hnot)
      rw [nearestTo_units, htop] at hmono
      exact absurd (of_decide_eq_true h) (Nat.not_lt.2 hmono)
    have hbeyond : (unitsAt finiteMagnitudes : ℚ) ≤ unitsAt index :=
      Nat.cast_le.2 (strictMono_unitsAt.monotone hge)
    refine le_trans (abs_sub_nearestTo_le hx (Nat.le_refl _)) ?_
    rw [abs_sub_comm, abs_sub_comm x, abs_of_pos (by linarith), abs_of_pos (by linarith)]
    linarith

/-- The same without fractions. -/
theorem natAbs_sub_nearestUnits_le {num den : Nat} (hden : 0 < den)
    (h : (nearestUnits num den).isFinite = true) (index : Nat) :
    ((num : Int) - den * (nearestUnits num den).units).natAbs ≤
      ((num : Int) - den * unitsAt index).natAbs := by
  have hpos : (0 : ℚ) < den := Nat.cast_pos.2 hden
  have hscale (k : Nat) : |(num - den * k : ℚ)| = den * |(num / den : ℚ) - k| := by
    rw [← abs_of_pos hpos, ← abs_mul, abs_of_pos hpos, mul_sub, mul_div_cancel₀ _ hpos.ne']
  have hnearest : |(num / den : ℚ) - (nearestUnits num den).units| ≤
      |(num / den : ℚ) - unitsAt index| := by
    rw [nearestUnits_eq_nearestTo num hden] at h ⊢
    exact abs_sub_nearestTo_le_of_isFinite (by positivity) h index
  have hscaled : |(num - den * (nearestUnits num den).units : ℚ)| ≤
      |(num - den * unitsAt index : ℚ)| := by
    rw [hscale, hscale]
    exact mul_le_mul_of_nonneg_left hnearest hpos.le
  zify
  exact_mod_cast hscaled

end Magnitude

/-- Rounded up, a double gives the whole number at which it is, or below which it is by less than one. -/
theorem Binary64.ceil?_eq {m : Magnitude} {q : Nat} (h : m.isFinite = true)
    (hbelow : q * Magnitude.unitsPerOne < m.units + Magnitude.unitsPerOne)
    (habove : m.units ≤ q * Magnitude.unitsPerOne) :
    (Binary64.signed false m).ceil? = some (q : Int) := by
  have hpos : (0 : Int) < Magnitude.unitsPerOne := Int.natCast_pos.2 Magnitude.unitsPerOne_pos
  have hfinite : (Binary64.signed false m).isFinite = true := h
  have hfloor : -(m.units : Int) / Magnitude.unitsPerOne = -q := by
    zify at hbelow habove
    apply Int.le_antisymm
    · apply Int.le_of_lt_add_one
      rw [Int.ediv_lt_iff_lt_mul hpos]
      linarith
    · rw [Int.le_ediv_iff_mul_le hpos]
      linarith
  unfold Binary64.ceil?
  rw [if_pos hfinite]
  show some (-(-(m.units : Int) / Magnitude.unitsPerOne)) = some (q : Int)
  rw [hfloor, Int.neg_neg]

/-! ## Thirds -/

namespace Limit

/-- The least limit whose third is beyond the finite doubles. -/
def tooGreat : Nat := 3 * (2 ^ 1024 - 2 ^ 970)

theorem isFinite_third_iff {n : Nat} :
    (Magnitude.nearest n shares).isFinite = true ↔ n < tooGreat := by
  have hmono {k m : Nat} (h : k ≤ m) :
      (Magnitude.nearest k shares).index ≤ (Magnitude.nearest m shares).index := by
    rw [Magnitude.nearest_eq_ofRat k (by decide), Magnitude.nearest_eq_ofRat m (by decide)]
    exact Magnitude.ofRat_mono (by positivity) (by gcongr)
  have hlast : (Magnitude.nearest (tooGreat - 1) shares).isFinite = true := by decide +kernel
  have hfirst : (Magnitude.nearest tooGreat shares).isFinite = false := by decide +kernel
  unfold Magnitude.isFinite at *
  simp only [decide_eq_true_eq, decide_eq_false_iff_not] at *
  generalize tooGreat = limit at *
  constructor
  · intro h
    by_contra hnot
    exact hfirst (Nat.lt_of_le_of_lt (hmono (Nat.not_lt.1 hnot)) h)
  · intro h
    exact Nat.lt_of_le_of_lt (hmono (Nat.le_sub_one_of_lt h)) hlast

/-- The number of units that a third is rounded to. -/
def thirdUnits (n : Nat) : Nat := (Magnitude.nearest n shares).units

/-- No double is nearer to the third of a number than the one that it is rounded to. -/
theorem natAbs_sub_thirdUnits_le {n : Nat} (h : n < tooGreat) (index : Nat) :
    ((n * Magnitude.unitsPerOne : Nat) - 3 * (thirdUnits n) : Int).natAbs ≤
      ((n * Magnitude.unitsPerOne : Nat) - 3 * Magnitude.unitsAt index : Int).natAbs :=
  Magnitude.natAbs_sub_nearestUnits_le (by decide) (isFinite_third_iff.2 h) index

theorem isNone_natCast {n : Nat} (h : 0 < n) : isNone (.int n) = .ok false := by
  rw [isNone_int, decide_eq_false (by omega)]

/-- The share of a limit that is not too great is the whole number at which its rounded third is, or
below which it is by less than one. -/
theorem quota_eq_ok {n q : Nat} (hn : 0 < n) (h : n < tooGreat)
    (hbelow : q * Magnitude.unitsPerOne < thirdUnits n + Magnitude.unitsPerOne)
    (habove : thirdUnits n ≤ q * Magnitude.unitsPerOne) : quota (.int n) = .ok (q : Int) := by
  have hfinite := isFinite_third_iff.2 h
  refine bind_eq_ok.2 ⟨false, isNone_natCast hn, ?_⟩
  refine bind_eq_ok.2 ⟨.signed false (.nearest n shares), ?_, ?_⟩
  · rw [third_of_nonneg (Int.natCast_nonneg n), Int.natAbs_natCast, if_pos hfinite]
  · rw [Binary64.ceil?_eq hfinite hbelow habove]
    rfl

theorem quota_eq_overflow {n : Nat} (hn : 0 < n) (h : tooGreat ≤ n) :
    quota (.int n) = .error .overflow := by
  have hinfinite : ¬(Magnitude.nearest n shares).isFinite = true := fun hfinite =>
    Nat.not_lt.2 h (isFinite_third_iff.1 hfinite)
  refine bind_eq_error.2 (.inr ⟨false, isNone_natCast hn, bind_eq_error.2 (.inl ?_)⟩)
  rw [third_of_nonneg (Int.natCast_nonneg n), Int.natAbs_natCast, if_neg hinfinite]

/-! ## Small limits -/

theorem lt_tooGreat {n : Nat} (h : n ≤ 3 * 2 ^ 53) : n < tooGreat :=
  Nat.lt_of_le_of_lt h (by decide +kernel)

/-- Halves of numbers of at most 53 binary digits stand on the grid. -/
theorem exists_half : ∃ half, 0 < half ∧ Magnitude.unitsPerOne = 2 * half ∧
    ∀ k ≤ 2 ^ 53, ∃ index, Magnitude.unitsAt index = k * half := by
  obtain ⟨shift, hshift⟩ : ∃ shift, Magnitude.unitsPerOne = 2 * Nat.pow 2 shift :=
    ⟨1073, by decide +kernel⟩
  exact ⟨_, Magnitude.two_pow_pos shift, hshift, fun _ hk => Magnitude.exists_unitsAt_eq hk shift⟩

/-- Up to 3 · 2^52 the third of a limit is rounded to a double between the same whole numbers, because
halves are doubles there. -/
theorem quota_of_le {n q : Nat} (hn : 0 < n) (h : n ≤ 3 * 2 ^ 52) (hq : IsShare n q) :
    quota (.int n) = .ok (q : Int) := by
  have hlimit : n < tooGreat := lt_tooGreat (by omega)
  obtain ⟨hbelow, habove⟩ := hq
  obtain ⟨half, hpos, hone, hgrid⟩ := exists_half
  -- the double that is the share, and the one that is less by a half
  obtain ⟨high, hhigh⟩ := hgrid (2 * q) (by omega)
  obtain ⟨low, hlow⟩ := hgrid (2 * q - 1) (by omega)
  have hnearHigh := natAbs_sub_thirdUnits_le hlimit high
  have hnearLow := natAbs_sub_thirdUnits_le hlimit low
  have hdouble : 2 * q * half = q * (2 * half) := by rw [Nat.mul_comm 2 q, Nat.mul_assoc]
  rw [hhigh, hone, hdouble] at hnearHigh
  rw [hlow, hone, Nat.sub_mul, hdouble, Nat.one_mul] at hnearLow
  have hunits : q * (2 * half) < thirdUnits n + 2 * half ∧ thirdUnits n ≤ q * (2 * half) := by
    obtain ⟨rest, hrest, hfew⟩ : ∃ rest, n + rest = 3 * q ∧ (rest = 0 ∨ rest = 1 ∨ rest = 2) :=
      ⟨3 * q - n, by omega, by omega⟩
    have hwhole : n * (2 * half) + rest * (2 * half) = 3 * (q * (2 * half)) := by
      rw [← Nat.add_mul, hrest, Nat.mul_assoc]
    generalize thirdUnits n = units at *
    generalize q * (2 * half) = share at *
    generalize n * (2 * half) = whole at *
    rcases hfew with rfl | rfl | rfl <;> omega
  rw [← hone] at hunits
  exact quota_eq_ok hn hlimit hunits.1 hunits.2

/-! ## Great limits -/

/-- A third that is more than 2^52 times a power of two is rounded to a multiple of that power. -/
theorem exists_thirdUnits_eq {n zeros : Nat} (h : 3 * (2 ^ 52 * 2 ^ zeros) < n)
    (hlimit : n < tooGreat) : ∃ k, thirdUnits n = k * 2 ^ zeros * Magnitude.unitsPerOne := by
  obtain ⟨shift, hshift⟩ : ∃ shift, Magnitude.unitsPerOne = 2 ^ shift :=
    ⟨1074, Magnitude.grid_bounds.1⟩
  have hpower (k : Nat) :
      k * Nat.pow 2 (zeros + shift) = k * 2 ^ zeros * Magnitude.unitsPerOne := by
    rw [hshift, Nat.mul_assoc]
    exact congrArg (k * ·) (Nat.pow_add 2 zeros shift)
  obtain ⟨index, hindex⟩ := Magnitude.exists_unitsAt_eq
    (show 2 ^ 52 ≤ 2 * Nat.pow 2 52 by decide) (zeros + shift)
  rcases Magnitude.unitsAt_multiple_or_lt (Magnitude.nearest n shares).index (zeros + shift)
    with ⟨k, hk⟩ | hless
  · exact ⟨k, hk.trans (hpower k)⟩
  · -- the double of that size is nearer than all those below
    have hnearest := natAbs_sub_thirdUnits_le hlimit index
    have hless : thirdUnits n < _ := Nat.lt_of_lt_of_eq hless (hpower (2 ^ 52))
    have hwhole := Nat.mul_lt_mul_of_pos_right h Magnitude.unitsPerOne_pos
    rw [hindex, hpower (2 ^ 52)] at hnearest
    rw [Nat.mul_assoc 3] at hwhole
    generalize 2 ^ 52 * 2 ^ zeros * Magnitude.unitsPerOne = least at hnearest hless hwhole
    generalize n * Magnitude.unitsPerOne = whole at hnearest hwhole
    generalize thirdUnits n = units at hnearest hless
    omega

/-- The share of a limit beyond 3 · 2^52 is the double that its third is rounded to. -/
theorem exists_quota_of_gt {n : Nat} (h : 3 * 2 ^ 52 < n) (hlimit : n < tooGreat) :
    ∃ q : Nat, quota (.int n) = .ok (q : Int) ∧ thirdUnits n = q * Magnitude.unitsPerOne := by
  obtain ⟨q, hq⟩ := exists_thirdUnits_eq (show 3 * (2 ^ 52 * 2 ^ 0) < n from h) hlimit
  rw [Nat.pow_zero, Nat.mul_one] at hq
  have hone := Magnitude.unitsPerOne_pos
  exact ⟨q, quota_eq_ok (by omega) hlimit (by omega) (Nat.le_of_eq hq), hq⟩

/-- A short number is the nearest to the third of a limit. -/
structure IsNearest (limit : Int) (q : Nat) : Prop where
  isShort : IsShort q
  natAbs_sub_le : ∀ k, IsShort k → (limit - 3 * q).natAbs ≤ (limit - 3 * k).natAbs

theorem isNearest_of_thirdUnits_eq {n q : Nat} (hlimit : n < tooGreat)
    (h : thirdUnits n = q * Magnitude.unitsPerOne) : IsNearest n q := by
  refine ⟨Magnitude.isShort_iff.2 ⟨_, h⟩, fun k hk => ?_⟩
  obtain ⟨index, hindex⟩ := Magnitude.isShort_iff.1 hk
  have hnearest := natAbs_sub_thirdUnits_le hlimit index
  have hscale (k : Nat) : ((n * Magnitude.unitsPerOne : Nat) -
      3 * (k * Magnitude.unitsPerOne : Nat) : Int) = (n - 3 * k : Int) * Magnitude.unitsPerOne := by
    push_cast
    ring
  rw [h, hindex, hscale, hscale, Int.natAbs_mul, Int.natAbs_mul, Int.natAbs_natCast] at hnearest
  exact Nat.le_of_mul_le_mul_right hnearest Magnitude.unitsPerOne_pos

/-- Up to 3 · 2^53, where all whole numbers are short, the nearest to a third is the third rounded up
unless the whole number below is nearer. -/
theorem IsNearest.isShare_iff_of_le {n q : Nat} (h : IsNearest n q) (hle : n ≤ 3 * 2 ^ 53) :
    IsShare n q ↔ n % 3 ≠ 1 := by
  have hlow := h.natAbs_sub_le (n / 3) (isShort_of_le (by omega))
  have hhigh := h.natAbs_sub_le ((n + 2) / 3) (isShort_of_le (by omega))
  unfold IsShare
  omega

/-- Beyond 3 · 2^53 it is the third rounded up if and only if that is short. -/
theorem isShare_iff_of_gt {n q : Nat} (h : 3 * 2 ^ 53 < n) (hlimit : n < tooGreat)
    (hq : thirdUnits n = q * Magnitude.unitsPerOne) :
    IsShare n q ↔ ∃ c : Nat, IsShare n c ∧ IsShort c := by
  have hnearest := isNearest_of_thirdUnits_eq hlimit hq
  constructor
  · intro hshare
    exact ⟨q, hshare, hnearest.isShort⟩
  · rintro ⟨c, hshare, hshort⟩
    -- both are even, so that they cannot lie one apart
    obtain ⟨k, hk⟩ := exists_thirdUnits_eq (show 3 * (2 ^ 52 * 2 ^ 1) < n by omega) hlimit
    have hdouble := Nat.eq_of_mul_eq_mul_right Magnitude.unitsPerOne_pos (hq.symm.trans hk)
    have heven := even_of_isShort hshort (by unfold IsShare at hshare; omega)
    have hclose := hnearest.natAbs_sub_le c hshort
    unfold IsShare at hshare ⊢
    omega

/-! ## All limits -/

/-- The third of a limit, rounded up, is the least number with which streams fill the limit. Up to
3 · 2^52 the share is that number. Beyond, as long as the third is a finite double, the share is the
short number that is nearest to the third: up to 3 · 2^53 that is the third rounded up unless the
limit is one more than a multiple of three, and after that only if the third rounded up is short.
A limit that is greater still has no share. -/
theorem quota_shares {limit : Int} (h : 0 < limit) :
    (∀ q : Nat, IsLeast {count | Fills limit count} q ↔ IsShare limit q) ∧
    (limit ≤ 3 * 2 ^ 52 → ∃ q : Nat, quota (.int limit) = .ok (q : Int) ∧ IsShare limit q) ∧
    (3 * 2 ^ 52 < limit → limit < tooGreat → ∃ q : Nat, quota (.int limit) = .ok (q : Int) ∧
      IsNearest limit q ∧ (limit ≤ 3 * 2 ^ 53 → (IsShare limit q ↔ limit % 3 ≠ 1)) ∧
      (3 * 2 ^ 53 < limit → (IsShare limit q ↔ ∃ c : Nat, IsShare limit c ∧ IsShort c))) ∧
    (tooGreat ≤ limit → quota (.int limit) = .error .overflow) := by
  obtain ⟨n, rfl⟩ := Int.eq_ofNat_of_zero_le (Int.le_of_lt h)
  have hn : 0 < n := Int.natCast_pos.1 h
  refine ⟨fun q => isLeast_fills_iff h, fun hle => ?_, fun hgt hlimit => ?_, fun hgreat => ?_⟩
  · have hshare : IsShare n ((n + 2) / 3 : Nat) := by
      unfold IsShare
      omega
    exact ⟨_, quota_of_le hn (by omega) hshare, hshare⟩
  · have hlimit : n < tooGreat := Int.ofNat_lt.1 hlimit
    obtain ⟨q, hquota, hq⟩ := exists_quota_of_gt (by omega) hlimit
    have hnearest := isNearest_of_thirdUnits_eq hlimit hq
    refine ⟨q, hquota, hnearest, fun hle => ?_, fun hgt => ?_⟩
    · rw [hnearest.isShare_iff_of_le (by omega)]
      omega
    · exact isShare_iff_of_gt (by omega) hlimit hq
  · exact quota_eq_overflow hn (Int.ofNat_le.1 hgreat)

/-- Two more than 3 · 2^52 are still given the exact share. -/
theorem quota_shares_beyond_halves : (0 : Int) < 13510798882111490 ∧
    ∃ q : Nat, quota (.int 13510798882111490) = .ok (q : Int) ∧
      IsLeast {count | Fills 13510798882111490 count} q := by
  have hpositive : (0 : Int) < 13510798882111490 := by decide
  obtain ⟨hleast, -, hrounded, -⟩ := quota_shares hpositive
  have hlimit : (13510798882111490 : Int) < tooGreat := by decide +kernel
  obtain ⟨q, hquota, -, hshare, -⟩ := hrounded (by decide) hlimit
  exact ⟨hpositive, q, hquota, (hleast q).2 ((hshare (by decide)).2 (by decide))⟩

/-- One more than 3 · 2^52 is given a share that is too small. -/
theorem not_forall_isShare : ¬∀ limit : Int, 0 < limit →
    ∃ q : Int, quota (.int limit) = .ok q ∧ IsShare limit q := by
  intro hall
  obtain ⟨q, hquota, -, habove⟩ := hall 13510798882111489 (by decide)
  have hvalue : (quota (.int 13510798882111489)).toOption = some 4503599627370496 := by
    decide +kernel
  rw [hquota] at hvalue
  cases hvalue
  omega

end Limit

end Storefront
