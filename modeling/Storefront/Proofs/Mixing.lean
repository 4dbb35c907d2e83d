import Mathlib.Data.Finset.Card
import Storefront.FirstOccurrences
import Storefront.Proofs.BestRecalls

/-!
# Mixed suggestions

A mixture takes the products of its streams one after the other, passes over those that it has, and
stops as soon as it is full. It is therefore the beginning of the streams in a row, of which every
product is kept where it occurs first. The share of a stream is never more than the limit, so the first
stream is in the mixture as a whole.

* `length_firstsBy`: how many first occurrences a list has
* `Mixture.given_foldlM`, `mix_int`: what a mixture takes, from the first product to the last
* `Limit.quota_le`: the share of a stream is at most the limit
* `Store.mixed_suggestions`: suggestions from three strategies
-/

namespace Storefront

/-! ## First occurrences -/

/-- As many elements are left as there are keys. -/
theorem length_firstsBy {α κ : Type} [DecidableEq κ] {key : α → κ} (xs : List α) :
    (firstsBy key xs).length = (xs.map key).toFinset.card := by
  have hkeys : ((firstsBy key xs).map key).toFinset = (xs.map key).toFinset := by
    ext k
    rw [List.mem_toFinset, List.mem_toFinset, mem_keys_firstsBy]
  rw [← hkeys, List.toFinset_card_of_nodup (nodup_firstsBy xs), List.length_map]

/-! ## Mixtures -/

namespace Mixture

variable {isFull : Nat → Bool}

theorem take_of_mem {mixture : Mixture} {p : Product} (h : p.id ∈ mixture.seen) :
    take isFull mixture p = .ok mixture :=
  if_pos (List.contains_iff_mem.2 h)

theorem take_of_not_mem {mixture : Mixture} {p : Product} (h : p.id ∉ mixture.seen) :
    take isFull mixture p = if isFull (mixture.products.length + 1)
      then .error (mixture.products ++ [p])
      else .ok ⟨p.id :: mixture.seen, mixture.products ++ [p]⟩ := by
  have hnew : mixture.seen.contains p.id = false := by simpa using h
  unfold take
  rw [hnew]
  simp

/-- The products of a mixture, under way or full. -/
def given : Except (List Product) Mixture → List Product
  | .ok mixture => mixture.products
  | .error products => products

/-- Mixing several lists is mixing what they are in a row. -/
theorem ofStreams_eq (streams : List (List Product)) :
    ofStreams isFull streams = given (streams.flatten.foldlM (take isFull) ⟨[], []⟩) := by
  have hflatten (mixture : Mixture) :
      streams.foldlM (fun mixture stream => stream.foldlM (take isFull) mixture) mixture =
        streams.flatten.foldlM (take isFull) mixture := by
    induction streams generalizing mixture with
    | nil => rfl
    | cons stream streams ih =>
      rw [List.foldlM_cons, List.flatten_cons, List.foldlM_append]
      exact congrArg (stream.foldlM (take isFull) mixture >>= ·) (funext ih)
  unfold ofStreams
  rw [hflatten]
  rfl

/-- From a mixture that is not full, mixing goes on with the first occurrences of what was not seen,
and leaves as many products as make it full. -/
theorem given_foldlM {count : Nat} (hfull : ∀ n, isFull n = decide (count ≤ n)) (ps : List Product)
    {mixture : Mixture} (h : mixture.products.length < count) :
    given (ps.foldlM (take isFull) mixture) = (mixture.products ++
      (firstsBy (·.id) ps).filter fun p => p.id ∉ mixture.seen).take count := by
  induction ps generalizing mixture with
  | nil =>
    show mixture.products = (mixture.products ++ []).take count
    rw [List.append_nil, List.take_of_length_le (Nat.le_of_lt h)]
  | cons p ps ih =>
    rw [List.foldlM_cons, firstsBy]
    by_cases hseen : p.id ∈ mixture.seen
    · have hothers : ((firstsBy (·.id) ps).filter fun q => q.id ≠ p.id).filter
          (fun q => q.id ∉ mixture.seen) = (firstsBy (·.id) ps).filter fun q => q.id ∉ mixture.seen := by
        rw [List.filter_filter]
        refine List.filter_congr fun q _ => ?_
        by_cases hq : q.id = p.id
        · simp [hq, hseen]
        · simp [hq]
      rw [take_of_mem hseen, List.filter_cons_of_neg (by simpa using hseen), hothers]
      exact ih h
    · rw [List.filter_cons_of_pos (by simpa using hseen), List.append_cons, take_of_not_mem hseen,
        hfull]
      by_cases hlast : count ≤ mixture.products.length + 1
      · -- this product fills the mixture, and the exit leaves the rest out
        have hlength : (mixture.products ++ [p]).length = count := by
          rw [List.length_append, List.length_singleton]
          omega
        rw [if_pos (decide_eq_true hlast), List.take_left' hlength]
        rfl
      · have hothers : ((firstsBy (·.id) ps).filter fun q => q.id ≠ p.id).filter
            (fun q => q.id ∉ mixture.seen) =
              (firstsBy (·.id) ps).filter fun q => q.id ∉ p.id :: mixture.seen := by
          rw [List.filter_filter]
          refine List.filter_congr fun q _ => ?_
          simp [Bool.and_comm]
        rw [if_neg (by simpa using hlast), hothers]
        refine ih ?_
        show (mixture.products ++ [p]).length < count
        rw [List.length_append, List.length_singleton]
        omega

end Mixture

/-- A whole limit that is positive is reached once there are as many products. -/
theorem Limit.isReached_int {limit : Int} (h : 0 < limit) (n : Nat) :
    Limit.isReached (.int limit) n = decide (limit.toNat ≤ n) := by
  show (some (compare (n : Int) limit) == some .gt || some (compare (n : Int) limit) == some .eq) = _
  cases hcompare : compare (n : Int) limit with
  | lt =>
    have hlt := Int.compare_eq_lt.1 hcompare
    exact (decide_eq_false (by omega)).symm
  | eq =>
    have heq := Int.compare_eq_eq.1 hcompare
    exact (decide_eq_true (by omega)).symm
  | gt =>
    have hgt := Int.compare_eq_gt.1 hcompare
    exact (decide_eq_true (by omega)).symm

/-- A mixture is the beginning, up to a limit, of the first occurrences in its streams in a row. -/
theorem mix_int (streams : List (List Product)) (limit : Int) :
    mix streams (.int limit) = .ok ((firstsBy (·.id) streams.flatten).take limit.toNat) := by
  unfold mix
  rw [isNone_int]
  by_cases hlimit : limit ≤ 0
  · rw [decide_eq_true hlimit, Int.toNat_of_nonpos hlimit, List.take_zero]
    rfl
  · have hempty : (⟨[], []⟩ : Mixture).products.length < limit.toNat := by
      show 0 < limit.toNat
      omega
    have hfull := Limit.isReached_int (Int.not_le.1 hlimit)
    have hgiven := Mixture.given_foldlM hfull streams.flatten hempty
    rw [decide_eq_false hlimit]
    show Except.ok (Mixture.ofStreams (Limit.isReached (.int limit)) streams) = _
    rw [Mixture.ofStreams_eq, hgiven]
    simp

/-! ## Shares -/

/-- A whole number that is not below a double is not below the least such number either. -/
theorem Binary64.ceil?_le {x : Binary64} {n q : Int} (h : x.ceil? = some q)
    (hx : x.units ≤ n * Magnitude.unitsPerOne) : q ≤ n := by
  have hpos : (0 : Int) < Magnitude.unitsPerOne := Int.natCast_pos.2 Magnitude.unitsPerOne_pos
  unfold ceil? at h
  split at h
  · cases h
    have hle : -n ≤ -x.units / Magnitude.unitsPerOne := by
      rw [Int.le_ediv_iff_mul_le hpos, Int.neg_mul]
      exact Int.neg_le_neg hx
    omega
  · cases h

namespace Limit

/-- The third of a number, rounded to a double, is at most the number. -/
theorem units_third_le {n : Nat} (h : 0 < n) :
    (Magnitude.nearest n shares).units ≤ n * Magnitude.unitsPerOne := by
  have hunits : 3 ≤ Magnitude.unitsPerOne := by decide +kernel
  have hwhole : 0 < n * Magnitude.unitsPerOne / shares :=
    Nat.div_pos (Nat.le_trans hunits (Nat.le_mul_of_pos_left _ h)) (by decide)
  have hround := Magnitude.units_nearestUnits_le hwhole
  have hshare := Nat.div_mul_le_self (n * Magnitude.unitsPerOne) shares
  unfold shares at hround hshare
  exact Nat.le_trans hround (by omega)

theorem third_of_nonneg {limit : Int} (h : 0 ≤ limit) : third (.whole limit) =
    if (Magnitude.nearest limit.natAbs shares).isFinite
      then .ok (.signed false (.nearest limit.natAbs shares)) else .error .overflow := by
  have hsign : decide (limit < 0) = false := decide_eq_false (Int.not_lt.2 h)
  unfold third Binary64.ofRatio
  dsimp only
  rw [hsign]
  rfl

/-- The third of a number that is not negative, where there is one, is its nearest double. -/
theorem third_eq {limit : Int} {x : Binary64} (h : 0 ≤ limit)
    (hx : third (.whole limit) = .ok x) : x = .signed false (.nearest limit.natAbs shares) := by
  rw [third_of_nonneg h] at hx
  split at hx
  · cases hx
    rfl
  · cases hx

/-- The share of a stream is at most the limit, and none where the limit admits nothing. -/
theorem quota_le {limit q : Int} (h : quota (.int limit) = .ok q) : q.toNat ≤ limit.toNat := by
  obtain ⟨none?, hnone, h⟩ := bind_eq_ok.1 h
  cases isNone_int.symm.trans hnone
  by_cases hlimit : limit ≤ 0
  · rw [if_pos (decide_eq_true hlimit)] at h
    cases h
    exact Nat.zero_le _
  · have hnonneg : 0 ≤ limit := Int.le_of_not_le hlimit
    rw [if_neg (by simpa using hlimit)] at h
    obtain ⟨x, hx, h⟩ := bind_eq_ok.1 h
    split at h
    · rename_i ceiling hceiling
      cases h
      have hunits := units_third_le (n := limit.natAbs) (by omega)
      have hle : q ≤ limit := by
        refine Binary64.ceil?_le hceiling ?_
        rw [third_eq hnonneg hx, ← Int.natAbs_of_nonneg hnonneg, ← Int.natCast_mul]
        exact Int.ofNat_le.2 hunits
      omega
    · cases h

end Limit

/-! ## Suggestions from three strategies -/

namespace Store

section TakesBest

variable {s : Store} {cs : List Criterion} {Eligible : Row → Prop} {count : Nat}
  {products : List Product} (h : s.TakesBest cs Eligible count products)

include h

theorem TakesBest.length_le : products.length ≤ count := by
  obtain ⟨ranking, -, hproducts⟩ := h
  rw [length_of_mapM_eq_ok hproducts]
  exact List.length_take_le _ _

theorem TakesBest.nodup_ids : (products.map (·.id)).Nodup := by
  obtain ⟨ranking, hranking, hproducts⟩ := h
  rw [map_eq_of_mapM_eq_ok (fun _ _ => Row.id_of_toProduct) hproducts]
  refine List.Nodup.map_on (fun r hr o ho hid => ?_) (hranking.nodup.sublist (List.take_sublist _ _))
  exact s.table.eq_of_id_eq ((hranking.mem_iff r).1 (List.mem_of_mem_take hr)).1
    ((hranking.mem_iff o).1 (List.mem_of_mem_take ho)).1 hid

theorem TakesBest.inStock : ∀ p ∈ products, p.inStock = true := by
  obtain ⟨ranking, hranking, hproducts⟩ := h
  intro p hp
  obtain ⟨row, hrow, hread⟩ := mem_of_mapM_eq_ok hproducts hp
  exact (Row.inStock_of_toProduct hread).trans
    ((hranking.mem_iff row).1 (List.mem_of_mem_take hrow)).2.1

end TakesBest

/-- Mixed suggestions are the beginning, up to the limit, of the first occurrences in what three
strategies suggest in a row, each up to its share: no product is among them twice, all are in stock, the
first strategy is there as a whole, and there are as many as the limit and the different products
allow. Mixing gives this for any streams. -/
theorem mixed_suggestions (s : Store) (faults : Faults) :
    (∀ (streams : List (List Product)) (limit : Int), mix streams (.int limit) =
      .ok ((firstsBy (·.id) streams.flatten).take limit.toNat)) ∧
    ∀ (limit q : Int) (trending bestsellers new : List Product),
      Limit.quota (.int limit) = .ok q →
      s.suggest faults .trending (.int q) = .ok trending →
      s.suggest faults .bestsellers (.int q) = .ok bestsellers →
      s.suggest faults .new (.int q) = .ok new →
      ∃ products, s.suggested faults (.int limit) .mixed = .ok products ∧
        products = (firstsBy (·.id) (trending ++ bestsellers ++ new)).take limit.toNat ∧
        (products.map (·.id)).Nodup ∧ (∀ p ∈ products, p.inStock = true) ∧
        trending <+: products ∧
        products.length =
          min limit.toNat ((trending ++ bestsellers ++ new).map (·.id)).toFinset.card := by
  refine ⟨mix_int, ?_⟩
  intro limit q trending bestsellers new hquota htrending hbestsellers hnew
  have hstreams : mixedStrategies.mapM (fun strategy => s.suggest faults strategy (.int q)) =
      .ok [trending, bestsellers, new] :=
    mapM_cons_eq_ok.2 ⟨_, _, htrending, mapM_cons_eq_ok.2 ⟨_, _, hbestsellers,
      mapM_cons_eq_ok.2 ⟨_, _, hnew, rfl, rfl⟩, rfl⟩, rfl⟩
  have hflatten : [trending, bestsellers, new].flatten = trending ++ bestsellers ++ new := by simp
  have hmixed : s.mixed faults (.int limit) =
      .ok ((firstsBy (·.id) (trending ++ bestsellers ++ new)).take limit.toNat) := by
    unfold mixed
    refine bind_eq_ok.2 ⟨q, hquota, bind_eq_ok.2 ⟨_, hstreams, ?_⟩⟩
    rw [mix_int, hflatten]
  have hbest := takesBest_of_suggest htrending
  refine ⟨_, congrArg orNothing hmixed, rfl, ?_, ?_, ?_, ?_⟩
  · exact (nodup_firstsBy _).sublist ((List.take_sublist _ _).map _)
  · intro p hp
    have hmem := (firstsBy_sublist _).subset (List.mem_of_mem_take hp)
    rcases List.mem_append.1 hmem with hmem | hmem
    · rcases List.mem_append.1 hmem with hmem | hmem
      · exact hbest.inStock p hmem
      · exact (takesBest_of_suggest hbestsellers).inStock p hmem
    · exact (takesBest_of_suggest hnew).inStock p hmem
  · rw [List.append_assoc]
    refine List.prefix_take_iff.2 ⟨prefix_firstsBy _ hbest.nodup_ids, ?_⟩
    exact Nat.le_trans hbest.length_le (Limit.quota_le hquota)
  · rw [List.length_take, length_firstsBy]

/-- With a limit of four each strategy has a share of two. The first two strategies suggest the same
products, and the last one adds a third. -/
theorem mixed_suggestions_reviewed : ∃ trending bestsellers new products,
    Limit.quota (.int 4) = .ok 2 ∧
      reviewed.suggest .none .trending (.int 2) = .ok trending ∧
      reviewed.suggest .none .bestsellers (.int 2) = .ok bestsellers ∧
      reviewed.suggest .none .new (.int 2) = .ok new ∧
      reviewed.suggested .none (.int 4) .mixed = .ok products ∧
      products.map (·.id) = [3, 2, 1] ∧ trending <+: products ∧ trending.length = 2 := by
  have hquota : Limit.quota (.int 4) = .ok 2 := by
    have hvalue : (Limit.quota (.int 4)).toOption.map id = some 2 := by decide +kernel
    obtain ⟨q, hq, rfl⟩ := exists_of_toOption_map_eq_some hvalue
    exact hq
  have hids (strategy : Strategy) (ids : List Int)
      (h : (reviewed.suggest .none strategy (.int 2)).toOption.map (·.map (·.id)) = some ids) :
      ∃ products, reviewed.suggest .none strategy (.int 2) = .ok products ∧
        products.map (·.id) = ids := exists_of_toOption_map_eq_some h
  obtain ⟨trending, htrending, hfirsts⟩ := hids .trending [3, 2] (by decide +kernel)
  obtain ⟨bestsellers, hbestsellers, -⟩ := hids .bestsellers [3, 2] (by decide +kernel)
  obtain ⟨new, hnew, -⟩ := hids .new [1, 2] (by decide +kernel)
  have hmixed : (reviewed.suggested .none (.int 4) .mixed).toOption.map (·.map (·.id)) =
      some [3, 2, 1] := by
    decide +kernel
  obtain ⟨shown, hshown, hthree⟩ := exists_of_toOption_map_eq_some hmixed
  obtain ⟨products, hproducts, -, -, -, hprefix, -⟩ := (mixed_suggestions reviewed .none).2 4 2
    trending bestsellers new hquota htrending hbestsellers hnew
  cases hshown.symm.trans hproducts
  refine ⟨trending, bestsellers, new, shown, hquota, htrending, hbestsellers, hnew, hshown, hthree,
    hprefix, ?_⟩
  simpa using congrArg List.length hfirsts

end Store

end Storefront
