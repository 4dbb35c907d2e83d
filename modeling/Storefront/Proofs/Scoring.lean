import Mathlib.Data.List.Sublists
import Storefront.Proofs.ExactValues
import Storefront.Recommend.Score

/-!
# Scores and their order

Rows that are gathered give one candidate for each product, in the order in which the products are
discovered. Its signals are those of the product's rows, and its score is the sum of the weights of
these rows.

* `rowsOf`, `discoveredAt`: the rows of a product, and the first of them
* `Gathered`, `gathered_rows`: what gathering gives before the bonus
* `signals_rowsOf_flatMap`: the signals of a product in rows that several signals recalled
* `sum_weights`, `qualityBonus_eq`: weights have exact sums, and what the bonus is
* `pairwise_rank`: the order of ranked candidates
-/

namespace Storefront

/-! ## Gathering -/

/-- The rows of a product. -/
def rowsOf (id : Int) (rows : List Match) : List Match := rows.filter fun m => m.product.id = id

/-- The place of the first row of a product. -/
def discoveredAt (rows : List Match) (id : Int) : Nat := rows.findIdx fun m => m.product.id = id

/-- A candidate without any row. -/
def Candidate.start (product : Product) : Candidate := ⟨product, [], .zero⟩

/-- A candidate with one more row. -/
def Candidate.adding (c : Candidate) (m : Match) : Candidate :=
  ⟨c.product, addSignal m.signal c.signals, c.score.add m.weight⟩

/-- Candidates are what rows give, without a bonus: one for each product, in order of discovery,
to which the rows of the product were added one after the other. -/
structure Gathered (rows : List Match) (candidates : List Candidate) : Prop where
  nodup : (candidates.map (·.product.id)).Nodup
  mem_ids : ∀ id, id ∈ candidates.map (·.product.id) ↔ id ∈ rows.map (·.product.id)
  ordered : candidates.Pairwise fun a b =>
    discoveredAt rows a.product.id < discoveredAt rows b.product.id
  product_mem : ∀ c ∈ candidates, c.product ∈ rows.map (·.product)
  content_eq : ∀ c ∈ candidates,
    c = (rowsOf c.product.id rows).foldl Candidate.adding (.start c.product)

section Rows

variable {rows : List Match} {m : Match} {id : Int}

theorem rowsOf_cons :
    rowsOf id (m :: rows) = if m.product.id = id then m :: rowsOf id rows else rowsOf id rows := by
  unfold rowsOf
  rw [List.filter_cons]
  simp

theorem rowsOf_append_of_ne (h : m.product.id ≠ id) : rowsOf id (rows ++ [m]) = rowsOf id rows := by
  unfold rowsOf
  rw [List.filter_append]
  simp [h]

theorem rowsOf_append_of_eq (h : m.product.id = id) :
    rowsOf id (rows ++ [m]) = rowsOf id rows ++ [m] := by
  unfold rowsOf
  rw [List.filter_append]
  simp [h]

theorem rowsOf_of_not_mem (h : id ∉ rows.map (·.product.id)) : rowsOf id rows = [] := by
  unfold rowsOf
  rw [List.filter_eq_nil_iff]
  intro m hm hid
  exact h (List.mem_map.2 ⟨m, hm, of_decide_eq_true hid⟩)

/-- A product that is known stays where it was discovered. -/
theorem discoveredAt_append_of_mem (h : id ∈ rows.map (·.product.id)) :
    discoveredAt (rows ++ [m]) id = discoveredAt rows id ∧ discoveredAt rows id < rows.length := by
  obtain ⟨known, hknown, hid⟩ := List.mem_map.1 h
  have hlt : discoveredAt rows id < rows.length :=
    List.findIdx_lt_length_of_exists ⟨known, hknown, decide_eq_true hid⟩
  refine ⟨?_, hlt⟩
  unfold discoveredAt at hlt ⊢
  rw [List.findIdx_append, if_pos hlt]

/-- A product that is not known is discovered last. -/
theorem discoveredAt_append_of_not_mem (h : m.product.id ∉ rows.map (·.product.id)) :
    discoveredAt (rows ++ [m]) m.product.id = rows.length := by
  have hlength : rows.findIdx (fun r => r.product.id = m.product.id) = rows.length := by
    rw [List.findIdx_eq_length]
    intro r hr
    exact decide_eq_false fun hid => h (List.mem_map.2 ⟨r, hr, hid⟩)
  unfold discoveredAt
  rw [List.findIdx_append, hlength, if_neg (Nat.lt_irrefl _)]
  simp

end Rows

theorem foldl_adding (rows : List Match) (c : Candidate) :
    (rows.foldl Candidate.adding c).signals =
        (rows.map (·.signal)).foldl (fun signals signal => addSignal signal signals) c.signals ∧
      (rows.foldl Candidate.adding c).score =
        (rows.map (·.weight)).foldl Binary64.add c.score := by
  induction rows generalizing c with
  | nil => exact ⟨rfl, rfl⟩
  | cons m rest ih => exact ih (c.adding m)

theorem addMatch_of_not_mem {m : Match} {cs : List Candidate}
    (h : m.product.id ∉ cs.map (·.product.id)) : addMatch m cs = cs ++ [(Candidate.start m.product).adding m] := by
  induction cs with
  | nil => rfl
  | cons c rest ih =>
    rw [List.map_cons, List.mem_cons, not_or] at h
    rw [addMatch, if_neg fun hid => h.1 hid.symm, ih h.2, List.cons_append]

theorem addMatch_of_mem {m : Match} {cs : List Candidate}
    (hnodup : (cs.map (·.product.id)).Nodup) (h : m.product.id ∈ cs.map (·.product.id)) :
    addMatch m cs = cs.map fun c => if c.product.id = m.product.id then c.adding m else c := by
  induction cs with
  | nil => cases h
  | cons c rest ih =>
    obtain ⟨hc, hrest⟩ := List.nodup_cons.1 hnodup
    rw [addMatch, List.map_cons]
    by_cases hid : c.product.id = m.product.id
    · rw [if_pos hid, if_pos hid]
      have hothers : ∀ d ∈ rest, (if d.product.id = m.product.id then d.adding m else d) = id d := by
        intro d hd
        exact if_neg fun hdm => hc (List.mem_map.2 ⟨d, hd, hdm.trans hid.symm⟩)
      rw [List.map_congr_left hothers, List.map_id]
      rfl
    · rw [if_neg hid, if_neg hid, ih hrest]
      rcases List.mem_cons.1 h with heq | hmem
      · exact absurd heq.symm hid
      · exact hmem

theorem map_ids_adding (m : Match) (cs : List Candidate) :
    (cs.map fun c => if c.product.id = m.product.id then c.adding m else c).map (·.product.id) =
      cs.map (·.product.id) := by
  rw [List.map_map]
  refine List.map_congr_left fun c _ => ?_
  show (if c.product.id = m.product.id then c.adding m else c).product.id = c.product.id
  split <;> rfl

/-- One more row of a product that is known. -/
theorem Gathered.adding {rows : List Match} {cs : List Candidate} {m : Match}
    (h : Gathered rows cs) (hmem : m.product.id ∈ cs.map (·.product.id)) :
    Gathered (rows ++ [m]) (addMatch m cs) := by
  have hknown : ∀ c ∈ cs, c.product.id ∈ rows.map (·.product.id) := fun c hc =>
    (h.mem_ids c.product.id).1 (List.mem_map.2 ⟨c, hc, rfl⟩)
  have hproduct : ∀ c : Candidate,
      (if c.product.id = m.product.id then c.adding m else c).product = c.product := by
    intro c
    split <;> rfl
  rw [addMatch_of_mem h.nodup hmem]
  refine ⟨?_, fun id => ?_, ?_, ?_, ?_⟩
  · rw [map_ids_adding]
    exact h.nodup
  · rw [map_ids_adding, h.mem_ids, List.map_append, List.mem_append]
    refine ⟨.inl, fun hid => hid.elim (fun hid => hid) fun hid => ?_⟩
    rw [List.mem_singleton.1 hid]
    exact (h.mem_ids _).1 hmem
  · rw [List.pairwise_map]
    refine h.ordered.imp_of_mem fun {a b} ha hb hab => ?_
    rw [hproduct, hproduct, (discoveredAt_append_of_mem (hknown a ha)).1,
      (discoveredAt_append_of_mem (hknown b hb)).1]
    exact hab
  · intro c hc
    obtain ⟨d, hd, rfl⟩ := List.mem_map.1 hc
    rw [hproduct, List.map_append]
    exact List.mem_append_left _ (h.product_mem d hd)
  · intro c hc
    obtain ⟨d, hd, rfl⟩ := List.mem_map.1 hc
    rw [hproduct]
    by_cases hid : d.product.id = m.product.id
    · rw [if_pos hid, rowsOf_append_of_eq hid.symm, List.foldl_append, ← h.content_eq d hd]
      rfl
    · rw [if_neg hid, rowsOf_append_of_ne fun heq => hid heq.symm]
      exact h.content_eq d hd

/-- The first row of a product. -/
theorem Gathered.starting {rows : List Match} {cs : List Candidate} {m : Match}
    (h : Gathered rows cs) (hmem : m.product.id ∉ cs.map (·.product.id)) :
    Gathered (rows ++ [m]) (addMatch m cs) := by
  have hknown : ∀ c ∈ cs, c.product.id ∈ rows.map (·.product.id) := fun c hc =>
    (h.mem_ids c.product.id).1 (List.mem_map.2 ⟨c, hc, rfl⟩)
  have hne : ∀ c ∈ cs, m.product.id ≠ c.product.id := fun c hc heq =>
    hmem (List.mem_map.2 ⟨c, hc, heq.symm⟩)
  have hnew : m.product.id ∉ rows.map (·.product.id) := fun hrow => hmem ((h.mem_ids _).2 hrow)
  have hrows : rowsOf m.product.id (rows ++ [m]) = [m] := by
    rw [rowsOf_append_of_eq rfl, rowsOf_of_not_mem hnew, List.nil_append]
  rw [addMatch_of_not_mem hmem]
  refine ⟨?_, fun id => ?_, ?_, ?_, ?_⟩
  · rw [List.map_append, List.nodup_append]
    refine ⟨h.nodup, List.pairwise_singleton _ _, fun id hid other hother heq => hmem ?_⟩
    rw [heq, List.mem_singleton.1 hother] at hid
    exact hid
  · rw [List.map_append, List.mem_append, h.mem_ids, List.map_append, List.mem_append]
    rfl
  · rw [List.pairwise_append]
    refine ⟨?_, List.pairwise_singleton _ _, fun a ha b hb => ?_⟩
    · refine h.ordered.imp_of_mem fun {a b} ha hb hab => ?_
      rw [(discoveredAt_append_of_mem (hknown a ha)).1, (discoveredAt_append_of_mem (hknown b hb)).1]
      exact hab
    · rw [List.mem_singleton.1 hb]
      show discoveredAt _ a.product.id < discoveredAt _ m.product.id
      obtain ⟨hsame, hlt⟩ := discoveredAt_append_of_mem (m := m) (hknown a ha)
      rw [hsame, discoveredAt_append_of_not_mem hnew]
      exact hlt
  · intro c hc
    rw [List.map_append]
    rcases List.mem_append.1 hc with hc | hc
    · exact List.mem_append_left _ (h.product_mem c hc)
    · rw [List.mem_singleton.1 hc]
      exact List.mem_append_right _ (List.mem_singleton.2 rfl)
  · intro c hc
    rcases List.mem_append.1 hc with hc | hc
    · rw [rowsOf_append_of_ne (hne c hc)]
      exact h.content_eq c hc
    · rw [List.mem_singleton.1 hc]
      show _ = (rowsOf m.product.id (rows ++ [m])).foldl Candidate.adding (.start m.product)
      rw [hrows]
      rfl

theorem Gathered.append {rows : List Match} {cs : List Candidate} (h : Gathered rows cs)
    (later : List Match) :
    Gathered (rows ++ later) (later.foldl (fun candidates m => addMatch m candidates) cs) := by
  induction later generalizing rows cs with
  | nil =>
    rw [List.append_nil]
    exact h
  | cons m later ih =>
    have hstep : Gathered (rows ++ [m]) (addMatch m cs) := by
      by_cases hmem : m.product.id ∈ cs.map (·.product.id)
      · exact h.adding hmem
      · exact h.starting hmem
    have hrest := ih hstep
    rw [List.append_assoc, List.singleton_append] at hrest
    exact hrest

/-- Gathering the rows one after the other gives what it should. -/
theorem gathered_rows (rows : List Match) :
    Gathered rows (rows.foldl (fun candidates m => addMatch m candidates) []) := by
  have hnone : Gathered [] [] :=
    { nodup := .nil
      mem_ids := fun _ => Iff.rfl
      ordered := .nil
      product_mem := fun _ hc => absurd hc List.not_mem_nil
      content_eq := fun _ hc => absurd hc List.not_mem_nil }
  exact hnone.append rows

section Contents

variable {rows : List Match} {cs : List Candidate} {c : Candidate}

theorem Gathered.signals_eq (h : Gathered rows cs) (hc : c ∈ cs) : c.signals =
    ((rowsOf c.product.id rows).map (·.signal)).foldl
      (fun signals signal => addSignal signal signals) [] :=
  (congrArg Candidate.signals (h.content_eq c hc)).trans (foldl_adding _ _).1

theorem Gathered.score_eq (h : Gathered rows cs) (hc : c ∈ cs) : c.score =
    ((rowsOf c.product.id rows).map (·.weight)).foldl Binary64.add .zero :=
  (congrArg Candidate.score (h.content_eq c hc)).trans (foldl_adding _ _).2

end Contents

/-! ## Signals of a product -/

theorem foldl_addSignal {signals known : List Signal} (h : (known ++ signals).Nodup) :
    signals.foldl (fun signals s => addSignal s signals) known = known ++ signals := by
  induction signals generalizing known with
  | nil => simp
  | cons s rest ih =>
    have hnew : s ∉ known := by
      intro hs
      exact (List.nodup_append.1 h).2.2 s hs s List.mem_cons_self rfl
    have hadd : addSignal s known = known ++ [s] := by
      unfold addSignal
      rw [if_neg]
      simpa using hnew
    rw [List.foldl_cons, hadd, ih (by simpa using h)]
    simp

/-- Of the rows of one signal, in which no product occurs twice, a product has one or none. -/
theorem signals_rowsOf {rows : List Match} {signal : Signal} (id : Int)
    (hnodup : (rows.map (·.product.id)).Nodup) (hsignal : ∀ m ∈ rows, m.signal = signal) :
    (rowsOf id rows).map (·.signal) =
      if id ∈ rows.map (·.product.id) then [signal] else [] := by
  induction rows with
  | nil => rfl
  | cons m rest ih =>
    obtain ⟨hm, hrest⟩ := List.nodup_cons.1 hnodup
    have hothers := ih hrest fun r hr => hsignal r (List.mem_cons_of_mem m hr)
    rw [rowsOf_cons]
    by_cases hid : m.product.id = id
    · subst hid
      rw [if_pos rfl, List.map_cons, hothers, if_neg hm, hsignal m List.mem_cons_self,
        if_pos (List.mem_map.2 ⟨m, List.mem_cons_self, rfl⟩)]
    · rw [if_neg hid, hothers, List.map_cons]
      simp [Ne.symm hid]

/-- The signals of a product are those that recalled it, in the order of recall. -/
theorem signals_rowsOf_flatMap {recalls : Signal → List Match} (signals : List Signal) (id : Int)
    (hnodup : ∀ signal, ((recalls signal).map (·.product.id)).Nodup)
    (hsignal : ∀ signal, ∀ m ∈ recalls signal, m.signal = signal) :
    (rowsOf id (signals.flatMap recalls)).map (·.signal) =
      signals.filter fun signal => id ∈ (recalls signal).map (·.product.id) := by
  induction signals with
  | nil => rfl
  | cons signal rest ih =>
    have hfirst := signals_rowsOf id (hnodup signal) (hsignal signal)
    unfold rowsOf at hfirst ih ⊢
    rw [List.flatMap_cons, List.filter_append, List.map_append, hfirst, ih, List.filter_cons]
    split
    · rename_i hmem
      rw [if_pos (decide_eq_true hmem)]
      rfl
    · rename_i hmem
      rw [if_neg (by simpa using hmem)]
      rfl

/-! ## Sums of tenths -/

namespace Binary64

/-- The number is exactly a number of tenths. -/
def IsTenths (x : Binary64) (n : Nat) : Prop :=
  x.isFinite = true ∧ x.units * 10 = n * Magnitude.unitsPerOne

instance (x : Binary64) (n : Nat) : Decidable (x.IsTenths n) :=
  inferInstanceAs (Decidable (_ ∧ _))

/-- Adding finite numbers gives a number. -/
theorem isNan_add {x y : Binary64} (hx : x.isFinite = true) (hy : y.isFinite = true) :
    (x.add y).isNan = false := by
  cases x with
  | nan => cases hx
  | signed s a =>
    cases y with
    | nan => cases hy
    | signed t b =>
      have ha : a.isFinite = true := hx
      have hb : b.isFinite = true := hy
      unfold add
      dsimp only
      rw [ha, hb]
      dsimp only
      split
      · rfl
      · rfl

end Binary64

/-- The double nearest to a number of tenths. -/
def ofTenths (n : Nat) : Binary64 := Decimal.toBinary64 ⟨false, n, -1⟩

/-- The sum of the weights of signals, in tenths. -/
def totalTenths (signals : List Signal) : Nat :=
  signals.foldl (fun total signal => total + signal.tenths) 0

/-- The weights of different signals have an exact sum. -/
theorem sum_weights : ∀ signals ∈ Signal.all.sublists,
    (signals.map Signal.weight).foldl Binary64.add .zero = ofTenths (totalTenths signals) ∧
      (ofTenths (totalTenths signals)).IsTenths (totalTenths signals) := by
  decide +kernel

/-- The bonus of a product in tenths: five for a rating of at least four and a half, and three for
at least fifty reviews. -/
def bonusTenths (p : Product) : Nat :=
  (if p.rating.any highRating.le then 5 else 0) +
    (if p.reviewCount.any fun n => decide (50 ≤ n) then 3 else 0)

theorem qualityBonus_eq (p : Product) :
    qualityBonus p = ofTenths (bonusTenths p) ∧ (qualityBonus p).isFinite = true := by
  have hcases : ∀ rated reviewed : Bool,
      (let bonus := if rated then Binary64.zero.add highRatingBonus else .zero
      if reviewed then bonus.add manyReviewsBonus else bonus) =
        ofTenths ((if rated then 5 else 0) + (if reviewed then 3 else 0)) ∧
      (ofTenths ((if rated then 5 else 0) + (if reviewed then 3 else 0))).isFinite = true := by
    decide +kernel
  have hbonus : qualityBonus p = ofTenths (bonusTenths p) :=
    (hcases (p.rating.any highRating.le) (p.reviewCount.any fun n => decide (50 ≤ n))).1
  refine ⟨hbonus, ?_⟩
  rw [hbonus]
  exact (hcases (p.rating.any highRating.le) (p.reviewCount.any fun n => decide (50 ≤ n))).2

/-! ## Ranking -/

section Ranking

variable {candidates cs : List Candidate} {limit : Int}

theorem isNone_int : Limit.isNone (.int limit) = .ok (decide (limit ≤ 0)) := by
  show Except.ok (some (compare limit 0) == some .lt || some (compare limit 0) == some .eq) = _
  cases hcompare : compare limit 0 with
  | lt =>
    rw [decide_eq_true (Int.le_of_lt (Int.compare_eq_lt.1 hcompare))]
    rfl
  | eq =>
    rw [decide_eq_true (Int.le_of_eq (Int.compare_eq_eq.1 hcompare))]
    rfl
  | gt =>
    rw [decide_eq_false (Int.not_le.2 (Int.compare_eq_gt.1 hcompare))]
    rfl

/-- A ranking sorts by scores and cuts. -/
theorem rank_int : rank candidates (.int limit) =
    .ok ((sortBy (fun a b => scoreBefore a.score b.score) candidates).take limit.toNat) := by
  unfold rank
  rw [isNone_int]
  by_cases hlimit : limit ≤ 0
  · rw [decide_eq_true hlimit, Int.toNat_of_nonpos hlimit, List.take_zero]
    rfl
  · rw [decide_eq_false hlimit]
    rfl

/-- Of two numbers, the first stands before the second if it is at least as great. -/
theorem scoreBefore_eq {x y : Binary64} (hx : x.isNan = false) (hy : y.isNan = false) :
    scoreBefore x y = y.le x := by
  obtain ⟨a, ha⟩ := Binary64.exists_place hx
  obtain ⟨b, hb⟩ := Binary64.exists_place hy
  unfold scoreBefore Binary64.lt Binary64.le
  rw [ha, hb]
  show (!decide (a < b)) = decide (b ≤ a)
  rw [← decide_not, decide_eq_decide]
  exact Int.not_lt

theorem Binary64.le_of_eq {x y : Binary64} (h : x.eq y = true) : x.le y = true := by
  unfold Binary64.eq at h
  unfold Binary64.le
  split at h
  · exact decide_eq_true (Int.le_of_eq (beq_iff_eq.1 h))
  · cases h

/-- Ranked candidates have descending scores, and those of one score stand as they stood before. -/
theorem pairwise_rank {S : Candidate → Candidate → Prop}
    (hscore : ∀ c ∈ candidates, c.score.isNan = false) (hS : candidates.Pairwise S)
    (h : rank candidates (.int limit) = .ok cs) :
    cs.Pairwise fun a b =>
      b.score.le a.score = true ∧ (a.score.eq b.score = true → S a b) := by
  rw [rank_int] at h
  cases h
  have htotal : ∀ a b : Candidate, a.score.isNan = false → b.score.isNan = false →
      scoreBefore a.score b.score = true ∨ scoreBefore b.score a.score = true := by
    intro a b ha hb
    obtain ⟨m, hm⟩ := Binary64.exists_place ha
    obtain ⟨n, hn⟩ := Binary64.exists_place hb
    rw [scoreBefore_eq ha hb, scoreBefore_eq hb ha, Binary64.le_eq_true, Binary64.le_eq_true]
    rcases Int.le_total n m with hle | hle
    · exact .inl ⟨n, m, hn, hm, hle⟩
    · exact .inr ⟨m, n, hm, hn, hle⟩
  have htrans : ∀ a b c : Candidate, a.score.isNan = false → b.score.isNan = false →
      c.score.isNan = false → scoreBefore a.score b.score = true →
      scoreBefore b.score c.score = true → scoreBefore a.score c.score = true := by
    intro a b c ha hb hc hab hbc
    rw [scoreBefore_eq ha hb, Binary64.le_eq_true] at hab
    rw [scoreBefore_eq hb hc, Binary64.le_eq_true] at hbc
    rw [scoreBefore_eq ha hc, Binary64.le_eq_true]
    obtain ⟨y, x, hy, hx, hyx⟩ := hab
    obtain ⟨z, y', hz, hy', hzy⟩ := hbc
    cases hy.symm.trans hy'
    exact ⟨z, x, hz, hx, Int.le_trans hzy hyx⟩
  have hsorted := pairwise_sortBy_stable htotal htrans hscore hS
  refine (hsorted.imp_of_mem fun {a b} ha hb hab => ?_).sublist (List.take_sublist _ _)
  have hna := hscore a (mem_sortBy.1 ha)
  have hnb := hscore b (mem_sortBy.1 hb)
  rw [scoreBefore_eq hna hnb, scoreBefore_eq hnb hna] at hab
  exact ⟨hab.1, fun heq => hab.2 (Binary64.le_of_eq heq)⟩

end Ranking

end Storefront
