import Storefront.Proofs.Degrading
import Storefront.Proofs.Ordering

/-!
# The best of the eligible products

Whatever a recall goes by, it takes the first products, as many as its limit says, of those that are
in stock and meet its condition. Which ones come first is said by measures of their rows: a row with a
measure stands before one without it, and the last measure that is tried is the id.

* `Criterion`, `RanksBefore`: measures of rows, and the order that several of them put rows in
* `precedesBy_iff`: the keys of an order put rows in the order of the measures that they read
* `Signal.criteria`, `Strategy.criteria`, `Strategy.Admits`: what recalls go by
* `Store.IsRanking`, `Store.TakesBest`: the best of the eligible products, of which there is one list
* `Store.takesBest_of_recalls`: every recall takes the best eligible products
-/

namespace Storefront

/-! ## Measures -/

/-- Of two measures, the first one puts a row first: the other one is missing, or it is greater, or
less where the least comes first. -/
def ComesFirst (greatest : Bool) : Option Line → Option Line → Prop
  | some x, some y => if greatest then y < x else x < y
  | some _, none => True
  | none, _ => False

/-- A measure of rows, and whether the greatest or the least comes first. -/
structure Criterion where
  measure : Row → Option Line
  greatest : Bool := true

/-- The first measure that differs puts a row before another one, and if none does, its id is lower. -/
def RanksBefore : List Criterion → Row → Row → Prop
  | [], r, s => r.id < s.id
  | c :: cs, r, s => ComesFirst c.greatest (c.measure r) (c.measure s) ∨
    c.measure r = c.measure s ∧ RanksBefore cs r s

theorem not_comesFirst {greatest : Bool} {x y : Option Line} (h : ComesFirst greatest x y) :
    ¬ComesFirst greatest y x := by
  cases x with
  | none => exact h.elim
  | some x =>
    cases y with
    | none => exact id
    | some y => cases greatest <;> exact lt_asymm h

theorem not_comesFirst_iff_eq {greatest : Bool} {x y : Option Line} :
    ¬ComesFirst greatest x y ∧ ¬ComesFirst greatest y x ↔ x = y := by
  constructor
  · rintro ⟨hxy, hyx⟩
    cases x with
    | none =>
      cases y with
      | none => rfl
      | some y => exact absurd trivial hyx
    | some x =>
      cases y with
      | none => exact absurd trivial hxy
      | some y => cases greatest <;> rw [le_antisymm (not_lt.1 hyx) (not_lt.1 hxy)]
  · rintro rfl
    exact ⟨fun h => not_comesFirst h h, fun h => not_comesFirst h h⟩

theorem not_ranksBefore {cs : List Criterion} {r s : Row} (h : RanksBefore cs r s) :
    ¬RanksBefore cs s r := by
  induction cs with
  | nil => exact Int.not_lt.2 (Int.le_of_lt h)
  | cons c cs ih =>
    rintro (hsr | ⟨heq, hsr⟩)
    · rcases h with h | ⟨heq, -⟩
      · exact not_comesFirst h hsr
      · rw [heq] at hsr
        exact not_comesFirst hsr hsr
    · rcases h with h | ⟨-, h⟩
      · rw [heq] at h
        exact not_comesFirst h h
      · exact ih h hsr

/-! ## Keys that read measures -/

/-- A cell holds a measure. -/
inductive Cell.IsMeasured : ColumnKind → Cell → Option Line → Prop
  | missing (kind : ColumnKind) : IsMeasured kind .missing none
  | double {x : Binary64} (h : x.isNan = false) :
    IsMeasured .double (.number (.double x)) (some x.value)
  | moment (m : Moment) : IsMeasured .moment (.moment m) (some ((m.instant : WithTop Int) : Line))

theorem Cell.precedes_iff_comesFirst {kind : ColumnKind} {a b : Cell} {x y : Option Line}
    {descending : Bool} (ha : a.IsMeasured kind x) (hb : b.IsMeasured kind y) :
    Precedes descending a b ↔ ComesFirst descending x y := by
  cases ha with
  | missing =>
    refine iff_of_false (fun h => ?_) id
    cases h.isMissing_eq_false
  | double hx =>
    cases hb with
    | missing => exact iff_of_true (.present rfl rfl) trivial
    | double hy =>
      have horder := Number.order?_eq_compare (a := .double _) (b := .double _) hx hy
      rw [precedes_iff_compare (congrArg (·.getD .eq) horder) rfl]
      cases descending
      · exact compare_lt_iff_lt
      · exact compare_gt_iff_gt
  | moment m =>
    cases hb with
    | missing => exact iff_of_true (.present rfl rfl) trivial
    | moment n =>
      have hinstants : (orderCell? (.moment m) (.moment n)).getD .eq =
          compare m.instant n.instant := rfl
      have hlt (p q : Int) : p < q ↔ ((p : WithTop Int) : Line) < ((q : WithTop Int) : Line) := by
        rw [WithBot.coe_lt_coe, WithTop.coe_lt_coe]
      rw [precedes_iff_compare hinstants rfl]
      cases descending
      · exact compare_lt_iff_lt.trans (hlt _ _)
      · exact compare_gt_iff_gt.trans (hlt _ _)

/-- A key compares a measure of rows. -/
def SortKey.Reads (key : SortKey) (c : Criterion) : Prop :=
  key.descending = c.greatest ∧ ∃ kind, ∀ {offset : Option Int} {row : Row},
    row.IsNormal offset → (key.cellOf row).IsMeasured kind (c.measure row)

/-- Keys that read measures put rows in the order of the measures. -/
theorem precedesBy_iff {keys : List SortKey} {cs : List Criterion}
    (h : List.Forall₂ SortKey.Reads keys cs) {offset : Option Int} {r s : Row}
    (hr : r.IsNormal offset) (hs : s.IsNormal offset) :
    PrecedesBy keys r s ↔ RanksBefore cs r s := by
  induction h with
  | nil => exact Iff.rfl
  | cons hread _ ih =>
    obtain ⟨hdescending, kind, hmeasured⟩ := hread
    rename_i key c keys cs _
    have hprecedes {r s : Row} (hr : r.IsNormal offset) (hs : s.IsNormal offset) :
        key.Precedes r s ↔ ComesFirst c.greatest (c.measure r) (c.measure s) := by
      rw [← hdescending]
      exact Cell.precedes_iff_comesFirst (hmeasured hr) (hmeasured hs)
    have hlevel : key.Level r s ↔ c.measure r = c.measure s := by
      rw [SortKey.Level, hprecedes hr hs, hprecedes hs hr, not_comesFirst_iff_eq]
    show key.Precedes r s ∨ key.Level r s ∧ PrecedesBy keys r s ↔ _
    rw [hprecedes hr hs, hlevel, ih]
    exact Iff.rfl

/-! ## What recalls go by -/

/-- The exact value of a double, unless it is not a number. -/
def Binary64.value? (x : Binary64) : Option Line := if x.isNan then none else some x.value

namespace Criterion

/-- The highest rating first. -/
def rating : Criterion := { measure := fun row => row.rating.map Binary64.value }

/-- The most reviews first. -/
def reviews : Criterion := { measure := fun row => row.reviewCount.map Binary64.value }

/-- The highest score among bestsellers first. -/
def sales : Criterion := { measure := fun row => row.bestsellerScore.map Binary64.value }

/-- The latest moment of creation first. -/
def novelty : Criterion :=
  { measure := fun row => row.createdAt.map fun m => ((m.instant : WithTop Int) : Line) }

/-- The least distance of the price from another one first, as doubles give it. -/
def closeness (price : Binary64) : Criterion where
  measure row := row.price.bind fun x => (x.sub price).abs.value?
  greatest := false

end Criterion

/-- What a signal goes by among the products that match. -/
def Signal.criteria (source : Product) : Signal → List Criterion
  | .collection | .tags => []
  | .vendor | .type => [.rating, .reviews]
  | .price => [.closeness source.price]

/-- What a strategy goes by among the products that it admits. -/
def Strategy.criteria : Strategy → List Criterion
  | .trending | .highRated => [.rating, .reviews]
  | .bestsellers => [.sales, .reviews]
  | .new => [.novelty]

/-- A product has at least a rating and a number of reviews. -/
def Row.HasAtLeast (rating : Binary64) (reviews : Nat) (row : Row) : Prop :=
  (∃ x, row.rating = some x ∧ rating.le x = true) ∧
    ∃ x, row.reviewCount = some x ∧ (Binary64.ofNat reviews).le x = true

/-- The condition of a strategy: four and a half and fifty reviews are trending, four and ten reviews
are rated high, and the other strategies admit every product. -/
def Strategy.Admits (row : Row) : Strategy → Prop
  | .trending => row.HasAtLeast (.ofRatio false 9 2) 50
  | .highRated => row.HasAtLeast (.ofNat 4) 10
  | .bestsellers | .new => True

namespace SortKey

theorem isMeasured_ofNumber? {x : Option Binary64} (h : (Cell.ofNumber? x).isProper) :
    (Cell.ofNumber? x).IsMeasured .double (x.map Binary64.value) := by
  cases x with
  | none => exact .missing _
  | some x => exact .double (Cell.isNan_of_isProper h)

/-- A key on a column of doubles reads their exact values. -/
theorem reads_number {field : String} {column : Column} {number : Row → Option Binary64}
    (hcolumn : Predicate.column field = .ok column)
    (hcell : ∀ row : Row, row.cell column = .ofNumber? (number row)) :
    Reads { field, descending := true } { measure := fun row => (number row).map Binary64.value } := by
  refine ⟨rfl, .double, fun {_ row} hrow => ?_⟩
  have hproper := hrow.isProper_cell column
  have hcellOf : cellOf { field, descending := true } row = .ofNumber? (number row) :=
    cellOf_eq hcolumn (congrArg Except.ok (hcell row))
  rw [hcell row] at hproper
  rw [hcellOf]
  exact isMeasured_ofNumber? hproper

theorem reads_novelty : Reads { field := "created_at", descending := true } .novelty := by
  refine ⟨rfl, .moment, fun {_ row} _ => ?_⟩
  have hcellOf : cellOf { field := "created_at", descending := true } row =
      .ofMoment? row.createdAt := rfl
  rw [hcellOf]
  show (Cell.ofMoment? row.createdAt).IsMeasured .moment (row.createdAt.map _)
  cases row.createdAt with
  | none => exact .missing _
  | some m => exact .moment m

theorem reads_closeness (price : Binary64) :
    Reads { field := "price", distanceTo := .float price } (.closeness price) := by
  refine ⟨rfl, .double, fun {_ row} _ => ?_⟩
  rw [cellOf_eq rfl (cell_distance price row)]
  show Cell.IsMeasured .double _ (row.price.bind fun x => (x.sub price).abs.value?)
  cases row.price with
  | none => exact .missing _
  | some x =>
    show Cell.IsMeasured .double (numberCell (x.sub price).abs) ((x.sub price).abs.value?)
    unfold numberCell Binary64.value?
    split
    · exact .missing _
    · rename_i hnan
      exact .double (Bool.eq_false_iff.2 hnan)

theorem reads_byQuality : List.Forall₂ Reads byQuality [.rating, .reviews] :=
  .cons (reads_number rfl fun _ => rfl) (.cons (reads_number rfl fun _ => rfl) .nil)

end SortKey

/-- The order in which a signal takes products is that of its criteria. -/
theorem Signal.Searches.reads {source : Product} {signal : Signal} {p : Predicate}
    {keys : List SortKey} (h : Searches source signal p keys) :
    List.Forall₂ SortKey.Reads keys (signal.criteria source) := by
  cases h with
  | collection | tags => exact .nil
  | vendor | type => exact SortKey.reads_byQuality
  | price => exact .cons (SortKey.reads_closeness source.price) .nil

namespace Strategy

/-- The order in which a strategy takes products is that of its criteria. -/
theorem reads_orderBy (strategy : Strategy) :
    List.Forall₂ SortKey.Reads strategy.orderBy strategy.criteria := by
  cases strategy with
  | trending | highRated => exact SortKey.reads_byQuality
  | bestsellers =>
    exact .cons (SortKey.reads_number rfl fun _ => rfl)
      (.cons (SortKey.reads_number rfl fun _ => rfl) .nil)
  | new => exact .cons SortKey.reads_novelty .nil

theorem holds_rated {t : Table} {m : Memberships} {row : Row} {bounds : Binary64 × Nat} :
    (rated bounds).holds t m row = true ↔ row.HasAtLeast bounds.1 bounds.2 := by
  have hrating : (Predicate.fieldRange "rating" (some (.float bounds.1)) none).holds t m row =
      true ↔ ∃ x, row.rating = some x ∧ bounds.1.le x = true := by
    show (Predicate.fieldRange "rating" ((some bounds.1).map .float)
      ((none : Option Binary64).map .float)).holds t m row = true ↔ _
    rw [Predicate.holds_doubleRange rfl]
    simp
  have hreviews : (Predicate.fieldRange "review_count" (some (.int bounds.2)) none).holds t m row =
      true ↔ ∃ x, row.reviewCount = some x ∧ (Binary64.ofNat bounds.2).le x = true := by
    -- a whole bound counts as a double beside the doubles of a column
    have hdouble : (Predicate.fieldRange "review_count" (some (.int bounds.2)) none).holds t m row =
        (Predicate.fieldRange "review_count" ((some (Binary64.ofNat bounds.2)).map .float)
          ((none : Option Binary64).map .float)).holds t m row := by
      have hcell : Predicate.cell? "review_count" row = .ofNumber? row.reviewCount := rfl
      rw [Predicate.holds, Predicate.holds, hcell, ← Binary64.ofInt_natCast]
      cases row.reviewCount <;> rfl
    rw [hdouble, Predicate.holds_doubleRange rfl]
    simp
  unfold rated Row.HasAtLeast
  rw [Predicate.holds_conjunction, ← hrating, ← hreviews]
  simp

/-- The condition of a strategy is what it asks of products. -/
theorem holds_predicate {t : Table} {m : Memberships} {row : Row} (strategy : Strategy) :
    strategy.predicate.holds t m row = true ↔ strategy.Admits row := by
  cases strategy with
  | trending =>
    have hbound : trendingBounds.1 = .ofRatio false 9 2 := by decide +kernel
    show (rated trendingBounds).holds t m row = true ↔ row.HasAtLeast (.ofRatio false 9 2) 50
    rw [holds_rated, hbound]
    exact Iff.rfl
  | highRated =>
    have hbound : highRatedBounds.1 = .ofNat 4 := by decide +kernel
    show (rated highRatedBounds).holds t m row = true ↔ row.HasAtLeast (.ofNat 4) 10
    rw [holds_rated, hbound]
    exact Iff.rfl
  | bestsellers | new => exact iff_of_true rfl trivial

end Strategy

/-! ## Taking the best -/

namespace Store

/-- Rows are all those in stock that are eligible, each of them once, in the order of measures. -/
structure IsRanking (s : Store) (cs : List Criterion) (Eligible : Row → Prop) (ranking : List Row) :
    Prop where
  nodup : ranking.Nodup
  mem_iff : ∀ row, row ∈ ranking ↔ row ∈ s.table.rows ∧ row.inStock = true ∧ Eligible row
  pairwise : ranking.Pairwise (RanksBefore cs)

/-- Products are those of the first eligible rows in stock, as many as are asked for. -/
def TakesBest (s : Store) (cs : List Criterion) (Eligible : Row → Prop) (count : Nat)
    (products : List Product) : Prop :=
  ∃ ranking, s.IsRanking cs Eligible ranking ∧
    (ranking.take count).mapM Row.toProduct = .ok products

section Ranking

variable {s : Store} {faults : Faults} {cs : List Criterion} {Eligible : Row → Prop}

/-- There is one ranking only. -/
theorem IsRanking.eq {ranking other : List Row} (h : s.IsRanking cs Eligible ranking)
    (hother : s.IsRanking cs Eligible other) : ranking = other := by
  have hperm : ranking.Perm other := (List.perm_ext_iff_of_nodup h.nodup hother.nodup).2 fun row =>
    (h.mem_iff row).trans (hother.mem_iff row).symm
  exact hperm.eq_of_pairwise (fun r s _ _ hrs hsr => absurd hsr (not_ranksBefore hrs))
    h.pairwise hother.pairwise

theorem TakesBest.eq {count : Nat} {products others : List Product}
    (h : s.TakesBest cs Eligible count products) (hothers : s.TakesBest cs Eligible count others) :
    products = others := by
  obtain ⟨ranking, hranking, hproducts⟩ := h
  obtain ⟨other, hother, hothers⟩ := hothers
  cases hranking.eq hother
  exact Except.ok.inj (hproducts.symm.trans hothers)

theorem isRanking_nil (h : ∀ row ∈ s.table.rows, row.inStock = true → ¬Eligible row) :
    s.IsRanking cs Eligible [] where
  nodup := .nil
  mem_iff row := iff_of_false List.not_mem_nil fun ⟨hrow, hstock, heligible⟩ =>
    h row hrow hstock heligible
  pairwise := .nil

theorem takesBest_zero {ranking : List Row} (h : s.IsRanking cs Eligible ranking) :
    s.TakesBest cs Eligible 0 [] := ⟨ranking, h, by rw [List.take_zero, List.mapM_nil]; rfl⟩

variable {p : Predicate} {keys : List SortKey}
  (hread : List.Forall₂ SortKey.Reads keys cs)
  (hholds : ∀ row, p.holds s.table s.memberships row = true ↔ row.inStock = true ∧ Eligible row)

include hread hholds

/-- Ordering what matches gives the ranking. -/
theorem isRanking_of_orderRows {ranking : List Row}
    (h : orderRows keys (s.matching p) = .ok ranking) : s.IsRanking cs Eligible ranking := by
  obtain ⟨offset, hrows⟩ := s.exists_offset_matching p
  have hordered := (isInOrder_matching h).1
  refine ⟨hordered.nodup, fun row => ?_, ?_⟩
  · rw [hordered.perm.mem_iff, matching, List.mem_filter, hholds]
  · refine hordered.pairwise.imp_of_mem fun {r s} hr hs hrs => ?_
    exact (precedesBy_iff hread (hrows r (hordered.perm.mem_iff.1 hr))
      (hrows s (hordered.perm.mem_iff.1 hs))).1 hrs

/-- A query that is made only where the limit admits something takes the best. -/
theorem takesBest_of_limited (hkeys : ∀ key ∈ keys, ∃ column, key.IsTotal column) {limit : Int}
    {products : List Product}
    (h : (products = [] ∧ Limit.isNone (.int limit) = .ok true) ∨
      s.query faults ⟨p, keys, .int limit⟩ = .ok products) :
    s.TakesBest cs Eligible limit.toNat products := by
  rcases h with ⟨rfl, hnone⟩ | hquery
  · have hlimit : limit ≤ 0 := of_decide_eq_true (Except.ok.inj (isNone_int.symm.trans hnone))
    obtain ⟨ranking, hranking⟩ := exists_orderRows hkeys (s.matching p)
    rw [Int.toNat_of_nonpos hlimit]
    exact takesBest_zero (isRanking_of_orderRows hread hholds hranking)
  · have hlimited : s.query faults ⟨p, keys, (some limit).elim .null .int⟩ = .ok products := hquery
    obtain ⟨-, -, ranking, hranking, hproducts⟩ := query_eq_ok_of_limit.1 hlimited
    exact ⟨ranking, isRanking_of_orderRows hread hholds hranking, hproducts⟩

end Ranking

section Recalls

variable {s : Store} {faults : Faults} {limit : Int}

/-- A signal takes the best of the other products that meet its condition. -/
theorem takesBest_of_recallBy {signal : Signal} {source : Product} {rows : List Match}
    (h : s.recallBy faults signal source (.int limit) = .ok rows) :
    s.TakesBest (signal.criteria source)
      (fun row => row.id ≠ source.id ∧ signal.Matches s.memberships source row) limit.toNat
      (rows.map (·.product)) := by
  cases hsearch : signal.search? source with
  | none =>
    obtain rfl : rows = [] := by
      rcases recallBy_eq_ok h with ⟨hnil, -⟩ | ⟨p, keys, -, hsome, -⟩
      · exact hnil
      · cases hsearch.symm.trans hsome
    refine ⟨[], isRanking_nil fun row _ _ ⟨_, hmatches⟩ => ?_, by rw [List.take_nil]; rfl⟩
    obtain ⟨p, keys, hsome, -⟩ := Signal.exists_search_iff (t := s.table).2 hmatches
    cases hsearch.symm.trans hsome
  | some search =>
    obtain ⟨p, keys⟩ := search
    have hcondition : ∀ row, p.holds s.table s.memberships row = true ↔
        signal.Matches s.memberships source row := by
      intro row
      rw [← Signal.exists_search_iff (t := s.table), hsearch]
      simp
    have hholds : ∀ row, (eligible p source).holds s.table s.memberships row = true ↔
        row.inStock = true ∧ row.id ≠ source.id ∧ signal.Matches s.memberships source row := by
      intro row
      rw [holds_eligible, hcondition]
      exact ⟨fun ⟨hmatches, hstock, hother⟩ => ⟨hstock, hother, hmatches⟩,
        fun ⟨hstock, hother, hmatches⟩ => ⟨hmatches, hstock, hother⟩⟩
    have hkeys := Signal.isTotal_search hsearch
    have hread := (Signal.search?_eq_some.1 hsearch).reads
    refine takesBest_of_limited hread hholds hkeys (show _ ∨ s.query faults _ = _ from ?_)
    rcases recallBy_eq_ok h with ⟨rfl, hnone⟩ | ⟨p', keys', products, hsome, hquery, rfl⟩
    · rcases hnone with hnone | hnone
      · cases hsearch.symm.trans hnone
      · exact .inl ⟨rfl, hnone⟩
    · cases hsearch.symm.trans hsome
      rw [List.map_map]
      exact .inr (hquery.trans (congrArg Except.ok (List.map_id products).symm))

/-- A strategy takes the best of the products that it admits. -/
theorem takesBest_of_suggest {strategy : Strategy} {products : List Product}
    (h : s.suggest faults strategy (.int limit) = .ok products) :
    s.TakesBest strategy.criteria strategy.Admits limit.toNat products := by
  have hholds : ∀ row, (Predicate.conjunction [strategy.predicate, .inStock]).holds s.table
      s.memberships row = true ↔ row.inStock = true ∧ strategy.Admits row := by
    intro row
    have hstock : Predicate.inStock.holds s.table s.memberships row = true ↔ row.inStock = true :=
      Predicate.holds_stock
    rw [Predicate.holds_conjunction, ← hstock,
      ← strategy.holds_predicate (t := s.table) (m := s.memberships)]
    simp [and_comm]
  refine takesBest_of_limited strategy.reads_orderBy hholds strategy.isTotal_orderBy
    (show _ ∨ s.query faults _ = _ from ?_)
  obtain ⟨none?, hnone, h⟩ := bind_eq_ok.1 h
  cases none? with
  | true =>
    cases h
    exact .inl ⟨rfl, hnone⟩
  | false => exact .inr h

/-- Every recall that succeeds takes the best eligible products, and no other products are the best:
a signal takes the other products that meet its condition, and a strategy those that it admits. -/
theorem takesBest_of_recalls (s : Store) (faults : Faults) (limit : Int) :
    (∀ signal source rows, s.recallBy faults signal source (.int limit) = .ok rows →
      (∀ m ∈ rows, m.signal = signal ∧ m.weight = signal.weight) ∧
      ∀ others, s.TakesBest (signal.criteria source)
        (fun row => row.id ≠ source.id ∧ signal.Matches s.memberships source row) limit.toNat
        others ↔ others = rows.map (·.product)) ∧
    ∀ (strategy : Strategy) products, s.suggest faults strategy (.int limit) = .ok products →
      ∀ others, s.TakesBest strategy.criteria strategy.Admits limit.toNat others ↔
        others = products := by
  constructor
  · intro signal source rows h
    have hrecall := isRecall_of_recallBy h
    have hbest := takesBest_of_recallBy h
    refine ⟨fun m hm => ⟨hrecall.signal_eq m hm, hrecall.weight_eq m hm⟩, fun others => ?_⟩
    exact ⟨fun hothers => hothers.eq hbest, fun heq => heq ▸ hbest⟩
  · intro strategy products h others
    have hbest := takesBest_of_suggest h
    exact ⟨fun hothers => hothers.eq hbest, fun heq => heq ▸ hbest⟩

end Recalls

end Store

/-- Five products around a price of ten: three of them are reviewed, and the last one is out of
stock. -/
def Table.reviewed : Table where
  rows := [{ id := 1, price := some (.ofNat 10) },
    { id := 2, price := some (.ofNat 12), rating := some (.ofNat 5),
      reviewCount := some (.ofNat 60) },
    { id := 3, price := some (.ofNat 8), rating := some (.ofNat 5),
      reviewCount := some (.ofNat 80) },
    { id := 4, price := some (.ofNat 9) },
    { id := 5, price := some (.ofNat 10), rating := some (.ofNat 5),
      reviewCount := some (.ofNat 90), inStock := false }]
  ascending := by simp
  normal := by
    refine ⟨none, fun row hrow => ?_⟩
    simp only [List.mem_cons, List.not_mem_nil, or_false] at hrow
    rcases hrow with rfl | rfl | rfl | rfl | rfl
    all_goals exact ⟨rfl, fun column => by cases column <;> rfl, fun m hm => nomatch hm⟩

namespace Store

/-- The store of these products, without collections. -/
def reviewed : Store := .ofParts Table.reviewed [] .empty

/-- The first of the products, to which others are related. -/
def reviewedSource : Product := { id := 1, price := .ofNat 10 }

/-- Of the two products that are two away from the price, the one with the lower id is taken. -/
theorem takesBest_of_recalls_reviewed : ∃ rows products,
    reviewed.recallBy .none .price reviewedSource (.int 2) = .ok rows ∧
      rows.map (·.product.id) = [4, 2] ∧
      reviewed.TakesBest [.closeness (.ofNat 10)] (fun row => row.id ≠ 1 ∧
        Signal.price.Matches reviewed.memberships reviewedSource row) 2 (rows.map (·.product)) ∧
      reviewed.suggest .none .trending (.int 2) = .ok products ∧ products.map (·.id) = [3, 2] ∧
      reviewed.TakesBest [.rating, .reviews] Strategy.trending.Admits 2 products := by
  have hprice : (reviewed.recallBy .none .price reviewedSource (.int 2)).toOption.map
      (fun rows => rows.map (·.product.id)) = some [4, 2] := by
    decide +kernel
  have htrending : (reviewed.suggest .none .trending (.int 2)).toOption.map
      (fun products => products.map (·.id)) = some [3, 2] := by
    decide +kernel
  obtain ⟨rows, hrows, hids⟩ := exists_of_toOption_map_eq_some hprice
  obtain ⟨products, hproducts, htrends⟩ := exists_of_toOption_map_eq_some htrending
  obtain ⟨hsignals, hstrategies⟩ := takesBest_of_recalls reviewed .none 2
  exact ⟨rows, products, hrows, hids, ((hsignals .price reviewedSource rows hrows).2 _).2 rfl,
    hproducts, htrends, (hstrategies .trending products hproducts _).2 rfl⟩

end Store

end Storefront
