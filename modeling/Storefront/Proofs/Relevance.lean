import Mathlib.Data.List.Infix
import Storefront.Proofs.Related

/-!
# How relevant related products are

A signal speaks for every product that meets its condition, but recalls no more of them than the limit
says. What is left out of the related products is therefore no more relevant than what is among them as
far as it was recalled; a product may be more relevant only where a recall is full without it.

* `Signal.Matches`: the condition of a signal, stated on the row of a product
* `Signal.Searches`, `Signal.exists_search_iff`: the condition is what a signal searches for
* `Store.relevance`, `Store.recalledRelevance`: how much all signals that match, and those that recall,
  count for a product
* `Store.isFullWithout_of_not_isRecalled`: a signal that matches a product and does not recall it
  has a full recall
* `Store.Surpasses`, `Store.surpasses_of_related`: what is returned beside what is left out
-/

namespace Storefront

/-! ## Conditions -/

/-- The condition of a signal for a product beside a source: they are in one collection, the product's
tags contain a tag of the source in any case, the vendor or the type is the same, or the price is close
to that of the source. -/
def Signal.Matches (memberships : Memberships) (source : Product) (row : Row) : Signal → Prop
  | .collection => ∃ entry ∈ memberships.entries,
    source.id ∈ entry.2.map (·.id) ∧ row.id ∈ entry.2.map (·.id)
  | .tags => ∃ tag ∈ source.tags.toList, upper tag <:+: upper row.tags
  | .vendor => ∃ name, source.vendor = some name ∧ name ≠ "" ∧ row.vendor = some (.text name)
  | .price => source.price.isZero = false ∧ ∃ x, row.price = some x ∧
    (priceWindow source.price).1.le x = true ∧ x.le (priceWindow source.price).2 = true
  | .type => ∃ name, source.productType = some name ∧ name ≠ "" ∧ row.productType = some (.text name)

section Conditions

variable {t : Table} {m : Memberships} {source : Product} {row : Row}

theorem presentText?_eq_some {s : Option String} {name : String} :
    presentText? s = some name ↔ s = some name ∧ name ≠ "" := by
  unfold presentText?
  rw [Option.filter_eq_some_iff]
  simp

/-- A product shares a collection with another one if both are members of it. -/
theorem holds_sharesCollection {id : Int} :
    (Predicate.sharesCollection (.int id)).holds t m row = true ↔
      ∃ entry ∈ m.entries, id ∈ entry.2.map (·.id) ∧ row.id ∈ entry.2.map (·.id) := by
  have hmember : ∀ entry : Int × List Member,
      (entry.2.any fun member => (Value.int member.id).equals (.int id)) = true ↔
        id ∈ entry.2.map (·.id) := by
    intro entry
    rw [List.any_eq_true, List.mem_map]
    simp only [Value.equals_int]
  rw [Predicate.holds, List.contains_iff_mem, Memberships.companions, List.mem_flatMap]
  constructor
  · intro h
    obtain ⟨entry, hentry, hrow⟩ := h
    obtain ⟨hentry, hany⟩ := List.mem_filter.1 hentry
    exact ⟨entry, hentry, (hmember entry).1 hany, hrow⟩
  · intro h
    obtain ⟨entry, hentry, hid, hrow⟩ := h
    exact ⟨entry, List.mem_filter.2 ⟨hentry, (hmember entry).2 hid⟩, hrow⟩

theorem holds_anyTag {tags : List String} :
    (Predicate.disjunction (tags.map fun tag => .fieldContains "tags" (.text tag))).holds t m row =
      true ↔ ∃ tag ∈ tags, upper tag <:+: upper row.tags := by
  rw [Predicate.holds_disjunction]
  constructor
  · intro h
    obtain ⟨p, hp, hholds⟩ := h
    obtain ⟨tag, htag, rfl⟩ := List.mem_map.1 hp
    exact ⟨tag, htag, Predicate.holds_tags.1 hholds⟩
  · intro h
    obtain ⟨tag, htag, hpart⟩ := h
    exact ⟨_, List.mem_map.2 ⟨tag, htag, rfl⟩, Predicate.holds_tags.2 hpart⟩

theorem holds_priceBetween {low high : Binary64} :
    (Predicate.fieldRange "price" (some (.float low)) (some (.float high))).holds t m row = true ↔
      ∃ x, row.price = some x ∧ low.le x = true ∧ x.le high = true := by
  show (Predicate.fieldRange "price" ((some low).map .float) ((some high).map .float)).holds t m row =
    true ↔ _
  rw [Predicate.holds_priceRange]
  simp

/-- What a signal searches for, if the source has what the signal goes by. -/
inductive Signal.Searches (source : Product) : Signal → Predicate → List SortKey → Prop
  | collection : Searches source .collection (.sharesCollection (.int source.id)) []
  | tags {tag : String} (h : tag ∈ source.tags.toList) :
    Searches source .tags (.disjunction (source.tags.toList.map fun tag =>
      .fieldContains "tags" (.text tag))) []
  | vendor {name : String} (h : source.vendor = some name) (hne : name ≠ "") :
    Searches source .vendor (.fieldEquals "vendor" (.text name)) byQuality
  | price (h : source.price.isZero = false) :
    Searches source .price (.fieldRange "price" (some (.float (priceWindow source.price).1))
      (some (.float (priceWindow source.price).2)))
      [{ field := "price", distanceTo := .float source.price }]
  | type {name : String} (h : source.productType = some name) (hne : name ≠ "") :
    Searches source .type (.fieldEquals "product_type" (.text name)) byQuality

theorem Signal.search?_eq_some {signal : Signal} {p : Predicate} {keys : List SortKey} :
    signal.search? source = some (p, keys) ↔ Searches source signal p keys := by
  constructor
  · intro h
    unfold search? at h
    cases signal with
    | collection =>
      cases h
      exact .collection
    | tags =>
      dsimp only at h
      split at h
      · cases h
      · rename_i hsome
        cases h
        obtain ⟨tag, htag⟩ := List.exists_mem_of_ne_nil source.tags.toList (by simpa using hsome)
        exact .tags htag
    | vendor =>
      obtain ⟨name, hname, hpair⟩ := Option.map_eq_some_iff.1 h
      cases hpair
      exact .vendor (presentText?_eq_some.1 hname).1 (presentText?_eq_some.1 hname).2
    | price =>
      dsimp only at h
      split at h
      · cases h
      · rename_i hzero
        cases h
        exact .price (Bool.eq_false_iff.2 hzero)
    | type =>
      obtain ⟨name, hname, hpair⟩ := Option.map_eq_some_iff.1 h
      cases hpair
      exact .type (presentText?_eq_some.1 hname).1 (presentText?_eq_some.1 hname).2
  · intro h
    unfold search?
    cases h with
    | collection => rfl
    | tags htag => exact if_neg (by simpa using List.ne_nil_of_mem htag)
    | vendor hvendor hne =>
      exact Option.map_eq_some_iff.2 ⟨_, presentText?_eq_some.2 ⟨hvendor, hne⟩, rfl⟩
    | price hzero =>
      dsimp only
      rw [if_neg (Bool.eq_false_iff.1 hzero)]
    | type htype hne =>
      exact Option.map_eq_some_iff.2 ⟨_, presentText?_eq_some.2 ⟨htype, hne⟩, rfl⟩

/-- The condition of a signal is what it searches for. -/
theorem Signal.exists_search_iff {signal : Signal} :
    (∃ p keys, signal.search? source = some (p, keys) ∧ p.holds t m row = true) ↔
      signal.Matches m source row := by
  constructor
  · intro h
    obtain ⟨p, keys, hsearch, hholds⟩ := h
    cases search?_eq_some.1 hsearch with
    | collection => exact holds_sharesCollection.1 hholds
    | tags => exact holds_anyTag.1 hholds
    | vendor hvendor hne => exact ⟨_, hvendor, hne, Predicate.holds_vendor.1 hholds⟩
    | price hzero => exact ⟨hzero, holds_priceBetween.1 hholds⟩
    | type htype hne => exact ⟨_, htype, hne, Predicate.holds_productType.1 hholds⟩
  · intro h
    cases signal with
    | collection => exact ⟨_, _, search?_eq_some.2 .collection, holds_sharesCollection.2 h⟩
    | tags =>
      have hsource := h
      obtain ⟨tag, htag, -⟩ := hsource
      exact ⟨_, _, search?_eq_some.2 (.tags htag), holds_anyTag.2 h⟩
    | vendor =>
      obtain ⟨name, hvendor, hne, hrow⟩ := h
      exact ⟨_, _, search?_eq_some.2 (.vendor hvendor hne), Predicate.holds_vendor.2 hrow⟩
    | price =>
      obtain ⟨hzero, hprice⟩ := h
      exact ⟨_, _, search?_eq_some.2 (.price hzero), holds_priceBetween.2 hprice⟩
    | type =>
      obtain ⟨name, htype, hne, hrow⟩ := h
      exact ⟨_, _, search?_eq_some.2 (.type htype hne), Predicate.holds_productType.2 hrow⟩

instance (m : Memberships) (source : Product) (row : Row) (signal : Signal) :
    Decidable (signal.Matches m source row) :=
  decidable_of_iff ((signal.search? source).any fun search => search.1.holds .empty m row) (by
    rw [← Signal.exists_search_iff, Option.any_eq_true]
    exact ⟨fun ⟨search, hsearch, hholds⟩ => ⟨search.1, search.2, hsearch, hholds⟩,
      fun ⟨p, keys, hsearch, hholds⟩ => ⟨(p, keys), hsearch, hholds⟩⟩)

end Conditions

/-! ## Tenths -/

section Tenths

variable {signals others : List Signal} {a b : Nat}

theorem totalTenths_cons (signal : Signal) (signals : List Signal) :
    totalTenths (signal :: signals) = signal.tenths + totalTenths signals := by
  have hstart : ∀ start, signals.foldl (fun total signal => total + signal.tenths) start =
      start + totalTenths signals := by
    unfold totalTenths
    induction signals with
    | nil => exact fun _ => rfl
    | cons first rest ih =>
      intro start
      rw [List.foldl_cons, List.foldl_cons, ih, ih (0 + first.tenths)]
      omega
  unfold totalTenths at hstart ⊢
  rw [List.foldl_cons, hstart, Nat.zero_add]

theorem totalTenths_le_of_sublist (h : signals.Sublist others) :
    totalTenths signals ≤ totalTenths others := by
  induction h with
  | slnil => exact Nat.le_refl _
  | cons signal _ ih =>
    rw [totalTenths_cons]
    exact Nat.le_trans ih (Nat.le_add_left _ _)
  | cons_cons signal _ ih =>
    rw [totalTenths_cons, totalTenths_cons]
    exact Nat.add_le_add_left ih _

/-- Different signals count the same in whatever order they are listed. -/
theorem totalTenths_eq_of_mem_iff (hsignals : signals.Nodup) (hothers : others.Nodup)
    (h : ∀ signal, signal ∈ signals ↔ signal ∈ others) :
    totalTenths signals = totalTenths others := by
  have hperm : signals.Perm others := (List.perm_ext_iff_of_nodup hsignals hothers).2 h
  unfold totalTenths
  exact hperm.foldl_eq' (fun _ _ _ _ total => Nat.add_right_comm total _ _) 0

/-- Different signals count as some of all signals do, in the order of recall. -/
theorem exists_sublist_of_nodup (h : signals.Nodup) :
    ∃ recalled, recalled.Sublist Signal.all ∧ totalTenths signals = totalTenths recalled := by
  refine ⟨Signal.all.filter (· ∈ signals), List.filter_sublist, ?_⟩
  refine totalTenths_eq_of_mem_iff h (List.Nodup.sublist List.filter_sublist (by decide)) ?_
  intro signal
  simp [signal.mem_all]

theorem ten_le_totalTenths (h : signals ≠ []) : 10 ≤ totalTenths signals := by
  obtain ⟨signal, rest, rfl⟩ := List.exists_cons_of_ne_nil h
  have hsignal : 10 ≤ signal.tenths := by cases signal <;> decide
  rw [totalTenths_cons]
  omega

theorem bonusTenths_mem (p : Product) : bonusTenths p ∈ [0, 3, 5, 8] := by
  unfold bonusTenths
  split <;> split <;> decide

theorem bonusTenths_le (p : Product) : bonusTenths p ≤ 8 := by
  have hmem := bonusTenths_mem p
  simp only [List.mem_cons, List.not_mem_nil, or_false] at hmem
  omega

/-- The most tenths that a product can have. -/
def mostTenths : Nat := 108

theorem totalTenths_add_bonusTenths_le (h : signals.Nodup) (p : Product) :
    totalTenths signals + bonusTenths p ≤ mostTenths := by
  obtain ⟨recalled, hsublist, heq⟩ := exists_sublist_of_nodup h
  have htotal : totalTenths recalled ≤ 100 := totalTenths_le_of_sublist hsublist
  have hbonus := bonusTenths_le p
  unfold mostTenths
  omega

/-- Adding the bonus to a sum of weights gives the double nearest to the exact score. -/
theorem add_ofTenths : ∀ signals ∈ Signal.all.sublists, ∀ bonus ∈ [0, 3, 5, 8],
    (ofTenths (totalTenths signals)).add (ofTenths bonus) =
      ofTenths (totalTenths signals + bonus) := by
  decide +kernel

theorem ofTenths_lt_succ : ∀ n ∈ List.range mostTenths,
    (ofTenths n).lt (ofTenths (n + 1)) = true := by
  decide +kernel

/-- Doubles nearest to different numbers of tenths are different, and in the same order. -/
theorem ofTenths_lt (hab : a < b) (hb : b ≤ mostTenths) : (ofTenths a).lt (ofTenths b) = true := by
  induction b with
  | zero => exact absurd hab (Nat.not_lt_zero a)
  | succ b ih =>
    have hstep := ofTenths_lt_succ b (List.mem_range.2 hb)
    rcases Nat.lt_succ_iff_lt_or_eq.1 hab with hlt | rfl
    · obtain ⟨x, y, hx, hy, hxy⟩ := Binary64.lt_eq_true.1 (ih hlt (Nat.le_of_succ_le hb))
      obtain ⟨y', z, hy', hz, hyz⟩ := Binary64.lt_eq_true.1 hstep
      cases hy.symm.trans hy'
      exact Binary64.lt_eq_true.2 ⟨x, z, hx, hz, Int.lt_trans hxy hyz⟩
    · exact hstep

theorem le_of_ofTenths_le (h : (ofTenths a).le (ofTenths b) = true) (ha : a ≤ mostTenths) :
    a ≤ b := by
  by_contra hlt
  obtain ⟨x, y, hx, hy, hxy⟩ := Binary64.le_eq_true.1 h
  obtain ⟨y', x', hy', hx', hyx⟩ := Binary64.lt_eq_true.1 (ofTenths_lt (Nat.lt_of_not_le hlt) ha)
  cases hx.symm.trans hx'
  cases hy.symm.trans hy'
  exact Int.not_le.2 hyx hxy

/-- The exact score of a candidate, in tenths. -/
def Candidate.tenths (c : Candidate) : Nat := totalTenths c.signals + bonusTenths c.product

/-- The score of a candidate that says why it is one is the double nearest to its exact score. -/
theorem IsExplained.score_eq_ofTenths {recalls : Signal → List Match} {c : Candidate}
    (h : IsExplained recalls c) : c.score = ofTenths c.tenths := by
  obtain ⟨recalled, hsublist, heq⟩ := exists_sublist_of_nodup h.nodup
  rw [h.score_eq, Candidate.tenths, heq]
  exact add_ofTenths recalled (List.mem_sublists.2 hsublist) _ (bonusTenths_mem c.product)

theorem IsExplained.isNan_score {recalls : Signal → List Match} {c : Candidate}
    (h : IsExplained recalls c) : c.score.isNan = false := by
  rw [h.score_eq, ← (qualityBonus_eq c.product).1]
  exact Binary64.isNan_add h.isTenths.1 (qualityBonus_eq c.product).2

end Tenths

/-! ## What a ranking leaves out -/

section Ranking

variable {candidates cs : List Candidate} {c d : Candidate} {limit : Int}

theorem mem_of_rank (h : rank candidates (.int limit) = .ok cs) (hc : c ∈ cs) : c ∈ candidates := by
  rw [rank_int] at h
  cases h
  exact mem_sortBy.1 (List.mem_of_mem_take hc)

/-- A candidate that a ranking leaves out scores no more than one that it keeps. -/
theorem score_le_of_not_mem (hscore : ∀ c ∈ candidates, c.score.isNan = false)
    (h : rank candidates (.int limit) = .ok cs) (hc : c ∈ cs) (hd : d ∈ candidates)
    (hout : d ∉ cs) : d.score.le c.score = true := by
  rw [rank_int] at h
  cases h
  -- the ranking with a limit that keeps all candidates is the whole order
  have hwhole : rank candidates (.int candidates.length) =
      .ok (sortBy (fun a b => scoreBefore a.score b.score) candidates) := by
    rw [rank_int, Int.toNat_natCast, List.take_of_length_le (Nat.le_of_eq (length_sortBy _ _))]
  have hordered := pairwise_rank hscore (List.pairwise_of_forall fun _ _ => trivial) hwhole
  have hmem : d ∈ sortBy (fun a b => scoreBefore a.score b.score) candidates := mem_sortBy.2 hd
  rw [← List.take_append_drop limit.toNat (sortBy _ candidates), List.pairwise_append] at hordered
  rw [← List.take_append_drop limit.toNat (sortBy _ candidates)] at hmem
  exact (hordered.2.2 c hc d ((List.mem_append.1 hmem).resolve_left hout)).1

end Ranking

/-! ## Relevance -/

namespace Store

variable {s : Store} {faults : Faults} {source p : Product} {limit : Int} {row : Row}
  {signal : Signal} {signals : List Signal} {rows : List Match}

/-- How relevant a product is, in tenths: the weights of the signals whose condition it meets, and its
bonus. -/
def relevance (s : Store) (signals : List Signal) (source : Product) (row : Row) (p : Product) :
    Nat :=
  totalTenths (signals.filter fun signal => signal.Matches s.memberships source row) + bonusTenths p

/-- A signal recalls a product. -/
def IsRecalled (s : Store) (faults : Faults) (source : Product) (limit id : Int)
    (signal : Signal) : Prop :=
  ∃ rows, s.recallBy faults signal source (.int limit) = .ok rows ∧ id ∈ rows.map (·.product.id)

instance (s : Store) (faults : Faults) (source : Product) (limit id : Int) (signal : Signal) :
    Decidable (s.IsRecalled faults source limit id signal) :=
  match h : s.recallBy faults signal source (.int limit) with
  | .ok rows => decidable_of_iff (id ∈ rows.map (·.product.id))
      ⟨fun hmem => ⟨rows, h, hmem⟩, fun ⟨_, hrows, hmem⟩ => by cases h.symm.trans hrows; exact hmem⟩
  | .error _ => .isFalse fun ⟨_, hrows, _⟩ => by cases h.symm.trans hrows

/-- How relevant a product is as far as it is recalled, in tenths: the weights of the signals that
recall it, and its bonus. -/
def recalledRelevance (s : Store) (faults : Faults) (signals : List Signal) (source : Product)
    (limit : Int) (p : Product) : Nat :=
  totalTenths (signals.filter fun signal => s.IsRecalled faults source limit p.id signal) +
    bonusTenths p

/-- The recall of a signal has as many products as the limit admits, and a product is not among
them. -/
def IsFullWithout (s : Store) (faults : Faults) (source : Product) (limit id : Int)
    (signal : Signal) : Prop :=
  ∃ rows, s.recallBy faults signal source (.int limit) = .ok rows ∧ rows.length = limit.toNat ∧
    id ∉ rows.map (·.product.id)

/-- A product of the catalog is left out of related ones, although it is in stock and is not the
source. -/
structure IsLeftOut (s : Store) (source : Product) (cs : List Candidate) (row : Row) (p : Product) :
    Prop where
  stored : row ∈ s.table.rows
  reads : row.toProduct = .ok p
  inStock : p.inStock = true
  ne_source : p.id ≠ source.id
  not_mem : p.id ∉ cs.map (·.product.id)

/-- What a candidate has over a product that is left out. -/
structure Surpasses (s : Store) (faults : Faults) (signals : List Signal) (source : Product)
    (limit : Int) (c : Candidate) (row : Row) (p : Product) : Prop where
  /-- As far as it is recalled, the product is no more relevant than the candidate. -/
  recalled_le : s.recalledRelevance faults signals source limit p ≤ c.tenths
  /-- The product is no more relevant than that of the candidate, unless a signal whose condition it
  meets has a full recall without it. -/
  relevance_le : (∀ signal ∈ signals, signal.Matches s.memberships source row →
      ¬s.IsFullWithout faults source limit p.id signal) →
    ∀ kept ∈ s.table.rows, kept.toProduct = .ok c.product →
      s.relevance signals source row p ≤ s.relevance signals source kept c.product

/-! ### Recalls -/

/-- A product that a signal recalls meets its condition. -/
theorem matches_of_mem_recall (h : s.recallBy faults signal source (.int limit) = .ok rows)
    {m : Match} (hm : m ∈ rows) :
    ∃ row ∈ s.table.rows, row.toProduct = .ok m.product ∧
      signal.Matches s.memberships source row := by
  rcases recallBy_eq_ok h with ⟨rfl, -⟩ | ⟨condition, keys, products, hsearch, hquery, rfl⟩
  · cases hm
  · obtain ⟨product, hproduct, rfl⟩ := List.mem_map.1 hm
    obtain ⟨row, hrow, hread, hholds⟩ :=
      Table.exists_row_of_mem_query (query_eq_ok.1 hquery).2 hproduct
    exact ⟨row, hrow, hread,
      Signal.exists_search_iff.1 ⟨condition, keys, hsearch, (holds_eligible.1 hholds).1⟩⟩

/-- A query with a limit gives every product that matches, or as many as the limit admits. -/
theorem length_query_of_not_mem {condition : Predicate} {keys : List SortKey}
    {products : List Product}
    (h : s.query faults ⟨condition, keys, .int limit⟩ = .ok products)
    (hrow : row ∈ s.table.rows) (hholds : condition.holds s.table s.memberships row = true)
    (hread : row.toProduct = .ok p) (hout : p ∉ products) : products.length = limit.toNat := by
  obtain ⟨selected, hselect, hproducts⟩ := Table.query_eq_ok.1 (query_eq_ok.1 h).2
  obtain ⟨ordered, count, -, hordered, hcount, rfl⟩ := Table.select_eq_ok.1 hselect
  cases hcount
  have hmem : row ∈ ordered :=
    (perm_of_orderRows hordered).mem_iff.2 (List.mem_filter.2 ⟨hrow, hholds⟩)
  -- were there fewer matching rows than the limit admits, the product would be among them
  have hlong : limit.toNat ≤ ordered.length := by
    by_contra hshort
    rw [Option.elim_some, List.take_of_length_le (Nat.le_of_not_le hshort)] at hproducts
    obtain ⟨product, hproduct, hread'⟩ := exists_of_mapM_eq_ok hproducts hmem
    cases hread.symm.trans hread'
    exact hout hproduct
  have hids := map_eq_of_mapM_eq_ok (fun _ _ => Row.id_of_toProduct) hproducts
  have hlength := congrArg List.length hids
  rw [List.length_map, List.length_map, Option.elim_some, List.length_take] at hlength
  rw [hlength, Nat.min_eq_left hlong]

/-- A signal that does not recall a product that it could recall has a full recall without it. -/
theorem isFullWithout_of_not_isRecalled (hlimit : 0 < limit)
    (h : s.recallBy faults signal source (.int limit) = .ok rows) (hrow : row ∈ s.table.rows)
    (hread : row.toProduct = .ok p) (hstock : p.inStock = true) (hother : p.id ≠ source.id)
    (hmatches : signal.Matches s.memberships source row)
    (hout : ¬s.IsRecalled faults source limit p.id signal) :
    s.IsFullWithout faults source limit p.id signal := by
  have hnot : p.id ∉ rows.map (·.product.id) := fun hmem => hout ⟨rows, h, hmem⟩
  refine ⟨rows, h, ?_, hnot⟩
  obtain ⟨condition, keys, hsearch, hholds⟩ :=
    (Signal.exists_search_iff (t := s.table)).2 hmatches
  rcases recallBy_eq_ok h with ⟨-, hnone | hle⟩ | ⟨condition', keys', products, hsearch', hquery, rfl⟩
  · cases hsearch.symm.trans hnone
  · have hadmits : limit ≤ 0 := of_decide_eq_true (Except.ok.inj (isNone_int.symm.trans hle))
    exact absurd hadmits (Int.not_le.2 hlimit)
  · cases hsearch.symm.trans hsearch'
    rw [List.length_map]
    have heligible : (eligible condition source).holds s.table s.memberships row = true :=
      holds_eligible.2 ⟨hholds, (Row.inStock_of_toProduct hread).symm.trans hstock, fun hid =>
        hother ((Row.id_of_toProduct hread).trans hid)⟩
    refine length_query_of_not_mem hquery hrow heligible hread fun hmem => hnot ?_
    rw [List.map_map]
    exact List.mem_map.2 ⟨p, hmem, rfl⟩

/-- Products are recalled by selected signals, and by no others. -/
structure AreRecalls (s : Store) (faults : Faults) (signals : List Signal) (source : Product)
    (limit : Int) (recalls : Signal → List Match) : Prop where
  recalled : ∀ signal ∈ signals, s.recallBy faults signal source (.int limit) = .ok (recalls signal)
  eq_nil : ∀ signal, signal ∉ signals → recalls signal = []

section Recalls

variable {recalls : Signal → List Match} {cs : List Candidate} {c d : Candidate}
  (h : s.AreRecalls faults signals source limit recalls)

include h

theorem AreRecalls.isRecall (signal : Signal) : IsRecall s signal source (recalls signal) := by
  by_cases hsignal : signal ∈ signals
  · exact isRecall_of_recallBy (h.recalled signal hsignal)
  · rw [h.eq_nil signal hsignal]
    exact isRecall_nil

theorem AreRecalls.mem_iff {id : Int} :
    id ∈ (recalls signal).map (·.product.id) ↔
      signal ∈ signals ∧ s.IsRecalled faults source limit id signal := by
  constructor
  · intro hid
    by_cases hsignal : signal ∈ signals
    · exact ⟨hsignal, _, h.recalled signal hsignal, hid⟩
    · rw [h.eq_nil signal hsignal] at hid
      cases hid
  · intro hid
    obtain ⟨hsignal, rows, hrows, hmem⟩ := hid
    cases (h.recalled signal hsignal).symm.trans hrows
    exact hmem

/-- The product of a candidate is that of a row of the catalog. -/
theorem exists_row_of_mem_gather (hc : c ∈ gather (Signal.all.flatMap recalls)) :
    ∃ row ∈ s.table.rows, row.toProduct = .ok c.product := by
  obtain ⟨⟨signal, m, hm, hproduct⟩, -⟩ := isExplained_of_mem_gather h.isRecall hc
  obtain ⟨row, hrow, hread⟩ := (h.isRecall signal).stored m hm
  rw [hproduct] at hread
  exact ⟨row, hrow, hread⟩

/-- A candidate scores what its product is worth as far as it is recalled. -/
theorem tenths_of_mem_gather (hnodup : signals.Nodup)
    (hc : c ∈ gather (Signal.all.flatMap recalls)) :
    c.tenths = s.recalledRelevance faults signals source limit c.product := by
  obtain ⟨⟨first, m, hm, hproduct⟩, hexplained⟩ := isExplained_of_mem_gather h.isRecall hc
  have hsignals : totalTenths c.signals = totalTenths (signals.filter fun signal =>
      s.IsRecalled faults source limit c.product.id signal) := by
    refine totalTenths_eq_of_mem_iff hexplained.nodup (hnodup.filter _) fun signal => ?_
    rw [hexplained.mem_signals, List.mem_filter, decide_eq_true_iff, ← h.mem_iff]
    constructor
    · intro hmem
      obtain ⟨n, hn, heq⟩ := List.mem_map.1 hmem
      exact List.mem_map.2 ⟨n, hn, congrArg Product.id heq⟩
    · intro hmem
      obtain ⟨n, hn, hid⟩ := List.mem_map.1 hmem
      have heq : n.product = m.product := product_eq_of_id_eq h.isRecall hn hm (by
        rw [hid, hproduct])
      exact List.mem_map.2 ⟨n, hn, heq.trans hproduct⟩
  rw [Candidate.tenths, recalledRelevance, hsignals]

/-- A candidate that the ranking leaves out has no more tenths than one that it keeps. -/
theorem tenths_le_of_not_mem
    (hrank : rank (gather (Signal.all.flatMap recalls)) (.int limit) = .ok cs) (hc : c ∈ cs)
    (hd : d ∈ gather (Signal.all.flatMap recalls)) (hout : d ∉ cs) : d.tenths ≤ c.tenths := by
  have hexplained : ∀ c ∈ gather (Signal.all.flatMap recalls), IsExplained recalls c :=
    fun c hc => (isExplained_of_mem_gather h.isRecall hc).2
  have hle := score_le_of_not_mem (fun c hc => (hexplained c hc).isNan_score) hrank hc hd hout
  rw [(hexplained c (mem_of_rank hrank hc)).score_eq_ofTenths, (hexplained d hd).score_eq_ofTenths]
    at hle
  exact le_of_ofTenths_le hle (totalTenths_add_bonusTenths_le (hexplained d hd).nodup d.product)

omit h in
/-- A product is no more relevant as far as it is recalled than it is. -/
theorem recalledRelevance_le (hrow : row ∈ s.table.rows) (hread : row.toProduct = .ok p) :
    s.recalledRelevance faults signals source limit p ≤ s.relevance signals source row p := by
  refine Nat.add_le_add_right (totalTenths_le_of_sublist ?_) _
  refine List.monotone_filter_right signals fun signal hrecalled => decide_eq_true ?_
  obtain ⟨rows, hrows, hmem⟩ := of_decide_eq_true hrecalled
  obtain ⟨m, hm, hid⟩ := List.mem_map.1 hmem
  obtain ⟨other, hother, hreadother, hmatches⟩ := matches_of_mem_recall hrows hm
  have hsame : other.id = row.id := by
    rw [← Row.id_of_toProduct hreadother, ← Row.id_of_toProduct hread, hid]
  rw [← s.table.eq_of_id_eq hother hrow hsame]
  exact hmatches

omit h in
/-- A product is no more relevant than it is recalled if every signal whose condition it meets recalls
it. -/
theorem relevance_le_recalledRelevance
    (hrecalled : ∀ signal ∈ signals, signal.Matches s.memberships source row →
      s.IsRecalled faults source limit p.id signal) :
    s.relevance signals source row p ≤ s.recalledRelevance faults signals source limit p := by
  have hboth : (signals.filter fun signal => signal.Matches s.memberships source row) =
      signals.filter fun signal => decide (signal.Matches s.memberships source row) &&
        decide (s.IsRecalled faults source limit p.id signal) := by
    refine List.filter_congr fun signal hsignal => ?_
    by_cases hmatches : signal.Matches s.memberships source row
    · rw [decide_eq_true hmatches, decide_eq_true (hrecalled signal hsignal hmatches)]
      rfl
    · rw [decide_eq_false hmatches]
      rfl
  unfold relevance recalledRelevance
  rw [hboth]
  refine Nat.add_le_add_right (totalTenths_le_of_sublist ?_) _
  exact List.monotone_filter_right signals fun signal hsignal => (Bool.and_eq_true_iff.1 hsignal).2

/-- A product of which there is no candidate has its bonus only, as far as it is recalled. -/
theorem recalledRelevance_of_not_gathered
    (hnone : ∀ d ∈ gather (Signal.all.flatMap recalls), d.product.id ≠ p.id) :
    s.recalledRelevance faults signals source limit p = bonusTenths p := by
  have hnil : (signals.filter fun signal => s.IsRecalled faults source limit p.id signal) = [] := by
    rw [List.filter_eq_nil_iff]
    intro signal hsignal hrecalled
    obtain ⟨m, hm, hid⟩ := List.mem_map.1 (h.mem_iff.2 ⟨hsignal, of_decide_eq_true hrecalled⟩)
    have hrow : p.id ∈ (Signal.all.flatMap recalls).map (·.product.id) :=
      List.mem_map.2 ⟨m, List.mem_flatMap.2 ⟨signal, signal.mem_all, hm⟩, hid⟩
    obtain ⟨d, hd, hdid⟩ := List.mem_map.1 (((gathered_rows _).mem_ids p.id).2 hrow)
    exact hnone _ (List.mem_map.2 ⟨d, hd, rfl⟩) hdid
  unfold recalledRelevance
  rw [hnil]
  exact Nat.zero_add _

theorem ten_le_tenths_of_mem_gather (hc : c ∈ gather (Signal.all.flatMap recalls)) :
    10 ≤ c.tenths :=
  Nat.le_add_right_of_le
    (ten_le_totalTenths (isExplained_of_mem_gather h.isRecall hc).2.ne_nil)

/-- A product that the ranking leaves out has, as far as it is recalled, no more tenths than a
candidate that it keeps. -/
theorem recalledRelevance_le_of_rank (hnodup : signals.Nodup)
    (hrank : rank (gather (Signal.all.flatMap recalls)) (.int limit) = .ok cs) (hc : c ∈ cs)
    (hout : s.IsLeftOut source cs row p) :
    s.recalledRelevance faults signals source limit p ≤ c.tenths := by
  by_cases hgathered : ∃ d ∈ gather (Signal.all.flatMap recalls), d.product.id = p.id
  · obtain ⟨d, hd, hid⟩ := hgathered
    obtain ⟨other, hother, hread⟩ := exists_row_of_mem_gather h hd
    have hsame : other.id = row.id := by
      rw [← Row.id_of_toProduct hread, ← Row.id_of_toProduct hout.reads, hid]
    cases s.table.eq_of_id_eq hother hout.stored hsame
    cases hread.symm.trans hout.reads
    rw [← tenths_of_mem_gather h hnodup hd]
    refine tenths_le_of_not_mem h hrank hc hd fun hmem => ?_
    exact hout.not_mem (List.mem_map.2 ⟨d, hmem, rfl⟩)
  · -- a single signal counts for more than any bonus
    have hbonus := recalledRelevance_of_not_gathered (p := p) h fun d hd hid =>
      hgathered ⟨d, hd, hid⟩
    rw [hbonus]
    exact (bonusTenths_le p).trans
      (Nat.le_trans (by decide) (ten_le_tenths_of_mem_gather h (mem_of_rank hrank hc)))

/-- What the ranking keeps surpasses what it leaves out. -/
theorem surpasses_of_rank (hnodup : signals.Nodup)
    (hrank : rank (gather (Signal.all.flatMap recalls)) (.int limit) = .ok cs) (hc : c ∈ cs)
    (hout : s.IsLeftOut source cs row p) :
    s.Surpasses faults signals source limit c row p where
  recalled_le := recalledRelevance_le_of_rank h hnodup hrank hc hout
  relevance_le := by
    intro hfull kept hkept hread
    have hlimit : 0 < limit := by
      by_contra hle
      rw [rank_int, Int.toNat_of_nonpos (Int.not_lt.1 hle), List.take_zero] at hrank
      cases hrank
      cases hc
    have hrecalled : ∀ signal ∈ signals, signal.Matches s.memberships source row →
        s.IsRecalled faults source limit p.id signal := by
      intro signal hsignal hmatches
      by_contra hnot
      exact hfull signal hsignal hmatches (isFullWithout_of_not_isRecalled hlimit
        (h.recalled signal hsignal) hout.stored hout.reads hout.inStock hout.ne_source hmatches hnot)
    calc s.relevance signals source row p
        ≤ s.recalledRelevance faults signals source limit p := relevance_le_recalledRelevance hrecalled
      _ ≤ c.tenths := recalledRelevance_le_of_rank h hnodup hrank hc hout
      _ = s.recalledRelevance faults signals source limit c.product :=
        tenths_of_mem_gather h hnodup (mem_of_rank hrank hc)
      _ ≤ s.relevance signals source kept c.product := recalledRelevance_le hkept hread

end Recalls

/-- What is recalled for related candidates is ranked. -/
theorem exists_recalls_of_relatedCandidates {id options : Value} {cs : List Candidate}
    (hsource : s.product? id = .ok (some source)) (hsignals : Signal.select options = .ok signals)
    (h : s.relatedCandidates faults id (.int limit) options = .ok cs) :
    ∃ recalls, s.AreRecalls faults signals source limit recalls ∧
      rank (gather (Signal.all.flatMap recalls)) (.int limit) = .ok cs := by
  obtain ⟨found, hfound, h⟩ := bind_eq_ok.1 h
  cases hsource.symm.trans hfound
  obtain ⟨signals', hsignals', h⟩ := bind_eq_ok.1 h
  cases hsignals.symm.trans hsignals'
  obtain ⟨rows, hrows, hrank⟩ := bind_eq_ok.1 h
  obtain ⟨isAsked, rfl, -⟩ := Signal.exists_filter_of_select hsignals
  obtain ⟨recalls, hrecalls, hothers, rfl⟩ := exists_recalls hrows
  refine ⟨recalls, ⟨fun signal hsignal => ?_, fun signal hsignal => ?_⟩, hrank⟩
  · exact hrecalls signal (List.mem_filter.1 hsignal).2
  · apply hothers signal
    rw [← Bool.not_eq_true]
    exact fun hasked => hsignal (List.mem_filter.2 ⟨signal.mem_all, hasked⟩)

theorem nodup_of_select {options : Value} (h : Signal.select options = .ok signals) :
    signals.Nodup := by
  obtain ⟨isAsked, rfl, -⟩ := Signal.exists_filter_of_select h
  exact List.Nodup.sublist List.filter_sublist (by decide)

/-- What is related to a product surpasses what is left out: as far as it was recalled, a product left
out is no more relevant, and it is no more relevant at all unless a recall is full without it. Scores
are the doubles nearest to the exact ones. -/
theorem surpasses_of_related {id options : Value} {cs : List Candidate}
    (hsource : s.product? id = .ok (some source)) (hsignals : Signal.select options = .ok signals)
    (h : s.related faults id (.int limit) options = .ok cs) :
    ∀ c ∈ cs, c.score = ofTenths c.tenths ∧
      ∀ row p, s.IsLeftOut source cs row p →
        s.Surpasses faults signals source limit c row p := by
  intro c hc
  have hcandidates : s.relatedCandidates faults id (.int limit) options = .ok cs := by
    unfold related orNothing at h
    split at h
    · cases h
      cases hc
    · exact h
  obtain ⟨recalls, hrecalls, hrank⟩ :=
    exists_recalls_of_relatedCandidates hsource hsignals hcandidates
  have hexplained := (isExplained_of_mem_gather hrecalls.isRecall (mem_of_rank hrank hc)).2
  exact ⟨hexplained.score_eq_ofTenths, fun row p hout =>
    surpasses_of_rank hrecalls (nodup_of_select hsignals) hrank hc hout⟩

end Store

/-- Three products in one collection, of which the first and the last have a vendor. -/
def Table.crowded : Table where
  rows := [{ id := 1, price := some .zero, vendor := some (.text "Acme") },
    { id := 2, price := some .zero },
    { id := 3, price := some .zero, vendor := some (.text "Acme") }]
  ascending := by simp
  normal := by
    refine ⟨none, fun row hrow => ?_⟩
    simp only [List.mem_cons, List.not_mem_nil, or_false] at hrow
    rcases hrow with rfl | rfl | rfl
    all_goals exact ⟨rfl, fun column => by cases column <;> rfl, fun m hm => nomatch hm⟩

namespace Store

/-- The store of these products and their collection. -/
def crowded : Store :=
  .ofParts Table.crowded [] (Memberships.empty.replace 10 [.ofId 1, .ofId 2, .ofId 3])

/-- With a limit of one, the second product takes the only place in the recall by collection. -/
theorem exists_related_crowded : ∃ cs, crowded.related .none (.int 1) (.int 1) .null = .ok cs ∧
    cs.map (·.product) = [{ id := 2 }] := by
  have hvalue : (crowded.related .none (.int 1) (.int 1) .null).toOption.map
      (fun cs => cs.map (·.product)) = some [{ id := 2 }] := by
    decide +kernel
  cases hcs : crowded.related .none (.int 1) (.int 1) .null with
  | error failure =>
    rw [hcs] at hvalue
    cases hvalue
  | ok cs =>
    rw [hcs] at hvalue
    exact ⟨cs, rfl, Option.some.inj hvalue⟩

/-- The first of the products, to which others are related. -/
def crowdedSource : Product := { id := 1, vendor := some "Acme" }

/-- The last of the products, which is left out, and its row. -/
def crowdedOut : Product := { id := 3, vendor := some "Acme" }

@[inherit_doc crowdedOut]
def crowdedOutRow : Row := { id := 3, price := some .zero, vendor := some (.text "Acme") }

theorem product?_crowded : crowded.product? (.int 1) = .ok (some crowdedSource) := rfl

theorem isLeftOut_crowded {cs : List Candidate} (h : cs.map (·.product) = [{ id := 2 }]) :
    crowded.IsLeftOut crowdedSource cs crowdedOutRow crowdedOut where
  stored := List.mem_cons_of_mem _ (List.mem_cons_of_mem _ List.mem_cons_self)
  reads := rfl
  inStock := rfl
  ne_source := by decide
  not_mem := by
    intro hmem
    obtain ⟨c, hc, hid⟩ := List.mem_map.1 hmem
    have hproduct : c.product ∈ cs.map (·.product) := List.mem_map.2 ⟨c, hc, rfl⟩
    rw [h] at hproduct
    rw [List.mem_singleton.1 hproduct] at hid
    cases hid

/-- The last product has the vendor and the collection of the first, and is recalled by its vendor
only. -/
theorem surpasses_crowded : ∃ cs, crowded.related .none (.int 1) (.int 1) .null = .ok cs ∧
    (∀ c ∈ cs, c.score = ofTenths c.tenths ∧
      crowded.Surpasses .none Signal.all crowdedSource 1 c crowdedOutRow crowdedOut) ∧
    crowded.recalledRelevance .none Signal.all crowdedSource 1 crowdedOut = 15 ∧
    crowded.relevance Signal.all crowdedSource crowdedOutRow crowdedOut = 45 := by
  obtain ⟨cs, hcs, hproducts⟩ := exists_related_crowded
  have hall := surpasses_of_related product?_crowded rfl hcs
  refine ⟨cs, hcs, fun c hc => ?_, by decide +kernel, by decide +kernel⟩
  exact ⟨(hall c hc).1, (hall c hc).2 _ _ (isLeftOut_crowded hproducts)⟩

/-- Related products are not always the most relevant ones: here the last product is left out, although
it is more relevant than the one that is returned. -/
theorem not_forall_relevance_le : ¬ ∀ (s : Store) (id limit : Int) (options : Value)
    (source : Product) (signals : List Signal) (cs : List Candidate),
    s.product? (.int id) = .ok (some source) → Signal.select options = .ok signals → 0 < limit →
    s.related .none (.int id) (.int limit) options = .ok cs →
    ∀ c ∈ cs, ∀ row p, s.IsLeftOut source cs row p →
      ∀ kept ∈ s.table.rows, kept.toProduct = .ok c.product →
        s.relevance signals source row p ≤ s.relevance signals source kept c.product := by
  intro h
  obtain ⟨cs, hcs, hproducts⟩ := exists_related_crowded
  have hmem : ({ id := 2 } : Product) ∈ cs.map (·.product) := by
    rw [hproducts]
    exact List.mem_singleton.2 rfl
  obtain ⟨c, hc, hproduct⟩ := List.mem_map.1 hmem
  have hkept : ({ id := 2, price := some .zero } : Row) ∈ crowded.table.rows :=
    List.mem_cons_of_mem _ List.mem_cons_self
  have hle := h crowded 1 1 .null crowdedSource Signal.all cs product?_crowded rfl (by decide) hcs c hc
    crowdedOutRow crowdedOut (isLeftOut_crowded hproducts) _ hkept (by rw [hproduct]; rfl)
  rw [hproduct] at hle
  revert hle
  decide +kernel

end Store

end Storefront
