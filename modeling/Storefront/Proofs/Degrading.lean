import Storefront.Proofs.Relevance

/-!
# Recommendations from a store that fails

A request for recommendations reads the store a few times. If every read succeeds it gives all that it
should, and if one fails as a failure of the store it gives nothing. A query can fail in no other way
but for a count of reviews that is endless; the lookup of the source, however, passes on whatever is
wrong with its row.

* `Row.HasEndlessCount`, `Row.failure_of_toProduct`: how a row fails to give a product
* `exists_orderRows`: orders that never fail
* `Store.Escapes`, `Store.escapes_of_query`: how a query fails other than as a failure of the store
* `Store.relatedFailure?`, `Store.suggestedFailure?`: the first failure among the reads of a request
* `Degrades`, `Store.recommendations_degrade`: what a request gives
-/

namespace Storefront

/-! ## Rows -/

/-- The count of reviews is beyond all numbers. -/
def Row.HasEndlessCount (row : Row) : Prop := ∃ x, row.reviewCount = some x ∧ x.isFinite = false

theorem failure_of_wholeCount {x : Option Binary64} {e : Failure}
    (h : Row.wholeCount x = .error e) : e = .overflow ∧ ∃ y, x = some y ∧ y.isFinite = false := by
  cases x with
  | none => cases h
  | some y =>
    unfold Row.wholeCount Binary64.truncate? at h
    dsimp only at h
    cases hy : y.isFinite with
    | false =>
      rw [hy] at h
      cases h
      exact ⟨rfl, y, rfl, hy⟩
    | true =>
      rw [hy] at h
      cases h

theorem Checked.exists_of_result_eq_error {α : Type} {x : Checked α} {e : Failure}
    (h : x.result = .error e) : ∃ faults, e = .invalidRecord faults := by
  cases x with
  | accepted a => cases h
  | refused faults =>
    cases h
    exact ⟨faults, rfl⟩

/-- The fields that are refused, if an outcome fails for that. -/
def refused? {α : Type} : Except Failure α → Option (List FieldFault)
  | .error (.invalidRecord refused) => some refused
  | _ => none

theorem refused?_eq_some {α : Type} {x : Except Failure α} {refused : List FieldFault} :
    refused? x = some refused ↔ x = .error (.invalidRecord refused) := by
  constructor
  · intro h
    unfold refused? at h
    split at h
    · cases h
      rfl
    · cases h
  · intro h
    rw [h]
    rfl

/-- A row fails to give a product because its count is endless, or else because fields are refused. -/
theorem Row.failure_of_toProduct {row : Row} {e : Failure} (h : row.toProduct = .error e) :
    (e = .overflow ∧ row.HasEndlessCount) ∨ ∃ faults, e = .invalidRecord faults := by
  unfold toProduct at h
  cases hcount : wholeCount row.reviewCount with
  | error e' =>
    rw [hcount] at h
    cases h
    exact .inl (failure_of_wholeCount hcount)
  | ok count =>
    rw [hcount] at h
    exact .inr (Checked.exists_of_result_eq_error h)

/-! ## Orders that never fail -/

/-- A key puts every list of rows in order: it compares cells that can be had of every row and hold
no values. -/
structure SortKey.IsTotal (key : SortKey) (column : Column) : Prop where
  column_eq : Predicate.column key.field = .ok column
  check_eq : key.checkDistance column = .ok ()
  exists_cell : ∀ row, ∃ cell, key.cell column row = .ok cell ∧ ∀ v, cell ≠ .value v

theorem SortKey.IsTotal.exists_sort {key : SortKey} {column : Column} (h : key.IsTotal column)
    (rows : List Row) : ∃ sorted, key.sort rows = .ok sorted := by
  have hpair : ∀ row ∈ rows, ∃ pair : Cell × Row,
      (do return (← key.cell column row, row) : Except Failure (Cell × Row)) = .ok pair := by
    intro row _
    obtain ⟨cell, hcell, -⟩ := h.exists_cell row
    exact ⟨(cell, row), bind_eq_ok.2 ⟨cell, hcell, rfl⟩⟩
  obtain ⟨keyed, hkeyed⟩ := exists_mapM_eq_ok hpair
  refine ⟨_, sort_eq_ok.2 ⟨column, keyed, h.column_eq, h.check_eq, hkeyed, ?_, rfl⟩⟩
  apply areSortable_of_no_value
  intro cell hcell v
  obtain ⟨pair, hpair, rfl⟩ := List.mem_map.1 hcell
  obtain ⟨row, -, hrow⟩ := mem_of_mapM_eq_ok hkeyed hpair
  obtain ⟨cell', hcell', hrow⟩ := bind_eq_ok.1 hrow
  cases hrow
  obtain ⟨found, hfound, hnovalue⟩ := h.exists_cell row
  cases hcell'.symm.trans hfound
  exact hnovalue v

/-- Keys that put every list in order do so one after the other. -/
theorem exists_orderRows {keys : List SortKey} (h : ∀ key ∈ keys, ∃ column, key.IsTotal column)
    (rows : List Row) : ∃ sorted, orderRows keys rows = .ok sorted := by
  unfold orderRows
  induction keys with
  | nil => exact ⟨rows, rfl⟩
  | cons key keys ih =>
    obtain ⟨middle, hmiddle⟩ := ih fun other hother => h other (List.mem_cons_of_mem key hother)
    obtain ⟨column, htotal⟩ := h key List.mem_cons_self
    obtain ⟨sorted, hsorted⟩ := htotal.exists_sort middle
    exact ⟨sorted, bind_eq_ok.2 ⟨middle, hmiddle, hsorted⟩⟩

theorem ofNumber?_ne_value (x : Option Binary64) (v : Value) : Cell.ofNumber? x ≠ .value v := by
  cases x <;> exact fun h => nomatch h

theorem ofMoment?_ne_value (m : Option Moment) (v : Value) : Cell.ofMoment? m ≠ .value v := by
  cases m <;> exact fun h => nomatch h

theorem isTotal_rating : SortKey.IsTotal { field := "rating", descending := true } .rating :=
  ⟨rfl, rfl, fun row => ⟨_, rfl, ofNumber?_ne_value row.rating⟩⟩

theorem isTotal_reviewCount :
    SortKey.IsTotal { field := "review_count", descending := true } .reviewCount :=
  ⟨rfl, rfl, fun row => ⟨_, rfl, ofNumber?_ne_value row.reviewCount⟩⟩

theorem isTotal_bestsellerScore :
    SortKey.IsTotal { field := "bestseller_score", descending := true } .bestsellerScore :=
  ⟨rfl, rfl, fun row => ⟨_, rfl, ofNumber?_ne_value row.bestsellerScore⟩⟩

theorem isTotal_createdAt :
    SortKey.IsTotal { field := "created_at", descending := true } .createdAt :=
  ⟨rfl, rfl, fun row => ⟨_, rfl, ofMoment?_ne_value row.createdAt⟩⟩

/-- The distance of a row from a price is that of its own price; a missing price has none. -/
theorem cell_distance (price : Binary64) (row : Row) :
    SortKey.cell { field := "price", distanceTo := .float price } .price row =
      .ok (row.price.elim .missing fun x => SortKey.numberCell (x.sub price).abs) := by
  have hcell : row.cell .price = .ofNumber? row.price := rfl
  unfold SortKey.cell
  rw [hcell]
  cases row.price <;> rfl

theorem isTotal_distance (price : Binary64) :
    SortKey.IsTotal { field := "price", distanceTo := .float price } .price := by
  refine ⟨rfl, rfl, fun row => ⟨_, cell_distance price row, fun v => ?_⟩⟩
  cases row.price with
  | none => exact fun h => nomatch h
  | some x =>
    show SortKey.numberCell (x.sub price).abs ≠ .value v
    unfold SortKey.numberCell
    split <;> exact fun h => nomatch h

theorem isTotal_byQuality : ∀ key ∈ byQuality, ∃ column, key.IsTotal column := by
  intro key hkey
  simp only [byQuality, List.mem_cons, List.not_mem_nil, or_false] at hkey
  rcases hkey with rfl | rfl
  · exact ⟨_, isTotal_rating⟩
  · exact ⟨_, isTotal_reviewCount⟩

/-- The order in which a signal takes products never fails. -/
theorem Signal.isTotal_search {signal : Signal} {source : Product} {p : Predicate}
    {keys : List SortKey} (h : signal.search? source = some (p, keys)) :
    ∀ key ∈ keys, ∃ column, key.IsTotal column := by
  cases search?_eq_some.1 h with
  | collection | tags => exact fun key hkey => nomatch hkey
  | vendor | type => exact isTotal_byQuality
  | price =>
    intro key hkey
    rw [List.mem_singleton.1 hkey]
    exact ⟨_, isTotal_distance source.price⟩

/-- The order in which a strategy takes products never fails. -/
theorem Strategy.isTotal_orderBy (strategy : Strategy) :
    ∀ key ∈ strategy.orderBy, ∃ column, key.IsTotal column := by
  cases strategy with
  | trending => exact isTotal_byQuality
  | highRated => exact isTotal_byQuality
  | bestsellers =>
    intro key hkey
    simp only [orderBy, List.mem_cons, List.not_mem_nil, or_false] at hkey
    rcases hkey with rfl | rfl
    · exact ⟨_, isTotal_bestsellerScore⟩
    · exact ⟨_, isTotal_reviewCount⟩
  | new =>
    intro key hkey
    rw [List.mem_singleton.1 hkey]
    exact ⟨_, isTotal_createdAt⟩

/-! ## Conditions that can be decided -/

section Conditions

variable {t : Table}

/-- What a signal searches for can be decided on every table. -/
theorem Signal.check_search {signal : Signal} {source : Product} {p : Predicate}
    {keys : List SortKey} (h : signal.search? source = some (p, keys)) : p.check t = .ok () := by
  cases search?_eq_some.1 h with
  | collection | vendor | price | type => rfl
  | tags =>
    refine Predicate.check_disjunction.2 fun q hq => ?_
    obtain ⟨tag, -, rfl⟩ := List.mem_map.1 hq
    rfl

theorem check_eligible {p : Predicate} (h : p.check t = .ok ()) (source : Product) :
    (eligible p source).check t = .ok () := by
  refine Predicate.check_conjunction.2 fun q hq => ?_
  simp only [List.mem_cons, List.not_mem_nil, or_false] at hq
  rcases hq with rfl | rfl | rfl
  · exact h
  · rfl
  · rfl

/-- A least rating and a least number of reviews can be decided, if the number is in range. -/
theorem Strategy.check_rated {bounds : Binary64 × Nat}
    (h : (Binary64.ofInt? bounds.2).isNone = false) : (rated bounds).check t = .ok () := by
  refine Predicate.check_conjunction.2 fun q hq => ?_
  simp only [List.mem_cons, List.not_mem_nil, or_false] at hq
  rcases hq with rfl | rfl
  · rfl
  · have hrange : Predicate.checkRange .reviewCount (.int bounds.2) = .ok () := by
      unfold Predicate.checkRange
      dsimp only
      rw [if_neg]
      exact fun hboth => Bool.false_ne_true (h.symm.trans hboth.2)
    have hbound : Predicate.checkBound t .reviewCount (some (.int bounds.2)) = .ok () :=
      bind_eq_ok.2 ⟨(), rfl, bind_eq_ok.2 ⟨(), hrange, rfl⟩⟩
    exact bind_eq_ok.2 ⟨.reviewCount, rfl, bind_eq_ok.2 ⟨(), hbound, rfl⟩⟩

theorem Strategy.check_predicate (strategy : Strategy) : strategy.predicate.check t = .ok () := by
  cases strategy with
  | trending => exact check_rated (by decide +kernel)
  | highRated => exact check_rated (by decide +kernel)
  | bestsellers => rfl
  | new => rfl

end Conditions

/-! ## Queries that fail -/

/-- A failure is one of the store. -/
def Failure.IsOfStore (failure : Failure) : Prop := ∃ op cause, failure = .store op cause

namespace Store

variable {s : Store} {faults : Faults} {source : Product} {limit : Int} {failure : Failure}

/-- What a query can fail with, beside failures of the store: something else that the scan fails with,
and an endless count of a product in stock. -/
inductive Escapes (s : Store) (faults : Faults) : Failure → Prop
  | scan {p : Predicate} {failure : Failure} (h : faults.scan p = some failure) :
    Escapes s faults failure
  | count {row : Row} (hrow : row ∈ s.table.rows) (hstock : row.inStock = true)
    (hcount : row.HasEndlessCount) : Escapes s faults .overflow

/-- A query that can be decided and put in order, for products in stock, fails as the store does or as
an endless count does. -/
theorem escapes_of_query {condition : Predicate} {keys : List SortKey}
    (hcheck : condition.check s.table = .ok ())
    (hkeys : ∀ key ∈ keys, ∃ column, key.IsTotal column)
    (hstock : ∀ row, condition.holds s.table s.memberships row = true → row.inStock = true)
    (h : s.query faults ⟨condition, keys, .int limit⟩ = .error failure) :
    failure.IsOfStore ∨ s.Escapes faults failure := by
  unfold Store.query at h
  split at h
  · rename_i cause hscan
    cases h
    exact .inr (.scan hscan)
  · -- the rows are selected without fail, so that only reading one of them can go wrong
    obtain ⟨ordered, hordered⟩ := exists_orderRows hkeys
      (s.table.rows.filter fun row => condition.holds s.table s.memberships row)
    have hselect : s.table.select s.memberships ⟨condition, keys, .int limit⟩ =
        .ok (ordered.take limit.toNat) :=
      Table.select_eq_ok.2 ⟨ordered, some limit.toNat, hcheck, hordered, rfl, rfl⟩
    unfold Table.query at h
    rw [hselect] at h
    dsimp only at h
    split at h
    · rename_i e hrows
      cases h
      obtain ⟨row, hrow, hfails⟩ := exists_of_mapM_eq_error hrows
      obtain ⟨hmem, hholds⟩ := Table.holds_of_mem_select hselect hrow
      rcases Row.failure_of_toProduct hfails with ⟨rfl, hcount⟩ | ⟨refused, rfl⟩
      · exact .inr (.count hmem (hstock row hholds) hcount)
      · exact .inl ⟨_, _, rfl⟩
    · cases h

theorem escapes_of_recallBy {signal : Signal}
    (h : s.recallBy faults signal source (.int limit) = .error failure) :
    failure.IsOfStore ∨ s.Escapes faults failure := by
  unfold recallBy at h
  cases hsearch : signal.search? source with
  | none =>
    rw [hsearch] at h
    cases h
  | some search =>
    rw [hsearch] at h
    rcases bind_eq_error.1 h with hnone | ⟨isNone, -, h⟩
    · cases isNone_int.symm.trans hnone
    · cases isNone with
      | true => cases h
      | false =>
        rcases bind_eq_error.1 h with hquery | ⟨products, -, h⟩
        · exact escapes_of_query (check_eligible (Signal.check_search hsearch) source)
            (Signal.isTotal_search hsearch) (fun row hrow => (holds_eligible.1 hrow).2.1) hquery
        · cases h

theorem escapes_of_suggest {strategy : Strategy}
    (h : s.suggest faults strategy (.int limit) = .error failure) :
    failure.IsOfStore ∨ s.Escapes faults failure := by
  unfold suggest at h
  rcases bind_eq_error.1 h with hnone | ⟨isNone, -, h⟩
  · cases isNone_int.symm.trans hnone
  · cases isNone with
    | true => cases h
    | false =>
      refine escapes_of_query ?_ strategy.isTotal_orderBy (fun row hrow => ?_) h
      · refine Predicate.check_conjunction.2 fun q hq => ?_
        simp only [List.mem_cons, List.not_mem_nil, or_false] at hq
        rcases hq with rfl | rfl
        · exact strategy.check_predicate
        · rfl
      · exact Predicate.holds_stock.1 (Predicate.holds_conjunction.1 hrow .inStock (by simp))

/-- The product with an id is that of the row with the id, if there is one. -/
theorem product?_int (s : Store) (id : Int) :
    (∃ row ∈ s.table.rows, row.id = id ∧ s.product? (.int id) = row.toProduct.map some) ∨
      (∀ row ∈ s.table.rows, row.id ≠ id) ∧ s.product? (.int id) = .ok none := by
  have hcheck : (Predicate.fieldEquals "id" (.int id)).check s.table = .ok () := rfl
  unfold Store.product? Table.product?
  dsimp only
  rw [hcheck]
  dsimp only [bind, Except.bind]
  cases hrow : s.table.rows.find? fun row =>
      (Predicate.fieldEquals "id" (.int id)).holds s.table .empty row with
  | none =>
    refine .inr ⟨fun row hmem hid => ?_, rfl⟩
    exact List.find?_eq_none.1 hrow row hmem (Predicate.holds_id.2 hid)
  | some row =>
    refine .inl ⟨row, List.mem_of_find?_eq_some hrow,
      Predicate.holds_id.1 (List.find?_some hrow :), ?_⟩
    dsimp only
    cases row.toProduct <;> rfl

end Store

/-! ## Requests -/

/-- What a request gives, with the first failure among its reads: the whole answer if there is none,
nothing if it is one of the store, and otherwise that failure, for a reason that is known. -/
structure Degrades {α : Type} (failure? : Option Failure) (Escapes : Failure → Prop)
    (whole answer : Except Failure (List α)) : Prop where
  whole : failure? = none → ∃ xs, whole = .ok xs ∧ answer = .ok xs
  nothing : ∀ failure, failure? = some failure → failure.IsOfStore → answer = .ok []
  raised : ∀ failure, failure? = some failure → ¬failure.IsOfStore →
    answer = .error failure ∧ Escapes failure

/-- Taking no products from a store that fails degrades what would fail as the first read does. -/
theorem degrades_orNothing {α : Type} {failure? : Option Failure} {Escapes : Failure → Prop}
    {whole : Except Failure (List α)} (hnone : failure? = none → ∃ xs, whole = .ok xs)
    (hsome : ∀ failure, failure? = some failure →
      whole = .error failure ∧ (failure.IsOfStore ∨ Escapes failure)) :
    Degrades failure? Escapes whole (orNothing whole) where
  whole h := by
    obtain ⟨xs, hxs⟩ := hnone h
    rw [hxs]
    exact ⟨xs, rfl, rfl⟩
  nothing failure h hstore := by
    obtain ⟨op, cause, rfl⟩ := hstore
    rw [(hsome _ h).1]
    rfl
  raised failure h hstore := by
    obtain ⟨hwhole, hescapes⟩ := hsome failure h
    refine ⟨?_, hescapes.resolve_left hstore⟩
    rw [hwhole]
    unfold orNothing
    split
    · rename_i op cause heq
      cases heq
      exact absurd ⟨op, cause, rfl⟩ hstore
    · rfl

/-- Options that list the names of signals. -/
def signalOptions (names : List String) : Value :=
  .object [("signals", .list (names.map .text))]

/-- The signals that names ask for; no name asks for all of them. -/
def Signal.ofNames (names : List String) : List Signal :=
  if names.isEmpty then all else named (names.map .text)

theorem Signal.select_signalOptions (names : List String) :
    select (signalOptions names) = .ok (ofNames names) := by
  cases names <;> rfl

namespace Store

variable {s : Store} {faults : Faults} {id limit : Int} {names : List String} {failure : Failure}

/-! ### Related products -/

/-- The first failure among the reads for related products: the lookup of the source, and the recalls
of the signals. -/
def relatedFailure? (s : Store) (faults : Faults) (id limit : Int) (names : List String) :
    Option Failure :=
  match s.product? (.int id) with
  | .error failure => some failure
  | .ok none => none
  | .ok (some source) =>
    firstFailure (fun signal => s.recallBy faults signal source (.int limit)) (Signal.ofNames names)

/-- What a request for related products can fail with: whatever is wrong with the row of the source, and
what a query can fail with. -/
inductive EscapesRelated (s : Store) (faults : Faults) (id : Int) : Failure → Prop
  | source {row : Row} {failure : Failure} (hrow : row ∈ s.table.rows) (hid : row.id = id)
    (hread : row.toProduct = .error failure) : EscapesRelated s faults id failure
  | query {failure : Failure} (h : s.Escapes faults failure) : EscapesRelated s faults id failure

/-- Where no read fails, the recalls are gathered and ranked. -/
theorem exists_relatedCandidates (h : s.relatedFailure? faults id limit names = none) :
    ∃ cs, s.relatedCandidates faults (.int id) (.int limit) (signalOptions names) = .ok cs := by
  unfold relatedFailure? at h
  split at h
  · cases h
  · rename_i hsource
    exact ⟨[], bind_eq_ok.2 ⟨none, hsource, rfl⟩⟩
  · rename_i source hsource
    obtain ⟨lists, hlists⟩ := firstFailure_eq_none.1 h
    have hrows : s.recallEach faults (Signal.ofNames names) source (.int limit) =
        .ok lists.flatten := bind_eq_ok.2 ⟨lists, hlists, rfl⟩
    exact ⟨_, bind_eq_ok.2 ⟨some source, hsource, bind_eq_ok.2 ⟨_,
      Signal.select_signalOptions names, bind_eq_ok.2 ⟨_, hrows, rank_int⟩⟩⟩⟩

theorem relatedCandidates_of_failure (h : s.relatedFailure? faults id limit names = some failure) :
    s.relatedCandidates faults (.int id) (.int limit) (signalOptions names) = .error failure := by
  unfold relatedFailure? at h
  split at h
  · rename_i hsource
    cases h
    exact bind_eq_error.2 (.inl hsource)
  · cases h
  · rename_i source hsource
    have hrows : s.recallEach faults (Signal.ofNames names) source (.int limit) = .error failure :=
      bind_eq_error.2 (.inl (firstFailure_eq_some.1 h))
    exact bind_eq_error.2 (.inr ⟨some source, hsource, bind_eq_error.2 (.inr ⟨_,
      Signal.select_signalOptions names, bind_eq_error.2 (.inl hrows)⟩)⟩)

theorem escapes_of_relatedFailure? (h : s.relatedFailure? faults id limit names = some failure) :
    failure.IsOfStore ∨ s.EscapesRelated faults id failure := by
  unfold relatedFailure? at h
  split at h
  · rename_i hsource
    cases h
    rcases s.product?_int id with ⟨row, hrow, hid, hlookup⟩ | ⟨-, hlookup⟩
    · rw [hlookup] at hsource
      cases hread : row.toProduct with
      | ok p =>
        rw [hread] at hsource
        cases hsource
      | error e =>
        rw [hread] at hsource
        cases hsource
        exact .inr (.source hrow hid hread)
    · cases hlookup.symm.trans hsource
  · cases h
  · obtain ⟨signal, -, hfails⟩ := exists_of_mapM_eq_error (firstFailure_eq_some.1 h)
    exact (escapes_of_recallBy hfails).imp_right .query

/-! ### Suggested products -/

/-- The products that a plan suggests, if no read fails. -/
def suggestions (s : Store) (faults : Faults) (limit : Value) :
    Plan → Except Failure (List Product)
  | .single strategy => s.suggest faults strategy limit
  | .mixed => s.mixed faults limit

theorem suggested_eq_orNothing (s : Store) (faults : Faults) (limit : Value) (plan : Plan) :
    s.suggested faults limit plan = orNothing (s.suggestions faults limit plan) := by
  cases plan <;> rfl

/-- The first failure among the reads for suggested products, each of which queries for a strategy; a
limit whose third is beyond all numbers fails before them. -/
def suggestedFailure? (s : Store) (faults : Faults) (limit : Int) : Plan → Option Failure
  | .single strategy =>
    firstFailure (fun strategy => s.suggest faults strategy (.int limit)) [strategy]
  | .mixed => match Limit.quota (.int limit) with
    | .error failure => some failure
    | .ok quota =>
      firstFailure (fun strategy => s.suggest faults strategy (.int quota)) mixedStrategies

/-- What a request for suggested products can fail with: a limit that is too great to be shared, and
what a query can fail with. -/
inductive EscapesSuggested (s : Store) (faults : Faults) (limit : Int) : Plan → Failure → Prop
  | share (h : (Binary64.ofRatio (limit < 0) limit.natAbs Limit.shares).isFinite = false) :
    EscapesSuggested s faults limit .mixed .overflow
  | query {plan : Plan} {failure : Failure} (h : s.Escapes faults failure) :
    EscapesSuggested s faults limit plan failure

theorem failure_of_third {n : Int} (h : Limit.third (.whole n) = .error failure) :
    failure = .overflow ∧ (Binary64.ofRatio (n < 0) n.natAbs Limit.shares).isFinite = false := by
  unfold Limit.third at h
  dsimp only at h
  split at h
  · cases h
  · rename_i hfinite
    cases h
    exact ⟨rfl, Bool.eq_false_iff.2 hfinite⟩

theorem isFinite_of_third {n : Int} {x : Binary64} (h : Limit.third (.whole n) = .ok x) :
    x.isFinite = true := by
  unfold Limit.third at h
  dsimp only at h
  split at h
  · rename_i hfinite
    cases h
    exact hfinite
  · cases h

/-- A limit has no share only if its third is beyond all numbers. -/
theorem failure_of_quota (h : Limit.quota (.int limit) = .error failure) :
    failure = .overflow ∧
      (Binary64.ofRatio (limit < 0) limit.natAbs Limit.shares).isFinite = false := by
  unfold Limit.quota at h
  rcases bind_eq_error.1 h with hnone | ⟨isNone, -, h⟩
  · cases isNone_int.symm.trans hnone
  · cases isNone with
    | true => cases h
    | false =>
      rcases bind_eq_error.1 h with hfails | ⟨x, hx, h⟩
      · exact failure_of_third hfails
      · unfold Binary64.ceil? at h
        rw [if_pos (isFinite_of_third hx)] at h
        cases h

theorem exists_mix (streams : List (List Product)) (limit : Int) :
    ∃ products, mix streams (.int limit) = .ok products := by
  unfold mix
  rw [isNone_int]
  by_cases hlimit : limit ≤ 0
  · rw [decide_eq_true hlimit]
    exact ⟨_, rfl⟩
  · rw [decide_eq_false hlimit]
    exact ⟨_, rfl⟩

/-- Where no read fails, a plan gives its products. -/
theorem exists_suggestions {plan : Plan} (h : s.suggestedFailure? faults limit plan = none) :
    ∃ products, s.suggestions faults (.int limit) plan = .ok products := by
  cases plan with
  | single strategy =>
    obtain ⟨lists, hlists⟩ := firstFailure_eq_none.1 h
    obtain ⟨products, -, hproducts⟩ := exists_of_mapM_eq_ok hlists (List.mem_singleton.2 rfl)
    exact ⟨products, hproducts⟩
  | mixed =>
    unfold suggestedFailure? at h
    dsimp only at h
    split at h
    · cases h
    · rename_i quota hquota
      obtain ⟨streams, hstreams⟩ := firstFailure_eq_none.1 h
      obtain ⟨products, hproducts⟩ := exists_mix streams limit
      exact ⟨products, bind_eq_ok.2 ⟨quota, hquota, bind_eq_ok.2 ⟨streams, hstreams, hproducts⟩⟩⟩

theorem suggestions_of_failure {plan : Plan}
    (h : s.suggestedFailure? faults limit plan = some failure) :
    s.suggestions faults (.int limit) plan = .error failure ∧
      (failure.IsOfStore ∨ s.EscapesSuggested faults limit plan failure) := by
  cases plan with
  | single strategy =>
    obtain ⟨found, hfound, hfails⟩ := exists_of_mapM_eq_error (firstFailure_eq_some.1 h)
    cases List.mem_singleton.1 hfound
    exact ⟨hfails, (escapes_of_suggest hfails).imp_right .query⟩
  | mixed =>
    unfold suggestedFailure? at h
    dsimp only at h
    split at h
    · rename_i hquota
      cases h
      obtain ⟨rfl, hthird⟩ := failure_of_quota hquota
      exact ⟨bind_eq_error.2 (.inl hquota), .inr (.share hthird)⟩
    · rename_i quota hquota
      have hstreams := firstFailure_eq_some.1 h
      obtain ⟨strategy, -, hfails⟩ := exists_of_mapM_eq_error hstreams
      refine ⟨?_, (escapes_of_suggest hfails).imp_right .query⟩
      exact bind_eq_error.2 (.inr ⟨quota, hquota, bind_eq_error.2 (.inl hstreams)⟩)

/-! ### Both -/

/-- Recommendations are given as a whole, or not at all where a read fails as a failure of the store.
The failures that are passed on are those of the row of the source, of an endless count of reviews, of
a limit that is too great to be shared, and of a scan that does not fail as the store does. -/
theorem recommendations_degrade (s : Store) (faults : Faults) :
    (∀ id limit names, Degrades (s.relatedFailure? faults id limit names)
      (s.EscapesRelated faults id)
      (s.relatedCandidates faults (.int id) (.int limit) (signalOptions names))
      (s.related faults (.int id) (.int limit) (signalOptions names))) ∧
    ∀ limit plan, Degrades (s.suggestedFailure? faults limit plan)
      (s.EscapesSuggested faults limit plan) (s.suggestions faults (.int limit) plan)
      (s.suggested faults (.int limit) plan) := by
  constructor
  · intro id limit names
    exact degrades_orNothing exists_relatedCandidates fun failure h =>
      ⟨relatedCandidates_of_failure h, escapes_of_relatedFailure? h⟩
  · intro limit plan
    rw [suggested_eq_orNothing]
    exact degrades_orNothing exists_suggestions fun failure h => suggestions_of_failure h

/-- A product with a negative price, which the catalog takes in as it is. -/
def refund : RawTable where
  columns := [("id", [.value (.int 1)]), ("price", [.value (.float (.ofInt (-1)))])]
  height := 1

/-- The price of the source is refused when the source is looked up. -/
theorem related_refund : ∃ s, build (some refund) [] [] = .ok s ∧
    s.related .none (.int 1) (.int 12) (signalOptions []) =
      .error (.invalidRecord [⟨["price"], .tooSmall⟩]) := by
  have hvalue : (build (some refund) [] []).toOption.bind (fun s =>
      refused? (s.related .none (.int 1) (.int 12) (signalOptions []))) =
        some [⟨["price"], .tooSmall⟩] := by
    decide +kernel
  cases hs : build (some refund) [] [] with
  | error failure =>
    rw [hs] at hvalue
    cases hvalue
  | ok s =>
    rw [hs] at hvalue
    exact ⟨s, rfl, refused?_eq_some.1 hvalue⟩

/-- A request for related products can fail: not every failure of the lookup is one of the store. -/
theorem not_forall_related_ok : ¬ ∀ (s : Store) (faults : Faults) (id limit : Int)
    (names : List String), (∃ raw collections memberships, build raw collections memberships = .ok s) →
    ∃ cs, s.related faults (.int id) (.int limit) (signalOptions names) = .ok cs := by
  intro h
  obtain ⟨s, hs, hrelated⟩ := related_refund
  obtain ⟨cs, hcs⟩ := h s .none 1 12 [] ⟨_, _, _, hs⟩
  cases hrelated.symm.trans hcs

end Store

end Storefront
