import Storefront.Proofs.Reloading
import Storefront.Proofs.Relevance

/-!
# What memberships have no influence on

A query reads the memberships only through a condition on shared collections, and the signal of
collections alone searches for one. So what a store suggests, what rules evaluate to, and the
products that are related by other signals depend on the product table, which no request changes.

* `Predicate.IgnoresMemberships`: predicates that match the same rows whatever the memberships are
* `Rule.ignoresMemberships_compile`, `Signal.ignoresMemberships_search`,
  `Strategy.ignoresMemberships_predicate`: where such predicates come from
* `Store.after`, `Store.table_after`: the store that requests leave, by induction on the requests
* `Store.advice_of_table_eq`: stores with one table give the same advice, whatever is asked of them
-/

namespace Storefront

/-! ## Predicates without memberships -/

/-- What a predicate matches does not depend on the memberships. -/
def Predicate.IgnoresMemberships (p : Predicate) : Prop :=
  ∀ (t : Table) (m others : Memberships) (row : Row), p.holds t m row = p.holds t others row

namespace Predicate

theorem ignoresMemberships_fieldEquals (field : String) (v : Value) :
    (fieldEquals field v).IgnoresMemberships := fun _ _ _ _ => rfl

theorem ignoresMemberships_fieldContains (field : String) (v : Value) :
    (fieldContains field v).IgnoresMemberships := fun _ _ _ _ => rfl

theorem ignoresMemberships_fieldRange (field : String) (low high : Option Value) :
    (fieldRange field low high).IgnoresMemberships := fun _ _ _ _ => rfl

theorem IgnoresMemberships.not {p : Predicate} (h : p.IgnoresMemberships) :
    (Predicate.not p).IgnoresMemberships := by
  intro t m others row
  rw [holds, holds, h t m others row]

theorem ignoresMemberships_conjunction {ps : List Predicate}
    (h : ∀ p ∈ ps, p.IgnoresMemberships) : (conjunction ps).IgnoresMemberships := by
  intro t m others row
  rw [Bool.eq_iff_iff, holds_conjunction, holds_conjunction]
  exact forall₂_congr fun p hp => by rw [h p hp t m others row]

theorem ignoresMemberships_disjunction {ps : List Predicate}
    (h : ∀ p ∈ ps, p.IgnoresMemberships) : (disjunction ps).IgnoresMemberships := by
  intro t m others row
  rw [Bool.eq_iff_iff, holds_disjunction, holds_disjunction]
  exact exists_congr fun p => and_congr_right fun hp => by rw [h p hp t m others row]

end Predicate

/-- No rule is compiled into a predicate on memberships. -/
theorem Rule.ignoresMemberships_compile {rule : Value} {p : Predicate} {warnings : List Warning}
    (h : compile rule = .ok (p, warnings)) : p.IgnoresMemberships :=
  fun _ _ _ _ => Bool.eq_iff_iff.2 ((holds_compile h).trans (holds_compile h).symm)

/-- No signal but that of collections searches for a predicate on memberships. -/
theorem Signal.ignoresMemberships_search {signal : Signal} {source : Product} {p : Predicate}
    {keys : List SortKey} (h : signal.search? source = some (p, keys))
    (hne : signal ≠ .collection) : p.IgnoresMemberships := by
  cases search?_eq_some.1 h with
  | collection => exact absurd rfl hne
  | tags =>
    refine Predicate.ignoresMemberships_disjunction fun q hq => ?_
    obtain ⟨tag, -, rfl⟩ := List.mem_map.1 hq
    exact Predicate.ignoresMemberships_fieldContains _ _
  | vendor | type => exact Predicate.ignoresMemberships_fieldEquals _ _
  | price => exact Predicate.ignoresMemberships_fieldRange _ _ _

theorem ignoresMemberships_eligible {p : Predicate} (h : p.IgnoresMemberships) (source : Product) :
    (eligible p source).IgnoresMemberships := by
  refine Predicate.ignoresMemberships_conjunction fun q hq => ?_
  simp only [List.mem_cons, List.not_mem_nil, or_false] at hq
  rcases hq with rfl | rfl | rfl
  · exact h
  · exact Predicate.ignoresMemberships_fieldEquals _ _
  · exact (Predicate.ignoresMemberships_fieldEquals _ _).not

/-- No strategy asks for a predicate on memberships. -/
theorem Strategy.ignoresMemberships_predicate (strategy : Strategy) :
    strategy.predicate.IgnoresMemberships := by
  have hrated : ∀ bounds, (rated bounds).IgnoresMemberships := by
    intro bounds
    refine Predicate.ignoresMemberships_conjunction fun q hq => ?_
    simp only [List.mem_cons, List.not_mem_nil, or_false] at hq
    rcases hq with rfl | rfl
    · exact Predicate.ignoresMemberships_fieldRange _ _ _
    · exact Predicate.ignoresMemberships_fieldRange _ _ _
  cases strategy with
  | trending => exact hrated trendingBounds
  | highRated => exact hrated highRatedBounds
  | bestsellers | new => exact fun _ _ _ _ => rfl

namespace Store

variable {s t : Store} {faults : Faults}

/-! ## Stores with one table -/

section Same

variable (htable : t.table = s.table)

include htable

/-- A query for a predicate that ignores memberships depends on the table alone. -/
theorem query_of_table_eq {q : Query} (h : q.predicate.IgnoresMemberships) :
    t.query faults q = s.query faults q := by
  have hholds : ∀ row, q.predicate.holds s.table t.memberships row =
      q.predicate.holds s.table s.memberships row := h s.table t.memberships s.memberships
  unfold query Table.query Table.select
  simp only [htable, hholds]

theorem evaluate_of_table_eq {p : Predicate} (h : p.IgnoresMemberships) :
    t.evaluate faults p = s.evaluate faults p := by
  by_cases hp : p = .matchNone
  · rw [hp]
    rfl
  · rw [evaluate_of_ne_matchNone hp, evaluate_of_ne_matchNone hp, query_of_table_eq htable h]

theorem recallBy_of_table_eq {signal : Signal} (h : signal ≠ .collection) (source : Product)
    (limit : Value) :
    t.recallBy faults signal source limit = s.recallBy faults signal source limit := by
  unfold recallBy
  cases hsearch : signal.search? source with
  | none => rfl
  | some search =>
    have heligible :=
      ignoresMemberships_eligible (Signal.ignoresMemberships_search hsearch h) source
    dsimp only
    rw [query_of_table_eq htable heligible]

theorem suggest_of_table_eq (strategy : Strategy) (limit : Value) :
    t.suggest faults strategy limit = s.suggest faults strategy limit := by
  have hstock : (Predicate.conjunction [strategy.predicate, .inStock]).IgnoresMemberships := by
    refine Predicate.ignoresMemberships_conjunction fun q hq => ?_
    simp only [List.mem_cons, List.not_mem_nil, or_false] at hq
    rcases hq with rfl | rfl
    · exact strategy.ignoresMemberships_predicate
    · exact Predicate.ignoresMemberships_fieldEquals _ _
  unfold suggest
  rw [query_of_table_eq htable hstock]

theorem suggested_of_table_eq : t.suggested = s.suggested := by
  have hsuggest : t.suggest = s.suggest := by
    funext faults strategy limit
    exact suggest_of_table_eq htable strategy limit
  funext faults limit plan
  unfold suggested mixed
  rw [hsuggest]

theorem recallEach_of_table_eq {signals : List Signal} (h : .collection ∉ signals)
    (source : Product) (limit : Value) :
    t.recallEach faults signals source limit = s.recallEach faults signals source limit := by
  have hmap : ∀ signal ∈ signals,
      t.recallBy faults signal source limit = s.recallBy faults signal source limit := by
    intro signal hsignal
    refine recallBy_of_table_eq htable ?_ source limit
    rintro rfl
    exact h hsignal
  unfold recallEach
  rw [mapM_congr hmap]

/-- The products that are related by other signals than collections depend on the table alone. -/
theorem related_of_table_eq {options : Value} (h : ¬Signal.IsSelected options .collection)
    (id limit : Value) : t.related faults id limit options = s.related faults id limit options := by
  have hcandidates : t.relatedCandidates faults id limit options =
      s.relatedCandidates faults id limit options := by
    unfold relatedCandidates product?
    rw [htable]
    refine bind_congr fun source => ?_
    cases source with
    | none => rfl
    | some source =>
      dsimp only
      cases hsignals : Signal.select options with
      | error failure => dsimp only [bind, Except.bind]
      | ok signals =>
        have hunselected : .collection ∉ signals := by
          obtain ⟨isAsked, rfl, hasked⟩ := Signal.exists_filter_of_select hsignals
          exact fun hmem => h ((hasked .collection).1 (List.mem_filter.1 hmem).2)
        dsimp only [bind, Except.bind]
        rw [recallEach_of_table_eq htable hunselected source limit]
  unfold related
  rw [hcandidates]

end Same

/-! ## Requests -/

/-- The store that requests leave which are made one after the other. -/
def after (s : Store) : List Request → Store
  | [] => s
  | request :: rest => (s.answer request).1.after rest

theorem table_publish (s : Store) (faults : Faults) (operation : String) (staged : Memberships) :
    (s.publish faults operation staged).1.table = s.table := by
  rcases s.publish_cases faults operation staged with ⟨-, hpublish⟩ | ⟨-, op, cause, hpublish⟩
  · rw [hpublish]
  · rw [hpublish]

theorem table_reorderMembers (s : Store) (faults : Faults) (collection : Int) (ids : List Value) :
    (s.reorderMembers faults collection ids).1.table = s.table := by
  unfold reorderMembers
  split
  · exact s.table_publish _ _ _
  · rfl

theorem table_reorder (s : Store) (faults : Faults) (id productIds : Value) :
    (s.reorder faults id productIds).1.table = s.table := by
  unfold reorder
  cases s.requireCollection id with
  | error failure => rfl
  | ok c =>
    dsimp only
    split
    · rfl
    · cases itemsOfValue productIds with
      | error failure => rfl
      | ok ids => exact s.table_reorderMembers faults c.id ids

/-- No request changes the table. -/
theorem table_answer (s : Store) (request : Request) : (s.answer request).1.table = s.table := by
  cases request with
  | read question => rfl
  | sync id faults =>
    show (s.syncById faults id).1.table = s.table
    unfold syncById
    cases s.requireCollection id with
    | error failure => rfl
    | ok c => exact table_sync s faults c
  | syncCollection c faults => exact table_sync s faults c
  | syncAll faults =>
    show (s.syncAll faults).1.table = s.table
    rw [syncAll_fst]
    exact (follows_syncEach faults fun c hc => mem_listCollections hc).table_eq
  | reorder id productIds faults => exact s.table_reorder faults id productIds
  | replaceMembers collection members faults => exact s.table_publish faults _ _
  | reorderMembers collection productIds faults =>
    exact s.table_reorderMembers faults collection productIds
  | reload =>
    obtain ⟨restored, hrestored, htable, -⟩ := s.exists_restored
    unfold answer
    rw [hrestored]
    exact htable

theorem table_after (s : Store) (requests : List Request) : (s.after requests).table = s.table := by
  induction requests generalizing s with
  | nil => rfl
  | cons request rest ih =>
    rw [after, ih]
    exact s.table_answer request

/-- Two stores give the same advice: the same suggestions, the same evaluations of rules, and the
same related products with the same scores, as far as these are asked for by other signals than
collections. -/
structure AdvisesAlike (s t : Store) : Prop where
  suggested_eq : ∀ faults limit plan, t.suggested faults limit plan = s.suggested faults limit plan
  evaluate_eq : ∀ faults rule p warnings, Rule.compile rule = .ok (p, warnings) →
    t.evaluate faults p = s.evaluate faults p
  related_eq : ∀ faults id limit options, ¬Signal.IsSelected options .collection →
    t.related faults id limit options = s.related faults id limit options

/-- Memberships have no influence but on the signal of collections: stores with the same product
rows give the same advice whatever their collections and memberships are, and no requests that are
made of either of them change this. -/
theorem advice_of_rows_eq (h : t.table.rows = s.table.rows) :
    AdvisesAlike s t ∧ ∀ requests others, AdvisesAlike (s.after requests) (t.after others) ∧
      AdvisesAlike s (s.after requests) := by
  have htable : t.table = s.table := Table.eq_of_rows_eq h
  have halike : ∀ x y : Store, y.table = x.table → AdvisesAlike x y := by
    intro x y hsame
    refine ⟨fun faults limit plan => ?_, fun faults rule p warnings hcompile => ?_,
      fun faults id limit options hoptions => ?_⟩
    · rw [suggested_of_table_eq hsame]
    · exact evaluate_of_table_eq hsame (Rule.ignoresMemberships_compile hcompile)
    · exact related_of_table_eq hsame hoptions id limit
  refine ⟨halike s t htable, fun requests others => ⟨halike _ _ ?_, halike _ _ ?_⟩⟩
  · rw [table_after, table_after, htable]
  · exact s.table_after requests

/-- A shop gives the same advice as a store of its products without collections, before and after
it syncs its own. -/
theorem advice_of_rows_eq_acme : acme.table.rows = acmeShop.table.rows ∧
    AdvisesAlike acmeShop acme ∧
    AdvisesAlike acmeShop (acmeShop.after [.syncAll fun _ => .none]) ∧
    [acme, acmeShop, acmeShop.after [.syncAll fun _ => .none]].map (·.memberIds? 10) =
      [none, some [3], some [1, 2, 3]] := by
  have hrows : acme.table.rows = acmeShop.table.rows := rfl
  obtain ⟨halike, hafter⟩ := advice_of_rows_eq hrows
  refine ⟨hrows, halike, (hafter [.syncAll fun _ => .none] []).2, ?_⟩
  decide +kernel

end Store

end Storefront
