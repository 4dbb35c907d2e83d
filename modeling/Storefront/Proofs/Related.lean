import Storefront.Proofs.Answers
import Storefront.Proofs.Combinations
import Storefront.Proofs.Conditions
import Storefront.Proofs.Evaluation
import Storefront.Proofs.Scoring
import Storefront.Recommend.Suggestion

/-!
# Related products

Every selected signal recalls products by a query of its own, so no recall has a product twice. The
candidates that are gathered from the recalls therefore count each signal once, and what the ranking
gives explains itself.

* `Signal.IsSelected`: the signals that options ask for
* `IsRecall`, `isRecall_of_recallBy`: what a signal recalls
* `AreRelated`: candidates that are related to a product, and say why
* `Store.areRelated_of_relatedCandidates`: every answer consists of such candidates
-/

namespace Storefront

/-! ## Selected signals -/

namespace Signal

/-- Options ask for a signal: they list it, or they list nothing at all. -/
inductive IsSelected : Value → Signal → Prop
  | absent {options : Value} {signal : Signal} (h : options.isTruthy = false) :
    IsSelected options signal
  | unlisted {fields : Fields} {signal : Signal}
    (h : ((fields.lookup "signals").getD .null).isTruthy = false) :
    IsSelected (.object fields) signal
  | listed {fields : Fields} {values : List Value} {signal : Signal}
    (h : requested ((fields.lookup "signals").getD .null) = .ok values)
    (hmem : .text signal.name ∈ values) : IsSelected (.object fields) signal

theorem mem_all (signal : Signal) : signal ∈ all := by
  cases signal <;> decide

theorem ofValue?_eq_some {v : Value} {signal : Signal} :
    ofValue? v = some signal ↔ v = .text signal.name := by
  constructor
  · intro h
    cases v with
    | text s =>
      have hname := List.find?_some h
      rw [← of_decide_eq_true hname]
    | _ => cases h
  · intro h
    rw [h]
    cases signal <;> rfl

theorem mem_named {values : List Value} {signal : Signal} :
    (values.any fun v => ofValue? v == some signal) = true ↔ .text signal.name ∈ values := by
  rw [List.any_eq_true]
  constructor
  · intro h
    obtain ⟨v, hv, hname⟩ := h
    rw [← ofValue?_eq_some.1 (eq_of_beq hname)]
    exact hv
  · intro h
    exact ⟨_, h, beq_iff_eq.2 (ofValue?_eq_some.2 rfl)⟩

/-- The signals are selected in the order of recall. -/
theorem exists_filter_of_select {options : Value} {signals : List Signal}
    (h : select options = .ok signals) :
    ∃ isAsked : Signal → Bool, signals = all.filter isAsked ∧
      ∀ signal, isAsked signal = true ↔ IsSelected options signal := by
  unfold select at h
  split at h
  · rename_i hfalse
    cases h
    have hfalsy : options.isTruthy = false := by simpa using hfalse
    exact ⟨fun _ => true, by simp, fun signal => ⟨fun _ => .absent hfalsy, fun _ => rfl⟩⟩
  · rename_i htrue
    have htruthy : options.isTruthy = true := by simpa using htrue
    split at h
    · rename_i fields
      dsimp only at h
      split at h
      · rename_i hlisted
        obtain ⟨values, hvalues, rfl⟩ := map_eq_ok.1 h
        refine ⟨_, rfl, fun signal => ?_⟩
        rw [mem_named]
        constructor
        · exact fun hmem => .listed hvalues hmem
        · intro hselected
          cases hselected with
          | absent hfalsy => cases htruthy.symm.trans hfalsy
          | unlisted hfalsy => cases hlisted.symm.trans hfalsy
          | listed hothers hmem =>
            cases hvalues.symm.trans hothers
            exact hmem
      · rename_i hlisted
        cases h
        have hfalsy : ((fields.lookup "signals").getD .null).isTruthy = false := by
          simpa using hlisted
        exact ⟨fun _ => true, by simp, fun signal => ⟨fun _ => .unlisted hfalsy, fun _ => rfl⟩⟩
    · cases h

end Signal

/-! ## Recalls -/

/-- Rows are a recall of a signal for a product: they are rows of that signal for products of the
catalog, each of which occurs once, is in stock and is another one. -/
structure IsRecall (s : Store) (signal : Signal) (source : Product) (rows : List Match) : Prop where
  nodup : (rows.map (·.product.id)).Nodup
  signal_eq : ∀ m ∈ rows, m.signal = signal
  weight_eq : ∀ m ∈ rows, m.weight = signal.weight
  inStock : ∀ m ∈ rows, m.product.inStock = true
  ne_source : ∀ m ∈ rows, m.product.id ≠ source.id
  stored : ∀ m ∈ rows, ∃ row ∈ s.table.rows, row.toProduct = .ok m.product

section Recalls

variable {s : Store} {faults : Faults} {signal : Signal} {source : Product} {limit : Value}
  {rows : List Match}

theorem isRecall_nil : IsRecall s signal source [] where
  nodup := .nil
  signal_eq _ hm := absurd hm List.not_mem_nil
  weight_eq _ hm := absurd hm List.not_mem_nil
  inStock _ hm := absurd hm List.not_mem_nil
  ne_source _ hm := absurd hm List.not_mem_nil
  stored _ hm := absurd hm List.not_mem_nil

/-- A product is eligible if it meets the condition, is in stock and is not the source. -/
theorem holds_eligible {t : Table} {m : Memberships} {row : Row} {condition : Predicate} :
    (eligible condition source).holds t m row = true ↔
      condition.holds t m row = true ∧ row.inStock = true ∧ row.id ≠ source.id := by
  have hother : (Predicate.not (.fieldEquals "id" (.int source.id))).holds t m row = true ↔
      row.id ≠ source.id := by
    rw [Predicate.holds, Bool.not_eq_true', ← Bool.not_eq_true, Predicate.holds_id]
  unfold eligible
  rw [Predicate.holds_conjunction]
  simp only [List.mem_cons, List.not_mem_nil, or_false, forall_eq_or_imp, forall_eq, hother]
  exact and_congr_right fun _ => and_congr_left fun _ => Predicate.holds_stock

/-- A query for eligible products gives a recall. -/
theorem isRecall_of_query {p : Predicate} {keys : List SortKey} {products : List Product}
    (h : s.query faults ⟨eligible p source, keys, limit⟩ = .ok products) :
    IsRecall s signal source (products.map fun product => ⟨product, signal, signal.weight⟩) := by
  obtain ⟨-, hquery⟩ := Store.query_eq_ok.1 h
  have hstored : ∀ product ∈ products, ∃ row ∈ s.table.rows, row.toProduct = .ok product ∧
      row.inStock = true ∧ row.id ≠ source.id := by
    intro product hproduct
    obtain ⟨row, hrow, hread, hholds⟩ := Table.exists_row_of_mem_query hquery hproduct
    exact ⟨row, hrow, hread, (holds_eligible.1 hholds).2⟩
  refine ⟨?_, ?_, ?_, ?_, ?_, ?_⟩
  · rw [List.map_map]
    exact Table.nodup_query hquery
  all_goals
    intro m hm
    obtain ⟨product, hproduct, rfl⟩ := List.mem_map.1 hm
    obtain ⟨row, hrow, hread, hstock, hother⟩ := hstored product hproduct
  · rfl
  · rfl
  · exact (Row.inStock_of_toProduct hread).trans hstock
  · exact fun hid => hother ((Row.id_of_toProduct hread).symm.trans hid)
  · exact ⟨row, hrow, hread⟩

/-- A recall is empty because the signal does not search or the limit admits nothing, or it gives the
products of its query. -/
theorem recallBy_eq_ok (h : s.recallBy faults signal source limit = .ok rows) :
    (rows = [] ∧ (signal.search? source = none ∨ Limit.isNone limit = .ok true)) ∨
    ∃ p keys products, signal.search? source = some (p, keys) ∧
      s.query faults ⟨eligible p source, keys, limit⟩ = .ok products ∧
      rows = products.map fun product => ⟨product, signal, signal.weight⟩ := by
  unfold Store.recallBy at h
  split at h
  · rename_i hsearch
    cases h
    exact .inl ⟨rfl, .inl hsearch⟩
  · rename_i p keys hsearch
    obtain ⟨none?, hnone, h⟩ := bind_eq_ok.1 h
    cases none? with
    | true =>
      cases h
      exact .inl ⟨rfl, .inr hnone⟩
    | false =>
      obtain ⟨products, hproducts, h⟩ := bind_eq_ok.1 h
      cases h
      exact .inr ⟨p, keys, products, hsearch, hproducts, rfl⟩

/-- What a signal recalls is a recall. -/
theorem isRecall_of_recallBy (h : s.recallBy faults signal source limit = .ok rows) :
    IsRecall s signal source rows := by
  rcases recallBy_eq_ok h with ⟨rfl, -⟩ | ⟨p, keys, products, -, hproducts, rfl⟩
  · exact isRecall_nil
  · exact isRecall_of_query hproducts

theorem flatMap_filter (f : Signal → Bool) (g : Signal → List Match) (signals : List Signal) :
    (signals.filter f).flatMap g =
      signals.flatMap fun signal => if f signal then g signal else [] := by
  induction signals with
  | nil => rfl
  | cons signal rest ih =>
    rw [List.flatMap_cons, ← ih, List.filter_cons]
    cases f signal <;> rfl

/-- The rows of several signals are their recalls in a row; a signal that is not asked for recalls
nothing. -/
theorem exists_recalls {isAsked : Signal → Bool}
    (h : s.recallEach faults (Signal.all.filter isAsked) source limit = .ok rows) :
    ∃ recalls : Signal → List Match,
      (∀ signal, isAsked signal = true →
        s.recallBy faults signal source limit = .ok (recalls signal)) ∧
      (∀ signal, isAsked signal = false → recalls signal = []) ∧
      rows = Signal.all.flatMap recalls := by
  obtain ⟨lists, hlists, h⟩ := bind_eq_ok.1 h
  cases h
  let answer (signal : Signal) : List Match :=
    (s.recallBy faults signal source limit).toOption.getD []
  have hrecall : ∀ signal list, s.recallBy faults signal source limit = .ok list →
      id list = answer signal := by
    intro signal list hlist
    show list = (s.recallBy faults signal source limit).toOption.getD []
    rw [hlist]
    rfl
  refine ⟨fun signal => if isAsked signal then answer signal else [], ?_, ?_, ?_⟩
  · intro signal hasked
    obtain ⟨list, -, hlist⟩ := exists_of_mapM_eq_ok hlists
      (List.mem_filter.2 ⟨signal.mem_all, hasked⟩)
    show _ = Except.ok (if isAsked signal then answer signal else [])
    rw [if_pos hasked, ← hrecall signal list hlist]
    exact hlist
  · intro signal hasked
    show (if isAsked signal then answer signal else []) = []
    rw [hasked]
    rfl
  · have hmap : lists = (Signal.all.filter isAsked).map answer := by
      rw [← map_eq_of_mapM_eq_ok hrecall hlists, List.map_id]
    rw [← flatMap_filter, hmap]
    rfl

end Recalls

/-! ## Candidates -/

/-- A candidate says why it is one: its signals are those that recall it, each of them once, and its
score is the sum of their weights with the bonus of the product. The sum of the weights is exact. -/
structure IsExplained (recalls : Signal → List Match) (c : Candidate) : Prop where
  nodup : c.signals.Nodup
  ne_nil : c.signals ≠ []
  mem_signals : ∀ signal, signal ∈ c.signals ↔ c.product ∈ (recalls signal).map (·.product)
  score_eq : c.score = (ofTenths (totalTenths c.signals)).add (ofTenths (bonusTenths c.product))
  isTenths : (ofTenths (totalTenths c.signals)).IsTenths (totalTenths c.signals)

/-- Candidates are related to a product: at most as many as the limit says, none of them twice, each
one in stock, explained and another product. The scores never increase, and of two equal ones that
stands first whose product was recalled first. -/
structure AreRelated (source : Product) (recalls : Signal → List Match) (limit : Int)
    (cs : List Candidate) : Prop where
  nodup : (cs.map (·.product.id)).Nodup
  length_le : cs.length ≤ limit.toNat
  ne_source : ∀ c ∈ cs, c.product.id ≠ source.id
  inStock : ∀ c ∈ cs, c.product.inStock = true
  explained : ∀ c ∈ cs, IsExplained recalls c
  ordered : cs.Pairwise fun a b => b.score.le a.score = true ∧ (a.score.eq b.score = true →
    discoveredAt (Signal.all.flatMap recalls) a.product.id <
      discoveredAt (Signal.all.flatMap recalls) b.product.id)

section Candidates

variable {s : Store} {source : Product} {recalls : Signal → List Match}
  (hrecalls : ∀ signal, IsRecall s signal source (recalls signal))

include hrecalls

/-- A product that two signals recall is one product. -/
theorem product_eq_of_id_eq {a b : Signal} {m n : Match} (hm : m ∈ recalls a) (hn : n ∈ recalls b)
    (h : m.product.id = n.product.id) : m.product = n.product := by
  obtain ⟨row, hrow, hread⟩ := (hrecalls a).stored m hm
  obtain ⟨other, hother, hreadother⟩ := (hrecalls b).stored n hn
  have hid : row.id = other.id := by
    rw [← Row.id_of_toProduct hread, ← Row.id_of_toProduct hreadother, h]
  cases s.table.eq_of_id_eq hrow hother hid
  exact Except.ok.inj (hread.symm.trans hreadother)

/-- The weights of the rows of a product are those of its signals. -/
theorem weights_rowsOf (id : Int) :
    (rowsOf id (Signal.all.flatMap recalls)).map (·.weight) =
      ((rowsOf id (Signal.all.flatMap recalls)).map (·.signal)).map Signal.weight := by
  rw [List.map_map]
  refine List.map_congr_left fun m hm => ?_
  obtain ⟨signal, -, hmem⟩ := List.mem_flatMap.1 (List.mem_filter.1 hm).1
  show m.weight = m.signal.weight
  rw [(hrecalls signal).weight_eq m hmem, (hrecalls signal).signal_eq m hmem]

/-- A candidate that is gathered from recalls is one of the products that they recall, and says
why. -/
theorem isExplained_of_mem_gather {c : Candidate} (hc : c ∈ gather (Signal.all.flatMap recalls)) :
    (∃ signal, ∃ m ∈ recalls signal, m.product = c.product) ∧ IsExplained recalls c := by
  obtain ⟨d, hd, rfl⟩ := List.mem_map.1 hc
  have hgathered := gathered_rows (Signal.all.flatMap recalls)
  obtain ⟨m, hm, hproduct⟩ := List.mem_map.1 (hgathered.product_mem d hd)
  obtain ⟨first, -, hfirst⟩ := List.mem_flatMap.1 hm
  have hreasons := signals_rowsOf_flatMap Signal.all d.product.id (fun signal =>
    (hrecalls signal).nodup) fun signal => (hrecalls signal).signal_eq
  have hsublist : (Signal.all.filter fun signal =>
      d.product.id ∈ (recalls signal).map (·.product.id)).Sublist Signal.all :=
    List.filter_sublist
  have hnodup : (Signal.all.filter fun signal =>
      d.product.id ∈ (recalls signal).map (·.product.id)).Nodup :=
    List.Nodup.sublist hsublist (by decide)
  have hsignals : d.signals = Signal.all.filter fun signal =>
      d.product.id ∈ (recalls signal).map (·.product.id) := by
    rw [hgathered.signals_eq hd, hreasons]
    exact foldl_addSignal (by rwa [List.nil_append])
  have hmem : ∀ signal, signal ∈ d.signals ↔ d.product ∈ (recalls signal).map (·.product) := by
    intro signal
    rw [hsignals, List.mem_filter, decide_eq_true_iff]
    constructor
    · intro h
      obtain ⟨n, hn, hid⟩ := List.mem_map.1 h.2
      have heq : n.product = m.product := product_eq_of_id_eq hrecalls hn hfirst (by
        rw [hid, ← hproduct])
      exact List.mem_map.2 ⟨n, hn, heq.trans hproduct⟩
    · intro h
      obtain ⟨n, hn, heq⟩ := List.mem_map.1 h
      exact ⟨signal.mem_all, List.mem_map.2 ⟨n, hn, congrArg Product.id heq⟩⟩
  have hsum := sum_weights d.signals (List.mem_sublists.2 (hsignals ▸ hsublist))
  refine ⟨⟨first, m, hfirst, hproduct⟩, ⟨?_, ?_, hmem, ?_, hsum.2⟩⟩
  · rw [hsignals]
    exact hnodup
  · intro hnil
    have hreason : first ∈ d.signals := (hmem first).2 (List.mem_map.2 ⟨m, hfirst, hproduct⟩)
    rw [hnil] at hreason
    exact List.not_mem_nil hreason
  · show d.score.add (qualityBonus d.product) = _
    rw [hgathered.score_eq hd, weights_rowsOf hrecalls, hreasons, ← hsignals, hsum.1,
      (qualityBonus_eq d.product).1]

/-- Ranking what is gathered from recalls gives related candidates. -/
theorem areRelated_of_rank {limit : Int} {cs : List Candidate}
    (h : rank (gather (Signal.all.flatMap recalls)) (.int limit) = .ok cs) :
    AreRelated source recalls limit cs := by
  have hgathered := gathered_rows (Signal.all.flatMap recalls)
  have hnumber : ∀ c ∈ gather (Signal.all.flatMap recalls), c.score.isNan = false := by
    intro c hc
    have hexplained := (isExplained_of_mem_gather hrecalls hc).2
    rw [hexplained.score_eq, ← (qualityBonus_eq c.product).1]
    exact Binary64.isNan_add hexplained.isTenths.1 (qualityBonus_eq c.product).2
  have hdiscovered : (gather (Signal.all.flatMap recalls)).Pairwise fun a b =>
      discoveredAt (Signal.all.flatMap recalls) a.product.id <
        discoveredAt (Signal.all.flatMap recalls) b.product.id :=
    List.pairwise_map.2 hgathered.ordered
  have hordered := pairwise_rank hnumber hdiscovered h
  rw [rank_int] at h
  cases h
  have hmem : ∀ c ∈ (sortBy (fun a b => scoreBefore a.score b.score)
      (gather (Signal.all.flatMap recalls))).take limit.toNat,
      c ∈ gather (Signal.all.flatMap recalls) :=
    fun c hc => mem_sortBy.1 (List.mem_of_mem_take hc)
  refine ⟨?_, List.length_take_le _ _, fun c hc => ?_, fun c hc => ?_, fun c hc => ?_, hordered⟩
  · have hnodup : ((gather (Signal.all.flatMap recalls)).map (·.product.id)).Nodup := by
      unfold gather
      rw [List.map_map]
      exact hgathered.nodup
    have hperm := sortBy_perm (fun a b : Candidate => scoreBefore a.score b.score)
      (gather (Signal.all.flatMap recalls))
    have hsorted := (hperm.map (·.product.id)).nodup_iff.2 hnodup
    exact hsorted.sublist ((List.take_sublist _ _).map _)
  · obtain ⟨⟨signal, m, hm, hproduct⟩, -⟩ := isExplained_of_mem_gather hrecalls (hmem c hc)
    rw [← hproduct]
    exact (hrecalls signal).ne_source m hm
  · obtain ⟨⟨signal, m, hm, hproduct⟩, -⟩ := isExplained_of_mem_gather hrecalls (hmem c hc)
    rw [← hproduct]
    exact (hrecalls signal).inStock m hm
  · exact (isExplained_of_mem_gather hrecalls (hmem c hc)).2

end Candidates

/-- Whenever related products are asked for and there is an answer, it is empty because the product
does not exist, or it consists of candidates that are related to the product: they are gathered from
the recalls of the signals that the options ask for. -/
theorem Store.areRelated_of_relatedCandidates {s : Store} {faults : Faults} {id options : Value}
    {limit : Int} {cs : List Candidate}
    (h : s.relatedCandidates faults id (.int limit) options = .ok cs) :
    (s.product? id = .ok none ∧ cs = []) ∨
    ∃ source recalls, s.product? id = .ok (some source) ∧
      (∀ signal, Signal.IsSelected options signal →
        s.recallBy faults signal source (.int limit) = .ok (recalls signal)) ∧
      (∀ signal, ¬ Signal.IsSelected options signal → recalls signal = []) ∧
      AreRelated source recalls limit cs := by
  obtain ⟨found, hfound, h⟩ := bind_eq_ok.1 h
  cases found with
  | none =>
    cases h
    exact .inl ⟨hfound, rfl⟩
  | some source =>
    obtain ⟨signals, hsignals, h⟩ := bind_eq_ok.1 h
    obtain ⟨rows, hrows, hrank⟩ := bind_eq_ok.1 h
    obtain ⟨isAsked, rfl, hasked⟩ := Signal.exists_filter_of_select hsignals
    obtain ⟨recalls, hrecalls, hothers, rfl⟩ := exists_recalls hrows
    have hselected : ∀ signal, Signal.IsSelected options signal →
        s.recallBy faults signal source (.int limit) = .ok (recalls signal) :=
      fun signal hsignal => hrecalls signal ((hasked signal).2 hsignal)
    have hunselected : ∀ signal, ¬ Signal.IsSelected options signal → recalls signal = [] := by
      intro signal hsignal
      apply hothers signal
      rw [← Bool.not_eq_true, hasked signal]
      exact hsignal
    have hrecall : ∀ signal, IsRecall s signal source (recalls signal) := by
      intro signal
      by_cases hsignal : Signal.IsSelected options signal
      · exact isRecall_of_recallBy (hselected signal hsignal)
      · rw [hunselected signal hsignal]
        exact isRecall_nil
    exact .inr ⟨source, recalls, hfound, hselected, hunselected, areRelated_of_rank hrecall hrank⟩

namespace Store

/-- Options that list two signals, one of them twice, and a name that no signal has. -/
def acmeOptions : Value :=
  .object [("signals", .list [.text "vendor", .text "tags", .text "colour", .text "vendor"])]

/-- The second product has the vendor and a tag of the first, and the third one is out of stock. -/
theorem areRelated_acme : ∃ cs source recalls,
    acme.relatedCandidates .none (.int 1) (.int 12) acmeOptions = .ok cs ∧
      cs.map (fun c => (c.product.id, c.signals, c.score)) = [(2, [.tags, .vendor], ofTenths 35)] ∧
      AreRelated source recalls 12 cs := by
  have hvalue : (acme.relatedCandidates .none (.int 1) (.int 12) acmeOptions).toOption.map
      (fun cs => cs.map fun c => (c.product.id, c.signals, c.score)) =
        some [(2, [.tags, .vendor], ofTenths 35)] := by
    decide +kernel
  cases hcs : acme.relatedCandidates .none (.int 1) (.int 12) acmeOptions with
  | error failure =>
    rw [hcs] at hvalue
    cases hvalue
  | ok cs =>
    rw [hcs] at hvalue
    have hshown := Option.some.inj hvalue
    rcases areRelated_of_relatedCandidates hcs with ⟨-, hnil⟩ | ⟨source, recalls, -, -, -, hrelated⟩
    · rw [hnil] at hshown
      cases hshown
    · exact ⟨cs, source, recalls, rfl, hshown, hrelated⟩

end Store

end Storefront
