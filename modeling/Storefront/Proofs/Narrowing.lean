import Storefront.Proofs.Related
import Storefront.Proofs.Tallies

/-!
# Narrowing the signals

No recall of a signal depends on another one. So options that list signals drop the rows of the
others from what is recalled, and they keep every other row where it stands. Gathered in exact
arithmetic, a dropped row takes its own weight from the score of its product, and nothing else.

* `Signal.isNamed`, `Signal.select_of_listed`: the signals that options list
* `Store.recallCandidates`, `Store.recallCandidates_of_listed`: the rows that options recall
* `IsReduced`, `isReduced_filter`: tallies of which rows were dropped
* `Store.recallCandidates_narrowed`: what is left where options list signals
-/

namespace Storefront

/-! ## Rows -/

namespace Signal

/-- Values name a signal. -/
def isNamed (names : List Value) (signal : Signal) : Bool :=
  names.any fun v => ofValue? v == some signal

variable {fields : Fields} {names others : List Value}

/-- Options that list names ask for the signals that they name. -/
theorem select_of_listed (hlisted : fields.lookup "signals" = some (.list names))
    (hnames : names ≠ []) : select (.object fields) = .ok (named names) := by
  have hfields : (Value.object fields).isTruthy = true := by
    cases fields with
    | nil => cases hlisted
    | cons => rfl
  have hlist : (Value.list names).isTruthy = true := by
    cases names with
    | nil => exact absurd rfl hnames
    | cons => rfl
  unfold select
  dsimp only
  rw [hfields, hlisted, Option.getD_some, hlist]
  rfl

/-- Only the set of signals counts that are named. -/
theorem named_congr (h : ∀ signal : Signal, .text signal.name ∈ others ↔ .text signal.name ∈ names) :
    named others = named names := by
  refine List.filter_congr fun signal _ => Bool.eq_iff_iff.2 ?_
  rw [mem_named, mem_named]
  exact h signal

theorem named_eq_nil (h : ∀ signal : Signal, .text signal.name ∉ names) : named names = [] :=
  List.filter_eq_nil_iff.2 fun signal _ hnamed => h signal (mem_named.1 hnamed)

end Signal

namespace Store

/-- The rows that the signals recall which options ask for. -/
def recallCandidates (s : Store) (faults : Faults) (source : Product) (limit options : Value) :
    Except Failure (List Match) := do
  s.recallEach faults (← Signal.select options) source limit

section Rows

variable {s : Store} {faults : Faults} {source : Product} {limit options : Value}

/-- Without options the rows are the recalls of all signals in a row. -/
theorem exists_recalls_of_null {rows : List Match}
    (h : s.recallCandidates faults source limit .null = .ok rows) :
    ∃ recalls : Signal → List Match,
      (∀ signal, s.recallBy faults signal source limit = .ok (recalls signal)) ∧
      rows = Signal.all.flatMap recalls := by
  have hall : s.recallEach faults (Signal.all.filter fun _ => true) source limit = .ok rows := h
  obtain ⟨recalls, hrecalls, -, hrows⟩ := exists_recalls hall
  exact ⟨recalls, fun signal => hrecalls signal rfl, hrows⟩

/-- Options that list names keep the rows of the signals that they name. -/
theorem recallCandidates_of_listed {fields : Fields} {names : List Value}
    {recalls : Signal → List Match} (hlisted : fields.lookup "signals" = some (.list names))
    (hnames : names ≠ [])
    (hrecalls : ∀ signal, s.recallBy faults signal source limit = .ok (recalls signal)) :
    s.recallCandidates faults source limit (.object fields) =
      .ok ((Signal.all.flatMap recalls).filter fun m => m.signal.isNamed names) := by
  have hkept (signal : Signal) : (recalls signal).filter (fun m => m.signal.isNamed names) =
      if signal.isNamed names then recalls signal else [] := by
    have hsignal := (isRecall_of_recallBy (hrecalls signal)).signal_eq
    split
    · rename_i hnamed
      exact List.filter_eq_self.2 fun m hm => by rwa [hsignal m hm]
    · rename_i hunnamed
      exact List.filter_eq_nil_iff.2 fun m hm => by rwa [hsignal m hm]
  have hmap : (Signal.named names).mapM (fun signal => s.recallBy faults signal source limit) =
      .ok ((Signal.named names).map recalls) := mapM_eq_ok_map fun signal _ => hrecalls signal
  refine bind_eq_ok.2 ⟨_, Signal.select_of_listed hlisted hnames, bind_eq_ok.2 ⟨_, hmap, ?_⟩⟩
  rw [List.filter_flatMap, List.flatMap_congr fun signal _ => hkept signal, ← flatMap_filter]
  rfl

end Rows

end Store

/-! ## Dropped rows -/

/-- What is left of tallies where rows are dropped: there is one for each product that still has a row,
and its score is the one before less the weights of the dropped rows of the product. -/
structure IsReduced {α : Type} [AddCommGroup α] (weight : Match → α) (kept dropped : List Match)
    (before after : List (Tally α)) : Prop where
  nodup : (after.map (·.product.id)).Nodup
  mem_ids : ∀ id, id ∈ after.map (·.product.id) ↔ id ∈ kept.map (·.product.id)
  stays : ∀ t ∈ after, ∃ u ∈ before, u.product = t.product
  score_eq : ∀ t ∈ after, ∀ u ∈ before, u.product.id = t.product.id →
    t.score = u.score - Tally.rowsWeight weight t.product.id dropped

section Reduction

variable {α : Type} [AddCommGroup α]

/-- The rows of a product are those that are kept and those that are dropped. -/
theorem rowsWeight_filter (weight : Match → α) (id : Int) (isKept : Match → Bool)
    (rows : List Match) : Tally.rowsWeight weight id rows =
      Tally.rowsWeight weight id (rows.filter isKept) +
        Tally.rowsWeight weight id (rows.filter fun m => !isKept m) := by
  induction rows with
  | nil => simp [Tally.rowsWeight, rowsOf]
  | cons m rows ih =>
    rw [Tally.rowsWeight_cons, ih]
    cases hm : isKept m with
    | true =>
      rw [List.filter_cons_of_pos hm, List.filter_cons_of_neg (by simp [hm]),
        Tally.rowsWeight_cons, add_assoc]
    | false =>
      rw [List.filter_cons_of_neg (by simp [hm]), List.filter_cons_of_pos (by simp [hm]),
        Tally.rowsWeight_cons, add_left_comm]

/-- Tallies lose the weights of the rows that are dropped, where an id stands for one product. -/
theorem isReduced_filter (weight : Match → α) (bonus : Product → α) {rows : List Match}
    (hproduct : ∀ m ∈ rows, ∀ n ∈ rows, m.product.id = n.product.id → m.product = n.product)
    (isKept : Match → Bool) :
    IsReduced weight (rows.filter isKept) (rows.filter fun m => !isKept m)
      (Tally.gather (.ofGroup α) weight bonus rows)
      (Tally.gather (.ofGroup α) weight bonus (rows.filter isKept)) := by
  have hbefore := areTallies_gather weight bonus rows
  have hafter := areTallies_gather weight bonus (rows.filter isKept)
  have hsame : ∀ t ∈ Tally.gather (.ofGroup α) weight bonus (rows.filter isKept),
      ∀ u ∈ Tally.gather (.ofGroup α) weight bonus rows,
        u.product.id = t.product.id → u.product = t.product := by
    intro t ht u hu hid
    obtain ⟨m, hm, hmt⟩ := List.mem_map.1 (hafter.product_mem t ht)
    obtain ⟨n, hn, hnu⟩ := List.mem_map.1 (hbefore.product_mem u hu)
    rw [← hmt, ← hnu] at hid ⊢
    exact hproduct n hn m (List.mem_of_mem_filter hm) hid
  refine ⟨hafter.nodup, hafter.mem_ids, fun t ht => ?_, fun t ht u hu hid => ?_⟩
  · obtain ⟨m, hm, hmt⟩ := List.mem_map.1 (hafter.product_mem t ht)
    have hknown : t.product.id ∈ rows.map (·.product.id) :=
      List.mem_map.2 ⟨m, List.mem_of_mem_filter hm, congrArg Product.id hmt⟩
    obtain ⟨u, hu, hid⟩ := List.mem_map.1 ((hbefore.mem_ids _).2 hknown)
    exact ⟨u, hu, hsame t ht u hu hid⟩
  · rw [hafter.score_eq t ht, hbefore.score_eq u hu, hsame t ht u hu hid,
      rowsWeight_filter weight t.product.id isKept rows, add_right_comm, add_sub_cancel_right]

end Reduction

namespace Store

/-- Options that list signals keep the recalled rows of the signals that they name, in their order. Only
the set of named signals counts, and where no signal is named there are no rows. In exact arithmetic the
score of each product that is left is the one before, less the weights of its dropped rows. -/
theorem recallCandidates_narrowed (s : Store) (faults : Faults) (source : Product) (limit : Value)
    {fields : Fields} {names : List Value} (hlisted : fields.lookup "signals" = some (.list names))
    (hnames : names ≠ []) :
    (∀ rows, s.recallCandidates faults source limit .null = .ok rows →
      s.recallCandidates faults source limit (.object fields) =
          .ok (rows.filter fun m => m.signal.isNamed names) ∧
        ∀ (α : Type) [AddCommGroup α] (weight : Match → α) (bonus : Product → α),
          IsReduced weight (rows.filter fun m => m.signal.isNamed names)
            (rows.filter fun m => !m.signal.isNamed names)
            (Tally.gather (.ofGroup α) weight bonus rows)
            (Tally.gather (.ofGroup α) weight bonus
              (rows.filter fun m => m.signal.isNamed names))) ∧
    (∀ (otherFields : Fields) (others : List Value),
      otherFields.lookup "signals" = some (.list others) → others ≠ [] →
      (∀ signal : Signal, .text signal.name ∈ others ↔ .text signal.name ∈ names) →
      s.recallCandidates faults source limit (.object otherFields) =
        s.recallCandidates faults source limit (.object fields)) ∧
    ((∀ signal : Signal, .text signal.name ∉ names) →
      s.recallCandidates faults source limit (.object fields) = .ok []) := by
  have hselect := Signal.select_of_listed hlisted hnames
  refine ⟨fun rows hrows => ?_, fun otherFields others hothers hsome hset => ?_, fun hunknown => ?_⟩
  · obtain ⟨recalls, hrecalls, rfl⟩ := exists_recalls_of_null hrows
    refine ⟨recallCandidates_of_listed hlisted hnames hrecalls, fun α _ weight bonus => ?_⟩
    refine isReduced_filter weight bonus (fun m hm n hn hid => ?_) _
    obtain ⟨a, -, hma⟩ := List.mem_flatMap.1 hm
    obtain ⟨b, -, hnb⟩ := List.mem_flatMap.1 hn
    exact product_eq_of_id_eq (fun signal => isRecall_of_recallBy (hrecalls signal)) hma hnb hid
  · unfold recallCandidates
    rw [hselect, Signal.select_of_listed hothers hsome, Signal.named_congr hset]
  · unfold recallCandidates
    rw [hselect, Signal.named_eq_nil hunknown]
    rfl

/-- A signal, twice, and a name that no signal has. -/
def onlyVendor : List Value := [.text "vendor", .text "colour", .text "vendor"]

/-- What rows give in exact arithmetic, in the units of doubles. -/
def exactTallies (rows : List Match) : List (Tally Int) :=
  Tally.gather (.ofGroup Int) (·.weight.units) (fun p => (qualityBonus p).units) rows

/-- Ten times a number of tenths, in the units of doubles. -/
def tenthsOfUnits (n : Nat) : Int := n * Magnitude.unitsPerOne

/-- The second product has the vendor and a tag of the first. Without the row for the tag its score of
three and a half is less by two. -/
theorem recallCandidates_narrowed_acme : ∃ source rows kept,
    acme.product? (.int 1) = .ok (some source) ∧
      acme.recallCandidates .none source (.int 12) .null = .ok rows ∧
      acme.recallCandidates .none source (.int 12) (.object [("signals", .list onlyVendor)]) =
        .ok kept ∧
      kept = (rows.filter fun m => m.signal.isNamed onlyVendor) ∧
      rows.map (fun m => (m.product.id, m.signal)) = [(2, .tags), (2, .vendor)] ∧
      (exactTallies rows).map (fun t => (t.product.id, t.score * 10)) = [(2, tenthsOfUnits 35)] ∧
      (exactTallies kept).map (fun t => (t.product.id, t.score * 10)) = [(2, tenthsOfUnits 15)] ∧
      IsReduced (fun m => m.weight.units) kept
        (rows.filter fun m => !m.signal.isNamed onlyVendor) (exactTallies rows)
        (exactTallies kept) := by
  let source : Product := { id := 1, tags := .ofText "lamp", vendor := some "Acme" }
  have hsource : acme.product? (.int 1) = .ok (some source) := rfl
  have hvalue : (acme.recallCandidates .none source (.int 12) .null).toOption.map (fun rows =>
      (rows.map fun m => (m.product.id, m.signal),
        (exactTallies rows).map fun t => (t.product.id, t.score * 10),
        (exactTallies (rows.filter fun m => m.signal.isNamed onlyVendor)).map
          fun t => (t.product.id, t.score * 10))) =
      some ([(2, .tags), (2, .vendor)], [(2, tenthsOfUnits 35)], [(2, tenthsOfUnits 15)]) := by
    decide +kernel
  obtain ⟨rows, hrows, hshown⟩ := exists_of_toOption_map_eq_some hvalue
  obtain ⟨hcontents, hscores⟩ := Prod.mk.inj hshown
  obtain ⟨hbefore, hafter⟩ := Prod.mk.inj hscores
  have hlisted : ([("signals", .list onlyVendor)] : Fields).lookup "signals" =
      some (.list onlyVendor) := rfl
  obtain ⟨hnarrowed, -⟩ := recallCandidates_narrowed acme .none source (.int 12) hlisted
    (List.cons_ne_nil _ _)
  obtain ⟨hkept, hreduced⟩ := hnarrowed rows hrows
  exact ⟨source, rows, _, hsource, hrows, hkept, rfl, hcontents, hbefore, hafter,
    hreduced Int _ _⟩

end Store

end Storefront
