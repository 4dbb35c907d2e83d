import Storefront.Proofs.Degrading
import Storefront.Proofs.Reloading

/-!
# Syncs that fail in another way

A sync is meant to give a count or to fail as a failure to sync. It does neither where a failure
gets past the places that turn failures into those of the store: a whole number with too many digits
in the text of a rule or in a rule or condition that is turned down and has to be shown, an endless
count of reviews in a row that the rule selects, or a scan that fails in a way of its own. A sync of
all collections stops at the first collection of which this is so. The ids of collections are taken to
be ones that can be written, as everywhere.

* `Rule.HasOversizedNumber`, `Entry.read_eq_error`: the rules that cannot be read to the end
* `Row.toProduct_eq_overflow`: the rows that fail otherwise than with refused fields
* `Store.EscapesSync`, `Store.sync_of_escapes`: what the sync of a collection fails with
* `Store.Reports`, `Store.reports_iff_not_escapes`: when a sync reports its result
* `Store.SyncsEnd`, `Store.syncsEnd_syncEach`: a run of syncs, by induction on the collections
* `Store.sync_reports_or_escapes`: the sync of a collection, and that of all
-/

namespace Storefront

/-! ## Rules that cannot be read -/

/-- A rule holds a whole number with too many digits where it has to be read or shown: its text does,
or it is turned down and holds one, or one of its conditions does. -/
inductive Rule.HasOversizedNumber : Value → Prop
  | text {s : String} (ne_empty : s ≠ "") (read : Value.read s = .error .wholeTooLong) :
    HasOversizedNumber (.text s)
  | shown {rule : Value} {w : Warning} (turnedDown : Node.ofValue rule = .error w)
    (oversized : rule.fits = false) : HasOversizedNumber rule
  | condition {rule condition : Value} {logic : String} {conditions : List Value}
    (read : Node.read rule = .ok (some (.ok (.composite logic conditions))))
    (mem : condition ∈ conditions) (oversized : HasOversizedNumber condition) :
    HasOversizedNumber rule

namespace Node

theorem read_text (s : String) :
    read (.text s) = if s.isEmpty then .ok none
      else match Value.read s with
        | .ok v => report v
        | .error (.malformed _) => .ok (some (.error .unparsableText))
        | .error .wholeTooLong => .error .badValue := rfl

theorem report_eq_error {v : Value} {e : Failure} :
    report v = .error e ↔ e = .badValue ∧ v.fits = false ∧ ∃ w, ofValue v = .error w := by
  unfold report
  cases ofValue v with
  | ok node => simp
  | error w => cases v.fits <;> simp [eq_comm]

/-- A value that is turned down is shown if that can be done. -/
theorem report_eq_warning {v : Value} {w : Warning} :
    report v = .ok (some (.error w)) ↔ v.fits = true ∧ ofValue v = .error w := by
  unfold report
  cases ofValue v with
  | ok node => simp
  | error w => cases v.fits <;> simp

/-- A node cannot be read where a text writes a whole number with too many digits, and where a value is
turned down that holds one. -/
theorem read_eq_error {v : Value} {e : Failure} :
    read v = .error e ↔ e = .badValue ∧
      ((∃ s, v = .text s ∧ s ≠ "" ∧ Value.read s = .error .wholeTooLong) ∨
        v.fits = false ∧ ∃ w, ofValue v = .error w) := by
  constructor
  · intro h
    cases v with
    | null => cases h
    | text s =>
      rw [read_text] at h
      split at h
      · cases h
      · rename_i hne
        split at h
        · rename_i v hread
          have hfits := (report_eq_error.1 h).2.1
          rw [Value.fits_of_read hread] at hfits
          cases hfits
        · cases h
        · rename_i hread
          cases h
          exact ⟨rfl, .inl ⟨s, rfl, fun hempty => hne (String.isEmpty_iff.2 hempty), hread⟩⟩
    | _ =>
      rw [read_eq_report (by simp) (by simp)] at h
      exact (report_eq_error.1 h).imp_right .inr
  · rintro ⟨rfl, ⟨s, rfl, hne, hread⟩ | hshown⟩
    · rw [read_text, if_neg fun hempty => hne (String.isEmpty_iff.1 hempty), hread]
    · cases v with
      | null | text s => cases hshown.1
      | _ =>
        rw [read_eq_report (by simp) (by simp)]
        exact report_eq_error.2 ⟨rfl, hshown⟩

end Node

/-- A rule that cannot be read holds a whole number with too many digits. -/
theorem Rule.hasOversizedNumber_of_read {rule : Value} {e : Failure}
    (h : Entry.read rule = .error e) : e = .badValue ∧ HasOversizedNumber rule := by
  rw [Entry.read_eq] at h
  split at h
  · rename_i e' hnode
    cases h
    obtain ⟨rfl, ⟨s, rfl, hne, hread⟩ | ⟨hfits, w, hw⟩⟩ := Node.read_eq_error.1 hnode
    · exact ⟨rfl, .text hne hread⟩
    · exact ⟨rfl, .shown hw hfits⟩
  · cases h
  · cases h
  · cases h
  · rename_i logic conditions hnode
    rcases bind_eq_error.1 h with hconditions | ⟨entries, -, hentries⟩
    · obtain ⟨condition, hmem, hcondition⟩ := exists_of_mapM_eq_error hconditions
      have := Node.weight_lt_of_mem hnode hmem
      obtain ⟨rfl, hoversized⟩ := hasOversizedNumber_of_read hcondition
      exact ⟨rfl, .condition hnode hmem hoversized⟩
    · cases hentries
termination_by rule.weight

theorem Rule.read_of_hasOversizedNumber {rule : Value} (h : HasOversizedNumber rule) :
    Entry.read rule = .error .badValue := by
  induction h with
  | text ne_empty read =>
    rw [Entry.read_eq, Node.read_eq_error.2 ⟨rfl, .inl ⟨_, rfl, ne_empty, read⟩⟩]
  | shown turnedDown oversized =>
    rw [Entry.read_eq, Node.read_eq_error.2 ⟨rfl, .inr ⟨oversized, _, turnedDown⟩⟩]
  | condition read mem oversized ih =>
    rename_i rule condition logic conditions
    cases hentry : Entry.read rule with
    | error e =>
      rw [(hasOversizedNumber_of_read hentry).1]
    | ok entry =>
      rw [Entry.read_eq, read] at hentry
      obtain ⟨entries, hentries, -⟩ := bind_eq_ok.1 hentry
      obtain ⟨entry', -, hentry'⟩ := exists_of_mapM_eq_ok hentries mem
      cases ih.symm.trans hentry'

/-- A rule can be read unless it holds a whole number with too many digits. -/
theorem Entry.read_eq_error {rule : Value} {e : Failure} :
    Entry.read rule = .error e ↔ e = .badValue ∧ Rule.HasOversizedNumber rule := by
  constructor
  · exact Rule.hasOversizedNumber_of_read
  · intro h
    obtain ⟨rfl, hoversized⟩ := h
    exact Rule.read_of_hasOversizedNumber hoversized

/-- A rule is compiled from its tree unless it holds a whole number with too many digits. -/
theorem Rule.compile_cases (rule : Value) :
    (∃ entry, Entry.read rule = .ok entry ∧
      compile rule = .ok (entry.predicate, entry.warnings)) ∨
    HasOversizedNumber rule ∧ compile rule = .error .badValue := by
  cases hentry : Entry.read rule with
  | ok entry => exact .inl ⟨entry, rfl, compile_eq_ok.2 ⟨entry, hentry, rfl, rfl⟩⟩
  | error e =>
    obtain ⟨rfl, hoversized⟩ := Entry.read_eq_error.1 hentry
    refine .inr ⟨hoversized, ?_⟩
    rw [compile, hentry]
    rfl

/-! ## Rows that cannot be read -/

theorem Row.wholeCount_eq_overflow {x : Binary64} (h : x.isFinite = false) :
    wholeCount (some x) = .error .overflow := by
  unfold wholeCount Binary64.truncate?
  dsimp only
  rw [h]
  rfl

/-- A row fails with an overflow if its count of reviews is endless. -/
theorem Row.toProduct_eq_overflow {row : Row} :
    row.toProduct = .error .overflow ↔ row.HasEndlessCount := by
  constructor
  · intro h
    rcases failure_of_toProduct h with ⟨-, hcount⟩ | ⟨faults, hfaults⟩
    · exact hcount
    · cases hfaults
  · intro h
    obtain ⟨x, hx, hfinite⟩ := h
    unfold toProduct
    rw [hx, wholeCount_eq_overflow hfinite]
    rfl

/-- A failure is one to sync collections. -/
def Failure.IsOfSync (failure : Failure) : Prop := ∃ ids cause, failure = .syncFailed ids cause

namespace Store

variable {s t : Store} {faults : Faults} {c : Collection} {p : Predicate} {failure : Failure}

/-- An evaluation fails as the scan does, or as the first of the matching rows that gives no
product. -/
theorem evaluate_eq_error (hcheck : p.check s.table = .ok ()) :
    s.evaluate faults p = .error failure ↔ p ≠ .matchNone ∧
      (faults.scan p = some failure ∨ faults.scan p = none ∧ ∃ e,
        (s.matchingRows p).mapM Row.toProduct = .error e ∧ failure = Table.queryFailure e) := by
  by_cases hp : p = .matchNone
  · subst hp
    simp [evaluate]
  · rw [evaluate_of_ne_matchNone hp]
    unfold query Table.query
    rw [select_matchingRows hcheck]
    dsimp only
    cases faults.scan p with
    | some fault => simp [hp, Except.map]
    | none =>
      cases (s.matchingRows p).mapM Row.toProduct with
      | error e => simp [hp, Except.map, eq_comm]
      | ok products => simp [Except.map]

/-! ## Syncs that fail in another way -/

theorem syncPredicate?_eq_error :
    syncPredicate? c = .error failure ↔
      c.isSmart = true ∧ failure = .badValue ∧ Rule.HasOversizedNumber c.ruleValue := by
  cases hsmart : c.isSmart with
  | false => simp [syncPredicate?_of_not_isSmart hsmart]
  | true =>
    rw [syncPredicate?_of_isSmart hsmart, ← Entry.read_eq_error]
    cases hentry : Entry.read c.ruleValue with
    | error e => simp [Except.bind]
    | ok entry => cases entry <;> simp [Except.bind]

/-- The count of a row's reviews is endless, and every row before it that satisfies the rule is
read as a product. -/
structure StopsAt (s : Store) (rule : Value) (row : Row) : Prop where
  mem : row ∈ s.table.rows
  satisfied : Rule.IsSatisfiedBy row rule
  endless : row.HasEndlessCount
  first : ∀ other ∈ s.table.rows, other.id < row.id → Rule.IsSatisfiedBy other rule →
    ∃ product, other.toProduct = .ok product

/-- What the sync of a collection fails with other than as a failure to sync. -/
inductive EscapesSync (s : Store) (faults : Faults) (c : Collection) : Failure → Prop
  /-- The rule holds a whole number with too many digits. -/
  | rule (isSmart : c.isSmart = true) (oversized : Rule.HasOversizedNumber c.ruleValue) :
    EscapesSync s faults c .badValue
  /-- The first row that satisfies the rule and is no product has an endless count of reviews. -/
  | row {p : Predicate} {row : Row} (demands : c.Demands p) (scan : faults.scan p = none)
    (stops : s.StopsAt c.ruleValue row) : EscapesSync s faults c .overflow
  /-- The scan fails in a way of its own. -/
  | scan {p : Predicate} {failure : Failure} (demands : c.Demands p) (ne_none : p ≠ .matchNone)
    (scan : faults.scan p = some failure) (not_store : ¬failure.IsOfStore)
    (not_sync : ¬failure.IsOfSync) : EscapesSync s faults c failure

theorem EscapesSync.of_table_eq (h : s.EscapesSync faults c failure) (htable : t.table = s.table) :
    t.EscapesSync faults c failure := by
  cases h with
  | rule isSmart oversized => exact .rule isSmart oversized
  | row demands scan stops =>
    refine .row demands scan ⟨?_, stops.satisfied, stops.endless, ?_⟩
    · rw [htable]
      exact stops.mem
    · rw [htable]
      exact stops.first
  | scan demands ne_none scan not_store not_sync =>
    exact .scan demands ne_none scan not_store not_sync

theorem EscapesSync.not_isOfSync (h : s.EscapesSync faults c failure) : ¬failure.IsOfSync := by
  intro hsync
  obtain ⟨ids, cause, heq⟩ := hsync
  cases h with
  | rule => cases heq
  | row => cases heq
  | scan _ _ _ _ not_sync => exact not_sync ⟨ids, cause, heq⟩

theorem EscapesSync.not_isOfStore (h : s.EscapesSync faults c failure) : ¬failure.IsOfStore := by
  intro hstore
  obtain ⟨op, cause, heq⟩ := hstore
  cases h with
  | rule => cases heq
  | row => cases heq
  | scan _ _ _ not_store _ => exact not_store ⟨op, cause, heq⟩

theorem asSyncFailure_of_not_isOfStore {id : Int} (h : ¬failure.IsOfStore) :
    asSyncFailure id (.error failure) = .error failure := by
  unfold asSyncFailure
  split
  · rename_i op cause heq
    cases heq
    exact absurd ⟨op, cause, rfl⟩ h
  · rfl

/-- The rows that match the predicate of a rule are those that satisfy the rule, in the order of
their ids; so they fail to give products as the first of them does. -/
theorem mapM_matchingRows_eq_overflow (hp : c.Demands p) :
    (s.matchingRows p).mapM Row.toProduct = .error .overflow ↔
      ∃ row, s.StopsAt c.ruleValue row := by
  obtain ⟨warnings, hcompile⟩ := hp.compiled
  have hmem : ∀ row, row ∈ s.matchingRows p ↔
      row ∈ s.table.rows ∧ Rule.IsSatisfiedBy row c.ruleValue := by
    intro row
    rw [← Rule.holds_compile hcompile]
    exact List.mem_filter
  rw [mapM_eq_error_of_pairwise (List.pairwise_map.1 (s.pairwise_matchingRows p))]
  constructor
  · intro h
    obtain ⟨row, hrow, hfails, hfirst⟩ := h
    obtain ⟨hrows, hsatisfied⟩ := (hmem row).1 hrow
    exact ⟨row, hrows, hsatisfied, Row.toProduct_eq_overflow.1 hfails,
      fun other hother hlt hmet => hfirst other ((hmem other).2 ⟨hother, hmet⟩) hlt⟩
  · intro h
    obtain ⟨row, hstops⟩ := h
    refine ⟨row, (hmem row).2 ⟨hstops.mem, hstops.satisfied⟩,
      Row.toProduct_eq_overflow.2 hstops.endless, fun other hother hlt => ?_⟩
    obtain ⟨hrows, hsatisfied⟩ := (hmem other).1 hother
    exact hstops.first other hrows hlt hsatisfied

/-- A sync whose evaluation fails reports a failure to sync, or lets the failure escape. -/
theorem escapes_of_evaluate (hp : c.Demands p) (h : s.evaluate faults p = .error failure) :
    failure.IsOfStore ∨ failure.IsOfSync ∨ s.EscapesSync faults c failure := by
  obtain ⟨warnings, hcompile⟩ := hp.compiled
  obtain ⟨hne, hscan | ⟨hscan, e, hrows, rfl⟩⟩ :=
    (evaluate_eq_error (Rule.check_compile hcompile)).1 h
  · by_cases hstore : failure.IsOfStore
    · exact .inl hstore
    · by_cases hsync : failure.IsOfSync
      · exact .inr (.inl hsync)
      · exact .inr (.inr (.scan hp hne hscan hstore hsync))
  · obtain ⟨row, hrow, hfails⟩ := exists_of_mapM_eq_error hrows
    rcases Row.failure_of_toProduct hfails with ⟨rfl, -⟩ | ⟨refused, rfl⟩
    · obtain ⟨first, hstops⟩ := (mapM_matchingRows_eq_overflow hp).1 hrows
      exact .inr (.inr (.row hp hscan hstops))
    · exact .inl ⟨"query_products", .invalidRecord refused, rfl⟩

/-- A sync reports its result: it gives a count, or fails to sync. -/
def Reports (outcome : Except Failure Nat) : Prop :=
  (∃ n, outcome = .ok n) ∨ ∃ ids cause, outcome = .error (.syncFailed ids cause)

/-- A sync reports its result, or a failure escapes. -/
theorem reports_or_escapes (s : Store) (faults : Faults) (c : Collection) :
    Reports (s.sync faults c).2 ∨ ∃ failure, s.EscapesSync faults c failure := by
  have hcase := s.sync_cases faults c
  generalize s.sync faults c = result at hcase
  cases hcase with
  | unreadable failure hread =>
    obtain ⟨hsmart, rfl, hoversized⟩ := syncPredicate?_eq_error.1 hread
    exact .inr ⟨_, .rule hsmart hoversized⟩
  | idle => exact .inl (.inl ⟨0, rfl⟩)
  | unscanned p failure hread hscan =>
    rcases escapes_of_evaluate (demands_iff.1 hread) hscan with ⟨op, cause, rfl⟩ |
      ⟨ids, cause, rfl⟩ | hescapes
    · exact .inl (.inr ⟨_, _, rfl⟩)
    · exact .inl (.inr ⟨ids, cause, rfl⟩)
    · exact .inr ⟨failure, hescapes⟩
  | uncommitted p ids op cause => exact .inl (.inr ⟨_, _, rfl⟩)
  | written p ids => exact .inl (.inl ⟨ids.length, rfl⟩)

/-- A failure that escapes is what the sync fails with. -/
theorem sync_of_escapes (h : s.EscapesSync faults c failure) :
    s.sync faults c = (s, .error failure) := by
  have hscan : ∀ p, c.Demands p → s.evaluate faults p = .error failure →
      s.sync faults c = (s, .error failure) := by
    intro p hp hfails
    unfold sync writeMatches
    rw [demands_iff.2 hp]
    dsimp only
    rw [hfails]
    dsimp only
    rw [asSyncFailure_of_not_isOfStore h.not_isOfStore]
  cases h with
  | rule isSmart oversized =>
    unfold sync
    rw [syncPredicate?_eq_error.2 ⟨isSmart, rfl, oversized⟩]
  | @row p row demands scan stops =>
    obtain ⟨warnings, hcompile⟩ := demands.compiled
    have hcheck : p.check s.table = .ok () := Rule.check_compile hcompile
    have hne : p ≠ .matchNone := by
      rintro rfl
      have hholds :=
        (Rule.holds_compile (t := s.table) (m := s.memberships) hcompile).2 stops.satisfied
      cases hholds
    exact hscan p demands ((evaluate_eq_error hcheck).2 ⟨hne, .inr ⟨scan, .overflow,
      (mapM_matchingRows_eq_overflow demands).2 ⟨row, stops⟩, rfl⟩⟩)
  | @scan p failure demands ne_none scan =>
    obtain ⟨warnings, hcompile⟩ := demands.compiled
    exact hscan p demands ((evaluate_eq_error (Rule.check_compile hcompile)).2 ⟨ne_none, .inl scan⟩)

/-- A sync reports its result unless a failure escapes. -/
theorem reports_iff_not_escapes :
    Reports (s.sync faults c).2 ↔ ¬∃ failure, s.EscapesSync faults c failure := by
  constructor
  · intro hreports hexists
    obtain ⟨failure, hescapes⟩ := hexists
    rw [sync_of_escapes hescapes] at hreports
    rcases hreports with ⟨n, hn⟩ | ⟨ids, cause, hfails⟩
    · cases hn
    · cases hfails
      exact hescapes.not_isOfSync ⟨ids, cause, rfl⟩
  · exact fun hnone => (s.reports_or_escapes faults c).resolve_right hnone

/-! ## Runs of syncs -/

/-- How a run of syncs ends: every collection is attempted, or the first one of which a failure
escapes ends the run with that failure, and neither it nor those after it are written. -/
inductive SyncsEnd {α : Type} (s : Store) (faults : Int → Faults) (cs : List Collection)
    (Reported : Except Failure α → Prop) : Store × Except Failure α → Prop
  | attempted {outcome : Except Failure α}
    (contained : ∀ c ∈ cs, ¬∃ failure, s.EscapesSync (faults c.id) c failure)
    (reported : Reported outcome) :
    SyncsEnd s faults cs Reported (syncInTurn faults s cs, outcome)
  | stopped {before after : List Collection} {c : Collection} {failure : Failure}
    (split : cs = before ++ c :: after)
    (contained : ∀ d ∈ before, ¬∃ failure, s.EscapesSync (faults d.id) d failure)
    (escapes : s.EscapesSync (faults c.id) c failure) :
    SyncsEnd s faults cs Reported (syncInTurn faults s before, .error failure)

section Runs

variable {faults : Int → Faults} {cs : List Collection}

/-- A run goes on from what a sync that reports its result leaves. -/
theorem SyncsEnd.cons {α : Type} {Reported : Except Failure α → Prop} {f : α → α}
    {result : Store × Except Failure α} (hc : ¬∃ failure, s.EscapesSync (faults c.id) c failure)
    (hmap : ∀ outcome, Reported outcome → Reported (outcome.map f))
    (h : SyncsEnd (s.sync (faults c.id) c).1 faults cs Reported result) :
    SyncsEnd s faults (c :: cs) Reported (result.1, result.2.map f) := by
  have htable := table_sync s (faults c.id) c
  have hsame : ∀ d, (∃ failure, (s.sync (faults c.id) c).1.EscapesSync (faults d.id) d failure) ↔
      ∃ failure, s.EscapesSync (faults d.id) d failure := fun d =>
    ⟨fun h => h.imp fun _ h => h.of_table_eq htable.symm,
      fun h => h.imp fun _ h => h.of_table_eq htable⟩
  cases h with
  | attempted contained reported =>
    refine .attempted (fun d hd => ?_) (hmap _ reported)
    rcases List.mem_cons.1 hd with rfl | hd
    · exact hc
    · exact fun h => contained d hd ((hsame d).2 h)
  | @stopped before after d failure split contained escapes =>
    have hsplit : c :: cs = (c :: before) ++ d :: after := congrArg (c :: ·) split
    refine .stopped hsplit (fun other hother => ?_) (escapes.of_table_eq htable.symm)
    rcases List.mem_cons.1 hother with rfl | hother
    · exact hc
    · exact fun h => contained other hother ((hsame other).2 h)

/-- A run of syncs gives its counts and failures, or stops where a failure escapes. -/
theorem syncsEnd_syncEach (s : Store) (faults : Int → Faults) (cs : List Collection) :
    SyncsEnd s faults cs (fun outcome => ∃ r, outcome = .ok r) (syncEach faults s cs) := by
  induction cs generalizing s with
  | nil => exact .attempted (fun _ hc => nomatch hc) ⟨_, rfl⟩
  | cons c cs ih =>
    have hrest := ih (s.sync (faults c.id) c).1
    rw [syncEach]
    by_cases hc : ∃ failure, s.EscapesSync (faults c.id) c failure
    · obtain ⟨failure, hescapes⟩ := hc
      have hsplit : c :: cs = [] ++ c :: cs := rfl
      have hstops : SyncsEnd s faults (c :: cs)
          (fun outcome : Except Failure (Nat × List (Int × Failure)) => ∃ r, outcome = .ok r)
          (s, .error failure) := .stopped hsplit (fun _ hd => nomatch hd) hescapes
      rw [sync_of_escapes hescapes]
      split
      · rename_i heq
        cases heq
      · rename_i ids cause heq
        cases heq
        exact absurd ⟨ids, cause, rfl⟩ hescapes.not_isOfSync
      · rename_i heq
        cases heq
        exact hstops
    · have hreports := reports_iff_not_escapes.2 hc
      have hstep : ∀ f : Nat × List (Int × Failure) → Nat × List (Int × Failure), SyncsEnd s faults
          (c :: cs) (fun outcome : Except Failure _ => ∃ r, outcome = .ok r)
          ((syncEach faults (s.sync (faults c.id) c).1 cs).1,
            (syncEach faults (s.sync (faults c.id) c).1 cs).2.map f) := by
        refine fun f => hrest.cons hc fun outcome hok => ?_
        obtain ⟨r, rfl⟩ := hok
        exact ⟨f r, rfl⟩
      generalize s.sync (faults c.id) c = result at hreports hstep ⊢
      obtain ⟨t, outcome⟩ := result
      rcases hreports with ⟨n, hn⟩ | ⟨ids, cause, hfails⟩
      · cases hn
        exact hstep _
      · cases hfails
        exact hstep _

/-- A sync of all collections reports its result, or stops where a failure escapes. -/
theorem syncsEnd_syncAll (s : Store) (faults : Int → Faults) :
    SyncsEnd s faults (s.listCollections true) Reports (s.syncAll faults) := by
  have hrun := s.syncsEnd_syncEach faults (s.listCollections true)
  unfold syncAll
  generalize syncEach faults s (s.listCollections true) = result at hrun
  cases hrun with
  | attempted contained reported =>
    obtain ⟨⟨total, failed⟩, rfl⟩ := reported
    dsimp only
    split
    · exact .attempted contained (.inl ⟨total, rfl⟩)
    · exact .attempted contained (.inr ⟨_, _, rfl⟩)
  | stopped split contained escapes => exact .stopped split contained escapes

end Runs

/-- A sync by id is one of the collection with the id. -/
theorem syncById_of_mem (hc : c ∈ s.collections) (faults : Faults) :
    s.syncById faults (.int c.id) = s.sync faults c := by
  have hfound : s.requireCollection (.int c.id) = .ok c :=
    bind_eq_ok.2 ⟨some c, congrArg Except.ok (findCollection?_eq_some.2 ⟨hc, rfl⟩), rfl⟩
  unfold syncById
  rw [hfound]

/-- The sync of a stored collection reports its result if and only if no failure escapes; one that
escapes is what the sync fails with, and leaves the store as it was. A sync of all collections
attempts each smart one and reports its result, unless a failure escapes of one of them: then it
stops there, the collections before it have been attempted, and it and those after it are left
alone. -/
theorem sync_reports_or_escapes (s : Store) :
    (∀ faults, ∀ c ∈ s.collections,
      (Reports (s.syncById faults (.int c.id)).2 ↔ ¬∃ failure, s.EscapesSync faults c failure) ∧
      ∀ failure, s.EscapesSync faults c failure →
        s.syncById faults (.int c.id) = (s, .error failure)) ∧
    ∀ faults, SyncsEnd s faults (s.listCollections true) Reports (s.syncAll faults) := by
  refine ⟨fun faults c hc => ?_, s.syncsEnd_syncAll⟩
  rw [syncById_of_mem hc]
  exact ⟨reports_iff_not_escapes, fun failure => sync_of_escapes⟩

/-- Two products, of which the first has an endless count of reviews. -/
def viral : RawTable where
  columns := [("id", [.value (.int 1), .value (.int 2)]),
    ("price", [.value (.float (.ofInt 10)), .value (.float (.ofInt 20))]),
    ("vendor", [.value (.text "Acme"), .value (.text "Globex")]),
    ("review_count", [.value (.text "inf"), .value (.int 3)])]
  height := 2

/-- One collection of all products, and one of those of a vendor. -/
def viralCollections : List Fields :=
  [[("id", .int 10), ("is_smart", .bool true), ("rule", .object [("type", .text "all")])],
    [("id", .int 20), ("is_smart", .bool true),
      ("rule", .object [("type", .text "vendor"), ("value", .text "Globex")])]]

/-- An outcome fails with an overflow. -/
def overflows {α : Type} : Except Failure α → Bool
  | .error .overflow => true
  | _ => false

theorem overflows_iff {α : Type} {x : Except Failure α} :
    overflows x = true ↔ x = .error .overflow := by
  constructor
  · intro h
    unfold overflows at h
    split at h
    · rfl
    · cases h
  · intro h
    rw [h]
    rfl

/-- The sync of the first collection lets the overflow escape, and so does the sync of all
collections, which leaves the second one without members. -/
theorem sync_viral : ∃ s c, build (some viral) viralCollections [] = .ok s ∧ c ∈ s.collections ∧
    c.isSmart = true ∧ (s.syncById .none (.int c.id)).2 = .error .overflow ∧
    (s.syncAll fun _ => .none).2 = .error .overflow ∧
    [(s.syncAll fun _ => .none).1.memberIds? 20, (s.syncById .none (.int 20)).1.memberIds? 20] =
      [none, some [2]] := by
  have hvalue : (build (some viral) viralCollections []).toOption.bind (fun s =>
      (s.findCollection? 10).map fun c => (c.isSmart &&
        overflows (s.syncById .none (.int c.id)).2 && overflows (s.syncAll fun _ => .none).2,
        [(s.syncAll fun _ => .none).1.memberIds? 20,
          (s.syncById .none (.int 20)).1.memberIds? 20])) =
      some (true, [none, some [2]]) := by
    decide +kernel
  cases hs : build (some viral) viralCollections [] with
  | error failure =>
    rw [hs] at hvalue
    cases hvalue
  | ok s =>
    rw [hs] at hvalue
    obtain ⟨c, hfound, hc⟩ := Option.map_eq_some_iff.1 hvalue
    simp only [Prod.mk.injEq, Bool.and_eq_true, overflows_iff] at hc
    obtain ⟨⟨⟨hsmart, hone⟩, hall⟩, hmembers⟩ := hc
    exact ⟨s, c, rfl, (findCollection?_eq_some.1 hfound).1, hsmart, hone, hall, hmembers⟩

/-- A sync can fail in another way than as a failure to sync. -/
theorem not_forall_sync_reports : ¬∀ (s : Store) (faults : Faults), s.IsBuilt →
    ∀ c ∈ s.collections, c.isSmart = true → Reports (s.syncById faults (.int c.id)).2 := by
  intro h
  obtain ⟨s, c, hs, hc, hsmart, hfails, -⟩ := sync_viral
  rcases h s .none (.ofRecords hs) c hc hsmart with ⟨n, hn⟩ | ⟨ids, cause, hcause⟩
  · cases hfails.symm.trans hn
  · cases hfails.symm.trans hcause

end Store

end Storefront
