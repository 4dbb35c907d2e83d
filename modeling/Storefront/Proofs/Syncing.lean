import Storefront.Proofs.Evaluation

/-!
# What a sync does

A sync leaves the store alone and has nothing to do, or replaces the members of its collection as a
whole, or fails and leaves the store alone. Which of these happens is decided by the rule, the scan
and the commit, in this order.

* `Collection.HasRule`, `Collection.RejectsRule`: what becomes of a collection's rule
* `Store.SyncCase`: the course of a sync
* `Store.Skipped`, `Store.Written`, `Store.Failed`: the three outcomes
* `Store.sync_outcome`: each sync has one of them
-/

namespace Storefront

/-! ## Rules of collections -/

namespace Collection

/-- The value of a collection's rule. -/
def ruleValue (c : Collection) : Value := (c.rule.map StoredRule.toValue).getD .null

/-- The collection has a rule that can be read. -/
def HasRule (c : Collection) : Prop := ∃ node, Node.read c.ruleValue = .ok (some (.ok node))

/-- The rule of the collection is absent or turned down. -/
def RejectsRule (c : Collection) : Prop :=
  Node.read c.ruleValue = .ok none ∨ ∃ warning, Node.read c.ruleValue = .ok (some (.error warning))

theorem not_rejectsRule {c : Collection} (h : c.HasRule) : ¬c.RejectsRule := by
  obtain ⟨node, hnode⟩ := h
  intro hrejects
  rcases hrejects with hnone | ⟨warning, hwarning⟩
  · cases hnode.symm.trans hnone
  · cases hnode.symm.trans hwarning

end Collection

namespace Store

variable {s : Store} {faults : Faults} {c : Collection} {p : Predicate}

theorem syncPredicate?_of_not_isSmart (h : c.isSmart = false) : syncPredicate? c = .ok none := by
  unfold syncPredicate?
  rw [h]
  rfl

theorem syncPredicate?_of_isSmart (h : c.isSmart = true) :
    syncPredicate? c = (Entry.read c.ruleValue).bind fun
      | .blank | .rejected _ => .ok none
      | entry => .ok (some entry.predicate) := by
  unfold syncPredicate?
  rw [h]
  rfl

/-- A sync has no predicate for a collection that is not smart or whose rule is turned down. -/
theorem syncPredicate?_eq_none :
    syncPredicate? c = .ok none ↔ c.isSmart = false ∨ c.RejectsRule := by
  cases hsmart : c.isSmart with
  | false => simp [syncPredicate?_of_not_isSmart hsmart]
  | true =>
    rw [syncPredicate?_of_isSmart hsmart]
    constructor
    · intro h
      obtain ⟨entry, hentry, hnone⟩ := bind_eq_ok.1 h
      rcases Entry.read_cases hentry with ⟨hnode, rfl⟩ | ⟨w, hnode, rfl⟩ | ⟨l, hnode, rfl⟩ |
        ⟨logic, conditions, entries, hnode, -, rfl⟩
      · exact .inr (.inl hnode)
      · exact .inr (.inr ⟨w, hnode⟩)
      · cases hnone
      · cases hnone
    · intro h
      rcases h with h | hnode | ⟨w, hnode⟩
      · cases h
      · rw [Entry.read_eq, hnode]
        rfl
      · rw [Entry.read_eq, hnode]
        rfl

/-- A sync has the predicate of the compiled rule for a smart collection with a rule that can be
read. -/
theorem syncPredicate?_eq_some :
    syncPredicate? c = .ok (some p) ↔
      c.isSmart = true ∧ c.HasRule ∧ ∃ warnings, Rule.compile c.ruleValue = .ok (p, warnings) := by
  cases hsmart : c.isSmart with
  | false => simp [syncPredicate?_of_not_isSmart hsmart]
  | true =>
    rw [syncPredicate?_of_isSmart hsmart]
    constructor
    · intro h
      obtain ⟨entry, hentry, hsome⟩ := bind_eq_ok.1 h
      rcases Entry.read_cases hentry with ⟨hnode, rfl⟩ | ⟨w, hnode, rfl⟩ | ⟨l, hnode, rfl⟩ |
        ⟨logic, conditions, entries, hnode, -, rfl⟩
      · cases hsome
      · cases hsome
      · cases hsome
        exact ⟨rfl, ⟨_, hnode⟩, _, Rule.compile_eq_ok.2 ⟨_, hentry, rfl, rfl⟩⟩
      · cases hsome
        exact ⟨rfl, ⟨_, hnode⟩, _, Rule.compile_eq_ok.2 ⟨_, hentry, rfl, rfl⟩⟩
    · intro h
      obtain ⟨-, ⟨node, hnode⟩, warnings, hcompile⟩ := h
      obtain ⟨entry, hentry, rfl, -⟩ := Rule.compile_eq_ok.1 hcompile
      refine bind_eq_ok.2 ⟨entry, hentry, ?_⟩
      rcases Entry.read_cases hentry with ⟨hnode', rfl⟩ | ⟨w, hnode', rfl⟩ | ⟨l, -, rfl⟩ |
        ⟨logic, conditions, entries, -, -, rfl⟩
      · cases hnode.symm.trans hnode'
      · cases hnode.symm.trans hnode'
      · rfl
      · rfl

/-- A rule that cannot be read to the end has no compiled form. -/
theorem compile_ne_ok_of_error {failure : Failure} (h : syncPredicate? c = .error failure)
    {warnings : List Warning} : Rule.compile c.ruleValue ≠ .ok (p, warnings) := by
  intro hcompile
  obtain ⟨entry, hentry, -, -⟩ := Rule.compile_eq_ok.1 hcompile
  cases hsmart : c.isSmart with
  | false => cases (syncPredicate?_of_not_isSmart hsmart).symm.trans h
  | true =>
    rw [syncPredicate?_of_isSmart hsmart, hentry] at h
    cases entry <;> cases h

/-! ## The course of a sync -/

/-- A publication writes what is staged, or fails as a failure of the store and writes nothing. -/
theorem publish_cases (s : Store) (faults : Faults) (operation : String) (staged : Memberships) :
    (faults.commit = none ∧
      s.publish faults operation staged = ({ s with memberships := staged }, .ok ())) ∨
    (faults.commit ≠ none ∧ ∃ op cause,
      s.publish faults operation staged = (s, .error (.store op cause))) := by
  unfold publish
  cases hcommit : faults.commit with
  | none => exact .inl ⟨rfl, rfl⟩
  | some failure =>
    refine .inr ⟨Option.some_ne_none failure, ?_⟩
    cases failure with
    | store op cause => exact ⟨op, cause, rfl⟩
    | _ => exact ⟨operation, _, rfl⟩

/-- The courses that a sync can take, with the store that each leaves and its outcome. -/
inductive SyncCase (s : Store) (faults : Faults) (c : Collection) :
    Store × Except Failure Nat → Prop
  /-- The rule cannot be read to the end. -/
  | unreadable (failure : Failure) (read : syncPredicate? c = .error failure) :
    SyncCase s faults c (s, .error failure)
  /-- There is nothing to sync. -/
  | idle (read : syncPredicate? c = .ok none) : SyncCase s faults c (s, .ok 0)
  /-- The scan fails. -/
  | unscanned (p : Predicate) (failure : Failure) (read : syncPredicate? c = .ok (some p))
    (scan : s.evaluate faults p = .error failure) :
    SyncCase s faults c (s, asSyncFailure c.id (.error failure))
  /-- The commit fails. -/
  | uncommitted (p : Predicate) (ids : List Int) (op : String) (cause : Failure)
    (read : syncPredicate? c = .ok (some p)) (scan : s.evaluate faults p = .ok ids)
    (commit : faults.commit ≠ none) :
    SyncCase s faults c (s, .error (.syncFailed [c.id] (.store op cause)))
  /-- The members are written. -/
  | written (p : Predicate) (ids : List Int) (read : syncPredicate? c = .ok (some p))
    (scan : s.evaluate faults p = .ok ids) (commit : faults.commit = none) :
    SyncCase s faults c
      ({ s with memberships := s.memberships.replace c.id (ids.map Member.ofId) }, .ok ids.length)

theorem sync_cases (s : Store) (faults : Faults) (c : Collection) :
    SyncCase s faults c (s.sync faults c) := by
  unfold sync
  cases hread : syncPredicate? c with
  | error failure => exact .unreadable failure hread
  | ok predicate =>
    cases predicate with
    | none => exact .idle hread
    | some p =>
      show SyncCase s faults c ((s.writeMatches faults c.id p).1,
        asSyncFailure c.id (s.writeMatches faults c.id p).2)
      unfold writeMatches
      cases hscan : s.evaluate faults p with
      | error failure => exact .unscanned p failure hread hscan
      | ok ids =>
        dsimp only [replaceMembers]
        rcases s.publish_cases faults "replace_collection_membership"
            (s.memberships.replace c.id (ids.map Member.ofId)) with
          ⟨hcommit, hpublish⟩ | ⟨hcommit, op, cause, hpublish⟩
        · rw [hpublish]
          exact .written p ids hread hscan hcommit
        · rw [hpublish]
          exact .uncommitted p ids op cause hread hscan hcommit

/-! ## Outcomes -/

/-- A sync with nothing to do: the collection is not smart or its rule is turned down. It counts no
members and leaves the store as it is. -/
structure Skipped (s : Store) (c : Collection) (result : Store × Except Failure Nat) : Prop where
  cause : c.isSmart = false ∨ c.RejectsRule
  outcome_eq : result.2 = .ok 0
  store_eq : result.1 = s

/-- A sync that writes: the members of the collection are the evaluation of its rule, in strictly
ascending order, and everything else is as before. -/
structure Written (s : Store) (faults : Faults) (c : Collection)
    (result : Store × Except Failure Nat) (ids : List Int) : Prop where
  isSmart : c.isSmart = true
  hasRule : c.HasRule
  evaluated : ∃ p warnings, Rule.compile c.ruleValue = .ok (p, warnings) ∧
    s.evaluate faults p = .ok ids
  ascending : ids.Pairwise (· < ·)
  outcome_eq : result.2 = .ok ids.length
  members_eq : result.1.memberships.members? c.id = some (ids.map Member.ofId)
  others_eq : ∀ key ≠ c.id, result.1.memberships.members? key = s.memberships.members? key
  table_eq : result.1.table = s.table
  collections_eq : result.1.collections = s.collections

/-- A sync that fails: the store is as before. A failure of the store beneath is reported as a
failure to sync this collection. -/
structure Failed (s : Store) (faults : Faults) (c : Collection)
    (result : Store × Except Failure Nat) : Prop where
  fails : ∃ failure, result.2 = .error failure
  store_eq : result.1 = s
  scan_reported : ∀ p warnings op cause, Rule.compile c.ruleValue = .ok (p, warnings) →
    s.evaluate faults p = .error (.store op cause) →
    result.2 = .error (.syncFailed [c.id] (.store op cause))
  commit_reported : ∀ p warnings ids, Rule.compile c.ruleValue = .ok (p, warnings) →
    s.evaluate faults p = .ok ids → faults.commit ≠ none →
    ∃ op cause, result.2 = .error (.syncFailed [c.id] (.store op cause))

theorem Skipped.not_written {result : Store × Except Failure Nat} {ids : List Int}
    (h : Skipped s c result) : ¬Written s faults c result ids := by
  intro hwritten
  rcases h.cause with hmanual | hrejects
  · cases hmanual.symm.trans hwritten.isSmart
  · exact Collection.not_rejectsRule hwritten.hasRule hrejects

theorem Skipped.not_failed {result : Store × Except Failure Nat} (h : Skipped s c result) :
    ¬Failed s faults c result := by
  intro hfailed
  obtain ⟨failure, hfailure⟩ := hfailed.fails
  cases h.outcome_eq.symm.trans hfailure

theorem Written.not_failed {result : Store × Except Failure Nat} {ids : List Int}
    (h : Written s faults c result ids) : ¬Failed s faults c result := by
  intro hfailed
  obtain ⟨failure, hfailure⟩ := hfailed.fails
  cases h.outcome_eq.symm.trans hfailure

theorem written_of_commit {ids : List Int} (hread : syncPredicate? c = .ok (some p))
    (hscan : s.evaluate faults p = .ok ids) :
    Written s faults c
      ({ s with memberships := s.memberships.replace c.id (ids.map Member.ofId) }, .ok ids.length)
      ids := by
  obtain ⟨hsmart, hrule, warnings, hcompile⟩ := syncPredicate?_eq_some.1 hread
  refine ⟨hsmart, hrule, ⟨p, warnings, hcompile, hscan⟩, ?_, rfl, ?_, ?_, rfl, rfl⟩
  · rw [eq_of_evaluate (Rule.check_compile hcompile) hscan]
    exact s.pairwise_matchingRows p
  · show (s.memberships.replace c.id _).members? c.id = _
    rw [Memberships.members?_replace, if_pos rfl]
  · intro key hkey
    show (s.memberships.replace c.id _).members? key = _
    rw [Memberships.members?_replace, if_neg hkey]

/-- A sync skips, writes or fails. -/
theorem skipped_or_written_or_failed (s : Store) (faults : Faults) (c : Collection) :
    Skipped s c (s.sync faults c) ∨ (∃ ids, Written s faults c (s.sync faults c) ids) ∨
      Failed s faults c (s.sync faults c) := by
  have hcase := s.sync_cases faults c
  generalize s.sync faults c = result at hcase
  cases hcase with
  | unreadable failure hread =>
    refine .inr (.inr ⟨⟨failure, rfl⟩, rfl, ?_, ?_⟩)
    · intro p warnings op cause hcompile
      exact absurd hcompile (compile_ne_ok_of_error hread)
    · intro p warnings ids hcompile
      exact absurd hcompile (compile_ne_ok_of_error hread)
  | idle hread => exact .inl ⟨syncPredicate?_eq_none.1 hread, rfl, rfl⟩
  | unscanned p failure hread hscan =>
    obtain ⟨-, -, warnings, hcompile⟩ := syncPredicate?_eq_some.1 hread
    refine .inr (.inr ⟨?_, rfl, ?_, ?_⟩)
    · cases failure <;> exact ⟨_, rfl⟩
    · intro p' warnings' op cause hcompile' hscan'
      cases hcompile.symm.trans hcompile'
      cases hscan.symm.trans hscan'
      rfl
    · intro p' warnings' ids hcompile' hscan'
      cases hcompile.symm.trans hcompile'
      cases hscan.symm.trans hscan'
  | uncommitted p ids op cause hread hscan hcommit =>
    obtain ⟨-, -, warnings, hcompile⟩ := syncPredicate?_eq_some.1 hread
    refine .inr (.inr ⟨⟨_, rfl⟩, rfl, ?_, ?_⟩)
    · intro p' warnings' op cause hcompile' hscan'
      cases hcompile.symm.trans hcompile'
      cases hscan.symm.trans hscan'
    · intro p' warnings' ids' _ _ _
      exact ⟨op, cause, rfl⟩
  | written p ids hread hscan hcommit => exact .inr (.inl ⟨ids, written_of_commit hread hscan⟩)

theorem skipped_iff : Skipped s c (s.sync faults c) ↔ c.isSmart = false ∨ c.RejectsRule := by
  constructor
  · exact Skipped.cause
  · intro hcause
    have hsync : s.sync faults c = (s, .ok 0) := by
      unfold sync
      rw [syncPredicate?_eq_none.2 hcause]
    rw [hsync]
    exact ⟨hcause, rfl, rfl⟩

/-- Where neither the scan nor the commit fails, a sync writes. -/
theorem written_of_evaluate {ids : List Int} (hread : syncPredicate? c = .ok (some p))
    (hscan : s.evaluate faults p = .ok ids) (hcommit : faults.commit = none) :
    Written s faults c (s.sync faults c) ids := by
  have hcase := s.sync_cases faults c
  generalize s.sync faults c = result at hcase
  cases hcase with
  | unreadable failure hread' => cases hread.symm.trans hread'
  | idle hread' => cases hread.symm.trans hread'
  | unscanned p' failure hread' hscan' =>
    cases hread.symm.trans hread'
    cases hscan.symm.trans hscan'
  | uncommitted p' ids' op cause hread' hscan' hfails => exact absurd hcommit hfails
  | written p' ids' hread' hscan' hcommit' =>
    cases hread.symm.trans hread'
    cases hscan.symm.trans hscan'
    exact written_of_commit hread hscan

/-- A sync writes the evaluation of the rule of a smart collection if the scan and the commit succeed,
and only then. -/
theorem written_iff {ids : List Int} :
    Written s faults c (s.sync faults c) ids ↔ c.isSmart = true ∧ c.HasRule ∧
      (∃ p warnings, Rule.compile c.ruleValue = .ok (p, warnings) ∧
        s.evaluate faults p = .ok ids) ∧ faults.commit = none := by
  constructor
  · intro h
    refine ⟨h.isSmart, h.hasRule, h.evaluated, ?_⟩
    by_contra hcommit
    obtain ⟨p, warnings, hcompile, hscan⟩ := h.evaluated
    have hcase := s.sync_cases faults c
    generalize s.sync faults c = result at hcase h
    cases hcase with
    | unreadable failure hread => exact compile_ne_ok_of_error hread hcompile
    | idle hread =>
      have hskipped : Skipped s c (s, .ok 0) := ⟨syncPredicate?_eq_none.1 hread, rfl, rfl⟩
      exact hskipped.not_written h
    | unscanned p' failure hread hscan' =>
      obtain ⟨-, -, warnings', hcompile'⟩ := syncPredicate?_eq_some.1 hread
      cases hcompile.symm.trans hcompile'
      cases hscan.symm.trans hscan'
    | uncommitted p' ids' op cause => cases h.outcome_eq
    | written p' ids' hread hscan' hcommit' => exact hcommit hcommit'
  · intro h
    obtain ⟨hsmart, hrule, ⟨p, warnings, hcompile, hscan⟩, hcommit⟩ := h
    exact written_of_evaluate (syncPredicate?_eq_some.2 ⟨hsmart, hrule, warnings, hcompile⟩) hscan
      hcommit

/-- A second sync after one that wrote writes the same members, unless the store fails. -/
theorem Written.again {result : Store × Except Failure Nat} {ids : List Int}
    (h : Written s faults c result ids) (later : Faults) :
    Written result.1 later c (result.1.sync later c) ids ∨
      Failed result.1 later c (result.1.sync later c) ∧
        ((∃ p, later.scan p ≠ none) ∨ later.commit ≠ none) := by
  obtain ⟨p, warnings, hcompile, hscan⟩ := h.evaluated
  have hread : syncPredicate? c = .ok (some p) :=
    syncPredicate?_eq_some.2 ⟨h.isSmart, h.hasRule, warnings, hcompile⟩
  have hsame : result.1.evaluate later p = s.evaluate later p :=
    evaluate_eq_of_table_eq hcompile h.table_eq
  by_cases hquiet : later.scan p = none ∧ later.commit = none
  · left
    refine written_of_evaluate hread ?_ hquiet.2
    rw [hsame]
    exact evaluate_of_scan_eq_none hscan hquiet.1
  · rcases result.1.skipped_or_written_or_failed later c with hskipped | ⟨ids', hwritten⟩ | hfailed
    · rcases hskipped.cause with hmanual | hrejects
      · cases hmanual.symm.trans h.isSmart
      · exact absurd hrejects (Collection.not_rejectsRule h.hasRule)
    · left
      obtain ⟨p', warnings', hcompile', hscan'⟩ := hwritten.evaluated
      cases hcompile.symm.trans hcompile'
      rw [hsame] at hscan'
      have hcheck : p.check s.table = .ok () := Rule.check_compile hcompile
      rw [eq_of_evaluate hcheck hscan, ← eq_of_evaluate hcheck hscan']
      exact hwritten
    · refine .inr ⟨hfailed, ?_⟩
      by_cases hfree : later.scan p = none
      · exact .inr fun hcommit => hquiet ⟨hfree, hcommit⟩
      · exact .inl ⟨p, hfree⟩

/-- A sync is all or nothing: exactly one of its outcomes comes about, which is the first for the
collections that are not smart or whose rule is turned down, and the second where the rule is compiled
and neither the scan nor the commit fails. Syncing again after a sync that wrote
writes the same members and leaves all members as they are, unless the store fails. -/
theorem sync_outcome (s : Store) (faults : Faults) (c : Collection) :
    (Skipped s c (s.sync faults c) ∨ (∃ ids, Written s faults c (s.sync faults c) ids) ∨
      Failed s faults c (s.sync faults c)) ∧
    ¬(Skipped s c (s.sync faults c) ∧ ∃ ids, Written s faults c (s.sync faults c) ids) ∧
    ¬(Skipped s c (s.sync faults c) ∧ Failed s faults c (s.sync faults c)) ∧
    ¬((∃ ids, Written s faults c (s.sync faults c) ids) ∧ Failed s faults c (s.sync faults c)) ∧
    (Skipped s c (s.sync faults c) ↔ c.isSmart = false ∨ c.RejectsRule) ∧
    (∀ ids, Written s faults c (s.sync faults c) ids ↔ c.isSmart = true ∧ c.HasRule ∧
      (∃ p warnings, Rule.compile c.ruleValue = .ok (p, warnings) ∧
        s.evaluate faults p = .ok ids) ∧ faults.commit = none) ∧
    ∀ ids later, Written s faults c (s.sync faults c) ids →
      (Written (s.sync faults c).1 later c ((s.sync faults c).1.sync later c) ids ∧
        ∀ key, ((s.sync faults c).1.sync later c).1.memberships.members? key =
          (s.sync faults c).1.memberships.members? key) ∨
      (Failed (s.sync faults c).1 later c ((s.sync faults c).1.sync later c) ∧
        ((∃ p, later.scan p ≠ none) ∨ later.commit ≠ none)) := by
  refine ⟨s.skipped_or_written_or_failed faults c, ?_, ?_, ?_, skipped_iff, fun _ => written_iff, ?_⟩
  · intro h
    obtain ⟨hskipped, ids, hwritten⟩ := h
    exact hskipped.not_written hwritten
  · intro h
    exact h.1.not_failed h.2
  · intro h
    obtain ⟨⟨ids, hwritten⟩, hfailed⟩ := h
    exact hwritten.not_failed hfailed
  · intro ids later hwritten
    rcases hwritten.again later with hagain | hfailed
    · refine .inl ⟨hagain, fun key => ?_⟩
      by_cases hkey : key = c.id
      · rw [hkey, hagain.members_eq, hwritten.members_eq]
      · exact hagain.others_eq key hkey
    · exact .inr hfailed

end Store

end Storefront
