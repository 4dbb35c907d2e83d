import Mathlib.Algebra.GroupWithZero.Nat
import Storefront.Proofs.Runs

/-!
# What a sync of all collections does

The predicate of a rule is decided by the product table, which no sync changes. What each sync writes
is therefore settled before the first of them begins: a collection that does not fail gets the
members of its rule, whichever others fail and in whatever order they are synced.

* `Collection.Demands`: a collection asks for the products of a predicate
* `Store.FailsToSync`, `Store.FailsOnlyAtStore`: how the sync of a collection fails
* `Store.freshIds?`: what the sync of a collection writes
* `Store.syncInTurn`: collections synced one after the other, in any order
* `Store.exists_syncEach`: the run of a sync of all collections, by induction on the collections
* `Store.SyncedAll`, `Store.syncAll_outcome`: what a sync of all collections leaves and gives
-/

namespace Storefront

/-- The collection asks for the products of a predicate: it is smart, and its rule can be read and
has this predicate. -/
structure Collection.Demands (c : Collection) (p : Predicate) : Prop where
  isSmart : c.isSmart = true
  hasRule : c.HasRule
  compiled : ∃ warnings, Rule.compile c.ruleValue = .ok (p, warnings)

namespace Store

variable {s t : Store} {faults others : Faults} {c : Collection} {p : Predicate} {ids : List Int}

/-! ## Syncs that fail -/

/-- The sync of a collection fails: it asks for products, and the scan or the commit fails. -/
def FailsToSync (s : Store) (faults : Faults) (c : Collection) : Prop :=
  ∃ p, c.Demands p ∧ ((∃ failure, s.evaluate faults p = .error failure) ∨ faults.commit ≠ none)

/-- The sync of a collection can fail nowhere but at the store: the rule of a smart collection can be
read to the end, and a scan that fails does so as a failure of the store. -/
structure FailsOnlyAtStore (s : Store) (faults : Faults) (c : Collection) : Prop where
  compiles : c.isSmart = true → ∃ p warnings, Rule.compile c.ruleValue = .ok (p, warnings)
  scan_fails : ∀ p failure, c.Demands p → s.evaluate faults p = .error failure →
    ∃ op cause, failure = .store op cause

theorem demands_iff : syncPredicate? c = .ok (some p) ↔ c.Demands p := by
  rw [syncPredicate?_eq_some]
  constructor
  · intro h
    exact ⟨h.1, h.2.1, h.2.2⟩
  · intro h
    exact ⟨h.isSmart, h.hasRule, h.compiled⟩

/-- A collection asks for the products of one predicate only. -/
theorem demands_unique {q : Predicate} (hp : c.Demands p) (hq : c.Demands q) : p = q := by
  obtain ⟨_, hp⟩ := hp.compiled
  obtain ⟨_, hq⟩ := hq.compiled
  cases hp.symm.trans hq
  rfl

theorem evaluate_of_demands (hp : c.Demands p) (htable : t.table = s.table) :
    t.evaluate faults p = s.evaluate faults p := by
  obtain ⟨_, hcompile⟩ := hp.compiled
  exact evaluate_eq_of_table_eq hcompile htable

theorem failsToSync_of_table_eq (htable : t.table = s.table) :
    t.FailsToSync faults c ↔ s.FailsToSync faults c := by
  unfold FailsToSync
  constructor
  · intro h
    obtain ⟨p, hp, hfails⟩ := h
    rw [evaluate_of_demands hp htable] at hfails
    exact ⟨p, hp, hfails⟩
  · intro h
    obtain ⟨p, hp, hfails⟩ := h
    rw [← evaluate_of_demands hp htable] at hfails
    exact ⟨p, hp, hfails⟩

theorem FailsOnlyAtStore.of_table_eq (h : s.FailsOnlyAtStore faults c)
    (htable : t.table = s.table) : t.FailsOnlyAtStore faults c where
  compiles := h.compiles
  scan_fails p failure hp hscan := by
    rw [evaluate_of_demands hp htable] at hscan
    exact h.scan_fails p failure hp hscan

/-! ## What a sync writes -/

/-- The ids of the members that the sync of a collection writes, if it writes any. -/
def freshIds? (s : Store) (faults : Faults) (c : Collection) : Option (List Int) :=
  match syncPredicate? c, faults.commit with
  | .ok (some p), none => (s.evaluate faults p).toOption
  | _, _ => none

/-- The store with the new members of a collection, if there are any to write. -/
def writing (s : Store) (collection : Int) : Option (List Int) → Store
  | none => s
  | some ids => { s with memberships := s.memberships.replace collection (ids.map Member.ofId) }

theorem table_writing (s : Store) (collection : Int) (fresh : Option (List Int)) :
    (s.writing collection fresh).table = s.table := by
  cases fresh <;> rfl

theorem members?_writing (s : Store) (collection key : Int) (fresh : Option (List Int)) :
    (s.writing collection fresh).memberships.members? key =
      if key = collection then
        (fresh.map fun ids => ids.map Member.ofId).or (s.memberships.members? key)
      else s.memberships.members? key := by
  cases fresh with
  | none => simp [writing]
  | some ids => exact Memberships.members?_replace _ _ _ _

theorem freshIds?_eq_some :
    s.freshIds? faults c = some ids ↔
      ∃ p, c.Demands p ∧ s.evaluate faults p = .ok ids ∧ faults.commit = none := by
  unfold freshIds?
  constructor
  · intro h
    split at h
    · rename_i p hread hcommit
      refine ⟨p, demands_iff.1 hread, ?_, hcommit⟩
      cases hscan : s.evaluate faults p with
      | error failure =>
        rw [hscan] at h
        cases h
      | ok evaluated =>
        rw [hscan] at h
        exact congrArg Except.ok (Option.some.inj h)
    · cases h
  · intro h
    obtain ⟨p, hp, hscan, hcommit⟩ := h
    rw [demands_iff.2 hp, hcommit]
    dsimp only
    rw [hscan]
    rfl

/-- What the sync of a collection writes depends on the table alone. -/
theorem freshIds?_of_table_eq (htable : t.table = s.table) :
    t.freshIds? faults c = s.freshIds? faults c := by
  ext ids
  simp only [freshIds?_eq_some]
  constructor
  · intro h
    obtain ⟨p, hp, hscan, hcommit⟩ := h
    exact ⟨p, hp, (evaluate_of_demands hp htable).symm.trans hscan, hcommit⟩
  · intro h
    obtain ⟨p, hp, hscan, hcommit⟩ := h
    exact ⟨p, hp, (evaluate_of_demands hp htable).trans hscan, hcommit⟩

theorem not_failsToSync_of_freshIds? (h : s.freshIds? faults c = some ids) :
    ¬s.FailsToSync faults c := by
  intro hfails
  obtain ⟨p, hp, hscan, hcommit⟩ := freshIds?_eq_some.1 h
  obtain ⟨q, hq, ⟨failure, hfailure⟩ | hcommit'⟩ := hfails
  · cases demands_unique hp hq
    cases hscan.symm.trans hfailure
  · exact hcommit' hcommit

/-- A collection that asks for products gets them unless its sync fails. -/
theorem exists_freshIds? (hp : c.Demands p) (h : ¬s.FailsToSync faults c) :
    ∃ ids, s.freshIds? faults c = some ids ∧ s.evaluate faults p = .ok ids := by
  have hcommit : faults.commit = none := by
    by_contra hcommit
    exact h ⟨p, hp, .inr hcommit⟩
  cases hscan : s.evaluate faults p with
  | error failure => exact absurd ⟨p, hp, .inl ⟨failure, hscan⟩⟩ h
  | ok ids => exact ⟨ids, freshIds?_eq_some.2 ⟨p, hp, hscan, hcommit⟩, rfl⟩

/-- The sync of a collection fails if the collection asks for products and nothing is written. -/
theorem failsToSync_iff :
    s.FailsToSync faults c ↔ ∃ p, syncPredicate? c = .ok (some p) ∧ s.freshIds? faults c = none := by
  constructor
  · intro h
    obtain ⟨p, hp, hfails⟩ := h
    refine ⟨p, demands_iff.2 hp, ?_⟩
    rw [Option.eq_none_iff_forall_ne_some]
    exact fun ids hids => not_failsToSync_of_freshIds? hids ⟨p, hp, hfails⟩
  · intro h
    obtain ⟨p, hread, hnone⟩ := h
    by_contra hfails
    obtain ⟨ids, hids, -⟩ := exists_freshIds? (demands_iff.1 hread) hfails
    cases hnone.symm.trans hids

instance (s : Store) (faults : Faults) (c : Collection) : Decidable (s.FailsToSync faults c) :=
  match h : syncPredicate? c with
  | .ok (some p) => decidable_of_iff (s.freshIds? faults c).isNone (by
      rw [failsToSync_iff, Option.isNone_iff_eq_none]
      exact ⟨fun hnone => ⟨p, h, hnone⟩, fun hfails => hfails.elim fun _ hp => hp.2⟩)
  | .ok none => .isFalse fun hfails => by
      obtain ⟨p, hp, -⟩ := failsToSync_iff.1 hfails
      cases h.symm.trans hp
  | .error failure => .isFalse fun hfails => by
      obtain ⟨p, hp, -⟩ := failsToSync_iff.1 hfails
      cases h.symm.trans hp

/-- What a sync writes does not depend on the faults, but for whether it fails. -/
theorem freshIds?_eq_of_faults (h : s.FailsToSync others c ↔ s.FailsToSync faults c) :
    s.freshIds? others c = s.freshIds? faults c := by
  have hsame : ∀ a b : Faults, (s.FailsToSync b c → s.FailsToSync a c) → ∀ ids,
      s.freshIds? a c = some ids → s.freshIds? b c = some ids := by
    intro a b hfails ids hids
    obtain ⟨p, hp, hscan, -⟩ := freshIds?_eq_some.1 hids
    obtain ⟨ids', hids', hscan'⟩ := exists_freshIds? hp
      fun hb => not_failsToSync_of_freshIds? hids (hfails hb)
    -- both scans succeed, so both give what a scan without faults gives
    have hfree : s.evaluate .none p = .ok ids := evaluate_of_scan_eq_none hscan rfl
    have hfree' : s.evaluate .none p = .ok ids' := evaluate_of_scan_eq_none hscan' rfl
    cases hfree.symm.trans hfree'
    exact hids'
  ext ids
  exact ⟨hsame others faults h.2 ids, hsame faults others h.1 ids⟩

/-- The store that a sync leaves has the members that the sync writes. -/
theorem sync_fst (s : Store) (faults : Faults) (c : Collection) :
    (s.sync faults c).1 = s.writing c.id (s.freshIds? faults c) := by
  have hcase := s.sync_cases faults c
  unfold freshIds?
  generalize s.sync faults c = result at hcase
  cases hcase with
  | unreadable failure hread => rw [hread]; rfl
  | idle hread => rw [hread]; rfl
  | unscanned p failure hread hscan =>
    rw [hread]
    cases hcommit : faults.commit with
    | none =>
      dsimp only
      rw [hscan]
      rfl
    | some _ => rfl
  | uncommitted p ids op cause hread hscan hcommit =>
    rw [hread]
    cases hfaults : faults.commit with
    | none => exact absurd hfaults hcommit
    | some _ => rfl
  | written p ids hread hscan hcommit =>
    rw [hread, hcommit]
    dsimp only
    rw [hscan]
    rfl

theorem table_sync (s : Store) (faults : Faults) (c : Collection) :
    (s.sync faults c).1.table = s.table := by
  rw [sync_fst, table_writing]

/-- A sync that can fail at the store only writes and counts, or is reported as failed, or has nothing
to do. -/
theorem sync_snd_cases (h : s.FailsOnlyAtStore faults c) :
    (∃ ids, s.freshIds? faults c = some ids ∧ (s.sync faults c).2 = .ok ids.length) ∨
    (s.freshIds? faults c = none ∧ s.FailsToSync faults c ∧
      ∃ cause, (s.sync faults c).2 = .error (.syncFailed [c.id] cause)) ∨
    (s.freshIds? faults c = none ∧ ¬s.FailsToSync faults c ∧ (s.sync faults c).2 = .ok 0) := by
  have hnone : s.FailsToSync faults c → s.freshIds? faults c = none := fun hfails =>
    (failsToSync_iff.1 hfails).elim fun _ hp => hp.2
  have hcase := s.sync_cases faults c
  generalize s.sync faults c = result at hcase
  cases hcase with
  | unreadable failure hread =>
    cases hsmart : c.isSmart with
    | false => cases (syncPredicate?_of_not_isSmart hsmart).symm.trans hread
    | true =>
      obtain ⟨p, warnings, hcompile⟩ := h.compiles hsmart
      exact absurd hcompile (compile_ne_ok_of_error hread)
  | idle hread =>
    refine .inr (.inr ⟨?_, ?_, rfl⟩)
    · unfold freshIds?
      rw [hread]
    · intro hfails
      obtain ⟨p, hp, -⟩ := hfails
      cases hread.symm.trans (demands_iff.2 hp)
  | unscanned p failure hread hscan =>
    have hfails : s.FailsToSync faults c := ⟨p, demands_iff.1 hread, .inl ⟨failure, hscan⟩⟩
    obtain ⟨op, cause, rfl⟩ := h.scan_fails p failure (demands_iff.1 hread) hscan
    exact .inr (.inl ⟨hnone hfails, hfails, .store op cause, rfl⟩)
  | uncommitted p ids op cause hread hscan hcommit =>
    have hfails : s.FailsToSync faults c := ⟨p, demands_iff.1 hread, .inr hcommit⟩
    exact .inr (.inl ⟨hnone hfails, hfails, .store op cause, rfl⟩)
  | written p ids hread hscan hcommit =>
    exact .inl ⟨ids, freshIds?_eq_some.2 ⟨p, demands_iff.1 hread, hscan, hcommit⟩, rfl⟩

/-! ## One collection after the other -/

/-- The store after collections were synced one after the other, each under its own faults. -/
def syncInTurn (faults : Int → Faults) (s : Store) (cs : List Collection) : Store :=
  cs.foldl (fun s c => (s.sync (faults c.id) c).1) s

section InTurn

variable {faults others : Int → Faults} {cs : List Collection}

theorem syncInTurn_cons :
    syncInTurn faults s (c :: cs) = syncInTurn faults (s.sync (faults c.id) c).1 cs := rfl

/-- An id that none of the collections has keeps its members. -/
theorem members?_syncInTurn_of_not_mem {key : Int} (h : key ∉ cs.map (·.id)) :
    (syncInTurn faults s cs).memberships.members? key = s.memberships.members? key := by
  induction cs generalizing s with
  | nil => rfl
  | cons c cs ih =>
    rw [List.map_cons, List.mem_cons, not_or] at h
    rw [syncInTurn_cons, ih h.2, sync_fst, members?_writing, if_neg h.1]

/-- A collection has the members that its own sync writes, or else those that it had. -/
theorem members?_syncInTurn_of_mem (hnodup : (cs.map (·.id)).Nodup) (hc : c ∈ cs) :
    (syncInTurn faults s cs).memberships.members? c.id =
      ((s.freshIds? (faults c.id) c).map fun ids => ids.map Member.ofId).or
        (s.memberships.members? c.id) := by
  induction cs generalizing s with
  | nil => cases hc
  | cons d cs ih =>
    obtain ⟨hd, hnodup⟩ := List.nodup_cons.1 hnodup
    rw [syncInTurn_cons]
    rcases List.mem_cons.1 hc with rfl | hc
    · rw [members?_syncInTurn_of_not_mem hd, sync_fst, members?_writing, if_pos rfl]
    · have hne : c.id ≠ d.id := fun hid => hd (List.mem_map.2 ⟨c, hc, hid⟩)
      rw [ih hnodup hc, freshIds?_of_table_eq (table_sync s (faults d.id) d), sync_fst,
        members?_writing, if_neg hne]

/-- The members do not depend on the order of the syncs, nor on the way in which some of them
fail. -/
theorem members?_syncInTurn_of_perm {ds : List Collection} (hperm : ds.Perm cs)
    (hnodup : (cs.map (·.id)).Nodup)
    (hfails : ∀ c ∈ cs, s.FailsToSync (others c.id) c ↔ s.FailsToSync (faults c.id) c) (key : Int) :
    (syncInTurn others s ds).memberships.members? key =
      (syncInTurn faults s cs).memberships.members? key := by
  by_cases hkey : key ∈ cs.map (·.id)
  · obtain ⟨c, hc, rfl⟩ := List.mem_map.1 hkey
    rw [members?_syncInTurn_of_mem hnodup hc,
      members?_syncInTurn_of_mem ((hperm.map _).nodup_iff.2 hnodup) (hperm.mem_iff.2 hc),
      freshIds?_eq_of_faults (hfails c hc)]
  · rw [members?_syncInTurn_of_not_mem hkey,
      members?_syncInTurn_of_not_mem fun hmem => hkey ((hperm.map _).mem_iff.1 hmem)]

/-- The number of members that the sync of a collection writes. -/
def freshCount (s : Store) (faults : Faults) (c : Collection) : Nat :=
  ((s.freshIds? faults c).getD []).length

/-- Collections that can fail at the store only are all attempted, one after the other. The members
that they write are counted, and those that fail are reported in the order of the run. -/
theorem exists_syncEach (h : ∀ c ∈ cs, s.FailsOnlyAtStore (faults c.id) c) :
    ∃ failed : List (Int × Failure),
      failed.map Prod.fst = (cs.filter fun c => s.FailsToSync (faults c.id) c).map (·.id) ∧
      syncEach faults s cs = (syncInTurn faults s cs,
        .ok ((cs.map fun c => s.freshCount (faults c.id) c).sum, failed)) := by
  induction cs generalizing s with
  | nil => exact ⟨[], rfl, rfl⟩
  | cons c cs ih =>
    have htable := table_sync s (faults c.id) c
    obtain ⟨failed, hids, hrest⟩ :=
      ih fun d hd => (h d (List.mem_cons_of_mem c hd)).of_table_eq htable
    -- what the others do is the same from the store that this sync leaves
    simp only [freshIds?_of_table_eq htable, failsToSync_of_table_eq htable, freshCount]
      at hids hrest
    have hsplit : s.sync (faults c.id) c = ((s.sync (faults c.id) c).1, (s.sync (faults c.id) c).2) :=
      rfl
    rw [List.filter_cons, List.map_cons, List.sum_cons, syncInTurn_cons, syncEach, hsplit]
    rcases sync_snd_cases (h c List.mem_cons_self) with ⟨ids, hfresh, hsync⟩ |
      ⟨hfresh, hfails, cause, hsync⟩ | ⟨hfresh, hfails, hsync⟩
    · refine ⟨failed, ?_, ?_⟩
      · rw [if_neg (by simpa using not_failsToSync_of_freshIds? hfresh), hids]
      · simp only [hsync, hrest, freshCount, hfresh]
        rfl
    · refine ⟨(c.id, .syncFailed [c.id] cause) :: failed, ?_, ?_⟩
      · rw [if_pos (by simpa using hfails), List.map_cons, List.map_cons, hids]
      · simp only [hsync, hrest, freshCount, hfresh]
        rw [Option.getD_none, List.length_nil, Nat.zero_add]
        rfl
    · refine ⟨failed, ?_, ?_⟩
      · rw [if_neg (by simpa using hfails), hids]
      · simp only [hsync, hrest, freshCount, hfresh]
        rfl

/-! ## All collections -/

theorem mem_listCollections_true :
    c ∈ s.listCollections true ↔ c ∈ s.collections ∧ c.isSmart = true := by
  unfold listCollections
  rw [if_pos rfl, List.mem_filter, mem_sortBy]

/-- The collections are listed in strictly ascending order of their ids. -/
theorem pairwise_listCollections (s : Store) (smartOnly : Bool) :
    ((s.listCollections smartOnly).map (·.id)).Pairwise (· < ·) := by
  have hsorted := List.pairwise_map.2 (pairwise_sortBy_key s.distinctIds)
  unfold listCollections
  dsimp only
  split
  · exact hsorted.sublist (List.filter_sublist.map _)
  · exact hsorted

theorem nodup_listCollections (s : Store) (smartOnly : Bool) :
    ((s.listCollections smartOnly).map (·.id)).Nodup :=
  (s.pairwise_listCollections smartOnly).imp fun h => Int.ne_of_lt h

end InTurn

/-- What a sync of all collections leaves and gives. -/
structure SyncedAll (s : Store) (faults : Int → Faults) (result : Store × Except Failure Nat) :
    Prop where
  /-- A smart collection with a rule that can be read has the members of its rule, if it did not
  fail. -/
  evaluated : ∀ c ∈ s.collections, c.isSmart = true → c.HasRule →
    ¬s.FailsToSync (faults c.id) c → s.IsEvaluated c (result.1.memberIds? c.id)
  /-- Every other id has the members that it had: those of collections that failed, whose rule is
  turned down or that are manual, and those of no collection. -/
  kept : ∀ key, (∀ c ∈ s.collections, c.id = key →
      c.isSmart = false ∨ c.RejectsRule ∨ s.FailsToSync (faults c.id) c) →
    result.1.memberships.members? key = s.memberships.members? key
  /-- If collections failed, they are reported together, each once and in ascending order. -/
  reported : (∃ c ∈ s.collections, s.FailsToSync (faults c.id) c) →
    ∃ ids cause, result.2 = .error (.syncFailed ids cause) ∧ ids.Pairwise (· < ·) ∧
      ∀ id, id ∈ ids ↔ ∃ c ∈ s.collections, c.id = id ∧ s.FailsToSync (faults c.id) c
  /-- If none failed, the members of the collections that were written are counted together. -/
  counted : (∀ c ∈ s.collections, ¬s.FailsToSync (faults c.id) c) →
    ∃ written : List Collection, written.Nodup ∧
      (∀ c, c ∈ written ↔ c ∈ s.collections ∧ c.isSmart = true ∧ c.HasRule) ∧
      result.2 = .ok (written.map fun c => (result.1.memberIds c.id).length).sum
  /-- Syncing the same collections in any other order leaves the same members, if the same ones
  fail. -/
  inAnyOrder : ∀ (cs : List Collection) (others : Int → Faults), cs.Perm (s.listCollections true) →
    (∀ c ∈ cs, s.FailsToSync (others c.id) c ↔ s.FailsToSync (faults c.id) c) →
    ∀ key, (syncInTurn others s cs).memberships.members? key = result.1.memberships.members? key

section All

variable {faults : Int → Faults}

theorem freshIds?_eq_none {faults : Faults}
    (h : c.isSmart = false ∨ c.RejectsRule ∨ s.FailsToSync faults c) :
    s.freshIds? faults c = none := by
  rw [Option.eq_none_iff_forall_ne_some]
  intro ids hids
  obtain ⟨p, hp, -⟩ := freshIds?_eq_some.1 hids
  rcases h with hmanual | hrejects | hfails
  · cases hmanual.symm.trans hp.isSmart
  · exact Collection.not_rejectsRule hp.hasRule hrejects
  · exact not_failsToSync_of_freshIds? hids hfails

/-- Elements that count nothing can be left out of a sum. -/
theorem sum_map_filter {α : Type} {keep : α → Bool} {count : α → Nat} {xs : List α}
    (h : ∀ x ∈ xs, keep x = false → count x = 0) :
    ((xs.filter keep).map count).sum = (xs.map count).sum := by
  induction xs with
  | nil => rfl
  | cons x xs ih =>
    have hxs := ih fun y hy => h y (List.mem_cons_of_mem x hy)
    rw [List.filter_cons, List.map_cons, List.sum_cons]
    cases hx : keep x with
    | true => rw [if_pos rfl, List.map_cons, List.sum_cons, hxs]
    | false => rw [if_neg Bool.false_ne_true, hxs, h x List.mem_cons_self hx, Nat.zero_add]

/-- The ids of the collections whose sync fails, in the order of the run. -/
def failingIds (s : Store) (faults : Int → Faults) : List Int :=
  ((s.listCollections true).filter fun c => s.FailsToSync (faults c.id) c).map (·.id)

theorem pairwise_failingIds (s : Store) (faults : Int → Faults) :
    (s.failingIds faults).Pairwise (· < ·) :=
  (s.pairwise_listCollections true).sublist (List.filter_sublist.map _)

theorem mem_failingIds {id : Int} :
    id ∈ s.failingIds faults ↔ ∃ c ∈ s.collections, c.id = id ∧ s.FailsToSync (faults c.id) c := by
  unfold failingIds
  rw [List.mem_map]
  constructor
  · intro h
    obtain ⟨c, hc, rfl⟩ := h
    obtain ⟨hlisted, hfails⟩ := List.mem_filter.1 hc
    exact ⟨c, (mem_listCollections_true.1 hlisted).1, rfl, of_decide_eq_true hfails⟩
  · intro h
    obtain ⟨c, hc, rfl, p, hp, hfails⟩ := h
    have hlisted : c ∈ s.listCollections true := mem_listCollections_true.2 ⟨hc, hp.isSmart⟩
    exact ⟨c, List.mem_filter.2 ⟨hlisted, decide_eq_true ⟨p, hp, hfails⟩⟩, rfl⟩

/-- The collections that a sync of all of them writes. -/
def freshCollections (s : Store) (faults : Int → Faults) : List Collection :=
  (s.listCollections true).filter fun c => (s.freshIds? (faults c.id) c).isSome

theorem nodup_freshCollections (s : Store) (faults : Int → Faults) :
    (s.freshCollections faults).Nodup :=
  (List.Nodup.of_map _ (s.nodup_listCollections true)).sublist List.filter_sublist

/-- After the syncs, the members of the collections that were written are those counted. -/
theorem sum_freshCount (s : Store) (faults : Int → Faults) :
    ((s.listCollections true).map fun c => s.freshCount (faults c.id) c).sum =
      ((s.freshCollections faults).map fun c =>
        ((syncInTurn faults s (s.listCollections true)).memberIds c.id).length).sum := by
  have hcount : ∀ c ∈ s.listCollections true, (s.freshIds? (faults c.id) c).isSome = false →
      s.freshCount (faults c.id) c = 0 := by
    intro c _ hsome
    have hnone : s.freshIds? (faults c.id) c = none := by simpa using hsome
    unfold freshCount
    rw [hnone]
    rfl
  rw [← sum_map_filter hcount]
  congr 1
  refine List.map_congr_left fun c hc => ?_
  obtain ⟨hlisted, hfresh⟩ := List.mem_filter.1 hc
  obtain ⟨ids, hids⟩ := Option.isSome_iff_exists.1 hfresh
  unfold freshCount memberIds memberIds?
  rw [members?_syncInTurn_of_mem (s.nodup_listCollections true) hlisted, hids]
  simp

section Stores

variable (h : ∀ c ∈ s.collections, s.FailsOnlyAtStore (faults c.id) c)

include h

theorem isEvaluated_syncInTurn (hc : c ∈ s.collections) (hsmart : c.isSmart = true)
    (hrule : c.HasRule) (hfails : ¬s.FailsToSync (faults c.id) c) :
    s.IsEvaluated c ((syncInTurn faults s (s.listCollections true)).memberIds? c.id) := by
  obtain ⟨p, warnings, hcompile⟩ := (h c hc).compiles hsmart
  obtain ⟨ids, hfresh, hscan⟩ := exists_freshIds? ⟨hsmart, hrule, warnings, hcompile⟩ hfails
  have hlisted : c ∈ s.listCollections true := mem_listCollections_true.2 ⟨hc, hsmart⟩
  refine ⟨p, warnings, ids, hcompile, evaluate_of_scan_eq_none hscan rfl, ?_⟩
  unfold memberIds?
  rw [members?_syncInTurn_of_mem (s.nodup_listCollections true) hlisted, hfresh]
  simp [Member.ofId, Function.comp_def]

/-- Where none fails, the collections that are written are the smart ones with a rule that can be
read. -/
theorem mem_freshCollections (hfails : ∀ c ∈ s.collections, ¬s.FailsToSync (faults c.id) c) :
    c ∈ s.freshCollections faults ↔ c ∈ s.collections ∧ c.isSmart = true ∧ c.HasRule := by
  unfold freshCollections
  rw [List.mem_filter, mem_listCollections_true]
  constructor
  · intro hc
    obtain ⟨ids, hids⟩ := Option.isSome_iff_exists.1 hc.2
    obtain ⟨p, hp, -⟩ := freshIds?_eq_some.1 hids
    exact ⟨hc.1.1, hp.isSmart, hp.hasRule⟩
  · intro hc
    obtain ⟨hmem, hsmart, hrule⟩ := hc
    obtain ⟨p, warnings, hcompile⟩ := (h c hmem).compiles hsmart
    obtain ⟨ids, hfresh, -⟩ := exists_freshIds? ⟨hsmart, hrule, warnings, hcompile⟩ (hfails c hmem)
    exact ⟨⟨hmem, hsmart⟩, Option.isSome_iff_exists.2 ⟨ids, hfresh⟩⟩

/-- A sync of all collections syncs them in turn. It reports the collections that failed, or gives
the number of members written. -/
theorem syncAll_cases :
    (s.syncAll faults).1 = syncInTurn faults s (s.listCollections true) ∧
    ((s.failingIds faults ≠ [] ∧
        ∃ cause, (s.syncAll faults).2 = .error (.syncFailed (s.failingIds faults) cause)) ∨
      (s.failingIds faults = [] ∧ (s.syncAll faults).2 =
        .ok ((s.listCollections true).map fun c => s.freshCount (faults c.id) c).sum)) := by
  have hlisted : ∀ c ∈ s.listCollections true, s.FailsOnlyAtStore (faults c.id) c :=
    fun c hc => h c (mem_listCollections_true.1 hc).1
  obtain ⟨failed, hids, hrun⟩ := exists_syncEach hlisted
  have hfailing : failed.map Prod.fst = s.failingIds faults := hids
  unfold syncAll
  rw [hrun]
  dsimp only
  cases hlast : failed.getLast? with
  | none =>
    have hnil : s.failingIds faults = [] := by
      rw [← hfailing, List.getLast?_eq_none_iff.1 hlast]
      rfl
    exact ⟨rfl, .inr ⟨hnil, rfl⟩⟩
  | some last =>
    have hne : s.failingIds faults ≠ [] := by
      rw [← hfailing]
      intro hnil
      rw [List.map_eq_nil_iff.1 hnil] at hlast
      cases hlast
    refine ⟨rfl, .inl ⟨hne, last.2, ?_⟩⟩
    rw [← hfailing]

end Stores

/-- A collection that is not written keeps its members, and so does an id that no collection has. -/
theorem members?_syncInTurn_of_kept {key : Int} (h : ∀ c ∈ s.collections, c.id = key →
      c.isSmart = false ∨ c.RejectsRule ∨ s.FailsToSync (faults c.id) c) :
    (syncInTurn faults s (s.listCollections true)).memberships.members? key =
      s.memberships.members? key := by
  by_cases hlisted : key ∈ (s.listCollections true).map (·.id)
  · obtain ⟨c, hc, rfl⟩ := List.mem_map.1 hlisted
    have hnone := freshIds?_eq_none (h c (mem_listCollections_true.1 hc).1 rfl)
    rw [members?_syncInTurn_of_mem (s.nodup_listCollections true) hc, hnone]
    rfl
  · exact members?_syncInTurn_of_not_mem hlisted

/-- A sync of all collections, beneath which nothing but the store fails, attempts every collection:
those that do not fail have the members of their rules, all others keep theirs, the failing ones are
reported together, and the order makes no difference. -/
theorem syncAll_outcome (h : ∀ c ∈ s.collections, s.FailsOnlyAtStore (faults c.id) c) :
    SyncedAll s faults (s.syncAll faults) := by
  obtain ⟨hstore, hresult⟩ := syncAll_cases h
  refine ⟨?_, ?_, ?_, ?_, ?_⟩
  · intro c hc hsmart hrule hfails
    rw [hstore]
    exact isEvaluated_syncInTurn h hc hsmart hrule hfails
  · intro key hkey
    rw [hstore]
    exact members?_syncInTurn_of_kept hkey
  · intro hfails
    obtain ⟨c, hc, hcfails⟩ := hfails
    have hid : c.id ∈ s.failingIds faults := mem_failingIds.2 ⟨c, hc, rfl, hcfails⟩
    rcases hresult with ⟨-, cause, hreported⟩ | ⟨hnil, -⟩
    · exact ⟨_, cause, hreported, s.pairwise_failingIds faults, fun id => mem_failingIds⟩
    · rw [hnil] at hid
      cases hid
  · intro hfails
    rcases hresult with ⟨hne, -⟩ | ⟨-, hcounted⟩
    · obtain ⟨id, hid⟩ := List.exists_mem_of_ne_nil _ hne
      obtain ⟨c, hc, -, hcfails⟩ := mem_failingIds.1 hid
      exact absurd hcfails (hfails c hc)
    · refine ⟨s.freshCollections faults, s.nodup_freshCollections faults,
        fun c => mem_freshCollections h hfails, ?_⟩
      rw [hcounted, hstore, sum_freshCount]
  · intro cs others hperm hfails key
    rw [hstore]
    exact members?_syncInTurn_of_perm hperm (s.nodup_listCollections true)
      (fun c hc => hfails c (hperm.mem_iff.2 hc)) key

end All

/-- Where every row reads back as a product and a scan fails only as a failure of the store, a sync can
fail nowhere but at the store. -/
theorem failsOnlyAtStore_of_readable
    (hcompile : c.isSmart = true → ∃ p warnings, Rule.compile c.ruleValue = .ok (p, warnings))
    (hscan : ∀ p failure, faults.scan p = some failure → ∃ op cause, failure = .store op cause)
    (hread : ∀ row ∈ s.table.rows, ∃ product, row.toProduct = .ok product) :
    s.FailsOnlyAtStore faults c where
  compiles := hcompile
  scan_fails p failure hp hfails := by
    obtain ⟨warnings, hcompiled⟩ := hp.compiled
    cases hfaults : faults.scan p with
    | none =>
      obtain ⟨ids, hids⟩ := exists_evaluate (Rule.check_compile hcompiled) hfaults
        fun row hrow => hread row (List.mem_filter.1 hrow).1
      cases hids.symm.trans hfails
    | some _ =>
      have hne : p ≠ .matchNone := by
        intro hp
        subst hp
        cases hfails
      rw [evaluate_of_ne_matchNone hne] at hfails
      unfold query at hfails
      rw [hfaults] at hfails
      cases hfails
      exact hscan p _ hfaults

/-- A shop whose collections are smart with a rule, smart without one, and manual. -/
def acmeShop : Store :=
  .ofParts Table.acme
    [{ id := 20, isSmart := true, rule := some (.object [("type", .text "in_stock")]) },
      { id := 10, isSmart := true,
        rule := some (.object [("type", .text "vendor"), ("value", .text "Acme")]) },
      { id := 30, isSmart := true }, { id := 40 }]
    (Memberships.empty.replace 10 [.ofId 3])

/-- The members of one collection cannot be written. -/
def acmeOutage (collection : Int) : Faults where
  scan _ := none
  commit := if collection = 10 then some (.outside "RuntimeError" "disk full") else none

/-- The collection that fails keeps its members, and the one after it is written all the same. -/
theorem syncAll_outcome_acme :
    (∀ c ∈ acmeShop.collections, acmeShop.FailsOnlyAtStore (acmeOutage c.id) c) ∧
      SyncedAll acmeShop acmeOutage (acmeShop.syncAll acmeOutage) ∧
      (acmeShop.syncAll acmeOutage).1.memberIds? 10 = some [3] ∧
      (acmeShop.syncAll acmeOutage).1.memberIds? 20 = some [1, 2] := by
  have hstore : ∀ c ∈ acmeShop.collections, acmeShop.FailsOnlyAtStore (acmeOutage c.id) c := by
    intro c hc
    refine failsOnlyAtStore_of_readable (fun _ => ?_) (fun _ _ hscan => by cases hscan)
      (fun row hrow => Table.exists_product_acme hrow)
    have hlisted : c ∈ ([_, _, _, _] : List Collection) := hc
    simp only [List.mem_cons, List.not_mem_nil, or_false] at hlisted
    rcases hlisted with rfl | rfl | rfl | rfl
    · refine ⟨.inStock, [], Rule.compile_eq_ok.2 ⟨.leaf ⟨"in_stock", none, none, none⟩, ?_, rfl, rfl⟩⟩
      rw [Entry.read_eq]
      rfl
    · refine ⟨.fieldEquals "vendor" (.text "Acme"), [],
        Rule.compile_eq_ok.2 ⟨.leaf ⟨"vendor", some "Acme", none, none⟩, ?_, rfl, rfl⟩⟩
      rw [Entry.read_eq]
      rfl
    · refine ⟨.matchNone, [], Rule.compile_eq_ok.2 ⟨.blank, ?_, rfl, rfl⟩⟩
      rw [Entry.read_eq]
      rfl
    · refine ⟨.matchNone, [], Rule.compile_eq_ok.2 ⟨.blank, ?_, rfl, rfl⟩⟩
      rw [Entry.read_eq]
      rfl
  refine ⟨hstore, syncAll_outcome hstore, ?_, ?_⟩
  · decide +kernel
  · decide +kernel

end Store

end Storefront
