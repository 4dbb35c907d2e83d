import Mathlib.Data.List.Nodup
import Storefront.Engine
import Storefront.Proofs.Restoring
import Storefront.Proofs.Syncing

/-!
# Runs of the engine

A run performs operations one after the other, any of which may fail in its scans and commits. What
one operation does to the members of a collection is a matter of three cases, and the cases carry
over to runs: the members stay, or become those of the rule of a smart collection, or are the same
ones in another order.

* `Operation`, `Store.perform`, `Store.run`: operations and runs
* `Store.Follows`: what an operation can change
* `Store.follows_perform`, `Store.follows_run`: an operation, and a run, change nothing else
* `Store.run_memberships`: what becomes of the members in a run
-/

namespace Storefront

/-! ## Operations -/

/-- An operation of the engine, with what fails beneath it. -/
inductive Operation where
  | sync (id : Int) (faults : Faults)
  | syncAll (faults : Int → Faults)
  | reorder (id : Int) (productIds : List Int) (faults : Faults)
  | page (id : Int) (page limit : Value)
  | statistics (id : Int)
  | ruleOptions
  | related (id : Int) (limit options : Value) (faults : Faults)
  | suggested (limit : Value) (plan : Plan) (faults : Faults)
  /-- A snapshot is saved and loaded. -/
  | reload

/-- The operation syncs all smart collections. -/
def Operation.isSyncAll : Operation → Bool
  | .syncAll _ => true
  | _ => false

namespace Store

variable {s s' : Store} {c : Collection}

/-- Performs an operation: the store that it leaves, and whether it fails. -/
def perform (s : Store) : Operation → Store × Except Failure Unit
  | .sync id faults =>
    let (s, outcome) := s.syncById faults (.int id)
    (s, outcome.map fun _ => ())
  | .syncAll faults =>
    let (s, outcome) := s.syncAll faults
    (s, outcome.map fun _ => ())
  | .reorder id productIds faults =>
    let (s, outcome) := s.reorder faults (.int id) (.list (productIds.map .int))
    (s, outcome.map fun _ => ())
  | .page id page limit => (s, (s.page (.int id) page limit).map fun _ => ())
  | .statistics id => (s, (s.statistics (.int id)).map fun _ => ())
  | .ruleOptions => (s, s.ruleOptions.map fun _ => ())
  | .related id limit options faults =>
    (s, (s.related faults (.int id) limit options).map fun _ => ())
  | .suggested limit plan faults => (s, (s.suggested faults limit plan).map fun _ => ())
  | .reload => match s.restored with
    | .ok restored => (restored, .ok ())
    | .error failure => (s, .error failure)

/-- The store after a list of operations. -/
def run (s : Store) (ops : List Operation) : Store := ops.foldl (fun s op => (s.perform op).1) s

/-! ## What can change -/

/-- The ids of the members of a collection. -/
def memberIds (s : Store) (collection : Int) : List Int := (s.memberIds? collection).getD []

/-- Ids are those to which the rule of a collection evaluates. -/
def IsEvaluated (s : Store) (c : Collection) (ids : Option (List Int)) : Prop :=
  ∃ p warnings evaluated, Rule.compile c.ruleValue = .ok (p, warnings) ∧
    s.evaluate .none p = .ok evaluated ∧ ids = some evaluated

/-- A store comes from another one by operations: the table and the collections are the same, and
the members of each collection are as before, or those of a smart collection's rule, or those of a
manual collection in another order. -/
structure Follows (s s' : Store) : Prop where
  table_eq : s'.table = s.table
  collections_perm : s'.collections.Perm s.collections
  members : ∀ key, s'.memberIds? key = s.memberIds? key ∨
    (∃ c ∈ s.collections, c.id = key ∧ c.isSmart = true ∧ s.IsEvaluated c (s'.memberIds? key)) ∨
    (∃ c ∈ s.collections, c.id = key ∧ c.isSmart = false ∧
      ∀ id, id ∈ s'.memberIds key ↔ id ∈ s.memberIds key)

theorem memberIds_eq {key : Int} (h : s'.memberIds? key = s.memberIds? key) :
    s'.memberIds key = s.memberIds key := by
  unfold memberIds
  rw [h]

theorem isEvaluated_of_table_eq {ids : Option (List Int)} (htable : s'.table = s.table)
    (h : s'.IsEvaluated c ids) : s.IsEvaluated c ids := by
  obtain ⟨p, warnings, evaluated, hcompile, hevaluate, hids⟩ := h
  rw [evaluate_eq_of_table_eq hcompile htable] at hevaluate
  exact ⟨p, warnings, evaluated, hcompile, hevaluate, hids⟩

/-- Two collections of a store with one id are one collection. -/
theorem collection_eq_of_id_eq {d : Collection} (hc : c ∈ s.collections) (hd : d ∈ s.collections)
    (h : c.id = d.id) : c = d :=
  List.inj_on_of_nodup_map s.distinctIds hc hd h

theorem Follows.refl (s : Store) : Follows s s where
  table_eq := rfl
  collections_perm := .refl _
  members _ := .inl rfl

theorem Follows.trans {s'' : Store} (h : Follows s s') (h' : Follows s' s'') : Follows s s'' where
  table_eq := h'.table_eq.trans h.table_eq
  collections_perm := h'.collections_perm.trans h.collections_perm
  members := by
    intro key
    rcases h'.members key with hsame | ⟨c, hc, hid, hsmart, hevaluated⟩ | ⟨c, hc, hid, hmanual, hset⟩
    · rcases h.members key with hfirst | ⟨c, hc, hid, hsmart, hevaluated⟩ |
        ⟨c, hc, hid, hmanual, hset⟩
      · exact .inl (hsame.trans hfirst)
      · rw [← hsame] at hevaluated
        exact .inr (.inl ⟨c, hc, hid, hsmart, hevaluated⟩)
      · rw [← memberIds_eq hsame] at hset
        exact .inr (.inr ⟨c, hc, hid, hmanual, hset⟩)
    · exact .inr (.inl ⟨c, h.collections_perm.mem_iff.1 hc, hid, hsmart,
        isEvaluated_of_table_eq h.table_eq hevaluated⟩)
    · have hmem : c ∈ s.collections := h.collections_perm.mem_iff.1 hc
      rcases h.members key with hfirst | ⟨d, hd, hid', hsmart, -⟩ | ⟨d, hd, hid', -, hset'⟩
      · rw [memberIds_eq hfirst] at hset
        exact .inr (.inr ⟨c, hmem, hid, hmanual, hset⟩)
      · -- one collection cannot be smart and manual
        cases collection_eq_of_id_eq hmem hd (hid.trans hid'.symm)
        cases hsmart.symm.trans hmanual
      · exact .inr (.inr ⟨c, hmem, hid, hmanual, fun id => (hset id).trans (hset' id)⟩)

/-- Members that come from the rule of a smart collection still do after further operations. -/
theorem Follows.isEvaluated_after {s'' : Store} (h : Follows s s') (h' : Follows s' s'')
    (hc : c ∈ s.collections) (hsmart : c.isSmart = true)
    (hevaluated : s.IsEvaluated c (s'.memberIds? c.id)) : s.IsEvaluated c (s''.memberIds? c.id) := by
  rcases h'.members c.id with hsame | ⟨d, hd, hid, -, hd'⟩ | ⟨d, hd, hid, hmanual, -⟩
  · rw [hsame]
    exact hevaluated
  · cases collection_eq_of_id_eq (h.collections_perm.mem_iff.1 hd) hc hid
    exact isEvaluated_of_table_eq h.table_eq hd'
  · cases collection_eq_of_id_eq (h.collections_perm.mem_iff.1 hd) hc hid
    cases hsmart.symm.trans hmanual

/-! ## Syncs -/

/-- A write to a smart collection that gives it the members of its rule is a step. -/
theorem follows_sync (hc : c ∈ s.collections) (faults : Faults) : Follows s (s.sync faults c).1 := by
  have hcase := s.sync_cases faults c
  generalize s.sync faults c = result at hcase
  cases hcase with
  | unreadable | idle | unscanned | uncommitted => exact .refl s
  | written p ids hread hscan hcommit =>
    refine ⟨rfl, .refl _, fun key => ?_⟩
    obtain ⟨hsmart, -, warnings, hcompile⟩ := syncPredicate?_eq_some.1 hread
    unfold memberIds?
    rw [Memberships.members?_replace]
    by_cases hkey : key = c.id
    · refine .inr (.inl ⟨c, hc, hkey.symm, hsmart, p, warnings, ids, hcompile,
        evaluate_of_scan_eq_none hscan rfl, ?_⟩)
      rw [if_pos hkey]
      simp [Member.ofId, Function.comp_def]
    · rw [if_neg hkey]
      exact .inl rfl

/-- A sync that succeeds leaves a collection with a rule with the members of the rule. -/
theorem isEvaluated_sync {faults : Faults} {n : Nat} (hsmart : c.isSmart = true) (hrule : c.HasRule)
    (h : (s.sync faults c).2 = .ok n) : s.IsEvaluated c ((s.sync faults c).1.memberIds? c.id) := by
  rcases s.skipped_or_written_or_failed faults c with hskipped | ⟨ids, hwritten⟩ | hfailed
  · rcases hskipped.cause with hmanual | hrejects
    · cases hmanual.symm.trans hsmart
    · exact absurd hrejects (Collection.not_rejectsRule hrule)
  · obtain ⟨p, warnings, hcompile, hscan⟩ := hwritten.evaluated
    refine ⟨p, warnings, ids, hcompile, evaluate_of_scan_eq_none hscan rfl, ?_⟩
    unfold memberIds?
    rw [hwritten.members_eq]
    simp [Member.ofId, Function.comp_def]
  · obtain ⟨failure, hfailure⟩ := hfailed.fails
    cases h.symm.trans hfailure

/-- The store after some collections were synced, whether or not the rest of them is. -/
theorem syncEach_cons (faults : Int → Faults) (s : Store) (c : Collection) (rest : List Collection) :
    (syncEach faults s (c :: rest)).1 = (s.sync (faults c.id) c).1 ∨
      (syncEach faults s (c :: rest)).1 = (syncEach faults (s.sync (faults c.id) c).1 rest).1 := by
  rw [syncEach]
  split
  · rename_i after count hsync
    rw [hsync]
    exact .inr rfl
  · rename_i after ids cause hsync
    rw [hsync]
    exact .inr rfl
  · rename_i after failure _ hsync
    rw [hsync]
    exact .inl rfl

theorem syncEach_cons_of_ok {faults : Int → Faults} {n : Nat}
    (h : (s.sync (faults c.id) c).2 = .ok n) (rest : List Collection) :
    (syncEach faults s (c :: rest)).1 = (syncEach faults (s.sync (faults c.id) c).1 rest).1 := by
  have hsync : s.sync (faults c.id) c = ((s.sync (faults c.id) c).1, .ok n) := Prod.ext rfl h
  rw [syncEach, hsync]

theorem follows_syncEach (faults : Int → Faults) {cs : List Collection}
    (h : ∀ c ∈ cs, c ∈ s.collections) : Follows s (syncEach faults s cs).1 := by
  induction cs generalizing s with
  | nil => exact .refl s
  | cons c rest ih =>
    have hfirst : Follows s (s.sync (faults c.id) c).1 := follows_sync (h c List.mem_cons_self) _
    rcases syncEach_cons faults s c rest with hsync | hsync
    · rw [hsync]
      exact hfirst
    · rw [hsync]
      refine hfirst.trans (ih fun d hd => ?_)
      exact hfirst.collections_perm.mem_iff.2 (h d (List.mem_cons_of_mem c hd))

theorem mem_listCollections {smartOnly : Bool} (h : c ∈ s.listCollections smartOnly) :
    c ∈ s.collections := by
  unfold listCollections at h
  dsimp only at h
  split at h
  · exact mem_sortBy.1 (List.mem_of_mem_filter h)
  · exact mem_sortBy.1 h

theorem syncAll_fst (s : Store) (faults : Int → Faults) :
    (s.syncAll faults).1 = (syncEach faults s (s.listCollections true)).1 := by
  unfold syncAll
  split
  rename_i after outcome hsync
  rw [hsync]
  dsimp only
  split
  · rfl
  · split <;> rfl

/-! ## Reordering -/

theorem memberIds_eq_map (s : Store) (key : Int) :
    s.memberIds key = (s.memberships.members key).map (·.id) := by
  unfold memberIds memberIds? Memberships.members
  cases s.memberships.members? key <;> rfl

/-- Moving members to the front leaves the same members. -/
theorem mem_ids_moveToFront {current : List Member} {ids : List Value} {id : Int} :
    id ∈ (moveToFront current ids).map (·.id) ↔ id ∈ current.map (·.id) := by
  rw [moveToFront_eq, mem_keys_firstsBy, List.map_append, List.mem_append]
  constructor
  · intro h
    rcases h with h | h
    · obtain ⟨m, hm, rfl⟩ := List.mem_map.1 h
      obtain ⟨value, -, hnamed⟩ := List.mem_filterMap.1 hm
      obtain ⟨found, hfound, rfl⟩ := Option.map_eq_some_iff.1 hnamed
      exact List.mem_map.2 ⟨found, List.mem_of_find?_eq_some hfound, rfl⟩
    · exact h
  · exact .inr

/-! ## Steps -/

/-- The collection with an id is the one that has it. -/
theorem findCollection?_eq_some {id : Int} :
    s.findCollection? id = some c ↔ c ∈ s.collections ∧ c.id = id := by
  constructor
  · intro h
    exact ⟨List.mem_of_find?_eq_some h, of_decide_eq_true (List.find?_some h :)⟩
  · intro h
    obtain ⟨hc, rfl⟩ := h
    cases hfind : s.findCollection? c.id with
    | none => exact absurd (decide_eq_true rfl) (List.find?_eq_none.1 hfind c hc)
    | some d =>
      have hid : d.id = c.id := of_decide_eq_true (List.find?_some hfind :)
      rw [collection_eq_of_id_eq (List.mem_of_find?_eq_some hfind) hc hid]

theorem requireCollection_int {id : Int} (h : s.requireCollection (.int id) = .ok c) :
    c ∈ s.collections ∧ c.id = id := by
  obtain ⟨found, hfound, h⟩ := bind_eq_ok.1 h
  have hfind : s.findCollection? id = found := Except.ok.inj hfound
  cases found with
  | none => cases h
  | some d =>
    cases h
    exact findCollection?_eq_some.1 hfind

theorem syncById_int (s : Store) (faults : Faults) (id : Int) :
    (∃ failure, s.syncById faults (.int id) = (s, .error failure)) ∨
      ∃ c ∈ s.collections, c.id = id ∧ s.syncById faults (.int id) = s.sync faults c := by
  unfold syncById
  cases hc : s.requireCollection (.int id) with
  | error failure => exact .inl ⟨failure, rfl⟩
  | ok c =>
    obtain ⟨hmem, hid⟩ := requireCollection_int hc
    exact .inr ⟨c, hmem, hid, rfl⟩

/-- A reordering leaves the store alone, or gives a manual collection its members in another
order. -/
theorem reorder_int (s : Store) (faults : Faults) (id : Int) (productIds : List Int) :
    ((s.reorder faults (.int id) (.list (productIds.map .int))).1 = s) ∨
      ∃ c ∈ s.collections, c.id = id ∧ c.isSmart = false ∧
        s.reorder faults (.int id) (.list (productIds.map .int)) =
          ({ s with
            memberships := s.memberships.replace id
              (moveToFront (s.memberships.members id) (productIds.map .int)) }, .ok true) := by
  unfold reorder
  cases hc : s.requireCollection (.int id) with
  | error failure => exact .inl rfl
  | ok c =>
    obtain ⟨hmem, rfl⟩ := requireCollection_int hc
    dsimp only
    cases hsmart : c.isSmart with
    | true => exact .inl rfl
    | false =>
      have hsearchable : (productIds.map Value.int).all isSearchable = true := by
        rw [List.all_map, List.all_eq_true]
        exact fun _ _ => rfl
      have hitems : itemsOfValue (.list (productIds.map .int)) = .ok (productIds.map .int) := rfl
      rw [if_neg Bool.false_ne_true, hitems]
      dsimp only
      unfold reorderMembers
      rw [if_pos hsearchable]
      rcases s.publish_cases faults "reorder_collection_membership" (s.memberships.replace c.id
          (moveToFront (s.memberships.members c.id) (productIds.map .int))) with
        ⟨-, hpublish⟩ | ⟨-, op, cause, hpublish⟩
      · rw [hpublish]
        exact .inr ⟨c, hmem, rfl, hsmart, rfl⟩
      · rw [hpublish]
        exact .inl rfl

theorem follows_reorder (s : Store) (faults : Faults) (id : Int) (productIds : List Int) :
    Follows s (s.reorder faults (.int id) (.list (productIds.map .int))).1 := by
  rcases s.reorder_int faults id productIds with hsame | ⟨c, hc, hid, hmanual, hreorder⟩
  · rw [hsame]
    exact .refl s
  · rw [hreorder]
    refine ⟨rfl, .refl _, fun key => ?_⟩
    by_cases hkey : key = id
    · refine .inr (.inr ⟨c, hc, hid.trans hkey.symm, hmanual, fun product => ?_⟩)
      rw [memberIds_eq_map, memberIds_eq_map, Memberships.members_replace, if_pos hkey,
        mem_ids_moveToFront, hkey]
    · refine .inl ?_
      unfold memberIds?
      rw [Memberships.members?_replace, if_neg hkey]

/-- An operation changes nothing but what `Follows` says. -/
theorem follows_perform (s : Store) (op : Operation) : Follows s (s.perform op).1 := by
  cases op with
  | sync id faults =>
    rcases s.syncById_int faults id with ⟨failure, hsync⟩ | ⟨c, hc, -, hsync⟩
    · simp only [perform, hsync]
      exact .refl s
    · simp only [perform, hsync]
      exact follows_sync hc faults
  | syncAll faults =>
    simp only [perform, syncAll_fst]
    exact follows_syncEach faults fun c hc => mem_listCollections hc
  | reorder id productIds faults => exact s.follows_reorder faults id productIds
  | reload =>
    obtain ⟨restored, hrestored, htable, hperm, hmembers⟩ := s.exists_restored
    simp only [perform, hrestored]
    exact ⟨htable, hperm, fun key => .inl (hmembers key)⟩
  | page | statistics | ruleOptions | related | suggested => exact .refl s

/-- An operation that fails changes nothing, unless it syncs all collections. -/
theorem perform_of_error {op : Operation} {failure : Failure} (hop : op.isSyncAll = false)
    (h : (s.perform op).2 = .error failure) : (s.perform op).1 = s := by
  cases op with
  | sync id faults =>
    rcases s.syncById_int faults id with ⟨failure', hsync⟩ | ⟨c, -, -, hsync⟩
    · simp only [perform, hsync]
    · simp only [perform, hsync] at h ⊢
      rcases s.skipped_or_written_or_failed faults c with hskipped | ⟨ids, hwritten⟩ | hfailed
      · exact hskipped.store_eq
      · rw [hwritten.outcome_eq] at h
        cases h
      · exact hfailed.store_eq
  | syncAll => cases hop
  | reorder id productIds faults =>
    rcases s.reorder_int faults id productIds with hsame | ⟨c, -, -, -, hreorder⟩
    · exact hsame
    · simp only [perform, hreorder] at h
      cases h
  | reload =>
    obtain ⟨restored, hrestored, -⟩ := s.exists_restored
    simp only [perform, hrestored] at h
    cases h
  | page | statistics | ruleOptions | related | suggested => rfl

theorem run_cons (s : Store) (op : Operation) (ops : List Operation) :
    s.run (op :: ops) = (s.perform op).1.run ops := rfl

theorem run_append (s : Store) (ops later : List Operation) :
    s.run (ops ++ later) = (s.run ops).run later := List.foldl_append

/-- A run changes nothing but what `Follows` says. -/
theorem follows_run (s : Store) (ops : List Operation) : Follows s (s.run ops) := by
  induction ops generalizing s with
  | nil => exact .refl s
  | cons op ops ih =>
    rw [run_cons]
    exact (s.follows_perform op).trans (ih _)

/-! ## Members in a run -/

/-- An operation syncs a collection with success: by itself, or as one of all smart collections. -/
def Syncs (s : Store) (c : Collection) : Operation → Prop
  | .sync id faults => id = c.id ∧ ∃ n, (s.syncById faults (.int id)).2 = .ok n
  | .syncAll faults => ∃ before after, s.listCollections true = before ++ c :: after ∧
    (∃ r, (syncEach faults s before).2 = .ok r) ∧
    ∃ n, ((syncEach faults s before).1.sync (faults c.id) c).2 = .ok n
  | _ => False

theorem syncEach_append {faults : Int → Faults} {before : List Collection}
    (h : ∃ r, (syncEach faults s before).2 = .ok r) (rest : List Collection) :
    (syncEach faults s (before ++ rest)).1 =
      (syncEach faults (syncEach faults s before).1 rest).1 := by
  induction before generalizing s with
  | nil => rfl
  | cons d before ih =>
    obtain ⟨r, hr⟩ := h
    rw [List.cons_append, syncEach, syncEach]
    rw [syncEach] at hr
    split at hr
    · rename_i after count hsync
      obtain ⟨r', hr', -⟩ := map_eq_ok.1 hr
      exact ih ⟨r', hr'⟩
    · rename_i after ids cause hsync
      obtain ⟨r', hr', -⟩ := map_eq_ok.1 hr
      exact ih ⟨r', hr'⟩
    · cases hr

/-- A collection with a rule that is synced with success has the members of its rule. -/
theorem isEvaluated_of_syncs {op : Operation} (hc : c ∈ s.collections) (hsmart : c.isSmart = true)
    (hrule : c.HasRule) (h : s.Syncs c op) :
    s.IsEvaluated c ((s.perform op).1.memberIds? c.id) := by
  cases op with
  | sync id faults =>
    obtain ⟨rfl, n, hn⟩ := h
    rcases s.syncById_int faults c.id with ⟨failure, hsync⟩ | ⟨d, hd, hid, hsync⟩
    · rw [hsync] at hn
      cases hn
    · cases collection_eq_of_id_eq hd hc hid
      rw [hsync] at hn
      simp only [perform, hsync]
      exact isEvaluated_sync hsmart hrule hn
  | syncAll faults =>
    obtain ⟨before, after, hlist, hbefore, n, hn⟩ := h
    have hmem : ∀ d ∈ before ++ c :: after, d ∈ s.collections := by
      rw [← hlist]
      exact fun d hd => mem_listCollections hd
    have hreached : Follows s (syncEach faults s before).1 :=
      follows_syncEach faults fun d hd => hmem d (List.mem_append_left _ hd)
    have hsynced : Follows s ((syncEach faults s before).1.sync (faults c.id) c).1 :=
      hreached.trans (follows_sync (hreached.collections_perm.mem_iff.2 hc) _)
    have hwritten := isEvaluated_of_table_eq hreached.table_eq (isEvaluated_sync hsmart hrule hn)
    have hrest : Follows ((syncEach faults s before).1.sync (faults c.id) c).1
        (syncEach faults ((syncEach faults s before).1.sync (faults c.id) c).1 after).1 := by
      refine follows_syncEach faults fun d hd => hsynced.collections_perm.mem_iff.2 ?_
      exact hmem d (List.mem_append_right _ (List.mem_cons_of_mem c hd))
    simp only [perform, syncAll_fst, hlist]
    rw [syncEach_append hbefore, syncEach_cons_of_ok hn]
    exact hsynced.isEvaluated_after hrest hc hsmart hwritten
  | _ => exact h.elim

/-- In a run, however its scans and commits fail, the members of a smart collection are those that
it began with or those of its rule, and after a sync of it that succeeded they are those of its
rule; a manual collection keeps its set of members; an id that no collection has keeps its members;
and an operation that fails leaves all members as they are, unless it is one that syncs all
collections. -/
theorem run_memberships (s : Store) (ops : List Operation) :
    (∀ c ∈ s.collections, c.isSmart = true →
      (s.run ops).memberIds? c.id = s.memberIds? c.id ∨
        s.IsEvaluated c ((s.run ops).memberIds? c.id)) ∧
    (∀ c ∈ s.collections, c.isSmart = true → c.HasRule → ∀ before op after,
      ops = before ++ op :: after → (s.run before).Syncs c op →
        s.IsEvaluated c ((s.run ops).memberIds? c.id)) ∧
    (∀ c ∈ s.collections, c.isSmart = false →
      ∀ id, id ∈ (s.run ops).memberIds c.id ↔ id ∈ s.memberIds c.id) ∧
    (∀ key, key ∉ s.collections.map (·.id) → (s.run ops).memberIds? key = s.memberIds? key) ∧
    (∀ op failure, op.isSyncAll = false → ((s.run ops).perform op).2 = .error failure →
      ((s.run ops).perform op).1 = s.run ops) := by
  have hrun := s.follows_run ops
  refine ⟨?_, ?_, ?_, ?_, ?_⟩
  · intro c hc hsmart
    rcases hrun.members c.id with hsame | ⟨d, hd, hid, -, hevaluated⟩ | ⟨d, hd, hid, hmanual, -⟩
    · exact .inl hsame
    · cases collection_eq_of_id_eq hd hc hid
      exact .inr hevaluated
    · cases collection_eq_of_id_eq hd hc hid
      cases hsmart.symm.trans hmanual
  · intro c hc hsmart hrule before op after hops hsyncs
    have hbefore := s.follows_run before
    have hop := (s.run before).follows_perform op
    have hmem : c ∈ (s.run before).collections := hbefore.collections_perm.mem_iff.2 hc
    have hevaluated := isEvaluated_of_table_eq hbefore.table_eq
      (isEvaluated_of_syncs hmem hsmart hrule hsyncs)
    rw [hops, run_append, run_cons]
    exact (hbefore.trans hop).isEvaluated_after (follows_run _ after) hc hsmart hevaluated
  · intro c hc hmanual id
    rcases hrun.members c.id with hsame | ⟨d, hd, hid, hsmart, -⟩ | ⟨d, hd, hid, -, hset⟩
    · rw [memberIds_eq hsame]
    · cases collection_eq_of_id_eq hd hc hid
      cases hsmart.symm.trans hmanual
    · exact hset id
  · intro key hkey
    rcases hrun.members key with hsame | ⟨d, hd, hid, -⟩ | ⟨d, hd, hid, -⟩
    · exact hsame
    · exact absurd (List.mem_map.2 ⟨d, hd, hid⟩) hkey
    · exact absurd (List.mem_map.2 ⟨d, hd, hid⟩) hkey
  · intro op failure hop hfailure
    exact perform_of_error hop hfailure

end Store

end Storefront
