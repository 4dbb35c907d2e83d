import Storefront.CommandLine.Session
import Storefront.Proofs.Reloading

/-!
# Runs of commands

A catalog directory is loaded, synced and saved by one command after the other. Whatever commands
run, and however they end, its catalog stays that of its files but for smart collections, whose
members may have become those of their rules; and a sync that was saved changes nothing when it is
repeated.

* `Store.Evolves`: a catalog in which some smart collections were synced
* `Store.syncEach_again`, `CommandLine.requestedSync_again`: a sync that is repeated
* `Workspace.load_saving`, `Command.run_cases`: what a command does to a workspace
* `Workspace.after`, `Workspace.offers_after`: runs of commands, by induction on the commands
* `Workspace.runs_keep_catalog`: the catalog of a directory after any commands
-/

namespace Storefront

namespace Memberships

theorem setEntry_of_lookup {collection : Int} {members : List Member}
    {entries : List (Int × List Member)} (h : entries.lookup collection = some members) :
    setEntry collection members entries = entries := by
  induction entries with
  | nil => cases h
  | cons entry rest ih =>
    obtain ⟨key, old⟩ := entry
    rw [setEntry]
    rw [List.lookup_cons] at h
    by_cases hkey : key = collection
    · simp only [hkey, beq_self_eq_true] at h
      cases h
      rw [if_pos hkey]
    · have : (collection == key) = false := by simpa using Ne.symm hkey
      simp only [this] at h
      rw [if_neg hkey, ih h]

/-- Members that a collection already has can be written again without effect. -/
theorem replace_of_members? {m : Memberships} {collection : Int}
    {members : List Member} (h : m.members? collection = some members) :
    m.replace collection members = m :=
  eq_of_entries_eq (setEntry_of_lookup h)

end Memberships

/-! ## Catalogs that are synced -/

namespace Store

variable {s t s' : Store} {c : Collection}

/-- A catalog comes from another one by syncs: the rows and the collections are the same, and so are
the members of manual collections and of ids that no collection has; a smart collection has the
members that it had, or those to which its rule evaluates. -/
structure Evolves (s s' : Store) : Prop where
  table_eq : s'.table = s.table
  collections_perm : s'.collections.Perm s.collections
  kept : ∀ key, (∀ c ∈ s.collections, c.id = key → c.isSmart = false) →
    s'.memberIds? key = s.memberIds? key
  synced : ∀ c ∈ s.collections, c.isSmart = true →
    s'.memberIds? c.id = s.memberIds? c.id ∨ s.IsEvaluated c (s'.memberIds? c.id)

theorem Follows.evolves (h : Follows s s')
    (hkept : ∀ key, (∀ c ∈ s.collections, c.id = key → c.isSmart = false) →
      s'.memberIds? key = s.memberIds? key) : Evolves s s' where
  table_eq := h.table_eq
  collections_perm := h.collections_perm
  kept := hkept
  synced c hc hsmart := by
    rcases h.members c.id with hsame | ⟨d, hd, hid, -, hevaluated⟩ | ⟨d, hd, hid, hmanual, -⟩
    · exact .inl hsame
    · cases collection_eq_of_id_eq hd hc hid
      exact .inr hevaluated
    · cases collection_eq_of_id_eq hd hc hid
      cases hsmart.symm.trans hmanual

theorem Evolves.refl (s : Store) : Evolves s s := (Follows.refl s).evolves fun _ _ => rfl

theorem Evolves.trans {s'' : Store} (h : Evolves s s') (h' : Evolves s' s'') : Evolves s s'' where
  table_eq := h'.table_eq.trans h.table_eq
  collections_perm := h'.collections_perm.trans h.collections_perm
  kept key hkey := by
    have hkey' : ∀ c ∈ s'.collections, c.id = key → c.isSmart = false :=
      fun c hc => hkey c (h.collections_perm.mem_iff.1 hc)
    rw [h'.kept key hkey', h.kept key hkey]
  synced c hc hsmart := by
    rcases h'.synced c (h.collections_perm.mem_iff.2 hc) hsmart with hsame | hevaluated
    · rw [hsame]
      exact h.synced c hc hsmart
    · exact .inr (isEvaluated_of_table_eq h.table_eq hevaluated)

theorem Alike.memberIds?_eq (h : Alike s t) : t.memberIds? = s.memberIds? := by
  funext key
  unfold memberIds?
  rw [h.memberships_eq]

/-- A catalog that is alike is one in which nothing was synced. -/
theorem Alike.evolves (h : Alike s t) : Evolves s t where
  table_eq := h.table_eq
  collections_perm := h.collections_perm
  kept key _ := by rw [h.memberIds?_eq]
  synced c _ _ := .inl (by rw [h.memberIds?_eq])

/-- A sync leaves the members of every id alone that is not the one of a smart collection. -/
theorem members?_sync_of_manual {faults : Faults} {key : Int}
    (h : c.id = key → c.isSmart = false) :
    (s.sync faults c).1.memberships.members? key = s.memberships.members? key := by
  rw [sync_fst, members?_writing]
  split
  · rename_i hkey
    rw [freshIds?_eq_none (.inl (h hkey.symm))]
    rfl
  · rfl

theorem members?_syncEach_of_manual {faults : Int → Faults} {cs : List Collection} {key : Int}
    (h : ∀ c ∈ cs, c.id = key → c.isSmart = false) :
    (syncEach faults s cs).1.memberships.members? key = s.memberships.members? key := by
  induction cs generalizing s with
  | nil => rfl
  | cons c cs ih =>
    have hfirst : (s.sync (faults c.id) c).1.memberships.members? key =
        s.memberships.members? key := members?_sync_of_manual (h c List.mem_cons_self)
    rcases syncEach_cons faults s c cs with hrun | hrun
    · rw [hrun, hfirst]
    · rw [hrun, ih fun d hd => h d (List.mem_cons_of_mem c hd), hfirst]

theorem evolves_sync (hc : c ∈ s.collections) (faults : Faults) :
    Evolves s (s.sync faults c).1 := by
  refine (follows_sync hc faults).evolves fun key hkey => ?_
  unfold memberIds?
  rw [members?_sync_of_manual (hkey c hc)]

theorem evolves_syncEach (faults : Int → Faults) {cs : List Collection}
    (h : ∀ c ∈ cs, c ∈ s.collections) : Evolves s (syncEach faults s cs).1 := by
  refine (follows_syncEach faults h).evolves fun key hkey => ?_
  unfold memberIds?
  rw [members?_syncEach_of_manual fun c hc => hkey c (h c hc)]

/-! ## Syncs that are repeated -/

/-- A sync that gave a count gives it again, and changes nothing, in every store with the same table
in which the collection has the members that the sync left. -/
theorem sync_again {faults : Faults} {n : Nat} (h : (s.sync faults c).2 = .ok n)
    (htable : t.table = s.table)
    (hmembers : t.memberships.members? c.id = (s.sync faults c).1.memberships.members? c.id) :
    t.sync faults c = (t, .ok n) := by
  have hcase := s.sync_cases faults c
  generalize s.sync faults c = result at h hmembers hcase
  cases hcase with
  | unreadable | uncommitted => cases h
  | unscanned p failure => cases failure <;> cases h
  | idle hread =>
    cases h
    unfold sync
    rw [hread]
  | written p ids hread hscan hcommit =>
    cases h
    have hwritten : t.memberships.members? c.id = some (ids.map Member.ofId) := by
      rw [hmembers]
      dsimp only
      rw [Memberships.members?_replace, if_pos rfl]
    have hscan' : t.evaluate faults p = .ok ids := by
      rw [evaluate_of_demands (demands_iff.1 hread) htable, hscan]
    have hpublish : t.replaceMembers faults c.id (ids.map Member.ofId) = (t, .ok ()) := by
      unfold replaceMembers publish
      rw [hcommit, Memberships.replace_of_members? hwritten]
    unfold sync writeMatches
    rw [hread]
    dsimp only
    rw [hscan']
    dsimp only
    rw [hpublish]
    rfl

/-- A run of syncs without failures is one of syncs that each give a count. -/
theorem syncEach_cons_eq_ok {faults : Int → Faults} {cs : List Collection} {n : Nat}
    (h : (syncEach faults s (c :: cs)).2 = .ok (n, [])) :
    ∃ k m, (s.sync (faults c.id) c).2 = .ok k ∧
      (syncEach faults (s.sync (faults c.id) c).1 cs).2 = .ok (m, []) ∧ n = k + m := by
  rw [syncEach] at h
  split at h
  · rename_i after k hsync
    obtain ⟨⟨m, failed⟩, hrest, hsum⟩ := map_eq_ok.1 h
    cases hsum
    rw [hsync]
    exact ⟨k, m, rfl, hrest, rfl⟩
  · obtain ⟨r, -, hr⟩ := map_eq_ok.1 h
    cases hr
  · cases h

/-- Syncs of different collections that all gave their counts give them again. -/
theorem syncEach_again {faults : Int → Faults} {cs : List Collection} {n : Nat}
    (hnodup : (cs.map (·.id)).Nodup) (h : (syncEach faults s cs).2 = .ok (n, []))
    (htable : t.table = s.table)
    (hmembers : ∀ c ∈ cs, t.memberships.members? c.id =
      (syncEach faults s cs).1.memberships.members? c.id) :
    syncEach faults t cs = (t, .ok (n, [])) := by
  induction cs generalizing s n with
  | nil =>
    cases h
    rfl
  | cons c cs ih =>
    obtain ⟨hc, hnodup⟩ := List.nodup_cons.1 hnodup
    obtain ⟨k, m, hfirst, hrest, rfl⟩ := syncEach_cons_eq_ok h
    rw [syncEach_cons_of_ok hfirst] at hmembers
    -- the syncs of the others leave the members of the first one alone
    have hkept : (syncEach faults (s.sync (faults c.id) c).1 cs).1.memberships.members? c.id =
        (s.sync (faults c.id) c).1.memberships.members? c.id :=
      members?_syncEach_of_manual fun d hd hid => absurd (List.mem_map.2 ⟨d, hd, hid⟩) hc
    have hsync : t.sync (faults c.id) c = (t, .ok k) :=
      sync_again hfirst htable ((hmembers c List.mem_cons_self).trans hkept)
    have hrun : syncEach faults t cs = (t, .ok (m, [])) :=
      ih hnodup hrest (htable.trans (table_sync s (faults c.id) c).symm)
        fun d hd => hmembers d (List.mem_cons_of_mem c hd)
    rw [syncEach, hsync]
    dsimp only
    rw [hrun]
    rfl

theorem collections_sync (s : Store) (faults : Faults) (c : Collection) :
    (s.sync faults c).1.collections = s.collections := by
  rw [sync_fst]
  cases s.freshIds? faults c <;> rfl

theorem collections_syncEach (s : Store) (faults : Int → Faults) (cs : List Collection) :
    (syncEach faults s cs).1.collections = s.collections := by
  induction cs generalizing s with
  | nil => rfl
  | cons c cs ih =>
    rcases syncEach_cons faults s c cs with hrun | hrun
    · rw [hrun, collections_sync]
    · rw [hrun, ih, collections_sync]

/-- A sync of all collections that gave a count gives it again and changes nothing. -/
theorem syncAll_again {faults : Int → Faults} {n : Nat} (h : s.syncAll faults = (s', .ok n)) :
    s'.syncAll faults = (s', .ok n) := by
  have hstore : (syncEach faults s (s.listCollections true)).1 = s' := by
    rw [← syncAll_fst, h]
  have hcount : (syncEach faults s (s.listCollections true)).2 = .ok (n, []) := by
    unfold syncAll at h
    generalize syncEach faults s (s.listCollections true) = result at h
    obtain ⟨after, outcome⟩ := result
    cases outcome with
    | error failure => cases h
    | ok r =>
      dsimp only at h
      split at h
      · rename_i hlast
        cases h
        rw [← List.getLast?_eq_none_iff.1 hlast]
      · cases h
  have hlisted : s'.listCollections true = s.listCollections true := by
    unfold listCollections
    rw [← hstore, collections_syncEach]
  have htable : s'.table = s.table := by
    rw [← hstore]
    exact (follows_syncEach faults fun c hc => mem_listCollections hc).table_eq
  have hagain : syncEach faults s' (s.listCollections true) = (s', .ok (n, [])) := by
    refine syncEach_again (s.nodup_listCollections true) hcount htable fun c _ => ?_
    rw [hstore]
  unfold syncAll
  rw [hlisted, hagain]
  rfl

/-- A sync by id that gave a count gives it again and changes nothing. -/
theorem syncById_again {faults : Faults} {id : Value} {n : Nat}
    (h : s.syncById faults id = (s', .ok n)) : s'.syncById faults id = (s', .ok n) := by
  unfold syncById at h
  cases hc : s.requireCollection id with
  | error failure =>
    rw [hc] at h
    cases h
  | ok c =>
    rw [hc] at h
    have hstore : (s.sync faults c).1 = s' := congrArg Prod.fst h
    have hfound : s'.requireCollection id = .ok c := by
      rw [← hc]
      unfold requireCollection collection? findCollection?
      rw [← hstore, collections_sync]
    unfold syncById
    rw [hfound]
    refine sync_again (congrArg Prod.snd h) ?_ ?_
    · rw [← hstore, table_sync]
    · rw [hstore]

end Store

namespace CommandLine

variable {s t s' : Store} {collection : Option Int}

/-- The sync of one collection or of all. -/
def requestedSync (s : Store) : Option Int → Store × Except Failure Nat
  | some id => s.syncById .none (.int id)
  | none => s.syncAll fun _ => .none

/-- What is said about a sync that gives a count. -/
def syncNote : Option Int → Nat → String
  | some id, n => "Synced collection " ++ intText id ++ ": " ++ intText n ++ " products\n"
  | none, n => "Synced all smart collections: " ++ intText n ++ " products\n"

theorem syncStore_eq (s : Store) (collection : Option Int) :
    syncStore s collection = ((requestedSync s collection).1,
      (requestedSync s collection).2.map (syncNote collection)) := by
  unfold syncStore requestedSync
  cases collection with
  | some id =>
    dsimp only
    generalize s.syncById .none (.int id) = result
    cases result.2 <;> rfl
  | none =>
    dsimp only
    generalize (s.syncAll fun _ => .none) = result
    cases result.2 <;> rfl

theorem evolves_requestedSync (s : Store) (collection : Option Int) :
    s.Evolves (requestedSync s collection).1 := by
  unfold requestedSync
  cases collection with
  | some id =>
    rcases s.syncById_int .none id with ⟨failure, hsync⟩ | ⟨c, hc, -, hsync⟩
    · simp only [hsync]
      exact .refl s
    · simp only [hsync]
      exact Store.evolves_sync hc .none
  | none =>
    simp only [Store.syncAll_fst]
    exact Store.evolves_syncEach _ fun c hc => Store.mem_listCollections hc

theorem isPlain_requestedSync (h : s.memberships.IsPlain) (collection : Option Int) :
    (requestedSync s collection).1.memberships.IsPlain := by
  unfold requestedSync
  cases collection with
  | some id =>
    rcases s.syncById_int .none id with ⟨failure, hsync⟩ | ⟨c, hc, -, hsync⟩
    · simp only [hsync]
      exact h
    · simp only [hsync]
      exact Store.isPlain_sync h .none c
  | none =>
    simp only [Store.syncAll_fst]
    exact Store.isPlain_syncEach h _ _

theorem alike_requestedSync (h : s.Alike t) (collection : Option Int) :
    Store.AlikeOutcome (requestedSync s collection) (requestedSync t collection) := by
  cases collection with
  | some id => exact h.syncById .none (.int id)
  | none => exact h.syncAll fun _ => .none

/-- A sync that gave a count gives it again, and changes nothing. -/
theorem requestedSync_again {n : Nat} (h : requestedSync s collection = (s', .ok n)) :
    requestedSync s' collection = (s', .ok n) := by
  cases collection with
  | some id => exact Store.syncById_again h
  | none => exact Store.syncAll_again h

end CommandLine

/-! ## Directories of a workspace -/

/-- What is loaded from a directory does not depend on the name by which it is known. -/
theorem Directory.load_of_name {d : Directory} {s : Store} (h : d.load = .ok s) (name : String) :
    { d with name := name }.load = .ok s := by
  unfold load at h ⊢
  dsimp only
  cases hsnapshot : d.snapshot with
  | some store =>
    rw [hsnapshot] at h
    exact h
  | none =>
    rw [hsnapshot] at h
    cases hproducts : d.products with
    | some products =>
      rw [hproducts] at h
      exact h
    | none =>
      rw [hproducts] at h
      cases h

namespace Workspace

variable {w : Workspace} {s : Store}

theorem lookup_replace (path known : Path) (d : Directory) (directories : List (Path × Directory)) :
    (replace path d directories).lookup known =
      if known = path then some d else directories.lookup known := by
  induction directories with
  | nil =>
    by_cases h : known = path
    · simp [replace, h]
    · have : (known == path) = false := by simpa using h
      simp [replace, h, List.lookup_cons, this]
  | cons entry rest ih =>
    obtain ⟨first, old⟩ := entry
    rw [replace]
    by_cases hfirst : first = path
    · subst hfirst
      by_cases h : known = first
      · simp [h]
      · have : (known == first) = false := by simpa using h
        simp [List.lookup_cons, this, h]
    · rw [if_neg hfirst, List.lookup_cons, List.lookup_cons, ih]
      by_cases h : known = first
      · subst h
        simp [hfirst]
      · have : (known == first) = false := by simpa using h
        simp [this]

theorem name_directory (w : Workspace) (name : String) : (w.directory name).name = name := by
  unfold directory
  split <;> rfl

/-- An update changes the directory of one path, by whatever name it is known. -/
theorem directory_update (w : Workspace) (d : Directory) (name : String) :
    (w.update d).directory name =
      if Path.ofText name = Path.ofText d.name then { d with name := name }
      else w.directory name := by
  unfold directory update
  dsimp only
  rw [lookup_replace]
  by_cases h : Path.ofText name = Path.ofText d.name
  · rw [if_pos h, if_pos h]
  · rw [if_neg h, if_neg h]

theorem load_of_path_eq {name other : String} (h : Path.ofText name = Path.ofText other)
    (hload : (w.directory name).load = .ok s) : (w.directory other).load = .ok s := by
  have hsame : w.directory other = { w.directory name with name := other } := by
    unfold directory
    rw [h]
    split <;> rfl
  rw [hsame]
  exact Directory.load_of_name hload other

end Workspace

/-! ## Single commands -/

/-- The workspace after a sync of the directory of a name was saved. -/
def Workspace.saving (w : Workspace) (name : String) (s : Store) : Workspace :=
  w.update ((w.directory name).save s)

theorem Workspace.directory_saving (w : Workspace) (name other : String) (s : Store) :
    (w.saving name s).directory other =
      if Path.ofText other = Path.ofText name then { (w.directory name).save s with name := other }
      else w.directory other := by
  unfold saving
  rw [directory_update]
  show (if Path.ofText other = Path.ofText (w.directory name).name then _ else _) = _
  rw [name_directory]

/-- A saved catalog is loaded as it is restored. -/
theorem Workspace.load_saving (w : Workspace) (name other : String) (s : Store) :
    ((w.saving name s).directory other).load =
      if Path.ofText other = Path.ofText name then s.restored else (w.directory other).load := by
  rw [directory_saving]
  split <;> rfl

namespace Command

open CommandLine

theorem ending_ofFailure (errors : Report → String) (f : Failure) :
    (Printed.ofFailure errors f).ending ≠ .ok 0 := by
  unfold Printed.ofFailure
  split
  · exact fun h => by cases h
  · exact fun h => by cases h

/-- A sync that is told to save does so when it gives a count. -/
theorem run_sync {w : Workspace} {collection : Option Int} {name : String} {s s' : Store} {n : Nat}
    (hload : (w.directory name).load = .ok s) (hsync : requestedSync s collection = (s', .ok n)) :
    (Command.sync collection true name).run w =
      (w.saving name s', .success (syncNote collection n ++ savedNote name)) := by
  unfold run
  dsimp only
  rw [hload]
  dsimp only
  rw [syncStore_eq, hsync]
  rfl

/-- A command saves the catalog that a sync leaves, if it is told to and the sync gives a count;
otherwise it changes nothing. -/
theorem run_cases (c : Command) (w : Workspace) :
    ((c.run w).1 = w ∧ (c.saves = false ∨ (c.run w).2.ending ≠ .ok 0)) ∨
      ∃ collection name s s' n, c = .sync collection true name ∧
        (w.directory name).load = .ok s ∧ requestedSync s collection = (s', .ok n) := by
  cases c with
  | related | suggested => exact .inl ⟨rfl, .inl rfl⟩
  | sync collection save name =>
    cases hload : (w.directory name).load with
    | error f =>
      refine .inl ?_
      unfold run
      dsimp only
      rw [hload]
      exact ⟨rfl, .inr (ending_ofFailure _ f)⟩
    | ok s =>
      generalize hresult : requestedSync s collection = result
      obtain ⟨s', outcome⟩ := result
      cases outcome with
      | error f =>
        refine .inl ?_
        unfold run
        dsimp only
        rw [hload]
        dsimp only
        rw [syncStore_eq, hresult]
        exact ⟨rfl, .inr (ending_ofFailure _ f)⟩
      | ok n =>
        cases save with
        | false =>
          refine .inl ⟨?_, .inl rfl⟩
          unfold run
          dsimp only
          rw [hload]
          dsimp only
          rw [syncStore_eq, hresult]
          rfl
        | true => exact .inr ⟨collection, name, s, s', n, rfl, hload, hresult⟩

/-- A sync that was saved prints the same when it is repeated, and what is loaded from any directory
after it is the same. -/
theorem run_again {w : Workspace} {collection : Option Int} {name : String}
    (hplain : ∀ s, (w.directory name).load = .ok s → s.memberships.IsPlain)
    (hend : ((Command.sync collection true name).run w).2.ending = .ok 0) :
    ((Command.sync collection true name).run ((Command.sync collection true name).run w).1).2 =
      ((Command.sync collection true name).run w).2 ∧
    ∀ other,
      (((Command.sync collection true name).run
        ((Command.sync collection true name).run w).1).1.directory other).load =
      (((Command.sync collection true name).run w).1.directory other).load := by
  rcases run_cases (.sync collection true name) w with ⟨-, hsaves | hfails⟩ |
    ⟨_, _, s, s', n, hc, hload, hsync⟩
  · cases hsaves
  · exact absurd hend hfails
  · cases hc
    have hplain' : s'.memberships.IsPlain := by
      have hkept := isPlain_requestedSync (hplain s hload) collection
      rw [hsync] at hkept
      exact hkept
    obtain ⟨t, hrestored, halike⟩ := Store.exists_restored_alike hplain'
    have hload' : ((w.saving name s').directory name).load = .ok t := by
      rw [Workspace.load_saving, if_pos rfl, hrestored]
    obtain ⟨hstore, hcount⟩ := alike_requestedSync halike collection
    rw [requestedSync_again hsync] at hstore hcount
    rw [run_sync hload hsync, run_sync hload' (Prod.ext rfl hcount)]
    refine ⟨rfl, fun other => ?_⟩
    dsimp only
    rw [Workspace.load_saving, Workspace.load_saving]
    split
    · exact hstore.restored_eq
    · rfl

end Command

/-! ## Runs of commands -/

namespace Workspace

variable {w : Workspace} {name : String} {s₀ : Store}

/-- The workspace after invocations that are made one after the other. -/
def after (w : Workspace) (invocations : List Invocation) : Workspace :=
  invocations.foldl (fun w invocation => (invocation.run w).1) w

/-- A catalog that comes from a given one by syncs can be loaded from a directory. -/
def Offers (w : Workspace) (name : String) (s₀ : Store) : Prop :=
  ∃ s, (w.directory name).load = .ok s ∧ s.memberships.IsPlain ∧ s₀.Evolves s

/-- A command keeps what a directory offers. -/
theorem offers_run (h : w.Offers name s₀) (invocation : Invocation) :
    (invocation.run w).1.Offers name s₀ := by
  cases invocation with
  | help | misuse => exact h
  | command c =>
    show (c.run w).1.Offers name s₀
    rcases c.run_cases w with ⟨hsame, -⟩ | ⟨collection, other, s, s', n, rfl, hload, hsync⟩
    · rw [hsame]
      exact h
    · rw [Command.run_sync hload hsync]
      obtain ⟨known, hknown, hplain, hevolves⟩ := h
      by_cases hpath : Path.ofText name = Path.ofText other
      · cases hload.symm.trans (load_of_path_eq hpath hknown)
        have hsynced := CommandLine.evolves_requestedSync s collection
        have hplain' := CommandLine.isPlain_requestedSync hplain collection
        rw [hsync] at hsynced hplain'
        obtain ⟨t, hrestored, halike⟩ := Store.exists_restored_alike hplain'
        refine ⟨t, ?_, ?_, (hevolves.trans hsynced).trans halike.evolves⟩
        · rw [load_saving, if_pos hpath, hrestored]
        · rw [halike.memberships_eq]
          exact hplain'
      · refine ⟨known, ?_, hplain, hevolves⟩
        rw [load_saving, if_neg hpath, hknown]

theorem offers_after (h : w.Offers name s₀) (invocations : List Invocation) :
    (w.after invocations).Offers name s₀ := by
  induction invocations generalizing w with
  | nil => exact h
  | cons invocation rest ih => exact ih (offers_run h invocation)

/-- A directory without a snapshot offers the catalog of its files. -/
theorem offers_of_files (hfresh : (w.directory name).snapshot = none)
    (hload : (w.directory name).load = .ok s₀) : w.Offers name s₀ := by
  refine ⟨s₀, hload, ?_, .refl s₀⟩
  unfold Directory.load at hload
  rw [hfresh] at hload
  cases hproducts : (w.directory name).products with
  | none =>
    rw [hproducts] at hload
    cases hload
  | some products =>
    rw [hproducts] at hload
    exact Store.isPlain_of_isBuilt (.ofFiles hload)

/-- Whatever commands run on a directory without a snapshot, the catalog that is loaded from it
comes from that of its files by syncs. A command that is not told to save, or does not succeed,
changes nothing; and a sync that succeeds and is saved prints the same when it is repeated, and
leaves the same catalog. -/
theorem runs_keep_catalog (hfresh : (w.directory name).snapshot = none)
    (hload : (w.directory name).load = .ok s₀) (invocations : List Invocation) :
    (∃ s, ((w.after invocations).directory name).load = .ok s ∧ s₀.Evolves s) ∧
    (∀ c : Command, c.saves = false ∨ (c.run (w.after invocations)).2.ending ≠ .ok 0 →
      (c.run (w.after invocations)).1 = w.after invocations) ∧
    ∀ c : Command, Path.ofText c.directory = Path.ofText name → c.saves = true →
      (c.run (w.after invocations)).2.ending = .ok 0 →
      (c.run (c.run (w.after invocations)).1).2 = (c.run (w.after invocations)).2 ∧
      ((c.run (c.run (w.after invocations)).1).1.directory name).load =
        ((c.run (w.after invocations)).1.directory name).load := by
  obtain ⟨s, hs, hplain, hevolves⟩ := offers_after (offers_of_files hfresh hload) invocations
  refine ⟨⟨s, hs, hevolves⟩, fun c hc => ?_, fun c hpath hsaves hend => ?_⟩
  · rcases c.run_cases (w.after invocations) with ⟨hsame, -⟩ | ⟨_, _, s₁, s', n, rfl, hs₁, hsync⟩
    · exact hsame
    · rw [Command.run_sync hs₁ hsync] at hc
      rcases hc with hsaves | hfails
      · cases hsaves
      · exact absurd rfl hfails
  · cases c with
    | related | suggested => cases hsaves
    | sync collection save other =>
      cases hsaves
      have hagain := Command.run_again (fun s' hs' => ?_) hend
      · exact ⟨hagain.1, hagain.2 name⟩
      · cases hs'.symm.trans (load_of_path_eq hpath.symm hs)
        exact hplain

/-- A directory with two products, a collection with a rule and a manual one. -/
def kiosk : Workspace where
  directories := [(Path.ofText "data", {
    name := "data"
    products := some "id,price,vendor\n1,10,Acme\n2,20,Globex\n"
    collections := some ("id,is_smart,rules\n" ++
      "10,1,\"\x7b\"\"type\"\":\"\"vendor\"\",\"\"value\"\":\"\"Acme\"\"\x7d\"\n20,0,\n")
    memberships := some "collection_id,product_id,position\n20,2,1\n" })]

/-- A sync of all collections that is saved, and a command that fails. -/
def kioskInvocations : List Invocation :=
  [.command (.sync none true "data"), .command (.sync (some 30) true "./data")]

/-- The smart collection has the member of its rule, and the manual one has that of its file. -/
theorem runs_keep_catalog_kiosk : ∃ s₀ s, (kiosk.directory "data").load = .ok s₀ ∧
    ((kiosk.after kioskInvocations).directory "data").load = .ok s ∧ s₀.Evolves s ∧
    [10, 20, 30].map s₀.memberIds? = [none, some [2], none] ∧
    [10, 20, 30].map s.memberIds? = [some [1], some [2], none] := by
  have hbefore : (kiosk.directory "data").load.toOption.map
      (fun s => [10, 20, 30].map s.memberIds?) = some [none, some [2], none] := by
    decide +kernel
  have hafter : ((kiosk.after kioskInvocations).directory "data").load.toOption.map
      (fun s => [10, 20, 30].map s.memberIds?) = some [some [1], some [2], none] := by
    decide +kernel
  cases hload : (kiosk.directory "data").load with
  | error failure =>
    rw [hload] at hbefore
    cases hbefore
  | ok s₀ =>
    obtain ⟨⟨s, hs, hevolves⟩, -⟩ := runs_keep_catalog rfl hload kioskInvocations
    rw [hload] at hbefore
    rw [hs] at hafter
    exact ⟨s₀, s, rfl, hs, hevolves, Option.some.inj hbefore, Option.some.inj hafter⟩

end Workspace

end Storefront
