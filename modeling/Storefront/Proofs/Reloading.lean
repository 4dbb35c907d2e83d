import Storefront.Catalog.Files
import Storefront.Proofs.SyncingAll

/-!
# Stores alike

Two stores are alike if they have the same table and the same memberships, and the same collections
in whatever order. Nothing that can be asked of a store tells it from a store alike, and what it
leaves behind is alike again. A store that is built again from its parts is alike to what it was,
as long as every member is written as a plain number, which operations on ids keep up.

* `Store.Question`, `Store.Request`, `Store.Reply`, `Store.answers`: what can be asked of a store, and
  its answers
* `Store.Alike`, `Store.Alike.answers_eq`: stores alike give the same answers
* `Memberships.IsPlain`, `Store.isPlain_run`: members written as plain numbers
* `Store.restored_answers`: a store that is built again gives the same answers
-/

namespace Storefront

namespace Store

/-! ## Questions and answers -/

/-- What a store can be asked without a change to it, with what fails beneath it. -/
inductive Question where
  | counts
  | rows
  | memberships
  | product (id : Value)
  | query (query : Query) (faults : Faults)
  | evaluate (rule : Value) (faults : Faults)
  | distinct (field : String)
  | ruleOptions
  | collection (id : Value)
  | collections (smartOnly : Bool)
  | members (id : Value)
  | collectionProducts (id offset limit : Value)
  | page (id page limit : Value)
  | statistics (id : Value)
  | recallBy (signal : Signal) (source : Product) (limit : Value) (faults : Faults)
  | candidates (id limit options : Value) (faults : Faults)
  | related (id limit options : Value) (faults : Faults)
  | suggested (limit : Value) (plan : Plan) (faults : Faults)

/-- What a store can be asked to do, with what fails beneath it. -/
inductive Request where
  | read (question : Question)
  | sync (id : Value) (faults : Faults)
  | syncCollection (collection : Collection) (faults : Faults)
  | syncAll (faults : Int → Faults)
  | reorder (id productIds : Value) (faults : Faults)
  | replaceMembers (collection : Int) (members : List Member) (faults : Faults)
  | reorderMembers (collection : Int) (productIds : List Value) (faults : Faults)
  /-- A snapshot is saved and loaded. -/
  | reload

/-- What a store answers. -/
inductive Reply where
  | done
  | moved (isMoved : Bool)
  | written (count : Nat)
  | counts (products collections : Nat)
  | rows (rows : List Row)
  | memberships (memberships : Memberships)
  | product (product : Option Product)
  | products (products : List Product)
  | ids (ids : List Int)
  | values (values : List Value)
  | ruleOptions (options : RuleOptions)
  | collection (collection : Option Collection)
  | collections (collections : List Collection)
  | members (members : List Member)
  | statistics (statistics : Statistics)
  | recalled (recalled : List Match)
  | candidates (candidates : List Candidate)

/-- The answer of a store to a question. -/
def reply (s : Store) : Question → Except Failure Reply
  | .counts => .ok (.counts s.productCount s.collectionCount)
  | .rows => .ok (.rows s.table.rows)
  | .memberships => .ok (.memberships s.memberships)
  | .product id => (s.product? id).map .product
  | .query query faults => (s.query faults query).map .products
  | .evaluate rule faults => do
    let (p, _) ← Rule.compile rule
    return .ids (← s.evaluate faults p)
  | .distinct field => (s.distinct field).map .values
  | .ruleOptions => s.ruleOptions.map .ruleOptions
  | .collection id => (s.collection? id).map .collection
  | .collections smartOnly => .ok (.collections (s.listCollections smartOnly))
  | .members id => (s.membersOf id).map .members
  | .collectionProducts id offset limit => (s.collectionProducts id offset limit).map .products
  | .page id page limit => (s.page id page limit).map .products
  | .statistics id => (s.statistics id).map .statistics
  | .recallBy signal source limit faults =>
    (s.recallBy faults signal source limit).map .recalled
  | .candidates id limit options faults =>
    (s.relatedCandidates faults id limit options).map .candidates
  | .related id limit options faults => (s.related faults id limit options).map .candidates
  | .suggested limit plan faults => (s.suggested faults limit plan).map .products

/-- What an operation leaves, with its result as a reply. -/
def answering {α : Type} (toReply : α → Reply) (outcome : Store × Except Failure α) :
    Store × Except Failure Reply :=
  (outcome.1, outcome.2.map toReply)

/-- The store that a request leaves, and the answer to it. -/
def answer (s : Store) : Request → Store × Except Failure Reply
  | .read question => (s, s.reply question)
  | .sync id faults => answering .written (s.syncById faults id)
  | .syncCollection c faults => answering .written (s.sync faults c)
  | .syncAll faults => answering .written (s.syncAll faults)
  | .reorder id productIds faults => answering .moved (s.reorder faults id productIds)
  | .replaceMembers collection members faults =>
    answering (fun _ => .done) (s.replaceMembers faults collection members)
  | .reorderMembers collection productIds faults =>
    answering (fun _ => .done) (s.reorderMembers faults collection productIds)
  | .reload => match s.restored with
    | .ok restored => (restored, .ok .done)
    | .error failure => (s, .error failure)

/-- The answers to requests that are made one after the other. -/
def answers (s : Store) : List Request → List (Except Failure Reply)
  | [] => []
  | request :: rest => (s.answer request).2 :: (s.answer request).1.answers rest

/-! ## Stores alike -/

/-- Two stores have the same table and the same memberships, and the same collections in whatever
order. -/
structure Alike (s t : Store) : Prop where
  table_eq : t.table = s.table
  memberships_eq : t.memberships = s.memberships
  collections_perm : t.collections.Perm s.collections

/-- Two outcomes are alike: the results are equal, and the stores that are left are alike. -/
structure AlikeOutcome {α : Type} (x y : Store × Except Failure α) : Prop where
  store : Alike x.1 y.1
  result_eq : y.2 = x.2

theorem Alike.refl (s : Store) : Alike s s := ⟨rfl, rfl, .refl _⟩

/-- Outcomes alike are so after whatever is made of their results. -/
theorem AlikeOutcome.after {α β : Type} {x y : Store × Except Failure α} (h : AlikeOutcome x y)
    (f : Except Failure α → Except Failure β) : AlikeOutcome (x.1, f x.2) (y.1, f y.2) :=
  ⟨h.store, congrArg f h.result_eq⟩

namespace Alike

variable {s t : Store} (h : Alike s t)

include h

/-! ### Reading the table and the memberships -/

theorem query_eq : t.query = s.query := by
  funext faults q
  unfold query
  rw [h.table_eq, h.memberships_eq]

theorem product?_eq : t.product? = s.product? := by
  funext id
  unfold product?
  rw [h.table_eq]

theorem evaluate_eq : t.evaluate = s.evaluate := by
  funext faults p
  unfold evaluate
  rw [h.query_eq]

theorem distinct_eq : t.distinct = s.distinct := by
  funext field
  unfold distinct
  rw [h.table_eq]

theorem membersOf_eq : t.membersOf = s.membersOf := by
  funext id
  unfold membersOf
  rw [h.memberships_eq]

theorem memberRows_eq : t.memberRows = s.memberRows := by
  funext members
  unfold memberRows
  rw [h.table_eq]

theorem recallBy_eq : t.recallBy = s.recallBy := by
  funext faults signal source limit
  unfold recallBy
  rw [h.query_eq]

theorem relatedCandidates_eq : t.relatedCandidates = s.relatedCandidates := by
  funext faults id limit options
  unfold relatedCandidates recallEach
  rw [h.product?_eq, h.recallBy_eq]

theorem suggest_eq : t.suggest = s.suggest := by
  funext faults strategy limit
  unfold suggest
  rw [h.query_eq]

theorem suggested_eq : t.suggested = s.suggested := by
  funext faults limit plan
  unfold suggested mixed
  rw [h.suggest_eq]

/-! ### Reading the collections -/

theorem findCollection?_eq : t.findCollection? = s.findCollection? := by
  funext id
  ext c
  rw [findCollection?_eq_some, findCollection?_eq_some, h.collections_perm.mem_iff]

theorem listCollections_eq : t.listCollections = s.listCollections := by
  funext smartOnly
  unfold listCollections
  rw [sortBy_key_of_perm h.collections_perm t.distinctIds]

theorem collection?_eq : t.collection? = s.collection? := by
  funext id
  unfold collection?
  rw [h.findCollection?_eq]

theorem requireCollection_eq : t.requireCollection = s.requireCollection := by
  funext id
  unfold requireCollection
  rw [h.collection?_eq]

theorem reply_eq (question : Question) : t.reply question = s.reply question := by
  cases question with
  | counts =>
    unfold reply productCount collectionCount
    rw [h.table_eq, h.collections_perm.length_eq]
  | rows => rw [reply, h.table_eq]; rfl
  | memberships => rw [reply, h.memberships_eq]; rfl
  | product => rw [reply, h.product?_eq]; rfl
  | query => rw [reply, h.query_eq]; rfl
  | evaluate => rw [reply, h.evaluate_eq]; rfl
  | distinct => rw [reply, h.distinct_eq]; rfl
  | ruleOptions =>
    unfold reply ruleOptions
    rw [h.distinct_eq]
  | collection => rw [reply, h.collection?_eq]; rfl
  | collections => rw [reply, h.listCollections_eq]; rfl
  | members => rw [reply, h.membersOf_eq]; rfl
  | collectionProducts =>
    unfold reply collectionProducts
    rw [h.membersOf_eq, h.memberRows_eq]
  | page =>
    unfold reply page collectionPage
    rw [h.requireCollection_eq, h.membersOf_eq, h.memberRows_eq]
  | statistics =>
    unfold reply statistics
    rw [h.requireCollection_eq, h.memberships_eq]
  | recallBy => rw [reply, h.recallBy_eq]; rfl
  | candidates => rw [reply, h.relatedCandidates_eq]; rfl
  | related =>
    unfold reply related
    rw [h.relatedCandidates_eq]
  | suggested => rw [reply, h.suggested_eq]; rfl

/-! ### Writing -/

theorem publish (faults : Faults) (operation : String) (staged : Memberships) :
    AlikeOutcome (s.publish faults operation staged) (t.publish faults operation staged) := by
  unfold Store.publish
  cases faults.commit with
  | none => exact ⟨⟨h.table_eq, rfl, h.collections_perm⟩, rfl⟩
  | some failure => cases failure <;> exact ⟨h, rfl⟩

theorem replaceMembers (faults : Faults) (collection : Int) (members : List Member) :
    AlikeOutcome (s.replaceMembers faults collection members)
      (t.replaceMembers faults collection members) := by
  unfold Store.replaceMembers
  rw [h.memberships_eq]
  exact h.publish _ _ _

theorem reorderMembers (faults : Faults) (collection : Int) (ids : List Value) :
    AlikeOutcome (s.reorderMembers faults collection ids) (t.reorderMembers faults collection ids) := by
  unfold Store.reorderMembers
  rw [h.memberships_eq]
  split
  · exact h.publish _ _ _
  · exact ⟨h, rfl⟩

theorem writeMatches (faults : Faults) (collection : Int) (p : Predicate) :
    AlikeOutcome (s.writeMatches faults collection p) (t.writeMatches faults collection p) := by
  unfold Store.writeMatches
  rw [h.evaluate_eq]
  cases s.evaluate faults p with
  | error failure => exact ⟨h, rfl⟩
  | ok ids =>
    exact (h.replaceMembers faults collection (ids.map Member.ofId)).after
      (Except.map fun _ => ids.length)

theorem sync (faults : Faults) (c : Collection) :
    AlikeOutcome (s.sync faults c) (t.sync faults c) := by
  unfold Store.sync
  cases syncPredicate? c with
  | error failure => exact ⟨h, rfl⟩
  | ok predicate =>
    cases predicate with
    | none => exact ⟨h, rfl⟩
    | some p =>
      exact (h.writeMatches faults c.id p).after (asSyncFailure c.id)

omit h in
/-- Syncing collections one after the other leaves stores alike, and the results are equal. -/
theorem syncEach (faults : Int → Faults) (cs : List Collection) {s t : Store} (h : Alike s t) :
    AlikeOutcome (Store.syncEach faults s cs) (Store.syncEach faults t cs) := by
  induction cs generalizing s t with
  | nil => exact ⟨h, rfl⟩
  | cons c cs ih =>
    have hsync := h.sync (faults c.id) c
    unfold Store.syncEach
    generalize s.sync (faults c.id) c = x at hsync
    generalize t.sync (faults c.id) c = y at hsync
    obtain ⟨s', outcome⟩ := x
    obtain ⟨t', outcome'⟩ := y
    obtain ⟨hstore, hresult⟩ := hsync
    cases hresult
    cases outcome with
    | ok count => exact (ih hstore).after (Except.map fun r => (count + r.1, r.2))
    | error failure =>
      cases failure with
      | syncFailed ids cause =>
        exact (ih hstore).after (Except.map fun r => (r.1, (c.id, .syncFailed ids cause) :: r.2))
      | _ => exact ⟨hstore, rfl⟩

theorem syncAll (faults : Int → Faults) :
    AlikeOutcome (s.syncAll faults) (t.syncAll faults) := by
  have heach := Alike.syncEach faults (s.listCollections true) h
  unfold Store.syncAll
  rw [h.listCollections_eq]
  generalize Store.syncEach faults s (s.listCollections true) = x at heach
  generalize Store.syncEach faults t (s.listCollections true) = y at heach
  obtain ⟨s', outcome⟩ := x
  obtain ⟨t', outcome'⟩ := y
  obtain ⟨hstore, hresult⟩ := heach
  cases hresult
  cases outcome with
  | error failure => exact ⟨hstore, rfl⟩
  | ok counted =>
    dsimp only
    split <;> exact ⟨hstore, rfl⟩

theorem syncById (faults : Faults) (id : Value) :
    AlikeOutcome (s.syncById faults id) (t.syncById faults id) := by
  unfold Store.syncById
  rw [h.requireCollection_eq]
  cases s.requireCollection id with
  | error failure => exact ⟨h, rfl⟩
  | ok c => exact h.sync faults c

theorem reorder (faults : Faults) (id productIds : Value) :
    AlikeOutcome (s.reorder faults id productIds) (t.reorder faults id productIds) := by
  unfold Store.reorder
  rw [h.requireCollection_eq]
  cases s.requireCollection id with
  | error failure => exact ⟨h, rfl⟩
  | ok c =>
    dsimp only
    split
    · exact ⟨h, rfl⟩
    · cases itemsOfValue productIds with
      | error failure => exact ⟨h, rfl⟩
      | ok ids => exact (h.reorderMembers faults c.id ids).after (Except.map fun _ => true)

theorem restored_eq : t.restored = s.restored := by
  unfold Store.restored
  rw [h.table_eq, h.memberships_eq, h.listCollections_eq]

/-- Stores alike answer a request alike. -/
theorem answer (request : Request) : AlikeOutcome (s.answer request) (t.answer request) := by
  cases request with
  | read question => exact ⟨h, h.reply_eq question⟩
  | sync id faults => exact (h.syncById faults id).after _
  | syncCollection c faults => exact (h.sync faults c).after _
  | syncAll faults => exact (h.syncAll faults).after _
  | reorder id productIds faults => exact (h.reorder faults id productIds).after _
  | replaceMembers collection members faults =>
    exact (h.replaceMembers faults collection members).after _
  | reorderMembers collection productIds faults =>
    exact (h.reorderMembers faults collection productIds).after _
  | reload =>
    unfold Store.answer
    rw [h.restored_eq]
    cases s.restored with
    | error failure => exact ⟨h, rfl⟩
    | ok restored => exact ⟨.refl restored, rfl⟩

omit h in
/-- Stores alike give the same answers to requests that are made one after the other. -/
theorem answers_eq (requests : List Request) {s t : Store} (h : Alike s t) :
    t.answers requests = s.answers requests := by
  induction requests generalizing s t with
  | nil => rfl
  | cons request rest ih =>
    have hanswer := h.answer request
    rw [answers, answers, hanswer.result_eq, ih hanswer.store]

end Alike

end Store

/-! ## Members written as plain numbers -/

namespace Memberships

/-- Every member is written as a plain number. -/
def IsPlain (m : Memberships) : Prop :=
  ∀ entry ∈ m.entries, ∀ member ∈ entry.2, member = .ofId member.id

theorem isPlain_empty : empty.IsPlain := fun _ h => nomatch h

theorem mem_setEntry {collection : Int} {members : List Member}
    {entries : List (Int × List Member)} {entry : Int × List Member}
    (h : entry ∈ setEntry collection members entries) : entry.2 = members ∨ entry ∈ entries := by
  induction entries with
  | nil =>
    rw [List.mem_singleton.1 h]
    exact .inl rfl
  | cons first rest ih =>
    rw [setEntry] at h
    split at h
    · rcases List.mem_cons.1 h with rfl | h
      · exact .inl rfl
      · exact .inr (List.mem_cons_of_mem first h)
    · rcases List.mem_cons.1 h with rfl | h
      · exact .inr List.mem_cons_self
      · exact (ih h).imp_right (List.mem_cons_of_mem first)

theorem IsPlain.replace {m : Memberships} {members : List Member} (h : m.IsPlain)
    (hmembers : ∀ member ∈ members, member = .ofId member.id) (collection : Int) :
    (m.replace collection members).IsPlain := by
  intro entry hentry
  rcases mem_setEntry hentry with heq | hmem
  · rw [heq]
    exact hmembers
  · exact h entry hmem

theorem isPlain_map_ofId (ids : List Int) : ∀ member ∈ ids.map Member.ofId,
    member = .ofId member.id := by
  intro member hmember
  obtain ⟨id, -, rfl⟩ := List.mem_map.1 hmember
  rfl

theorem mem_of_members? {m : Memberships} {key : Int} {members : List Member}
    (h : m.members? key = some members) : (key, members) ∈ m.entries := by
  obtain ⟨before, after, hentries, -⟩ := List.lookup_eq_some_iff.1 h
  rw [hentries]
  exact List.mem_append_right _ List.mem_cons_self

theorem IsPlain.members {m : Memberships} (h : m.IsPlain) (key : Int) :
    ∀ member ∈ m.members key, member = .ofId member.id := by
  intro member hmember
  unfold Memberships.members at hmember
  cases hmembers : m.members? key with
  | none =>
    rw [hmembers] at hmember
    cases hmember
  | some members =>
    rw [hmembers] at hmember
    exact h _ (mem_of_members? hmembers) member hmember

/-- Members that are read from values are written as plain numbers. -/
theorem isPlain_mapM {α : Type} {read : α → Except Failure Int} {xs : List α} {members : List Member}
    (h : (xs.mapM fun x => Member.ofId <$> read x) = .ok members) :
    ∀ member ∈ members, member = .ofId member.id := by
  intro member hmember
  obtain ⟨x, -, hx⟩ := mem_of_mapM_eq_ok h hmember
  obtain ⟨id, -, rfl⟩ := map_eq_ok.1 hx
  rfl

theorem isPlain_ofFields {fields : Fields} {m : Memberships} (h : ofFields fields = .ok m) :
    m.IsPlain := by
  refine foldlM_invariant (fun known field next hknown hstep => ?_) isPlain_empty h
  obtain ⟨collection, -, hstep⟩ := bind_eq_ok.1 hstep
  obtain ⟨members, hmembers, hstep⟩ := bind_eq_ok.1 hstep
  obtain ⟨items, -, hmembers⟩ := bind_eq_ok.1 hmembers
  cases hstep
  exact hknown.replace (isPlain_mapM hmembers) collection

theorem isPlain_ofSheet {sheet : Sheet} {m : Memberships} (h : membershipsOfSheet sheet = .ok m) :
    m.IsPlain := by
  refine foldlM_invariant (fun known group next hknown hstep => ?_) isPlain_empty h
  obtain ⟨collection, -, hstep⟩ := bind_eq_ok.1 hstep
  obtain ⟨members, hmembers, hstep⟩ := bind_eq_ok.1 hstep
  cases hstep
  exact hknown.replace (isPlain_mapM hmembers) collection

theorem setEntry_of_not_mem {collection : Int} {members : List Member}
    {entries : List (Int × List Member)} (h : collection ∉ entries.map Prod.fst) :
    setEntry collection members entries = entries ++ [(collection, members)] := by
  induction entries with
  | nil => rfl
  | cons entry rest ih =>
    rw [List.map_cons, List.mem_cons, not_or] at h
    rw [setEntry, if_neg fun heq => h.1 heq.symm, ih h.2, List.cons_append]

/-- Entries with keys of their own that are written one after the other stand as they were. -/
theorem entries_foldl_replace {entries : List (Int × List Member)} (known : Memberships)
    (h : ((known.entries ++ entries).map Prod.fst).Nodup) :
    (entries.foldl (fun m entry => m.replace entry.1 entry.2) known).entries =
      known.entries ++ entries := by
  induction entries generalizing known with
  | nil => simp
  | cons entry rest ih =>
    have hnew : entry.1 ∉ known.entries.map Prod.fst := by
      rw [List.map_append, List.nodup_append] at h
      exact fun hmem => h.2.2 entry.1 hmem entry.1 List.mem_cons_self rfl
    have hentries : (known.replace entry.1 entry.2).entries = known.entries ++ [entry] :=
      setEntry_of_not_mem hnew
    rw [List.foldl_cons, ih, hentries, List.append_assoc, List.singleton_append]
    rw [hentries, List.append_assoc, List.singleton_append]
    exact h

theorem eq_of_entries_eq {m n : Memberships} (h : m.entries = n.entries) : m = n := by
  cases m
  cases n
  cases h
  rfl

/-- Memberships whose members are written as plain numbers are the same when they are written
again. -/
theorem IsPlain.rewritten {m : Memberships} (h : m.IsPlain) :
    m.entries.foldl (fun known entry =>
      known.replace entry.1 (entry.2.map fun member => Member.ofId member.id)) empty = m := by
  have hplain : ∀ entry ∈ m.entries, ∀ known : Memberships,
      known.replace entry.1 (entry.2.map fun member => Member.ofId member.id) =
        known.replace entry.1 entry.2 := by
    intro entry hentry known
    have hsame : entry.2.map (fun member => Member.ofId member.id) = entry.2.map id :=
      List.map_congr_left fun member hmember => (h entry hentry member hmember).symm
    rw [hsame, List.map_id]
  apply eq_of_entries_eq
  rw [List.foldl_ext _ _ empty fun known entry hentry => hplain entry hentry known]
  exact entries_foldl_replace empty m.distinct

end Memberships

namespace Store

variable {s : Store}

/-- The store is built from products, collections and memberships: from records, or from files. -/
inductive IsBuilt : Store → Prop
  | ofRecords {raw : Option RawTable} {collections : List Fields} {memberships : Fields} {s : Store}
    {reader : MomentReader} (h : build raw collections memberships reader = .ok s) : IsBuilt s
  | ofFiles {files : CatalogFiles} {reader : MomentReader} {s : Store}
    (h : Store.ofFiles files reader = .ok s) : IsBuilt s

/-- The memberships of a store that is built from records are those of its fields. -/
theorem memberships_of_build {raw : Option RawTable} {collections : List Fields}
    {memberships : Fields} {reader : MomentReader}
    (h : build raw collections memberships reader = .ok s) :
    Memberships.ofFields memberships = .ok s.memberships := by
  have hparts : ∀ {table : Table}, (do
      let collections ← collections.mapM Collection.ofRow
      let memberships ← Memberships.ofFields memberships
      return ofParts table collections memberships) = Except.ok s →
      Memberships.ofFields memberships = .ok s.memberships := by
    intro table h
    obtain ⟨collections, -, h⟩ := bind_eq_ok.1 h
    obtain ⟨memberships, hmemberships, h⟩ := bind_eq_ok.1 h
    cases h
    exact hmemberships
  cases raw with
  | none => exact hparts h
  | some raw =>
    obtain ⟨table, -, h⟩ := bind_eq_ok.1 h
    exact hparts h

theorem isPlain_of_isBuilt (h : s.IsBuilt) : s.memberships.IsPlain := by
  cases h with
  | ofRecords h => exact Memberships.isPlain_ofFields (memberships_of_build h)
  | ofFiles h =>
    obtain ⟨-, -, sheet, -, -, -, -, -, hmemberships, -⟩ := ofFiles_eq_ok.1 h
    cases sheet with
    | none =>
      rw [← Except.ok.inj hmemberships]
      exact Memberships.isPlain_empty
    | some sheet => exact Memberships.isPlain_ofSheet hmemberships

/-! ## Stores built again -/

/-- A store in which every member is written as a plain number can be built again, and the store
that this gives is alike. -/
theorem exists_restored_alike (h : s.memberships.IsPlain) :
    ∃ t, s.restored = .ok t ∧ Alike s t :=
  ⟨_, s.restored_eq_ofParts, rfl, h.rewritten, s.gatherCollections_listCollections_perm⟩

/-- Moving members to the front by ids writes them as plain numbers. -/
theorem isPlain_moveToFront {current : List Member}
    (h : ∀ member ∈ current, member = .ofId member.id) (ids : List Int) :
    ∀ member ∈ moveToFront current (ids.map .int), member = .ofId member.id := by
  intro member hmember
  rw [moveToFront_eq] at hmember
  rcases List.mem_append.1 ((firstsBy_sublist _).subset hmember) with hnamed | hcurrent
  · obtain ⟨value, hvalue, hnamed⟩ := List.mem_filterMap.1 hnamed
    obtain ⟨n, -, rfl⟩ := List.mem_map.1 hvalue
    obtain ⟨found, hfound, rfl⟩ := Option.map_eq_some_iff.1 hnamed
    have hid : found.id = n := Value.equals_int.1 (List.find?_some hfound :)
    rw [hid]
    rfl
  · exact h member hcurrent

theorem isPlain_sync (h : s.memberships.IsPlain) (faults : Faults) (c : Collection) :
    (s.sync faults c).1.memberships.IsPlain := by
  rw [sync_fst]
  cases s.freshIds? faults c with
  | none => exact h
  | some ids => exact h.replace (Memberships.isPlain_map_ofId ids) c.id

theorem isPlain_syncEach (h : s.memberships.IsPlain) (faults : Int → Faults)
    (cs : List Collection) : (syncEach faults s cs).1.memberships.IsPlain := by
  induction cs generalizing s with
  | nil => exact h
  | cons c rest ih =>
    have hfirst := isPlain_sync h (faults c.id) c
    rcases syncEach_cons faults s c rest with hsync | hsync
    · rw [hsync]
      exact hfirst
    · rw [hsync]
      exact ih hfirst

/-- Operations keep every member written as a plain number. -/
theorem isPlain_perform (h : s.memberships.IsPlain) (op : Operation) :
    (s.perform op).1.memberships.IsPlain := by
  cases op with
  | sync id faults =>
    rcases s.syncById_int faults id with ⟨failure, hsync⟩ | ⟨c, -, -, hsync⟩
    · simp only [perform, hsync]
      exact h
    · simp only [perform, hsync]
      exact isPlain_sync h faults c
  | syncAll faults =>
    simp only [perform, syncAll_fst]
    exact isPlain_syncEach h faults _
  | reorder id productIds faults =>
    rcases s.reorder_int faults id productIds with hsame | ⟨c, -, -, -, hreorder⟩
    · simp only [perform, hsame]
      exact h
    · simp only [perform, hreorder]
      exact h.replace (isPlain_moveToFront (h.members id) productIds) id
  | reload =>
    obtain ⟨t, ht, halike⟩ := exists_restored_alike h
    simp only [perform, ht]
    rw [halike.memberships_eq]
    exact h
  | page | statistics | ruleOptions | related | suggested => exact h

theorem isPlain_run (h : s.memberships.IsPlain) (ops : List Operation) :
    (s.run ops).memberships.IsPlain := by
  induction ops generalizing s with
  | nil => exact h
  | cons op ops ih =>
    rw [run_cons]
    exact ih (isPlain_perform h op)

/-- After any operations, a store that was built from products, collections and memberships can be
built again. The store that this gives has the same rows, collections and memberships, and gives the
same answers to whatever is asked of it from then on. A table is read back from its own raw form, in
whichever way moments are read from texts, and a collection from its own record. -/
theorem restored_answers (h : s.IsBuilt) (ops : List Operation) :
    ∃ t, (s.run ops).restored = .ok t ∧ t.table = (s.run ops).table ∧
      t.collections.Perm (s.run ops).collections ∧ t.memberships = (s.run ops).memberships ∧
      (∀ requests, t.answers requests = (s.run ops).answers requests) ∧
      (∀ reader raw table, Table.ofRaw raw reader = .ok table →
        Table.ofRaw table.toRaw reader = .ok table) ∧
      ∀ c : Collection, Collection.ofRow c.toFields = .ok c := by
  obtain ⟨t, ht, halike⟩ := exists_restored_alike (isPlain_run (isPlain_of_isBuilt h) ops)
  exact ⟨t, ht, halike.table_eq, halike.collections_perm, halike.memberships_eq,
    fun requests => Alike.answers_eq requests halike, fun reader _ table _ => table.ofRaw_toRaw reader,
    Collection.ofRow_toFields⟩

/-- Products as they arrive: unsorted, with a price that is no number and cells that are missing. -/
def shelf : RawTable where
  columns := [("id", [.value (.int 3), .value (.int 1), .value (.int 2)]),
    ("price", [.value (.text "7.5"), .value (.text "free"), .value (.int 4)]),
    ("vendor", [.value (.text "Acme"), .null, .value (.text "Acme")]),
    ("tags", [.value (.text "blue, tin"), .null, .value (.list [.text "red"])])]
  height := 3

/-- A smart collection with a rule object, one with a rule text, and a manual one. -/
def shelfCollections : List Fields :=
  [[("id", .int 20), ("is_smart", .bool true),
      ("rule", .object [("type", .text "vendor"), ("value", .text "Acme")])],
    [("id", .int 10), ("is_smart", .bool true), ("rule", .text "all of it")],
    [("id", .int 30), ("title", .text "Window")]]

/-- What is done to the store: a sync, a reordering of the manual collection, and a reload. -/
def shelfOperations : List Operation := [.syncAll fun _ => .none, .reorder 30 [2] .none, .reload]

/-- The smart collections are synced and kept, as are the new order and a collection without
members. -/
theorem restored_answers_shelf :
    ∃ s t, build (some shelf) shelfCollections [("30", .list [.int 1, .int 2]), ("7", .list [])] =
        .ok s ∧
      (s.run shelfOperations).restored = .ok t ∧
      (∀ requests, t.answers requests = (s.run shelfOperations).answers requests) ∧
      [7, 10, 20, 30].map t.memberIds? = [some [], none, some [2, 3], some [2, 1]] := by
  have hmembers : (build (some shelf) shelfCollections
      [("30", .list [.int 1, .int 2]), ("7", .list [])]).toOption.map
        (fun s => [7, 10, 20, 30].map (s.run shelfOperations).memberIds?) =
      some [some [], none, some [2, 3], some [2, 1]] := by
    decide +kernel
  cases hs : build (some shelf) shelfCollections
      [("30", .list [.int 1, .int 2]), ("7", .list [])] with
  | error failure =>
    rw [hs] at hmembers
    cases hmembers
  | ok s =>
    rw [hs] at hmembers
    obtain ⟨t, ht, -, -, hmemberships, hanswers, -⟩ :=
      restored_answers (.ofRecords hs) shelfOperations
    refine ⟨s, t, rfl, ht, hanswers, ?_⟩
    have hsame : t.memberIds? = (s.run shelfOperations).memberIds? := by
      funext key
      unfold memberIds?
      rw [hmemberships]
    rw [hsame]
    exact Option.some.inj hmembers

end Store

end Storefront
