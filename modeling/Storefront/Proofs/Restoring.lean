import Storefront.Catalog.Store

/-!
# Stores built again

A snapshot keeps the table of a store as raw cells, its collections as records and its memberships.
The store that is built from these parts has the same products and collections, and the same
members, each written as a plain number.

* `Table.ofRaw_toRaw`: the table of the raw cells of a table
* `Collection.ofRow_toFields`: the collection of the record of a collection
* `Store.exists_restored`: the store that is built again
-/

namespace Storefront

/-! ## Cells -/

namespace Table

theorem readNumber_rawCell {x : Option Binary64} (h : (Cell.ofNumber? x).isProper) :
    readNumber (rawCell (.ofNumber? x)) = .ok x := by
  cases x with
  | none => rfl
  | some x =>
    show Except.ok (present? x) = _
    rw [present?, Cell.isNan_of_isProper h]
    rfl

theorem readValue_rawCell {v : Option Value} (h : (Cell.ofValue? v).isProper) :
    readValue (rawCell (.ofValue? v)) = v := by
  cases v with
  | none => rfl
  | some v =>
    show readValue (.value v) = _
    rw [readValue, RawCell.isMissing, Cell.isMissing_of_isProper h]
    rfl

theorem readFlag_rawCell (b : Bool) : readFlag true (rawCell (.ofFlag b)).toValue = b := by
  cases b <;> rfl

/-! ## Columns -/

theorem columnShape_ints {ns : List Int} (h : ns ≠ []) :
    columnShape (ns.map fun n => .value (.int n)) = .wholes := by
  obtain ⟨n, rest, rfl⟩ := List.exists_cons_of_ne_nil h
  have hmissing : ((n :: rest).map fun n => RawCell.value (.int n)).all (·.isMissing) = false := rfl
  have hwhole : ((n :: rest).map fun n => RawCell.value (.int n)).all (·.isWhole) = true := by
    rw [List.all_map, List.all_eq_true]
    exact fun _ _ => rfl
  unfold columnShape
  rw [hmissing, hwhole]
  rfl

theorem word_eq_ok {n : Int} (h : isWord n) : word n = .ok n := if_pos h

theorem idsOfWholes_eq_ok {ns : List Int} (h : ∀ n ∈ ns, isWord n) : idsOfWholes ns = .ok ns := by
  unfold idsOfWholes
  split
  · have hsame : ∀ n ∈ ns, (if n < wordLimit then n else n - unsignedLimit) = id n := by
      intro n hn
      have hword := h n hn
      simp only [isWord, Bool.and_eq_true, decide_eq_true_eq] at hword
      exact if_pos hword.2
    rw [List.map_congr_left hsame, List.map_id]
  · have hwords : ns.mapM word = .ok (ns.map id) :=
      mapM_eq_ok_map fun n hn => word_eq_ok (h n hn)
    rw [hwords, List.map_id]

/-- Ids that fit into 64 bits are read as they are. -/
theorem readIds_ints {ns : List Int} (h : ∀ n ∈ ns, isWord n) :
    readIds (ns.map fun n => .value (.int n)) = .ok ns := by
  by_cases hne : ns = []
  · subst hne
    rfl
  · rw [readIds, columnShape_ints hne]
    show idsOfWholes _ = _
    rw [List.filterMap_map, ← idsOfWholes_eq_ok h]
    exact congrArg idsOfWholes List.filterMap_some

/-- Moments of one offset are read as they are. -/
theorem readMoments_rawCells {moments : List (Option Moment)} {offset : Option Int}
    (h : ∀ moment ∈ moments, ∀ m ∈ moment, m.offset = offset) (reader : MomentReader) :
    readMoments (moments.map fun m => rawCell (.ofMoment? m)) reader = .ok moments := by
  have hcell : ∀ form, (moments.map fun m => rawCell (.ofMoment? m)).map
      (momentOfCell? reader form) = moments := by
    intro form
    rw [List.map_map]
    have hid : ∀ m ∈ moments,
        (momentOfCell? reader form ∘ fun m => rawCell (.ofMoment? m)) m = id m := by
      intro m _
      cases m with
      | none => cases form <;> rfl
      | some m => rfl
    rw [List.map_congr_left hid, List.map_id]
  unfold readMoments
  simp only [hcell]
  split
  · rfl
  · rename_i first hfirst
    obtain ⟨moment, hmoment, hsome⟩ := List.exists_of_findSome?_eq_some hfirst
    have hfirstOffset : first.offset = offset := h moment hmoment first hsome
    have halike : (moments.map fun m => m.filter fun m => m.offset.isSome == first.offset.isSome) =
        moments := by
      have hid : ∀ m ∈ moments,
          (m.filter fun m => m.offset.isSome == first.offset.isSome) = id m := by
        intro m hm
        cases m with
        | none => rfl
        | some m => simp [h (some m) hm m rfl, hfirstOffset]
      rw [List.map_congr_left hid, List.map_id]
    rw [halike, if_pos]
    rw [List.all_eq_true]
    intro m hm
    cases m with
    | none => rfl
    | some m => simp [h (some m) hm m rfl, hfirstOffset]

/-! ## Tables -/

theorem cells_toRaw (t : Table) (column : Column) :
    t.toRaw.cells column = t.rows.map fun row => rawCell (row.cell column) := by
  cases column <;> rfl

theorem names_toRaw (t : Table) : t.toRaw.names = Column.all.map Column.name := by
  unfold toRaw RawTable.names
  rw [List.map_map]
  rfl

theorem fill_map {α β : Type} (set : Row → α → Row) (f : β → α) (g : β → Row) (xs : List β) :
    fill set (xs.map f) (xs.map g) = xs.map fun x => set (g x) (f x) := by
  unfold fill
  induction xs with
  | nil => rfl
  | cons x xs ih => rw [List.map_cons, List.map_cons, List.zipWith_cons_cons, ih, List.map_cons]

theorem readDistinctIds_toRaw (t : Table) : readDistinctIds t.toRaw = .ok (t.rows.map (·.id)) := by
  obtain ⟨offset, hnormal⟩ := t.normal
  have hids : readIds (t.toRaw.cells .id) = .ok (t.rows.map (·.id)) := by
    have hwords : ∀ n ∈ t.rows.map (·.id), isWord n := by
      intro n hn
      obtain ⟨row, hrow, rfl⟩ := List.mem_map.1 hn
      exact (hnormal row hrow).isWord_id
    rw [cells_toRaw, ← readIds_ints hwords, List.map_map]
    rfl
  have hnodup : hasRepetition (t.rows.map (·.id)) = false :=
    hasRepetition_eq_false.2 (List.pairwise_map.2 (t.ascending.imp fun h => Int.ne_of_lt h))
  have hnames : (requiredColumns.filter fun name => !t.toRaw.names.contains name) = [] := by
    rw [names_toRaw]
    decide
  unfold readDistinctIds
  rw [hnames]
  show (readIds (t.toRaw.cells .id) >>= _) = _
  rw [hids]
  show (if _ then _ else _) = _
  rw [hnodup]
  rfl

/-- The raw cells of a table are read back as its rows. -/
theorem readRows_toRaw (t : Table) (reader : MomentReader) :
    readRows t.toRaw reader = .ok t.rows := by
  obtain ⟨offset, hnormal⟩ := t.normal
  have hnumbers : ∀ (column : Column) (f : Row → Option Binary64),
      (∀ row : Row, row.cell column = .ofNumber? (f row)) →
      (t.toRaw.cells column).mapM readNumber = .ok (t.rows.map f) := by
    intro column f hf
    rw [cells_toRaw, List.mapM_map]
    refine mapM_eq_ok_map fun row hrow => ?_
    have hproper := (hnormal row hrow).isProper_cell column
    show readNumber (rawCell (row.cell column)) = _
    rw [hf row] at hproper ⊢
    exact readNumber_rawCell hproper
  have hvalues : ∀ (column : Column) (f : Row → Option Value),
      (∀ row : Row, row.cell column = .ofValue? (f row)) →
      (t.toRaw.cells column).map readValue = t.rows.map f := by
    intro column f hf
    rw [cells_toRaw, List.map_map]
    refine List.map_congr_left fun row hrow => ?_
    have hproper := (hnormal row hrow).isProper_cell column
    show readValue (rawCell (row.cell column)) = _
    rw [hf row] at hproper ⊢
    exact readValue_rawCell hproper
  have htags : (t.toRaw.cells .tags).mapM readTags = .ok (t.rows.map (·.tags)) := by
    rw [cells_toRaw, List.mapM_map]
    exact mapM_eq_ok_map fun _ _ => rfl
  have hflags : (t.toRaw.cells .inStock).map (fun cell => readFlag true cell.toValue) =
      t.rows.map (·.inStock) := by
    rw [cells_toRaw, List.map_map]
    exact List.map_congr_left fun row _ => readFlag_rawCell row.inStock
  have hmoments : readMoments (t.toRaw.cells .createdAt) reader =
      .ok (t.rows.map (·.createdAt)) := by
    have hoffset : ∀ moment ∈ t.rows.map (·.createdAt), ∀ m ∈ moment, m.offset = offset := by
      intro moment hmoment
      obtain ⟨row, hrow, rfl⟩ := List.mem_map.1 hmoment
      exact (hnormal row hrow).offset_createdAt
    rw [cells_toRaw, ← readMoments_rawCells hoffset reader, List.map_map]
    rfl
  refine bind_eq_ok.2 ⟨_, readDistinctIds_toRaw t, ?_⟩
  refine bind_eq_ok.2 ⟨_, hnumbers .price (·.price) fun _ => rfl, ?_⟩
  refine bind_eq_ok.2 ⟨_, hnumbers .compareAtPrice (·.compareAtPrice) fun _ => rfl, ?_⟩
  refine bind_eq_ok.2 ⟨_, hnumbers .rating (·.rating) fun _ => rfl, ?_⟩
  refine bind_eq_ok.2 ⟨_, hnumbers .reviewCount (·.reviewCount) fun _ => rfl, ?_⟩
  refine bind_eq_ok.2 ⟨_, hnumbers .bestsellerScore (·.bestsellerScore) fun _ => rfl, ?_⟩
  refine bind_eq_ok.2 ⟨_, htags, bind_eq_ok.2 ⟨_, hmoments, ?_⟩⟩
  rw [hvalues .title (·.title) fun _ => rfl, hvalues .handle (·.handle) fun _ => rfl,
    hvalues .vendor (·.vendor) fun _ => rfl, hvalues .productType (·.productType) fun _ => rfl,
    hflags, List.map_map]
  simp only [fill_map]
  show Except.ok _ = Except.ok t.rows
  exact congrArg Except.ok (List.map_id t.rows)

theorem eq_of_rows_eq {t u : Table} (h : t.rows = u.rows) : t = u := by
  cases t
  cases u
  cases h
  rfl

theorem sortRows_of_ascending {rows : List Row} (h : rows.Pairwise fun r s => r.id < s.id) :
    sortRows rows = rows :=
  sortBy_eq_self (h.imp fun hlt => decide_eq_true (Int.le_of_lt hlt))

theorem ofRaw_of_readRows {raw : RawTable} {reader : MomentReader} {t : Table}
    (h : readRows raw reader = .ok t.rows) : ofRaw raw reader = .ok t := by
  unfold ofRaw
  split
  · rename_i e he
    cases h.symm.trans he
  · rename_i rows hrows
    cases h.symm.trans hrows
    exact congrArg Except.ok (eq_of_rows_eq (sortRows_of_ascending t.ascending))

/-- The raw cells of a table give the table. -/
theorem ofRaw_toRaw (t : Table) (reader : MomentReader) : ofRaw t.toRaw reader = .ok t :=
  ofRaw_of_readRows (t.readRows_toRaw reader)

end Table

/-! ## Collections -/

theorem Collection.ofRow_toFields (c : Collection) : ofRow c.toFields = .ok c := by
  obtain ⟨id, title, handle, isSmart, rule⟩ := c
  cases handle with
  | none =>
    cases rule with
    | none => rfl
    | some rule => cases rule <;> rfl
  | some handle =>
    cases rule with
    | none => rfl
    | some rule => cases rule <;> rfl

namespace Store

theorem insertCollection_of_not_mem {c : Collection} {known : List Collection}
    (h : c.id ∉ known.map (·.id)) : insertCollection c known = known ++ [c] := by
  induction known with
  | nil => rfl
  | cons d rest ih =>
    rw [List.map_cons, List.mem_cons, not_or] at h
    rw [insertCollection, if_neg fun hid => h.1 hid.symm, ih h.2, List.cons_append]

/-- Collections with ids of their own are gathered as they are. -/
theorem gatherCollections_of_nodup {collections : List Collection}
    (h : (collections.map (·.id)).Nodup) : gatherCollections collections = collections := by
  suffices hgather : ∀ known : List Collection, ((known ++ collections).map (·.id)).Nodup →
      collections.foldl (fun known c => insertCollection c known) known = known ++ collections from
    hgather [] h
  clear h
  induction collections with
  | nil => exact fun known _ => (List.append_nil known).symm
  | cons c rest ih =>
    intro known hnodup
    have hmem : c.id ∉ known.map (·.id) := by
      rw [List.map_append, List.nodup_append] at hnodup
      intro hmem
      exact hnodup.2.2 c.id hmem c.id (List.mem_map.2 ⟨c, List.mem_cons_self, rfl⟩) rfl
    rw [List.foldl_cons, insertCollection_of_not_mem hmem, ih]
    · rw [List.append_assoc, List.singleton_append]
    · rw [List.append_assoc, List.singleton_append]
      exact hnodup

/-- The ids of the members of a collection, if they were ever written. -/
def memberIds? (s : Store) (collection : Int) : Option (List Int) :=
  (s.memberships.members? collection).map fun members => members.map (·.id)

/-! ## Memberships -/

theorem members?_foldl_replace {f : List Member → List Member} {entries : List (Int × List Member)}
    (h : (entries.map Prod.fst).Nodup) (known : Memberships) (key : Int) :
    (entries.foldl (fun m entry => m.replace entry.1 (f entry.2)) known).members? key =
      ((entries.lookup key).map f).or (known.members? key) := by
  induction entries generalizing known with
  | nil => rfl
  | cons entry rest ih =>
    obtain ⟨k, members⟩ := entry
    obtain ⟨hk, hrest⟩ := List.nodup_cons.1 h
    rw [List.foldl_cons, ih hrest, Memberships.members?_replace, List.lookup_cons]
    by_cases hkey : key = k
    · have hnone : rest.lookup key = none := by
        rw [List.lookup_eq_none_iff]
        intro other hother
        have hne : key ≠ other.1 := fun heq => hk (hkey ▸ heq ▸ List.mem_map.2 ⟨other, hother, rfl⟩)
        simpa using hne
      rw [if_pos hkey, hnone, hkey, beq_self_eq_true]
      rfl
    · have hbeq : (key == k) = false := by simpa using hkey
      rw [if_neg hkey, hbeq]

/-! ## Stores -/

/-- A store is built again from its table, its collections in the order of their ids, and its members
written anew. -/
theorem restored_eq_ofParts (s : Store) : s.restored = .ok (ofParts s.table (s.listCollections false)
    (s.memberships.entries.foldl (fun known entry =>
      known.replace entry.1 (entry.2.map fun m => Member.ofId m.id)) Memberships.empty)) := by
  have hcollections : (s.listCollections false).mapM (fun c => Collection.ofRow c.toFields) =
      .ok ((s.listCollections false).map id) :=
    mapM_eq_ok_map fun c _ => c.ofRow_toFields
  rw [List.map_id] at hcollections
  exact bind_eq_ok.2 ⟨_, s.table.ofRaw_toRaw _, bind_eq_ok.2 ⟨_, hcollections, rfl⟩⟩

/-- The collections in the order of their ids are gathered without a loss. -/
theorem gatherCollections_listCollections_perm (s : Store) :
    (gatherCollections (s.listCollections false)).Perm s.collections := by
  have hperm : (s.listCollections false).Perm s.collections := sortBy_perm _ _
  rw [gatherCollections_of_nodup ((hperm.map _).nodup_iff.2 s.distinctIds)]
  exact hperm

/-- A store can always be built again. It then has the same table, the same collections in the order
of their ids, and the same members. -/
theorem exists_restored (s : Store) :
    ∃ s', s.restored = .ok s' ∧ s'.table = s.table ∧ s'.collections.Perm s.collections ∧
      ∀ key, s'.memberIds? key = s.memberIds? key := by
  refine ⟨_, s.restored_eq_ofParts, rfl, s.gatherCollections_listCollections_perm, fun key => ?_⟩
  show Option.map _ (Memberships.members? _ key) = _
  dsimp only [ofParts]
  rw [members?_foldl_replace s.memberships.distinct]
  show Option.map _ (((s.memberships.members? key).map _).or none) = _
  rw [Option.or_none, Option.map_map]
  unfold memberIds?
  congr 1
  funext members
  simp [Member.ofId, Function.comp_def]

end Store

end Storefront
