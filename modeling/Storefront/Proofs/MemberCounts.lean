import Mathlib.Data.Finset.Card
import Storefront.Proofs.CommandRuns
import Storefront.Proofs.MovingToFront

/-!
# How many members a collection has

The statistics of a collection count its members as they are stored; its pages list those that the
catalog has, each once. The counts agree if and only if the members are different products of the
catalog. Every write of the engine leaves members without repetition, and what it writes for the rule
of a smart collection is in the catalog, so members that are different products stay so in every run.

* `Store.AreProducts`, `Store.IsListing.length_eq_iff`: members that are counted as they are listed
* `Store.nodup_or_eq_of_perform`: what one operation leaves has no member twice, or is as it was
* `Store.areProducts_perform`, `Store.areProducts_run`: members that are products stay so
* `Store.statistics_of_run`: the count and the listing after any operations
-/

namespace Storefront

namespace Store

variable {s s' : Store} {c : Collection} {ids : List Int} {listing : List Product}

/-! ## Counted and listed -/

/-- Members are different products of the catalog. -/
structure AreProducts (s : Store) (ids : List Int) : Prop where
  nodup : ids.Nodup
  known : ∀ id ∈ ids, id ∈ s.table.rows.map (·.id)

/-- Members that are products are listed as they are. -/
theorem IsListing.ids_eq (h : s.IsListing ids listing) (hids : s.AreProducts ids) :
    listing.map (·.id) = ids := by
  rw [h.ids_eq_filter hids.nodup, List.filter_eq_self]
  exact fun id hid => decide_eq_true (hids.known id hid)

theorem IsListing.subperm (h : s.IsListing ids listing) : (listing.map (·.id)).Subperm ids :=
  h.nodup.subperm fun id hid => ((h.mem_iff id).1 hid).1

/-- No more products are listed than there are members. -/
theorem IsListing.length_le (h : s.IsListing ids listing) : listing.length ≤ ids.length := by
  have hlength := h.subperm.length_le
  rwa [List.length_map] at hlength

/-- As many products are listed as there are members if and only if the members are different products
of the catalog. -/
theorem IsListing.length_eq_iff (h : s.IsListing ids listing) :
    ids.length = listing.length ↔ s.AreProducts ids := by
  constructor
  · intro hlength
    have hperm : (listing.map (·.id)).Perm ids :=
      h.subperm.perm_of_length_le (by rw [hlength, List.length_map])
    exact ⟨hperm.nodup_iff.1 h.nodup, fun id hid => ((h.mem_iff id).1 (hperm.mem_iff.2 hid)).2⟩
  · intro hids
    rw [← h.ids_eq hids, List.length_map]

/-- The statistics of a collection count its members. -/
theorem statistics_eq (hc : c ∈ s.collections) :
    s.statistics (.int c.id) = .ok ⟨c.id, (s.memberIds c.id).length, c.isSmart⟩ := by
  unfold statistics
  rw [requireCollection_of_mem hc, memberIds_eq_map, List.length_map]
  rfl

/-! ## Operations -/

/-- What the rule of a collection evaluates to are different products of the catalog. -/
theorem areProducts_of_isEvaluated {key : Int} (h : s.IsEvaluated c (s'.memberIds? key)) :
    s.AreProducts (s'.memberIds key) := by
  obtain ⟨p, warnings, evaluated, hcompile, hevaluate, hids⟩ := h
  have hmembers : s'.memberIds key = evaluated := by
    unfold memberIds
    rw [hids]
    rfl
  rw [hmembers, eq_of_evaluate (Rule.check_compile hcompile) hevaluate]
  refine ⟨(s.pairwise_matchingRows p).imp Int.ne_of_lt, fun id hid => ?_⟩
  exact (List.filter_sublist.map _).subset hid

/-- Syncs leave members without repetition, or as they were. -/
theorem Evolves.nodup_or_eq (h : Evolves s s') (key : Int) :
    s'.memberIds? key = s.memberIds? key ∨ (s'.memberIds key).Nodup := by
  by_cases hsmart : ∃ c ∈ s.collections, c.id = key ∧ c.isSmart = true
  · obtain ⟨c, hc, rfl, hsmart⟩ := hsmart
    exact (h.synced c hc hsmart).imp_right fun hevaluated =>
      (areProducts_of_isEvaluated hevaluated).nodup
  · refine .inl (h.kept key fun c hc hid => ?_)
    exact Bool.eq_false_of_not_eq_true fun hc' => hsmart ⟨c, hc, hid, hc'⟩

/-- An operation leaves members without repetition, or as they were. -/
theorem nodup_or_eq_of_perform (s : Store) (op : Operation) (key : Int) :
    (s.perform op).1.memberIds? key = s.memberIds? key ∨
      ((s.perform op).1.memberIds key).Nodup := by
  cases op with
  | sync id faults =>
    rcases s.syncById_int faults id with ⟨failure, hsync⟩ | ⟨c, hc, -, hsync⟩
    · simp only [perform, hsync]
      exact .inl trivial
    · simp only [perform, hsync]
      exact (evolves_sync hc faults).nodup_or_eq key
  | syncAll faults =>
    simp only [perform, syncAll_fst]
    exact (evolves_syncEach faults fun c hc => mem_listCollections hc).nodup_or_eq key
  | reorder id productIds faults =>
    rcases s.reorder_int faults id productIds with hsame | ⟨c, hc, rfl, -, hreorder⟩
    · exact .inl (congrArg (memberIds? · key) hsame)
    · have hmoved : (s.perform (.reorder c.id productIds faults)).1 =
          s.withMoved c.id productIds := congrArg Prod.fst hreorder
      rw [hmoved]
      by_cases hkey : key = c.id
      · rw [hkey, memberIds_withMoved]
        exact .inr (nodup_firstsBy_id _)
      · unfold memberIds?
        rw [members?_withMoved_of_ne hkey]
        exact .inl rfl
  | reload =>
    obtain ⟨restored, hrestored, -, -, hmembers⟩ := s.exists_restored
    simp only [perform, hrestored]
    exact .inl (hmembers key)
  | page | statistics | ruleOptions | related | suggested => exact .inl rfl

/-- Members that are different products of the catalog stay so in an operation. -/
theorem areProducts_perform {key : Int} (h : s.AreProducts (s.memberIds key)) (op : Operation) :
    (s.perform op).1.AreProducts ((s.perform op).1.memberIds key) := by
  have hfollows := s.follows_perform op
  constructor
  · rcases s.nodup_or_eq_of_perform op key with hsame | hnodup
    · rw [memberIds_eq hsame]
      exact h.nodup
    · exact hnodup
  · intro id hid
    rw [hfollows.table_eq]
    rcases hfollows.members key with hsame | ⟨c, -, -, -, hevaluated⟩ | ⟨c, -, -, -, hset⟩
    · rw [memberIds_eq hsame] at hid
      exact h.known id hid
    · exact (areProducts_of_isEvaluated hevaluated).known id hid
    · exact h.known id ((hset id).1 hid)

/-- Members that are different products of the catalog stay so in a run. -/
theorem areProducts_run {key : Int} (h : s.AreProducts (s.memberIds key)) (ops : List Operation) :
    (s.run ops).AreProducts ((s.run ops).memberIds key) := by
  induction ops generalizing s with
  | nil => exact h
  | cons op ops ih =>
    rw [run_cons]
    exact ih (areProducts_perform h op)

/-! ## Reordering -/

/-- A collection is put in order, and is then a manual one, or the store is as it was. -/
theorem reorder_cases (hc : c ∈ s.collections) (faults : Faults) (given : List Int) :
    (s.reorder faults (.int c.id) (.list (given.map .int)) = (s.withMoved c.id given, .ok true)) ∨
      ((s.reorder faults (.int c.id) (.list (given.map .int))).1 = s ∧
        (s.reorder faults (.int c.id) (.list (given.map .int))).2 ≠ .ok true) := by
  by_cases hdone : (s.reorder faults (.int c.id) (.list (given.map .int))).2 = .ok true
  · obtain ⟨-, hmoved⟩ := withMoved_of_reorder hc (Prod.ext rfl hdone :
      s.reorder faults (.int c.id) (.list (given.map .int)) = (_, .ok true))
    exact .inl (Prod.ext hmoved hdone)
  · rcases s.reorder_int faults c.id given with hsame | ⟨-, -, -, -, hreorder⟩
    · exact .inr ⟨hsame, hdone⟩
    · exact absurd (congrArg Prod.snd hreorder) hdone

theorem toFinset_withMoved (s : Store) (collection : Int) (given : List Int) :
    ((s.withMoved collection given).memberIds collection).toFinset =
      (s.memberIds collection).toFinset := by
  ext id
  rw [List.mem_toFinset, List.mem_toFinset, mem_memberIds_withMoved]

/-- Members that are moved to the front are as many as there are different ones. -/
theorem length_withMoved (s : Store) (collection : Int) (given : List Int) :
    ((s.withMoved collection given).memberIds collection).length =
      (s.memberIds collection).toFinset.card := by
  have hids := s.memberIds_withMoved collection given
  have hnodup : ((s.withMoved collection given).memberIds collection).Nodup := by
    rw [hids]
    exact nodup_firstsBy_id _
  rw [← List.toFinset_card_of_nodup hnodup]
  rw [toFinset_withMoved]

/-- A collection that is put in order lists as many products as before. Its count becomes that of its
different members, and so is the same if none was repeated. -/
structure CountsReordered (s t : Store) (c : Collection) (listing : List Product) (count : Nat)
    (outcome : Except Failure Bool) : Prop where
  lists : ∃ after, t.Shows c.id after ∧ after.length = listing.length
  counts : ∃ recount, t.statistics (.int c.id) = .ok ⟨c.id, recount, c.isSmart⟩ ∧
    (outcome = .ok true → recount = (s.memberIds c.id).toFinset.card) ∧
    ((s.memberIds c.id).Nodup → recount = count)
  kept : outcome ≠ .ok true → t = s

theorem countsReordered (hc : c ∈ s.collections) (hlisting : s.Shows c.id listing)
    (hlists : s.IsListing (s.memberIds c.id) listing)
    (hread : ∀ row ∈ s.table.rows, row.id ∈ s.memberIds c.id → ∃ p, row.toProduct = .ok p)
    (faults : Faults) (given : List Int) :
    s.CountsReordered (s.reorder faults (.int c.id) (.list (given.map .int))).1 c listing
      (s.memberIds c.id).length (s.reorder faults (.int c.id) (.list (given.map .int))).2 := by
  rcases s.reorder_cases hc faults given with hmoved | ⟨hsame, houtcome⟩
  · rw [hmoved]
    obtain ⟨after, hafter, hlistsafter⟩ := exists_shows_withMoved hc hread given
    have hcard := s.length_withMoved c.id given
    have hstatistics : (s.withMoved c.id given).statistics (.int c.id) =
        .ok ⟨c.id, ((s.withMoved c.id given).memberIds c.id).length, c.isSmart⟩ := statistics_eq hc
    refine ⟨⟨after, hafter, ?_⟩, ⟨_, hstatistics, fun _ => hcard, fun hnodup => ?_⟩,
      fun hnot => absurd rfl hnot⟩
    · rw [hlistsafter.length_eq, hlists.length_eq, toFinset_withMoved]
      rfl
    · rw [hcard, List.toFinset_card_of_nodup hnodup]
  · rw [hsame]
    exact ⟨⟨listing, hlisting, rfl⟩, ⟨_, statistics_eq hc, fun hdone => absurd hdone houtcome,
      fun _ => rfl⟩, fun _ => rfl⟩

/-- After any operations the pages of a collection list no more products than its statistics count, and
as many if and only if the members are different products of the catalog: if they were so to begin
with, or if the collection is smart and was synced. However it is put in order, it lists as many
products, and its count is then that of the different members, and the same if none was repeated. -/
theorem statistics_of_run (s : Store) (ops : List Operation) (hc : c ∈ s.collections)
    (hread : ∀ row ∈ s.table.rows, row.id ∈ (s.run ops).memberIds c.id →
      ∃ p, row.toProduct = .ok p) :
    ∃ listing count, (s.run ops).Shows c.id listing ∧
      (s.run ops).statistics (.int c.id) = .ok ⟨c.id, count, c.isSmart⟩ ∧
      listing.length ≤ count ∧
      (count = listing.length ↔ (s.run ops).AreProducts ((s.run ops).memberIds c.id)) ∧
      (s.AreProducts (s.memberIds c.id) → count = listing.length) ∧
      (c.isSmart = true →
        (s.run ops).memberIds? c.id = s.memberIds? c.id ∨ count = listing.length) ∧
      ∀ (faults : Faults) (given : List Int),
        (s.run ops).CountsReordered
          ((s.run ops).reorder faults (.int c.id) (.list (given.map .int))).1 c listing count
          ((s.run ops).reorder faults (.int c.id) (.list (given.map .int))).2 := by
  have hfollows := s.follows_run ops
  have hcafter : c ∈ (s.run ops).collections := hfollows.collections_perm.mem_iff.2 hc
  have hreadafter : ∀ row ∈ (s.run ops).table.rows, row.id ∈ (s.run ops).memberIds c.id →
      ∃ p, row.toProduct = .ok p := by
    rw [hfollows.table_eq]
    exact hread
  obtain ⟨listing, hlisting, hlists⟩ := exists_shows hcafter hreadafter
  refine ⟨listing, _, hlisting, statistics_eq hcafter, hlists.length_le, hlists.length_eq_iff,
    fun hproducts => hlists.length_eq_iff.2 (areProducts_run hproducts ops), fun hsmart => ?_,
    fun faults given => countsReordered hcafter hlisting hlists hreadafter faults given⟩
  rcases hfollows.members c.id with hsame | ⟨d, -, -, -, hevaluated⟩ | ⟨d, hd, hid, hmanual, -⟩
  · exact .inl hsame
  · obtain ⟨hnodup, hknown⟩ := areProducts_of_isEvaluated hevaluated
    refine .inr (hlists.length_eq_iff.2 ⟨hnodup, ?_⟩)
    rw [hfollows.table_eq]
    exact hknown
  · cases collection_eq_of_id_eq hd hc hid
    cases hmanual.symm.trans hsmart

/-- Five members are counted and three products listed; of the members that are put in order four are
left, as many as there are different ones. -/
theorem statistics_of_run_gappy :
    ∃ before count listing recount, gappy.Shows 10 before ∧ before.length = 3 ∧
      gappy.statistics (.int 10) = .ok ⟨10, count, false⟩ ∧ count = 5 ∧
      (gappy.run [.reorder 10 [2] .none]).Shows 10 listing ∧ listing.length = 3 ∧
      (gappy.run [.reorder 10 [2] .none]).statistics (.int 10) = .ok ⟨10, recount, false⟩ ∧
      recount = 4 := by
  have hc : ({ id := 10 } : Collection) ∈ gappy.collections := List.mem_singleton_self _
  have hread : ∀ ids : List Int, ∀ row ∈ gappy.table.rows, row.id ∈ ids →
      ∃ p, row.toProduct = .ok p := fun _ row hrow _ => Table.exists_product_acme hrow
  obtain ⟨before, count, hbefore, hcount, -⟩ := statistics_of_run gappy [] hc (hread _)
  obtain ⟨listing, recount, hlisting, hrecount, -⟩ :=
    statistics_of_run gappy [.reorder 10 [2] .none] hc (hread _)
  have hfive : gappy.statistics (.int 10) = .ok ⟨10, 5, false⟩ := statistics_eq hc
  have hfour : (gappy.run [.reorder 10 [2] .none]).statistics (.int 10) = .ok ⟨10, 4, false⟩ := rfl
  have hmoved : listing.map (·.id) = [2, 3, 1] :=
    hlisting.ids_eq (by decide +kernel : ((gappy.run [.reorder 10 [2] .none]).page (.int 10)
      (.int 1) (.int 9)).toOption.map (·.map (·.id)) = some [2, 3, 1]) (by decide)
  refine ⟨before, count, listing, recount, hbefore, ?_, hcount, ?_, hlisting, ?_, hrecount, ?_⟩
  · simpa using congrArg List.length (ids_of_shows_gappy hbefore)
  · cases hcount.symm.trans hfive
    rfl
  · simpa using congrArg List.length hmoved
  · cases hrecount.symm.trans hfour
    rfl

/-- A collection that lists one product twice, and one that the catalog does not have. -/
def overcounted? : Except Failure Store :=
  build (some (.ofRecords [[("id", .value (.int 1)), ("price", .value (.int 1))]]))
    [[("id", .int 10)]] [("10", .list [.int 1, .int 1, .int 99])]

/-- The count is not that of the products that are listed where a member is repeated or is not in the
catalog, and it changes when a member is repeated and the collection is put in order. -/
theorem not_forall_count_eq_length :
    ¬∀ (s : Store) (ops : List Operation) (c : Collection), s.IsBuilt → c ∈ s.collections →
      (∀ row ∈ s.table.rows, ∃ p, row.toProduct = .ok p) →
      ∃ listing, (s.run ops).Shows c.id listing ∧
        (s.run ops).statistics (.int c.id) = .ok ⟨c.id, listing.length, c.isSmart⟩ ∧
        ∀ (faults : Faults) (given : List Int),
          ((s.run ops).reorder faults (.int c.id) (.list (given.map .int))).1.statistics
            (.int c.id) = (s.run ops).statistics (.int c.id) := by
  intro h
  obtain ⟨s, c, hs, hc, hid, hread, hids⟩ := exists_shown
    (by decide +kernel : overcounted?.toOption.map (outline · 10 9) = some ([10], true, some [1]))
    (by decide)
  have hmembers : overcounted?.toOption.map (fun s => (s.memberIds 10).length) = some 3 := by
    decide +kernel
  rw [hs] at hmembers
  obtain ⟨listing, hlisting, hcount, -⟩ := h s [] c (.ofRecords hs) hc hread
  have hlength : (s.memberIds c.id).length = listing.length :=
    congrArg Statistics.productCount (Except.ok.inj ((statistics_eq hc).symm.trans hcount))
  have hlisted : listing.length = 1 := by
    simpa using congrArg List.length (hids listing hlisting)
  rw [hid, hlisted] at hlength
  cases (Option.some.inj hmembers).symm.trans hlength

end Store

end Storefront
