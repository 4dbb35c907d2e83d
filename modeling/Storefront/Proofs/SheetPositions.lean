import Mathlib.Data.List.Pairwise
import Storefront.Catalog.Files
import Storefront.Proofs.MovingToFront

/-!
# Positions in a sheet of memberships

A sheet of memberships says at which position a product stands in a collection. The positions are not
kept: loading sorts the lines by them, stably, and keeps the products in that order, and a listing has
its products in the order of the members. What is listed is therefore in order of position, and where
positions are equal, in the order of the lines of the sheet.

* `Placement`, `CatalogFile.placements?`: lines of a sheet whose cells are whole numbers
* `Placement.Before`, `Placement.Precedes`: the order of lines, and that of descending ids
* `exists_membershipsOfSheet`: the members that a sheet of placements gives a collection
* `Store.ofFiles_with_memberships`: the store of the same files with other memberships
* `Store.IsListedBy`, `Store.exists_listed`: the placements behind a listing
* `Store.shows_in_order_of_position`: what is listed, whatever the order of the lines
-/

namespace Storefront

/-! ## Placements -/

/-- A line of a sheet of memberships in which every cell is a whole number. -/
structure Placement where
  collection : Int
  product : Int
  position : Int
deriving DecidableEq

namespace Placement

/-- The line of a sheet that has the numbers of a placement. -/
def toLine (p : Placement) : MembershipLine := ⟨.int p.collection, .int p.product, .int p.position⟩

/-- The placement that a line is, if its cells are whole numbers. -/
def ofLine? : MembershipLine → Option Placement
  | ⟨.int collection, .int product, .int position⟩ => some ⟨collection, product, position⟩
  | _ => none

theorem toLine_of_ofLine? {line : MembershipLine} {p : Placement} (h : ofLine? line = some p) :
    p.toLine = line := by
  unfold ofLine? at h
  split at h
  · cases h
    rfl
  · cases h

/-- Lines that are placements are the lines of the placements. -/
theorem eq_map_toLine {lines : List MembershipLine} {placements : List Placement}
    (h : lines.mapM ofLine? = some placements) : lines = placements.map toLine := by
  induction lines generalizing placements with
  | nil =>
    cases h
    rfl
  | cons line lines ih =>
    rw [List.mapM_cons, Option.bind_eq_bind, Option.bind_eq_some_iff] at h
    obtain ⟨p, hp, h⟩ := h
    obtain ⟨rest, hrest, h⟩ := Option.bind_eq_some_iff.1 h
    cases h
    rw [List.map_cons, toLine_of_ofLine? hp, ← ih hrest]

/-- Placements in order of position, those of one position as they stand. -/
def byPosition (placements : List Placement) : List Placement :=
  sortBy (fun a b => decide (a.position ≤ b.position)) placements

/-- Placements of a collection in order of position, those of one position as they stand. -/
def inCollection (placements : List Placement) (collection : Int) : List Placement :=
  (byPosition placements).filter fun p => p.collection = collection

/-- A placement comes before another one in a sheet by its position, and by its line where the
positions are equal. -/
def Before (placements : List Placement) (p q : Placement) : Prop :=
  p.position < q.position ∨ p.position = q.position ∧ placements.idxOf p < placements.idxOf q

/-- A placement precedes another one by its position, and by the greater id where the positions are
equal. -/
def Precedes (p q : Placement) : Prop :=
  p.position < q.position ∨ p.position = q.position ∧ q.product < p.product

/-- No product is placed in a collection twice. -/
def Distinct (placements : List Placement) : Prop :=
  (placements.map fun p => (p.collection, p.product)).Nodup

section Order

variable {placements : List Placement} {collection : Int}

theorem mem_inCollection {p : Placement} :
    p ∈ inCollection placements collection ↔ p ∈ placements ∧ p.collection = collection := by
  rw [inCollection, List.mem_filter, byPosition, mem_sortBy, decide_eq_true_iff]

theorem inCollection_perm (placements : List Placement) (collection : Int) :
    (inCollection placements collection).Perm
      (placements.filter fun p => p.collection = collection) :=
  (sortBy_perm _ placements).filter _

theorem Distinct.perm {others : List Placement} (h : Distinct placements)
    (hperm : others.Perm placements) : Distinct others :=
  (hperm.map _).nodup_iff.2 h

/-- A collection has every product once where none is placed twice. -/
theorem Distinct.products (h : Distinct placements) (collection : Int) :
    ((inCollection placements collection).map (·.product)).Nodup := by
  have hpairs := h.perm (sortBy_perm (fun a b => decide (a.position ≤ b.position)) placements)
  refine List.pairwise_map.2 (((List.pairwise_map.1 hpairs).filter _).imp_of_mem
    fun {p q} hp hq hne heq => hne ?_)
  have hp := of_decide_eq_true (List.mem_filter.1 hp).2
  have hq := of_decide_eq_true (List.mem_filter.1 hq).2
  rw [hp, hq, heq]

/-- Placements that are put in order of position come before one another. -/
theorem Distinct.pairwise_byPosition (h : Distinct placements) :
    (byPosition placements).Pairwise (Before placements) := by
  have hlines : placements.Pairwise fun p q => placements.idxOf p < placements.idxOf q := by
    have hnodup : placements.Nodup := h.of_map _
    refine List.pairwise_iff_getElem.2 fun i j hi hj hij => ?_
    rwa [hnodup.idxOf_getElem i hi, hnodup.idxOf_getElem j hj]
  have hsorted : (byPosition placements).Pairwise fun p q =>
      decide (p.position ≤ q.position) = true ∧
        (decide (q.position ≤ p.position) = true → placements.idxOf p < placements.idxOf q) := by
    refine pairwise_sortBy_stable (P := fun _ => True) (fun p q _ _ => ?_)
      (fun p q r _ _ _ => ?_) (fun _ _ => trivial) hlines
    · simp only [decide_eq_true_eq]
      omega
    · simp only [decide_eq_true_eq]
      omega
  refine hsorted.imp fun {p q} hpq => ?_
  obtain ⟨hle, hties⟩ := hpq
  rcases Int.lt_or_eq_of_le (of_decide_eq_true hle) with hlt | heq
  · exact .inl hlt
  · exact .inr ⟨heq, hties (decide_eq_true (Int.le_of_eq heq.symm))⟩

end Order

section Ties

variable {placements listed others : List Placement}

/-- Placements in order of position and line are in order of position and descending id if and only if
those of one position have their lines in descending order of id. -/
theorem pairwise_precedes_iff (h : listed.Pairwise (Before placements)) :
    listed.Pairwise Precedes ↔ ∀ p ∈ listed, ∀ q ∈ listed, p.position = q.position →
      placements.idxOf p < placements.idxOf q → q.product < p.product := by
  constructor
  · intro hprecedes
    refine List.Pairwise.forall_of_forall_of_flip (fun p _ _ hlt => absurd hlt (Nat.lt_irrefl _))
      ((h.and hprecedes).imp ?_) (h.imp ?_)
    · rintro p q ⟨-, hpq⟩ heq -
      unfold Precedes at hpq
      omega
    · -- of two placements the earlier line does not stand behind
      intro p q hpq heq hlt
      unfold Before at hpq
      omega
  · intro hties
    refine h.imp_of_mem fun {p q} hp hq hbefore => hbefore.imp_right fun hlines => ?_
    exact ⟨hlines.1, hties p hp q hq hlines.1 hlines.2⟩

/-- Placements of different positions have one order only. -/
theorem eq_of_perm {lines : List Placement} (hperm : listed.Perm others)
    (hnodup : (listed.map (·.position)).Nodup) (hlisted : listed.Pairwise (Before placements))
    (hothers : others.Pairwise (Before lines)) : listed = others := by
  have hle {lines : List Placement} {p q : Placement} (h : Before lines p q) :
      p.position ≤ q.position := by
    unfold Before at h
    omega
  refine hperm.eq_of_pairwise (fun p q hp hq hpq hqp => ?_) (hlisted.imp hle) (hothers.imp hle)
  exact List.inj_on_of_nodup_map hnodup hp (hperm.mem_iff.2 hq) (Int.le_antisymm hpq hqp)

end Ties

end Placement

/-! ## Sheets -/

section Sheets

variable {sheet : Sheet} {placements : List Placement}

theorem comesBefore_int (m n : Int) : comesBefore (.int m) (.int n) = decide (m ≤ n) := by
  show (compare m n != .gt) = decide (m ≤ n)
  rw [Bool.eq_iff_iff, bne_iff_ne, decide_eq_true_iff, Int.compare_ne_gt]

theorem inOrderOfPosition_placements (placements : List Placement) :
    inOrderOfPosition (placements.map Placement.toLine) =
      (Placement.byPosition placements).map Placement.toLine := by
  unfold inOrderOfPosition Placement.byPosition
  rw [sortBy_map]
  simp only [Placement.toLine, comesBefore_int]

/-- The loop that gathers the collections of lines leaves whole numbers where they occur first. -/
theorem foldl_equals_int (keys : List Int) :
    (keys.map Value.int).foldl (fun seen v => if seen.any v.equals then seen else seen ++ [v]) [] =
      (firstsBy id keys).map Value.int := by
  have hloop (xs : List Int) (ys : List Int) :
      (ys.map Value.int).foldl (fun seen v => if seen.any v.equals then seen else seen ++ [v])
          (xs.map Value.int) = (ys.foldl (appendNew id) xs).map Value.int := by
    induction ys generalizing xs with
    | nil => rfl
    | cons y ys ih =>
      have hstep : (if (xs.map Value.int).any (Value.int y).equals then xs.map Value.int
          else xs.map Value.int ++ [.int y]) = (appendNew id xs y).map Value.int := by
        have hany : (xs.map Value.int).any (Value.int y).equals = xs.any fun x => id x = id y := by
          rw [List.any_map, Bool.eq_iff_iff, List.any_eq_true, List.any_eq_true]
          refine exists_congr fun x => and_congr_right fun _ => ?_
          rw [Function.comp_apply, Value.equals_int, decide_eq_true_iff]
          exact eq_comm
        rw [hany, appendNew]
        by_cases hseen : (xs.any fun x => id x = id y) = true
        · rw [if_pos hseen, if_pos hseen]
        · rw [if_neg hseen, if_neg hseen, List.map_append, List.map_singleton]
      rw [List.map_cons, List.foldl_cons, List.foldl_cons, hstep, ih]
  rw [← List.nil_append keys, ← foldl_appendNew [] keys]
  exact hloop [] keys

/-- The ids of the collections that placements are in, ascending. -/
def Placement.collections (placements : List Placement) : List Int :=
  firstsBy id (sortBy (fun m n => decide (m ≤ n)) ((byPosition placements).map (·.collection)))

theorem linesByCollection_placements (placements : List Placement) :
    linesByCollection (placements.map Placement.toLine) =
      (Placement.collections placements).map fun key =>
        (.int key, (Placement.inCollection placements key).map Placement.toLine) := by
  have hnamed : (inOrderOfPosition (placements.map Placement.toLine)).filter
      (!·.collection.isMissing) = (Placement.byPosition placements).map Placement.toLine := by
    rw [inOrderOfPosition_placements, List.filter_eq_self]
    intro line hline
    obtain ⟨p, -, rfl⟩ := List.mem_map.1 hline
    rfl
  have hkeys : ((Placement.byPosition placements).map Placement.toLine).map (·.collection) =
      ((Placement.byPosition placements).map (·.collection)).map Value.int := by
    rw [List.map_map, List.map_map]
    rfl
  unfold linesByCollection
  simp only [hnamed, hkeys]
  rw [sortBy_map]
  simp only [comesBefore_int]
  rw [foldl_equals_int, List.map_map]
  refine List.map_congr_left fun key _ => ?_
  rw [Function.comp_apply, List.filter_map]
  congr 2
  refine List.filter_congr fun p _ => ?_
  show (Value.int p.collection).equals (.int key) = decide (p.collection = key)
  rw [Bool.eq_iff_iff, Value.equals_int, decide_eq_true_iff]

/-- Members that are written for several collections are those of the collections, and no others. -/
theorem members?_foldl_replace_keys (f : Int → List Member) (keys : List Int) (m : Memberships)
    (key : Int) :
    (keys.foldl (fun m k => m.replace k (f k)) m).members? key =
      if key ∈ keys then some (f key) else m.members? key := by
  induction keys generalizing m with
  | nil => rfl
  | cons k keys ih =>
    rw [List.foldl_cons, ih, Memberships.members?_replace]
    by_cases hkey : key = k
    · simp [hkey]
    · simp [hkey]

/-- A sheet of placements gives a collection its products in order of position. -/
theorem exists_membershipsOfSheet (h : membershipLines sheet = placements.map Placement.toLine) :
    ∃ m, membershipsOfSheet sheet = .ok m ∧ ∀ key,
      (m.members key).map (·.id) = (Placement.inCollection placements key).map (·.product) := by
  have hmembers (key : Int) : ((Placement.inCollection placements key).map Placement.toLine).mapM
      (fun line => Member.ofId <$> idOfValue line.product) =
        .ok ((Placement.inCollection placements key).map fun p => Member.ofId p.product) := by
    rw [List.mapM_map]
    exact mapM_eq_ok_map fun _ _ => rfl
  refine ⟨(Placement.collections placements).foldl (fun m key => m.replace key
    ((Placement.inCollection placements key).map fun p => .ofId p.product)) .empty, ?_, ?_⟩
  · unfold membershipsOfSheet
    rw [h, linesByCollection_placements, List.foldlM_map]
    generalize Memberships.empty = m
    induction Placement.collections placements generalizing m with
    | nil => rfl
    | cons key keys ih =>
      rw [List.foldlM_cons, List.foldl_cons]
      exact bind_eq_ok.2 ⟨_, bind_eq_ok.2 ⟨_, rfl, bind_eq_ok.2 ⟨_, hmembers key, rfl⟩⟩, ih _⟩
  · intro key
    unfold Memberships.members
    rw [members?_foldl_replace_keys]
    by_cases hkey : key ∈ Placement.collections placements
    · rw [if_pos hkey, Option.getD_some, List.map_map]
      rfl
    · -- a collection that is not gathered has no placements
      have hnone : Placement.inCollection placements key = [] := by
        refine List.eq_nil_iff_forall_not_mem.2 fun p hp => hkey ?_
        obtain ⟨hplaced, rfl⟩ := Placement.mem_inCollection.1 hp
        refine mem_firstsBy_id.2 (mem_sortBy.2 (List.mem_map_of_mem ?_))
        exact mem_sortBy.2 hplaced
      rw [if_neg hkey, hnone]
      rfl

end Sheets

/-- The placements that a file lists, if its cells are whole numbers. -/
def CatalogFile.placements? (file : CatalogFile) : Option (List Placement) :=
  match file.sheet? "memberships" requiredMembershipColumns with
  | .ok (some sheet) => (membershipLines sheet).mapM Placement.ofLine?
  | _ => none

/-- A file that lists placements is a sheet of their lines. -/
theorem exists_sheet_of_placements? {file : CatalogFile} {placements : List Placement}
    (h : file.placements? = some placements) :
    ∃ sheet, file.sheet? "memberships" requiredMembershipColumns = .ok (some sheet) ∧
      membershipLines sheet = placements.map Placement.toLine := by
  unfold CatalogFile.placements? at h
  split at h
  · rename_i sheet hsheet
    exact ⟨sheet, hsheet, Placement.eq_map_toLine h⟩
  · cases h

namespace Store

section Files

variable {files : CatalogFiles} {s : Store} {c : Collection} {placements : List Placement}

/-- Files that can be loaded can be loaded with other memberships, and nothing else changes. -/
theorem ofFiles_with_memberships {file : CatalogFile} {sheet : Sheet} {m : Memberships}
    (h : ofFiles files = .ok s)
    (hsheet : file.sheet? "memberships" requiredMembershipColumns = .ok (some sheet))
    (hm : membershipsOfSheet sheet = .ok m) :
    ofFiles { files with memberships := file } = .ok { s with memberships := m } := by
  obtain ⟨products, collections, -, table, rows, hproducts, hcollections, -, -, htable, hrows, hs⟩ :=
    ofFiles_eq_ok.1 h
  refine ofFiles_eq_ok.2 ⟨products, collections, some sheet, table, rows, hproducts, hcollections,
    hsheet, hm, htable, hrows, ?_⟩
  rw [hs]
  rfl

/-- The members of a collection of a store that is loaded with placements. -/
theorem memberIds_of_placements? (h : ofFiles files = .ok s)
    (hlists : files.memberships.placements? = some placements) (key : Int) :
    s.memberIds key = (Placement.inCollection placements key).map (·.product) := by
  obtain ⟨sheet, hsheet, hlines⟩ := exists_sheet_of_placements? hlists
  obtain ⟨m, hm, hmembers⟩ := exists_membershipsOfSheet hlines
  have hsame := ofFiles_with_memberships h hsheet hm
  have hs : s.memberships = m := congrArg Store.memberships (Except.ok.inj (h.symm.trans hsame))
  rw [memberIds_eq_map, hs, hmembers]

/-- Files that can be loaded can be loaded with any placements. -/
theorem exists_ofFiles_of_placements? {file : CatalogFile} (h : ofFiles files = .ok s)
    (hlists : file.placements? = some placements) :
    ∃ t, ofFiles { files with memberships := file } = .ok t ∧ t.table = s.table ∧
      t.collections = s.collections := by
  obtain ⟨sheet, hsheet, hlines⟩ := exists_sheet_of_placements? hlists
  obtain ⟨m, hm, -⟩ := exists_membershipsOfSheet hlines
  exact ⟨_, ofFiles_with_memberships h hsheet hm, rfl, rfl⟩

/-- The placements of a listing: those of the products of a collection that the catalog has, each once,
in order of position and of line. -/
structure IsListedBy (s : Store) (placements : List Placement) (collection : Int)
    (listed : List Placement) (listing : List Product) : Prop where
  ids : listing.map (·.id) = listed.map (·.product)
  nodup : (listing.map (·.id)).Nodup
  perm : listed.Perm (placements.filter fun p =>
    p.collection = collection ∧ p.product ∈ s.table.rows.map (·.id))
  ordered : listed.Pairwise (Placement.Before placements)

/-- A collection that is loaded with placements shows what they place in it. -/
theorem exists_listed (h : ofFiles files = .ok s)
    (hlists : files.memberships.placements? = some placements)
    (hdistinct : Placement.Distinct placements) (hc : c ∈ s.collections)
    (hread : ∀ row ∈ s.table.rows, row.id ∈ s.memberIds c.id → ∃ p, row.toProduct = .ok p) :
    ∃ listing listed, s.Shows c.id listing ∧ s.IsListing (s.memberIds c.id) listing ∧
      s.IsListedBy placements c.id listed listing := by
  have hmembers := memberIds_of_placements? h hlists c.id
  have hnodup : (s.memberIds c.id).Nodup := hmembers ▸ hdistinct.products c.id
  obtain ⟨listing, hshows, hlisting⟩ := exists_shows hc hread
  refine ⟨listing, (Placement.inCollection placements c.id).filter
    (·.product ∈ s.table.rows.map (·.id)), hshows, hlisting, ?_, hlisting.nodup, ?_, ?_⟩
  · rw [hlisting.ids_eq_filter hnodup, hmembers, List.filter_map]
    rfl
  · have hperm := (Placement.inCollection_perm placements c.id).filter
      (·.product ∈ s.table.rows.map (·.id))
    rw [List.filter_filter] at hperm
    refine hperm.trans (.of_eq (List.filter_congr fun p _ => ?_))
    rw [← Bool.decide_and, decide_eq_decide, and_comm]
  · exact (hdistinct.pairwise_byPosition.filter _).filter _

/-- A collection that is loaded with placements shows the products that the catalog has of those that
are placed in it, each once, in order of position, and of one position in the order of the lines. This
is the order of position and descending id if and only if lines of one position are in descending order
of id. The lines may stand in any order: the files are loaded then too, and if the positions are
different, what is shown is the same. -/
theorem shows_in_order_of_position (h : ofFiles files = .ok s)
    (hlists : files.memberships.placements? = some placements)
    (hdistinct : Placement.Distinct placements) (hc : c ∈ s.collections)
    (hread : ∀ row ∈ s.table.rows, row.id ∈ s.memberIds c.id → ∃ p, row.toProduct = .ok p) :
    ∃ listing listed, s.Shows c.id listing ∧ s.IsListedBy placements c.id listed listing ∧
      (listed.Pairwise Placement.Precedes ↔ ∀ p ∈ listed, ∀ q ∈ listed, p.position = q.position →
        placements.idxOf p < placements.idxOf q → q.product < p.product) ∧
      ∀ (file : CatalogFile) (others : List Placement),
        file.placements? = some others → others.Perm placements →
        ∃ t, ofFiles { files with memberships := file } = .ok t ∧
          ((listed.map (·.position)).Nodup → t.Shows c.id listing) := by
  obtain ⟨listing, listed, hshows, hlisting, hlisted⟩ := exists_listed h hlists hdistinct hc hread
  refine ⟨listing, listed, hshows, hlisted, Placement.pairwise_precedes_iff hlisted.ordered,
    fun file others hfile hperm => ?_⟩
  obtain ⟨t, ht, htable, hcollections⟩ := exists_ofFiles_of_placements? h hfile
  refine ⟨t, ht, fun hpositions => ?_⟩
  have hmembers : ∀ id, id ∈ t.memberIds c.id → id ∈ s.memberIds c.id := by
    intro id hid
    rw [memberIds_of_placements? ht hfile] at hid
    rw [memberIds_of_placements? h hlists]
    obtain ⟨p, hp, rfl⟩ := List.mem_map.1 hid
    obtain ⟨hp, hkey⟩ := Placement.mem_inCollection.1 hp
    exact List.mem_map_of_mem (Placement.mem_inCollection.2 ⟨hperm.mem_iff.1 hp, hkey⟩)
  obtain ⟨after, listed', hshows', hlisting', hlisted'⟩ := exists_listed ht hfile
    (hdistinct.perm hperm) (hcollections ▸ hc) fun row hrow hid =>
      hread row (htable ▸ hrow) (hmembers _ hid)
  have hsame : listed = listed' := by
    have hperm' := hlisted'.perm
    rw [htable] at hperm'
    exact Placement.eq_of_perm (hlisted.perm.trans ((hperm.symm.filter _).trans hperm'.symm))
      hpositions hlisted.ordered hlisted'.ordered
  have hstored := hlisting'.stored
  rw [htable] at hstored
  have hafter : after = listing :=
    eq_of_ids_eq hstored hlisting.stored (by rw [hlisted'.ids, hlisted.ids, hsame])
  exact hafter ▸ hshows'

end Files

/-- Files of a catalog of three products, with one collection and given lines of memberships. -/
def sheetFiles (lines : String) : CatalogFiles where
  products := .text "id,price\n1,1\n2,1\n3,1\n"
  collections := .text "id,is_smart\n10,0\n"
  memberships := .text ("collection_id,product_id,position\n" ++ lines)

/-- Lines out of order with gaps between positions, and a product that the catalog does not have: the
products are shown in order of position, also when the lines stand in another order. -/
theorem shows_in_order_of_position_shuffled :
    ∃ s c listing t, ofFiles (sheetFiles "10,1,7\n10,99,-5\n10,3,40\n10,2,-2\n") = .ok s ∧
      c ∈ s.collections ∧ c.id = 10 ∧ s.Shows 10 listing ∧ listing.map (·.id) = [2, 1, 3] ∧
      ofFiles (sheetFiles "10,2,-2\n10,3,40\n10,99,-5\n10,1,7\n") = .ok t ∧
      t.Shows 10 listing := by
  obtain ⟨s, c, hs, hc, hid, hread, hids⟩ := exists_shown
    (by decide +kernel : (ofFiles (sheetFiles "10,1,7\n10,99,-5\n10,3,40\n10,2,-2\n")).toOption.map
      (outline · 10 9) = some ([10], true, some [2, 1, 3])) (by decide)
  have hlines : (sheetFiles "10,1,7\n10,99,-5\n10,3,40\n10,2,-2\n").memberships.placements? =
      some [⟨10, 1, 7⟩, ⟨10, 99, -5⟩, ⟨10, 3, 40⟩, ⟨10, 2, -2⟩] := by
    decide +kernel
  have hothers : (sheetFiles "10,2,-2\n10,3,40\n10,99,-5\n10,1,7\n").memberships.placements? =
      some [⟨10, 2, -2⟩, ⟨10, 3, 40⟩, ⟨10, 99, -5⟩, ⟨10, 1, 7⟩] := by
    decide +kernel
  obtain ⟨listing, listed, hlisting, hlisted, -, hshuffled⟩ :=
    shows_in_order_of_position hs hlines (by decide : List.Nodup _) hc fun row hrow _ => hread row hrow
  obtain ⟨t, ht, hsame⟩ := hshuffled _ _ hothers (by decide)
  have hpositions : (listed.map (·.position)).Nodup :=
    (hlisted.perm.map _).nodup_iff.2 ((by decide : List.Nodup _).sublist (List.filter_sublist.map _))
  exact ⟨s, c, listing, t, hs, hc, hid, hid ▸ hlisting, hids listing hlisting, ht,
    hid ▸ hsame hpositions⟩

/-- Lines of one position are not shown in descending order of id: of two products at one position the
one whose line comes first is shown first. -/
theorem not_forall_pairwise_precedes :
    ¬∀ (files : CatalogFiles) (s : Store) (placements : List Placement) (c : Collection),
      ofFiles files = .ok s → files.memberships.placements? = some placements →
      Placement.Distinct placements → c ∈ s.collections →
      (∀ row ∈ s.table.rows, ∃ p, row.toProduct = .ok p) →
      ∃ (listing : List Product) (listed : List Placement), s.Shows c.id listing ∧
        listing.map (·.id) = listed.map (·.product) ∧
        listed.Perm (placements.filter fun p =>
          p.collection = c.id ∧ p.product ∈ s.table.rows.map (·.id)) ∧
        listed.Pairwise Placement.Precedes := by
  intro h
  obtain ⟨s, c, hs, hc, -, hread, hids⟩ := exists_shown
    (by decide +kernel : (ofFiles (sheetFiles "10,1,0\n10,2,0\n")).toOption.map
      (outline · 10 9) = some ([10], true, some [1, 2])) (by decide)
  have hlines : (sheetFiles "10,1,0\n10,2,0\n").memberships.placements? =
      some [⟨10, 1, 0⟩, ⟨10, 2, 0⟩] := by
    decide +kernel
  obtain ⟨listing, listed, hlisting, hproducts, hperm, hordered⟩ :=
    h _ s _ c hs hlines (by decide : List.Nodup _) hc hread
  rw [hids listing hlisting] at hproducts
  have hlevel : ∀ p ∈ listed, p.position = 0 := by
    intro p hp
    have hplaced := List.mem_of_mem_filter (hperm.mem_iff.1 hp)
    simp only [List.mem_cons, List.not_mem_nil, or_false] at hplaced
    rcases hplaced with rfl | rfl <;> rfl
  -- the products of one position would have to descend
  have hdescends : (listed.map (·.product)).Pairwise (· > ·) := by
    refine List.pairwise_map.2 (hordered.imp_of_mem fun {p q} hp hq hpq => ?_)
    have := hlevel p hp
    have := hlevel q hq
    unfold Placement.Precedes at hpq
    omega
  rw [← hproducts] at hdescends
  exact absurd hdescends (by decide)

end Store

end Storefront
