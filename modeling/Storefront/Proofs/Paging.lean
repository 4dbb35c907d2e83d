import Mathlib.Data.Finset.Card
import Storefront.Proofs.Runs

/-!
# Pages of a collection

The listing of a collection has every member that the catalog knows, once, in the order of the last
places among the members. Its pages are the pieces of the listing of one length, one after the other:
what stands before a page has as many products as the pages before it hold, so nothing is lost between
two pages and nothing is shown twice.

* `pageCount`, `pageOf`: the pages of a list
* `IsLastAt`, `Store.lastPosition?_eq_some`: where a member stands last
* `Store.IsListing`, `Store.isListing_of_memberRows`: the listing of a collection
* `Store.page_eq`, `Store.pages_of_collection`: the pages of a collection
* `Store.Shows`, `Store.exists_shows`: the listing that the pages of a collection show
-/

namespace Storefront

/-! ## Pages of a list -/

/-- How many pages it takes to show so many elements. -/
def pageCount (count limit : Nat) : Nat := (count + limit - 1) / limit

/-- The page of a list that has so many pages before it. -/
def pageOf {α : Type} (limit : Nat) (xs : List α) (before : Nat) : List α :=
  (xs.drop (before * limit)).take limit

section Pages

variable {α : Type} {xs : List α} {count limit before : Nat}

/-- The pages are as many as it takes, and no more. -/
theorem pageCount_bounds (count : Nat) (hlimit : 1 ≤ limit) :
    count ≤ pageCount count limit * limit ∧ pageCount count limit * limit < count + limit := by
  have hdiv := Nat.div_add_mod (count + limit - 1) limit
  have hmod := Nat.mod_lt (count + limit - 1) hlimit
  unfold pageCount
  rw [Nat.mul_comm] at hdiv
  omega

/-- The first pages show the first elements. -/
theorem flatten_pages (limit : Nat) (xs : List α) (count : Nat) :
    ((List.range count).map (pageOf limit xs)).flatten = xs.take (count * limit) := by
  induction count with
  | zero => simp
  | succ count ih =>
    rw [List.range_succ, List.map_append, List.flatten_append, ih, Nat.succ_mul, List.take_add]
    simp [pageOf]

/-- A page with another one after it is full. -/
theorem length_pageOf (hlimit : 1 ≤ limit) (h : before + 1 < pageCount xs.length limit) :
    (pageOf limit xs before).length = limit := by
  have hmost := (pageCount_bounds xs.length hlimit).2
  have hpages : (before + 2) * limit ≤ pageCount xs.length limit * limit :=
    Nat.mul_le_mul_right limit h
  have hlast : (before + 2) * limit = before * limit + 2 * limit := Nat.add_mul _ _ _
  unfold pageOf
  rw [List.length_take, List.length_drop]
  omega

/-- A page behind all others is empty. -/
theorem pageOf_eq_nil (hlimit : 1 ≤ limit) (h : pageCount xs.length limit ≤ before) :
    pageOf limit xs before = [] := by
  have hleast := (pageCount_bounds xs.length hlimit).1
  have hpages : pageCount xs.length limit * limit ≤ before * limit := Nat.mul_le_mul_right limit h
  unfold pageOf
  rw [List.drop_eq_nil_of_le (Nat.le_trans hleast hpages), List.take_nil]

/-- A run of a list between two places. -/
theorem between_natCast (start length : Nat) (xs : List α) :
    Limit.between (some (start : Int)) (some ((start + length : Nat) : Int)) xs =
      (xs.drop start).take length := by
  have hbound (n : Nat) : Limit.bound xs.length n = min n xs.length := by
    unfold Limit.bound
    rw [if_neg (by omega), Int.toNat_natCast]
  unfold Limit.between
  dsimp only [Option.map_some, Option.getD_some]
  rw [hbound, hbound, List.drop_take]
  by_cases hstart : start ≤ xs.length
  · rw [Nat.min_eq_left hstart, List.take_eq_take_iff, List.length_drop]
    omega
  · rw [Nat.min_eq_right (by omega : xs.length ≤ start), List.drop_length, List.take_nil,
      List.drop_eq_nil_of_le (by omega), List.take_nil]

end Pages

/-! ## Last places -/

/-- An id stands last at a place of a list. -/
def IsLastAt (ids : List Int) (id : Int) (i : Nat) : Prop :=
  ids[i]? = some id ∧ ∀ j, i < j → ids[j]? ≠ some id

section IsLastAt

variable {ids : List Int} {id other : Int} {i j : Nat}

theorem IsLastAt.unique (hi : IsLastAt ids id i) (hj : IsLastAt ids id j) : i = j := by
  rcases Nat.lt_trichotomy i j with h | h | h
  · exact absurd hj.1 (hi.2 j h)
  · exact h
  · exact absurd hi.1 (hj.2 i h)

theorem IsLastAt.id_eq (hi : IsLastAt ids id i) (hother : IsLastAt ids other i) : id = other :=
  Option.some.inj (hi.1.symm.trans hother.1)

theorem IsLastAt.mem (h : IsLastAt ids id i) : id ∈ ids := List.mem_of_getElem? h.1

theorem getElem?_append_of_ne (ids : List Int) (other : Int) (h : j ≠ ids.length) :
    (ids ++ [other])[j]? = ids[j]? := by
  rcases Nat.lt_or_gt_of_ne h with h | h
  · exact List.getElem?_append_left h
  · rw [List.getElem?_eq_none (by simpa using Nat.succ_le_of_lt h),
      List.getElem?_eq_none (Nat.le_of_lt h)]

/-- The last element of a list stands last at the end. -/
theorem isLastAt_append_self : IsLastAt (ids ++ [id]) id i ↔ i = ids.length := by
  have hend : IsLastAt (ids ++ [id]) id ids.length := by
    refine ⟨by simp, fun j hj => ?_⟩
    rw [getElem?_append_of_ne ids id (by omega), List.getElem?_eq_none (Nat.le_of_lt hj)]
    exact nofun
  constructor
  · exact fun h => h.unique hend
  · rintro rfl
    exact hend

/-- Another element at the end of a list does not change where an id stands last. -/
theorem isLastAt_append_of_ne (hne : other ≠ id) :
    IsLastAt (ids ++ [other]) id i ↔ IsLastAt ids id i := by
  have hsame (j : Nat) : (ids ++ [other])[j]? = some id ↔ ids[j]? = some id := by
    by_cases hj : j = ids.length
    · simp [hj, hne]
    · rw [getElem?_append_of_ne ids other hj]
  unfold IsLastAt
  simp only [hsame, ne_eq]

theorem exists_isLastAt (h : id ∈ ids) : ∃ i, IsLastAt ids id i := by
  induction ids using List.reverseRecOn with
  | nil => cases h
  | append_singleton ids other ih =>
    by_cases hsame : other = id
    · exact ⟨ids.length, hsame ▸ isLastAt_append_self.2 rfl⟩
    · have hmem : id ∈ ids := (List.mem_append.1 h).resolve_right fun hid =>
        hsame (List.mem_singleton.1 hid).symm
      obtain ⟨i, hi⟩ := ih hmem
      exact ⟨i, (isLastAt_append_of_ne hsame).2 hi⟩

/-- In a list without repetitions each element stands last where it stands. -/
theorem isLastAt_of_nodup (h : ids.Nodup) (hid : ids[i]? = some id) : IsLastAt ids id i := by
  refine ⟨hid, fun j hj hother => ?_⟩
  obtain ⟨hi, -⟩ := List.getElem?_eq_some_iff.1 hid
  have := (List.getElem?_inj hi h).1 (hid.trans hother.symm)
  omega

end IsLastAt

namespace Store

/-- The last position of a product among members is the last place of its id. -/
theorem lastPosition?_eq_some {members : List Member} {id : Int} {i : Nat} :
    lastPosition? members id = some i ↔ IsLastAt (members.map (·.id)) id i := by
  induction members using List.reverseRecOn with
  | nil => simp [lastPosition?, IsLastAt]
  | append_singleton members m ih =>
    rw [List.map_append, List.map_singleton]
    unfold lastPosition? at ih ⊢
    rw [List.zipIdx_append, List.filter_append]
    by_cases hid : m.id = id
    · rw [← hid, isLastAt_append_self]
      simp [eq_comm]
    · rw [isLastAt_append_of_ne hid, ← ih]
      simp [hid]

/-! ## The listing -/

/-- The products that the catalog has of members with given ids, each once, in the order in which they
stand last among the ids. -/
structure IsListing (s : Store) (ids : List Int) (listing : List Product) : Prop where
  stored : ∀ p ∈ listing, ∃ row ∈ s.table.rows, row.toProduct = .ok p
  nodup : (listing.map (·.id)).Nodup
  mem_iff : ∀ id, id ∈ listing.map (·.id) ↔ id ∈ ids ∧ id ∈ s.table.rows.map (·.id)
  ordered : listing.Pairwise fun p q =>
    ∀ i j, IsLastAt ids p.id i → IsLastAt ids q.id j → i < j

section Listing

variable {s : Store} {c : Collection} {members : List Member}

theorem mem_memberRows {row : Row} :
    row ∈ s.memberRows members ↔ row ∈ s.table.rows ∧ row.id ∈ members.map (·.id) := by
  unfold memberRows
  simp only [List.mem_map (l := sortBy _ _), mem_sortBy, List.mem_filterMap, Option.map_eq_some_iff]
  constructor
  · intro h
    obtain ⟨_, ⟨row, hrow, i, hi, rfl⟩, rfl⟩ := h
    exact ⟨hrow, (lastPosition?_eq_some.1 hi).mem⟩
  · intro h
    obtain ⟨hrow, hid⟩ := h
    obtain ⟨i, hi⟩ := exists_isLastAt hid
    exact ⟨(i, row), ⟨row, hrow, i, lastPosition?_eq_some.2 hi, rfl⟩, rfl⟩

/-- The rows of members stand in the order in which their ids stand last among the members. -/
theorem pairwise_memberRows (s : Store) (members : List Member) :
    (s.memberRows members).Pairwise fun r o => ∀ i j, IsLastAt (members.map (·.id)) r.id i →
      IsLastAt (members.map (·.id)) o.id j → i < j := by
  unfold memberRows
  extract_lets placed
  have hplaced : ∀ a ∈ placed, IsLastAt (members.map (·.id)) a.2.id a.1 := by
    intro a ha
    obtain ⟨row, -, hrow⟩ := List.mem_filterMap.1 ha
    obtain ⟨i, hi, rfl⟩ := Option.map_eq_some_iff.1 hrow
    exact lastPosition?_eq_some.1 hi
  have hdistinct : (placed.map fun a => (a.1 : Int)).Nodup := by
    refine List.pairwise_map.2 (s.table.ascending.filterMap _ fun r o hro a ha b hb => ?_)
    obtain ⟨i, hi, rfl⟩ := Option.map_eq_some_iff.1 ha
    obtain ⟨j, hj, rfl⟩ := Option.map_eq_some_iff.1 hb
    intro hij
    cases Int.ofNat.inj hij
    have := (lastPosition?_eq_some.1 hi).id_eq (lastPosition?_eq_some.1 hj)
    omega
  have hsorted := pairwise_sortBy_key hdistinct
  simp only [Int.ofNat_le, Int.ofNat_lt] at hsorted
  refine List.pairwise_map.2 (hsorted.imp_of_mem fun {a b} ha hb hab i j hi hj => ?_)
  rw [hi.unique (hplaced a (mem_sortBy.1 ha)), hj.unique (hplaced b (mem_sortBy.1 hb))]
  exact hab

/-- What the rows of members read as is their listing. -/
theorem isListing_of_memberRows {listing : List Product}
    (h : (s.memberRows members).mapM Row.toProduct = .ok listing) :
    s.IsListing (members.map (·.id)) listing := by
  have hids : listing.map (·.id) = (s.memberRows members).map (·.id) :=
    map_eq_of_mapM_eq_ok (fun _ _ => Row.id_of_toProduct) h
  have hordered : ((s.memberRows members).map (·.id)).Pairwise fun a b => ∀ i j,
      IsLastAt (members.map (·.id)) a i → IsLastAt (members.map (·.id)) b j → i < j :=
    List.pairwise_map.2 (s.pairwise_memberRows members)
  have hmem (id : Int) : id ∈ (s.memberRows members).map (·.id) ↔
      id ∈ members.map (·.id) ∧ id ∈ s.table.rows.map (·.id) := by
    constructor
    · intro hid
      obtain ⟨row, hrow, rfl⟩ := List.mem_map.1 hid
      obtain ⟨hstored, hmember⟩ := mem_memberRows.1 hrow
      exact ⟨hmember, List.mem_map_of_mem hstored⟩
    · intro hid
      obtain ⟨hmember, hknown⟩ := hid
      obtain ⟨row, hrow, rfl⟩ := List.mem_map.1 hknown
      exact List.mem_map_of_mem (mem_memberRows.2 ⟨hrow, hmember⟩)
  refine ⟨?_, ?_, ?_, ?_⟩
  · intro p hp
    obtain ⟨row, hrow, hread⟩ := mem_of_mapM_eq_ok h hp
    exact ⟨row, (mem_memberRows.1 hrow).1, hread⟩
  · -- an id does not stand before itself
    rw [hids]
    refine hordered.imp_of_mem fun {a b} ha _ hab => ?_
    rintro rfl
    obtain ⟨i, hi⟩ := exists_isLastAt ((hmem a).1 ha).1
    exact absurd (hab i i hi hi) (Nat.lt_irrefl i)
  · intro id
    rw [hids, hmem]
  · exact List.pairwise_map.1 (hids ▸ hordered)

end Listing

section IsListing

variable {s : Store} {ids : List Int} {listing : List Product} (h : s.IsListing ids listing)

include h

/-- A listing has as many products as the catalog has different ones of the ids. -/
theorem IsListing.length_eq :
    listing.length = (ids.toFinset ∩ (s.table.rows.map (·.id)).toFinset).card := by
  have hset : (listing.map (·.id)).toFinset = ids.toFinset ∩ (s.table.rows.map (·.id)).toFinset := by
    ext id
    rw [List.mem_toFinset, h.mem_iff, Finset.mem_inter, List.mem_toFinset, List.mem_toFinset]
  rw [← hset, List.toFinset_card_of_nodup h.nodup, List.length_map]

/-- The listing of ids that do not repeat is in the order of the ids. -/
theorem IsListing.ids_eq_filter (hids : ids.Nodup) :
    listing.map (·.id) = ids.filter (· ∈ s.table.rows.map (·.id)) := by
  have hplaces : ids.Pairwise fun a b => ∀ i j, IsLastAt ids a i → IsLastAt ids b j → i < j := by
    refine List.pairwise_iff_getElem.2 fun m n hm hn hmn i j hi hj => ?_
    rw [hi.unique (isLastAt_of_nodup hids (List.getElem?_eq_getElem hm)),
      hj.unique (isLastAt_of_nodup hids (List.getElem?_eq_getElem hn))]
    exact hmn
  have hmem (id : Int) :
      id ∈ listing.map (·.id) ↔ id ∈ ids.filter (· ∈ s.table.rows.map (·.id)) := by
    rw [h.mem_iff, List.mem_filter, decide_eq_true_iff]
  have hperm := (List.perm_ext_iff_of_nodup h.nodup (hids.filter _)).2 hmem
  refine hperm.eq_of_pairwise (fun a b ha hb hab hba => ?_) (List.pairwise_map.2 h.ordered)
    (hplaces.filter _)
  obtain ⟨i, hi⟩ := exists_isLastAt ((h.mem_iff a).1 ha).1
  obtain ⟨j, hj⟩ := exists_isLastAt (List.mem_of_mem_filter hb)
  have := hab i j hi hj
  have := hba j i hj hi
  omega

end IsListing

/-! ## Pages -/

section Pages

variable {s : Store} {c : Collection}

theorem requireCollection_of_mem (hc : c ∈ s.collections) :
    s.requireCollection (.int c.id) = .ok c := by
  have hfind : s.collection? (.int c.id) = .ok (some c) :=
    congrArg Except.ok (findCollection?_eq_some.2 ⟨hc, rfl⟩)
  exact bind_eq_ok.2 ⟨_, hfind, rfl⟩

theorem collectionProducts_all {listing : List Product}
    (h : (s.memberRows (s.memberships.members c.id)).mapM Row.toProduct = .ok listing) :
    s.collectionProducts (.int c.id) (.int 0) .null = .ok listing := by
  have hall : Limit.between (some 0) none (s.memberRows (s.memberships.members c.id)) =
      s.memberRows (s.memberships.members c.id) := by
    simp [Limit.between, Limit.bound]
  refine bind_eq_ok.2 ⟨_, rfl, bind_eq_ok.2 ⟨_, rfl, ?_⟩⟩
  dsimp only
  rw [hall, h]

/-- A page of a collection is the page of its listing. -/
theorem page_eq {listing : List Product} (hc : c ∈ s.collections)
    (h : (s.memberRows (s.memberships.members c.id)).mapM Row.toProduct = .ok listing)
    (limit before : Nat) :
    s.page (.int c.id) (.int (before + 1)) (.int limit) = .ok (pageOf limit listing before) := by
  have hbounds : Limit.pageBounds (.int (before + 1)) (.int limit) =
      .ok (((before * limit : Nat) : Int), ((before * limit + limit : Nat) : Int)) := by
    have hpages : max ((before : Int) + 1 - 1) 0 = before := by omega
    show Except.ok (max ((before : Int) + 1 - 1) 0 * (limit : Int),
      max ((before : Int) + 1 - 1) 0 * (limit : Int) + (limit : Int)) = _
    rw [hpages]
    push_cast
    rfl
  refine bind_eq_ok.2 ⟨c, requireCollection_of_mem hc, ?_⟩
  refine bind_eq_ok.2 ⟨_, rfl, bind_eq_ok.2 ⟨_, hbounds, ?_⟩⟩
  dsimp only
  rw [between_natCast]
  exact mapM_take (mapM_drop h _) _

/-- The pages of a collection, each full but for the last, show its listing: every product that the
catalog has of the members once, in the order of their last places among the members, which is the
order of the members where none is repeated. Every page behind these is empty. -/
theorem pages_of_collection (s : Store) {c : Collection} (hc : c ∈ s.collections) {limit : Nat}
    (hlimit : 1 ≤ limit)
    (hread : ∀ row ∈ s.table.rows, row.id ∈ s.memberIds c.id → ∃ p, row.toProduct = .ok p) :
    ∃ (count : Nat) (listing : List Product) (pages : List (List Product)),
      count = ((s.memberIds c.id).toFinset ∩ (s.table.rows.map (·.id)).toFinset).card ∧
      s.collectionProducts (.int c.id) (.int 0) .null = .ok listing ∧
      s.IsListing (s.memberIds c.id) listing ∧ listing.length = count ∧
      (List.range (pageCount count limit)).mapM
        (fun before : Nat => s.page (.int c.id) (.int (before + 1)) (.int limit)) = .ok pages ∧
      pages.flatten = listing ∧ (∀ page ∈ pages.dropLast, page.length = limit) ∧
      (∀ before : Nat, pageCount count limit ≤ before →
        s.page (.int c.id) (.int (before + 1)) (.int limit) = .ok []) ∧
      ((s.memberIds c.id).Nodup → listing.map (·.id) =
        (s.memberIds c.id).filter (· ∈ s.table.rows.map (·.id))) := by
  have hids := s.memberIds_eq_map c.id
  obtain ⟨listing, hlisting⟩ :
      ∃ listing, (s.memberRows (s.memberships.members c.id)).mapM Row.toProduct = .ok listing := by
    refine exists_mapM_eq_ok fun row hrow => ?_
    obtain ⟨hstored, hmember⟩ := mem_memberRows.1 hrow
    exact hread row hstored (hids ▸ hmember)
  have hlists : s.IsListing (s.memberIds c.id) listing := hids ▸ isListing_of_memberRows hlisting
  have hpage := page_eq hc hlisting limit
  refine ⟨listing.length, listing, (List.range (pageCount listing.length limit)).map
    (pageOf limit listing), hlists.length_eq, collectionProducts_all hlisting, hlists, rfl,
    mapM_eq_ok_map fun before _ => hpage before, ?_, ?_, ?_, hlists.ids_eq_filter⟩
  · rw [flatten_pages, List.take_of_length_le (pageCount_bounds listing.length hlimit).1]
  · intro page hmem
    rw [← List.map_dropLast] at hmem
    obtain ⟨before, hbefore, rfl⟩ := List.mem_map.1 hmem
    rw [List.dropLast_eq_take, List.take_range, List.length_range, List.mem_range] at hbefore
    exact length_pageOf hlimit (by omega)
  · intro before hbefore
    rw [hpage, pageOf_eq_nil hlimit hbefore]

/-- Every page of a collection, however long the pages are, is the piece of a listing that is its
turn. -/
def Shows (s : Store) (collection : Int) (listing : List Product) : Prop :=
  ∀ limit before : Nat, s.page (.int collection) (.int (before + 1)) (.int limit) =
    .ok (pageOf limit listing before)

/-- A collection whose members can be read shows their listing. -/
theorem exists_shows (hc : c ∈ s.collections)
    (hread : ∀ row ∈ s.table.rows, row.id ∈ s.memberIds c.id → ∃ p, row.toProduct = .ok p) :
    ∃ listing, s.Shows c.id listing ∧ s.IsListing (s.memberIds c.id) listing := by
  have hids := s.memberIds_eq_map c.id
  obtain ⟨listing, hlisting⟩ :
      ∃ listing, (s.memberRows (s.memberships.members c.id)).mapM Row.toProduct = .ok listing := by
    refine exists_mapM_eq_ok fun row hrow => ?_
    obtain ⟨hstored, hmember⟩ := mem_memberRows.1 hrow
    exact hread row hstored (hids ▸ hmember)
  exact ⟨listing, page_eq hc hlisting, hids ▸ isListing_of_memberRows hlisting⟩

/-- The pages of a collection show one listing only. -/
theorem Shows.unique {collection : Int} {listing other : List Product}
    (h : s.Shows collection listing) (hother : s.Shows collection other) : listing = other := by
  have hsame : ∀ limit : Nat, listing.take limit = other.take limit := by
    intro limit
    have hpage := (h limit 0).symm.trans (hother limit 0)
    unfold pageOf at hpage
    rw [Nat.zero_mul, List.drop_zero, List.drop_zero] at hpage
    exact Except.ok.inj hpage
  have hlong := hsame (max listing.length other.length)
  rwa [List.take_of_length_le (Nat.le_max_left _ _), List.take_of_length_le (Nat.le_max_right _ _)]
    at hlong

/-- A first page that is not full shows the whole listing. -/
theorem Shows.ids_eq {collection : Int} {listing : List Product} {limit : Nat} {ids : List Int}
    (h : s.Shows collection listing)
    (hpage : (s.page (.int collection) (.int 1) (.int limit)).toOption.map (·.map (·.id)) = some ids)
    (hshort : ids.length < limit) : listing.map (·.id) = ids := by
  have hfirst : s.page (.int collection) (.int 1) (.int limit) = .ok (listing.take limit) := by
    have hpiece := h limit 0
    unfold pageOf at hpiece
    rwa [Nat.zero_mul, List.drop_zero] at hpiece
  rw [hfirst] at hpage
  cases Option.some.inj hpage
  rw [List.length_map, List.length_take] at hshort
  rw [List.take_of_length_le (by omega)]

/-- What a store looks like: its collections, whether all its rows can be read, and the first page of a
collection. -/
def outline (s : Store) (collection : Int) (limit : Nat) : List Int × Bool × Option (List Int) :=
  (s.collections.map (·.id), s.table.rows.all fun row => row.toProduct.toOption.isSome,
    (s.page (.int collection) (.int 1) (.int limit)).toOption.map (·.map (·.id)))

/-- A store that looks as if it had one collection, with a first page that is not full, has it and shows
that page. -/
theorem exists_shown {x : Except Failure Store} {collection : Int} {limit : Nat} {ids : List Int}
    (h : x.toOption.map (outline · collection limit) = some ([collection], true, some ids))
    (hshort : ids.length < limit) :
    ∃ s c, x = .ok s ∧ c ∈ s.collections ∧ c.id = collection ∧
      (∀ row ∈ s.table.rows, ∃ p, row.toProduct = .ok p) ∧
      ∀ listing, s.Shows c.id listing → listing.map (·.id) = ids := by
  obtain ⟨s, hs, hparts⟩ := exists_of_toOption_map_eq_some h
  simp only [outline, Prod.mk.injEq] at hparts
  obtain ⟨hcollections, hreadable, hpage⟩ := hparts
  obtain ⟨c, hc, rfl⟩ := List.mem_map.1 (hcollections ▸ List.mem_singleton_self collection)
  refine ⟨s, c, hs, hc, rfl, fun row hrow => ?_, fun listing hlisting => hlisting.ids_eq hpage hshort⟩
  have hsome := List.all_eq_true.1 hreadable row hrow
  cases hproduct : row.toProduct with
  | ok p => exact ⟨p, rfl⟩
  | error failure =>
    rw [hproduct] at hsome
    cases hsome

end Pages

/-- A store of three products, whose one collection has a member twice and one that no product is. -/
def gappy : Store :=
  .ofParts Table.acme [{ id := 10 }] (Memberships.empty.replace 10 ([3, 9, 1, 3, 2].map .ofId))

theorem ids_of_shows_gappy {listing : List Product} (h : gappy.Shows 10 listing) :
    listing.map (·.id) = [1, 3, 2] :=
  h.ids_eq (by decide +kernel : (gappy.page (.int 10) (.int 1) (.int 9)).toOption.map
    (·.map (·.id)) = some [1, 3, 2]) (by decide)

/-- Two pages show the three products, of which the repeated one stands where it comes last. -/
theorem pages_of_collection_gappy :
    (∀ row ∈ gappy.table.rows, row.id ∈ gappy.memberIds 10 → ∃ p, row.toProduct = .ok p) ∧
      ∃ pages, (List.range 2).mapM
          (fun before : Nat => gappy.page (.int 10) (.int (before + 1)) (.int 2)) = .ok pages ∧
        pages.map (·.map (·.id)) = [[1, 3], [2]] ∧
        gappy.IsListing [3, 9, 1, 3, 2] pages.flatten ∧
        gappy.page (.int 10) (.int 3) (.int 2) = .ok [] := by
  have hread : ∀ row ∈ gappy.table.rows, row.id ∈ gappy.memberIds 10 →
      ∃ p, row.toProduct = .ok p := fun row hrow _ => Table.exists_product_acme hrow
  have hc : ({ id := 10 } : Collection) ∈ gappy.collections := List.mem_singleton_self _
  obtain ⟨count, listing, pages, hcount, -, hlists, -, hpages, rfl, -, hbehind, -⟩ :=
    pages_of_collection gappy hc (by decide : 1 ≤ 2) hread
  have hthree : count = 3 := hcount.trans (by decide +kernel)
  subst hthree
  refine ⟨hread, pages, hpages, ?_, hlists, hbehind 2 (by decide)⟩
  have hvalue : ((List.range 2).mapM fun before : Nat =>
      gappy.page (.int 10) (.int (before + 1)) (.int 2)).toOption.map (·.map (·.map (·.id))) =
        some [[1, 3], [2]] := by
    decide +kernel
  obtain ⟨shown, hshown, hids⟩ := exists_of_toOption_map_eq_some hvalue
  cases hshown.symm.trans hpages
  exact hids

end Store

end Storefront
