import Mathlib.Data.List.NodupEquivFin
import Storefront.Proofs.Paging

/-!
# Members moved to the front

The members of a collection are put in order by a loop that lists the given ones first and then all,
and passes over whatever is listed. What it leaves is therefore every member where it comes first among
the given ones and the members in a row, from which the laws of moving follow: no member is lost or
repeated, and two moves are one move.

A listing has its products where they stand last among the members. A move therefore shows the
products that are not given in the order of their first places, which is the order in which they were
listed as long as none of them is a member twice.

* `Store.ids_moveToFront`, `Store.moveToFront_moveToFront`: what is moved, and moving again
* `Store.reorderMembers_int`, `Store.members_moved_to_front`: moving the members of a collection
* `Store.reordered`: a listing with given products in front
* `Store.shows_of_reorder`: the listing of a collection that is put in order
-/

namespace Storefront

namespace Memberships

theorem setEntry_setEntry (collection : Int) (members others : List Member)
    (entries : List (Int × List Member)) :
    setEntry collection others (setEntry collection members entries) =
      setEntry collection others entries := by
  induction entries with
  | nil => simp [setEntry]
  | cons entry rest ih =>
    rw [setEntry]
    by_cases hkey : entry.1 = collection
    · rw [if_pos hkey, setEntry, setEntry, if_pos hkey, if_pos hkey]
    · rw [if_neg hkey, setEntry, setEntry, if_neg hkey, if_neg hkey, ih]

/-- Of two writes to one collection the second one counts. -/
theorem replace_replace (m : Memberships) (collection : Int) (members others : List Member) :
    (m.replace collection members).replace collection others = m.replace collection others := by
  unfold replace
  simp only [setEntry_setEntry]

end Memberships

namespace Store

/-! ## Moving -/

section Moving

variable {current : List Member}

/-- The members that whole numbers name are those of the numbers that are ids of members. -/
theorem namedMembers_int (current : List Member) (ids : List Int) :
    namedMembers current (ids.map .int) =
      (ids.filter (· ∈ current.map (·.id))).map Member.ofId := by
  unfold namedMembers
  rw [List.filterMap_map, ← List.filterMap_eq_map, List.filterMap_filter]
  refine List.filterMap_congr fun id _ => ?_
  dsimp only [Function.comp_apply]
  by_cases hid : id ∈ current.map (·.id)
  · rw [if_pos (by simpa using hid)]
    obtain ⟨m, hm, rfl⟩ := List.mem_map.1 hid
    cases hfind : current.find? fun o => (Value.int o.id).equals (.int m.id) with
    | none => exact absurd (Value.equals_int.2 rfl) (List.find?_eq_none.1 hfind m hm)
    | some o =>
      have hsame : o.id = m.id := Value.equals_int.1 (List.find?_some hfind :)
      rw [Option.map_some, hsame]
      rfl
  · rw [if_neg (by simpa using hid)]
    have hfind : current.find? (fun o => (Value.int o.id).equals (.int id)) = none := by
      rw [List.find?_eq_none]
      intro m hm hequal
      exact hid (List.mem_map.2 ⟨m, hm, Value.equals_int.1 hequal⟩)
    rw [hfind]
    rfl

/-- Moving leaves every member where it comes first among the given ones and the members. -/
theorem ids_moveToFront (current : List Member) (ids : List Int) :
    (moveToFront current (ids.map .int)).map (·.id) =
      firstsBy id (ids.filter (· ∈ current.map (·.id)) ++ current.map (·.id)) := by
  rw [moveToFront_eq, map_firstsBy, List.map_append, namedMembers_int, List.map_map]
  congr 2
  exact List.map_id _

/-- Moving twice is moving once, those that are given last in front. -/
theorem moveToFront_moveToFront (current : List Member) (a b : List Int) :
    moveToFront (moveToFront current (a.map .int)) (b.map .int) =
      moveToFront current ((b ++ a).map .int) := by
  have hnamed : namedMembers (moveToFront current (a.map .int)) (b.map .int) =
      namedMembers current (b.map .int) := by
    rw [namedMembers_int, namedMembers_int]
    simp only [mem_ids_moveToFront]
  have happend : namedMembers current ((b ++ a).map .int) =
      namedMembers current (b.map .int) ++ namedMembers current (a.map .int) := by
    unfold namedMembers
    rw [List.map_append, List.filterMap_append]
  rw [moveToFront_eq (moveToFront _ _), hnamed, moveToFront_eq, moveToFront_eq, happend,
    firstsBy_append_firstsBy, List.append_assoc]

/-- Moving the same ones again changes nothing. -/
theorem moveToFront_again (current : List Member) (ids : List Int) :
    moveToFront (moveToFront current (ids.map .int)) (ids.map .int) =
      moveToFront current (ids.map .int) := by
  have htwice : namedMembers current ((ids ++ ids).map .int) =
      namedMembers current (ids.map .int) ++ namedMembers current (ids.map .int) := by
    unfold namedMembers
    rw [List.map_append, List.filterMap_append]
  rw [moveToFront_moveToFront, moveToFront_eq, moveToFront_eq, htwice, List.append_assoc,
    firstsBy_append_append_self]

end Moving

/-! ## The members of a collection -/

section Members

variable {s s' : Store} {faults : Faults} {collection : Int} {ids : List Int}

/-- The store with members of a collection moved to the front. -/
def withMoved (s : Store) (collection : Int) (ids : List Int) : Store :=
  { s with
    memberships := s.memberships.replace collection
      (moveToFront (s.memberships.members collection) (ids.map .int)) }

/-- Members are moved unless the commit fails, and then the store is as it was. -/
theorem reorderMembers_int (s : Store) (faults : Faults) (collection : Int) (ids : List Int) :
    (faults.commit = none ∧
      s.reorderMembers faults collection (ids.map .int) = (s.withMoved collection ids, .ok ())) ∨
    (faults.commit ≠ none ∧ ∃ failure,
      s.reorderMembers faults collection (ids.map .int) = (s, .error failure)) := by
  have hsearchable : (ids.map Value.int).all isSearchable = true := by
    rw [List.all_map, List.all_eq_true]
    exact fun _ _ => rfl
  unfold reorderMembers
  rw [if_pos hsearchable]
  rcases s.publish_cases faults "reorder_collection_membership" (s.memberships.replace collection
      (moveToFront (s.memberships.members collection) (ids.map .int))) with
    ⟨hcommit, hpublish⟩ | ⟨hcommit, op, cause, hpublish⟩
  · exact .inl ⟨hcommit, hpublish⟩
  · exact .inr ⟨hcommit, _, hpublish⟩

theorem reorderMembers_of_commit (s : Store) (hcommit : faults.commit = none) (collection : Int)
    (ids : List Int) :
    s.reorderMembers faults collection (ids.map .int) = (s.withMoved collection ids, .ok ()) := by
  rcases s.reorderMembers_int faults collection ids with ⟨-, h⟩ | ⟨hfails, -⟩
  · exact h
  · exact absurd hcommit hfails

theorem eq_withMoved (h : s.reorderMembers faults collection (ids.map .int) = (s', .ok ())) :
    s' = s.withMoved collection ids := by
  rcases s.reorderMembers_int faults collection ids with ⟨-, hmoved⟩ | ⟨-, failure, hfails⟩
  · exact congrArg Prod.fst (h.symm.trans hmoved)
  · cases h.symm.trans hfails

theorem members_withMoved (s : Store) (collection : Int) (ids : List Int) :
    (s.withMoved collection ids).memberships.members collection =
      moveToFront (s.memberships.members collection) (ids.map .int) := by
  show (s.memberships.replace _ _).members collection = _
  rw [Memberships.members_replace, if_pos rfl]

theorem members?_withMoved_of_ne {key : Int} (h : key ≠ collection) (ids : List Int) :
    (s.withMoved collection ids).memberships.members? key = s.memberships.members? key := by
  show (s.memberships.replace _ _).members? key = _
  rw [Memberships.members?_replace, if_neg h]

theorem memberIds_withMoved (s : Store) (collection : Int) (ids : List Int) :
    (s.withMoved collection ids).memberIds collection =
      firstsBy id (ids.filter (· ∈ s.memberIds collection) ++ s.memberIds collection) := by
  rw [memberIds_eq_map, memberIds_eq_map, members_withMoved, ids_moveToFront]

theorem mem_memberIds_withMoved {m : Int} :
    m ∈ (s.withMoved collection ids).memberIds collection ↔ m ∈ s.memberIds collection := by
  rw [memberIds_eq_map, members_withMoved, mem_ids_moveToFront, ← memberIds_eq_map]

theorem withMoved_withMoved (s : Store) (collection : Int) (a b : List Int) :
    (s.withMoved collection a).withMoved collection b = s.withMoved collection (b ++ a) := by
  show Store.mk _ _ ((s.withMoved collection a).memberships.replace collection _) _ = _
  rw [members_withMoved, moveToFront_moveToFront]
  unfold withMoved
  simp only [Memberships.replace_replace]

theorem withMoved_again (s : Store) (collection : Int) (ids : List Int) :
    (s.withMoved collection ids).withMoved collection ids = s.withMoved collection ids := by
  show Store.mk _ _ ((s.withMoved collection ids).memberships.replace collection _) _ = _
  rw [members_withMoved, moveToFront_again]
  unfold withMoved
  simp only [Memberships.replace_replace]

/-- Moving members of a collection to the front leaves the first occurrences among the given members
and all members. None is repeated or lost, and nothing else changes. Moving others after them is the
same as moving both at once, those that are given last in front; and to move the same ones again
changes nothing. -/
theorem members_moved_to_front {a : List Int}
    (h : s.reorderMembers faults collection (a.map .int) = (s', .ok ())) (b : List Int) :
    s'.memberIds? collection =
        some (firstsBy id (a.filter (· ∈ s.memberIds collection) ++ s.memberIds collection)) ∧
      (s'.memberIds collection).Nodup ∧
      (∀ id, id ∈ s'.memberIds collection ↔ id ∈ s.memberIds collection) ∧
      (∀ key, key ≠ collection → s'.memberships.members? key = s.memberships.members? key) ∧
      s'.table = s.table ∧ s'.collections = s.collections ∧
      ∀ others : Faults, others.commit = none →
        (∃ t, s'.reorderMembers others collection (b.map .int) = (t, .ok ()) ∧
          s.reorderMembers others collection ((b ++ a).map .int) = (t, .ok ())) ∧
        s'.reorderMembers others collection (a.map .int) = (s', .ok ()) := by
  cases eq_withMoved h
  have hids := s.memberIds_withMoved collection a
  have hstored : (s.withMoved collection a).memberIds? collection =
      some ((s.withMoved collection a).memberIds collection) := by
    show ((s.memberships.replace _ _).members? collection).map _ = some _
    rw [memberIds_eq_map, members_withMoved, Memberships.members?_replace, if_pos rfl]
    rfl
  refine ⟨hids ▸ hstored, ?_, fun id => mem_memberIds_withMoved,
    fun key hkey => members?_withMoved_of_ne hkey a, rfl, rfl,
    fun others hcommit => ⟨⟨s.withMoved collection (b ++ a), ?_, ?_⟩, ?_⟩⟩
  · rw [hids]
    exact nodup_firstsBy_id _
  · rw [reorderMembers_of_commit _ hcommit, withMoved_withMoved]
  · exact s.reorderMembers_of_commit hcommit collection (b ++ a)
  · rw [reorderMembers_of_commit _ hcommit, withMoved_again]

end Members

/-- A member that is given twice moves once, an id that is no member is passed over, and a product that
the catalog does not have is moved like the others. -/
theorem members_moved_to_front_gappy :
    ∃ t u, gappy.reorderMembers .none 10 ([2, 7, 2, 9].map .int) = (t, .ok ()) ∧
      t.memberIds? 10 = some [2, 9, 3, 1] ∧
      t.reorderMembers .none 10 ([1].map .int) = (u, .ok ()) ∧
      gappy.reorderMembers .none 10 ([1, 2, 7, 2, 9].map .int) = (u, .ok ()) ∧
      t.reorderMembers .none 10 ([2, 7, 2, 9].map .int) = (t, .ok ()) := by
  have hmoved := gappy.reorderMembers_of_commit (rfl : Faults.none.commit = none) 10 [2, 7, 2, 9]
  obtain ⟨hids, -, -, -, -, -, hagain⟩ := members_moved_to_front hmoved [1]
  obtain ⟨⟨u, hsecond, hboth⟩, hrepeat⟩ := hagain .none rfl
  exact ⟨_, u, hmoved, hids.trans (by decide +kernel), hsecond, hboth, hrepeat⟩

end Store

/-! ## Listings in another order -/

namespace Listing

/-- The products of a listing that are given, in the order in which they are first given. -/
def given (ids : List Int) (listing : List Product) : List Product :=
  (firstsBy id ids).filterMap fun id => listing.find? fun p => p.id = id

/-- The products of a listing that are not given. -/
def others (ids : List Int) (listing : List Product) : List Product :=
  listing.filter fun p => p.id ∉ ids

/-- Products in the order of the first places of their ids among members. -/
def byFirstPlace (members : List Int) (listing : List Product) : List Product :=
  sortBy (fun p q => decide (members.idxOf p.id ≤ members.idxOf q.id)) listing

section Order

variable {members ids : List Int} {listing : List Product}

theorem ids_given (ids : List Int) (listing : List Product) :
    (given ids listing).map (·.id) = (firstsBy id ids).filter (· ∈ listing.map (·.id)) := by
  unfold given
  rw [List.map_filterMap, ← List.filterMap_eq_filter]
  refine List.filterMap_congr fun id _ => ?_
  cases hfind : listing.find? fun p => p.id = id with
  | none =>
    have hid : id ∉ listing.map (·.id) := by
      intro hmem
      obtain ⟨p, hp, hpid⟩ := List.mem_map.1 hmem
      exact List.find?_eq_none.1 hfind p hp (decide_eq_true hpid)
    simp [Option.guard, hid]
  | some p =>
    have hpid : p.id = id := of_decide_eq_true (List.find?_some hfind :)
    have hid : id ∈ listing.map (·.id) :=
      List.mem_map.2 ⟨p, List.mem_of_find?_eq_some hfind, hpid⟩
    simp [Option.guard, hid, hpid]

theorem mem_of_mem_given {p : Product} (h : p ∈ given ids listing) : p ∈ listing := by
  obtain ⟨id, -, hfind⟩ := List.mem_filterMap.1 h
  exact List.mem_of_find?_eq_some hfind

theorem ids_others (ids : List Int) (listing : List Product) :
    (others ids listing).map (·.id) = (listing.map (·.id)).filter (· ∉ ids) := by
  unfold others
  rw [List.filter_map]
  rfl

/-- First occurrences stand in the order of their first places. -/
theorem pairwise_firstsBy (members : List Int) :
    (firstsBy id members).Pairwise fun a b => members.idxOf a < members.idxOf b := by
  induction members with
  | nil => exact .nil
  | cons m members ih =>
    have hbehind : ∀ a ∈ (firstsBy id members).filter (fun a => id a ≠ id m), m ≠ a := by
      intro a ha
      exact Ne.symm (of_decide_eq_true (List.mem_filter.1 ha).2)
    rw [firstsBy]
    refine List.pairwise_cons.2 ⟨fun a ha => ?_, (ih.filter _).imp_of_mem fun ha hb hab => ?_⟩
    · rw [List.idxOf_cons_self, List.idxOf_cons_ne members (hbehind a ha)]
      exact Nat.succ_pos _
    · rw [List.idxOf_cons_ne members (hbehind _ ha), List.idxOf_cons_ne members (hbehind _ hb)]
      exact Nat.succ_lt_succ hab

/-- Products that are put in the order of their first places stand in it. -/
theorem pairwise_byFirstPlace (hnodup : (listing.map (·.id)).Nodup)
    (hmembers : ∀ p ∈ listing, p.id ∈ members) :
    (byFirstPlace members listing).Pairwise fun p q =>
      members.idxOf p.id < members.idxOf q.id := by
  have hplaces : (listing.map fun p => (members.idxOf p.id : Int)).Nodup := by
    refine List.pairwise_map.2 ((List.pairwise_map.1 hnodup).imp_of_mem fun hp _ hne heq => ?_)
    exact hne ((List.idxOf_inj (hmembers _ hp)).1 (Int.ofNat.inj heq))
  have hsorted := pairwise_sortBy_key hplaces
  simp only [Int.ofNat_le, Int.ofNat_lt] at hsorted
  exact hsorted

/-- Products stay as they are if and only if they stand in the order of their first places. -/
theorem byFirstPlace_eq_self (hnodup : (listing.map (·.id)).Nodup)
    (hmembers : ∀ p ∈ listing, p.id ∈ members) :
    byFirstPlace members listing = listing ↔
      listing.Pairwise fun p q => members.idxOf p.id < members.idxOf q.id := by
  constructor
  · intro h
    rw [← h]
    exact pairwise_byFirstPlace hnodup hmembers
  · intro h
    exact sortBy_eq_self (h.imp fun hlt => decide_eq_true (Nat.le_of_lt hlt))

/-- An id that is a member once stands last where it stands first. -/
theorem isLastAt_of_count_eq_one {id : Int} (h : members.count id = 1) :
    IsLastAt members id (members.idxOf id) := by
  have hmem : id ∈ members := List.count_pos_iff.1 (by omega)
  have hfirst := List.getElem?_idxOf hmem
  refine ⟨hfirst, fun j hj hother => ?_⟩
  obtain ⟨hi, hid⟩ := List.getElem?_eq_some_iff.1 hfirst
  obtain ⟨hj', hid'⟩ := List.getElem?_eq_some_iff.1 hother
  have hduplicate : members.Duplicate id := List.duplicate_iff_exists_distinct_get.2
    ⟨⟨members.idxOf id, hi⟩, ⟨j, hj'⟩, hj, hid.symm, hid'.symm⟩
  have := List.duplicate_iff_two_le_count.1 hduplicate
  omega

end Order

end Listing

namespace Store

section Listings

variable {s s' : Store} {c : Collection} {faults : Faults} {ids : List Int}
  {members : List Int} {listing : List Product}

/-- Products of one store that have the same ids are the same. -/
theorem eq_of_ids_eq {xs ys : List Product}
    (hxs : ∀ p ∈ xs, ∃ row ∈ s.table.rows, row.toProduct = .ok p)
    (hys : ∀ p ∈ ys, ∃ row ∈ s.table.rows, row.toProduct = .ok p)
    (h : xs.map (·.id) = ys.map (·.id)) : xs = ys := by
  induction xs generalizing ys with
  | nil => exact (List.map_eq_nil_iff.1 h.symm).symm
  | cons x xs ih =>
    cases ys with
    | nil => cases h
    | cons y ys =>
      obtain ⟨hid, hrest⟩ := List.cons.inj h
      obtain ⟨row, hrow, hx⟩ := hxs x List.mem_cons_self
      obtain ⟨other, hother, hy⟩ := hys y List.mem_cons_self
      have hsame : row.id = other.id := by
        rw [← Row.id_of_toProduct hx, ← Row.id_of_toProduct hy]
        exact hid
      cases s.table.eq_of_id_eq hrow hother hsame
      rw [Except.ok.inj (hx.symm.trans hy), ih (fun p hp => hxs p (List.mem_cons_of_mem x hp))
        (fun p hp => hys p (List.mem_cons_of_mem y hp)) hrest]

/-- The others of a listing stand in the order of their first places among the members. -/
theorem others_of_firsts (h : s.IsListing members listing) :
    ((firstsBy id members).filter (· ∉ ids)).filter (· ∈ s.table.rows.map (·.id)) =
      (Listing.byFirstPlace members (Listing.others ids listing)).map (·.id) := by
  have hothers : ((Listing.others ids listing).map (·.id)).Nodup :=
    h.nodup.sublist (List.filter_sublist.map _)
  have hmembers : ∀ p ∈ Listing.others ids listing, p.id ∈ members := fun p hp =>
    ((h.mem_iff p.id).1 (List.mem_map_of_mem (List.mem_of_mem_filter hp))).1
  have hperm : ((Listing.byFirstPlace members (Listing.others ids listing)).map (·.id)).Perm
      ((Listing.others ids listing).map (·.id)) := (sortBy_perm _ _).map _
  have hsame : ∀ m, m ∈ ((firstsBy id members).filter (· ∉ ids)).filter
      (· ∈ s.table.rows.map (·.id)) ↔ m ∈ (Listing.others ids listing).map (·.id) := by
    intro m
    rw [Listing.ids_others, List.mem_filter, List.mem_filter, List.mem_filter, mem_firstsBy_id,
      decide_eq_true_iff, decide_eq_true_iff, h.mem_iff]
    tauto
  refine List.Perm.eq_of_pairwise (fun a b _ _ hab hba => ?_) (((Listing.pairwise_firstsBy
    members).filter _).filter _) (List.pairwise_map.2 (Listing.pairwise_byFirstPlace hothers
      hmembers)) ?_
  · exact absurd hab (Nat.lt_asymm hba)
  · exact ((List.perm_ext_iff_of_nodup (((nodup_firstsBy_id members).filter _).filter _)
      hothers).2 hsame).trans
      hperm.symm

/-- The listing of a collection with given members in front: the given products in the order in which
they are first given, and the others in the order of their first places among the members. -/
def reordered (s : Store) (collection : Int) (ids : List Int) (listing : List Product) :
    List Product :=
  Listing.given ids listing ++
    Listing.byFirstPlace (s.memberIds collection) (Listing.others ids listing)

/-- A listing of members that were moved to the front has the given products in front. -/
theorem eq_reordered {after : List Product} (h : s.IsListing (s.memberIds c.id) listing)
    (hafter : (s.withMoved c.id ids).IsListing ((s.withMoved c.id ids).memberIds c.id) after) :
    after = s.reordered c.id ids listing := by
  have hmoved := s.memberIds_withMoved c.id ids
  have hnodup : ((s.withMoved c.id ids).memberIds c.id).Nodup := by
    rw [hmoved]
    exact nodup_firstsBy_id _
  have hids := hafter.ids_eq_filter hnodup
  refine eq_of_ids_eq hafter.stored (fun p hp => ?_) ?_
  · rcases List.mem_append.1 hp with hp | hp
    · exact h.stored p (Listing.mem_of_mem_given hp)
    · exact h.stored p (List.mem_of_mem_filter (mem_sortBy.1 hp))
  · -- what comes first among the given ones and the members in a row, and is in the catalog
    have hgiven : ((firstsBy id ids).filter (· ∈ s.memberIds c.id)).filter
        (· ∈ s.table.rows.map (·.id)) = (firstsBy id ids).filter (· ∈ listing.map (·.id)) := by
      rw [List.filter_filter]
      refine List.filter_congr fun m _ => ?_
      rw [← Bool.decide_and, decide_eq_decide, h.mem_iff, and_comm]
    have hfirst : firstsBy id (ids.filter (· ∈ s.memberIds c.id)) =
        (firstsBy id ids).filter (· ∈ s.memberIds c.id) :=
      (filter_firstsBy (fun m => decide (m ∈ s.memberIds c.id)) ids).symm
    have hothers : (firstsBy id (s.memberIds c.id)).filter
        (fun m => id m ∉ (ids.filter (· ∈ s.memberIds c.id)).map id) =
        (firstsBy id (s.memberIds c.id)).filter (· ∉ ids) := by
      refine List.filter_congr fun m hm => ?_
      have hmember : m ∈ s.memberIds c.id := mem_firstsBy_id.1 hm
      rw [List.map_id, decide_eq_decide, List.mem_filter]
      simp [hmember]
    have hrest : _ = (Listing.byFirstPlace (s.memberIds c.id) (Listing.others ids listing)).map
        (·.id) := others_of_firsts h
    rw [hids, hmoved, firstsBy_append, hfirst, hothers, reordered, List.map_append,
      Listing.ids_given, List.filter_append]
    exact congrArg₂ (· ++ ·) hgiven hrest

/-- A collection that is put in order is a manual one, whose given members are moved to the front. -/
theorem withMoved_of_reorder (hc : c ∈ s.collections)
    (h : s.reorder faults (.int c.id) (.list (ids.map .int)) = (s', .ok true)) :
    c.isSmart = false ∧ s' = s.withMoved c.id ids := by
  have hitems : itemsOfValue (.list (ids.map .int)) = .ok (ids.map .int) := rfl
  unfold reorder at h
  rw [requireCollection_of_mem hc] at h
  dsimp only at h
  cases hsmart : c.isSmart with
  | true =>
    rw [if_pos hsmart] at h
    cases h
  | false =>
    rw [hsmart, if_neg Bool.false_ne_true, hitems] at h
    dsimp only at h
    rcases s.reorderMembers_int faults c.id ids with ⟨-, hmoved⟩ | ⟨-, failure, hfails⟩
    · rw [hmoved] at h
      exact ⟨rfl, (congrArg Prod.fst h).symm⟩
    · rw [hfails] at h
      cases h

/-- The members that can be read can be read where they are moved. -/
theorem exists_shows_withMoved (hc : c ∈ s.collections)
    (hread : ∀ row ∈ s.table.rows, row.id ∈ s.memberIds c.id → ∃ p, row.toProduct = .ok p)
    (ids : List Int) :
    ∃ after, (s.withMoved c.id ids).Shows c.id after ∧
      (s.withMoved c.id ids).IsListing ((s.withMoved c.id ids).memberIds c.id) after := by
  refine exists_shows (show c ∈ (s.withMoved c.id ids).collections from hc) fun row hrow hmember => ?_
  exact hread row hrow (mem_memberIds_withMoved.1 hmember)

/-- What is shown of a collection that is put in order: first the given products that it has, in the
order in which they are first given, then the others in the order of their first places among the
members. The others keep the order in which they were shown if and only if they were shown in that of
their first places, as they are where each of them is a member once. When nothing that is given is a
member, every page stays as it was under the same condition. -/
theorem shows_of_reorder (hc : c ∈ s.collections)
    (hread : ∀ row ∈ s.table.rows, row.id ∈ s.memberIds c.id → ∃ p, row.toProduct = .ok p)
    (h : s.reorder faults (.int c.id) (.list (ids.map .int)) = (s', .ok true)) :
    ∃ before, s.Shows c.id before ∧ s'.Shows c.id (s.reordered c.id ids before) ∧
      (s.reordered c.id ids before = Listing.given ids before ++ Listing.others ids before ↔
        (Listing.others ids before).Pairwise fun p q =>
          (s.memberIds c.id).idxOf p.id < (s.memberIds c.id).idxOf q.id) ∧
      ((∀ p ∈ Listing.others ids before, (s.memberIds c.id).count p.id = 1) →
        s.reordered c.id ids before = Listing.given ids before ++ Listing.others ids before) ∧
      ((∀ m ∈ ids, m ∉ s.memberIds c.id) →
        (s'.Shows c.id before ↔ before.Pairwise fun p q =>
          (s.memberIds c.id).idxOf p.id < (s.memberIds c.id).idxOf q.id)) := by
  obtain ⟨-, rfl⟩ := withMoved_of_reorder hc h
  obtain ⟨before, hbefore, hlisted⟩ := exists_shows hc hread
  obtain ⟨after, hafter, hlists⟩ := exists_shows_withMoved hc hread ids
  cases eq_reordered hlisted hlists
  have hmembers : ∀ p ∈ before, p.id ∈ s.memberIds c.id := fun p hp =>
    ((hlisted.mem_iff p.id).1 (List.mem_map_of_mem hp)).1
  have hothers : ((Listing.others ids before).map (·.id)).Nodup :=
    hlisted.nodup.sublist (List.filter_sublist.map _)
  have hkept : s.reordered c.id ids before = Listing.given ids before ++ Listing.others ids before ↔
      (Listing.others ids before).Pairwise fun p q =>
        (s.memberIds c.id).idxOf p.id < (s.memberIds c.id).idxOf q.id := by
    unfold reordered
    rw [List.append_cancel_left_eq, Listing.byFirstPlace_eq_self hothers
      fun p hp => hmembers p (List.mem_of_mem_filter hp)]
  refine ⟨before, hbefore, hafter, hkept, fun honce => hkept.2 ?_, fun hnone => ?_⟩
  · -- of members that do not repeat, the last places are the first ones
    refine (hlisted.ordered.filter _).imp_of_mem fun {p q} hp hq hpq => ?_
    exact hpq _ _ (Listing.isLastAt_of_count_eq_one (honce p hp))
      (Listing.isLastAt_of_count_eq_one (honce q hq))
  · have hgiven : Listing.given ids before = [] := by
      rw [← List.map_eq_nil_iff, Listing.ids_given, List.filter_eq_nil_iff]
      intro m hm hlisted'
      exact hnone m (mem_firstsBy_id.1 hm) ((hlisted.mem_iff m).1 (of_decide_eq_true hlisted')).1
    have hall : Listing.others ids before = before := by
      refine List.filter_eq_self.2 fun p hp => decide_eq_true fun hid => ?_
      exact hnone p.id hid (hmembers p hp)
    rw [hgiven, hall, List.nil_append] at hkept
    rw [← hkept]
    constructor
    · exact fun hsame => hafter.unique hsame
    · intro heq
      rw [← heq]
      exact hafter

end Listings

/-- The products that move are those of the catalog; the members that were listed last because they are
repeated stand at their first places. -/
theorem shows_of_reorder_gappy :
    ∃ t before after, gappy.reorder .none (.int 10) (.list ([2, 7, 2].map .int)) = (t, .ok true) ∧
      gappy.Shows 10 before ∧ t.Shows 10 after ∧
      before.map (·.id) = [1, 3, 2] ∧ after.map (·.id) = [2, 3, 1] := by
  have hc : ({ id := 10 } : Collection) ∈ gappy.collections := List.mem_singleton_self _
  have hmoved : gappy.reorder .none (.int 10) (.list ([2, 7, 2].map .int)) =
      (gappy.withMoved 10 [2, 7, 2], .ok true) := rfl
  obtain ⟨before, hbefore, hafter, -⟩ := shows_of_reorder hc
    (fun row hrow _ => Table.exists_product_acme hrow) hmoved
  exact ⟨_, before, _, hmoved, hbefore, hafter,
    ids_of_shows_gappy hbefore,
    hafter.ids_eq (by decide +kernel : ((gappy.withMoved 10 [2, 7, 2]).page (.int 10) (.int 1)
      (.int 9)).toOption.map (·.map (·.id)) = some [2, 3, 1]) (by decide)⟩

/-- A store of three products, in whose one collection a member comes before another one and again
after it. -/
def doubled : Store :=
  .ofParts Table.acme [{ id := 10 }] (Memberships.empty.replace 10 ([2, 1, 2].map .ofId))

/-- The others do not keep their order where one of them is a member twice: it was shown where it stands
last, and is shown where it stands first once its repetition is dropped. -/
theorem not_forall_shows_given_others :
    ¬∀ (s t : Store) (c : Collection) (faults : Faults) (ids : List Int), c ∈ s.collections →
      c.isSmart = false → (∀ row ∈ s.table.rows, ∃ p, row.toProduct = .ok p) →
      s.reorder faults (.int c.id) (.list (ids.map .int)) = (t, .ok true) →
      ∃ before, s.Shows c.id before ∧
        t.Shows c.id (Listing.given ids before ++ Listing.others ids before) := by
  intro h
  obtain ⟨before, hbefore, hafter⟩ := h doubled (doubled.withMoved 10 []) { id := 10 } .none []
    (List.mem_singleton_self _) rfl (fun _ hrow => Table.exists_product_acme hrow) rfl
  have hids : before.map (·.id) = [1, 2] :=
    hbefore.ids_eq (by decide +kernel : (doubled.page (.int 10) (.int 1) (.int 9)).toOption.map
      (·.map (·.id)) = some [1, 2]) (by decide)
  have hmoved : (Listing.given [] before ++ Listing.others [] before).map (·.id) = [2, 1] :=
    hafter.ids_eq (by decide +kernel : ((doubled.withMoved 10 []).page (.int 10) (.int 1)
      (.int 9)).toOption.map (·.map (·.id)) = some [2, 1]) (by decide)
  have hsame : Listing.given [] before ++ Listing.others [] before = before :=
    List.filter_eq_self.2 fun _ _ => rfl
  rw [hsame, hids] at hmoved
  cases hmoved

end Store

end Storefront
