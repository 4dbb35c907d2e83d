/-!
# First occurrences

A list of which every element is kept where its key occurs first, and the loop that builds it: the
elements are taken one after the other, and each is added at the end unless its key is there.

* `firstsBy`: the elements of a list whose keys do not occur earlier
* `nodup_firstsBy`, `mem_keys_firstsBy`: every key is left, and none twice
* `mem_firstsBy_iff`: an element is left if its key finds it first
* `map_firstsBy`, `filter_firstsBy`: the keys that are left, and keys that are filtered out
* `firstsBy_append`, `firstsBy_append_firstsBy`: first occurrences in two lists in a row
* `appendNew`, `foldl_appendNew`: the loop, and what it has built after each element
-/

namespace Storefront

variable {α κ : Type} [DecidableEq κ] {key : α → κ}

/-- The elements of a list without those whose key occurs earlier. -/
def firstsBy (key : α → κ) : List α → List α
  | [] => []
  | x :: xs => x :: (firstsBy key xs).filter fun y => key y ≠ key x

theorem firstsBy_sublist (xs : List α) : (firstsBy key xs).Sublist xs := by
  induction xs with
  | nil => exact .slnil
  | cons x xs ih => exact (List.filter_sublist.trans ih).cons_cons x

/-- No key is left twice. -/
theorem nodup_firstsBy (xs : List α) : ((firstsBy key xs).map key).Nodup := by
  induction xs with
  | nil => exact .nil
  | cons x xs ih =>
    rw [firstsBy, List.map_cons, List.nodup_cons]
    constructor
    · intro hmem
      obtain ⟨y, hy, hkey⟩ := List.mem_map.1 hmem
      exact of_decide_eq_true (List.mem_filter.1 hy).2 hkey
    · exact ih.sublist (List.filter_sublist.map key)

/-- Every key is left once. -/
theorem mem_keys_firstsBy {xs : List α} {k : κ} :
    k ∈ (firstsBy key xs).map key ↔ k ∈ xs.map key := by
  induction xs with
  | nil => exact Iff.rfl
  | cons x xs ih =>
    rw [firstsBy, List.map_cons, List.map_cons, List.mem_cons, List.mem_cons, ← ih]
    by_cases hk : k = key x
    · simp [hk]
    · simp only [hk, false_or, List.mem_map, List.mem_filter, decide_eq_true_eq]
      constructor
      · rintro ⟨y, ⟨hy, -⟩, hkey⟩
        exact ⟨y, hy, hkey⟩
      · rintro ⟨y, hy, hkey⟩
        exact ⟨y, ⟨hy, fun heq => hk (hkey.symm.trans heq)⟩, hkey⟩

/-- What is left is what a search for its key finds first. -/
theorem mem_firstsBy_iff {xs : List α} {x : α} :
    x ∈ firstsBy key xs ↔ xs.find? (fun y => key y = key x) = some x := by
  induction xs with
  | nil => simp [firstsBy]
  | cons y ys ih =>
    rw [firstsBy, List.mem_cons, List.mem_filter, ih, List.find?_cons]
    by_cases hkey : key y = key x
    · simp [hkey, eq_comm]
    · have hne : x ≠ y := fun heq => hkey (congrArg key heq.symm)
      simp [hkey, hne, Ne.symm hkey]

/-- The beginning of a list, if it has no key twice, is left as it is. -/
theorem prefix_firstsBy {xs : List α} (ys : List α) (h : (xs.map key).Nodup) :
    xs <+: firstsBy key (xs ++ ys) := by
  induction xs with
  | nil => exact List.nil_prefix
  | cons x xs ih =>
    obtain ⟨hx, hxs⟩ := List.nodup_cons.1 h
    have hothers : xs.filter (fun y => key y ≠ key x) = xs := by
      rw [List.filter_eq_self]
      intro y hy
      exact decide_eq_true fun hkey => hx (List.mem_map.2 ⟨y, hy, hkey⟩)
    have hrest := (ih hxs).filter fun y => key y ≠ key x
    rw [hothers] at hrest
    exact List.cons_prefix_cons.2 ⟨rfl, hrest⟩

/-- A list without repeated keys is left as it is. -/
theorem firstsBy_of_nodup {xs : List α} (h : (xs.map key).Nodup) : firstsBy key xs = xs := by
  have hprefix := prefix_firstsBy [] h
  rw [List.append_nil] at hprefix
  exact (firstsBy_sublist xs).eq_of_length_le hprefix.length_le

/-- The keys that are left are the first occurrences among the keys. -/
theorem map_firstsBy (xs : List α) : (firstsBy key xs).map key = firstsBy id (xs.map key) := by
  induction xs with
  | nil => rfl
  | cons x xs ih =>
    rw [firstsBy, List.map_cons, List.map_cons, firstsBy, ← ih, List.filter_map]
    rfl

/-- Keys are left without repetitions. -/
theorem nodup_firstsBy_id (ks : List κ) : (firstsBy id ks).Nodup := by
  have h : ((firstsBy id ks).map id).Nodup := nodup_firstsBy ks
  rwa [List.map_id] at h

/-- No key is lost. -/
theorem mem_firstsBy_id {ks : List κ} {k : κ} : k ∈ firstsBy id ks ↔ k ∈ ks := by
  have h : k ∈ (firstsBy id ks).map id ↔ k ∈ ks.map id := mem_keys_firstsBy
  rwa [List.map_id, List.map_id] at h

/-- Keys are filtered out before or after repeated ones are. -/
theorem filter_firstsBy (p : κ → Bool) (xs : List α) :
    (firstsBy key xs).filter (fun x => p (key x)) = firstsBy key (xs.filter fun x => p (key x)) := by
  induction xs with
  | nil => rfl
  | cons x xs ih =>
    rw [firstsBy, List.filter_cons, List.filter_cons]
    by_cases hx : p (key x) = true
    · rw [if_pos hx, if_pos hx, firstsBy, ← ih, List.filter_filter, List.filter_filter]
      congr 2
      funext y
      exact Bool.and_comm _ _
    · rw [if_neg hx, if_neg hx, ← ih, List.filter_filter]
      congr 1
      funext y
      -- an element with the key of one that is filtered out is filtered out itself
      by_cases hy : key y = key x
      · simp [hy, hx]
      · simp [hy]

/-- Of two lists in a row, the second has left what does not occur in the first. -/
theorem firstsBy_append (xs ys : List α) :
    firstsBy key (xs ++ ys) =
      firstsBy key xs ++ (firstsBy key ys).filter fun y => key y ∉ xs.map key := by
  induction xs with
  | nil => exact (List.filter_eq_self.2 fun y _ => by simp).symm
  | cons x xs ih =>
    rw [List.cons_append, firstsBy, ih, firstsBy, List.filter_append, List.filter_filter,
      List.cons_append]
    congr 3
    funext y
    simp [not_or]

/-- Repeated keys of the second of two lists may be dropped first. -/
theorem firstsBy_append_firstsBy (xs ys : List α) :
    firstsBy key (xs ++ firstsBy key ys) = firstsBy key (xs ++ ys) := by
  rw [firstsBy_append, firstsBy_append, firstsBy_of_nodup (nodup_firstsBy ys)]

/-- A list that stands twice in front leaves nothing behind its first time. -/
theorem firstsBy_append_append_self (xs ys : List α) :
    firstsBy key (xs ++ (xs ++ ys)) = firstsBy key (xs ++ ys) := by
  have hnone : (firstsBy key xs).filter (fun y => key y ∉ xs.map key) = [] := by
    rw [List.filter_eq_nil_iff]
    intro y hy
    simpa using ⟨y, (firstsBy_sublist xs).subset hy, rfl⟩
  rw [firstsBy_append, firstsBy_append, List.filter_append, hnone, List.nil_append,
    List.filter_filter]
  congr 2
  funext y
  exact Bool.and_self _

/-! ## The loop -/

/-- A list with one more element at its end, unless one with its key is there. -/
def appendNew (key : α → κ) (listed : List α) (x : α) : List α :=
  if listed.any fun y => key y = key x then listed else listed ++ [x]

/-- One more element at the end of the list is one more step of the loop. -/
theorem appendNew_firstsBy (xs : List α) (x : α) :
    appendNew key (firstsBy key xs) x = firstsBy key (xs ++ [x]) := by
  have hlisted : ((firstsBy key xs).any fun y => key y = key x) = true ↔ key x ∈ xs.map key := by
    rw [← mem_keys_firstsBy, List.any_eq_true, List.mem_map]
    simp only [decide_eq_true_eq]
  have hlast : firstsBy key [x] = [x] := rfl
  rw [firstsBy_append, hlast, appendNew]
  by_cases hx : key x ∈ xs.map key
  · rw [if_pos (hlisted.2 hx), List.filter_cons, if_neg (by simpa using hx), List.filter_nil,
      List.append_nil]
  · rw [if_neg fun h => hx (hlisted.1 h), List.filter_cons, if_pos (by simpa using hx),
      List.filter_nil]

/-- The loop over a list that follows on others has built their first occurrences. -/
theorem foldl_appendNew (xs ys : List α) :
    ys.foldl (appendNew key) (firstsBy key xs) = firstsBy key (xs ++ ys) := by
  induction ys generalizing xs with
  | nil => rw [List.foldl_nil, List.append_nil]
  | cons y ys ih => rw [List.foldl_cons, appendNew_firstsBy, ih, List.append_assoc,
      List.singleton_append]

end Storefront
