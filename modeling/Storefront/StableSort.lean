/-!
# Stable sorting

Sorting by a comparison that keeps the order of elements it does not tell apart.

* `sortBy`: the sorted list
* `sortBy_perm`, `mem_sortBy`: it holds the same elements
* `sortBy_map`: it commutes with a map
* `pairwise_sortBy`: its elements are in order, for a total and transitive comparison
* `pairwise_sortBy_stable`: elements that are not told apart keep their order
* `sortBy_eq_self`: a list in order stays as it is
* `pairwise_sortBy_key`, `sortBy_key_of_perm`: sorting by keys that differ
-/

namespace Storefront

variable {α : Type}

/-- Puts an element in front of the first one that it is not greater than. -/
def insertBy (le : α → α → Bool) (x : α) : List α → List α
  | [] => [x]
  | y :: ys => if le x y then x :: y :: ys else y :: insertBy le x ys

/-- The list in the order of a comparison; elements it does not tell apart keep their order. -/
def sortBy (le : α → α → Bool) (xs : List α) : List α := xs.foldr (insertBy le) []

@[simp]
theorem sortBy_nil (le : α → α → Bool) : sortBy le [] = [] := rfl

@[simp]
theorem sortBy_cons (le : α → α → Bool) (x : α) (xs : List α) :
    sortBy le (x :: xs) = insertBy le x (sortBy le xs) := rfl

theorem insertBy_perm (le : α → α → Bool) (x : α) (ys : List α) :
    (insertBy le x ys).Perm (x :: ys) := by
  induction ys with
  | nil => exact .refl _
  | cons y ys ih =>
    rw [insertBy]
    split
    · exact .refl _
    · exact (ih.cons y).trans (.swap x y ys)

theorem sortBy_perm (le : α → α → Bool) (xs : List α) : (sortBy le xs).Perm xs := by
  induction xs with
  | nil => exact .refl _
  | cons x xs ih => exact (insertBy_perm le x _).trans (ih.cons x)

@[simp]
theorem mem_sortBy {le : α → α → Bool} {x : α} {xs : List α} : x ∈ sortBy le xs ↔ x ∈ xs :=
  (sortBy_perm le xs).mem_iff

@[simp]
theorem length_sortBy (le : α → α → Bool) (xs : List α) : (sortBy le xs).length = xs.length :=
  (sortBy_perm le xs).length_eq

/-- Sorting commutes with a map that keeps the comparison. -/
theorem sortBy_map {β : Type} (le : α → α → Bool) (f : β → α) (ys : List β) :
    sortBy le (ys.map f) = (sortBy (fun a b => le (f a) (f b)) ys).map f := by
  have hinsert (y : β) (zs : List β) :
      insertBy le (f y) (zs.map f) = (insertBy (fun a b => le (f a) (f b)) y zs).map f := by
    induction zs with
    | nil => rfl
    | cons z zs ih =>
      rw [List.map_cons, insertBy, insertBy]
      split
      · rfl
      · rw [List.map_cons, ih]
  induction ys with
  | nil => rfl
  | cons y ys ih => rw [List.map_cons, sortBy_cons, ih, hinsert, sortBy_cons]

section Order

variable {le : α → α → Bool} {P : α → Prop} {S : α → α → Prop}

theorem pairwise_insertBy (total : ∀ a b, P a → P b → le a b = true ∨ le b a = true)
    (trans : ∀ a b c, P a → P b → P c → le a b = true → le b c = true → le a c = true)
    {x : α} {ys : List α} (hx : P x) (hP : ∀ y ∈ ys, P y) (hS : ∀ y ∈ ys, S x y)
    (h : ys.Pairwise fun a b => le a b = true ∧ (le b a = true → S a b)) :
    (insertBy le x ys).Pairwise fun a b => le a b = true ∧ (le b a = true → S a b) := by
  induction ys with
  | nil => simp [insertBy]
  | cons y ys ih =>
    obtain ⟨hy, hys⟩ := List.pairwise_cons.1 h
    have hPy : P y := hP y List.mem_cons_self
    have hPys : ∀ z ∈ ys, P z := fun z hz => hP z (List.mem_cons_of_mem y hz)
    rw [insertBy]
    split
    · rename_i hxy
      refine List.pairwise_cons.2 ⟨fun z hz => ⟨?_, fun _ => hS z hz⟩, h⟩
      rcases List.mem_cons.1 hz with rfl | hz
      · exact hxy
      · exact trans x y z hx hPy (hPys z hz) hxy (hy z hz).1
    · rename_i hxy
      refine List.pairwise_cons.2 ⟨fun z hz => ?_, ih hPys (fun z hz =>
        hS z (List.mem_cons_of_mem y hz)) hys⟩
      rcases List.mem_cons.1 ((insertBy_perm le x ys).mem_iff.1 hz) with rfl | hz
      · exact ⟨(total z y hx hPy).resolve_left hxy, fun hzy => absurd hzy hxy⟩
      · exact hy z hz

/-- Sorting is stable: of two elements in a sorted list, the first stands at or before the second,
and if the comparison does not tell them apart, they stand as in the list that was sorted. -/
theorem pairwise_sortBy_stable (total : ∀ a b, P a → P b → le a b = true ∨ le b a = true)
    (trans : ∀ a b c, P a → P b → P c → le a b = true → le b c = true → le a c = true)
    {xs : List α} (hP : ∀ x ∈ xs, P x) (hS : xs.Pairwise S) :
    (sortBy le xs).Pairwise fun a b => le a b = true ∧ (le b a = true → S a b) := by
  induction xs with
  | nil => exact .nil
  | cons x xs ih =>
    obtain ⟨hx, hxs⟩ := List.pairwise_cons.1 hS
    refine pairwise_insertBy total trans (hP x List.mem_cons_self) (fun y hy => ?_)
      (fun y hy => hx y (mem_sortBy.1 hy)) (ih (fun y hy => hP y (List.mem_cons_of_mem x hy)) hxs)
    exact hP y (List.mem_cons_of_mem x (mem_sortBy.1 hy))

/-- A sorted list is in order. -/
theorem pairwise_sortBy (total : ∀ a b, le a b = true ∨ le b a = true)
    (trans : ∀ a b c, le a b = true → le b c = true → le a c = true) (xs : List α) :
    (sortBy le xs).Pairwise (le · · = true) := by
  have hall : xs.Pairwise fun _ _ => True := List.pairwise_of_forall fun _ _ => trivial
  exact (pairwise_sortBy_stable (P := fun _ => True) (fun a b _ _ => total a b)
    (fun a b c _ _ _ => trans a b c) (fun _ _ => trivial) hall).imp And.left

/-- A list that is in order is not changed by sorting. -/
theorem sortBy_eq_self {xs : List α} (h : xs.Pairwise (le · · = true)) : sortBy le xs = xs := by
  induction xs with
  | nil => rfl
  | cons x xs ih =>
    obtain ⟨hx, hxs⟩ := List.pairwise_cons.1 h
    rw [sortBy_cons, ih hxs]
    cases xs with
    | nil => rfl
    | cons y ys => rw [insertBy, if_pos (hx y List.mem_cons_self)]

end Order

/-! ## Keys -/

section Keys

variable {key : α → Int}

/-- Sorting by keys that differ leaves the keys in strictly ascending order. -/
theorem pairwise_sortBy_key {xs : List α} (h : (xs.map key).Nodup) :
    (sortBy (fun a b => decide (key a ≤ key b)) xs).Pairwise fun a b => key a < key b := by
  have hle : (sortBy (fun a b => decide (key a ≤ key b)) xs).Pairwise
      fun a b => decide (key a ≤ key b) = true :=
    pairwise_sortBy (fun a b => by simp only [decide_eq_true_eq]; omega)
      (fun a b c => by simp only [decide_eq_true_eq]; omega) xs
  have hne : (sortBy (fun a b => decide (key a ≤ key b)) xs).Pairwise fun a b => key a ≠ key b :=
    List.pairwise_map.1 (((sortBy_perm _ xs).map key).nodup_iff.2 h)
  refine (hle.and hne).imp fun {a b} hab => ?_
  have := of_decide_eq_true hab.1
  have := hab.2
  omega

/-- Sorting by keys that differ does not depend on the order in which the elements came. -/
theorem sortBy_key_of_perm {xs ys : List α} (h : xs.Perm ys) (hnodup : (xs.map key).Nodup) :
    sortBy (fun a b => decide (key a ≤ key b)) xs =
      sortBy (fun a b => decide (key a ≤ key b)) ys := by
  have hxs := pairwise_sortBy_key hnodup
  have hys := pairwise_sortBy_key ((h.map key).nodup_iff.1 hnodup)
  refine List.Perm.eq_of_pairwise (fun a b _ _ hab hba => ?_) hxs hys
    ((sortBy_perm _ xs).trans (h.trans (sortBy_perm _ ys).symm))
  omega

end Keys

end Storefront
