/-!
# Splitting

* `splitBy`: a list split at the elements that satisfy a test
* `isInfix_of_mem_splitBy`, `isBreak_of_mem_splitBy`: its parts are pieces of it without a break
-/

namespace Storefront

/-- A list split at the elements that satisfy a test, which are left out. -/
def splitBy {α : Type} (isBreak : α → Bool) : List α → List (List α)
  | [] => [[]]
  | x :: xs =>
    if isBreak x then [] :: splitBy isBreak xs
    else match splitBy isBreak xs with
      | [] => [[x]]
      | part :: parts => (x :: part) :: parts

variable {α : Type} {isBreak : α → Bool}

theorem splitBy_eq_splitOnP (isBreak : α → Bool) (xs : List α) :
    splitBy isBreak xs = xs.splitOnP isBreak := by
  induction xs with
  | nil => rfl
  | cons x xs ih =>
    obtain ⟨part, parts, hparts⟩ := List.exists_cons_of_ne_nil (List.splitOnP_ne_nil isBreak xs)
    rw [splitBy, List.splitOnP_cons_eq_if_modifyHead, ih, hparts]
    rfl

theorem exists_splitBy_eq_cons (isBreak : α → Bool) (xs : List α) :
    ∃ part parts, splitBy isBreak xs = part :: parts := by
  rw [splitBy_eq_splitOnP]
  exact List.exists_cons_of_ne_nil (List.splitOnP_ne_nil isBreak xs)

/-- An element that is no break belongs to the first part. -/
theorem splitBy_cons_of_not {x : α} (h : isBreak x = false) {xs part : List α}
    {parts : List (List α)} (hparts : splitBy isBreak xs = part :: parts) :
    splitBy isBreak (x :: xs) = (x :: part) :: parts := by
  rw [splitBy, if_neg (by simp [h]), hparts]

theorem isBreak_of_mem_splitBy {xs part : List α} (h : part ∈ splitBy isBreak xs) :
    ∀ x ∈ part, isBreak x = false := by
  induction xs generalizing part with
  | nil => simp_all [splitBy]
  | cons x xs ih =>
    by_cases hx : isBreak x = true
    · rw [splitBy, if_pos hx] at h
      rcases List.mem_cons.1 h with rfl | h
      · simp
      · exact ih h
    · obtain ⟨first, parts, hparts⟩ := exists_splitBy_eq_cons isBreak xs
      have hx : isBreak x = false := Bool.eq_false_iff.2 hx
      rw [splitBy_cons_of_not hx hparts] at h
      rw [hparts] at ih
      rcases List.mem_cons.1 h with rfl | h
      · exact List.forall_mem_cons.2 ⟨hx, ih List.mem_cons_self⟩
      · exact ih (List.mem_cons_of_mem first h)

/-- The first part starts a list, and the other parts lie within it. -/
theorem isPrefix_and_isInfix_of_splitBy {xs part : List α} {parts : List (List α)}
    (h : splitBy isBreak xs = part :: parts) : part <+: xs ∧ ∀ p ∈ parts, p <:+: xs := by
  induction xs generalizing part parts with
  | nil => cases h; simp
  | cons x xs ih =>
    obtain ⟨first, rest, hrest⟩ := exists_splitBy_eq_cons isBreak xs
    obtain ⟨hfirst, hothers⟩ := ih hrest
    have hwithin : ∀ {p : List α}, p <:+: xs → p <:+: x :: xs := fun hp =>
      hp.trans (List.suffix_cons x xs).isInfix
    by_cases hx : isBreak x = true
    · rw [splitBy, if_pos hx, hrest] at h
      obtain ⟨rfl, rfl⟩ := List.cons.inj h
      refine ⟨List.nil_prefix, fun p hp => hwithin ?_⟩
      rcases List.mem_cons.1 hp with rfl | hp
      · exact hfirst.isInfix
      · exact hothers p hp
    · cases (splitBy_cons_of_not (Bool.eq_false_iff.2 hx) hrest).symm.trans h
      exact ⟨(List.prefix_cons_inj x).2 hfirst, fun p hp => hwithin (hothers p hp)⟩

theorem isInfix_of_mem_splitBy {xs part : List α} (h : part ∈ splitBy isBreak xs) :
    part <:+: xs := by
  obtain ⟨first, parts, hparts⟩ := exists_splitBy_eq_cons isBreak xs
  obtain ⟨hfirst, hothers⟩ := isPrefix_and_isInfix_of_splitBy hparts
  rw [hparts] at h
  rcases List.mem_cons.1 h with rfl | h
  · exact hfirst.isInfix
  · exact hothers part h

end Storefront
