import Mathlib.Algebra.BigOperators.Group.List.Basic
import Mathlib.Algebra.GroupWithZero.Nat
import Storefront.Proofs.RuleMeaning

/-!
# The width of predicates

A predicate joins a number of single conditions, its width. Joining predicates adds their widths,
however they are flattened on the way, so that the predicate of a rule is as wide as it has single
conditions that can be used.

* `Predicate.width`: the number of single conditions
* `Entry.totalWidth`, `Entry.width_group`: the conditions that are joined in a group
* `Entry.width_pos`: a usable predicate is not empty
-/

namespace Storefront

/-! ## The width of a predicate -/

namespace Predicate

/-- The number of single conditions that are joined in a predicate. -/
def width : Predicate → Nat
  | .matchNone => 0
  | .allOf children | .anyOf children => widths children
  | _ => 1
where
  /-- The number of single conditions in a list of predicates. -/
  widths : List Predicate → Nat
    | [] => 0
    | p :: ps => p.width + widths ps

theorem widths_eq_sum (ps : List Predicate) : width.widths ps = (ps.map width).sum := by
  induction ps with
  | nil => rfl
  | cons p ps ih => rw [width.widths, ih, List.map_cons, List.sum_cons]

theorem sum_width_conjuncts (p : Predicate) : (p.conjuncts.map width).sum = p.width := by
  cases p with
  | allOf children =>
    show (children.map width).sum = width.widths children
    rw [widths_eq_sum]
  | _ => rfl

/-- Flattening keeps the number of conditions. -/
theorem width_conjunction (ps : List Predicate) :
    (conjunction ps).width = (ps.map width).sum := by
  have hflat : ((ps.flatMap conjuncts).map width).sum = (ps.map width).sum := by
    induction ps with
    | nil => rfl
    | cons p ps ih =>
      rw [List.flatMap_cons, List.map_append, List.sum_append, sum_width_conjuncts, ih,
        List.map_cons, List.sum_cons]
  rw [← hflat, conjunction]
  split
  · rename_i p heq
    rw [heq]
    simp
  · show width.widths _ = _
    exact widths_eq_sum _

theorem width_disjunction (ps : List Predicate) :
    (disjunction ps).width = (ps.map width).sum := by
  unfold disjunction
  split
  · simp
  · show width.widths _ = _
    exact widths_eq_sum _

end Predicate

/-- The predicate of a single condition is one condition. -/
theorem Leaf.width_predicate? {l : Leaf} {p : Predicate} (h : l.predicate? = some p) :
    p.width = 1 := by
  unfold predicate? at h
  split at h
  · cases h
    rfl
  · obtain ⟨s, -, -, rfl⟩ := withValue_eq_some.1 h
    rfl
  · cases h
    rfl
  · split at h
    · cases h
    · cases h
      rfl
  · obtain ⟨s, -, -, rfl⟩ := withValue_eq_some.1 h
    rfl
  · obtain ⟨s, -, -, rfl⟩ := withValue_eq_some.1 h
    rfl
  · cases h
    rfl
  · cases h
    rfl
  · cases h

namespace Entry

/-- The number of single conditions in the predicates of a list of entries. -/
def totalWidth (entries : List Entry) : Nat := (entries.map fun entry => entry.predicate.width).sum

theorem totalWidth_cons (entry : Entry) (entries : List Entry) :
    totalWidth (entry :: entries) = entry.predicate.width + totalWidth entries := by
  rw [totalWidth, totalWidth, List.map_cons, List.sum_cons]

/-- An entry without a usable predicate counts nothing. -/
theorem sum_width_predicates (entries : List Entry) :
    ((predicate?.predicates entries).map Predicate.width).sum = totalWidth entries := by
  induction entries with
  | nil => rfl
  | cons entry entries ih =>
    rw [predicate?.predicates, totalWidth_cons, ← ih, predicate]
    cases entry.predicate? with
    | none =>
      show _ = 0 + _
      rw [Nat.zero_add]
    | some p => rw [List.map_cons, List.sum_cons, Option.getD_some]

/-- A group joins the conditions of its entries. -/
theorem width_group (logic : String) (entries : List Entry) :
    (group logic entries).predicate.width = totalWidth entries := by
  rw [← sum_width_predicates, predicate, predicate?]
  cases predicate?.predicates entries with
  | nil => rfl
  | cons p ps =>
    cases hjoined : combine? logic (p :: ps) with
    | none => cases hjoined
    | some q =>
      rw [Option.getD_some]
      obtain ⟨-, ⟨-, rfl⟩ | ⟨-, rfl⟩⟩ := combine?_eq_some.1 hjoined
      · exact Predicate.width_disjunction _
      · exact Predicate.width_conjunction _

/-- Usable predicates join a condition at least. -/
theorem width_pos {entry : Entry} {p : Predicate} (h : entry.predicate? = some p) :
    0 < p.width := by
  match entry, h with
  | .leaf l, h =>
    rw [predicate?] at h
    rw [Leaf.width_predicate? h]
    exact Nat.one_pos
  | .group logic entries, h =>
    have hgroup : (group logic entries).predicate = p := by rw [predicate, h, Option.getD_some]
    rw [predicate?] at h
    have hne := (combine?_eq_some.1 h).1
    rw [← hgroup, width_group, ← sum_width_predicates]
    cases hps : predicate?.predicates entries with
    | nil => exact absurd hps hne
    | cons q qs =>
      have hq : q ∈ entries.filterMap predicate? := by
        rw [← predicates_eq_filterMap, hps]
        exact List.mem_cons_self
      obtain ⟨child, hchild, hq⟩ := List.mem_filterMap.1 hq
      have := List.sizeOf_lt_of_mem hchild
      have hpos : 0 < q.width := width_pos hq
      rw [List.map_cons, List.sum_cons]
      omega

end Entry

end Storefront
