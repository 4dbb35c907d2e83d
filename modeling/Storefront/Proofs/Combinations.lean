import Storefront.Catalog.Matching
import Storefront.Outcome

/-!
# What combinations of predicates mean

A conjunction matches where all of its parts do, and a disjunction where some part does, however
they were flattened; and either can be decided on a table as soon as all of its parts can be.

* `holds_conjunction`, `holds_disjunction`: which rows match
* `check_conjunction`, `check_disjunction`: which tables decide them
-/

namespace Storefront.Predicate

variable {t : Table} {m : Memberships} {row : Row}

/-! ## Lists of predicates -/

theorem holdsAll_eq_true {ps : List Predicate} :
    holds.holdsAll t m row ps = true ↔ ∀ p ∈ ps, p.holds t m row = true := by
  induction ps with
  | nil => simp [holds.holdsAll]
  | cons p ps ih => rw [holds.holdsAll, Bool.and_eq_true, ih, List.forall_mem_cons]

theorem holdsAny_eq_true {ps : List Predicate} :
    holds.holdsAny t m row ps = true ↔ ∃ p ∈ ps, p.holds t m row = true := by
  induction ps with
  | nil => simp [holds.holdsAny]
  | cons p ps ih => simp [holds.holdsAny, ih]

theorem checkAll_eq_ok {ps : List Predicate} :
    check.checkAll t ps = .ok () ↔ ∀ p ∈ ps, p.check t = .ok () := by
  induction ps with
  | nil => simp [check.checkAll]
  | cons p ps ih =>
    rw [check.checkAll, bind_eq_ok, List.forall_mem_cons, ← ih]
    exact ⟨fun ⟨_, hp, hps⟩ => ⟨hp, hps⟩, fun ⟨hp, hps⟩ => ⟨(), hp, hps⟩⟩

/-! ## Flattening -/

/-- What holds of a conjunction as soon as it holds of the parts holds of a flattened one, too. -/
theorem conjunction_iff (Holds : Predicate → Prop)
    (hall : ∀ children, Holds (.allOf children) ↔ ∀ p ∈ children, Holds p) {ps : List Predicate} :
    Holds (conjunction ps) ↔ ∀ p ∈ ps, Holds p := by
  have hconjuncts : ∀ p : Predicate, (∀ q ∈ p.conjuncts, Holds q) ↔ Holds p := by
    intro p
    cases p with
    | allOf children => exact (hall children).symm
    | _ => simp [conjuncts]
  have hflat : (∀ q ∈ ps.flatMap conjuncts, Holds q) ↔ ∀ p ∈ ps, Holds p := by
    constructor
    · intro h p hp
      exact (hconjuncts p).1 fun q hq => h q (List.mem_flatMap.2 ⟨p, hp, hq⟩)
    · intro h q hq
      obtain ⟨p, hp, hq⟩ := List.mem_flatMap.1 hq
      exact (hconjuncts p).2 (h p hp) q hq
  rw [← hflat, conjunction]
  split
  · rename_i p heq
    rw [heq]
    simp
  · exact hall _

theorem holds_conjunction {ps : List Predicate} :
    (conjunction ps).holds t m row = true ↔ ∀ p ∈ ps, p.holds t m row = true := by
  apply conjunction_iff fun p => p.holds t m row = true
  intro children
  rw [holds, holdsAll_eq_true]

theorem check_conjunction {ps : List Predicate} :
    (conjunction ps).check t = .ok () ↔ ∀ p ∈ ps, p.check t = .ok () := by
  apply conjunction_iff fun p => p.check t = .ok ()
  intro children
  rw [check, checkAll_eq_ok]

theorem holds_disjunction {ps : List Predicate} :
    (disjunction ps).holds t m row = true ↔ ∃ p ∈ ps, p.holds t m row = true := by
  unfold disjunction
  split
  · simp
  · rw [holds, holdsAny_eq_true]

theorem check_disjunction {ps : List Predicate} :
    (disjunction ps).check t = .ok () ↔ ∀ p ∈ ps, p.check t = .ok () := by
  unfold disjunction
  split
  · simp
  · rw [check, checkAll_eq_ok]

end Storefront.Predicate
