import Storefront.Catalog.Rule.Entry
import Storefront.Outcome
import Storefront.Proofs.Combinations
import Storefront.Proofs.Conditions

/-!
# What rules mean

Which products satisfy a rule is said here of the rule itself, as it is stored: node by node, with
no predicate in between. The predicate into which a rule is compiled matches the same products.

* `Leaf.IsUsable`, `Leaf.IsMetBy`: single conditions
* `Rule.IsUsable`, `Rule.IsSatisfiedBy`: whole rules
* `Rule.holds_compile`: the predicate of a rule matches the rows that satisfy the rule
* `Rule.check_compile`: it can be decided on every table
-/

namespace Storefront

/-! ## Single conditions -/

/-- A condition of a known type has what it needs. -/
inductive Leaf.IsUsable (l : Leaf) : Prop
  | all (type : l.type = "all")
  | tagContains (type : l.type = "tag_contains") (s : String) (value : l.value = some s)
    (ne_empty : s ≠ "")
  | hasComparePrice (type : l.type = "has_compare_price")
  | priceRange (type : l.type = "price_range") (bounded : l.minPrice ≠ none ∨ l.maxPrice ≠ none)
  | productType (type : l.type = "product_type") (s : String) (value : l.value = some s)
    (ne_empty : s ≠ "")
  | vendor (type : l.type = "vendor") (s : String) (value : l.value = some s) (ne_empty : s ≠ "")
  | inStock (type : l.type = "in_stock")
  | outOfStock (type : l.type = "out_of_stock")

/-- A row meets a condition, according to the type of the condition. -/
inductive Leaf.IsMetBy (row : Row) (l : Leaf) : Prop
  | all (type : l.type = "all")
  | tagContains (type : l.type = "tag_contains") (s : String) (value : l.value = some s)
    (part : upper s <:+: upper row.tags)
  | hasComparePrice (type : l.type = "has_compare_price") (x y : Binary64)
    (compareAtPrice : row.compareAtPrice = some x) (price : row.price = some y)
    (lower : y.lt x = true)
  | priceRange (type : l.type = "price_range") (x : Binary64) (price : row.price = some x)
    (above : ∀ low ∈ l.minPrice, low.le x = true) (below : ∀ high ∈ l.maxPrice, x.le high = true)
  | productType (type : l.type = "product_type") (s : String) (value : l.value = some s)
    (equal : row.productType = some (.text s))
  | vendor (type : l.type = "vendor") (s : String) (value : l.value = some s)
    (equal : row.vendor = some (.text s))
  | inStock (type : l.type = "in_stock") (flag : row.inStock = true)
  | outOfStock (type : l.type = "out_of_stock") (flag : row.inStock = false)

namespace Leaf

variable {l : Leaf} {p : Predicate}

theorem withValue_eq_some {f : Value → Predicate} :
    l.withValue f = some p ↔ ∃ s, l.value = some s ∧ s ≠ "" ∧ f (.text s) = p := by
  unfold withValue
  cases l.value with
  | none => simp
  | some s => simp

/-- The usable conditions are those that have a predicate. -/
theorem isUsable_iff : l.IsUsable ↔ ∃ p, l.predicate? = some p := by
  constructor
  · intro h
    unfold predicate?
    cases h with
    | all type | hasComparePrice type | inStock type | outOfStock type =>
      rw [type]
      exact ⟨_, rfl⟩
    | tagContains type s value ne_empty | productType type s value ne_empty
    | vendor type s value ne_empty =>
      rw [type]
      exact ⟨_, withValue_eq_some.2 ⟨s, value, ne_empty, rfl⟩⟩
    | priceRange type bounded =>
      rw [type]
      refine ⟨_, if_neg fun hnone => ?_⟩
      simp at hnone
      rcases bounded with h | h
      · exact h hnone.1
      · exact h hnone.2
  · intro h
    obtain ⟨p, hp⟩ := h
    unfold predicate? at hp
    split at hp
    · exact .all ‹_›
    · obtain ⟨s, value, ne_empty, -⟩ := withValue_eq_some.1 hp
      exact .tagContains ‹_› s value ne_empty
    · exact .hasComparePrice ‹_›
    · split at hp
      · cases hp
      · rename_i type hbounds
        refine .priceRange type ?_
        cases hmin : l.minPrice with
        | some low => exact .inl (Option.some_ne_none low)
        | none => exact .inr fun hmax => hbounds (by rw [hmin, hmax]; rfl)
    · obtain ⟨s, value, ne_empty, -⟩ := withValue_eq_some.1 hp
      exact .productType ‹_› s value ne_empty
    · obtain ⟨s, value, ne_empty, -⟩ := withValue_eq_some.1 hp
      exact .vendor ‹_› s value ne_empty
    · exact .inStock ‹_›
    · exact .outOfStock ‹_›
    · cases hp

/-- The predicate of a condition matches the rows that meet the condition. -/
theorem isMetBy_iff {t : Table} {m : Memberships} {row : Row} (hp : l.predicate? = some p) :
    l.IsMetBy row ↔ p.holds t m row = true := by
  constructor
  · intro h
    cases h with
    | all type =>
      simp only [predicate?, type] at hp
      cases hp
      rfl
    | tagContains type s value part =>
      simp only [predicate?, type] at hp
      obtain ⟨s', value', -, rfl⟩ := withValue_eq_some.1 hp
      cases value.symm.trans value'
      exact Predicate.holds_tags.2 part
    | hasComparePrice type x y compareAtPrice price lower =>
      simp only [predicate?, type] at hp
      cases hp
      exact Predicate.holds_reduced.2 ⟨x, y, compareAtPrice, price, lower⟩
    | priceRange type x price above below =>
      simp only [predicate?, type] at hp
      obtain ⟨-, hp⟩ := Option.ite_none_left_eq_some.1 hp
      cases hp
      exact Predicate.holds_priceRange.2 ⟨x, price, above, below⟩
    | productType type s value equal =>
      simp only [predicate?, type] at hp
      obtain ⟨s', value', -, rfl⟩ := withValue_eq_some.1 hp
      cases value.symm.trans value'
      exact Predicate.holds_productType.2 equal
    | vendor type s value equal =>
      simp only [predicate?, type] at hp
      obtain ⟨s', value', -, rfl⟩ := withValue_eq_some.1 hp
      cases value.symm.trans value'
      exact Predicate.holds_vendor.2 equal
    | inStock type flag =>
      simp only [predicate?, type] at hp
      cases hp
      exact Predicate.holds_stock.2 flag
    | outOfStock type flag =>
      simp only [predicate?, type] at hp
      cases hp
      exact Predicate.holds_stock.2 flag
  · intro h
    unfold predicate? at hp
    split at hp
    · exact .all ‹_›
    · obtain ⟨s, value, -, rfl⟩ := withValue_eq_some.1 hp
      exact .tagContains ‹_› s value (Predicate.holds_tags.1 h)
    · cases hp
      obtain ⟨x, y, compareAtPrice, price, lower⟩ := Predicate.holds_reduced.1 h
      exact .hasComparePrice ‹_› x y compareAtPrice price lower
    · split at hp
      · cases hp
      · cases hp
        obtain ⟨x, price, above, below⟩ := Predicate.holds_priceRange.1 h
        exact .priceRange ‹_› x price above below
    · obtain ⟨s, value, -, rfl⟩ := withValue_eq_some.1 hp
      exact .productType ‹_› s value (Predicate.holds_productType.1 h)
    · obtain ⟨s, value, -, rfl⟩ := withValue_eq_some.1 hp
      exact .vendor ‹_› s value (Predicate.holds_vendor.1 h)
    · cases hp
      exact .inStock ‹_› (Predicate.holds_stock.1 h)
    · cases hp
      exact .outOfStock ‹_› (Predicate.holds_stock.1 h)
    · cases hp

/-- The predicate of a condition can be decided on every table. -/
theorem check_predicate? {t : Table} (hp : l.predicate? = some p) : p.check t = .ok () := by
  unfold predicate? at hp
  split at hp
  · cases hp
    rfl
  · obtain ⟨s, -, -, rfl⟩ := withValue_eq_some.1 hp
    rfl
  · cases hp
    exact Predicate.check_reduced
  · split at hp
    · cases hp
    · cases hp
      cases l.minPrice <;> cases l.maxPrice <;> rfl
  · obtain ⟨s, -, -, rfl⟩ := withValue_eq_some.1 hp
    rfl
  · obtain ⟨s, -, -, rfl⟩ := withValue_eq_some.1 hp
    rfl
  · cases hp
    rfl
  · cases hp
    rfl
  · cases hp

end Leaf

/-! ## Whole rules -/

namespace Rule

/-- A rule has a condition that can be used: it is one, or joins some. -/
inductive IsUsable : Value → Prop
  | leaf {rule : Value} {l : Leaf} (read : Node.read rule = .ok (some (.ok (.leaf l))))
    (usable : l.IsUsable) : IsUsable rule
  | composite {rule condition : Value} {logic : String} {conditions : List Value}
    (read : Node.read rule = .ok (some (.ok (.composite logic conditions))))
    (mem : condition ∈ conditions) (usable : IsUsable condition) : IsUsable rule

/-- A row satisfies a rule: a usable condition if the row meets it, and joined conditions if it
satisfies some of those that are usable, or all of them, as the logic word says. -/
inductive IsSatisfiedBy (row : Row) : Value → Prop
  | leaf {rule : Value} {l : Leaf} (read : Node.read rule = .ok (some (.ok (.leaf l))))
    (usable : l.IsUsable) (met : l.IsMetBy row) : IsSatisfiedBy row rule
  | some {rule condition : Value} {logic : String} {conditions : List Value}
    (read : Node.read rule = .ok (some (.ok (.composite logic conditions))))
    (disjunction : upper (trimBlank logic) = "OR".toList)
    (mem : condition ∈ conditions) (satisfied : IsSatisfiedBy row condition) : IsSatisfiedBy row rule
  | all {rule : Value} {logic : String} {conditions : List Value}
    (read : Node.read rule = .ok (some (.ok (.composite logic conditions))))
    (conjunction : upper (trimBlank logic) ≠ "OR".toList)
    (usable : ∃ condition ∈ conditions, IsUsable condition)
    (satisfied : ∀ condition ∈ conditions, IsUsable condition → IsSatisfiedBy row condition) :
    IsSatisfiedBy row rule

theorem isUsable_of_isSatisfiedBy {row : Row} {rule : Value} (h : IsSatisfiedBy row rule) :
    IsUsable rule := by
  induction h with
  | leaf read usable met => exact .leaf read usable
  | some read disjunction mem satisfied ih => exact .composite read mem ih
  | all read conjunction usable satisfied ih =>
    obtain ⟨condition, mem, usable⟩ := usable
    exact .composite read mem usable

end Rule

/-! ## Reading and compiling -/

/-- A condition is smaller than the rule that joins it. -/
theorem Node.weight_lt_of_mem {rule condition : Value} {logic : String} {conditions : List Value}
    (h : Node.read rule = .ok (some (.ok (.composite logic conditions))))
    (hcondition : condition ∈ conditions) : condition.weight < rule.weight := by
  have := Node.weights_read h
  have := Value.weight_le_weights hcondition
  omega

namespace Entry

theorem readAll_eq_mapM (conditions : List Value) : readAll conditions = conditions.mapM read := by
  induction conditions with
  | nil => rw [readAll, List.mapM_nil]; rfl
  | cons condition rest ih => rw [readAll, List.mapM_cons, ih]

theorem predicates_eq_filterMap (entries : List Entry) :
    predicate?.predicates entries = entries.filterMap predicate? := by
  induction entries with
  | nil => rfl
  | cons entry rest ih =>
    rw [predicate?.predicates, List.filterMap_cons, ih]
    cases entry.predicate? <;> rfl

/-- The tree of a rule follows from what is read at its root. -/
theorem read_eq (rule : Value) :
    read rule = match Node.read rule with
      | .error e => .error e
      | .ok none => .ok .blank
      | .ok (some (.error warning)) => .ok (.rejected warning)
      | .ok (some (.ok (.leaf l))) => .ok (.leaf l)
      | .ok (some (.ok (.composite logic conditions))) =>
        return .group logic (← conditions.mapM read) := by
  rw [read]
  split
  all_goals
    rename_i hnode
    simp only [hnode, readAll_eq_mapM]

theorem read_cases {rule : Value} {entry : Entry} (h : read rule = .ok entry) :
    (Node.read rule = .ok none ∧ entry = .blank) ∨
    (∃ w, Node.read rule = .ok (some (.error w)) ∧ entry = .rejected w) ∨
    (∃ l, Node.read rule = .ok (some (.ok (.leaf l))) ∧ entry = .leaf l) ∨
    (∃ logic conditions entries,
      Node.read rule = .ok (some (.ok (.composite logic conditions))) ∧
      conditions.mapM read = .ok entries ∧ entry = .group logic entries) := by
  rw [read_eq] at h
  split at h
  · cases h
  · cases h
    exact .inl ⟨‹_›, rfl⟩
  · cases h
    exact .inr (.inl ⟨_, ‹_›, rfl⟩)
  · cases h
    exact .inr (.inr (.inl ⟨_, ‹_›, rfl⟩))
  · obtain ⟨entries, hentries, h⟩ := bind_eq_ok.1 h
    cases h
    exact .inr (.inr (.inr ⟨_, _, entries, ‹_›, hentries, rfl⟩))

theorem combine?_eq_some {logic : String} {ps : List Predicate} {p : Predicate} :
    combine? logic ps = some p ↔ ps ≠ [] ∧
      (upper (trimBlank logic) = "OR".toList ∧ p = .disjunction ps ∨
        upper (trimBlank logic) ≠ "OR".toList ∧ p = .conjunction ps) := by
  cases ps with
  | nil => simp [combine?]
  | cons q ps =>
    show some (if isDisjunction logic then _ else _) = some p ↔ _
    rw [Option.some_inj, eq_comm, and_iff_right (List.cons_ne_nil q ps)]
    by_cases hlogic : upper (trimBlank logic) = "OR".toList
    · have hword : isDisjunction logic = true := beq_iff_eq.2 hlogic
      rw [if_pos hword]
      simp only [hlogic, true_and, ne_eq, not_true_eq_false, false_and, or_false]
    · have hword : ¬isDisjunction logic = true := fun h => hlogic (beq_iff_eq.1 h)
      rw [if_neg hword]
      simp only [hlogic, false_and, ne_eq, not_false_eq_true, true_and, false_or]

/-- The usable predicates of a group are those of its conditions. -/
theorem mem_predicates {conditions : List Value} {entries : List Entry}
    (h : conditions.mapM read = .ok entries) {p : Predicate} :
    p ∈ predicate?.predicates entries ↔
      ∃ condition ∈ conditions, ∃ entry, read condition = .ok entry ∧ entry.predicate? = some p := by
  rw [predicates_eq_filterMap, List.mem_filterMap]
  constructor
  · intro hexists
    obtain ⟨entry, hentry, hp⟩ := hexists
    obtain ⟨condition, hcondition, hread⟩ := mem_of_mapM_eq_ok h hentry
    exact ⟨condition, hcondition, entry, hread, hp⟩
  · intro hexists
    obtain ⟨condition, hcondition, entry, hread, hp⟩ := hexists
    obtain ⟨entry', hentry', hread'⟩ := exists_of_mapM_eq_ok h hcondition
    cases hread.symm.trans hread'
    exact ⟨entry, hentry', hp⟩

end Entry

namespace Rule

theorem isUsable_leaf {rule : Value} {l : Leaf}
    (read : Node.read rule = .ok (some (.ok (.leaf l)))) : IsUsable rule ↔ l.IsUsable := by
  constructor
  · intro h
    cases h with
    | leaf read' usable =>
      cases read.symm.trans read'
      exact usable
    | composite read' => cases read.symm.trans read'
  · exact .leaf read

theorem isUsable_composite {rule : Value} {logic : String} {conditions : List Value}
    (read : Node.read rule = .ok (some (.ok (.composite logic conditions)))) :
    IsUsable rule ↔ ∃ condition ∈ conditions, IsUsable condition := by
  constructor
  · intro h
    cases h with
    | leaf read' => cases read.symm.trans read'
    | composite read' mem usable =>
      cases read.symm.trans read'
      exact ⟨_, mem, usable⟩
  · intro h
    obtain ⟨condition, mem, usable⟩ := h
    exact .composite read mem usable

theorem not_isUsable {rule : Value} (h : ∀ node, Node.read rule ≠ .ok (some (.ok node))) :
    ¬IsUsable rule := by
  intro husable
  cases husable with
  | leaf read => exact h _ read
  | composite read => exact h _ read

/-- The rules that are usable are those that have a predicate. -/
theorem isUsable_iff {rule : Value} {entry : Entry} (h : Entry.read rule = .ok entry) :
    IsUsable rule ↔ ∃ p, entry.predicate? = some p := by
  rcases Entry.read_cases h with ⟨hnode, rfl⟩ | ⟨w, hnode, rfl⟩ | ⟨l, hnode, rfl⟩ |
    ⟨logic, conditions, entries, hnode, hentries, rfl⟩
  · have hunusable : ¬IsUsable rule := not_isUsable (by simp [hnode])
    simp [hunusable, Entry.predicate?]
  · have hunusable : ¬IsUsable rule := not_isUsable (by simp [hnode])
    simp [hunusable, Entry.predicate?]
  · rw [isUsable_leaf hnode, Leaf.isUsable_iff, Entry.predicate?]
  · rw [isUsable_composite hnode, Entry.predicate?]
    constructor
    · intro hexists
      obtain ⟨condition, hcondition, husable⟩ := hexists
      obtain ⟨entry, -, hentry⟩ := exists_of_mapM_eq_ok hentries hcondition
      have := Node.weight_lt_of_mem hnode hcondition
      obtain ⟨p, hp⟩ := (isUsable_iff hentry).1 husable
      have hmem := (Entry.mem_predicates hentries).2 ⟨condition, hcondition, entry, hentry, hp⟩
      by_cases hlogic : upper (trimBlank logic) = "OR".toList
      · exact ⟨_, Entry.combine?_eq_some.2 ⟨List.ne_nil_of_mem hmem, .inl ⟨hlogic, rfl⟩⟩⟩
      · exact ⟨_, Entry.combine?_eq_some.2 ⟨List.ne_nil_of_mem hmem, .inr ⟨hlogic, rfl⟩⟩⟩
    · intro hexists
      obtain ⟨p, hp⟩ := hexists
      obtain ⟨q, hq⟩ := List.exists_mem_of_ne_nil _ (Entry.combine?_eq_some.1 hp).1
      obtain ⟨condition, hcondition, entry, hentry, hpq⟩ := (Entry.mem_predicates hentries).1 hq
      have := Node.weight_lt_of_mem hnode hcondition
      exact ⟨condition, hcondition, (isUsable_iff hentry).2 ⟨q, hpq⟩⟩
termination_by rule.weight

theorem isSatisfiedBy_leaf {row : Row} {rule : Value} {l : Leaf}
    (read : Node.read rule = .ok (some (.ok (.leaf l)))) :
    IsSatisfiedBy row rule ↔ l.IsUsable ∧ l.IsMetBy row := by
  constructor
  · intro h
    cases h with
    | leaf read' usable met =>
      cases read.symm.trans read'
      exact ⟨usable, met⟩
    | some read' => cases read.symm.trans read'
    | all read' => cases read.symm.trans read'
  · intro h
    obtain ⟨usable, met⟩ := h
    exact .leaf read usable met

theorem isSatisfiedBy_some {row : Row} {rule : Value} {logic : String} {conditions : List Value}
    (read : Node.read rule = .ok (some (.ok (.composite logic conditions))))
    (disjunction : upper (trimBlank logic) = "OR".toList) :
    IsSatisfiedBy row rule ↔ ∃ condition ∈ conditions, IsSatisfiedBy row condition := by
  constructor
  · intro h
    cases h with
    | leaf read' => cases read.symm.trans read'
    | some read' _ mem satisfied =>
      cases read.symm.trans read'
      exact ⟨_, mem, satisfied⟩
    | all read' conjunction =>
      cases read.symm.trans read'
      exact absurd disjunction conjunction
  · intro h
    obtain ⟨condition, mem, satisfied⟩ := h
    exact .some read disjunction mem satisfied

theorem isSatisfiedBy_all {row : Row} {rule : Value} {logic : String} {conditions : List Value}
    (read : Node.read rule = .ok (some (.ok (.composite logic conditions))))
    (conjunction : upper (trimBlank logic) ≠ "OR".toList) :
    IsSatisfiedBy row rule ↔ (∃ condition ∈ conditions, IsUsable condition) ∧
      ∀ condition ∈ conditions, IsUsable condition → IsSatisfiedBy row condition := by
  constructor
  · intro h
    cases h with
    | leaf read' => cases read.symm.trans read'
    | some read' disjunction =>
      cases read.symm.trans read'
      exact absurd disjunction conjunction
    | all read' _ usable satisfied =>
      cases read.symm.trans read'
      exact ⟨usable, satisfied⟩
  · intro h
    obtain ⟨usable, satisfied⟩ := h
    exact .all read conjunction usable satisfied

/-- The predicate of a rule matches the rows that satisfy the rule. -/
theorem isSatisfiedBy_iff {t : Table} {m : Memberships} {row : Row} {rule : Value} {entry : Entry}
    {p : Predicate} (h : Entry.read rule = .ok entry) (hp : entry.predicate? = some p) :
    IsSatisfiedBy row rule ↔ p.holds t m row = true := by
  rcases Entry.read_cases h with ⟨hnode, rfl⟩ | ⟨w, hnode, rfl⟩ | ⟨l, hnode, rfl⟩ |
    ⟨logic, conditions, entries, hnode, hentries, rfl⟩
  · cases hp
  · cases hp
  · rw [Entry.predicate?] at hp
    rw [isSatisfiedBy_leaf hnode, ← Leaf.isMetBy_iff hp, Leaf.isUsable_iff]
    exact and_iff_right ⟨p, hp⟩
  · have husable : ∃ condition ∈ conditions, IsUsable condition :=
      (isUsable_composite hnode).1 ((isUsable_iff h).2 ⟨p, hp⟩)
    rw [Entry.predicate?] at hp
    obtain ⟨-, ⟨hlogic, rfl⟩ | ⟨hlogic, rfl⟩⟩ := Entry.combine?_eq_some.1 hp
    · rw [Predicate.holds_disjunction, isSatisfiedBy_some hnode hlogic]
      constructor
      · intro hexists
        obtain ⟨condition, hcondition, hsatisfied⟩ := hexists
        obtain ⟨entry, -, hentry⟩ := exists_of_mapM_eq_ok hentries hcondition
        obtain ⟨q, hq⟩ := (isUsable_iff hentry).1 (isUsable_of_isSatisfiedBy hsatisfied)
        have := Node.weight_lt_of_mem hnode hcondition
        exact ⟨q, (Entry.mem_predicates hentries).2 ⟨condition, hcondition, entry, hentry, hq⟩,
          (isSatisfiedBy_iff hentry hq).1 hsatisfied⟩
      · intro hexists
        obtain ⟨q, hq, hholds⟩ := hexists
        obtain ⟨condition, hcondition, entry, hentry, hpq⟩ := (Entry.mem_predicates hentries).1 hq
        have := Node.weight_lt_of_mem hnode hcondition
        exact ⟨condition, hcondition, (isSatisfiedBy_iff hentry hpq).2 hholds⟩
    · rw [Predicate.holds_conjunction, isSatisfiedBy_all hnode hlogic, and_iff_right husable]
      constructor
      · intro hall q hq
        obtain ⟨condition, hcondition, entry, hentry, hpq⟩ := (Entry.mem_predicates hentries).1 hq
        have := Node.weight_lt_of_mem hnode hcondition
        exact (isSatisfiedBy_iff hentry hpq).1
          (hall condition hcondition ((isUsable_iff hentry).2 ⟨q, hpq⟩))
      · intro hall condition hcondition husable
        obtain ⟨entry, -, hentry⟩ := exists_of_mapM_eq_ok hentries hcondition
        obtain ⟨q, hq⟩ := (isUsable_iff hentry).1 husable
        have := Node.weight_lt_of_mem hnode hcondition
        have hmem := (Entry.mem_predicates hentries).2 ⟨condition, hcondition, entry, hentry, hq⟩
        exact (isSatisfiedBy_iff hentry hq).2 (hall q hmem)
termination_by rule.weight

end Rule

/-- The predicate of a rule's tree can be decided on every table. -/
theorem Entry.check_predicate? {t : Table} {entry : Entry} {p : Predicate}
    (hp : entry.predicate? = some p) : p.check t = .ok () := by
  match entry, hp with
  | .leaf l, hp =>
    rw [Entry.predicate?] at hp
    exact Leaf.check_predicate? hp
  | .group logic entries, hp =>
    rw [Entry.predicate?] at hp
    obtain ⟨-, hjoined⟩ := Entry.combine?_eq_some.1 hp
    have hchildren : ∀ q ∈ Entry.predicate?.predicates entries, q.check t = .ok () := by
      intro q hq
      rw [Entry.predicates_eq_filterMap] at hq
      obtain ⟨child, hchild, hq⟩ := List.mem_filterMap.1 hq
      have := List.sizeOf_lt_of_mem hchild
      exact check_predicate? hq
    rcases hjoined with ⟨-, rfl⟩ | ⟨-, rfl⟩
    · exact Predicate.check_disjunction.2 hchildren
    · exact Predicate.check_conjunction.2 hchildren

/-! ## Compiled rules -/

namespace Rule

variable {rule : Value} {p : Predicate} {warnings : List Warning}

theorem compile_eq_ok :
    compile rule = .ok (p, warnings) ↔
      ∃ entry, Entry.read rule = .ok entry ∧ p = entry.predicate ∧ warnings = entry.warnings := by
  unfold compile
  rw [bind_eq_ok]
  constructor
  · intro h
    obtain ⟨entry, hentry, h⟩ := h
    cases h
    exact ⟨entry, hentry, rfl, rfl⟩
  · intro h
    obtain ⟨entry, hentry, rfl, rfl⟩ := h
    exact ⟨entry, hentry, rfl⟩

/-- The compiled predicate matches the rows that satisfy the rule. -/
theorem holds_compile {t : Table} {m : Memberships} {row : Row}
    (h : compile rule = .ok (p, warnings)) :
    p.holds t m row = true ↔ IsSatisfiedBy row rule := by
  obtain ⟨entry, hentry, rfl, -⟩ := compile_eq_ok.1 h
  unfold Entry.predicate
  cases hp : entry.predicate? with
  | some p => exact (isSatisfiedBy_iff hentry hp).symm
  | none =>
    have hunusable : ¬IsSatisfiedBy row rule := by
      intro hsatisfied
      obtain ⟨p, hp'⟩ := (isUsable_iff hentry).1 (isUsable_of_isSatisfiedBy hsatisfied)
      rw [hp] at hp'
      cases hp'
    simp [hunusable, Predicate.holds]

/-- The compiled predicate can be decided on every table. -/
theorem check_compile {t : Table} (h : compile rule = .ok (p, warnings)) : p.check t = .ok () := by
  obtain ⟨entry, hentry, rfl, -⟩ := compile_eq_ok.1 h
  unfold Entry.predicate
  cases hp : entry.predicate? with
  | some p => exact Entry.check_predicate? hp
  | none => rfl

end Rule

end Storefront
