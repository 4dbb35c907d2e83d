import Storefront.Proofs.SyncFailures

/-!
# The normal form of rules

The predicate of a rule joins conditions only where there are several of them, nests no conjunction
in a conjunction, and has nothing in it that matches no product, unless it is that alone. These
predicates are a normal form: a predicate is that of some rule if and only if it is in this form.

* `Predicate.IsCondition`: the single conditions of rules
* `Predicate.OccursIn`, `Predicate.IsNormal`: what occurs in a predicate, and the normal form
* `Predicate.isOrderly_conjunction`, `Predicate.isOrderly_disjunction`: joining keeps the form
* `Predicate.toRule`, `Predicate.compile_toRule`: the rule that asks for a predicate in normal form
* `Rule.compiles_to_normal_forms`: compiled rules and predicates in normal form
-/

namespace Storefront

namespace Predicate

/-! ## The form -/

/-- A single condition that a rule can ask for. -/
inductive IsCondition : Predicate → Prop
  | all : IsCondition .matchAll
  | tags {s : String} (ne_empty : s ≠ "") : IsCondition (.fieldContains "tags" (.text s))
  | vendor {s : String} (ne_empty : s ≠ "") : IsCondition (.fieldEquals "vendor" (.text s))
  | productType {s : String} (ne_empty : s ≠ "") :
    IsCondition (.fieldEquals "product_type" (.text s))
  | stock (inStock : Bool) : IsCondition (.fieldEquals "in_stock" (.bool inStock))
  | price {low high : Option Binary64} (bounded : low ≠ none ∨ high ≠ none) :
    IsCondition (.fieldRange "price" (low.map .float) (high.map .float))
  | reduced : IsCondition (.fieldExceeds "compare_at_price" "price")

/-- A predicate occurs in another one: it is the other, or occurs in what the other is built from. -/
inductive OccursIn (q : Predicate) : Predicate → Prop
  | self : OccursIn q q
  | not {child : Predicate} (occurs : OccursIn q child) : OccursIn q (.not child)
  | allOf {children : List Predicate} {child : Predicate} (mem : child ∈ children)
    (occurs : OccursIn q child) : OccursIn q (.allOf children)
  | anyOf {children : List Predicate} {child : Predicate} (mem : child ∈ children)
    (occurs : OccursIn q child) : OccursIn q (.anyOf children)

/-- A predicate is a single condition of rules, or joins several others. A conjunction joins no
conjunctions. -/
inductive IsTidy : Predicate → Prop
  | condition {p : Predicate} (condition : p.IsCondition) : IsTidy p
  | allOf {children : List Predicate} (several : 2 ≤ children.length)
    (flat : ∀ child ∈ children, ∀ nested, child ≠ .allOf nested) : IsTidy (.allOf children)
  | anyOf {children : List Predicate} (several : 2 ≤ children.length) : IsTidy (.anyOf children)

/-- All that occurs in a predicate is tidy. -/
def IsOrderly (p : Predicate) : Prop := ∀ q : Predicate, q.OccursIn p → q.IsTidy

/-- A predicate is in normal form: it matches no product, or all that occurs in it is tidy. -/
def IsNormal (p : Predicate) : Prop := p = .matchNone ∨ p.IsOrderly

/-! ## Joining -/

variable {p : Predicate} {ps children : List Predicate}

theorem ne_nil_of_several (h : 2 ≤ ps.length) : ps ≠ [] :=
  List.ne_nil_of_length_pos (Nat.lt_of_lt_of_le Nat.two_pos h)

theorem several_of_ne (hne : ps ≠ []) (hmany : ∀ p, ps ≠ [p]) : 2 ≤ ps.length := by
  match ps, hne, hmany with
  | [p], _, hmany => exact absurd rfl (hmany p)
  | p :: q :: rest, _, _ => simp

theorem IsOrderly.isTidy (h : p.IsOrderly) : p.IsTidy := h p .self

theorem isOrderly_of_isCondition (h : p.IsCondition) : p.IsOrderly := by
  intro q hq
  cases hq with
  | self => exact .condition h
  | not | allOf | anyOf => cases h

theorem isOrderly_allOf : (allOf children).IsOrderly ↔
    2 ≤ children.length ∧
      ∀ child ∈ children, child.IsOrderly ∧ ∀ nested, child ≠ .allOf nested := by
  constructor
  · intro h
    cases h.isTidy with
    | condition condition => cases condition
    | allOf several flat =>
      exact ⟨several, fun child mem => ⟨fun q hq => h q (.allOf mem hq), flat child mem⟩⟩
  · rintro ⟨several, hchildren⟩ q hq
    cases hq with
    | self => exact .allOf several fun child mem => (hchildren child mem).2
    | allOf mem occurs => exact (hchildren _ mem).1 q occurs

theorem isOrderly_anyOf : (anyOf children).IsOrderly ↔
    2 ≤ children.length ∧ ∀ child ∈ children, child.IsOrderly := by
  constructor
  · intro h
    cases h.isTidy with
    | condition condition => cases condition
    | anyOf several => exact ⟨several, fun child mem q hq => h q (.anyOf mem hq)⟩
  · rintro ⟨several, hchildren⟩ q hq
    cases hq with
    | self => exact .anyOf several
    | anyOf mem occurs => exact hchildren _ mem q occurs

/-- The conditions that an orderly predicate joins are orderly, and none of them is a conjunction. -/
theorem IsOrderly.of_mem_conjuncts (h : p.IsOrderly) {q : Predicate} (hq : q ∈ p.conjuncts) :
    q.IsOrderly ∧ ∀ nested, q ≠ .allOf nested := by
  cases p with
  | allOf children => exact (isOrderly_allOf.1 h).2 q hq
  | _ =>
    rw [List.mem_singleton.1 hq]
    exact ⟨h, fun nested => Predicate.noConfusion⟩

theorem IsOrderly.conjuncts_ne_nil (h : p.IsOrderly) : p.conjuncts ≠ [] := by
  cases p with
  | allOf children => exact ne_nil_of_several (isOrderly_allOf.1 h).1
  | _ => exact List.cons_ne_nil _ _

/-- The conjunction of orderly predicates is orderly: one level of flattening is enough, since no
conjunction is nested in those that are joined. -/
theorem isOrderly_conjunction (hne : ps ≠ []) (h : ∀ p ∈ ps, p.IsOrderly) :
    (conjunction ps).IsOrderly := by
  have hparts : ∀ q ∈ ps.flatMap conjuncts, q.IsOrderly ∧ ∀ nested, q ≠ .allOf nested := by
    intro q hq
    obtain ⟨p, hp, hq⟩ := List.mem_flatMap.1 hq
    exact (h p hp).of_mem_conjuncts hq
  have hsome : ps.flatMap conjuncts ≠ [] := by
    obtain ⟨p, hp⟩ := List.exists_mem_of_ne_nil ps hne
    obtain ⟨q, hq⟩ := List.exists_mem_of_ne_nil _ (h p hp).conjuncts_ne_nil
    exact List.ne_nil_of_mem (List.mem_flatMap.2 ⟨p, hp, hq⟩)
  unfold conjunction
  split
  · rename_i q heq
    exact (hparts q (heq ▸ List.mem_singleton_self q)).1
  · rename_i hmany
    exact isOrderly_allOf.2 ⟨several_of_ne hsome hmany, hparts⟩

/-- A disjunction of one conjunction is no disjunction any more, and is flattened. -/
example : conjunction [disjunction [conjunction [inStock, .matchAll]], outOfStock] =
    .allOf [inStock, .matchAll, outOfStock] := rfl

/-- The disjunction of orderly predicates is orderly. -/
theorem isOrderly_disjunction (hne : ps ≠ []) (h : ∀ p ∈ ps, p.IsOrderly) :
    (disjunction ps).IsOrderly := by
  unfold disjunction
  split
  · exact h _ (List.mem_singleton_self _)
  · rename_i hmany
    exact isOrderly_anyOf.2 ⟨several_of_ne hne hmany, h⟩

end Predicate

/-! ## Compiled rules are in normal form -/

theorem Leaf.isCondition_predicate? {l : Leaf} {p : Predicate} (h : l.predicate? = some p) :
    p.IsCondition := by
  unfold predicate? at h
  split at h
  · cases h
    exact .all
  · obtain ⟨s, -, ne_empty, rfl⟩ := withValue_eq_some.1 h
    exact .tags ne_empty
  · cases h
    exact .reduced
  · split at h
    · cases h
    · rename_i hbounds
      cases h
      refine .price ?_
      simpa [Classical.or_iff_not_imp_left] using hbounds
  · obtain ⟨s, -, ne_empty, rfl⟩ := withValue_eq_some.1 h
    exact .productType ne_empty
  · obtain ⟨s, -, ne_empty, rfl⟩ := withValue_eq_some.1 h
    exact .vendor ne_empty
  · cases h
    exact .stock true
  · cases h
    exact .stock false
  · cases h

/-- The predicate of an entry is orderly, by induction on the tree of the rule. -/
theorem Entry.isOrderly_predicate? {entry : Entry} {p : Predicate}
    (h : entry.predicate? = some p) : p.IsOrderly := by
  match entry, h with
  | .leaf l, h =>
    rw [predicate?] at h
    exact Predicate.isOrderly_of_isCondition (Leaf.isCondition_predicate? h)
  | .group logic entries, h =>
    rw [predicate?] at h
    obtain ⟨hne, hjoined⟩ := combine?_eq_some.1 h
    have hchildren : ∀ q ∈ predicate?.predicates entries, q.IsOrderly := by
      intro q hq
      rw [predicates_eq_filterMap] at hq
      obtain ⟨child, hchild, hq⟩ := List.mem_filterMap.1 hq
      have := List.sizeOf_lt_of_mem hchild
      exact isOrderly_predicate? hq
    rcases hjoined with ⟨-, rfl⟩ | ⟨-, rfl⟩
    · exact Predicate.isOrderly_disjunction hne hchildren
    · exact Predicate.isOrderly_conjunction hne hchildren

theorem Entry.isNormal_predicate (entry : Entry) : entry.predicate.IsNormal := by
  unfold predicate
  cases h : entry.predicate? with
  | none => exact .inl rfl
  | some p => exact .inr (isOrderly_predicate? h)

/-! ## Normal forms are compiled from rules -/

namespace Predicate

variable {p : Predicate}

/-- The rule that asks for a predicate in normal form. -/
def toRule : Predicate → Value
  | .matchAll => .object [("type", .text "all")]
  | .fieldContains _ value => .object [("type", .text "tag_contains"), ("value", value)]
  | .fieldEquals _ (.bool true) => .object [("type", .text "in_stock")]
  | .fieldEquals _ (.bool false) => .object [("type", .text "out_of_stock")]
  | .fieldEquals field value => .object [("type", .text field), ("value", value)]
  | .fieldRange _ low high =>
    .object [("type", .text "price_range"), ("min_price", low.getD .null),
      ("max_price", high.getD .null)]
  | .fieldExceeds _ _ => .object [("type", .text "has_compare_price")]
  | .allOf children => joining "AND" (toRules children)
  | .anyOf children => joining "OR" (toRules children)
  | .undefined | .matchNone | .sharesCollection _ | .not _ => .null
where
  /-- The rule that joins conditions by a logic word. -/
  joining (logic : String) (conditions : List Value) : Value :=
    .object [("type", .text Node.compositeType), ("logic", .text logic),
      ("conditions", .list conditions)]
  /-- The rules that ask for predicates. -/
  toRules : List Predicate → List Value
    | [] => []
    | p :: ps => p.toRule :: toRules ps

/-- The rule for a single condition is read as one that has this predicate. -/
theorem IsCondition.exists_leaf (h : p.IsCondition) :
    ∃ l, Node.read p.toRule = .ok (some (.ok (.leaf l))) ∧ l.predicate? = some p := by
  have htext (type : String) (predicate : Value → Predicate) {s : String} (ne_empty : s ≠ "") :
      Leaf.withValue ⟨type, some s, none, none⟩ predicate = some (predicate (.text s)) :=
    Leaf.withValue_eq_some.2 ⟨s, rfl, ne_empty, rfl⟩
  cases h with
  | all => exact ⟨⟨"all", none, none, none⟩, rfl, rfl⟩
  | tags ne_empty => exact ⟨_, rfl, htext "tag_contains" (.fieldContains "tags") ne_empty⟩
  | vendor ne_empty => exact ⟨_, rfl, htext "vendor" (.fieldEquals "vendor") ne_empty⟩
  | productType ne_empty =>
    exact ⟨_, rfl, htext "product_type" (.fieldEquals "product_type") ne_empty⟩
  | stock inStock =>
    cases inStock with
    | true => exact ⟨⟨"in_stock", none, none, none⟩, rfl, rfl⟩
    | false => exact ⟨⟨"out_of_stock", none, none, none⟩, rfl, rfl⟩
  | @price low high bounded =>
    refine ⟨⟨"price_range", none, low, high⟩, ?_, if_neg fun hnone => ?_⟩
    · cases low <;> cases high <;> rfl
    · simp at hnone
      rcases bounded with hlow | hhigh
      · exact hlow hnone.1
      · exact hhigh hnone.2
  | reduced => exact ⟨⟨"has_compare_price", none, none, none⟩, rfl, rfl⟩

/-- An entry asks for a predicate, and nothing is reported about it. -/
def IsOf (p : Predicate) (entry : Entry) : Prop :=
  entry.predicate? = some p ∧ entry.warnings = []

/-- The rules for predicates ask for all of them. -/
theorem exists_mapM_toRules {ps : List Predicate}
    (h : ∀ p ∈ ps, ∃ entry, Entry.read p.toRule = .ok entry ∧ p.IsOf entry) :
    ∃ entries, (toRule.toRules ps).mapM Entry.read = .ok entries ∧
      Entry.predicate?.predicates entries = ps ∧ Entry.warnings.allWarnings entries = [] := by
  induction ps with
  | nil => exact ⟨[], rfl, rfl, rfl⟩
  | cons p ps ih =>
    obtain ⟨entry, hentry, hpredicate, hwarnings⟩ := h p List.mem_cons_self
    obtain ⟨entries, hentries, hpredicates, hall⟩ :=
      ih fun q hq => h q (List.mem_cons_of_mem p hq)
    refine ⟨entry :: entries, mapM_cons_eq_ok.2 ⟨entry, entries, hentry, hentries, rfl⟩, ?_, ?_⟩
    · rw [Entry.predicate?.predicates, hpredicate, hpredicates]
    · rw [Entry.warnings.allWarnings, hwarnings, hall, List.append_nil]

/-- The rule that joins the rules for predicates asks for them combined. -/
theorem exists_read_joining {logic : String} {ps : List Predicate} {joined : Predicate}
    (hjoined : Entry.combine? logic ps = some joined)
    (h : ∀ p ∈ ps, ∃ entry, Entry.read p.toRule = .ok entry ∧ p.IsOf entry) :
    ∃ entry, Entry.read (toRule.joining logic (toRule.toRules ps)) = .ok entry ∧
      joined.IsOf entry := by
  obtain ⟨entries, hentries, hpredicates, hwarnings⟩ := exists_mapM_toRules h
  have hnode : Node.read (toRule.joining logic (toRule.toRules ps)) =
      .ok (some (.ok (.composite logic (toRule.toRules ps)))) := rfl
  refine ⟨.group logic entries, ?_, ?_, hwarnings⟩
  · rw [Entry.read_eq, hnode]
    exact bind_eq_ok.2 ⟨entries, hentries, rfl⟩
  · rw [Entry.predicate?, hpredicates, hjoined]

/-- Several predicates, none of which is a conjunction, are joined as they are. -/
theorem conjunction_of_flat {children : List Predicate} (several : 2 ≤ children.length)
    (flat : ∀ child ∈ children, ∀ nested, child ≠ .allOf nested) :
    conjunction children = .allOf children := by
  have hparts : children.flatMap conjuncts = children := by
    have hsingle : ∀ child ∈ children, child.conjuncts = [child] := by
      intro child mem
      cases child with
      | allOf nested => exact absurd rfl (flat _ mem nested)
      | _ => rfl
    rw [List.flatMap_congr hsingle, List.flatMap_singleton']
  unfold conjunction
  rw [hparts]
  match children, several with
  | _ :: _ :: _, _ => rfl

theorem disjunction_of_several {children : List Predicate} (several : 2 ≤ children.length) :
    disjunction children = .anyOf children := by
  match children, several with
  | _ :: _ :: _, _ => rfl

/-- The rule for an orderly predicate asks for it, by induction on the predicate. -/
theorem IsOrderly.exists_read {p : Predicate} (h : p.IsOrderly) :
    ∃ entry, Entry.read p.toRule = .ok entry ∧ p.IsOf entry := by
  match p, h.isTidy with
  | p, .condition condition =>
    obtain ⟨l, hnode, hl⟩ := condition.exists_leaf
    refine ⟨.leaf l, ?_, hl, ?_⟩
    · rw [Entry.read_eq, hnode]
    · rw [Entry.warnings, hl]
      rfl
  | .allOf children, .allOf several flat =>
    refine exists_read_joining (Entry.combine?_eq_some.2 ⟨?_, .inr ⟨by decide +kernel, ?_⟩⟩) ?_
    · exact ne_nil_of_several several
    · exact (conjunction_of_flat several flat).symm
    · intro child mem
      have := List.sizeOf_lt_of_mem mem
      exact ((isOrderly_allOf.1 h).2 child mem).1.exists_read
  | .anyOf children, .anyOf several =>
    refine exists_read_joining (Entry.combine?_eq_some.2 ⟨?_, .inl ⟨by decide +kernel, ?_⟩⟩) ?_
    · exact ne_nil_of_several several
    · exact (disjunction_of_several several).symm
    · intro child mem
      have := List.sizeOf_lt_of_mem mem
      exact ((isOrderly_anyOf.1 h).2 child mem).exists_read
termination_by sizeOf p

/-- The rule for a predicate in normal form compiles to it with no warning. -/
theorem compile_toRule (h : p.IsNormal) : Rule.compile p.toRule = .ok (p, []) := by
  rcases h with rfl | h
  · refine Rule.compile_eq_ok.2 ⟨.blank, ?_, rfl, rfl⟩
    rw [Entry.read_eq]
    rfl
  · obtain ⟨entry, hentry, hpredicate, hwarnings⟩ := h.exists_read
    refine Rule.compile_eq_ok.2 ⟨entry, hentry, ?_, hwarnings.symm⟩
    rw [Entry.predicate, hpredicate, Option.getD_some]

end Predicate

/-- A rule is compiled to a predicate in normal form, unless it writes a whole number with too many
digits, and every predicate in normal form is that of a rule. -/
theorem Rule.compiles_to_normal_forms :
    (∀ rule, (∃ p warnings, compile rule = .ok (p, warnings) ∧ p.IsNormal) ∨
      HasOversizedNumber rule ∧ compile rule = .error .badValue) ∧
    ∀ p : Predicate, p.IsNormal ↔ ∃ rule warnings, compile rule = .ok (p, warnings) := by
  constructor
  · intro rule
    rcases compile_cases rule with ⟨entry, -, hcompile⟩ | hoversized
    · exact .inl ⟨_, _, hcompile, entry.isNormal_predicate⟩
    · exact .inr hoversized
  · intro p
    constructor
    · intro h
      exact ⟨p.toRule, [], Predicate.compile_toRule h⟩
    · rintro ⟨rule, warnings, hcompile⟩
      obtain ⟨entry, -, rfl, -⟩ := compile_eq_ok.1 hcompile
      exact entry.isNormal_predicate

end Storefront
