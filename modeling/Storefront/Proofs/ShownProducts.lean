import Storefront.Proofs.Degrading

/-!
# Rules and the products that are shown

A rule is decided on the rows of the table, while a product is shown as what its row reads back as.
Both agree on every rule without a condition on tags, as long as the row has a price. A missing
price is shown as zero, but no condition on prices is met by it.

* `Rule.HoldsBy`: a rule holds, given which of its conditions are met
* `Rule.HoldsBy.imp`: it depends on the conditions that occur in the rule
* `Leaf.IsShownBy`: a condition as it is read on the fields of a product
* `Leaf.isMetBy_iff_isShownBy`: a row meets the conditions that its product shows
* `Store.mem_evaluate_iff_shown`: the products that a rule evaluates to are those that show it
-/

namespace Storefront

/-! ## Rules by their conditions -/

namespace Rule

/-- A rule holds, given which conditions are met: as a usable condition that is met, as a
disjunction of which some part holds, or as a conjunction of which every usable part holds, and
there is one. -/
inductive HoldsBy (Met : Leaf → Prop) : Value → Prop
  | leaf {rule : Value} {l : Leaf} (read : Node.read rule = .ok (some (.ok (.leaf l))))
    (usable : l.IsUsable) (met : Met l) : HoldsBy Met rule
  | some {rule condition : Value} {logic : String} {conditions : List Value}
    (read : Node.read rule = .ok (some (.ok (.composite logic conditions))))
    (disjunction : upper (trimBlank logic) = "OR".toList)
    (mem : condition ∈ conditions) (holds : HoldsBy Met condition) : HoldsBy Met rule
  | all {rule : Value} {logic : String} {conditions : List Value}
    (read : Node.read rule = .ok (some (.ok (.composite logic conditions))))
    (conjunction : upper (trimBlank logic) ≠ "OR".toList)
    (usable : ∃ condition ∈ conditions, IsUsable condition)
    (holds : ∀ condition ∈ conditions, IsUsable condition → HoldsBy Met condition) :
    HoldsBy Met rule

/-- A condition occurs in a rule: as the rule itself, or in one of the rules that it joins. -/
inductive Contains (l : Leaf) : Value → Prop
  | leaf {rule : Value} (read : Node.read rule = .ok (some (.ok (.leaf l)))) : Contains l rule
  | composite {rule condition : Value} {logic : String} {conditions : List Value}
    (read : Node.read rule = .ok (some (.ok (.composite logic conditions))))
    (mem : condition ∈ conditions) (contains : Contains l condition) : Contains l rule

/-- No condition on tags occurs in the rule. -/
def IsTagFree (rule : Value) : Prop := ∀ l, Contains l rule → l.type ≠ "tag_contains"

variable {rule : Value} {row : Row} {Met Other : Leaf → Prop}

/-- A row satisfies a rule that holds by the conditions that the row meets. -/
theorem isSatisfiedBy_iff_holdsBy : IsSatisfiedBy row rule ↔ HoldsBy (·.IsMetBy row) rule := by
  constructor
  · intro h
    induction h with
    | leaf read usable met => exact .leaf read usable met
    | some read disjunction mem satisfied ih => exact .some read disjunction mem ih
    | all read conjunction usable satisfied ih => exact .all read conjunction usable ih
  · intro h
    induction h with
    | leaf read usable met => exact .leaf read usable met
    | some read disjunction mem holds ih => exact .some read disjunction mem ih
    | all read conjunction usable holds ih => exact .all read conjunction usable ih

/-- A rule still holds if every condition that occurs in it and is met is met otherwise too. -/
theorem HoldsBy.imp (h : HoldsBy Met rule) (himp : ∀ l, Contains l rule → Met l → Other l) :
    HoldsBy Other rule := by
  induction h with
  | leaf read usable met => exact .leaf read usable (himp _ (.leaf read) met)
  | some read disjunction mem holds ih =>
    exact .some read disjunction mem (ih fun l hl => himp l (.composite read mem hl))
  | all read conjunction usable holds ih =>
    refine .all read conjunction usable fun condition mem husable => ?_
    exact ih condition mem husable fun l hl => himp l (.composite read mem hl)

theorem isTagFree_leaf {l : Leaf} (read : Node.read rule = .ok (some (.ok (.leaf l))))
    (h : l.type ≠ "tag_contains") : IsTagFree rule := by
  intro l' hl
  cases hl with
  | leaf read' =>
    cases read.symm.trans read'
    exact h
  | composite read' => cases read.symm.trans read'

theorem isTagFree_composite {logic : String} {conditions : List Value}
    (read : Node.read rule = .ok (some (.ok (.composite logic conditions))))
    (h : ∀ condition ∈ conditions, IsTagFree condition) : IsTagFree rule := by
  intro l hl
  cases hl with
  | leaf read' => cases read.symm.trans read'
  | composite read' mem contains =>
    cases read.symm.trans read'
    exact h _ mem l contains

theorem holdsBy_congr (h : ∀ l, Contains l rule → (Met l ↔ Other l)) :
    HoldsBy Met rule ↔ HoldsBy Other rule :=
  ⟨fun hmet => hmet.imp fun l hl => (h l hl).1, fun hother => hother.imp fun l hl => (h l hl).2⟩

end Rule

/-! ## The fields of a product -/

/-- A number that is read as a price is the price. -/
theorem eq_of_readPrice {x price : Binary64} (h : Product.readPrice (.float x) = .ok price) :
    price = x := by
  obtain ⟨y, hy, hprice⟩ := bind_eq_ok.1 h
  cases hy
  unfold Intake.atLeast at hprice
  split at hprice
  · cases hprice
    rfl
  · cases hprice

/-- A text that is read from a cell is the one in the cell. -/
theorem eq_of_readText {v : Option Value} {text : Option String}
    (h : Intake.nullable Intake.text (v.getD .null) = .ok text) (s : String) :
    text = some s ↔ v = some (.text s) := by
  rcases v with _ | v
  · cases h
    simp
  · cases v <;> cases h <;> simp

/-! ## Conditions on products -/

/-- A condition as it is read on the fields of a product, according to its type. -/
inductive Leaf.IsShownBy (product : Product) (l : Leaf) : Prop
  | all (type : l.type = "all")
  | hasComparePrice (type : l.type = "has_compare_price") (x : Binary64)
    (compareAtPrice : product.compareAtPrice = some x) (lower : product.price.lt x = true)
  | priceRange (type : l.type = "price_range")
    (above : ∀ low ∈ l.minPrice, low.le product.price = true)
    (below : ∀ high ∈ l.maxPrice, product.price.le high = true)
  | productType (type : l.type = "product_type") (s : String) (value : l.value = some s)
    (equal : product.productType = some s)
  | vendor (type : l.type = "vendor") (s : String) (value : l.value = some s)
    (equal : product.vendor = some s)
  | inStock (type : l.type = "in_stock") (flag : product.inStock = true)
  | outOfStock (type : l.type = "out_of_stock") (flag : product.inStock = false)

/-- A condition is one on prices. -/
def Leaf.ReadsPrice (l : Leaf) : Prop := l.type = "price_range" ∨ l.type = "has_compare_price"

/-- A row meets a condition if its product shows it, and the row has the price that is read. -/
theorem Leaf.isMetBy_iff_isShownBy {l : Leaf} {row : Row} {product : Product}
    (h : row.toProduct = .ok product) (htags : l.type ≠ "tag_contains") :
    l.IsMetBy row ↔ (l.ReadsPrice → row.price ≠ none) ∧ l.IsShownBy product := by
  have hreads := Row.readsAs_of_toProduct h
  have hstock := hreads.inStock_eq
  have hcompare := hreads.compareAtPrice_eq
  have hprice := eq_of_readPrice hreads.price_read
  have hvendor := eq_of_readText hreads.vendor_read
  have htype := eq_of_readText hreads.productType_read
  constructor
  · intro hmet
    cases hmet with
    | all type => exact ⟨by simp [ReadsPrice, type], .all type⟩
    | tagContains type => exact absurd type htags
    | hasComparePrice type x y compareAtPrice price lower =>
      refine ⟨fun _ => Option.ne_none_iff_exists'.2 ⟨y, price⟩, .hasComparePrice type x ?_ ?_⟩
      · rw [hcompare, compareAtPrice]
      · rw [hprice, price]
        exact lower
    | priceRange type x price above below =>
      refine ⟨fun _ => Option.ne_none_iff_exists'.2 ⟨x, price⟩, .priceRange type ?_ ?_⟩
      · rw [hprice, price]
        exact above
      · rw [hprice, price]
        exact below
    | productType type s value equal =>
      exact ⟨by simp [ReadsPrice, type], .productType type s value ((htype s).2 equal)⟩
    | vendor type s value equal =>
      exact ⟨by simp [ReadsPrice, type], .vendor type s value ((hvendor s).2 equal)⟩
    | inStock type flag => exact ⟨by simp [ReadsPrice, type], .inStock type (hstock.trans flag)⟩
    | outOfStock type flag =>
      exact ⟨by simp [ReadsPrice, type], .outOfStock type (hstock.trans flag)⟩
  · intro hshown
    obtain ⟨hpriced, hshown⟩ := hshown
    cases hshown with
    | all type => exact .all type
    | hasComparePrice type x compareAtPrice lower =>
      obtain ⟨y, hy⟩ := Option.ne_none_iff_exists'.1 (hpriced (.inr type))
      rw [hcompare] at compareAtPrice
      rw [hprice, hy] at lower
      exact .hasComparePrice type x y compareAtPrice hy lower
    | priceRange type above below =>
      obtain ⟨x, hx⟩ := Option.ne_none_iff_exists'.1 (hpriced (.inl type))
      rw [hprice, hx] at above below
      exact .priceRange type x hx above below
    | productType type s value equal => exact .productType type s value ((htype s).1 equal)
    | vendor type s value equal => exact .vendor type s value ((hvendor s).1 equal)
    | inStock type flag => exact .inStock type (hstock.symm.trans flag)
    | outOfStock type flag => exact .outOfStock type (hstock.symm.trans flag)

namespace Store

variable {s : Store} {faults : Faults} {rule : Value} {p : Predicate} {warnings : List Warning}
  {ids : List Int} {row : Row} {product : Product}

/-- A product that is shown is what its row reads back as. -/
theorem toProduct_of_product? (hrow : row ∈ s.table.rows)
    (h : s.product? (.int row.id) = .ok (some product)) : row.toProduct = .ok product := by
  rcases s.product?_int row.id with ⟨other, hother, hid, hlookup⟩ | ⟨-, hlookup⟩
  · cases s.table.eq_of_id_eq hother hrow hid
    rw [hlookup] at h
    obtain ⟨found, hfound, hsome⟩ := map_eq_ok.1 h
    cases hsome
    exact hfound
  · cases hlookup.symm.trans h

/-- The ids that a rule evaluates to are those of the rows that satisfy it. -/
theorem mem_iff_of_evaluate (hcompile : Rule.compile rule = .ok (p, warnings))
    (hrow : row ∈ s.table.rows) (hscan : s.evaluate faults p = .ok ids) :
    row.id ∈ ids ↔ Rule.IsSatisfiedBy row rule := by
  rw [eq_of_evaluate (Rule.check_compile hcompile) hscan, List.mem_map,
    ← Rule.holds_compile (t := s.table) (m := s.memberships) hcompile]
  constructor
  · intro h
    obtain ⟨other, hother, hid⟩ := h
    obtain ⟨hmem, hholds⟩ := List.mem_filter.1 hother
    cases s.table.eq_of_id_eq hmem hrow hid
    exact hholds
  · exact fun hholds => ⟨row, List.mem_filter.2 ⟨hrow, hholds⟩, rfl⟩

/-- A rule without conditions on tags evaluates to a product if and only if the product that is
shown satisfies the rule, provided that its row has a price. Where the price is missing it is shown
as zero, and the rule is read as if no condition on prices were met. -/
theorem mem_evaluate_iff_shown (hcompile : Rule.compile rule = .ok (p, warnings))
    (htags : Rule.IsTagFree rule) (hrow : row ∈ s.table.rows)
    (hscan : s.evaluate faults p = .ok ids)
    (hshown : s.product? (.int row.id) = .ok (some product)) :
    (row.price ≠ none → (row.id ∈ ids ↔ Rule.HoldsBy (·.IsShownBy product) rule)) ∧
    (row.price = none → product.price = .zero ∧
      (row.id ∈ ids ↔ Rule.HoldsBy (fun l => ¬l.ReadsPrice ∧ l.IsShownBy product) rule)) := by
  have hproduct := toProduct_of_product? hrow hshown
  have hmem : row.id ∈ ids ↔
      Rule.HoldsBy (fun l => (l.ReadsPrice → row.price ≠ none) ∧ l.IsShownBy product) rule := by
    rw [mem_iff_of_evaluate hcompile hrow hscan, Rule.isSatisfiedBy_iff_holdsBy]
    exact Rule.holdsBy_congr fun l hl => Leaf.isMetBy_iff_isShownBy hproduct (htags l hl)
  constructor
  · intro hprice
    rw [hmem]
    exact Rule.holdsBy_congr fun l _ => and_iff_right fun _ => hprice
  · intro hprice
    refine ⟨?_, ?_⟩
    · rw [eq_of_readPrice (Row.readsAs_of_toProduct hproduct).price_read, hprice]
      rfl
    · rw [hmem]
      exact Rule.holdsBy_congr fun l _ => by simp [hprice]

end Store

/-! ## A product without a price -/

/-- Two products of one vendor, of which the second has no price. -/
def Table.unpriced : Table where
  rows := [{ id := 1, vendor := some (.text "Acme"), price := some (.ofNat 20) },
    { id := 2, vendor := some (.text "Acme") }]
  ascending := by simp
  normal := by
    refine ⟨none, fun row hrow => ?_⟩
    simp only [List.mem_cons, List.not_mem_nil, or_false] at hrow
    rcases hrow with rfl | rfl
    all_goals exact ⟨rfl, fun column => by cases column <;> rfl, fun m hm => nomatch hm⟩

namespace Store

/-- The store of these products, without collections. -/
def unpriced : Store := .ofParts Table.unpriced [] .empty

/-- The products of the vendor whose price is not below zero. -/
def acmePriced : Value :=
  .object [("type", .text "multiple"), ("logic", .text "and"),
    ("conditions", .list [.object [("type", .text "price_range"), ("min_price", .float .zero)],
      .object [("type", .text "vendor"), ("value", .text "Acme")]])]

theorem isTagFree_acmePriced : Rule.IsTagFree acmePriced := by
  refine Rule.isTagFree_composite rfl fun condition hcondition => ?_
  simp only [List.mem_cons, List.not_mem_nil, or_false] at hcondition
  rcases hcondition with rfl | rfl
  · exact Rule.isTagFree_leaf rfl (by decide)
  · exact Rule.isTagFree_leaf rfl (by decide)

/-- The rule evaluates to the product that has a price. -/
theorem evaluate_unpriced : ∃ p, Rule.compile acmePriced = .ok (p, []) ∧
    unpriced.evaluate .none p = .ok [1] := by
  refine ⟨.allOf [.fieldRange "price" (some (.float .zero)) none,
    .fieldEquals "vendor" (.text "Acme")], ?_, ?_⟩
  · refine Rule.compile_eq_ok.2 ⟨.group "and" [.leaf ⟨"price_range", none, some .zero, none⟩,
      .leaf ⟨"vendor", some "Acme", none, none⟩], ?_, rfl, rfl⟩
    rw [Entry.read_eq]
    show (Entry.group "and" <$> List.mapM Entry.read [_, _] : Except Failure Entry) = _
    simp only [List.mapM_cons, Entry.read_eq]
    rfl
  · have hids : (unpriced.evaluate .none (.allOf [.fieldRange "price" (some (.float .zero)) none,
        .fieldEquals "vendor" (.text "Acme")])).toOption = some [1] := by
      decide +kernel
    generalize unpriced.evaluate .none _ = outcome at hids
    cases outcome with
    | error failure => cases hids
    | ok ids => exact congrArg Except.ok (Option.some.inj hids)

theorem product?_unpriced :
    unpriced.product? (.int 1) =
      .ok (some { id := 1, vendor := some "Acme", price := .ofNat 20 }) ∧
    unpriced.product? (.int 2) = .ok (some { id := 2, vendor := some "Acme" }) := by
  constructor
  · rfl
  · rfl

/-- The product with a price is shown to satisfy the rule; the other one does not satisfy it as far
as it is read without its price. -/
theorem mem_evaluate_iff_shown_unpriced : ∃ first second : Product,
    unpriced.product? (.int 1) = .ok (some first) ∧
    unpriced.product? (.int 2) = .ok (some second) ∧
    Rule.HoldsBy (·.IsShownBy first) acmePriced ∧ second.price = .zero ∧
    ¬Rule.HoldsBy (fun l => ¬l.ReadsPrice ∧ l.IsShownBy second) acmePriced := by
  obtain ⟨p, hcompile, hscan⟩ := evaluate_unpriced
  obtain ⟨hfirst, hsecond⟩ := product?_unpriced
  refine ⟨_, _, hfirst, hsecond, ?_⟩
  have hpriced : { id := 1, vendor := some (.text "Acme"), price := some (.ofNat 20) } ∈
      unpriced.table.rows := List.mem_cons_self
  have hmissing : { id := 2, vendor := some (.text "Acme") } ∈ unpriced.table.rows :=
    List.mem_cons_of_mem _ List.mem_cons_self
  have hshown := mem_evaluate_iff_shown hcompile isTagFree_acmePriced hpriced hscan hfirst
  have hzero := mem_evaluate_iff_shown hcompile isTagFree_acmePriced hmissing hscan hsecond
  refine ⟨(hshown.1 (Option.some_ne_none _)).1 (by decide), (hzero.2 rfl).1, fun holds => ?_⟩
  exact absurd ((hzero.2 rfl).2.2 holds) (by decide)

/-- A product can be shown to satisfy a rule that does not evaluate to it. -/
theorem not_forall_mem_evaluate_iff_shown :
    ¬∀ (s : Store) (faults : Faults) (rule : Value) (p : Predicate) (warnings : List Warning)
      (ids : List Int) (row : Row) (product : Product),
      Rule.compile rule = .ok (p, warnings) → Rule.IsTagFree rule → row ∈ s.table.rows →
      s.evaluate faults p = .ok ids → s.product? (.int row.id) = .ok (some product) →
      (row.id ∈ ids ↔ Rule.HoldsBy (·.IsShownBy product) rule) := by
  intro h
  obtain ⟨p, hcompile, hscan⟩ := evaluate_unpriced
  have hmissing : { id := 2, vendor := some (.text "Acme") } ∈ unpriced.table.rows :=
    List.mem_cons_of_mem _ List.mem_cons_self
  have hiff := h unpriced .none acmePriced p [] [1] _ _ hcompile isTagFree_acmePriced hmissing hscan
    product?_unpriced.2
  have hholds : Rule.HoldsBy
      (·.IsShownBy { id := 2, vendor := some "Acme" }) acmePriced := by
    refine .all rfl (by decide) ⟨_, List.mem_cons_self, ?_⟩ fun condition hcondition _ => ?_
    · exact .leaf rfl (.priceRange rfl (.inl (Option.some_ne_none _)))
    · simp only [List.mem_cons, List.not_mem_nil, or_false] at hcondition
      rcases hcondition with rfl | rfl
      · refine .leaf rfl (.priceRange rfl (.inl (Option.some_ne_none _))) (.priceRange rfl ?_ ?_)
        · intro low hlow
          cases hlow
          decide +kernel
        · exact fun high hhigh => nomatch hhigh
      · exact .leaf rfl (.vendor rfl "Acme" rfl (by decide)) (.vendor rfl "Acme" rfl rfl)
  exact absurd (hiff.2 hholds) (by decide)

end Store

end Storefront
