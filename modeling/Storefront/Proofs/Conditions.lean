import Storefront.Catalog.Matching

/-!
# What single conditions mean

A condition names its field by text and compares a cell with a value. For the fields of the catalog
that comes down to a statement about the row itself.

* `holds_tags`: the tags contain a text, in any case
* `holds_vendor`, `holds_productType`: a field equals a text
* `holds_stock`, `holds_id`: the stock flag, and the id
* `holds_doubleRange`, `holds_priceRange`, `holds_reduced`: a number and the price between two
  bounds, and the price below the one it is compared with
-/

namespace Storefront

/-! ## Parts of texts -/

namespace Predicate

theorem containsPart_eq_true {part cs : List Char} : containsPart part cs = true ↔ part <:+: cs := by
  induction cs with
  | nil => rw [containsPart, List.isEmpty_iff, List.infix_nil]
  | cons c cs ih =>
    rw [containsPart, Bool.or_eq_true, ih, List.isPrefixOf_iff_prefix, List.infix_cons_iff]

end Predicate

/-! ## Comparisons of numbers -/

theorem columnOrder_gt {x y : Binary64} :
    columnOrder? (.double x) (.double y) = some .gt ↔ y.lt x = true := by
  show Number.order? (.double x) (.double y) = some .gt ↔ _
  rw [Number.order?_doubles, Binary64.lt_eq_true]
  constructor
  · intro h
    obtain ⟨a, b, ha, hb, hab⟩ := h
    exact ⟨b, a, hb, ha, Int.compare_eq_gt.1 hab⟩
  · intro h
    obtain ⟨b, a, hb, ha, hab⟩ := h
    exact ⟨a, b, ha, hb, Int.compare_eq_gt.2 hab⟩

theorem columnOrder_ge {x y : Binary64} :
    (columnOrder? (.double x) (.double y) = some .gt ∨
      columnOrder? (.double x) (.double y) = some .eq) ↔ y.le x = true := by
  show (Number.order? (.double x) (.double y) = some .gt ∨
    Number.order? (.double x) (.double y) = some .eq) ↔ _
  rw [Number.order?_doubles, Number.order?_doubles, Binary64.le_eq_true]
  constructor
  · intro h
    rcases h with ⟨a, b, ha, hb, hab⟩ | ⟨a, b, ha, hb, hab⟩
    · exact ⟨b, a, hb, ha, Int.le_of_lt (Int.compare_eq_gt.1 hab)⟩
    · exact ⟨b, a, hb, ha, Int.le_of_eq (Int.compare_eq_eq.1 hab).symm⟩
  · intro h
    obtain ⟨b, a, hb, ha, hab⟩ := h
    rcases Int.lt_or_eq_of_le hab with hlt | heq
    · exact .inl ⟨a, b, ha, hb, Int.compare_eq_gt.2 hlt⟩
    · exact .inr ⟨a, b, ha, hb, Int.compare_eq_eq.2 heq.symm⟩

theorem columnOrder_le {x y : Binary64} :
    (columnOrder? (.double x) (.double y) = some .lt ∨
      columnOrder? (.double x) (.double y) = some .eq) ↔ x.le y = true := by
  show (Number.order? (.double x) (.double y) = some .lt ∨
    Number.order? (.double x) (.double y) = some .eq) ↔ _
  rw [Number.order?_doubles, Number.order?_doubles, Binary64.le_eq_true]
  constructor
  · intro h
    rcases h with ⟨a, b, ha, hb, hab⟩ | ⟨a, b, ha, hb, hab⟩
    · exact ⟨a, b, ha, hb, Int.le_of_lt (Int.compare_eq_lt.1 hab)⟩
    · exact ⟨a, b, ha, hb, Int.le_of_eq (Int.compare_eq_eq.1 hab)⟩
  · intro h
    obtain ⟨a, b, ha, hb, hab⟩ := h
    rcases Int.lt_or_eq_of_le hab with hlt | heq
    · exact .inl ⟨a, b, ha, hb, Int.compare_eq_lt.2 hlt⟩
    · exact .inr ⟨a, b, ha, hb, Int.compare_eq_eq.2 heq⟩

/-! ## Conditions on rows -/

namespace Predicate

variable {t : Table} {m : Memberships} {row : Row}

theorem meetsMinimum_double {x : Binary64} {low : Option Binary64} :
    meetsMinimum t row (.number (.double x)) (low.map .float) = true ↔
      ∀ y ∈ low, y.le x = true := by
  cases low with
  | none => simp [meetsMinimum]
  | some y =>
    have horder : Cell.order? (.number (.double x)) (t.operand (.float y) row) =
        columnOrder? (.double x) (.double y) := rfl
    simp only [meetsMinimum, Option.map_some, horder, Option.mem_some_iff, forall_eq',
      ← columnOrder_ge]
    rcases columnOrder? (.double x) (.double y) with _ | (_ | _ | _) <;> simp

theorem meetsMaximum_double {x : Binary64} {high : Option Binary64} :
    meetsMaximum t row (.number (.double x)) (high.map .float) = true ↔
      ∀ y ∈ high, x.le y = true := by
  cases high with
  | none => simp [meetsMaximum]
  | some y =>
    have horder : Cell.order? (.number (.double x)) (t.operand (.float y) row) =
        columnOrder? (.double x) (.double y) := rfl
    simp only [meetsMaximum, Option.map_some, horder, Option.mem_some_iff, forall_eq',
      ← columnOrder_le]
    rcases columnOrder? (.double x) (.double y) with _ | (_ | _ | _) <;> simp

/-- A number lies between bounds. -/
theorem holds_doubleRange {field : String} {number : Option Binary64} {low high : Option Binary64}
    (hcell : cell? field row = .ofNumber? number) :
    (fieldRange field (low.map .float) (high.map .float)).holds t m row = true ↔
      ∃ x, number = some x ∧ (∀ y ∈ low, y.le x = true) ∧ ∀ y ∈ high, x.le y = true := by
  rw [holds, hcell]
  cases number with
  | none => simp [Cell.ofNumber?, Cell.isMissing]
  | some x =>
    rw [Bool.and_eq_true, Bool.and_eq_true]
    show (_ ∧ meetsMinimum t row (.number (.double x)) _ = true) ∧
      meetsMaximum t row (.number (.double x)) _ = true ↔ _
    rw [meetsMinimum_double, meetsMaximum_double]
    simp [Cell.ofNumber?, Cell.isMissing]

/-- The price lies between bounds. -/
theorem holds_priceRange {low high : Option Binary64} :
    (fieldRange "price" (low.map .float) (high.map .float)).holds t m row = true ↔
      ∃ x, row.price = some x ∧ (∀ y ∈ low, y.le x = true) ∧ ∀ y ∈ high, x.le y = true :=
  holds_doubleRange rfl

/-- The price is lower than the one it is compared with. -/
theorem holds_reduced :
    (fieldExceeds "compare_at_price" "price").holds t m row = true ↔
      ∃ x y, row.compareAtPrice = some x ∧ row.price = some y ∧ y.lt x = true := by
  have hfirst : cell? "compare_at_price" row = .ofNumber? row.compareAtPrice := rfl
  have hsecond : cell? "price" row = .ofNumber? row.price := rfl
  rw [holds, hfirst, hsecond, beq_iff_eq]
  cases row.compareAtPrice with
  | none => simp [Cell.ofNumber?, Cell.orderCell?]
  | some x =>
    cases row.price with
    | none => simp [Cell.ofNumber?, Cell.orderCell?]
    | some y =>
      show columnOrder? (.double x) (.double y) = some .gt ↔ _
      rw [columnOrder_gt]
      simp

/-- Two prices can be compared on every table. -/
theorem check_reduced : (fieldExceeds "compare_at_price" "price").check t = .ok () := by
  have hordered : (t.rows.all fun row => areOrdered Column.compareAtPrice.kind Column.price.kind
      (row.cell .compareAtPrice) (row.cell .price)) = true :=
    List.all_eq_true.2 fun _ _ => rfl
  show (if _ && _ then _ else _) = _
  rw [if_pos]
  · rfl
  · exact hordered

/-- The stock flag has a value. -/
theorem holds_stock {b : Bool} :
    (fieldEquals "in_stock" (.bool b)).holds t m row = true ↔ row.inStock = b := by
  have hcell : cell? "in_stock" row = .ofFlag row.inStock := rfl
  rw [holds, hcell]
  show (Cell.ofFlag row.inStock).equals (.bool b) = true ↔ _
  cases row.inStock <;> cases b <;> decide

/-- The id is a number. -/
theorem holds_id {n : Int} :
    (fieldEquals "id" (.int n)).holds t m row = true ↔ row.id = n := by
  have hcell : cell? "id" row = .number (.whole row.id) := rfl
  rw [holds, hcell]
  show (some (compare row.id n) == some Ordering.eq) = true ↔ _
  rw [beq_iff_eq, Option.some_inj]
  exact Int.compare_eq_eq

/-- A cell that holds a value equals a text. -/
theorem equals_text {v : Option Value} {s : String} :
    (Cell.ofValue? v).equals (.text s) = true ↔ v = some (.text s) := by
  cases v with
  | none => simp [Cell.ofValue?, Cell.equals]
  | some v =>
    cases v <;> simp [Cell.ofValue?, Cell.equals, Value.equals, Value.isMissing, Value.number?]

theorem holds_vendor {s : String} :
    (fieldEquals "vendor" (.text s)).holds t m row = true ↔ row.vendor = some (.text s) := by
  have hcell : cell? "vendor" row = .ofValue? row.vendor := rfl
  rw [holds, hcell]
  exact equals_text

theorem holds_productType {s : String} :
    (fieldEquals "product_type" (.text s)).holds t m row = true ↔
      row.productType = some (.text s) := by
  have hcell : cell? "product_type" row = .ofValue? row.productType := rfl
  rw [holds, hcell]
  exact equals_text

/-- The tags contain a text, in any case. -/
theorem holds_tags {s : String} :
    (fieldContains "tags" (.text s)).holds t m row = true ↔ upper s <:+: upper row.tags := by
  rw [← containsPart_eq_true]
  unfold holds
  exact Iff.rfl

end Predicate

end Storefront
