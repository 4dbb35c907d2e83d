import Storefront.Engine
import Storefront.Proofs.ShownProducts
import Storefront.Proofs.TagSearch

/-!
# The options for rules

A catalog offers its vendors and its product types as the values that rules can ask for. The rules
that ask for them divide the products: each product with a vendor is found by the rule for its
vendor and by no other. An empty text is offered as well if a product has it for its vendor, but the
rule that asks for it has no usable condition and finds nothing.

* `Choice`: vendors and product types, in rows, in products and in rules
* `Table.distinct_texts`: the different values of a column of texts
* `Store.selects_rule`: what a rule for a vendor or a product type finds
* `Store.Divides`: the options for rules, and how they divide the products
* `Store.options_divide`: what is offered by a store whose rows read back
-/

namespace Storefront

/-! ## Vendors and product types -/

/-- What a rule can ask for by an exact value. -/
inductive Choice where
  | vendor
  | productType

namespace Choice

/-- The field of a choice, which is also the type of its rules. -/
def name : Choice → String
  | vendor => "vendor"
  | productType => "product_type"

/-- The column of a choice. -/
def column : Choice → Column
  | vendor => .vendor
  | productType => .productType

/-- What a row holds. -/
def stored : Choice → Row → Option Value
  | vendor, row => row.vendor
  | productType, row => row.productType

/-- What a product has. -/
def given : Choice → Product → Option String
  | vendor, p => p.vendor
  | productType, p => p.productType

/-- What is offered. -/
def offered : Choice → Store.RuleOptions → List Value
  | vendor, options => options.vendors
  | productType, options => options.productTypes

/-- The rule that asks for a text. -/
def rule (choice : Choice) (text : String) : Value :=
  .object [("type", .text choice.name), ("value", .text text)]

theorem column_name (choice : Choice) : Predicate.column choice.name = .ok choice.column := by
  cases choice <;> rfl

theorem cell_column (choice : Choice) (row : Row) :
    row.cell choice.column = .ofValue? (choice.stored row) := by
  cases choice <;> rfl

theorem node_rule (choice : Choice) (text : String) :
    Node.read (choice.rule text) =
      .ok (some (.ok (.leaf ⟨choice.name, some text, none, none⟩))) := by
  cases choice <;> rfl

/-- A product has the text that its row holds. -/
theorem given_eq_some {choice : Choice} {row : Row} {p : Product} (h : row.toProduct = .ok p)
    (text : String) : choice.given p = some text ↔ choice.stored row = some (.text text) := by
  have hreads := Row.readsAs_of_toProduct h
  cases choice with
  | vendor => exact eq_of_readText hreads.vendor_read text
  | productType => exact eq_of_readText hreads.productType_read text

/-- A row that reads back holds a text or nothing. -/
theorem stored_cases (choice : Choice) {offset : Option Int} {row : Row}
    (hnormal : row.IsNormal offset) (hread : ∃ p, row.toProduct = .ok p) :
    choice.stored row = none ∨ ∃ text, choice.stored row = some (.text text) := by
  obtain ⟨p, hp⟩ := hread
  have hreads := Row.readsAs_of_toProduct hp
  have hproper := hnormal.isProper_cell choice.column
  rw [cell_column] at hproper
  have htext : ∃ text, Intake.nullable Intake.text ((choice.stored row).getD .null) = .ok text := by
    cases choice with
    | vendor => exact ⟨_, hreads.vendor_read⟩
    | productType => exact ⟨_, hreads.productType_read⟩
  obtain ⟨text, htext⟩ := htext
  cases hstored : choice.stored row with
  | none => exact .inl rfl
  | some v =>
    rw [hstored] at hproper htext
    have hmissing := Cell.isMissing_of_isProper hproper
    refine .inr ?_
    cases v with
    | text s => exact ⟨s, rfl⟩
    | null => simp [Value.isMissing] at hmissing
    | _ => cases htext

end Choice

/-! ## The different values of a column of texts -/

namespace Cell

/-- The text in a cell. -/
def text? : Cell → Option String
  | .value (.text s) => some s
  | _ => none

/-- The cell holds a text or nothing. -/
def HoldsText (cell : Cell) : Prop := cell = .missing ∨ ∃ s, cell = .value (.text s)

theorem text?_eq_some {cell : Cell} {s : String} : cell.text? = some s ↔ cell = .value (.text s) := by
  constructor
  · intro h
    unfold text? at h
    split at h
    · cases h
      rfl
    · cases h
  · rintro rfl
    rfl

/-- Among cells that hold texts or nothing, those that are not missing are the texts. -/
theorem filter_isMissing {cells : List Cell} (h : ∀ cell ∈ cells, cell.HoldsText) :
    cells.filter (!·.isMissing) = (cells.filterMap text?).map fun s => .value (.text s) := by
  induction cells with
  | nil => rfl
  | cons cell cells ih =>
    have ih := ih fun other hother => h other (List.mem_cons_of_mem cell hother)
    rcases h cell List.mem_cons_self with rfl | ⟨s, rfl⟩
    · exact ih
    · exact congrArg (.value (.text s) :: ·) ih

end Cell

/-- Texts have an order among themselves. -/
theorem SortKey.areSortable_of_texts (texts : List String) :
    areSortable (texts.map fun s => .value (.text s)) = true := by
  have htext {v : Value} (hv : v ∈ valuesOf (texts.map fun s => .value (.text s))) :
      ∃ s, v = .text s := by
    obtain ⟨s, -, hs⟩ := List.mem_map.1 (mem_valuesOf.1 hv)
    cases hs
    exact ⟨s, rfl⟩
  refine Bool.or_eq_true_iff.2 (.inr ?_)
  refine List.all_eq_true.2 fun v hv => List.all_eq_true.2 fun w hw => ?_
  obtain ⟨s, rfl⟩ := htext hv
  obtain ⟨t, rfl⟩ := htext hw
  rfl

namespace Table

variable {t : Table} {column : Column}

/-- The texts that occur in a column. -/
def textsOf (t : Table) (column : Column) : List String := (t.cells column).filterMap Cell.text?

theorem mem_textsOf {s : String} :
    s ∈ t.textsOf column ↔ ∃ row ∈ t.rows, row.cell column = .value (.text s) := by
  simp [textsOf, cells, Cell.text?_eq_some]

/-- The loop over texts keeps each where it occurs first. -/
theorem foldl_texts (texts : List String) :
    (texts.map Value.text).foldl
        (fun seen v => if seen.any v.equals then seen else seen ++ [v]) [] =
      (firstsBy id texts).map Value.text := by
  have hstep : ∀ (seen : List String) (s : String),
      (if (seen.map Value.text).any (Value.text s).equals then seen.map Value.text
        else seen.map Value.text ++ [.text s]) = (appendNew id seen s).map Value.text := by
    intro seen s
    have hany : (seen.map Value.text).any (Value.text s).equals =
        seen.any fun y => decide (id y = id s) := by
      rw [List.any_map]
      congr 1
      funext y
      show (s == y) = decide (y = s)
      rw [Bool.eq_iff_iff, beq_iff_eq, decide_eq_true_eq]
      exact eq_comm
    rw [hany, appendNew]
    split <;> simp
  have hfold : ∀ seen : List String, (texts.map Value.text).foldl
      (fun seen v => if seen.any v.equals then seen else seen ++ [v]) (seen.map Value.text) =
        (texts.foldl (appendNew id) seen).map Value.text := by
    induction texts with
    | nil => exact fun _ => rfl
    | cons s texts ih =>
      intro seen
      rw [List.map_cons, List.foldl_cons, hstep, ih, List.foldl_cons]
  have hfirsts : texts.foldl (appendNew id) [] = firstsBy id texts := foldl_appendNew [] texts
  rw [← hfirsts]
  exact hfold []

/-- The different values of a column of texts: each text of the column once. -/
theorem distinct_texts {field : String} (hfield : Predicate.column field = .ok column)
    (h : ∀ cell ∈ t.cells column, cell.HoldsText) :
    ∃ options, t.distinct field = .ok options ∧ options.Nodup ∧
      ∀ option, option ∈ options ↔ ∃ s ∈ t.textsOf column, option = .text s := by
  have hnodup : ((firstsBy id (t.textsOf column)).map Value.text).Nodup :=
    List.Pairwise.map Value.text (fun a b hab heq => hab (Value.text.inj heq))
      (nodup_firstsBy_id (t.textsOf column))
  have hsortable : SortKey.areSortable
      (((firstsBy id (t.textsOf column)).map Value.text).map Cell.value) = true := by
    rw [List.map_map]
    exact SortKey.areSortable_of_texts _
  -- whatever the cells of other kinds are turned into, a text stays as it is
  have hmap : ∀ f : Cell → Value, (∀ s, f (.value (.text s)) = .text s) →
      ((t.textsOf column).map fun s => Cell.value (.text s)).map f =
        (t.textsOf column).map Value.text := by
    intro f hf
    rw [List.map_map]
    exact List.map_congr_left fun s _ => hf s
  refine ⟨sortBy (fun a b => (a.order? b).join != some .gt)
    ((firstsBy id (t.textsOf column)).map Value.text), ?_, ?_, ?_⟩
  · unfold distinct
    rw [hfield]
    dsimp only [bind, Except.bind]
    have hpresent : (t.cells column).filter (!·.isMissing) =
        (t.textsOf column).map fun s => .value (.text s) := Cell.filter_isMissing h
    rw [hpresent, hmap _ fun s => rfl, if_neg (by simp), foldl_texts, hsortable]
    rfl
  · exact (sortBy_perm _ _).nodup_iff.2 hnodup
  · intro option
    rw [mem_sortBy, List.mem_map]
    simp only [mem_firstsBy_id, eq_comm]

end Table

/-! ## What the rules find -/

namespace Choice

/-- The rule for a text has a predicate unless the text is empty. -/
theorem predicate?_rule (choice : Choice) (text : String) :
    (⟨choice.name, some text, none, none⟩ : Leaf).predicate? =
      if text.isEmpty then none else some (.fieldEquals choice.name (.text text)) := by
  cases choice <;> rfl

theorem holds_rule {choice : Choice} {text : String} {t : Table} {m : Memberships} {row : Row} :
    (Predicate.fieldEquals choice.name (.text text)).holds t m row = true ↔
      choice.stored row = some (.text text) := by
  cases choice with
  | vendor => exact Predicate.holds_vendor
  | productType => exact Predicate.holds_productType

/-- The rows with a text satisfy the rule that asks for it, unless it is empty. -/
theorem isSatisfiedBy_rule {choice : Choice} {text : String} {row : Row} :
    Rule.IsSatisfiedBy row (choice.rule text) ↔
      text ≠ "" ∧ choice.stored row = some (.text text) := by
  have hpredicate := choice.predicate?_rule text
  rw [Rule.isSatisfiedBy_leaf (choice.node_rule text), Leaf.isUsable_iff]
  by_cases htext : text = ""
  · subst htext
    rw [if_pos (by decide)] at hpredicate
    simp [hpredicate]
  · rw [if_neg (by simpa using htext)] at hpredicate
    rw [Leaf.isMetBy_iff (t := .empty) (m := .empty) hpredicate, holds_rule]
    simp [hpredicate, htext]

end Choice

namespace Store

variable {s : Store} {choice : Choice} {text : String} {ids : List Int}

/-- A product has a text for its vendor, or for its type. -/
def IsGiven (s : Store) (choice : Choice) (id : Int) (text : String) : Prop :=
  ∃ p, s.product? (.int id) = .ok (some p) ∧ choice.given p = some text

/-- A rule selects the ids to which its predicate evaluates. -/
def Selects (s : Store) (rule : Value) (ids : List Int) : Prop :=
  ∃ p warnings, Rule.compile rule = .ok (p, warnings) ∧ s.evaluate .none p = .ok ids

theorem Selects.unique {rule : Value} {others : List Int} (h : s.Selects rule ids)
    (h' : s.Selects rule others) : ids = others := by
  obtain ⟨p, warnings, hcompile, hids⟩ := h
  obtain ⟨p', warnings', hcompile', hothers⟩ := h'
  cases hcompile.symm.trans hcompile'
  exact Except.ok.inj (hids.symm.trans hothers)

theorem isGiven_iff (hread : ∀ row ∈ s.table.rows, ∃ p, row.toProduct = .ok p) {id : Int} :
    s.IsGiven choice id text ↔
      ∃ row ∈ s.table.rows, row.id = id ∧ choice.stored row = some (.text text) := by
  constructor
  · rintro ⟨p, hp, hgiven⟩
    obtain ⟨row, hrow, hid, hproduct⟩ := exists_row_of_product? hp
    exact ⟨row, hrow, hid, (Choice.given_eq_some hproduct text).1 hgiven⟩
  · rintro ⟨row, hrow, rfl, hstored⟩
    obtain ⟨p, hproduct⟩ := hread row hrow
    rcases s.product?_int row.id with ⟨other, hother, hid, hlookup⟩ | ⟨hnone, -⟩
    · cases s.table.eq_of_id_eq hother hrow hid
      refine ⟨p, ?_, (Choice.given_eq_some hproduct text).2 hstored⟩
      rw [hlookup, hproduct]
      rfl
    · exact absurd rfl (hnone row hrow)

/-- The rule for a text selects the products that have it, unless it is empty. -/
theorem selects_rule (hread : ∀ row ∈ s.table.rows, ∃ p, row.toProduct = .ok p) (choice : Choice)
    (text : String) : ∃ ids, s.Selects (choice.rule text) ids ∧
      ∀ id, id ∈ ids ↔ text ≠ "" ∧ s.IsGiven choice id text := by
  obtain ⟨p, warnings, hcompile⟩ := Rule.exists_compile_of_leaf (choice.node_rule text)
  obtain ⟨ids, hids, -, hmem⟩ := Rule.evaluate_compile s hcompile fun row hrow _ => hread row hrow
  refine ⟨ids, ⟨p, warnings, hcompile, hids⟩, fun id => ?_⟩
  rw [hmem, isGiven_iff hread]
  simp only [Choice.isSatisfiedBy_rule]
  constructor
  · rintro ⟨row, hrow, hid, htext, hstored⟩
    exact ⟨htext, row, hrow, hid, hstored⟩
  · rintro ⟨htext, row, hrow, hid, hstored⟩
    exact ⟨row, hrow, hid, htext, hstored⟩

/-- What is offered divides the products: the rules for two options have no product in common, and
together they find the products that have a text which is not empty. Only the empty text, if it is
offered, finds nothing. -/
structure Divides (s : Store) (choice : Choice) (options : List Value) : Prop where
  /-- No option is offered twice. -/
  nodup : options.Nodup
  /-- The options are the texts that some product has. -/
  mem_iff : ∀ option,
    option ∈ options ↔ ∃ text id, option = .text text ∧ s.IsGiven choice id text
  /-- The rule for an option selects products, unless the option is empty. -/
  selected : ∀ text, .text text ∈ options →
    ∃ ids, s.Selects (choice.rule text) ids ∧ (ids = [] ↔ text = "")
  /-- Different options have no products in common. -/
  disjoint : ∀ first second, first ≠ second → ∀ ids others, s.Selects (choice.rule first) ids →
    s.Selects (choice.rule second) others → ∀ id ∈ ids, id ∉ others
  /-- All options together have the products with a text that is not empty. -/
  covered : ∀ id, (∃ text ids, .text text ∈ options ∧ s.Selects (choice.rule text) ids ∧ id ∈ ids) ↔
    ∃ text, text ≠ "" ∧ s.IsGiven choice id text

/-- Where every row reads back, a field of texts has its different texts as values. -/
theorem exists_distinct (hread : ∀ row ∈ s.table.rows, ∃ p, row.toProduct = .ok p)
    (choice : Choice) : ∃ options, s.distinct choice.name = .ok options ∧ options.Nodup ∧
      ∀ option, option ∈ options ↔ ∃ text id, option = .text text ∧ s.IsGiven choice id text := by
  obtain ⟨offset, hnormal⟩ := s.table.normal
  have hcell : ∀ row : Row, ∀ text, row.cell choice.column = .value (.text text) ↔
      choice.stored row = some (.text text) := by
    intro row text
    rw [choice.cell_column]
    cases choice.stored row <;> simp [Cell.ofValue?]
  have htexts : ∀ cell ∈ s.table.cells choice.column, cell.HoldsText := by
    intro cell hmem
    obtain ⟨row, hrow, rfl⟩ := List.mem_map.1 hmem
    rw [choice.cell_column]
    rcases choice.stored_cases (hnormal row hrow) (hread row hrow) with hstored | ⟨text, hstored⟩
    · rw [hstored]
      exact .inl rfl
    · rw [hstored]
      exact .inr ⟨text, rfl⟩
  obtain ⟨options, hoptions, hnodup, hmem⟩ := Table.distinct_texts choice.column_name htexts
  refine ⟨options, hoptions, hnodup, fun option => ?_⟩
  rw [hmem]
  simp only [Table.mem_textsOf, hcell, isGiven_iff hread]
  constructor
  · rintro ⟨text, ⟨row, hrow, hstored⟩, rfl⟩
    exact ⟨text, row.id, rfl, row, hrow, rfl, hstored⟩
  · rintro ⟨text, id, rfl, row, hrow, -, hstored⟩
    exact ⟨text, ⟨row, hrow, hstored⟩, rfl⟩

theorem divides_of_mem_iff (hread : ∀ row ∈ s.table.rows, ∃ p, row.toProduct = .ok p)
    {options : List Value} (nodup : options.Nodup) (mem_iff : ∀ option,
      option ∈ options ↔ ∃ text id, option = .text text ∧ s.IsGiven choice id text) :
    s.Divides choice options := by
  have hgiven : ∀ text ids, s.Selects (choice.rule text) ids →
      ∀ id, id ∈ ids ↔ text ≠ "" ∧ s.IsGiven choice id text := by
    intro text ids hids
    obtain ⟨ids', hids', hmem⟩ := selects_rule hread choice text
    rw [hids.unique hids']
    exact hmem
  refine ⟨nodup, mem_iff, ?_, ?_, ?_⟩
  · intro text htext
    obtain ⟨text', id, heq, hid⟩ := (mem_iff _).1 htext
    cases heq
    obtain ⟨ids, hids, hmem⟩ := selects_rule hread choice text
    refine ⟨ids, hids, ?_, ?_⟩
    · intro hnil
      by_contra hne
      rw [hnil] at hmem
      exact List.not_mem_nil ((hmem id).2 ⟨hne, hid⟩)
    · rintro rfl
      exact List.eq_nil_iff_forall_not_mem.2 fun id hmemId => ((hmem id).1 hmemId).1 rfl
  · intro first second hne ids others hids hothers id hid hother
    obtain ⟨-, p, hp, hfirst⟩ := (hgiven first ids hids id).1 hid
    obtain ⟨-, p', hp', hsecond⟩ := (hgiven second others hothers id).1 hother
    cases hp.symm.trans hp'
    exact hne (Option.some.inj (hfirst.symm.trans hsecond))
  · intro id
    constructor
    · rintro ⟨text, ids, -, hids, hid⟩
      exact ⟨text, (hgiven text ids hids id).1 hid⟩
    · rintro ⟨text, hne, hid⟩
      obtain ⟨ids, hids, hmem⟩ := selects_rule hread choice text
      exact ⟨text, ids, (mem_iff _).2 ⟨text, id, rfl, hid⟩, hids, (hmem id).2 ⟨hne, hid⟩⟩

/-- The options of a store whose rows read back. -/
theorem exists_ruleOptions (hread : ∀ row ∈ s.table.rows, ∃ p, row.toProduct = .ok p) :
    ∃ options, s.ruleOptions = .ok options ∧
      ∀ choice : Choice, s.distinct choice.name = .ok (choice.offered options) := by
  obtain ⟨productTypes, htypes, -⟩ := exists_distinct hread .productType
  obtain ⟨vendors, hvendors, -⟩ := exists_distinct hread .vendor
  refine ⟨⟨productTypes, vendors⟩, ?_, fun choice => ?_⟩
  · exact bind_eq_ok.2 ⟨productTypes, htypes, bind_eq_ok.2 ⟨vendors, hvendors, rfl⟩⟩
  · cases choice with
    | vendor => exact hvendors
    | productType => exact htypes

/-- A store whose rows read back offers options for rules, of vendors and of product types, and both
divide the products. -/
theorem options_divide (s : Store) (hread : ∀ row ∈ s.table.rows, ∃ p, row.toProduct = .ok p) :
    ∃ options, s.ruleOptions = .ok options ∧
      ∀ choice : Choice, s.Divides choice (choice.offered options) := by
  obtain ⟨options, hoptions, hoffered⟩ := exists_ruleOptions hread
  refine ⟨options, hoptions, fun choice => ?_⟩
  obtain ⟨values, hvalues, hnodup, hmem⟩ := exists_distinct hread choice
  cases (hoffered choice).symm.trans hvalues
  exact divides_of_mem_iff hread hnodup hmem

end Store

/-- Two products, of which the second has an empty vendor. -/
def Table.unnamed : Table where
  rows := [{ id := 1, vendor := some (.text "Acme") }, { id := 2, vendor := some (.text "") }]
  ascending := by simp
  normal := by
    refine ⟨none, fun row hrow => ?_⟩
    simp only [List.mem_cons, List.not_mem_nil, or_false] at hrow
    rcases hrow with rfl | rfl
    all_goals exact ⟨rfl, fun column => by cases column <;> rfl, fun m hm => nomatch hm⟩

theorem Table.exists_product_unnamed {row : Row} (h : row ∈ Table.unnamed.rows) :
    ∃ p, row.toProduct = .ok p := by
  simp only [unnamed, List.mem_cons, List.not_mem_nil, or_false] at h
  rcases h with rfl | rfl
  all_goals exact ⟨_, rfl⟩

namespace Store

/-- The store of these products, without collections. -/
def unnamed : Store := .ofParts Table.unnamed [] .empty

theorem options_divide_unnamed :
    ∃ options, unnamed.ruleOptions = .ok options ∧
      ∀ choice : Choice, unnamed.Divides choice (choice.offered options) :=
  options_divide unnamed fun _ hrow => Table.exists_product_unnamed hrow

/-- The rule for an offered vendor need not select anything. -/
theorem not_forall_selects_ne_nil :
    ¬∀ (s : Store) (options : RuleOptions) (text : String) (ids : List Int),
      (∀ row ∈ s.table.rows, ∃ p, row.toProduct = .ok p) → s.ruleOptions = .ok options →
      .text text ∈ options.vendors → s.Selects (Choice.vendor.rule text) ids → ids ≠ [] := by
  intro h
  have hread : ∀ row ∈ unnamed.table.rows, ∃ p, row.toProduct = .ok p :=
    fun _ hrow => Table.exists_product_unnamed hrow
  obtain ⟨options, hoptions, hoffered⟩ := exists_ruleOptions hread
  obtain ⟨vendors, hvendors, -, hmem⟩ := exists_distinct hread .vendor
  cases (hoffered .vendor).symm.trans hvendors
  have hgiven : unnamed.IsGiven .vendor 2 "" := ⟨_, rfl, rfl⟩
  have hempty : .text "" ∈ options.vendors := (hmem _).2 ⟨"", 2, rfl, hgiven⟩
  obtain ⟨ids, hids, hselected⟩ := selects_rule hread .vendor ""
  refine h unnamed options "" ids hread hoptions hempty hids ?_
  exact List.eq_nil_iff_forall_not_mem.2 fun id hid => ((hselected id).1 hid).1 rfl

end Store

end Storefront
