import Storefront.Proofs.Evaluation
import Storefront.Proofs.FullRecalls
import Storefront.Proofs.TagTexts

/-!
# Looking for tags

The tags of a product are read from a text, but looked for as parts of the text in any case. No tag
is missed that way: each tag is a part of the text it was read from, however that was written, and
stays one when both are brought to upper case.

* `TagSet.upper_isInfix_of_mem_ofText`: a tag is a part of its text in any case
* `Rule.tagged`: the rule that asks for a tag
* `Store.finds_tags`: what a rule for a tag evaluates to, and what is recalled by tags
-/

namespace Storefront

/-- A part of a text stays one in upper case. -/
theorem upper_isInfix {part s : String} (h : part.toList <:+: s.toList) : upper part <:+: upper s :=
  h.flatMap upperChar

/-- A tag of a text is a part of the text in any case. -/
theorem TagSet.upper_isInfix_of_mem_ofText {tag s : String} (h : tag ∈ (ofText s).toList) :
    upper tag <:+: upper s :=
  upper_isInfix (isInfix_of_mem_ofText h)

/-- The tags of a product are those of the text in its row. -/
theorem Row.mem_tags_of_toProduct {row : Row} {p : Product} (h : row.toProduct = .ok p)
    {tag : String} : tag ∈ p.tags.toList ↔ tag ∈ (TagSet.ofText row.tags).toList := by
  rw [(readsAs_of_toProduct h).tags_eq]

namespace Rule

/-- The rule that asks for products with a tag. -/
def tagged (tag : String) : Value :=
  .object [("type", .text "tag_contains"), ("value", .text tag)]

theorem node_tagged (tag : String) :
    Node.read (tagged tag) = .ok (some (.ok (.leaf ⟨"tag_contains", some tag, none, none⟩))) := rfl

/-- A single condition can be compiled. -/
theorem exists_compile_of_leaf {rule : Value} {l : Leaf}
    (h : Node.read rule = .ok (some (.ok (.leaf l)))) :
    ∃ p warnings, compile rule = .ok (p, warnings) := by
  refine ⟨_, _, compile_eq_ok.2 ⟨.leaf l, ?_, rfl, rfl⟩⟩
  rw [Entry.read_eq, h]

/-- The rows whose texts have a tag satisfy the rule that asks for it. -/
theorem isSatisfiedBy_tagged {row : Row} {tag : String}
    (h : tag ∈ (TagSet.ofText row.tags).toList) : IsSatisfiedBy row (tagged tag) := by
  have hproper := TagSet.isProper_of_mem_tagsIn (TagSet.mem_ofText.1 h)
  refine .leaf (node_tagged tag) (.tagContains rfl tag rfl hproper.ne_empty) ?_
  exact .tagContains rfl tag rfl (TagSet.upper_isInfix_of_mem_ofText h)

end Rule

namespace Store

/-- In a store whose rows read back, the rule for a tag finds every product that has the tag. A recall
by tags that admits every product finds every other product in stock that shares a tag with the
source. -/
theorem finds_tags (s : Store) (hread : ∀ row ∈ s.table.rows, ∃ p, row.toProduct = .ok p) :
    (∀ id q, s.product? (.int id) = .ok (some q) → ∀ tag ∈ q.tags.toList, ∃ p warnings ids,
      Rule.compile (Rule.tagged tag) = .ok (p, warnings) ∧ s.evaluate .none p = .ok ids ∧
        id ∈ ids) ∧
    ∀ (source : Product) id q (limit : Int), s.product? (.int id) = .ok (some q) →
      q.inStock = true → q.id ≠ source.id →
      (∃ tag ∈ source.tags.toList, tag ∈ q.tags.toList) → (s.productCount : Int) ≤ limit →
      ∃ rows, s.recallBy .none .tags source (.int limit) = .ok rows ∧
        ⟨q, .tags, Signal.tags.weight⟩ ∈ rows := by
  constructor
  · intro id q hq tag htag
    obtain ⟨row, hrow, rfl, hproduct⟩ := exists_row_of_product? hq
    rw [Row.mem_tags_of_toProduct hproduct] at htag
    obtain ⟨p, warnings, hcompile⟩ := Rule.exists_compile_of_leaf (Rule.node_tagged tag)
    obtain ⟨ids, hids, -, hmem⟩ := Rule.evaluate_compile s hcompile fun row hrow _ => hread row hrow
    exact ⟨p, warnings, ids, hcompile, hids,
      (hmem row.id).2 ⟨row, hrow, rfl, Rule.isSatisfiedBy_tagged htag⟩⟩
  · intro source id q limit hq hstock hother hshared hlimit
    obtain ⟨row, hrow, -, hproduct⟩ := exists_row_of_product? hq
    obtain ⟨tag, hsource, htag⟩ := hshared
    rw [Row.mem_tags_of_toProduct hproduct] at htag
    have heligible : ∀ row, s.IsEligible .tags source row → ∃ p, row.toProduct = .ok p :=
      fun row heligible => hread row heligible.stored
    obtain ⟨rows, hrows, hmem⟩ := exists_recallBy hlimit heligible
    refine ⟨rows, hrows, (hmem row hrow q hproduct).2 ?_⟩
    exact {
      stored := hrow
      inStock := (Row.inStock_of_toProduct hproduct).symm.trans hstock
      ne_source := fun hid => hother ((Row.id_of_toProduct hproduct).trans hid)
      matches_source := ⟨tag, hsource, TagSet.upper_isInfix_of_mem_ofText htag⟩ }

end Store

/-- Two lamps, the second of which has its tags written without care. -/
def Table.untidy : Table where
  rows := [{ id := 1, tags := "lamp" }, { id := 2, tags := " ,Sale ,, lamp" }]
  ascending := by simp
  normal := by
    refine ⟨none, fun row hrow => ?_⟩
    simp only [List.mem_cons, List.not_mem_nil, or_false] at hrow
    rcases hrow with rfl | rfl
    all_goals exact ⟨rfl, fun column => by cases column <;> rfl, fun m hm => nomatch hm⟩

namespace Store

/-- The store of these lamps, without collections. -/
def untidy : Store := .ofParts Table.untidy [] .empty

/-- The second lamp is found by its tag, and recalled for the first one. -/
theorem finds_tags_untidy :
    (∃ p warnings ids, Rule.compile (Rule.tagged "lamp") = .ok (p, warnings) ∧
      untidy.evaluate .none p = .ok ids ∧ 2 ∈ ids) ∧
    ∃ rows, untidy.recallBy .none .tags { id := 1, price := .zero, tags := .ofText "lamp" } (.int 2) =
        .ok rows ∧
      ⟨{ id := 2, price := .zero, tags := .ofText " ,Sale ,, lamp" }, .tags, Signal.tags.weight⟩ ∈
        rows := by
  have hread : ∀ row ∈ untidy.table.rows, ∃ p, row.toProduct = .ok p := by
    intro row hrow
    have hrow : row ∈ Table.untidy.rows := hrow
    simp only [Table.untidy, List.mem_cons, List.not_mem_nil, or_false] at hrow
    rcases hrow with rfl | rfl
    all_goals exact ⟨_, rfl⟩
  have hproduct : untidy.product? (.int 2) =
      .ok (some { id := 2, price := .zero, tags := .ofText " ,Sale ,, lamp" }) := rfl
  have htag : "lamp" ∈ (TagSet.ofText " ,Sale ,, lamp").toList := by decide +kernel
  obtain ⟨hevaluated, hrecalled⟩ := finds_tags untidy hread
  exact ⟨hevaluated 2 _ hproduct "lamp" htag,
    hrecalled _ 2 _ 2 hproduct rfl (by decide) ⟨"lamp", by decide +kernel, htag⟩ (by decide)⟩

end Store

end Storefront
