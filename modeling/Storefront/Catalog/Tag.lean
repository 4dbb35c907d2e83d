import Storefront.Failure
import Storefront.Text.Blank
import Storefront.Text.Split

/-!
# Tags

A product carries a set of tags, which is stored as one text with commas between the tags.

* `TagSet`: sets of tags, kept in the order of their code points
* `TagSet.ofText`, `TagSet.toText`: between sets and stored texts
* `TagSet.read`: the set that a value gives
-/

namespace Storefront

/-- A set of tags, in strictly ascending order. -/
structure TagSet where
  toList : List String
  ascending : toList.Pairwise (· < ·)
deriving DecidableEq

namespace TagSet

/-! ## Sets -/

/-- The set without tags. -/
def empty : TagSet := ⟨[], .nil⟩

instance : Inhabited TagSet := ⟨empty⟩

/-- Puts a tag into an ascending list, unless it is there. -/
def insertTag (tag : String) : List String → List String
  | [] => [tag]
  | t :: ts =>
    if tag < t then tag :: t :: ts
    else if tag = t then t :: ts
    else t :: insertTag tag ts

theorem mem_insertTag {tag t : String} {ts : List String} :
    t ∈ insertTag tag ts ↔ t = tag ∨ t ∈ ts := by
  induction ts with
  | nil => simp [insertTag]
  | cons u us ih =>
    rw [insertTag]
    split
    · simp
    · split
      · rename_i h; subst h; simp
      · simp only [List.mem_cons, ih]
        constructor
        · rintro (h | h | h) <;> simp [h]
        · rintro (h | h | h) <;> simp [h]

theorem pairwise_insertTag (tag : String) {ts : List String} (h : ts.Pairwise (· < ·)) :
    (insertTag tag ts).Pairwise (· < ·) := by
  induction ts with
  | nil => simp [insertTag]
  | cons u us ih =>
    obtain ⟨hu, hus⟩ := List.pairwise_cons.1 h
    rw [insertTag]
    split
    · rename_i hlt
      refine List.pairwise_cons.2 ⟨fun t ht => ?_, h⟩
      cases ht with
      | head => exact hlt
      | tail _ ht => exact String.lt_trans hlt (hu t ht)
    · split
      · exact h
      · rename_i hlt hne
        refine List.pairwise_cons.2 ⟨fun t ht => ?_, ih hus⟩
        rcases mem_insertTag.1 ht with rfl | ht
        · exact Std.lt_of_le_of_ne (String.not_lt.1 hlt) fun he => hne he.symm
        · exact hu t ht

/-- The set of the tags of a list. -/
def ofList (tags : List String) : TagSet :=
  ⟨tags.foldr insertTag [], by
    induction tags with
    | nil => exact .nil
    | cons tag tags ih => exact pairwise_insertTag tag ih⟩

theorem mem_toList_ofList {t : String} {tags : List String} :
    t ∈ (ofList tags).toList ↔ t ∈ tags := by
  induction tags with
  | nil => simp [ofList]
  | cons tag tags ih =>
    have : (ofList (tag :: tags)).toList = insertTag tag (ofList tags).toList := rfl
    rw [this, mem_insertTag, ih, List.mem_cons]

/-! ## Texts -/

/-- The tags of a list of texts: blanks at the ends are cut, and empty texts are left out. -/
def ofTexts (texts : List String) : TagSet :=
  ofList ((texts.map trimBlank).filter (!·.isEmpty))

/-- The tags of a stored text. -/
def ofText (s : String) : TagSet := ofTexts ((splitBy (· == ',') s.toList).map String.ofList)

/-- The stored text of a set of tags. -/
def toText (tags : TagSet) : String := ", ".intercalate tags.toList

/-! ## Values -/

/-- The texts in a list of values; values that are false are left out, and other values that are no
text are refused. -/
def texts : List Value → Except Failure (List String)
  | [] => .ok []
  | .text s :: rest => (texts rest).map (s :: ·)
  | v :: rest => if v.isTruthy then .error .noSuchPart else texts rest

/-- The tags that a value gives: a stored text, a list of tags, or nothing. -/
def read : Value → Except Failure TagSet
  | .null => .ok empty
  | .text s => .ok (ofText s)
  | .list items => (texts items).map ofTexts
  | .object fields => .ok (ofTexts (fields.map Prod.fst))
  | .bool _ | .int _ | .float _ => .error .wrongType

end TagSet

end Storefront
