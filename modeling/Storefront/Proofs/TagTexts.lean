import Mathlib.Data.List.Sort
import Storefront.Catalog.Tag

/-!
# Texts of tags

A set of tags is stored as one text and read again by cutting the text at its commas. What is read is
a set of proper tags, whatever the text, and joining sets puts their texts in a row; so a set comes
back from its text if and only if its tags are proper, and each other tag is replaced by those in its
text.

* `TagSet.IsProper`: the texts that are tags of a text
* `TagSet.mem_ofText`: the tags of a text are its pieces, without the blanks at their ends
* `TagSet.mem_ofText_toText`: the tags of a stored set are those in the texts of its tags
* `TagSet.texts_and_sets`: which sets come back from their texts, and which texts from their sets
-/

namespace Storefront

namespace TagSet

/-! ## Tags of texts -/

/-- A text can be a tag of a text: something is in it, no comma, and no blank at its ends. -/
structure IsProper (tag : String) : Prop where
  ne_empty : tag ≠ ""
  no_comma : ',' ∉ tag.toList
  first_isBlank : ∀ c, tag.toList.head? = some c → isBlank c = false
  last_isBlank : ∀ c, tag.toList.getLast? = some c → isBlank c = false

/-- The tags in a list of characters, one after the other. -/
def tagsIn (cs : List Char) : List String :=
  ((splitBy (· == ',') cs).map fun piece => trimBlank (String.ofList piece)).filter (!·.isEmpty)

theorem mem_tagsIn {tag : String} {cs : List Char} :
    tag ∈ tagsIn cs ↔ tag ≠ "" ∧ ∃ piece ∈ splitBy (· == ',') cs,
      tag = String.ofList (trimWhile isBlank piece) := by
  simp only [tagsIn, trimBlank, String.toList_ofList, List.mem_filter, List.mem_map,
    Bool.not_eq_true', String.isEmpty_eq_false_iff]
  constructor
  · rintro ⟨⟨piece, hpiece, rfl⟩, hne⟩
    exact ⟨hne, piece, hpiece, rfl⟩
  · rintro ⟨hne, piece, hpiece, rfl⟩
    exact ⟨⟨piece, hpiece, rfl⟩, hne⟩

theorem mem_ofText {tag s : String} : tag ∈ (ofText s).toList ↔ tag ∈ tagsIn s.toList := by
  rw [ofText, ofTexts, mem_toList_ofList, List.map_map]
  rfl

/-- What is read from a text is a proper tag. -/
theorem isProper_of_mem_tagsIn {tag : String} {cs : List Char} (h : tag ∈ tagsIn cs) :
    IsProper tag := by
  obtain ⟨hne, piece, hpiece, rfl⟩ := mem_tagsIn.1 h
  refine ⟨hne, ?_, ?_, ?_⟩
  · rw [String.toList_ofList]
    intro hcomma
    have hbreak := isBreak_of_mem_splitBy hpiece ',' ((trimWhile_isInfix piece).subset hcomma)
    cases hbreak
  · rw [String.toList_ofList]
    exact eq_false_of_mem_head?_trimWhile
  · rw [String.toList_ofList]
    exact eq_false_of_mem_getLast?_trimWhile

/-- A proper tag is the only tag in its own text. -/
theorem tagsIn_of_isProper {tag : String} (h : IsProper tag) : tagsIn tag.toList = [tag] := by
  have hpieces : splitBy (· == ',') tag.toList = [tag.toList] := by
    rw [splitBy_eq_splitOnP]
    refine List.splitOnP_eq_singleton fun c hc => ?_
    rw [beq_eq_false_iff_ne]
    rintro rfl
    exact h.no_comma hc
  have htrim : trimWhile isBlank tag.toList = tag.toList :=
    trimWhile_eq_self h.first_isBlank h.last_isBlank
  have hnonempty : tag.isEmpty = false := String.isEmpty_eq_false_iff.2 h.ne_empty
  simp [tagsIn, hpieces, trimBlank, htrim, hnonempty]

/-- Each tag of a text is a part of the text. -/
theorem isInfix_of_mem_ofText {tag s : String} (h : tag ∈ (ofText s).toList) :
    tag.toList <:+: s.toList := by
  obtain ⟨-, piece, hpiece, rfl⟩ := mem_tagsIn.1 (mem_ofText.1 h)
  rw [String.toList_ofList]
  exact (trimWhile_isInfix piece).trans (isInfix_of_mem_splitBy hpiece)

/-! ## Texts of sets -/

theorem tagsIn_append_comma (cs ds : List Char) :
    tagsIn (cs ++ ',' :: ds) = tagsIn cs ++ tagsIn ds := by
  have hpieces : splitBy (· == ',') (cs ++ ',' :: ds) =
      splitBy (· == ',') cs ++ splitBy (· == ',') ds := by
    rw [splitBy_eq_splitOnP, splitBy_eq_splitOnP, splitBy_eq_splitOnP]
    exact List.splitOnP_append_cons cs ds rfl
  rw [tagsIn, hpieces, List.map_append, List.filter_append]
  rfl

/-- A blank in front makes no difference. -/
theorem tagsIn_cons_blank (cs : List Char) : tagsIn (' ' :: cs) = tagsIn cs := by
  obtain ⟨piece, pieces, hpieces⟩ := exists_splitBy_eq_cons (· == ',') cs
  have hblank : splitBy (· == ',') (' ' :: cs) = (' ' :: piece) :: pieces :=
    splitBy_cons_of_not rfl hpieces
  have htrim : trimWhile isBlank (' ' :: piece) = trimWhile isBlank piece := trimWhile_cons rfl piece
  simp only [tagsIn, trimBlank, hblank, hpieces, List.map_cons, String.toList_ofList, htrim]

/-- The tags in texts that are joined are those in the texts. -/
theorem tagsIn_intercalate (texts : List String) :
    tagsIn (", ".intercalate texts).toList = texts.flatMap fun text => tagsIn text.toList := by
  induction texts with
  | nil => rfl
  | cons text texts ih =>
    cases texts with
    | nil => simp
    | cons next texts =>
      have hjoined : (", ".intercalate (text :: next :: texts)).toList =
          text.toList ++ ',' :: ' ' :: (", ".intercalate (next :: texts)).toList := by
        rw [String.intercalate_cons_cons, String.toList_append, String.toList_append,
          List.append_assoc]
        rfl
      rw [hjoined, tagsIn_append_comma, tagsIn_cons_blank, ih]
      rfl

/-- The tags of a stored set are those in the texts of its tags. -/
theorem mem_ofText_toText {tag : String} {tags : TagSet} :
    tag ∈ (ofText tags.toText).toList ↔ ∃ t ∈ tags.toList, tag ∈ (ofText t).toList := by
  rw [mem_ofText, toText, tagsIn_intercalate, List.mem_flatMap]
  simp only [mem_ofText]

/-! ## Between texts and sets -/

/-- Sets with the same tags are the same. -/
theorem eq_of_mem_iff {tags others : TagSet}
    (h : ∀ tag, tag ∈ tags.toList ↔ tag ∈ others.toList) : tags = others := by
  have hlist : tags.toList = others.toList :=
    List.Pairwise.eq_of_mem_iff tags.ascending others.ascending h
  cases tags
  cases others
  cases hlist
  rfl

/-- A set comes back from its text if and only if each of its tags is proper. -/
theorem ofText_toText_iff {tags : TagSet} :
    ofText tags.toText = tags ↔ ∀ tag ∈ tags.toList, IsProper tag := by
  constructor
  · intro h tag htag
    rw [← h, mem_ofText] at htag
    exact isProper_of_mem_tagsIn htag
  · intro h
    refine eq_of_mem_iff fun tag => ?_
    rw [mem_ofText_toText]
    constructor
    · rintro ⟨t, ht, htag⟩
      rw [mem_ofText, tagsIn_of_isProper (h t ht), List.mem_singleton] at htag
      exact htag ▸ ht
    · intro htag
      refine ⟨tag, htag, ?_⟩
      rw [mem_ofText, tagsIn_of_isProper (h tag htag)]
      exact List.mem_singleton_self tag

/-- The set of a text comes back from its own text. -/
theorem ofText_toText_ofText (s : String) : ofText (ofText s).toText = ofText s :=
  ofText_toText_iff.2 fun _ htag => isProper_of_mem_tagsIn (mem_ofText.1 htag)

/-- A set of tags comes back from its text if and only if every tag is proper. The set of a text is
such a set, so writing a text anew from what it is read as changes it only once. -/
theorem texts_and_sets :
    (∀ tags : TagSet, ofText tags.toText = tags ↔ ∀ tag ∈ tags.toList, IsProper tag) ∧
      (∀ s, ofText (ofText s).toText = ofText s) ∧
      ∀ s, (ofText (ofText s).toText).toText = (ofText s).toText :=
  ⟨fun _ => ofText_toText_iff, ofText_toText_ofText,
    fun s => congrArg toText (ofText_toText_ofText s)⟩

end TagSet

end Storefront
