/-!
# Blank characters

Which characters count as blank at the ends of a text, and texts without them.

* `isBlank`: white space and the four information separators
* `isWhiteSpace`: white space alone
* `trimBlank`: a text without blanks at its ends
* `trimWhile_isInfix`, `trimWhile_eq_self`: what is left is a piece, and nothing need be cut
-/

namespace Storefront

/-- The characters with the Unicode property White_Space. -/
def isWhiteSpace (c : Char) : Bool :=
  let n := c.toNat
  (0x09 ≤ n && n ≤ 0x0D) || n == 0x20 || n == 0x85 || n == 0xA0 || n == 0x1680 ||
    (0x2000 ≤ n && n ≤ 0x200A) || n == 0x2028 || n == 0x2029 || n == 0x202F || n == 0x205F ||
    n == 0x3000

/-- The blank characters: white space and the information separators U+001C to U+001F. -/
def isBlank (c : Char) : Bool :=
  isWhiteSpace c || (0x1C ≤ c.toNat && c.toNat ≤ 0x1F)

/-- The blanks of a plain-text file. -/
def isPlainBlank (c : Char) : Bool :=
  c.toNat == 0x20 || (0x09 ≤ c.toNat && c.toNat ≤ 0x0D)

/-- A list without the elements at both ends that satisfy a test. -/
def trimWhile {α : Type} (p : α → Bool) (xs : List α) : List α :=
  ((xs.dropWhile p).reverse.dropWhile p).reverse

section Trimming

variable {α : Type} {p : α → Bool}

theorem trimWhile_isPrefix (xs : List α) : trimWhile p xs <+: xs.dropWhile p := by
  rw [trimWhile, ← List.reverse_suffix, List.reverse_reverse]
  exact List.dropWhile_suffix p

theorem trimWhile_isInfix (xs : List α) : trimWhile p xs <:+: xs :=
  (trimWhile_isPrefix xs).isInfix.trans (List.dropWhile_suffix p).isInfix

theorem trimWhile_cons {x : α} (h : p x = true) (xs : List α) :
    trimWhile p (x :: xs) = trimWhile p xs := by
  rw [trimWhile, List.dropWhile_cons_of_pos h, trimWhile]

theorem dropWhile_eq_self {xs : List α} (h : ∀ x ∈ xs.head?, p x = false) :
    xs.dropWhile p = xs := by
  cases xs with
  | nil => rfl
  | cons x xs => exact List.dropWhile_cons_of_neg (by simp [h x rfl])

/-- Nothing is cut from a list with other elements at its ends. -/
theorem trimWhile_eq_self {xs : List α} (hhead : ∀ x ∈ xs.head?, p x = false)
    (hlast : ∀ x ∈ xs.getLast?, p x = false) : trimWhile p xs = xs := by
  rw [trimWhile, dropWhile_eq_self hhead, dropWhile_eq_self (by rwa [List.head?_reverse]),
    List.reverse_reverse]

theorem eq_false_of_mem_head?_dropWhile {xs : List α} :
    ∀ x ∈ (xs.dropWhile p).head?, p x = false := by
  intro x hx
  have hhead := List.head?_dropWhile_not p xs
  rwa [hx] at hhead

theorem eq_false_of_mem_head?_trimWhile {xs : List α} :
    ∀ x ∈ (trimWhile p xs).head?, p x = false := by
  intro x hx
  obtain ⟨rest, hrest⟩ := trimWhile_isPrefix (p := p) xs
  refine @eq_false_of_mem_head?_dropWhile _ p xs x ?_
  rw [← hrest, List.head?_append, hx]
  rfl

theorem eq_false_of_mem_getLast?_trimWhile {xs : List α} :
    ∀ x ∈ (trimWhile p xs).getLast?, p x = false := by
  rw [trimWhile, List.getLast?_reverse]
  exact eq_false_of_mem_head?_dropWhile

end Trimming

/-- A text without blanks at its ends. -/
def trimBlank (s : String) : String := String.ofList (trimWhile isBlank s.toList)

end Storefront
