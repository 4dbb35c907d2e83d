import Mathlib.Data.List.Lex
import Mathlib.Data.Sum.Order
import Mathlib.Data.String.Basic
import Storefront.Proofs.ExactValues

/-!
# Values in order

Values that have an order compare as words do. A number or a text is one letter, and a list is spelled
by its items in a row, with a blank before and an end behind them. The end comes before all letters, so
that a list that ends comes before one that goes on. How values without an order are spelled does not
matter.

* `Value.Letter`, `Value.letters`: how values are spelled
* `Value.order?_cases`: which values have an order
* `Value.equals_of_order?`, `Value.letters_eq_of_equals`: values that are level are equal, and equal
  values are spelled alike
* `Value.compares_of_order?`: values that have an order compare as their letters do
-/

namespace Storefront

/-! ## Words -/

section Words

variable {α : Type} [LinearOrder α] {o : Ordering}

/-- Words compare as what follows a common beginning. -/
theorem compares_append_left {rest other : List α} (h : o.Compares rest other) (word : List α) :
    o.Compares (word ++ rest) (word ++ other) := by
  cases o with
  | lt => exact List.Lex.append_left _ h word
  | eq => exact congrArg (word ++ ·) h
  | gt => exact List.Lex.append_left _ h word

/-- What is mapped in order compares as before. -/
theorem compares_map {β : Type} [LinearOrder β] {f : α → β} (hf : StrictMono f) {a b : α}
    (h : o.Compares a b) : o.Compares (f a) (f b) := by
  cases o with
  | lt => exact hf h
  | eq => exact congrArg f h
  | gt => exact hf h

/-- Words with different first letters compare as these do. -/
theorem compares_cons {a b : α} (ho : o ≠ .eq) (h : o.Compares a b) (rest other : List α) :
    o.Compares (a :: rest) (b :: other) := by
  cases o with
  | lt => exact .rel h
  | eq => exact absurd rfl ho
  | gt => exact .rel h

end Words

/-! ## Numbers -/

theorem Binary64.isNan_of_place {x : Binary64} {n : Int} (h : x.place = some n) :
    x.isNan = false := by
  cases x with
  | nan => cases h
  | signed negative m => rfl

theorem Binary64.isNan_of_compareInt {x : Binary64} {n : Int} {o : Ordering}
    (h : x.compareInt n = some o) : x.isNan = false := by
  cases x with
  | nan => cases h
  | signed negative m => rfl

/-- Numbers with an order compare as their exact values do. -/
theorem Number.compares_value {a b : Number} {o : Ordering} (h : a.order? b = some o) :
    o.Compares a.value b.value := by
  have hnumbers : a.isNan = false ∧ b.isNan = false := by
    cases a with
    | whole m =>
      cases b with
      | whole n => exact ⟨rfl, rfl⟩
      | double y => exact ⟨rfl, Binary64.isNan_of_compareInt h⟩
    | double x =>
      cases b with
      | whole n =>
        obtain ⟨o, ho, -⟩ := Option.map_eq_some_iff.1 h
        exact ⟨Binary64.isNan_of_compareInt ho, rfl⟩
      | double y =>
        obtain ⟨p, q, hp, hq, -⟩ := order?_doubles.1 h
        exact ⟨Binary64.isNan_of_place hp, Binary64.isNan_of_place hq⟩
  rw [order?_eq_compare hnumbers.1 hnumbers.2] at h
  exact (compare_iff _ _).1 (Option.some.inj h)

namespace Value

variable {v w : Value} {o : Ordering}

theorem orderText_eq_compare (s t : String) : orderText s t = compare s t := by
  rw [LinearOrder.compare_eq_compareOfLessAndEq]
  rfl

/-! ## Letters -/

/-- What values are spelled with: numbers, texts, and the end of a list. -/
abbrev Letter := WithBot (Line ⊕ₗ String)

namespace Letter

/-- The letter of a place on the line. -/
def ofPlace (x : Line) : Letter := ((toLex (.inl x) : Line ⊕ₗ String) : Letter)

/-- The letter of a text. -/
def ofText (s : String) : Letter := ((toLex (.inr s) : Line ⊕ₗ String) : Letter)

/-- A letter that says nothing. -/
def blank : Letter := ofPlace ⊥

theorem strictMono_ofPlace : StrictMono ofPlace := fun _ _ h =>
  WithBot.coe_lt_coe.2 (Sum.Lex.inl_lt_inl_iff.2 h)

theorem strictMono_ofText : StrictMono ofText := fun _ _ h =>
  WithBot.coe_lt_coe.2 (Sum.Lex.inr_lt_inr_iff.2 h)

end Letter

mutual

/-- The letters of a value. -/
def letters : Value → List Letter
  | .text s => [.ofText s]
  | .list items => .blank :: lettersOfItems items
  | v => [v.number?.elim .blank fun n => .ofPlace n.value]

/-- The letters of the items of a list, and of its end. -/
def lettersOfItems : List Value → List Letter
  | [] => [⊥]
  | v :: items => v.letters ++ lettersOfItems items

end

theorem letters_of_number? {n : Number} (h : v.number? = some n) : v.letters = [.ofPlace n.value] := by
  cases v <;> cases h <;> rfl

/-! ## Values with an order -/

/-- Two values have an order if they are both texts, both lists or both numbers. -/
theorem order?_cases (h : v.order? w = some (some o)) :
    (∃ s t, v = .text s ∧ w = .text t ∧ o.Compares s t) ∨
    (∃ xs ys, v = .list xs ∧ w = .list ys ∧ order?.orderItems? xs ys = some (some o)) ∨
    ∃ m n, v.number? = some m ∧ w.number? = some n ∧ m.order? n = some o := by
  cases v with
  | text s =>
    cases w with
    | text t =>
      have hcompare : compare s t = o :=
        (orderText_eq_compare s t).symm.trans (Option.some.inj (Option.some.inj h))
      exact .inl ⟨s, t, rfl, rfl, (compare_iff s t).1 hcompare⟩
    | _ => cases h
  | list xs =>
    cases w with
    | list ys => exact .inr (.inl ⟨xs, ys, rfl, rfl, h⟩)
    | _ => cases h
  | bool | int | float =>
    cases w with
    | bool | int | float => exact .inr (.inr ⟨_, _, rfl, rfl, Option.some.inj h⟩)
    | _ => cases h
  | null | object => cases w <;> cases h

/-- Two numbers are equal as values if their exact values are level. -/
theorem equals_of_number? {m n : Number} (hv : v.number? = some m) (hw : w.number? = some n) :
    v.equals w = m.equals n := by
  cases v <;> cases hv <;> cases w <;> cases hw <;> rfl

mutual

/-- Values that are level are equal. -/
theorem equals_of_order? (v w : Value) (h : v.order? w = some (some .eq)) : v.equals w = true := by
  rcases order?_cases h with ⟨s, t, rfl, rfl, hst⟩ | ⟨xs, ys, rfl, rfl, hitems⟩ |
    ⟨m, n, hm, hn, hmn⟩
  · exact beq_iff_eq.2 hst
  · exact equalItems_of_orderItems? xs ys hitems
  · rw [equals_of_number? hm hn]
    exact beq_iff_eq.2 hmn
termination_by sizeOf v

theorem equalItems_of_orderItems? (xs ys : List Value)
    (h : order?.orderItems? xs ys = some (some .eq)) : equals.equalItems xs ys = true := by
  cases xs with
  | nil =>
    cases ys with
    | nil => rfl
    | cons y ys => cases h
  | cons x xs =>
    cases ys with
    | nil => cases h
    | cons y ys =>
      rw [order?.orderItems?] at h
      split at h
      · rename_i hequal
        exact Bool.and_eq_true_iff.2 ⟨hequal, equalItems_of_orderItems? xs ys h⟩
      · rename_i hdifferent
        exact absurd (equals_of_order? x y h) hdifferent
termination_by sizeOf xs

end

mutual

/-- Equal values are spelled alike. -/
theorem letters_eq_of_equals (v w : Value) (h : v.equals w = true) : v.letters = w.letters := by
  cases v with
  | null =>
    cases w with
    | null => rfl
    | _ => cases h
  | object fields =>
    cases w with
    | object others => rfl
    | _ => cases h
  | text s =>
    cases w with
    | text t => rw [beq_iff_eq.1 (show (s == t) = true from h)]
    | _ => cases h
  | list xs =>
    cases w with
    | list ys => exact congrArg (Letter.blank :: ·) (lettersOfItems_eq_of_equalItems xs ys h)
    | _ => cases h
  | bool | int | float =>
    cases w with
    | bool | int | float =>
      have hlevel := Number.compares_value (beq_iff_eq.1 h)
      rw [letters_of_number? rfl, letters_of_number? rfl]
      exact congrArg (fun x => [Letter.ofPlace x]) hlevel
    | _ => cases h

theorem lettersOfItems_eq_of_equalItems (xs ys : List Value)
    (h : equals.equalItems xs ys = true) : lettersOfItems xs = lettersOfItems ys := by
  cases xs with
  | nil =>
    cases ys with
    | nil => rfl
    | cons y ys => cases h
  | cons x xs =>
    cases ys with
    | nil => cases h
    | cons y ys =>
      obtain ⟨hfirst, hrest⟩ := Bool.and_eq_true_iff.1 h
      rw [lettersOfItems, lettersOfItems, letters_eq_of_equals x y hfirst,
        lettersOfItems_eq_of_equalItems xs ys hrest]

end

/-- The spelling of a value begins with a letter that is no end of a list. -/
theorem exists_letters_eq_cons (v : Value) : ∃ letter rest, v.letters = some letter :: rest := by
  cases v <;> exact ⟨_, _, rfl⟩

mutual

/-- Values that are not level compare as their letters do, whatever follows them. -/
theorem compares_letters (v w : Value) {o : Ordering} (ho : o ≠ .eq)
    (h : v.order? w = some (some o)) (rest other : List Letter) :
    o.Compares (v.letters ++ rest) (w.letters ++ other) := by
  rcases order?_cases h with ⟨s, t, rfl, rfl, hst⟩ | ⟨xs, ys, rfl, rfl, hitems⟩ |
    ⟨m, n, hm, hn, hmn⟩
  · exact compares_cons ho (compares_map Letter.strictMono_ofText hst) rest other
  · exact compares_append_left (compares_lettersOfItems xs ys ho hitems rest other) [.blank]
  · rw [letters_of_number? hm, letters_of_number? hn]
    have hvalue := Number.compares_value hmn
    exact compares_cons ho (compares_map Letter.strictMono_ofPlace hvalue) rest other
termination_by sizeOf v

theorem compares_lettersOfItems (xs ys : List Value) {o : Ordering} (ho : o ≠ .eq)
    (h : order?.orderItems? xs ys = some (some o)) (rest other : List Letter) :
    o.Compares (lettersOfItems xs ++ rest) (lettersOfItems ys ++ other) := by
  cases xs with
  | nil =>
    cases ys with
    | nil =>
      cases h
      exact absurd rfl ho
    | cons y ys =>
      cases h
      obtain ⟨letter, following, hy⟩ := y.exists_letters_eq_cons
      rw [lettersOfItems, lettersOfItems, hy]
      exact compares_cons ho (WithBot.bot_lt_coe letter) _ _
  | cons x xs =>
    cases ys with
    | nil =>
      cases h
      obtain ⟨letter, following, hx⟩ := x.exists_letters_eq_cons
      rw [lettersOfItems, lettersOfItems, hx]
      exact compares_cons ho (WithBot.bot_lt_coe letter) _ _
    | cons y ys =>
      rw [order?.orderItems?] at h
      rw [lettersOfItems, lettersOfItems, List.append_assoc, List.append_assoc]
      split at h
      · rename_i hequal
        rw [letters_eq_of_equals x y hequal]
        exact compares_append_left (compares_lettersOfItems xs ys ho h rest other) y.letters
      · exact compares_letters x y ho h _ _
termination_by sizeOf xs

end

/-- Values that have an order compare as their letters do. -/
theorem compares_of_order? (h : v.order? w = some (some o)) : o.Compares v.letters w.letters := by
  by_cases ho : o = .eq
  · subst ho
    exact letters_eq_of_equals v w (equals_of_order? v w h)
  · have hletters := compares_letters v w ho h [] []
    rwa [List.append_nil, List.append_nil] at hletters

/-- A list that ends comes before one that goes on. -/
example : (list [.int 1]).order? (.list [.bool true, .null]) = some (some .lt) := by decide

end Value

end Storefront
