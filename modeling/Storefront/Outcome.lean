/-!
# Outcomes

An operation that can fail gives a result or a failure. A chain of operations gives a result only if
each of them does.

* `bind_eq_ok`, `bind_eq_error`: two operations one after the other
* `mem_of_mapM_eq_ok`, `exists_of_mapM_eq_ok`: an operation on each element of a list
* `exists_mapM_of_perm`: an operation on a list in another order
* `firstFailure`, `exists_of_mapM_eq_error`: where an operation on each element of a list fails
* `foldlM_invariant`: what each step of a run over a list keeps
-/

namespace Storefront

variable {α β γ ε : Type}

theorem bind_eq_ok {x : Except ε α} {f : α → Except ε β} {b : β} :
    x >>= f = .ok b ↔ ∃ a, x = .ok a ∧ f a = .ok b := by
  cases x with
  | error e => simp [bind, Except.bind]
  | ok a => simp [bind, Except.bind]

theorem bind_eq_error {x : Except ε α} {f : α → Except ε β} {e : ε} :
    x >>= f = .error e ↔ x = .error e ∨ ∃ a, x = .ok a ∧ f a = .error e := by
  cases x with
  | error e' => simp [bind, Except.bind]
  | ok a => simp [bind, Except.bind]

theorem map_eq_ok {x : Except ε α} {f : α → β} {b : β} :
    x.map f = .ok b ↔ ∃ a, x = .ok a ∧ f a = b := by
  cases x with
  | error e => simp [Except.map]
  | ok a => simp [Except.map]

/-- An operation has a result of which something is known if it is known of the result as an option. -/
theorem exists_of_toOption_map_eq_some {x : Except ε α} {f : α → β} {b : β}
    (h : x.toOption.map f = some b) : ∃ a, x = .ok a ∧ f a = b := by
  cases x with
  | error e => cases h
  | ok a => exact ⟨a, rfl, Option.some.inj h⟩

/-! ## Lists -/

theorem mapM_cons_eq_ok {f : α → Except ε β} {x : α} {xs : List α} {ys : List β} :
    (x :: xs).mapM f = .ok ys ↔
      ∃ y rest, f x = .ok y ∧ xs.mapM f = .ok rest ∧ ys = y :: rest := by
  rw [List.mapM_cons, bind_eq_ok]
  constructor
  · intro h
    obtain ⟨y, hy, h⟩ := h
    obtain ⟨rest, hrest, h⟩ := bind_eq_ok.1 h
    cases h
    exact ⟨y, rest, hy, hrest, rfl⟩
  · intro h
    obtain ⟨y, rest, hy, hrest, rfl⟩ := h
    exact ⟨y, hy, bind_eq_ok.2 ⟨rest, hrest, rfl⟩⟩

/-- Each result comes from an element. -/
theorem mem_of_mapM_eq_ok {f : α → Except ε β} {xs : List α} {ys : List β}
    (h : xs.mapM f = .ok ys) {y : β} (hy : y ∈ ys) : ∃ x ∈ xs, f x = .ok y := by
  induction xs generalizing ys with
  | nil =>
    cases h
    cases hy
  | cons x xs ih =>
    obtain ⟨z, rest, hz, hrest, rfl⟩ := mapM_cons_eq_ok.1 h
    rcases List.mem_cons.1 hy with rfl | hy
    · exact ⟨x, List.mem_cons_self, hz⟩
    · obtain ⟨w, hw, hwy⟩ := ih hrest hy
      exact ⟨w, List.mem_cons_of_mem x hw, hwy⟩

/-- Each element has its result. -/
theorem exists_of_mapM_eq_ok {f : α → Except ε β} {xs : List α} {ys : List β}
    (h : xs.mapM f = .ok ys) {x : α} (hx : x ∈ xs) : ∃ y ∈ ys, f x = .ok y := by
  induction xs generalizing ys with
  | nil => cases hx
  | cons w xs ih =>
    obtain ⟨z, rest, hz, hrest, rfl⟩ := mapM_cons_eq_ok.1 h
    rcases List.mem_cons.1 hx with rfl | hx
    · exact ⟨z, List.mem_cons_self, hz⟩
    · obtain ⟨y, hy, hxy⟩ := ih hrest hx
      exact ⟨y, List.mem_cons_of_mem z hy, hxy⟩

/-- What an operation keeps of each element is kept of the list. -/
theorem map_eq_of_mapM_eq_ok {f : α → Except ε β} {g : β → γ} {k : α → γ} {xs : List α}
    {ys : List β} (hf : ∀ x y, f x = .ok y → g y = k x) (h : xs.mapM f = .ok ys) :
    ys.map g = xs.map k := by
  induction xs generalizing ys with
  | nil =>
    cases h
    rfl
  | cons x xs ih =>
    obtain ⟨y, rest, hy, hrest, rfl⟩ := mapM_cons_eq_ok.1 h
    rw [List.map_cons, List.map_cons, hf x y hy, ih hrest]

/-- The result at a place is that of the element at the place. -/
theorem getElem?_of_mapM_eq_ok {f : α → Except ε β} {xs : List α} {ys : List β}
    (h : xs.mapM f = .ok ys) {i : Nat} {y : β} (hy : ys[i]? = some y) :
    ∃ x, xs[i]? = some x ∧ f x = .ok y := by
  induction xs generalizing ys i with
  | nil =>
    cases h
    cases hy
  | cons x xs ih =>
    obtain ⟨z, rest, hz, hrest, rfl⟩ := mapM_cons_eq_ok.1 h
    cases i with
    | zero =>
      cases hy
      exact ⟨x, rfl, hz⟩
    | succ i => exact ih hrest hy

theorem length_of_mapM_eq_ok {f : α → Except ε β} {xs : List α} {ys : List β}
    (h : xs.mapM f = .ok ys) : ys.length = xs.length := by
  have hunits : ys.map (fun _ => ()) = xs.map fun _ => () :=
    map_eq_of_mapM_eq_ok (fun _ _ _ => rfl) h
  simpa using congrArg List.length hunits

/-- The result of an element stands at its index. -/
theorem exists_getElem?_of_mapM_eq_ok {f : α → Except ε β} {xs : List α} {ys : List β}
    (h : xs.mapM f = .ok ys) {i : Nat} {x : α} (hx : xs[i]? = some x) :
    ∃ y, ys[i]? = some y ∧ f x = .ok y := by
  have hlt : i < ys.length := by
    rw [length_of_mapM_eq_ok h]
    exact (List.getElem?_eq_some_iff.1 hx).1
  obtain ⟨x', hx', hy⟩ := getElem?_of_mapM_eq_ok h (List.getElem?_eq_getElem hlt)
  cases hx.symm.trans hx'
  exact ⟨ys[i], List.getElem?_eq_getElem hlt, hy⟩

/-- An operation that never fails on a list gives a list of results. -/
theorem exists_mapM_eq_ok {f : α → Except ε β} {xs : List α}
    (h : ∀ x ∈ xs, ∃ y, f x = .ok y) : ∃ ys, xs.mapM f = .ok ys := by
  induction xs with
  | nil => exact ⟨[], rfl⟩
  | cons x xs ih =>
    obtain ⟨y, hy⟩ := h x List.mem_cons_self
    obtain ⟨ys, hys⟩ := ih fun w hw => h w (List.mem_cons_of_mem x hw)
    exact ⟨y :: ys, mapM_cons_eq_ok.2 ⟨y, ys, hy, hys, rfl⟩⟩

/-- An operation that gives each element its own result gives the list of these results. -/
theorem mapM_eq_ok_map {f : α → Except ε β} {g : α → β} {xs : List α}
    (h : ∀ x ∈ xs, f x = .ok (g x)) : xs.mapM f = .ok (xs.map g) := by
  induction xs with
  | nil => rfl
  | cons x xs ih =>
    have hxs := ih fun y hy => h y (List.mem_cons_of_mem x hy)
    exact mapM_cons_eq_ok.2 ⟨g x, xs.map g, h x List.mem_cons_self, hxs, rfl⟩

/-- An operation that succeeds on a list gives each element a result of its own. -/
theorem exists_map_of_mapM_eq_ok [Inhabited β] {f : α → Except ε β} {xs : List α} {ys : List β}
    (h : xs.mapM f = .ok ys) : ∃ g : α → β, ys = xs.map g ∧ ∀ x ∈ xs, f x = .ok (g x) := by
  have hresult : ∀ x y, f x = .ok y → id y = (f x).toOption.getD default := by
    intro x y hy
    rw [hy]
    rfl
  have hmap := map_eq_of_mapM_eq_ok hresult h
  rw [List.map_id] at hmap
  refine ⟨_, hmap, fun x hx => ?_⟩
  obtain ⟨y, -, hy⟩ := exists_of_mapM_eq_ok h hx
  rw [hy]
  rfl

/-- The results of elements in another order are the results in another order. -/
theorem exists_mapM_of_perm {f : α → Except ε β} {xs zs : List α} {ys : List β} (hperm : xs.Perm zs)
    (h : xs.mapM f = .ok ys) : ∃ ws, zs.mapM f = .ok ws ∧ ys.Perm ws := by
  induction hperm generalizing ys with
  | nil => exact ⟨ys, h, .refl _⟩
  | cons x _ ih =>
    obtain ⟨y, rest, hy, hrest, rfl⟩ := mapM_cons_eq_ok.1 h
    obtain ⟨ws, hws, hperm⟩ := ih hrest
    exact ⟨y :: ws, mapM_cons_eq_ok.2 ⟨y, ws, hy, hws, rfl⟩, hperm.cons y⟩
  | swap x w zs =>
    obtain ⟨y, tail, hy, htail, rfl⟩ := mapM_cons_eq_ok.1 h
    obtain ⟨z, rest, hz, hrest, rfl⟩ := mapM_cons_eq_ok.1 htail
    exact ⟨z :: y :: rest, mapM_cons_eq_ok.2 ⟨z, _, hz, mapM_cons_eq_ok.2 ⟨y, rest, hy, hrest, rfl⟩,
      rfl⟩, .swap z y rest⟩
  | trans _ _ ihfirst ihsecond =>
    obtain ⟨ws, hws, hfirst⟩ := ihfirst h
    obtain ⟨vs, hvs, hsecond⟩ := ihsecond hws
    exact ⟨vs, hvs, hfirst.trans hsecond⟩

/-- The first results of an operation are those of the first elements. -/
theorem mapM_take {f : α → Except ε β} {xs : List α} {ys : List β} (h : xs.mapM f = .ok ys)
    (n : Nat) : (xs.take n).mapM f = .ok (ys.take n) := by
  induction xs generalizing ys n with
  | nil =>
    cases h
    cases n <;> rfl
  | cons x xs ih =>
    obtain ⟨y, rest, hy, hrest, rfl⟩ := mapM_cons_eq_ok.1 h
    cases n with
    | zero => rfl
    | succ n => exact mapM_cons_eq_ok.2 ⟨y, _, hy, ih hrest n, rfl⟩

/-- The results of an operation without the first ones are those of the elements without the first. -/
theorem mapM_drop {f : α → Except ε β} {xs : List α} {ys : List β} (h : xs.mapM f = .ok ys)
    (n : Nat) : (xs.drop n).mapM f = .ok (ys.drop n) := by
  induction xs generalizing ys n with
  | nil =>
    cases h
    cases n <;> rfl
  | cons x xs ih =>
    obtain ⟨y, rest, hy, hrest, rfl⟩ := mapM_cons_eq_ok.1 h
    cases n with
    | zero => exact mapM_cons_eq_ok.2 ⟨y, rest, hy, hrest, rfl⟩
    | succ n => exact ih hrest n

/-- Operations that agree on each element of a list agree on the list. -/
theorem mapM_congr {f g : α → Except ε β} {xs : List α} (h : ∀ x ∈ xs, f x = g x) :
    xs.mapM f = xs.mapM g := by
  induction xs with
  | nil => rfl
  | cons x xs ih =>
    have hxs := ih fun y hy => h y (List.mem_cons_of_mem x hy)
    rw [List.mapM_cons, List.mapM_cons, h x List.mem_cons_self, hxs]

/-- The first failure of an operation on the elements of a list, if it fails on one of them. -/
def firstFailure (f : α → Except ε β) : List α → Option ε
  | [] => none
  | x :: xs => match f x with
    | .error e => some e
    | .ok _ => firstFailure f xs

/-- An operation on each element of a list fails as it first does. -/
theorem firstFailure_eq_some {f : α → Except ε β} {xs : List α} {e : ε} :
    firstFailure f xs = some e ↔ xs.mapM f = .error e := by
  induction xs with
  | nil => exact ⟨fun h => (nomatch h), fun h => (nomatch h)⟩
  | cons x xs ih =>
    rw [firstFailure, List.mapM_cons]
    cases f x with
    | error e' => simp [bind, Except.bind]
    | ok y =>
      show firstFailure f xs = some e ↔ (xs.mapM f >>= fun ys => .ok (y :: ys)) = .error e
      rw [ih]
      cases xs.mapM f <;> simp [bind, Except.bind]

theorem firstFailure_eq_none {f : α → Except ε β} {xs : List α} :
    firstFailure f xs = none ↔ ∃ ys, xs.mapM f = .ok ys := by
  cases hxs : xs.mapM f with
  | error e => simp [firstFailure_eq_some.2 hxs]
  | ok ys =>
    have hnone : firstFailure f xs = none := by
      rw [Option.eq_none_iff_forall_ne_some]
      intro e he
      cases hxs.symm.trans (firstFailure_eq_some.1 he)
    simp [hnone]

theorem firstFailure_append (f : α → Except ε β) (xs ys : List α) :
    firstFailure f (xs ++ ys) = (firstFailure f xs).or (firstFailure f ys) := by
  induction xs with
  | nil => rfl
  | cons x xs ih =>
    rw [List.cons_append, firstFailure, firstFailure]
    split
    · rfl
    · exact ih

theorem firstFailure_map (f : β → Except ε γ) (g : α → β) (xs : List α) :
    firstFailure f (xs.map g) = firstFailure (fun x => f (g x)) xs := by
  induction xs with
  | nil => rfl
  | cons x xs ih => rw [List.map_cons, firstFailure, firstFailure, ih]

/-- What becomes of the results plays no part in the failures. -/
theorem firstFailure_result (f : α → Except ε β) (g : β → γ) (xs : List α) :
    firstFailure (fun x => g <$> f x) xs = firstFailure f xs := by
  induction xs with
  | nil => rfl
  | cons x xs ih =>
    rw [firstFailure, firstFailure, ih]
    cases f x <;> rfl

/-- An operation fails as it does on an element before which it does not fail. -/
theorem firstFailure_eq_some_iff {f : α → Except ε β} {xs : List α} {e : ε} :
    firstFailure f xs = some e ↔ ∃ before x after, xs = before ++ x :: after ∧
      (∀ y ∈ before, ∃ b, f y = .ok b) ∧ f x = .error e := by
  constructor
  · intro h
    induction xs with
    | nil => cases h
    | cons x xs ih =>
      rw [firstFailure] at h
      split at h
      · rename_i e' hx
        cases h
        exact ⟨[], x, xs, rfl, fun y hy => (nomatch hy), hx⟩
      · rename_i b hx
        obtain ⟨before, y, after, rfl, hbefore, hy⟩ := ih h
        exact ⟨x :: before, y, after, rfl, List.forall_mem_cons.2 ⟨⟨b, hx⟩, hbefore⟩, hy⟩
  · rintro ⟨before, x, after, rfl, hbefore, hx⟩
    have hnone : firstFailure f before = none :=
      firstFailure_eq_none.2 (exists_mapM_eq_ok hbefore)
    rw [firstFailure_append, hnone, Option.none_or, firstFailure, hx]

/-- An operation that fails on a list fails on one of its elements. -/
theorem exists_of_mapM_eq_error {f : α → Except ε β} {xs : List α} {e : ε}
    (h : xs.mapM f = .error e) : ∃ x ∈ xs, f x = .error e := by
  obtain ⟨before, x, after, rfl, -, hx⟩ := firstFailure_eq_some_iff.1 (firstFailure_eq_some.2 h)
  exact ⟨x, List.mem_append_right _ List.mem_cons_self, hx⟩

/-- An operation on elements in strictly ascending order fails as it does on the lowest one on which
it fails. -/
theorem mapM_eq_error_of_pairwise {f : α → Except ε β} {key : α → Int} {xs : List α} {e : ε}
    (h : xs.Pairwise fun x y => key x < key y) :
    xs.mapM f = .error e ↔
      ∃ x ∈ xs, f x = .error e ∧ ∀ y ∈ xs, key y < key x → ∃ b, f y = .ok b := by
  rw [← firstFailure_eq_some]
  induction xs with
  | nil => simp [firstFailure]
  | cons x xs ih =>
    obtain ⟨hx, hxs⟩ := List.pairwise_cons.1 h
    rw [firstFailure]
    cases hfx : f x with
    | error e' =>
      dsimp only
      constructor
      · intro heq
        refine ⟨x, List.mem_cons_self, ?_, ?_⟩
        · rw [hfx, Option.some.inj heq]
        · intro y hy hlt
          rcases List.mem_cons.1 hy with rfl | hy
          · omega
          · have := hx y hy
            omega
      · intro hexists
        obtain ⟨z, hz, hfz, hfirst⟩ := hexists
        rcases List.mem_cons.1 hz with rfl | hz
        · cases hfx.symm.trans hfz
          rfl
        · obtain ⟨b, hb⟩ := hfirst x List.mem_cons_self (hx z hz)
          cases hfx.symm.trans hb
    | ok b =>
      dsimp only
      rw [ih hxs]
      constructor
      · intro hexists
        obtain ⟨z, hz, hfz, hfirst⟩ := hexists
        refine ⟨z, List.mem_cons_of_mem x hz, hfz, fun y hy hlt => ?_⟩
        rcases List.mem_cons.1 hy with rfl | hy
        · exact ⟨b, hfx⟩
        · exact hfirst y hy hlt
      · intro hexists
        obtain ⟨z, hz, hfz, hfirst⟩ := hexists
        rcases List.mem_cons.1 hz with rfl | hz
        · cases hfx.symm.trans hfz
        · exact ⟨z, hz, hfz, fun y hy => hfirst y (List.mem_cons_of_mem x hy)⟩

/-- What each step of a run over a list keeps, the run keeps. -/
theorem foldlM_invariant {f : β → α → Except ε β} {P : β → Prop}
    (hstep : ∀ b a b', P b → f b a = .ok b' → P b') {xs : List α} {b b' : β} (hb : P b)
    (h : xs.foldlM f b = .ok b') : P b' := by
  induction xs generalizing b with
  | nil =>
    cases h
    exact hb
  | cons x xs ih =>
    rw [List.foldlM_cons] at h
    obtain ⟨next, hnext, h⟩ := bind_eq_ok.1 h
    exact ih (hstep b x next hb hnext) h

end Storefront
