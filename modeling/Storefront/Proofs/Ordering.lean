import Storefront.Proofs.Answers
import Storefront.Proofs.ValueOrder

/-!
# Orders by several keys

A query sorts by its last key first and by its first key last, and every pass is stable. So the rows
stand as the first key that tells them apart puts them, with missing cells last in either direction,
and rows that no key tells apart stand in ascending order of their ids.

* `Cell.Precedes`, `PrecedesBy`: the order of cells, and the order of rows by several keys
* `Cell.areRanked_of_kind`: cells of one kind compare as their ranks in a linear order do
* `SortKey.pairwise_sort`, `pairwise_orderRows`: one pass, and all passes of an order
* `Store.query_ordered`: the products of a query are those of the first rows in this order
-/

namespace Storefront

/-! ## Rows in order -/

/-- A cell stands before another one: it is there and the other one is missing, or it is less, or
greater in a descending order. -/
inductive Cell.Precedes (descending : Bool) (a b : Cell) : Prop
  | present (ha : a.isMissing = false) (hb : b.isMissing = true)
  | order (h : a.orderCell? b = some (if descending then .gt else .lt))

namespace SortKey

/-- What a key compares of a row: the cell of its field, or the distance of that cell from a
number. -/
def cellOf (key : SortKey) (row : Row) : Cell :=
  match Predicate.column key.field with
  | .ok column => (key.cell column row).toOption.getD .missing
  | .error _ => .missing

/-- A key puts a row before another one. -/
def Precedes (key : SortKey) (r s : Row) : Prop :=
  Cell.Precedes key.descending (key.cellOf r) (key.cellOf s)

/-- A key does not tell two rows apart. -/
def Level (key : SortKey) (r s : Row) : Prop := ¬key.Precedes r s ∧ ¬key.Precedes s r

end SortKey

/-- Several keys put a row before another one: the first key that tells them apart does, and if none
does, its id is lower. -/
def PrecedesBy : List SortKey → Row → Row → Prop
  | [], r, s => r.id < s.id
  | key :: keys, r, s => key.Precedes r s ∨ key.Level r s ∧ PrecedesBy keys r s

/-- A list has given rows, each of them once, in the order of several keys. -/
structure IsInOrder (keys : List SortKey) (rows ordered : List Row) : Prop where
  perm : ordered.Perm rows
  nodup : ordered.Nodup
  pairwise : ordered.Pairwise (PrecedesBy keys)

/-! ## Ranks of cells -/

namespace Cell

/-- The cells that are there compare as their ranks in some linear order do. -/
def AreRanked (cells : List Cell) : Prop :=
  ∃ (α : Type) (_ : LinearOrder α) (rank : Cell → α), ∀ a ∈ cells, ∀ b ∈ cells,
    a.isMissing = false → b.isMissing = false →
      (a.orderCell? b).getD .eq = compare (rank a) (rank b)

/-- The whole number that a cell holds. -/
def wholeRank : Cell → Int
  | .number (.whole n) => n
  | _ => 0

/-- The exact value of the double that a cell holds. -/
def doubleRank : Cell → Line
  | .number (.double x) => x.value
  | _ => ⊥

/-- The instant of the moment that a cell holds. -/
def momentRank : Cell → Int
  | .moment m => m.instant
  | _ => 0

/-- How the value that a cell holds is spelled. -/
def letterRank : Cell → List Value.Letter
  | .value v => v.letters
  | _ => []

/-- A cell is missing, or it holds what the cells of a kind hold. -/
inductive IsOf : ColumnKind → Cell → Prop
  | missing (kind : ColumnKind) : IsOf kind .missing
  | whole (n : Int) : IsOf .whole (.number (.whole n))
  | flag (b : Bool) : IsOf .flag (.ofFlag b)
  | double {x : Binary64} (h : x.isNan = false) : IsOf .double (.number (.double x))
  | moment (m : Moment) : IsOf .moment (.moment m)
  | value {v : Value} (h : v.isMissing = false) : IsOf .value (.value v)

theorem areRanked_wholes {cells : List Cell}
    (h : ∀ cell ∈ cells, cell.isMissing = false → ∃ n, cell = .number (.whole n)) :
    AreRanked cells := by
  refine ⟨Int, inferInstance, wholeRank, fun a ha b hb hpa hpb => ?_⟩
  obtain ⟨m, rfl⟩ := h a ha hpa
  obtain ⟨n, rfl⟩ := h b hb hpb
  rfl

theorem areRanked_doubles {cells : List Cell} (h : ∀ cell ∈ cells, cell.IsOf .double) :
    AreRanked cells := by
  refine ⟨Line, inferInstance, doubleRank, fun a ha b hb hpa hpb => ?_⟩
  cases h a ha with
  | missing => cases hpa
  | double hx =>
    cases h b hb with
    | missing => cases hpb
    | double hy =>
      exact congrArg (·.getD .eq) (Number.order?_eq_compare (a := .double _) (b := .double _) hx hy)

theorem areRanked_moments {cells : List Cell} (h : ∀ cell ∈ cells, cell.IsOf .moment) :
    AreRanked cells := by
  refine ⟨Int, inferInstance, momentRank, fun a ha b hb hpa hpb => ?_⟩
  cases h a ha with
  | missing => cases hpa
  | moment m =>
    cases h b hb with
    | missing => cases hpb
    | moment n => rfl

/-- Of two values that are sorted, either both are the only one there is, or they have an order. -/
theorem eq_or_order?_of_areSortable {cells : List Cell} {v w : Value}
    (h : SortKey.areSortable cells = true) (hv : .value v ∈ cells) (hw : .value w ∈ cells) :
    v = w ∨ ∃ o, v.order? w = some (some o) := by
  replace hv := SortKey.mem_valuesOf.2 hv
  replace hw := SortKey.mem_valuesOf.2 hw
  rcases Bool.or_eq_true_iff.1 h with hone | hall
  · left
    obtain ⟨i, hi, rfl⟩ := List.getElem_of_mem hv
    obtain ⟨j, hj, rfl⟩ := List.getElem_of_mem hw
    have hlength := of_decide_eq_true hone
    have hsame : i = j := by omega
    subst hsame
    rfl
  · right
    have horder := List.all_eq_true.1 (List.all_eq_true.1 hall v hv) w hw
    obtain ⟨o, ho⟩ := Option.isSome_iff_exists.1 horder
    exact ⟨o, Option.join_eq_some_iff.1 ho⟩

/-- Cells of values that are sortable compare as their letters do. -/
theorem areRanked_values {cells : List Cell} (h : ∀ cell ∈ cells, cell.IsOf .value)
    (hsortable : SortKey.areSortable cells = true) : AreRanked cells := by
  refine ⟨List Value.Letter, inferInstance, letterRank, fun a ha b hb hpa hpb => ?_⟩
  have hvalue {cell : Cell} (hcell : cell ∈ cells) (hp : cell.isMissing = false) :
      ∃ v, cell = .value v := by
    cases h cell hcell with
    | missing => cases hp
    | value _ => exact ⟨_, rfl⟩
  obtain ⟨v, rfl⟩ := hvalue ha hpa
  obtain ⟨w, rfl⟩ := hvalue hb hpb
  refine ((compare_iff _ _).2 ?_).symm
  show ((v.order? w).join.getD .eq).Compares v.letters w.letters
  cases horder : (v.order? w).join with
  | some o => exact Value.compares_of_order? (Option.join_eq_some_iff.1 horder)
  | none =>
    rcases eq_or_order?_of_areSortable hsortable ha hb with rfl | ⟨o, ho⟩
    · rfl
    · rw [ho] at horder
      cases horder

/-- Cells of one kind that are sortable compare as their ranks do. -/
theorem areRanked_of_kind {kind : ColumnKind} {cells : List Cell}
    (h : ∀ cell ∈ cells, cell.IsOf kind) (hsortable : SortKey.areSortable cells = true) :
    AreRanked cells := by
  cases kind with
  | whole =>
    refine areRanked_wholes fun cell hcell hp => ?_
    cases h cell hcell with
    | missing => cases hp
    | whole n => exact ⟨n, rfl⟩
  | flag =>
    refine areRanked_wholes fun cell hcell hp => ?_
    cases h cell hcell with
    | missing => cases hp
    | flag b => exact ⟨_, rfl⟩
  | double => exact areRanked_doubles h
  | moment => exact areRanked_moments h
  | value => exact areRanked_values h hsortable

/-! ### Positions -/

section Position

variable {cells : List Cell} {a b c : Cell}

theorem Precedes.isMissing_eq_false {descending : Bool} (h : Precedes descending a b) :
    a.isMissing = false := by
  cases h with
  | present ha _ => exact ha
  | order h =>
    cases a with
    | missing => cases h
    | _ => rfl

/-- Of two cells that are there, the one whose rank comes first precedes. -/
theorem precedes_iff_compare {α : Type} [LinearOrder α] {x y : α} {descending : Bool}
    (hrank : (a.orderCell? b).getD .eq = compare x y) (hb : b.isMissing = false) :
    Precedes descending a b ↔ compare x y = if descending then .gt else .lt := by
  rw [← hrank]
  constructor
  · intro h
    cases h with
    | present _ hmissing =>
      rw [hb] at hmissing
      cases hmissing
    | order h => rw [h, Option.getD_some]
  · intro h
    refine .order ?_
    cases horder : a.orderCell? b with
    | none =>
      rw [horder] at h
      cases descending <;> cases h
    | some o =>
      rw [horder] at h
      rw [← h, Option.getD_some]

/-- The position of a cell, which is the last one if the cell is missing. -/
def position {β : Type} (place : Cell → β) (c : Cell) : WithTop β :=
  if c.isMissing then ⊤ else place c

/-- Cells that are ranked have positions in a linear order, in which missing ones come last. -/
theorem AreRanked.exists_position (h : AreRanked cells) (descending : Bool) :
    ∃ (β : Type) (_ : LinearOrder β) (place : Cell → β), ∀ a ∈ cells, ∀ b ∈ cells,
      (Precedes descending a b ↔ position place a < position place b) := by
  obtain ⟨α, _, rank, hrank⟩ := h
  have hplace : ∃ (β : Type) (_ : LinearOrder β) (place : Cell → β), ∀ a ∈ cells, ∀ b ∈ cells,
      a.isMissing = false → b.isMissing = false →
        (Precedes descending a b ↔ place a < place b) := by
    cases descending with
    | false =>
      refine ⟨α, inferInstance, rank, fun a ha b hb hpa hpb => ?_⟩
      exact (precedes_iff_compare (hrank a ha b hb hpa hpb) hpb).trans compare_lt_iff_lt
    | true =>
      refine ⟨αᵒᵈ, inferInstance, fun c => .toDual (rank c), fun a ha b hb hpa hpb => ?_⟩
      exact (precedes_iff_compare (hrank a ha b hb hpa hpb) hpb).trans compare_gt_iff_gt
  obtain ⟨β, _, place, hplace⟩ := hplace
  refine ⟨β, inferInstance, place, fun a ha b hb => ?_⟩
  unfold position
  cases hpa : a.isMissing with
  | true =>
    refine iff_of_false (fun h => ?_) not_top_lt
    have := h.isMissing_eq_false
    rw [hpa] at this
    cases this
  | false =>
    cases hpb : b.isMissing with
    | true => exact iff_of_true (.present hpa hpb) (WithTop.coe_lt_top _)
    | false =>
      rw [hplace a ha b hb hpa hpb]
      exact WithTop.coe_lt_coe.symm

/-- The comparison of an order decides which cells are not preceded. -/
theorem AreRanked.before_eq_true (h : AreRanked cells) {descending : Bool} (ha : a ∈ cells)
    (hb : b ∈ cells) : SortKey.before descending a b = true ↔ ¬Precedes descending b a := by
  obtain ⟨α, _, rank, hrank⟩ := h
  unfold SortKey.before
  cases hpb : b.isMissing with
  | true =>
    refine iff_of_true rfl fun h => ?_
    have := h.isMissing_eq_false
    rw [hpb] at this
    cases this
  | false =>
    cases hpa : a.isMissing with
    | true => exact iff_of_false Bool.false_ne_true (not_not.2 (.present hpb hpa))
    | false =>
      rw [precedes_iff_compare (hrank b hb a ha hpb hpa) hpa, Std.OrientedOrd.eq_swap,
        ← hrank a ha b hb hpa hpb]
      cases a.orderCell? b with
      | none => cases descending <;> simp
      | some o => cases o <;> cases descending <;> simp

end Position

end Cell

/-! ## What one key compares -/

namespace Row

variable {offset : Option Int} {row : Row}

theorem isOf_ofNumber? {x : Option Binary64} (h : (Cell.ofNumber? x).isProper) :
    (Cell.ofNumber? x).IsOf .double := by
  cases x with
  | none => exact .missing _
  | some x => exact .double (Cell.isNan_of_isProper h)

theorem isOf_ofValue? {v : Option Value} (h : (Cell.ofValue? v).isProper) :
    (Cell.ofValue? v).IsOf .value := by
  cases v with
  | none => exact .missing _
  | some v => exact .value (Cell.isMissing_of_isProper h)

/-- The cells of a normal row are of the kinds of their columns. -/
theorem IsNormal.isOf_cell (h : row.IsNormal offset) (column : Column) :
    (row.cell column).IsOf column.kind := by
  have hproper := h.isProper_cell column
  cases column with
  | id => exact .whole row.id
  | tags => exact .value rfl
  | title | handle | vendor | productType => exact isOf_ofValue? hproper
  | price | compareAtPrice | rating | reviewCount | bestsellerScore =>
    exact isOf_ofNumber? hproper
  | inStock => exact .flag row.inStock
  | createdAt =>
    show (Cell.ofMoment? row.createdAt).IsOf .moment
    cases row.createdAt with
    | none => exact .missing _
    | some m => exact .moment m

end Row

namespace SortKey

/-- What the distances of the cells of a kind from a number are. -/
def distanceKind (point : Number) : ColumnKind → ColumnKind
  | .whole | .flag => match point with
    | .whole _ => .whole
    | .double _ => .double
  | kind => kind

theorem isOf_numberCell (x : Binary64) : (numberCell x).IsOf .double := by
  unfold numberCell
  split
  · exact .missing _
  · rename_i h
    exact .double (Bool.eq_false_iff.2 h)

theorem isOf_valueCell (x : Binary64) : (valueCell x).IsOf .value := by
  unfold valueCell
  split
  · exact .missing _
  · rename_i h
    exact .value (Bool.eq_false_iff.2 h)

/-- The distances of cells of a kind are of a kind. -/
theorem isOf_distanceCell {point : Number} {kind : ColumnKind} {cell distance : Cell}
    (hcell : cell.IsOf kind) (h : distanceCell point cell = .ok distance) :
    distance.IsOf (distanceKind point kind) := by
  cases hcell with
  | missing =>
    cases h
    exact .missing _
  | whole | flag =>
    cases point <;> cases h
    · exact .whole _
    · exact isOf_numberCell _
  | double =>
    obtain ⟨y, -, h⟩ := bind_eq_ok.1 h
    cases h
    exact isOf_numberCell _
  | moment => cases h
  | @value v =>
    unfold distanceCell at h
    dsimp only at h
    split at h
    · cases h
      exact .value rfl
    · obtain ⟨x, -, h⟩ := bind_eq_ok.1 h
      obtain ⟨y, -, h⟩ := bind_eq_ok.1 h
      cases h
      exact isOf_valueCell _
    · cases h

/-- What a key compares of normal rows is of one kind. -/
theorem exists_kind (key : SortKey) (column : Column) : ∃ kind, ∀ {offset : Option Int} {row : Row}
    {cell : Cell}, row.IsNormal offset → key.cell column row = .ok cell → cell.IsOf kind := by
  unfold SortKey.cell
  split
  · refine ⟨column.kind, fun hrow h => ?_⟩
    cases h
    exact hrow.isOf_cell column
  · cases key.distanceTo.number? with
    | none => exact ⟨column.kind, fun _ h => nomatch h⟩
    | some point =>
      exact ⟨distanceKind point column.kind, fun hrow h =>
        isOf_distanceCell (hrow.isOf_cell column) h⟩

/-! ## One pass, and all passes -/

variable {key : SortKey} {offset : Option Int} {rows sorted : List Row} {S : Row → Row → Prop}

/-- A key lets a row stand before another one. -/
def admits (key : SortKey) (r s : Row) : Bool :=
  before key.descending (key.cellOf r) (key.cellOf s)

/-- What a key compares of a row is the cell that it has for the row. -/
theorem cellOf_eq {column : Column} {row : Row} {cell : Cell}
    (hcolumn : Predicate.column key.field = .ok column) (h : key.cell column row = .ok cell) :
    key.cellOf row = cell := by
  unfold cellOf
  rw [hcolumn]
  dsimp only
  rw [h]
  rfl

/-- A pass sorts rows by what its key compares of them. -/
theorem sort_eq_ok_sortBy (h : key.sort rows = .ok sorted) :
    (∃ column, ∀ row ∈ rows, key.cell column row = .ok (key.cellOf row)) ∧
      areSortable (rows.map key.cellOf) = true ∧
      sorted = sortBy key.admits rows := by
  obtain ⟨column, keyed, hcolumn, -, hkeyed, hsortable, rfl⟩ := sort_eq_ok.1 h
  have hpairs : keyed.map id = rows.map fun row => (key.cellOf row, row) := by
    refine map_eq_of_mapM_eq_ok (fun row pair hpair => ?_) hkeyed
    obtain ⟨cell, hcell, hpair⟩ := bind_eq_ok.1 hpair
    cases hpair
    rw [cellOf_eq hcolumn hcell]
    rfl
  rw [List.map_id] at hpairs
  refine ⟨⟨column, fun row hrow => ?_⟩, ?_, ?_⟩
  · obtain ⟨pair, hpair⟩ := exists_of_mapM_eq_ok hkeyed hrow
    obtain ⟨cell, hcell, -⟩ := bind_eq_ok.1 hpair.2
    rw [hcell, cellOf_eq hcolumn hcell]
  · rw [hpairs, List.map_map] at hsortable
    exact hsortable
  · rw [hpairs, sortBy_map, List.map_map]
    exact List.map_id' _

/-- What a key that sorts rows compares of them is ranked. -/
theorem areRanked_cellOf (hrows : ∀ row ∈ rows, row.IsNormal offset)
    (h : key.sort rows = .ok sorted) : Cell.AreRanked (rows.map key.cellOf) := by
  obtain ⟨⟨column, hcell⟩, hsortable, -⟩ := sort_eq_ok_sortBy h
  obtain ⟨kind, hkind⟩ := key.exists_kind column
  have hof : ∀ cell ∈ rows.map key.cellOf, cell.IsOf kind := by
    intro cell hmem
    obtain ⟨row, hrow, rfl⟩ := List.mem_map.1 hmem
    exact hkind (hrows row hrow) (hcell row hrow)
  exact Cell.areRanked_of_kind hof hsortable

/-- One pass puts rows in the order of its key, and keeps the order of rows that are level. -/
theorem pairwise_sort (hrows : ∀ row ∈ rows, row.IsNormal offset)
    (h : key.sort rows = .ok sorted) (hS : rows.Pairwise S) :
    sorted.Pairwise fun r s => key.Precedes r s ∨ key.Level r s ∧ S r s := by
  have hranked := areRanked_cellOf hrows h
  obtain ⟨β, _, place, hposition⟩ := hranked.exists_position key.descending
  have hmem : ∀ row ∈ rows, key.cellOf row ∈ rows.map key.cellOf := fun row hrow =>
    List.mem_map_of_mem hrow
  have hadmits : ∀ r ∈ rows, ∀ s ∈ rows, (key.admits r s = true ↔ ¬key.Precedes s r) :=
    fun r hr s hs => hranked.before_eq_true (hmem r hr) (hmem s hs)
  have hle : ∀ r ∈ rows, ∀ s ∈ rows, (key.admits r s = true ↔
      Cell.position place (key.cellOf r) ≤ Cell.position place (key.cellOf s)) := by
    intro r hr s hs
    rw [hadmits r hr s hs, ← not_lt]
    exact not_congr (hposition _ (hmem s hs) _ (hmem r hr))
  have htotal : ∀ r s, r ∈ rows → s ∈ rows → key.admits r s = true ∨ key.admits s r = true := by
    intro r s hr hs
    rw [hle r hr s hs, hle s hs r hr]
    exact le_total _ _
  have htrans : ∀ r s t, r ∈ rows → s ∈ rows → t ∈ rows → key.admits r s = true →
      key.admits s t = true → key.admits r t = true := by
    intro r s t hr hs ht
    rw [hle r hr s hs, hle s hs t ht, hle r hr t ht]
    exact le_trans
  obtain ⟨-, -, rfl⟩ := sort_eq_ok_sortBy h
  refine (pairwise_sortBy_stable htotal htrans (fun _ hrow => hrow) hS).imp_of_mem
    fun {r s} hr hs hrs => ?_
  have hr := mem_sortBy.1 hr
  have hs := mem_sortBy.1 hs
  rw [hadmits r hr s hs, hadmits s hs r hr] at hrs
  by_cases hprecedes : key.Precedes r s
  · exact .inl hprecedes
  · exact .inr ⟨⟨hprecedes, hrs.1⟩, hrs.2 hprecedes⟩

/-- Of two rows that a key sorts, at most one precedes the other. -/
theorem not_precedes_of_sort (hrows : ∀ row ∈ rows, row.IsNormal offset)
    (h : key.sort rows = .ok sorted) {r s : Row} (hr : r ∈ rows) (hs : s ∈ rows)
    (hrs : key.Precedes r s) : ¬key.Precedes s r := by
  obtain ⟨β, _, place, hposition⟩ := (areRanked_cellOf hrows h).exists_position key.descending
  have hr := List.mem_map_of_mem (f := key.cellOf) hr
  have hs := List.mem_map_of_mem (f := key.cellOf) hs
  exact fun hsr => lt_asymm ((hposition _ hr _ hs).1 hrs) ((hposition _ hs _ hr).1 hsr)

end SortKey

section Orders

variable {keys : List SortKey} {offset : Option Int} {rows sorted : List Row}

/-- An order puts rows that stand by their ids in the order of its keys. -/
theorem pairwise_orderRows (hrows : ∀ row ∈ rows, row.IsNormal offset)
    (hids : rows.Pairwise fun r s => r.id < s.id) (h : orderRows keys rows = .ok sorted) :
    sorted.Pairwise (PrecedesBy keys) := by
  induction keys generalizing sorted with
  | nil =>
    cases h
    exact hids
  | cons key keys ih =>
    obtain ⟨middle, hmiddle, hsort⟩ := bind_eq_ok.1 h
    have hnormal : ∀ row ∈ middle, row.IsNormal offset := fun row hrow =>
      hrows row ((perm_of_orderRows hmiddle).mem_iff.1 hrow)
    exact SortKey.pairwise_sort hnormal hsort (ih hmiddle)

/-- Of two rows that an order sorts, at most one precedes the other. -/
theorem not_precedesBy_of_orderRows (hrows : ∀ row ∈ rows, row.IsNormal offset)
    (h : orderRows keys rows = .ok sorted) {r s : Row} (hr : r ∈ rows) (hs : s ∈ rows)
    (hrs : PrecedesBy keys r s) : ¬PrecedesBy keys s r := by
  induction keys generalizing sorted with
  | nil => exact Int.not_lt.2 (Int.le_of_lt hrs)
  | cons key keys ih =>
    obtain ⟨middle, hmiddle, hsort⟩ := bind_eq_ok.1 h
    have hperm := perm_of_orderRows hmiddle
    have hnormal : ∀ row ∈ middle, row.IsNormal offset := fun row hrow =>
      hrows row (hperm.mem_iff.1 hrow)
    have hnot := SortKey.not_precedes_of_sort hnormal hsort (hperm.mem_iff.2 hr)
      (hperm.mem_iff.2 hs)
    rintro (hsr | ⟨hlevel, hsr⟩)
    · rcases hrs with hrs | ⟨hlevel, -⟩
      · exact hnot hrs hsr
      · exact hlevel.2 hsr
    · rcases hrs with hrs | ⟨-, hrs⟩
      · exact hlevel.2 hrs
      · exact ih hmiddle hrs hsr

/-- The rows that an order puts in order stand in the only order there is. -/
theorem isInOrder_of_orderRows (hrows : ∀ row ∈ rows, row.IsNormal offset)
    (hids : rows.Pairwise fun r s => r.id < s.id) (h : orderRows keys rows = .ok sorted) :
    IsInOrder keys rows sorted ∧ ∀ other, IsInOrder keys rows other → other = sorted := by
  have hperm := perm_of_orderRows h
  have hpairwise := pairwise_orderRows hrows hids h
  have hnodup : rows.Nodup := hids.imp fun hlt heq =>
    Int.ne_of_lt hlt (congrArg Row.id heq)
  refine ⟨⟨hperm, hperm.nodup_iff.2 hnodup, hpairwise⟩, fun other hother => ?_⟩
  refine List.Perm.eq_of_pairwise (fun r s hr hs hrs hsr => ?_) hother.pairwise hpairwise
    (hother.perm.trans hperm.symm)
  exact absurd hsr (not_precedesBy_of_orderRows hrows h (hother.perm.mem_iff.1 hr)
    (hperm.mem_iff.1 hs) hrs)

end Orders

/-! ## Answers -/

namespace Store

variable {s : Store} {faults : Faults} {p : Predicate} {keys : List SortKey}

/-- The rows of a store that match a predicate. -/
def matching (s : Store) (p : Predicate) : List Row :=
  s.table.rows.filter fun row => p.holds s.table s.memberships row

theorem headCount_elim (limit : Option Int) :
    Limit.headCount (limit.elim .null .int) = .ok (limit.map Int.toNat) := by
  cases limit <;> rfl

/-- A query gives products if its rows can be ordered and the first of them read. -/
theorem query_eq_ok_of_limit {limit : Option Int} {products : List Product} :
    s.query faults ⟨p, keys, limit.elim .null .int⟩ = .ok products ↔
      faults.scan p = none ∧ p.check s.table = .ok () ∧
      ∃ ordered, orderRows keys (s.matching p) = .ok ordered ∧
        (limit.elim ordered fun n => ordered.take n.toNat).mapM Row.toProduct = .ok products := by
  rw [query_eq_ok, Table.query_eq_ok]
  refine and_congr_right fun _ => ?_
  constructor
  · rintro ⟨rows, hselect, hproducts⟩
    obtain ⟨ordered, count, hcheck, hordered, hcount, rfl⟩ := Table.select_eq_ok.1 hselect
    cases (headCount_elim limit).symm.trans hcount
    refine ⟨hcheck, ordered, hordered, ?_⟩
    cases limit <;> exact hproducts
  · rintro ⟨hcheck, ordered, hordered, hproducts⟩
    refine ⟨_, Table.select_eq_ok.2 ⟨ordered, _, hcheck, hordered, headCount_elim limit, rfl⟩, ?_⟩
    cases limit <;> exact hproducts

theorem exists_offset_matching (s : Store) (p : Predicate) :
    ∃ offset, ∀ row ∈ s.matching p, row.IsNormal offset := by
  obtain ⟨offset, hnormal⟩ := s.table.normal
  exact ⟨offset, fun row hrow => hnormal row (List.mem_filter.1 hrow).1⟩

/-- The matching rows are put in the only order there is. -/
theorem isInOrder_matching {ordered : List Row} (h : orderRows keys (s.matching p) = .ok ordered) :
    IsInOrder keys (s.matching p) ordered ∧
      ∀ other, IsInOrder keys (s.matching p) other → other = ordered := by
  obtain ⟨offset, hrows⟩ := s.exists_offset_matching p
  exact isInOrder_of_orderRows hrows (s.table.ascending.filter _) h

/-- The products of a query are those of the first rows, as many as its limit says, of the matching
rows in the order of its keys, of which there is one. A smaller limit gives the first of these
products. -/
theorem query_ordered {limit : Option Int} {products : List Product}
    (h : s.query faults ⟨p, keys, limit.elim .null .int⟩ = .ok products) :
    ∃ ordered, IsInOrder keys (s.matching p) ordered ∧
      (∀ other, IsInOrder keys (s.matching p) other → other = ordered) ∧
      (limit.elim ordered fun n => ordered.take n.toNat).mapM Row.toProduct = .ok products ∧
      ∀ smaller : Int, (∀ n ∈ limit, smaller ≤ n) →
        s.query faults ⟨p, keys, .int smaller⟩ = .ok (products.take smaller.toNat) := by
  obtain ⟨hscan, hcheck, ordered, hordered, hproducts⟩ := query_eq_ok_of_limit.1 h
  obtain ⟨hinorder, hunique⟩ := isInOrder_matching hordered
  refine ⟨ordered, hinorder, hunique, hproducts, fun smaller hsmaller => ?_⟩
  show s.query faults ⟨p, keys, (some smaller).elim .null .int⟩ = _
  refine query_eq_ok_of_limit.2 ⟨hscan, hcheck, ordered, hordered, ?_⟩
  have htake := mapM_take hproducts smaller.toNat
  cases limit with
  | none => exact htake
  | some n =>
    have hle : smaller.toNat ≤ n.toNat := Int.toNat_le_toNat (hsmaller n rfl)
    rwa [Option.elim_some, List.take_take, Nat.min_eq_left hle] at htake

end Store

/-- Five products: two have the same rating, and two have none. -/
def Table.rated : Table where
  rows := [{ id := 1 }, { id := 2, rating := some (.ofNat 4), price := some (.ofNat 6) },
    { id := 3 }, { id := 4, rating := some (.ofNat 4), price := some (.ofNat 2) },
    { id := 5, rating := some (.ofNat 5) }]
  ascending := by simp
  normal := by
    refine ⟨none, fun row hrow => ?_⟩
    simp only [List.mem_cons, List.not_mem_nil, or_false] at hrow
    rcases hrow with rfl | rfl | rfl | rfl | rfl
    all_goals exact ⟨rfl, fun column => by cases column <;> rfl, fun m hm => nomatch hm⟩

namespace Store

/-- The store of these products, without collections. -/
def rated : Store := .ofParts Table.rated [] .empty

/-- The greatest rating first, and then the price nearest to three. -/
def byRating : List SortKey :=
  [{ field := "rating", descending := true }, { field := "price", distanceTo := .int 3 }]

theorem query_ordered_rated : ∃ products ordered,
    rated.query .none ⟨.matchAll, byRating, .int 4⟩ = .ok products ∧
      products.map (·.id) = [5, 4, 2, 1] ∧ IsInOrder byRating (rated.matching .matchAll) ordered ∧
      (ordered.take 4).mapM Row.toProduct = .ok products ∧
      rated.query .none ⟨.matchAll, byRating, .int 2⟩ = .ok (products.take 2) := by
  have hvalue : (rated.query .none ⟨.matchAll, byRating, .int 4⟩).toOption.map
      (fun products => products.map (·.id)) = some [5, 4, 2, 1] := by
    decide +kernel
  obtain ⟨products, hquery, hids⟩ := exists_of_toOption_map_eq_some hvalue
  have hlimit : rated.query .none ⟨.matchAll, byRating, (some (4 : Int)).elim .null .int⟩ =
      .ok products := hquery
  obtain ⟨ordered, hordered, -, hproducts, hsmaller⟩ := query_ordered hlimit
  exact ⟨products, ordered, hquery, hids, hordered, hproducts, hsmaller 2 (by simp)⟩

end Store

end Storefront
