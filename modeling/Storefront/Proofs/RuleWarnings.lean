import Storefront.Proofs.PredicateWidth
import Storefront.Proofs.SyncFailures

/-!
# What is reported about rules

A place in a rule is the list of indices that leads to it: the empty one is the rule itself, and each
index leads from joined conditions to one of them. An entry is rejected where it is absent, where it
is turned down, and where it is a single condition that cannot be used. The last two are reported,
each once and in the order of the places, and what is turned down is shown; an absent entry is left out
with no report.

* `Rule.valueAt?`: the value at a place of a rule
* `Rule.RejectedAs`: how an entry is rejected
* `Entry.rejections`: the rejected places of a rule, in their order
* `Rule.mem_rejections`: they are those of the rule, by induction on it
* `Rule.compile_accounts`: the warnings of a rule
-/

namespace Storefront

namespace Rule

/-! ## Places in a rule -/

/-- The value at a place of a rule. -/
def valueAt? : Value → List Nat → Option Value
  | v, [] => some v
  | v, index :: place =>
    match Node.read v with
    | .ok (some (.ok (.composite _ conditions))) =>
      conditions[index]?.bind (valueAt? · place)
    | _ => none

@[simp] theorem valueAt?_nil (v : Value) : valueAt? v [] = some v := rfl

theorem valueAt?_cons {v : Value} {logic : String} {conditions : List Value}
    (read : Node.read v = .ok (some (.ok (.composite logic conditions)))) (index : Nat)
    (place : List Nat) :
    valueAt? v (index :: place) = conditions[index]?.bind (valueAt? · place) := by
  rw [valueAt?, read]

/-- Only joined conditions have others below them. -/
theorem valueAt?_cons_eq_none {v : Value}
    (h : ∀ logic conditions, Node.read v ≠ .ok (some (.ok (.composite logic conditions))))
    (index : Nat) (place : List Nat) : valueAt? v (index :: place) = none := by
  rw [valueAt?]
  split
  · exact absurd ‹_› (h _ _)
  · rfl

/-! ## Rejected entries -/

/-- Nothing is given. -/
def IsAbsent (v : Value) : Prop := v = .null ∨ v = .text ""

/-- A value joins conditions. -/
def IsJoined (v : Value) : Prop :=
  ∃ logic conditions, Node.read v = .ok (some (.ok (.composite logic conditions)))

/-- An entry is rejected: with no report if it is absent, with the warning with which it is turned
down, or as a single condition that cannot be used. -/
inductive RejectedAs (v : Value) : Option Warning → Prop
  | absent (absent : IsAbsent v) : RejectedAs v none
  | turnedDown {w : Warning} (read : Node.read v = .ok (some (.error w))) : RejectedAs v (some w)
  | unusable {l : Leaf} (read : Node.read v = .ok (some (.ok (.leaf l)))) (unusable : ¬l.IsUsable) :
    RejectedAs v (some (.unusableLeaf l.type))

theorem read_eq_none {v : Value} : Node.read v = .ok none ↔ IsAbsent v := by
  unfold IsAbsent
  cases v with
  | null => simp [Node.read]
  | text s =>
    rw [Node.read_text]
    split
    · simp_all
    · split <;> simp_all
  | _ =>
    rw [Node.read_eq_report (by simp) (by simp)]
    simp

/-- The value that a text writes; every other value is itself. -/
def decoded : Value → Value
  | .text s => (Value.read s).toOption.getD (.text s)
  | v => v

theorem mem_extra_of_ofValue {v : Value} {w : Warning} (h : Node.ofValue v = .error w) :
    ("rule", .text v.quotedForm) ∈ w.extra := by
  cases v with
  | object fields =>
    rw [Node.ofValue, Node.ofFields] at h
    split at h
    · cases h
      exact List.mem_cons_self
    · rename_i type _
      cases hnode : Node.readTyped type fields with
      | accepted node => rw [hnode] at h; cases h
      | refused faults =>
        rw [hnode] at h
        cases h
        exact List.mem_cons_self
  | _ =>
    cases h
    exact List.mem_cons_self

/-- A value that is turned down is shown, unless it is a text that writes no value. -/
theorem mem_extra_of_turnedDown {v : Value} {w : Warning}
    (h : Node.read v = .ok (some (.error w))) :
    w = .unparsableText ∨ ("rule", .text (decoded v).quotedForm) ∈ w.extra := by
  cases v with
  | null => cases h
  | text s =>
    rw [Node.read_text] at h
    split at h
    · cases h
    · split at h
      · rename_i v hread
        right
        rw [decoded, hread]
        exact mem_extra_of_ofValue (Node.report_eq_warning.1 h).2
      · cases h
        exact .inl rfl
      · cases h
  | _ =>
    rw [Node.read_eq_report (by simp) (by simp)] at h
    exact .inr (mem_extra_of_ofValue (Node.report_eq_warning.1 h).2)

theorem rejectedAs_of_absent {v : Value} (h : Node.read v = .ok none) {report : Option Warning} :
    RejectedAs v report ↔ report = none := by
  constructor
  · intro hrejected
    cases hrejected <;> simp_all
  · rintro rfl
    exact .absent (read_eq_none.1 h)

theorem rejectedAs_of_turnedDown {v : Value} {w : Warning}
    (h : Node.read v = .ok (some (.error w))) {report : Option Warning} :
    RejectedAs v report ↔ report = some w := by
  constructor
  · intro hrejected
    cases hrejected with
    | absent habsent => simp [read_eq_none.2 habsent] at h
    | _ => simp_all
  · rintro rfl
    exact .turnedDown h

theorem rejectedAs_of_leaf {v : Value} {l : Leaf} (h : Node.read v = .ok (some (.ok (.leaf l))))
    {report : Option Warning} :
    RejectedAs v report ↔ ¬l.IsUsable ∧ report = some (.unusableLeaf l.type) := by
  constructor
  · intro hrejected
    cases hrejected with
    | absent habsent => simp [read_eq_none.2 habsent] at h
    | _ => simp_all
  · rintro ⟨hunusable, rfl⟩
    exact .unusable h hunusable

theorem not_rejectedAs_of_joined {v : Value} (h : IsJoined v) (report : Option Warning) :
    ¬RejectedAs v report := by
  obtain ⟨logic, conditions, h⟩ := h
  intro hrejected
  cases hrejected with
  | absent habsent => simp [read_eq_none.2 habsent] at h
  | _ => simp_all

end Rule

/-! ## The rejected places of a rule -/

namespace Entry

/-- The rejected places of an entry with what is reported there, in their order. -/
def rejections : Entry → List (List Nat × Option Warning)
  | .blank => [([], none)]
  | .rejected w => [([], some w)]
  | .leaf l => if l.predicate?.isNone then [([], some (.unusableLeaf l.type))] else []
  | .group _ entries => rejectionsFrom 0 entries
where
  /-- The rejected places of entries that are counted from an index. -/
  rejectionsFrom (index : Nat) : List Entry → List (List Nat × Option Warning)
    | [] => []
    | entry :: rest =>
      entry.rejections.map (fun rejection => (index :: rejection.1, rejection.2)) ++
        rejectionsFrom (index + 1) rest

theorem mem_rejectionsFrom {index : Nat} {entries : List Entry} {place : List Nat}
    {report : Option Warning} :
    (place, report) ∈ rejections.rejectionsFrom index entries ↔
      ∃ offset entry rest, entries[offset]? = some entry ∧ place = (index + offset) :: rest ∧
        (rest, report) ∈ entry.rejections := by
  induction entries generalizing index with
  | nil => simp [rejections.rejectionsFrom]
  | cons entry entries ih =>
    rw [rejections.rejectionsFrom, List.mem_append, ih]
    constructor
    · rintro (h | ⟨offset, entry', rest, hentry', rfl, hmem⟩)
      · obtain ⟨⟨rest, report'⟩, hmem, heq⟩ := List.mem_map.1 h
        cases heq
        exact ⟨0, entry, rest, rfl, rfl, hmem⟩
      · exact ⟨offset + 1, entry', rest, hentry', by rw [Nat.add_right_comm, Nat.add_assoc], hmem⟩
    · rintro ⟨offset, entry', rest, hentry', rfl, hmem⟩
      cases offset with
      | zero =>
        cases hentry'
        exact .inl (List.mem_map.2 ⟨(rest, report), hmem, rfl⟩)
      | succ offset =>
        refine .inr ⟨offset, entry', rest, hentry', ?_, hmem⟩
        rw [Nat.add_right_comm, Nat.add_assoc]

/-- The rejected places come in their order, so that each comes once. -/
theorem pairwise_rejections (entry : Entry) :
    entry.rejections.Pairwise fun first second => first.1 < second.1 := by
  match entry with
  | .blank | .rejected w => exact List.pairwise_singleton _ _
  | .leaf l =>
    rw [rejections]
    split
    · exact List.pairwise_singleton _ _
    · exact .nil
  | .group logic entries => exact pairwiseFrom 0 entries
where
  /-- The same for entries that are counted from an index. -/
  pairwiseFrom (index : Nat) (entries : List Entry) :
      (rejections.rejectionsFrom index entries).Pairwise fun first second => first.1 < second.1 := by
    match entries with
    | [] => exact .nil
    | entry :: rest =>
      rw [rejections.rejectionsFrom, List.pairwise_append]
      -- places below one entry differ further on; those below two entries differ at the index
      refine ⟨?_, pairwiseFrom (index + 1) rest, ?_⟩
      · rw [List.pairwise_map]
        exact (pairwise_rejections entry).imp fun hlt => List.cons_lt_cons_iff.2 (.inr ⟨rfl, hlt⟩)
      · intro first hfirst second hsecond
        obtain ⟨inner, -, rfl⟩ := List.mem_map.1 hfirst
        obtain ⟨offset, entry', place, -, hplace, -⟩ := mem_rejectionsFrom.1 hsecond
        rw [hplace]
        exact List.cons_lt_cons_iff.2 (.inl (by omega))

/-- What is reported about an entry is what is reported at its rejected places. -/
theorem filterMap_rejections (entry : Entry) : entry.rejections.filterMap Prod.snd = entry.warnings := by
  match entry with
  | .blank | .rejected w => rfl
  | .leaf l =>
    rw [rejections, warnings]
    split <;> rfl
  | .group logic entries => exact filterMapFrom 0 entries
where
  /-- The same for entries that are counted from an index. -/
  filterMapFrom (index : Nat) (entries : List Entry) :
      (rejections.rejectionsFrom index entries).filterMap Prod.snd =
        warnings.allWarnings entries := by
    match entries with
    | [] => rfl
    | entry :: rest =>
      rw [rejections.rejectionsFrom, warnings.allWarnings, List.filterMap_append,
        List.filterMap_map, filterMapFrom (index + 1) rest, ← filterMap_rejections entry]
      rfl

end Entry

namespace Rule

/-- The rejected places are those at which there is a rejected entry, by induction on the rule. -/
theorem mem_rejections {rule : Value} {entry : Entry} (h : Entry.read rule = .ok entry)
    {place : List Nat} {report : Option Warning} :
    (place, report) ∈ entry.rejections ↔ ∃ v, valueAt? rule place = some v ∧ RejectedAs v report := by
  -- without joined conditions there is no place but the rule's own
  have hsingle (hrule : ∀ logic conditions,
      Node.read rule ≠ .ok (some (.ok (.composite logic conditions)))) :
      (∃ v, valueAt? rule place = some v ∧ RejectedAs v report) ↔
        place = [] ∧ RejectedAs rule report := by
    cases place with
    | nil => simp
    | cons index place => simp [valueAt?_cons_eq_none hrule]
  rcases Entry.read_cases h with ⟨hnode, rfl⟩ | ⟨w, hnode, rfl⟩ | ⟨l, hnode, rfl⟩ |
    ⟨logic, conditions, entries, hnode, hentries, rfl⟩
  · rw [hsingle (by simp [hnode]), rejectedAs_of_absent hnode]
    simp [Entry.rejections]
  · rw [hsingle (by simp [hnode]), rejectedAs_of_turnedDown hnode]
    simp [Entry.rejections]
  · rw [hsingle (by simp [hnode]), rejectedAs_of_leaf hnode, Leaf.isUsable_iff]
    cases hl : l.predicate? with
    | none => simp [Entry.rejections, hl]
    | some p => simp [Entry.rejections, hl]
  · rw [Entry.rejections, Entry.mem_rejectionsFrom]
    cases place with
    | nil => simp [not_rejectedAs_of_joined ⟨logic, conditions, hnode⟩]
    | cons index place =>
      rw [valueAt?_cons hnode]
      constructor
      · rintro ⟨offset, entry, rest, hentry, hplace, hmem⟩
        rw [Nat.zero_add] at hplace
        cases hplace
        obtain ⟨condition, hcondition, hread⟩ := getElem?_of_mapM_eq_ok hentries hentry
        have := Node.weight_lt_of_mem hnode (List.mem_of_getElem? hcondition)
        rw [hcondition]
        exact (mem_rejections hread).1 hmem
      · rintro ⟨v, hv, hrejected⟩
        obtain ⟨condition, hcondition, hv⟩ := Option.bind_eq_some_iff.1 hv
        obtain ⟨entry, hentry, hread⟩ := exists_getElem?_of_mapM_eq_ok hentries hcondition
        have := Node.weight_lt_of_mem hnode (List.mem_of_getElem? hcondition)
        refine ⟨index, entry, place, hentry, ?_, (mem_rejections hread).2 ⟨v, hv, hrejected⟩⟩
        rw [Nat.zero_add]
termination_by rule.weight

/-- The values at the places of a rule can be read if the rule can. -/
theorem exists_read_valueAt? {rule : Value} {entry : Entry} (h : Entry.read rule = .ok entry)
    {place : List Nat} {v : Value} (hv : valueAt? rule place = some v) :
    ∃ entry', Entry.read v = .ok entry' := by
  induction place generalizing rule entry with
  | nil =>
    cases hv
    exact ⟨entry, h⟩
  | cons index place ih =>
    rcases Entry.read_cases h with ⟨hnode, -⟩ | ⟨w, hnode, -⟩ | ⟨l, hnode, -⟩ |
      ⟨logic, conditions, entries, hnode, hentries, -⟩
    · simp [valueAt?, hnode] at hv
    · simp [valueAt?, hnode] at hv
    · simp [valueAt?, hnode] at hv
    · rw [valueAt?_cons hnode] at hv
      obtain ⟨condition, hcondition, hv⟩ := Option.bind_eq_some_iff.1 hv
      obtain ⟨entry', -, hread⟩ := exists_getElem?_of_mapM_eq_ok hentries hcondition
      exact ih hread hv

/-! ## Rules that match nothing -/

/-- There is a usable condition at a place of a rule. -/
def HasUsableLeaf (rule : Value) : Prop :=
  ∃ place v l, valueAt? rule place = some v ∧ Node.read v = .ok (some (.ok (.leaf l))) ∧ l.IsUsable

theorem isUsable_of_valueAt? {rule v : Value} {place : List Nat} (h : valueAt? rule place = some v)
    (hv : IsUsable v) : IsUsable rule := by
  induction place generalizing rule with
  | nil =>
    cases h
    exact hv
  | cons index place ih =>
    rw [valueAt?] at h
    split at h
    · obtain ⟨condition, hcondition, h⟩ := Option.bind_eq_some_iff.1 h
      exact .composite ‹_› (List.mem_of_getElem? hcondition) (ih h)
    · cases h

theorem isUsable_iff_hasUsableLeaf {rule : Value} : IsUsable rule ↔ HasUsableLeaf rule := by
  constructor
  · intro h
    induction h with
    | leaf read usable => exact ⟨[], _, _, rfl, read, usable⟩
    | composite read mem usable ih =>
      obtain ⟨place, v, l, hv, hread, husable⟩ := ih
      obtain ⟨index, hindex⟩ := List.mem_iff_getElem?.1 mem
      refine ⟨index :: place, v, l, ?_, hread, husable⟩
      rw [valueAt?_cons read, hindex]
      exact hv
  · rintro ⟨place, v, l, hv, hread, husable⟩
    exact isUsable_of_valueAt? hv (.leaf hread husable)

/-- The predicate that matches nothing is that of the rules without a usable condition. -/
theorem predicate_eq_matchNone_iff {rule : Value} {entry : Entry}
    (h : Entry.read rule = .ok entry) : entry.predicate = .matchNone ↔ ¬HasUsableLeaf rule := by
  rw [← isUsable_iff_hasUsableLeaf, isUsable_iff h, Entry.predicate]
  cases hp : entry.predicate? with
  | none => simp
  | some p =>
    have hpos := Entry.width_pos hp
    have hne : p ≠ .matchNone := by
      rintro rfl
      exact Nat.lt_irrefl 0 hpos
    simp [hne]

/-! ## The account of the warnings -/

/-- What is known of a compiled rule, of its warnings and of its rejected places. -/
structure Accounts (rule : Value) (p : Predicate) (warnings : List Warning)
    (rejections : List (List Nat × Option Warning)) : Prop where
  /-- The rejected places come in their order. -/
  ordered : rejections.Pairwise fun first second => first.1 < second.1
  /-- They are the places of the rule at which there is a rejected entry. -/
  mem_iff : ∀ place report,
    (place, report) ∈ rejections ↔ ∃ v, valueAt? rule place = some v ∧ RejectedAs v report
  /-- The warnings are what is reported there. -/
  reported : warnings = rejections.filterMap Prod.snd
  /-- What is turned down is shown, unless it is a text that writes no value. -/
  shown : ∀ place v w, valueAt? rule place = some v → Node.read v = .ok (some (.error w)) →
    w = .unparsableText ∨ ("rule", .text (decoded v).quotedForm) ∈ w.extra
  /-- There are as many as rejected places if no entry is absent, and only then. -/
  length_eq_iff : warnings.length = rejections.length ↔
    ∀ place v, valueAt? rule place = some v → ¬IsAbsent v
  /-- The predicate matches nothing if there is no usable condition, and only then. -/
  matchNone_iff : p = .matchNone ↔ ¬HasUsableLeaf rule
  /-- It does so with no warning if all entries are absent or join others, and only then. -/
  silent_iff : p = .matchNone ∧ warnings = [] ↔
    ∀ place v, valueAt? rule place = some v → IsAbsent v ∨ IsJoined v

theorem rejectedAs_none {v : Value} : RejectedAs v none ↔ IsAbsent v := by
  constructor
  · intro h
    cases h with
    | absent absent => exact absent
  · exact .absent

theorem accounts {rule : Value} {entry : Entry} (h : Entry.read rule = .ok entry) :
    Accounts rule entry.predicate entry.warnings entry.rejections where
  ordered := entry.pairwise_rejections
  mem_iff _ _ := mem_rejections h
  reported := entry.filterMap_rejections.symm
  shown _ _ _ _ hread := mem_extra_of_turnedDown hread
  length_eq_iff := by
    rw [← entry.filterMap_rejections, List.filterMap_length_eq_length]
    constructor
    · intro hall place v hv habsent
      have hmem := (mem_rejections h).2 ⟨v, hv, .absent habsent⟩
      cases hall (place, none) hmem
    · rintro hall ⟨place, report⟩ hmem
      obtain ⟨v, hv, hrejected⟩ := (mem_rejections h).1 hmem
      cases report with
      | none => exact absurd (rejectedAs_none.1 hrejected) (hall place v hv)
      | some w => rfl
  matchNone_iff := predicate_eq_matchNone_iff h
  silent_iff := by
    rw [predicate_eq_matchNone_iff h, ← entry.filterMap_rejections, List.filterMap_eq_nil_iff]
    constructor
    · rintro ⟨hno, hall⟩ place v hv
      have hsilent (w : Warning) : ¬RejectedAs v (some w) := by
        intro hrejected
        cases hall (place, some w) ((mem_rejections h).2 ⟨v, hv, hrejected⟩)
      obtain ⟨entry', hentry'⟩ := exists_read_valueAt? h hv
      rcases Entry.read_cases hentry' with ⟨hnode, -⟩ | ⟨w, hnode, -⟩ | ⟨l, hnode, -⟩ |
        ⟨logic, conditions, -, hnode, -, -⟩
      · exact .inl (read_eq_none.1 hnode)
      · exact absurd (.turnedDown hnode) (hsilent w)
      · by_cases husable : l.IsUsable
        · exact absurd ⟨place, v, l, hv, hnode, husable⟩ hno
        · exact absurd (.unusable hnode husable) (hsilent _)
      · exact .inr ⟨logic, conditions, hnode⟩
    · intro hall
      constructor
      · rintro ⟨place, v, l, hv, hnode, -⟩
        rcases hall place v hv with habsent | ⟨logic, conditions, hjoined⟩
        · simp [read_eq_none.2 habsent] at hnode
        · simp [hjoined] at hnode
      · rintro ⟨place, report⟩ hmem
        obtain ⟨v, hv, hrejected⟩ := (mem_rejections h).1 hmem
        rcases hall place v hv with habsent | hjoined
        · exact (rejectedAs_of_absent (read_eq_none.2 habsent)).1 hrejected
        · exact absurd hrejected (not_rejectedAs_of_joined hjoined report)

/-- A rule is compiled with one warning for each of its rejected places, in their order, but for the
absent entries. It is not compiled if a text in it writes a whole number with too many digits, or if one
stands in what is turned down and has to be shown. -/
theorem compile_accounts (rule : Value) :
    (∃ p warnings rejections, compile rule = .ok (p, warnings) ∧
      Accounts rule p warnings rejections) ∨
    HasOversizedNumber rule ∧ compile rule = .error .badValue := by
  rcases compile_cases rule with ⟨entry, hentry, hcompile⟩ | hoversized
  · exact .inl ⟨_, _, _, hcompile, accounts hentry⟩
  · exact .inr hoversized

/-- An absent entry is rejected with no warning, and matches nothing. -/
theorem not_forall_length_warnings :
    (¬∀ rule p warnings rejections, compile rule = .ok (p, warnings) →
      Accounts rule p warnings rejections → warnings.length = rejections.length) ∧
    ¬∀ rule p warnings, compile rule = .ok (p, warnings) → p = .matchNone → warnings ≠ [] := by
  have hread : Entry.read .null = .ok .blank := by
    rw [Entry.read_eq]
    rfl
  have hcompile : compile .null = .ok (.matchNone, []) :=
    compile_eq_ok.2 ⟨.blank, hread, rfl, rfl⟩
  constructor
  · intro h
    cases h _ _ _ _ hcompile (accounts hread)
  · intro h
    exact h _ _ _ hcompile rfl rfl

end Rule

end Storefront
