import Storefront.Proofs.PredicateWidth
import Storefront.Proofs.SyncFailures

/-!
# Conditions that are left out of a rule

Conditions can be removed from the lists in which they stand, in a rule and in the conditions that
are rules themselves. The predicate of the rule remains as it is if none of them could be used, and
only then: the predicate is as wide as the rule has conditions that can be used, and each one that is
removed leaves it narrower.

A condition that is no mapping can be used if it is a text that writes a mapping, and not otherwise.

* `Rule.keeping`: a rule with some of its conditions
* `Node.read_keeping`, `Node.exists_read_keeping`: the node that it gives
* `Rule.Loses`: one of the conditions that are removed can be used
* `Rule.exists_read_keeping`: what is left, by induction on the rule
* `Rule.HasQuotedRule`: a usable rule is written in a text among the conditions
* `Rule.compile_withoutStray`: the rule without the conditions that are no mappings
-/

namespace Storefront

/-! ## Rules with some of their conditions -/

namespace Value

/-- The value is a mapping. -/
def isObject : Value → Bool
  | .object _ => true
  | _ => false

/-- The mapping that a text writes; every other value is left as it is. -/
def unquoted : Value → Value
  | .text s => match read s with
    | .ok (.object fields) => .object fields
    | _ => .text s
  | v => v

end Value

namespace Rule

/-- An object is a rule that joins conditions. -/
def joins (fields : Fields) : Bool :=
  match fields.lookup "type" with
  | some (.text type) => type == Node.compositeType
  | _ => false

mutual

/-- A rule with those of its conditions that are kept. The conditions that are rules themselves are
left with those of theirs that are kept. -/
def keeping (keep : Value → Bool) : Value → Value
  | .object fields => .object (if joins fields then keptFields keep fields else fields)
  | v => v

/-- The fields of a rule with those of its conditions that are kept. -/
def keptFields (keep : Value → Bool) : List (String × Value) → List (String × Value)
  | [] => []
  | (name, v) :: rest =>
    (name, if name = "conditions" then keptIn keep v else v) :: keptFields keep rest

/-- A list of conditions with those that are kept; no other value is changed. -/
def keptIn (keep : Value → Bool) : Value → Value
  | .list items => .list (keptItems keep items)
  | v => v

/-- The conditions that are kept. -/
def keptItems (keep : Value → Bool) : List Value → List Value
  | [] => []
  | item :: rest =>
    if keep item then keeping keep item :: keptItems keep rest else keptItems keep rest

end

variable {keep : Value → Bool}

mutual

/-- What is left of a value holds no whole number that the value does not hold. -/
theorem fits_keeping (keep : Value → Bool) {v : Value} (h : v.fits = true) :
    (keeping keep v).fits = true := by
  match v, h with
  | .object fields, h =>
    rw [keeping]
    split
    · exact fits_keptFields keep h
    · exact h
  | .null, h | .bool _, h | .int _, h | .float _, h | .text _, h | .list _, h => exact h

theorem fits_keptFields (keep : Value → Bool) {fields : List (String × Value)}
    (h : (Value.object fields).fits = true) : (Value.object (keptFields keep fields)).fits = true := by
  match fields, h with
  | [], h => exact h
  | (name, v) :: rest, h =>
    obtain ⟨hv, hrest⟩ := Value.fits_object_cons.1 h
    rw [keptFields]
    refine Value.fits_object_cons.2 ⟨?_, fits_keptFields keep hrest⟩
    split
    · exact fits_keptIn keep hv
    · exact hv

theorem fits_keptIn (keep : Value → Bool) {v : Value} (h : v.fits = true) :
    (keptIn keep v).fits = true := by
  match v, h with
  | .list items, h => exact fits_keptItems keep h
  | .null, h | .bool _, h | .int _, h | .float _, h | .text _, h | .object _, h => exact h

theorem fits_keptItems (keep : Value → Bool) {items : List Value}
    (h : (Value.list items).fits = true) : (Value.list (keptItems keep items)).fits = true := by
  match items, h with
  | [], h => exact h
  | item :: rest, h =>
    obtain ⟨hitem, hrest⟩ := Value.fits_list_cons.1 h
    rw [keptItems]
    split
    · exact Value.fits_list_cons.2 ⟨fits_keeping keep hitem, fits_keptItems keep hrest⟩
    · exact fits_keptItems keep hrest

end

theorem lookup_keptFields_of_ne {name : String} (hname : name ≠ "conditions") (fields : Fields) :
    (keptFields keep fields).lookup name = fields.lookup name := by
  induction fields with
  | nil => rw [keptFields]
  | cons field rest ih =>
    obtain ⟨key, v⟩ := field
    rw [keptFields, List.lookup_cons, List.lookup_cons]
    cases hkey : name == key with
    | false => exact ih
    | true =>
      have : key ≠ "conditions" := fun h => hname ((beq_iff_eq.1 hkey).trans h)
      rw [if_neg this]

theorem lookup_keptFields (fields : Fields) :
    (keptFields keep fields).lookup "conditions" =
      (fields.lookup "conditions").map (keptIn keep) := by
  induction fields with
  | nil => rw [keptFields]; rfl
  | cons field rest ih =>
    obtain ⟨key, v⟩ := field
    rw [keptFields, List.lookup_cons, List.lookup_cons]
    cases hkey : "conditions" == key with
    | false => exact ih
    | true => rw [if_pos (beq_iff_eq.1 hkey).symm, Option.map_some]

end Rule

namespace Node

variable {keep : Value → Bool}

/-- A node with those of its conditions that are kept. -/
def keeping (keep : Value → Bool) : Node → Node
  | .leaf l => .leaf l
  | .composite logic conditions => .composite logic (Rule.keptItems keep conditions)

theorem readConditions_keptIn (v : Value) :
    readConditions (Rule.keptIn keep v) = (readConditions v).map (Rule.keptItems keep) := by
  cases v <;> rfl

theorem readComposite_keptFields (fields : Fields) :
    readComposite (Rule.keptFields keep fields) = keeping keep <$> readComposite fields := by
  have hlogic : Intake.defaulted "logic" "AND" Intake.text (Rule.keptFields keep fields) =
      Intake.defaulted "logic" "AND" Intake.text fields := by
    unfold Intake.defaulted
    rw [Rule.lookup_keptFields_of_ne (by decide)]
  have hconditions : Intake.defaulted "conditions" [] readConditions (Rule.keptFields keep fields) =
      Rule.keptItems keep <$> Intake.defaulted "conditions" [] readConditions fields := by
    unfold Intake.defaulted
    rw [Rule.lookup_keptFields]
    cases fields.lookup "conditions" with
    | none =>
      show Checked.accepted [] = .accepted (Rule.keptItems keep [])
      rw [Rule.keptItems]
    | some v =>
      rw [Option.map_some]
      dsimp only
      rw [readConditions_keptIn]
      cases readConditions v <;> rfl
  unfold readComposite
  rw [hlogic, hconditions]
  cases Intake.defaulted "logic" "AND" Intake.text fields <;>
    cases Intake.defaulted "conditions" [] readConditions fields <;> rfl

theorem leaf_keeping (leaf : Checked Leaf) : keeping keep <$> (Node.leaf <$> leaf) = .leaf <$> leaf := by
  cases leaf <;> rfl

theorem readTyped_keeping {fields : Fields} {type : Value} (h : fields.lookup "type" = some type) :
    readTyped type (if Rule.joins fields then Rule.keptFields keep fields else fields) =
      keeping keep <$> readTyped type fields := by
  unfold Rule.joins
  rw [h]
  by_cases hjoins : type = .text compositeType
  · subst hjoins
    rw [if_pos (by simp)]
    exact readComposite_keptFields fields
  · have hleaf : ∀ given, readTyped type given = .leaf <$> Leaf.read given := by
      intro given
      cases type with
      | text t => exact if_neg fun ht => hjoins (by rw [ht])
      | _ => rfl
    have hno : ¬(match some type with
        | some (.text t) => t == compositeType
        | _ => false) = true := by
      cases type with
      | text t => exact fun ht => hjoins (by rw [beq_iff_eq.1 ht])
      | _ => nofun
    rw [if_neg hno, hleaf, leaf_keeping]

/-- What is left of a rule gives the node of the rule with the conditions that are kept, and none if the
rule gives none. -/
theorem ofFields_keeping (keep : Value → Bool) (fields : Fields) :
    (ofFields (if Rule.joins fields then Rule.keptFields keep fields else fields)).toOption =
      (ofFields fields).toOption.map (keeping keep) := by
  have htype : (if Rule.joins fields then Rule.keptFields keep fields else fields).lookup "type" =
      fields.lookup "type" := by
    split
    · exact Rule.lookup_keptFields_of_ne (by decide) fields
    · rfl
  unfold ofFields
  rw [htype]
  cases hlookup : fields.lookup "type" with
  | none => rfl
  | some type =>
    dsimp only
    rw [readTyped_keeping hlookup]
    cases readTyped type fields <;> rfl

theorem read_object {fields : Fields} {node : Node} (h : ofFields fields = .ok node) :
    read (.object fields) = .ok (some (.ok node)) := report_eq_ok.2 h

theorem read_keeping (keep : Value → Bool) {fields : Fields} {node : Node}
    (h : ofFields fields = .ok node) :
    read (Rule.keeping keep (.object fields)) = .ok (some (.ok (keeping keep node))) := by
  have hkept := ofFields_keeping keep fields
  rw [h] at hkept
  rw [Rule.keeping]
  cases hnode : ofFields (if Rule.joins fields then Rule.keptFields keep fields else fields) with
  | error w => rw [hnode] at hkept; cases hkept
  | ok left =>
    rw [hnode] at hkept
    cases hkept
    exact report_eq_ok.2 hnode

/-- What is left of a rule that is turned down is turned down as well. -/
theorem exists_read_keeping {fields : Fields} {w : Warning}
    (h : read (.object fields) = .ok (some (.error w))) :
    ∃ w', read (Rule.keeping keep (.object fields)) = .ok (some (.error w')) := by
  obtain ⟨hfits, hw⟩ := report_eq_warning.1 h
  have hw : ofFields fields = .error w := hw
  have hkept := ofFields_keeping keep fields
  rw [hw] at hkept
  have hleft := Rule.fits_keeping keep hfits
  rw [Rule.keeping] at hleft ⊢
  cases hnode : ofFields (if Rule.joins fields then Rule.keptFields keep fields else fields) with
  | ok node => rw [hnode] at hkept; cases hkept
  | error w' => exact ⟨w', report_eq_warning.2 ⟨hleft, hnode⟩⟩

end Node

/-! ## What is left of a rule -/

namespace Rule

variable {keep : Value → Bool}

/-- One of the conditions that are not kept can be used: a condition of the rule itself, or of a
condition that is kept. -/
inductive Loses (keep : Value → Bool) : Value → Prop
  | here {fields : Fields} {condition : Value} {logic : String} {conditions : List Value}
    (read : Node.ofFields fields = .ok (.composite logic conditions)) (mem : condition ∈ conditions)
    (dropped : keep condition = false) (usable : IsUsable condition) : Loses keep (.object fields)
  | within {fields : Fields} {condition : Value} {logic : String} {conditions : List Value}
    (read : Node.ofFields fields = .ok (.composite logic conditions)) (mem : condition ∈ conditions)
    (kept : keep condition = true) (loses : Loses keep condition) : Loses keep (.object fields)

/-- A condition is lost, or one of its own. -/
def LosesAt (keep : Value → Bool) (condition : Value) : Prop :=
  keep condition = false ∧ IsUsable condition ∨ keep condition = true ∧ Loses keep condition

theorem loses_composite {fields : Fields} {logic : String} {conditions : List Value}
    (read : Node.ofFields fields = .ok (.composite logic conditions)) :
    Loses keep (.object fields) ↔ ∃ condition ∈ conditions, LosesAt keep condition := by
  constructor
  · intro h
    cases h with
    | here read' mem dropped usable =>
      cases read.symm.trans read'
      exact ⟨_, mem, .inl ⟨dropped, usable⟩⟩
    | within read' mem kept loses =>
      cases read.symm.trans read'
      exact ⟨_, mem, .inr ⟨kept, loses⟩⟩
  · intro h
    obtain ⟨condition, mem, ⟨dropped, usable⟩ | ⟨kept, loses⟩⟩ := h
    · exact .here read mem dropped usable
    · exact .within read mem kept loses

/-- A value that joins no conditions loses none. -/
theorem not_loses {v : Value}
    (h : ∀ fields logic conditions, v = .object fields →
      Node.ofFields fields ≠ .ok (.composite logic conditions)) : ¬Loses keep v := by
  intro hloses
  cases hloses with
  | here read => exact h _ _ _ rfl read
  | within read => exact h _ _ _ rfl read

end Rule

namespace Entry

variable {keep : Value → Bool}

/-- What is left of an entry: it is narrower if something that can be used is lost, and has the same
predicate if not. -/
structure IsLeft (lost : Prop) (entry left : Entry) : Prop where
  narrower : lost → left.predicate.width < entry.predicate.width
  same : ¬lost → left.predicate? = entry.predicate?

/-- What is left of a list of entries. -/
structure AreLeft (lost : Prop) (entries left : List Entry) : Prop where
  narrower : lost → totalWidth left < totalWidth entries
  same : ¬lost → predicate?.predicates left = predicate?.predicates entries

theorem IsLeft.width_le {lost : Prop} {entry left : Entry} (h : IsLeft lost entry left) :
    left.predicate.width ≤ entry.predicate.width := by
  by_cases hlost : lost
  · exact Nat.le_of_lt (h.narrower hlost)
  · rw [predicate, h.same hlost, predicate]

theorem AreLeft.totalWidth_le {lost : Prop} {entries left : List Entry}
    (h : AreLeft lost entries left) : totalWidth left ≤ totalWidth entries := by
  by_cases hlost : lost
  · exact Nat.le_of_lt (h.narrower hlost)
  · rw [← sum_width_predicates, h.same hlost, sum_width_predicates]

theorem IsLeft.refl {lost : Prop} (h : ¬lost) (entry : Entry) : IsLeft lost entry entry :=
  ⟨fun hlost => absurd hlost h, fun _ => rfl⟩

/-- A group is left with what is left of its entries. -/
theorem AreLeft.group {lost : Prop} {entries left : List Entry} (h : AreLeft lost entries left)
    (logic : String) : IsLeft lost (group logic entries) (group logic left) := by
  constructor
  · intro hlost
    rw [width_group, width_group]
    exact h.narrower hlost
  · intro hlost
    rw [predicate?, predicate?, h.same hlost]

theorem predicates_cons (entry : Entry) (entries : List Entry) :
    predicate?.predicates (entry :: entries) =
      entry.predicate?.toList ++ predicate?.predicates entries := by
  rw [predicate?.predicates]
  cases entry.predicate? <;> rfl

/-- The first entry is left with something, and those after it. -/
theorem AreLeft.cons {lost lost' : Prop} {entry left : Entry} {entries rest : List Entry}
    (h : IsLeft lost entry left) (h' : AreLeft lost' entries rest) :
    AreLeft (lost ∨ lost') (entry :: entries) (left :: rest) := by
  constructor
  · intro hlost
    rw [totalWidth_cons, totalWidth_cons]
    have := h.width_le
    have := h'.totalWidth_le
    rcases hlost with hlost | hlost
    · have := h.narrower hlost
      omega
    · have := h'.narrower hlost
      omega
  · intro hlost
    rw [not_or] at hlost
    rw [predicates_cons, predicates_cons, h.same hlost.1, h'.same hlost.2]

/-- The first entry is lost. -/
theorem AreLeft.drop {lost' : Prop} {entry : Entry} {entries rest : List Entry}
    (h' : AreLeft lost' entries rest) :
    AreLeft ((∃ p, entry.predicate? = some p) ∨ lost') (entry :: entries) rest := by
  constructor
  · intro hlost
    rw [totalWidth_cons]
    have := h'.totalWidth_le
    rcases hlost with ⟨p, hp⟩ | hlost
    · have hpos := width_pos hp
      rw [predicate, hp, Option.getD_some]
      omega
    · have := h'.narrower hlost
      omega
  · intro hlost
    rw [not_or] at hlost
    have hnone : entry.predicate? = none := by
      cases hp : entry.predicate? with
      | none => rfl
      | some p => exact absurd ⟨p, hp⟩ hlost.1
    rw [predicates_cons, hnone, h'.same hlost.2]
    rfl

theorem AreLeft.congr {lost lost' : Prop} {entries left : List Entry} (h : AreLeft lost entries left)
    (heq : lost ↔ lost') : AreLeft lost' entries left :=
  ⟨fun hlost => h.narrower (heq.2 hlost), fun hlost => h.same fun h' => hlost (heq.1 h')⟩

end Entry

namespace Rule

variable {keep : Value → Bool}

/-- What is left of a list of conditions, given what is left of each. -/
theorem exists_mapM_keptItems {items : List Value} {entries : List Entry}
    (h : items.mapM Entry.read = .ok entries)
    (hitems : ∀ item ∈ items, ∀ entry, Entry.read item = .ok entry →
      ∃ left, Entry.read (keeping keep item) = .ok left ∧ Entry.IsLeft (Loses keep item) entry left) :
    ∃ left, (keptItems keep items).mapM Entry.read = .ok left ∧
      Entry.AreLeft (∃ item ∈ items, LosesAt keep item) entries left := by
  induction items generalizing entries with
  | nil =>
    cases h
    exact ⟨[], by rw [keptItems]; rfl, by simp, fun _ => rfl⟩
  | cons item items ih =>
    obtain ⟨entry, rest, hentry, hrest, rfl⟩ := mapM_cons_eq_ok.1 h
    obtain ⟨lefts, hlefts, hareLeft⟩ :=
      ih hrest fun other hother => hitems other (List.mem_cons_of_mem item hother)
    have hsplit : (∃ other ∈ item :: items, LosesAt keep other) ↔
        LosesAt keep item ∨ ∃ other ∈ items, LosesAt keep other := by simp
    rw [keptItems]
    -- a condition that is kept is left with something; one that is not is lost if it can be used
    cases hkeep : keep item with
    | true =>
      obtain ⟨left, hleft, hisLeft⟩ := hitems item List.mem_cons_self entry hentry
      refine ⟨left :: lefts, mapM_cons_eq_ok.2 ⟨left, lefts, hleft, hlefts, rfl⟩, ?_⟩
      refine (Entry.AreLeft.cons hisLeft hareLeft).congr (Iff.trans (or_congr_left ?_) hsplit.symm)
      simp [LosesAt, hkeep]
    | false =>
      refine ⟨lefts, hlefts, hareLeft.drop.congr (Iff.trans (or_congr_left ?_) hsplit.symm)⟩
      rw [← isUsable_iff hentry]
      simp [LosesAt, hkeep]

/-- What is left of a rule when only some of its conditions are kept, by induction on the rule. -/
theorem exists_read_keeping (keep : Value → Bool) {rule : Value} {entry : Entry}
    (h : Entry.read rule = .ok entry) :
    ∃ left, Entry.read (keeping keep rule) = .ok left ∧
      Entry.IsLeft (Loses keep rule) entry left := by
  have hsame (hno : ¬Loses keep rule) (heq : Entry.read (keeping keep rule) = Entry.read rule) :
      ∃ left, Entry.read (keeping keep rule) = .ok left ∧
        Entry.IsLeft (Loses keep rule) entry left :=
    ⟨entry, heq.trans h, .refl hno entry⟩
  match rule, h with
  -- only a mapping can join conditions, and they are smaller than the rule
  | .object fields, h =>
    match hfields : Node.ofFields fields with
    | .error w =>
      have hno : ¬Loses keep (.object fields) := by
        refine not_loses ?_
        intro fields' logic conditions heq hread
        cases heq
        cases hfields.symm.trans hread
      rcases Entry.read_cases h with ⟨hnode, -⟩ | ⟨w', hnode, rfl⟩ | ⟨l, hnode, -⟩ |
        ⟨logic, conditions, -, hnode, -, -⟩
      · exact absurd hnode (Node.report_ne_none _)
      · obtain ⟨left, hleft⟩ := Node.exists_read_keeping hnode
        refine ⟨.rejected left, ?_, fun hloses => absurd hloses hno, fun _ => rfl⟩
        rw [Entry.read_eq, hleft]
      · cases hfields.symm.trans (Node.report_eq_ok.1 hnode)
      · cases hfields.symm.trans (Node.report_eq_ok.1 hnode)
    | .ok (.leaf l) =>
      refine hsame (not_loses ?_) ?_
      · intro fields' logic conditions heq hread
        cases heq
        cases hfields.symm.trans hread
      · rw [Entry.read_eq, Entry.read_eq, Node.read_keeping keep hfields, Node.read_object hfields]
        rfl
    | .ok (.composite logic conditions) =>
      have hnode := Node.read_object hfields
      have hkeeping := Node.read_keeping keep hfields
      rw [Entry.read_eq, hnode] at h
      obtain ⟨entries, hentries, hgroup⟩ := bind_eq_ok.1 h
      cases hgroup
      have hconditions : ∀ condition ∈ conditions, ∀ entry, Entry.read condition = .ok entry →
          ∃ left, Entry.read (keeping keep condition) = .ok left ∧
            Entry.IsLeft (Loses keep condition) entry left := by
        intro condition hcondition entry hentry
        have := Node.weight_lt_of_mem hnode hcondition
        exact exists_read_keeping keep hentry
      obtain ⟨left, hleft, hareLeft⟩ := exists_mapM_keptItems hentries hconditions
      refine ⟨.group logic left, ?_, (hareLeft.congr (loses_composite hfields).symm).group logic⟩
      rw [Entry.read_eq, hkeeping]
      exact bind_eq_ok.2 ⟨left, hleft, rfl⟩
  | .null, _ | .bool _, _ | .int _, _ | .float _, _ | .text _, _ | .list _, _ =>
    exact hsame (not_loses nofun) (by rw [keeping]; nofun)
termination_by rule.weight

/-- The rule that is left has the same predicate unless a usable condition is lost. -/
theorem exists_compile_keeping (keep : Value → Bool) {rule : Value} {p : Predicate}
    {warnings : List Warning} (h : compile rule = .ok (p, warnings)) :
    ∃ q rest, compile (keeping keep rule) = .ok (q, rest) ∧ (q = p ↔ ¬Loses keep rule) := by
  obtain ⟨entry, hentry, rfl, rfl⟩ := compile_eq_ok.1 h
  obtain ⟨left, hleft, hisLeft⟩ := exists_read_keeping keep hentry
  refine ⟨left.predicate, left.warnings, compile_eq_ok.2 ⟨left, hleft, rfl, rfl⟩, ?_, ?_⟩
  · intro heq hloses
    have := hisLeft.narrower hloses
    rw [heq] at this
    exact Nat.lt_irrefl _ this
  · intro hloses
    rw [Entry.predicate, hisLeft.same hloses, Entry.predicate]

end Rule

/-! ## Conditions that are no mappings -/

theorem Value.unquoted_eq_object {v : Value} {fields : Fields} :
    v.unquoted = .object fields ↔
      v = .object fields ∨ ∃ s, v = .text s ∧ read s = .ok (.object fields) := by
  cases v with
  | text s =>
    rw [unquoted]
    split
    · rename_i fields' hread
      simp [hread]
    · rename_i hread
      simp only [reduceCtorEq, false_or, text.injEq, exists_eq_left', false_iff]
      exact hread fields
  | _ => simp [unquoted]

/-- The empty text writes nothing. -/
theorem Value.read_empty (v : Value) : read "" ≠ .ok v := by
  intro h
  have := weight_read_le h
  have := v.weight_pos
  have : "".length = 0 := rfl
  omega

/-- A text is read as the mapping that it writes. -/
theorem Node.read_unquoted (v : Value) : read v.unquoted = read v := by
  cases v with
  | text s =>
    rw [Value.unquoted]
    split
    · rename_i fields hread
      have hne : ¬s.isEmpty = true := by
        intro hempty
        rw [String.isEmpty_iff.1 hempty] at hread
        exact Value.read_empty _ hread
      rw [read_text, if_neg hne, hread]
      rfl
    · rfl
  | _ => rfl

/-- Nodes are read from mappings, and from texts that write one. -/
theorem Node.exists_fields {v : Value} {node : Node} (h : read v = .ok (some (.ok node))) :
    ∃ fields, v.unquoted = .object fields ∧ ofFields fields = .ok node := by
  have hobject : ∀ w, ofValue w = .ok node → ∃ fields, w = .object fields ∧
      ofFields fields = .ok node := by
    intro w hw
    cases w with
    | object fields => exact ⟨fields, rfl, hw⟩
    | _ => cases hw
  cases v with
  | null => cases h
  | text s =>
    rw [read_text] at h
    split at h
    · cases h
    · split at h
      · rename_i w hread
        obtain ⟨fields, rfl, hfields⟩ := hobject w (report_eq_ok.1 h)
        exact ⟨fields, Value.unquoted_eq_object.2 (.inr ⟨s, rfl, hread⟩), hfields⟩
      · cases h
      · cases h
  | object fields => exact hobject (.object fields) (report_eq_ok.1 h)
  | bool _ | int _ | float _ | list _ =>
    rw [read_eq_report (by simp) (by simp)] at h
    cases report_eq_ok.1 h

namespace Rule

/-- Some condition is a text in which a rule is written that can be used: a condition of the rule
itself, or of a condition that is a mapping. -/
inductive HasQuotedRule : Value → Prop
  | here {rule : Value} {logic s : String} {conditions : List Value} {fields : Fields}
    (read : Node.read rule = .ok (some (.ok (.composite logic conditions))))
    (mem : .text s ∈ conditions) (writes : Value.read s = .ok (.object fields))
    (usable : IsUsable (.object fields)) : HasQuotedRule rule
  | within {rule : Value} {logic : String} {conditions : List Value} {fields : Fields}
    (read : Node.read rule = .ok (some (.ok (.composite logic conditions))))
    (mem : .object fields ∈ conditions) (quoted : HasQuotedRule (.object fields)) :
    HasQuotedRule rule

/-- Whether a rule can be used depends on its node only. -/
theorem isUsable_congr {v w : Value} (h : Node.read v = Node.read w) (hv : IsUsable v) :
    IsUsable w := by
  cases hv with
  | leaf read usable => exact .leaf (h.symm.trans read) usable
  | composite read mem usable => exact .composite (h.symm.trans read) mem usable

theorem exists_fields_of_isUsable {v : Value} (h : IsUsable v) :
    ∃ fields, v.unquoted = .object fields := by
  cases h with
  | leaf read | composite read =>
    obtain ⟨fields, hfields, -⟩ := Node.exists_fields read
    exact ⟨fields, hfields⟩

theorem hasQuotedRule_of_loses {v : Value} (h : Loses Value.isObject v) : HasQuotedRule v := by
  induction h with
  | here read mem dropped usable =>
    rename_i fields condition logic conditions
    obtain ⟨inner, hinner⟩ := exists_fields_of_isUsable usable
    have husable : IsUsable (.object inner) :=
      hinner ▸ isUsable_congr (Node.read_unquoted condition).symm usable
    rcases Value.unquoted_eq_object.1 hinner with rfl | ⟨s, rfl, hread⟩
    · cases dropped
    · exact .here (Node.read_object read) mem hread husable
  | within read mem kept loses ih =>
    rename_i fields condition logic conditions
    cases condition with
    | object inner => exact .within (Node.read_object read) mem ih
    | _ => cases kept

/-- The conditions that are lost with those that are no mappings are texts. -/
theorem hasQuotedRule_iff {rule : Value} :
    HasQuotedRule rule ↔ Loses Value.isObject rule.unquoted := by
  constructor
  · intro h
    induction h with
    | here read mem writes usable =>
      rename_i rule logic s conditions inner
      obtain ⟨fields, hfields, hnode⟩ := Node.exists_fields read
      have hunquoted : (Value.text s).unquoted = .object inner :=
        Value.unquoted_eq_object.2 (.inr ⟨s, rfl, writes⟩)
      have husable : IsUsable (.text s) :=
        isUsable_congr (hunquoted ▸ Node.read_unquoted (.text s)) usable
      rw [hfields]
      exact .here hnode mem rfl husable
    | within read mem quoted ih =>
      obtain ⟨fields, hfields, hnode⟩ := Node.exists_fields read
      rw [hfields]
      exact .within hnode mem rfl ih
  · intro h
    have hread := Node.read_unquoted rule
    cases hasQuotedRule_of_loses h with
    | here read mem writes usable => exact .here (hread.symm.trans read) mem writes usable
    | within read mem quoted => exact .within (hread.symm.trans read) mem quoted

/-- The rule without the conditions that are no mappings, at any depth. -/
def withoutStray (rule : Value) : Value := keeping Value.isObject rule.unquoted

/-- The rule without the conditions that neither are mappings nor write one, at any depth. -/
def withoutIdle (rule : Value) : Value := keeping (fun v => v.unquoted.isObject) rule.unquoted

theorem not_loses_idle (v : Value) : ¬Loses (fun v => v.unquoted.isObject) v := by
  intro h
  induction h with
  | here read mem dropped usable =>
    obtain ⟨inner, hinner⟩ := exists_fields_of_isUsable usable
    rw [hinner] at dropped
    cases dropped
  | within read mem kept loses ih => exact ih

theorem compile_unquoted (rule : Value) : compile rule.unquoted = compile rule := by
  unfold compile
  rw [Entry.read_eq, Node.read_unquoted, ← Entry.read_eq]

/-- A rule that is compiled keeps its predicate without its conditions that are no mappings, unless one
of them is a text in which a usable rule is written. Those that write no mapping never count. A rule is
not compiled if a text in it writes a whole number with too many digits, or if one stands in what is
turned down and has to be shown. -/
theorem compile_withoutStray (rule : Value) :
    (∃ p warnings, compile rule = .ok (p, warnings) ∧
      (∃ q rest, compile (withoutStray rule) = .ok (q, rest) ∧ (q = p ↔ ¬HasQuotedRule rule)) ∧
      ∃ rest, compile (withoutIdle rule) = .ok (p, rest)) ∨
    HasOversizedNumber rule ∧ compile rule = .error .badValue := by
  rcases compile_cases rule with ⟨entry, hentry, hcompile⟩ | hoversized
  · have hunquoted := (compile_unquoted rule).trans hcompile
    refine .inl ⟨_, _, hcompile, ?_, ?_⟩
    · rw [hasQuotedRule_iff]
      exact exists_compile_keeping _ hunquoted
    · obtain ⟨q, rest, hq, hiff⟩ := exists_compile_keeping (fun v => v.unquoted.isObject) hunquoted
      rw [hiff.2 (not_loses_idle _)] at hq
      exact ⟨rest, hq⟩
  · exact .inr hoversized

/-- Two conditions, of which one is written in a text. -/
def halfQuoted : Value :=
  .object [("type", .text "multiple"),
    ("conditions", .list [.object [("type", .text "vendor"), ("value", .text "Acme")],
      .text "\x7b\"type\": \"in_stock\"\x7d"])]

/-- A text among the conditions can count. -/
theorem not_forall_compile_withoutStray :
    ¬∀ rule p warnings, compile rule = .ok (p, warnings) →
      ∃ rest, compile (withoutStray rule) = .ok (p, rest) := by
  intro h
  have hwidth (rule : Value) (n : Nat)
      (hrule : (compile rule).toOption.map (fun compiled => compiled.1.width) = some n) :
      ∃ p warnings, compile rule = .ok (p, warnings) ∧ p.width = n := by
    obtain ⟨⟨p, warnings⟩, hcompile, hp⟩ := exists_of_toOption_map_eq_some hrule
    exact ⟨p, warnings, hcompile, hp⟩
  obtain ⟨p, warnings, hp, htwo⟩ := hwidth halfQuoted 2 (by decide +kernel)
  obtain ⟨q, rest, hq, hone⟩ := hwidth (withoutStray halfQuoted) 1 (by decide +kernel)
  obtain ⟨rest', hsame⟩ := h _ _ _ hp
  cases hq.symm.trans hsame
  omega

end Rule

end Storefront
