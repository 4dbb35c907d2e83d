import Storefront.Catalog.Intake
import Storefront.Json.Display
import Storefront.Json.Reader

/-!
# Rule nodes

The rule of a smart collection is a tree. A node is a single condition, or conditions joined by a
logic word; it is read from an object, or from JSON text that writes one. What is no node is turned
down with a warning that shows it. That fails where a whole number in it is too long to be written.

* `Leaf`, `Node`: the nodes
* `Warning`: what is reported about rules
* `Node.report`: a value that is turned down is shown
* `Node.read`: the node that a value gives
-/

namespace Storefront

/-- A single condition. -/
structure Leaf where
  type : String
  value : Option String := none
  minPrice : Option Binary64 := none
  maxPrice : Option Binary64 := none
deriving DecidableEq

/-- A node of a rule: one condition, or conditions that are still to be read. -/
inductive Node where
  | leaf (leaf : Leaf)
  | composite (logic : String) (conditions : List Value)

/-- What is reported about a rule that is not used as it stands; one that is turned down is shown. -/
inductive Warning where
  | unparsableText
  | noType (rule : String)
  | invalidShape (rule : String) (faults : Nat)
  | unusableLeaf (type : String)
deriving DecidableEq

namespace Warning

/-- The level at which a warning is logged. -/
def level : String := "WARNING"

/-- The wording of a warning. -/
def message : Warning → String
  | .unparsableText => "Ignoring unparsable rule JSON"
  | .noType _ => "Ignoring rule without a type"
  | .invalidShape _ _ => "Ignoring invalid rule"
  | .unusableLeaf _ => "Rule condition has no usable predicate"

/-- The rule that a warning shows. -/
def rule? : Warning → Option String
  | .noType rule | .invalidShape rule _ => some rule
  | .unparsableText | .unusableLeaf _ => none

/-- What a warning says beyond its wording and the rule it shows. -/
def details : Warning → Fields
  | .unparsableText | .noType _ => []
  | .invalidShape _ faults => [("error_count", .int faults)]
  | .unusableLeaf type => [("rule_type", .text type)]

/-- The fields that are logged with a warning. -/
def extra (w : Warning) : Fields :=
  (w.rule?.map fun rule => ("rule", .text rule)).toList ++ w.details

end Warning

/-! ## Reading nodes -/

namespace Leaf

/-- The value of a condition: a text, or a number that is turned into one. -/
def readValue : Value → Except Refusal String
  | .int n =>
    if maxWholeDigits < (Nat.toDigits 10 n.natAbs).length then .error .badNumber
    else .ok (intText n)
  | .float x => .ok x.text
  | v => Intake.text v

/-- A bound of a price range, under either of its names. -/
def readBound (name other : String) (fields : Fields) : Checked (Option Binary64) :=
  if (fields.lookup name).isSome then Intake.optional name Intake.number fields
  else Intake.optional other Intake.number fields

/-- The condition that an object gives. -/
def read (fields : Fields) : Checked Leaf :=
  (fun type value minPrice maxPrice => { type, value, minPrice, maxPrice })
  <$> Intake.required "type" Intake.text fields
  <*> Intake.optional "value" readValue fields
  <*> readBound "min_price" "minPrice" fields
  <*> readBound "max_price" "maxPrice" fields

end Leaf

namespace Node

/-- The type of the nodes that join conditions. -/
def compositeType : String := "multiple"

/-- The items of a list. -/
def readConditions : Value → Except Refusal (List Value)
  | .list items => .ok items
  | _ => .error .notList

/-- The joined conditions that an object gives. -/
def readComposite (fields : Fields) : Checked Node :=
  (fun logic conditions => .composite logic conditions)
  <$> Intake.defaulted "logic" "AND" Intake.text fields
  <*> Intake.defaulted "conditions" [] readConditions fields

/-- The node that an object of a type gives. -/
def readTyped (type : Value) (fields : Fields) : Checked Node :=
  match type with
  | .text t => if t = compositeType then readComposite fields else .leaf <$> Leaf.read fields
  | _ => .leaf <$> Leaf.read fields

/-- The outcome of reading a node, with a warning in place of the refused fields. -/
def orWarning (rule : String) : Checked Node → Except Warning Node
  | .accepted node => .ok node
  | .refused faults => .error (.invalidShape rule faults.length)

/-- The node that an object gives, or the warning with which it is turned down. -/
def ofFields (fields : Fields) : Except Warning Node :=
  match fields.lookup "type" with
  | none => .error (.noType (Value.object fields).quotedForm)
  | some type => orWarning (Value.object fields).quotedForm (readTyped type fields)

/-- The node that a value gives, or the warning with which it is turned down. -/
def ofValue : Value → Except Warning Node
  | .object fields => ofFields fields
  | v => .error (.noType v.quotedForm)

/-- What a value that is no text gives: a node, or a warning. A value that is turned down fails if it
holds a whole number that is too long to be shown. -/
def report (v : Value) : Except Failure (Option (Except Warning Node)) :=
  match ofValue v with
  | .ok node => .ok (some (.ok node))
  | .error w => if v.fits then .ok (some (.error w)) else .error .badValue

/-- What a value gives when it is read as a rule: nothing for null and the empty text, or else a
node or a warning. A text is JSON; one with an oversized whole number in it fails. -/
def read : Value → Except Failure (Option (Except Warning Node))
  | .null => .ok none
  | .text s =>
    if s.isEmpty then .ok none
    else match Value.read s with
      | .ok v => report v
      | .error (.malformed _) => .ok (some (.error .unparsableText))
      | .error .wholeTooLong => .error .badValue
  | v => report v

theorem read_eq_report {v : Value} (hnull : v ≠ .null) (htext : ∀ s, v ≠ .text s) :
    read v = report v := by
  cases v with
  | null => exact absurd rfl hnull
  | text s => exact absurd rfl (htext s)
  | _ => rfl

/-! ## The conditions of a node are smaller -/

theorem weights_readComposite {fields : Fields} {logic : String} {conditions : List Value}
    (h : readComposite fields = .accepted (.composite logic conditions)) :
    Value.weight.weights conditions ≤ Value.weight.fieldWeights fields := by
  obtain ⟨g, conds, hg, hc, hn⟩ := Checked.seq_eq_accepted h
  obtain ⟨l, -, rfl⟩ := Checked.map_eq_accepted hg
  cases hn
  unfold Intake.defaulted at hc
  split at hc
  · rename_i v hv
    cases v <;> simp only [readConditions, Checked.ofField] at hc <;> cases hc
    have := Value.weight_le_fieldWeights hv
    simp only [Value.weight] at this
    omega
  · cases hc
    simp [Value.weight.weights]

theorem weights_readTyped {type : Value} {fields : Fields} {logic : String}
    {conditions : List Value}
    (h : readTyped type fields = .accepted (.composite logic conditions)) :
    Value.weight.weights conditions ≤ Value.weight.fieldWeights fields := by
  have leafCase : Node.leaf <$> Leaf.read fields ≠ .accepted (.composite logic conditions) := by
    intro hnode
    obtain ⟨leaf, -, hleaf⟩ := Checked.map_eq_accepted hnode
    cases hleaf
  unfold readTyped at h
  split at h
  · split at h
    · exact weights_readComposite h
    · exact (leafCase h).elim
  · exact (leafCase h).elim

theorem weights_ofFields {fields : Fields} {logic : String} {conditions : List Value}
    (h : ofFields fields = .ok (.composite logic conditions)) :
    Value.weight.weights conditions ≤ Value.weight.fieldWeights fields := by
  unfold ofFields at h
  split at h
  · cases h
  · rename_i type _
    cases hnode : readTyped type fields with
    | accepted node =>
      rw [hnode] at h
      cases h
      exact weights_readTyped hnode
    | refused faults => rw [hnode] at h; cases h

theorem report_eq_ok {v : Value} {node : Node} :
    report v = .ok (some (.ok node)) ↔ ofValue v = .ok node := by
  unfold report
  cases ofValue v with
  | ok node => simp
  | error w => cases v.fits <;> simp

@[simp] theorem report_ne_none (v : Value) : report v ≠ .ok none := by
  unfold report
  cases ofValue v with
  | ok node => simp
  | error w => cases v.fits <;> simp

theorem weights_ofValue {v : Value} {logic : String} {conditions : List Value}
    (h : ofValue v = .ok (.composite logic conditions)) :
    Value.weight.weights conditions < v.weight := by
  cases v <;> simp only [ofValue] at h <;> try cases h
  have := weights_ofFields h
  simp only [Value.weight]
  omega

/-- The conditions of a node weigh less than the value it was read from. -/
theorem weights_read {v : Value} {logic : String} {conditions : List Value}
    (h : read v = .ok (some (.ok (.composite logic conditions)))) :
    Value.weight.weights conditions < v.weight := by
  cases v with
  | text s =>
    simp only [read] at h
    split at h
    · cases h
    · split at h
      · rename_i w hw
        have := weights_ofValue (report_eq_ok.1 h)
        have := Value.weight_read_le hw
        simp only [Value.weight]
        omega
      · cases h
      · cases h
  | null => cases h
  | _ =>
    rw [read_eq_report (by simp) (by simp)] at h
    exact weights_ofValue (report_eq_ok.1 h)

end Node

end Storefront
