import Storefront.Outcome
import Storefront.Proofs.WrittenValues
import Storefront.Service.Log

/-!
# Lines of the log

The line of a record, read as JSON, says when and where the record was made, how grave it is, by
whom it was logged and what its message is, and carries its further fields under `context`. No
further field takes the place of what the line says itself, but one may take the place of the
question for the message, and then there is no line at all.

* `LogRecord.IsOrdinary`, `LogRecord.fits`: records with a line
* `LogRecord.content`: what their lines say
* `LogRecord.IsOrdinary.entry_eq`: the entry of a record
* `LogRecord.written_of_isOrdinary`: the line of a record, or why there is none
-/

namespace Storefront.LogRecord

variable {r : LogRecord} {moment : Moment} {message : String}

/-! ## Records with a line -/

/-- The further fields of a record are none of its attributes, each is there once, and a text says
which values they have. -/
structure IsOrdinary (r : LogRecord) : Prop where
  exact : (Value.object r.extra).IsExact
  foreign : ∀ name ∈ r.extra.map Prod.fst, name ∉ attributes

/-- Level, function and line of a record are not too long to be written. -/
def ownFits (r : LogRecord) : Bool :=
  (Value.int r.level).fits && r.function.fits && (Value.int r.line).fits

/-- No whole number in a record is too long to be written. -/
def fits (r : LogRecord) : Bool := r.ownFits && (Value.object r.extra).fits

/-- A further field is asked for the message instead of the record. -/
def Shadows (r : LogRecord) : Prop := messageMethod ∈ r.extra.map Prod.fst

instance (r : LogRecord) : Decidable r.Shadows := inferInstanceAs (Decidable (_ ∈ _))

/-- What the line of a record says at a moment with a message. -/
def content (r : LogRecord) (moment : Moment) (message : String) : Fields :=
  let source := ":".intercalate [stemOf r.file, r.function.shown, intText r.line]
  [("timestamp", .text moment.iso), ("level", .text (Level.name r.level)),
    ("logger", .text r.logger), ("message", .text message), ("source", .text source)] ++
  if r.extra.isEmpty then [] else [("context", .object r.extra)]

/-! ## Attributes and further fields -/

theorem IsOrdinary.context_eq (h : r.IsOrdinary) : r.context = r.extra := by
  refine List.filter_eq_self.2 fun field hfield => ?_
  have hforeign := h.foreign field.1 (List.mem_map_of_mem hfield)
  simpa using hforeign

/-- No further field takes the place of an attribute. -/
theorem IsOrdinary.attributeOr_eq (h : r.IsOrdinary) {name : String} (hname : name ∈ attributes)
    (own : Value) : r.attributeOr name own = own := by
  have hnone : r.extra.lookup name = none := by
    refine List.lookup_eq_none_iff.2 fun field hfield => ?_
    have hforeign := h.foreign field.1 (List.mem_map_of_mem hfield)
    simpa using fun heq : name = field.1 => hforeign (heq ▸ hname)
  rw [attributeOr, hnone, Option.getD_none]

theorem IsOrdinary.shownOr_eq (h : r.IsOrdinary) {name : String} (hname : name ∈ attributes)
    (own : Value) : r.shownOr name own = if own.fits then .ok own.shown else .error .badValue := by
  rw [shownOr, h.attributeOr_eq hname]

theorem isSome_lookup_messageMethod :
    (r.extra.lookup messageMethod).isSome = true ↔ r.Shadows := by
  rw [List.lookup_isSome_iff, Shadows, List.mem_map]
  exact exists_congr fun field => and_congr_right fun _ => by rw [beq_iff_eq, eq_comm]

theorem IsOrdinary.message_eq (h : r.IsOrdinary) : r.message =
    if r.Shadows then .error .wrongType else Template.message r.template r.arguments := by
  unfold LogRecord.message
  rw [h.shownOr_eq (by decide)]
  by_cases hshadows : r.Shadows
  · rw [if_pos hshadows, if_pos (isSome_lookup_messageMethod.2 hshadows)]
    rfl
  · rw [if_neg hshadows, if_neg (mt isSome_lookup_messageMethod.1 hshadows)]
    rfl

theorem IsOrdinary.source_eq (h : r.IsOrdinary) : r.source =
    if r.function.fits && (Value.int r.line).fits then
      .ok (":".intercalate [stemOf r.file, r.function.shown, intText r.line])
    else .error .badValue := by
  rw [source, h.shownOr_eq (by decide), h.shownOr_eq (by decide), h.shownOr_eq (by decide)]
  cases r.function.fits <;> cases (Value.int r.line).fits <;> rfl

/-- The entry of a record without a shadowed message. -/
theorem IsOrdinary.entry_eq (h : r.IsOrdinary) (hmoment : momentOfSeconds r.created = .ok moment)
    (hmessage : Template.message r.template r.arguments = .ok message) (hshadows : ¬r.Shadows) :
    r.entry = if r.ownFits then .ok (r.content moment message) else .error .badValue := by
  unfold entry
  rw [hmoment, h.message_eq, if_neg hshadows, hmessage, h.source_eq, h.attributeOr_eq (by decide),
    h.attributeOr_eq (by decide), h.context_eq, ownFits, Bool.and_assoc]
  cases (Value.int r.level).fits with
  | false => rfl
  | true =>
    cases r.function.fits && (Value.int r.line).fits with
    | false => rfl
    | true =>
      show Except.ok (if r.extra.isEmpty then _ else _) = Except.ok (r.content moment message)
      unfold content
      cases r.extra.isEmpty <;> rfl

/-! ## What a line says -/

theorem IsOrdinary.isExact_content (h : r.IsOrdinary) :
    (Value.object (r.content moment message)).IsExact := by
  unfold content
  refine .object ?_ (List.forall_mem_append.2 ⟨?_, ?_⟩)
  · cases r.extra.isEmpty <;> simp
  · simp only [List.forall_mem_cons]
    exact ⟨.text _, .text _, .text _, .text _, .text _, by simp⟩
  · cases r.extra.isEmpty with
    | true => simp
    | false => simpa using h.exact

theorem fits_content (r : LogRecord) (moment : Moment) (message : String) :
    (Value.object (r.content moment message)).fits = (Value.object r.extra).fits := by
  cases hextra : r.extra.isEmpty with
  | true =>
    rw [content, hextra, Value.fits_object, List.isEmpty_iff.1 hextra]
    rfl
  | false =>
    rw [content, hextra, Value.fits_object]
    simp [Value.fits]

/-- The line of an ordinary record. -/
theorem IsOrdinary.exists_written (h : r.IsOrdinary)
    (hmoment : momentOfSeconds r.created = .ok moment)
    (hmessage : Template.message r.template r.arguments = .ok message) (hshadows : ¬r.Shadows)
    (hfits : r.fits = true) : ∃ text, r.written = .ok text ∧ text.toList.all isPlainChar = true ∧
      Value.read text = .ok (.object (r.content moment message)) := by
  obtain ⟨hown, hextra⟩ := Bool.and_eq_true_iff.1 hfits
  have hcontent : (Value.object (r.content moment message)).fits = true := by rwa [fits_content]
  refine ⟨(Value.object (r.content moment message)).written, ?_, ?_, ?_⟩
  · rw [written, h.entry_eq hmoment hmessage hshadows, if_pos hown]
    exact if_pos hcontent
  · rw [Value.written, String.toList_ofList]
    exact h.isExact_content.all_chars
  · exact Value.read_written h.isExact_content hcontent

theorem IsOrdinary.written_of_not_fits (h : r.IsOrdinary)
    (hmoment : momentOfSeconds r.created = .ok moment)
    (hmessage : Template.message r.template r.arguments = .ok message) (hshadows : ¬r.Shadows)
    (hfits : r.fits = false) : r.written = .error .badValue := by
  rw [written, h.entry_eq hmoment hmessage hshadows]
  cases hown : r.ownFits with
  | false => rfl
  | true =>
    rw [fits, hown, Bool.true_and, ← fits_content r moment message] at hfits
    show (if (Value.object (r.content moment message)).fits then _ else _) = _
    rw [hfits]
    rfl

/-- A record that does not answer for its message has no line. -/
theorem IsOrdinary.written_of_shadows (h : r.IsOrdinary)
    (hmoment : momentOfSeconds r.created = .ok moment) (hshadows : r.Shadows) :
    r.written = .error (if (Value.int r.level).fits then .wrongType else .badValue) := by
  unfold written entry
  rw [hmoment, h.message_eq, if_pos hshadows]
  cases (Value.int r.level).fits <;> rfl

/-- An ordinary record whose message can be formatted has a line of printable ASCII, from which
what the record says is read, its message character for character and its further fields, if any,
under `context`. There is no line if a further field is asked for the message or if a whole number
is too long to be written. -/
theorem written_of_isOrdinary (h : r.IsOrdinary)
    (hmoment : momentOfSeconds r.created = .ok moment)
    (hmessage : Template.message r.template r.arguments = .ok message) :
    (¬r.Shadows → r.fits = true → ∃ text, r.written = .ok text ∧
      text.toList.all isPlainChar = true ∧
      Value.read text = .ok (.object (r.content moment message))) ∧
    (¬r.Shadows → r.fits = false → r.written = .error .badValue) ∧
    (r.Shadows →
      r.written = .error (if (Value.int r.level).fits then .wrongType else .badValue)) := by
  refine ⟨?_, ?_, ?_⟩
  · intro hshadows hfits
    exact h.exists_written hmoment hmessage hshadows hfits
  · intro hshadows hfits
    exact h.written_of_not_fits hmoment hmessage hshadows hfits
  · intro hshadows
    exact h.written_of_shadows hmoment hshadows

/-! ## Two records -/

/-- A greeting, with a field of its own. -/
def greeting : LogRecord where
  logger := "src.test"
  level := Level.info
  file := "dir/mod.py"
  line := 12
  function := .text "fn"
  template := "hello %s"
  arguments := [.text "world"]
  created := .ofNat 1700000000
  extra := [("tags", .list [.text "\u2028", .int (-1), .bool true, .null])]

/-- The greeting with a field that is asked for the message. -/
def shadowed : LogRecord := { greeting with extra := [(messageMethod, .text "x")] }

/-- When the greeting was made. -/
def greetingMoment : Moment := ⟨63835596800000000, some 0⟩

theorem momentOfSeconds_greeting : momentOfSeconds greeting.created = .ok greetingMoment := by
  have hmoment : (momentOfSeconds greeting.created).toOption.map id = some greetingMoment := by
    decide +kernel
  obtain ⟨moment, hok, rfl⟩ := exists_of_toOption_map_eq_some hmoment
  exact hok

theorem isOrdinary_greeting : greeting.IsOrdinary where
  exact := .object (by decide) (List.forall_mem_singleton.2 (.list (by
    simp only [List.forall_mem_cons]
    exact ⟨.text _, .int _, .bool _, .null, by simp⟩)))
  foreign := by decide

theorem isOrdinary_shadowed : shadowed.IsOrdinary where
  exact := .object (by decide) (List.forall_mem_singleton.2 (.text _))
  foreign := by decide

/-- The greeting has a line. -/
theorem written_greeting : ∃ text, greeting.written = .ok text ∧
    text.toList.all isPlainChar = true ∧
    Value.read text = .ok (.object (greeting.content greetingMoment "hello world")) :=
  (written_of_isOrdinary isOrdinary_greeting momentOfSeconds_greeting rfl).1 (by decide)
    (by decide)

/-- Not every ordinary record has a line, even if its message can be formatted. -/
theorem not_forall_exists_written : ¬ ∀ (r : LogRecord) (moment : Moment) (message : String),
    r.IsOrdinary → momentOfSeconds r.created = .ok moment →
    Template.message r.template r.arguments = .ok message →
    ∃ text, r.written = .ok text ∧
      Value.read text = .ok (.object (r.content moment message)) := by
  intro h
  obtain ⟨text, htext, -⟩ := h shadowed greetingMoment "hello world" isOrdinary_shadowed
    momentOfSeconds_greeting rfl
  have hnone := isOrdinary_shadowed.written_of_shadows momentOfSeconds_greeting (by decide)
  cases htext.symm.trans hnone

end Storefront.LogRecord
