import IndexFeed.Proofs.Rules.Refusal
import IndexFeed.Proofs.Text.Normalize

/-!
Who may open what a record leads to. Two properties decide it, each by its first value: a record is
open to all only if neither says otherwise, and a flag that cannot be read says otherwise. A method
that is declared by name stands as it is, and the record keeps note of one that disagrees with the
flag.
-/

namespace IndexFeed

/-- A value that says yes. A text does so in one of three ways. -/
def Value.SaysYes : Value → Prop
  | string s => Text.asciiLower (Text.trim s) = "true" ∨ Text.asciiLower (Text.trim s) = "t" ∨
      Text.trim s = "1"
  | boolean flag => flag = true
  | integer n => n ≠ 0
  | _ => False

theorem Value.toBool_eq_true_iff {v : Value} : v.toBool = .ok true ↔ v.SaysYes := by
  cases v with
  | string s =>
      have long : Text.asciiLower "true" = "true" := by decide
      have short : Text.asciiLower "t" = "t" := by decide
      simp [toBool, SaysYes, Text.sameIgnoringCase, long, short, or_assoc]
  | _ => simp [toBool, SaysYes]

/-- The text names no method, or says that there is none. -/
def Text.NamesNoMethod (t : String) : Prop :=
  Text.trim t = "" ∨ Text.lowercase (Text.trim t) = openAuthMethod

namespace Document

/-- The document does not say that it is not public. -/
def IsPublic (d : Document) : Prop :=
  ∀ v ∈ d.first? Property.isPublic, v.SaysYes

/-- The document declares no method by which access is checked. -/
def DeclaresNoMethod (d : Document) : Prop :=
  ∀ v ∈ d.first? Property.authMethod, Text.NamesNoMethod v.text

end Document

namespace Resolved

theorem isPublic_eq_true_iff {found : Option Value} :
    (isPublic found).value = true ↔ ∀ v ∈ found, v.SaysYes := by
  cases found with
  | none => simp [isPublic]
  | some v =>
      rw [isPublic]
      simp only [Option.mem_some_iff, forall_eq', ← Value.toBool_eq_true_iff]
      cases v.toBool <;> simp

variable {isPublic : Bool} {declared : Option String}

theorem namesNoMethod_iff {t : String} : Text.NamesNoMethod t ↔
    Text.lowercase (Text.trim t) = "" ∨ Text.lowercase (Text.trim t) = openAuthMethod := by
  rw [Text.NamesNoMethod, Text.lowercase_eq_empty]

theorem value_authMethod (isPublic : Bool) (declared : Option String) :
    (authMethod isPublic declared).value
      = if Text.lowercase (Text.trim (declared.getD "")) = "" ∨
          Text.lowercase (Text.trim (declared.getD "")) = openAuthMethod then
          if isPublic then openAuthMethod else closedAuthMethod
        else declared.getD "" := by
  simp only [authMethod, apply_ite Resolved.value, ite_self]

theorem authMethod_of_namesNoMethod (unnamed : Text.NamesNoMethod (declared.getD "")) :
    (authMethod isPublic declared).value
      = if isPublic then openAuthMethod else closedAuthMethod := by
  rw [value_authMethod, if_pos (namesNoMethod_iff.mp unnamed)]

theorem authMethod_of_named (named : ¬ Text.NamesNoMethod (declared.getD "")) :
    (authMethod isPublic declared).value = declared.getD "" := by
  rw [value_authMethod, if_neg (mt namesNoMethod_iff.mpr named)]

/-- A record is written as open to all only for a public flag without a method by name. -/
theorem authMethod_isOpen_iff :
    Text.lowercase (Text.trim (authMethod isPublic declared).value) = openAuthMethod ↔
      isPublic = true ∧ Text.NamesNoMethod (declared.getD "") := by
  by_cases unnamed : Text.NamesNoMethod (declared.getD "")
  · have opens : Text.lowercase (Text.trim openAuthMethod) = openAuthMethod := by decide +kernel
    have closes : Text.lowercase (Text.trim closedAuthMethod) ≠ openAuthMethod := by decide +kernel
    rw [authMethod_of_namesNoMethod unnamed]
    cases isPublic <;> simp [unnamed, opens, closes]
  · rw [authMethod_of_named unnamed]
    simp only [unnamed, and_false, iff_false]
    exact fun no_method => unnamed (.inr no_method)

theorem replaced_authMethod (isPublic : Bool) (declared : Option String) :
    (authMethod isPublic declared).replaced
      = if Text.lowercase (Text.trim (declared.getD "")) ≠ "" ∧
          isPublic ≠ (Text.lowercase (Text.trim (declared.getD "")) == openAuthMethod) then
          some (.authMethod isPublic (declared.getD "") (authMethod isPublic declared).value)
        else none := by
  rw [value_authMethod]
  simp only [authMethod, apply_ite Resolved.replaced]

/-- The note tells the flag, the method as it was declared, and the one that is written. -/
theorem replaced_authMethod_iff {flag : Bool} {raw written : String} :
    (authMethod isPublic declared).replaced = some (.authMethod flag raw written) ↔
      flag = isPublic ∧ raw = declared.getD "" ∧ Text.trim raw ≠ "" ∧
        ¬ (flag = true ↔ Text.lowercase (Text.trim raw) = openAuthMethod) ∧
        written = (authMethod isPublic declared).value := by
  have disagree (flag : Bool) (method : String) :
      flag ≠ (method == openAuthMethod) ↔ ¬ (flag = true ↔ method = openAuthMethod) := by
    rw [Ne, Bool.eq_iff_iff, beq_iff_eq]
  rw [replaced_authMethod, Option.ite_none_right_eq_some, Option.some.injEq,
    Replacement.authMethod.injEq, Ne, Text.lowercase_eq_empty, disagree]
  generalize (authMethod isPublic declared).value = resolved
  constructor
  · rintro ⟨⟨filled, differ⟩, rfl, rfl, rfl⟩
    exact ⟨rfl, rfl, filled, differ, rfl⟩
  · rintro ⟨rfl, rfl, filled, differ, rfl⟩
    exact ⟨⟨filled, differ⟩, rfl, rfl, rfl⟩

theorem replaced_action_ne (declared : Option String) (flag : Bool) (raw written : String) :
    some (.authMethod flag raw written) ≠ (action declared).replaced := by
  intro noted
  cases declared with
  | none => cases noted
  | some t =>
      rw [action] at noted
      split at noted <;> cases noted

theorem replaced_lastModified_ne (found : Option Value) (flag : Bool) (raw written : String) :
    some (.authMethod flag raw written) ≠ (lastModified found).replaced := by
  intro noted
  cases found with
  | none => cases noted
  | some v =>
      rw [lastModified] at noted
      split at noted <;> cases noted

theorem replaced_isPublic_ne (found : Option Value) (flag : Bool) (raw written : String) :
    some (.authMethod flag raw written) ≠ (Resolved.isPublic found).replaced := by
  intro noted
  cases found with
  | none => cases noted
  | some v =>
      rw [Resolved.isPublic] at noted
      split at noted <;> cases noted

theorem replaced_isPublic_of_noFlag {v : Value} (noFlag : v.isFlag = false) :
    (Resolved.isPublic (some v)).replaced = some (.publicFlag v.text) := by
  obtain ⟨e, failed⟩ := Value.fails_toBool.mpr noFlag
  rw [Resolved.isPublic, failed]

end Resolved

namespace RecordFields

variable {l : Location} {d : Document} {fields : RecordFields}

/-- The method of a record and its notes, in terms of first values. -/
theorem ofDocument_access (read : RecordFields.ofDocument l d = .ok fields) :
    let isPublic := Resolved.isPublic (d.first? Property.isPublic)
    let method := Resolved.authMethod isPublic.value
      ((d.first? Property.authMethod).map Value.text)
    fields.attributes.authMethod = method.value ∧ ∃ action lastModified,
      fields.replaced = [(Resolved.action action).replaced,
        (Resolved.lastModified lastModified).replaced, isPublic.replaced,
        method.replaced].filterMap id := by
  rw [RecordFields.ofDocument] at read
  obtain ⟨url, -, read⟩ := Outcome.bind_eq_ok.mp read
  obtain ⟨action, -, read⟩ := Outcome.bind_eq_ok.mp read
  obtain ⟨lastModified, -, read⟩ := Outcome.bind_eq_ok.mp read
  obtain ⟨isPublic, flagged, read⟩ := Outcome.bind_eq_ok.mp read
  obtain ⟨authMethod, declared, read⟩ := Outcome.bind_eq_ok.mp read
  obtain ⟨displayUrl, -, read⟩ := Outcome.bind_eq_ok.mp read
  obtain ⟨lock, -, read⟩ := Outcome.bind_eq_ok.mp read
  obtain ⟨crawlImmediately, -, read⟩ := Outcome.bind_eq_ok.mp read
  obtain ⟨crawlOnce, -, read⟩ := Outcome.bind_eq_ok.mp read
  obtain ⟨pageRank, -, read⟩ := Outcome.bind_eq_ok.mp read
  obtain ⟨mimetype, -, read⟩ := Outcome.bind_eq_ok.mp read
  obtain ⟨hasAcl, -, read⟩ := Outcome.bind_eq_ok.mp read
  cases read
  obtain ⟨method, found, rfl⟩ := Outcome.map_eq_ok.mp declared
  rw [Document.first?_of_value? flagged, Document.first?_of_value? found]
  dsimp only
  exact ⟨rfl, action, lastModified, rfl⟩

/-- No other note tells of a method. -/
theorem authMethod_mem_replaced (read : RecordFields.ofDocument l d = .ok fields) {flag : Bool}
    {raw written : String} :
    .authMethod flag raw written ∈ fields.replaced ↔
      flag = (Resolved.isPublic (d.first? Property.isPublic)).value ∧
      raw = ((d.first? Property.authMethod).map Value.text).getD "" ∧ Text.trim raw ≠ "" ∧
      ¬ (flag = true ↔ Text.lowercase (Text.trim raw) = openAuthMethod) ∧
      written = fields.attributes.authMethod := by
  obtain ⟨method, action, lastModified, replaced⟩ := ofDocument_access read
  rw [method, ← Resolved.replaced_authMethod_iff, replaced, List.mem_filterMap]
  simp [Resolved.replaced_action_ne, Resolved.replaced_lastModified_ne,
    Resolved.replaced_isPublic_ne, eq_comm]

theorem publicFlag_mem_replaced (read : RecordFields.ofDocument l d = .ok fields) {v : Value}
    (first : d.first? Property.isPublic = some v) (noFlag : v.isFlag = false) :
    .publicFlag v.text ∈ fields.replaced := by
  obtain ⟨-, action, lastModified, replaced⟩ := ofDocument_access read
  simp [replaced, first, Resolved.replaced_isPublic_of_noFlag noFlag]

/-- How the record of a document is protected. -/
structure IsProtectedAs (fields : RecordFields) (d : Document) : Prop where
  isOpen_iff : Text.lowercase (Text.trim fields.attributes.authMethod) = "none" ↔
    d.IsPublic ∧ d.DeclaresNoMethod
  whenOpen : d.IsPublic → d.DeclaresNoMethod → fields.attributes.authMethod = "none"
  whenClosed : ¬ d.IsPublic → d.DeclaresNoMethod → fields.attributes.authMethod = "httpbasic"
  whenDeclared : ∀ v ∈ d.first? Property.authMethod, ¬ Text.NamesNoMethod v.text →
    fields.attributes.authMethod = v.text
  /-- A flag of a kind that is no truth value counts as not public. -/
  unreadable : ∀ v ∈ d.first? Property.isPublic, v.isFlag = false →
    ¬ d.IsPublic ∧ .publicFlag v.text ∈ fields.replaced
  /-- A method is noted if it says none of a document that is not public, or names one for a
  document that is. -/
  conflict_iff : ∀ flag raw written, .authMethod flag raw written ∈ fields.replaced ↔
    (flag = true ↔ d.IsPublic) ∧ written = fields.attributes.authMethod ∧
      ∃ v ∈ d.first? Property.authMethod, raw = v.text ∧ Text.trim v.text ≠ "" ∧
        ¬ (d.IsPublic ↔ Text.lowercase (Text.trim v.text) = "none")

theorem isProtectedAs (read : RecordFields.ofDocument l d = .ok fields) :
    fields.IsProtectedAs d := by
  have method := (ofDocument_access read).1
  have isPublic : (Resolved.isPublic (d.first? Property.isPublic)).value = true ↔ d.IsPublic :=
    Resolved.isPublic_eq_true_iff
  have unnamed : Text.NamesNoMethod (((d.first? Property.authMethod).map Value.text).getD "") ↔
      d.DeclaresNoMethod := by
    rw [Document.DeclaresNoMethod]
    cases d.first? Property.authMethod with
    | none => exact iff_of_true (.inl (by decide)) (by simp)
    | some v => simp
  refine ⟨?_, ?_, ?_, ?_, ?_, ?_⟩
  · rw [method, ← isPublic, ← unnamed]
    exact Resolved.authMethod_isOpen_iff
  · intro says_public no_method
    rw [method, Resolved.authMethod_of_namesNoMethod (unnamed.mpr no_method),
      if_pos (isPublic.mpr says_public)]
    rfl
  · intro not_public no_method
    rw [method, Resolved.authMethod_of_namesNoMethod (unnamed.mpr no_method),
      if_neg (mt isPublic.mp not_public)]
    rfl
  · intro v first named
    have text : ((d.first? Property.authMethod).map Value.text).getD "" = v.text := by simp_all
    rw [← text] at named
    rw [method, Resolved.authMethod_of_named named, text]
  · intro v first noFlag
    refine ⟨fun says_public => ?_, publicFlag_mem_replaced read first noFlag⟩
    have yes := Value.toBool_eq_true_iff.mpr (says_public v first)
    exact Outcome.not_fails_of_ok yes (Value.fails_toBool.mpr noFlag)
  · intro flag raw written
    rw [authMethod_mem_replaced read]
    constructor
    · rintro ⟨rfl, declared, filled, differ, written⟩
      refine ⟨isPublic, written, ?_⟩
      cases first : d.first? Property.authMethod with
      | none =>
          rw [first] at declared
          exact absurd (by rw [declared]; decide) filled
      | some v =>
          rw [first] at declared
          cases declared
          exact ⟨v, rfl, rfl, filled, by rwa [← isPublic]⟩
    · rintro ⟨flag_iff, written, v, first, rfl, filled, differ⟩
      have same : flag = (Resolved.isPublic (d.first? Property.isPublic)).value := by
        rw [Bool.eq_iff_iff, flag_iff, isPublic]
      refine ⟨same, ?_, filled, by rwa [flag_iff], written⟩
      rw [Option.mem_def] at first
      rw [first]
      rfl

/-- The same two properties decide in every view that records are made from. -/
theorem IsProtectedAs.of_inheritingExtract (h : fields.IsProtectedAs d.inheritingExtract) :
    fields.IsProtectedAs d := by
  have flag : d.inheritingExtract.first? Property.isPublic = d.first? Property.isPublic :=
    FeedRules.first?_inheritingExtract (by simp [Property.withheld])
  have method : d.inheritingExtract.first? Property.authMethod = d.first? Property.authMethod :=
    FeedRules.first?_inheritingExtract (by simp [Property.withheld])
  obtain ⟨isOpen_iff, whenOpen, whenClosed, whenDeclared, unreadable, conflict_iff⟩ := h
  simp only [Document.IsPublic, Document.DeclaresNoMethod, flag, method] at *
  exact ⟨isOpen_iff, whenOpen, whenClosed, whenDeclared, unreadable, conflict_iff⟩

end RecordFields

namespace FeedRules

/-- How the records of a document are protected, whatever they are fed in. No text in other letters
passes for the method none. -/
theorem alone_protects (r : FeedRules) (d : Document) :
    (∀ fields, RecordFields.ofDocument r.location d = .ok fields → fields.IsProtectedAs d) ∧
    (∀ (taken left : Taken) (n : Nat) (bytes : List UInt8),
      r.alone d taken = (.ok n, bytes, left) →
      ∃ elements, (r.elements d taken).1 = .ok elements ∧
        bytes = Piece.allBytes (Element.allPieces elements) ∧
        ∀ record, Element.record record ∈ elements →
          ("authmethod", record.attributes.authMethod) ∈ record.data.attributes ∧
          ∃ fields, fields.attributes = record.attributes ∧ fields.IsProtectedAs d ∧
            (RecordFields.ofDocument r.location d = .ok fields ∨
              RecordFields.ofDocument r.location d.inheritingExtract = .ok fields)) ∧
    ∀ t, Text.NamesNoMethod t ↔
      Text.trim t = "" ∨ Text.asciiLower (Text.trim t) = openAuthMethod := by
  refine ⟨fun fields read => RecordFields.isProtectedAs read, ?_, fun t => ?_⟩
  · intro taken left n bytes built
    obtain ⟨elements, found, rfl, rfl⟩ := elements_of_alone built
    refine ⟨elements, by rw [found], rfl, fun record member => ⟨?_, ?_⟩⟩
    · simp [Record.data, Markup.present, RecordAttributes.listed]
    · obtain ⟨a, -, -, rfl, -⟩ | ⟨own, -, recorded, rfl⟩ | ⟨a, heir, -, -, recorded, rfl⟩ :=
        elements_ok found
      · simp at member
      · obtain rfl : record = own := by simpa using member
        obtain ⟨fields, read, -, attributes⟩ := record_fields recorded
        exact ⟨fields, attributes.symm, RecordFields.isProtectedAs read, .inl read⟩
      · obtain rfl : record = heir := by simpa using member
        obtain ⟨fields, read, -, attributes⟩ := record_fields recorded
        exact ⟨fields, attributes.symm, (RecordFields.isProtectedAs read).of_inheritingExtract,
          .inr read⟩
  · have letters : openAuthMethod.toList = ['n', 'o', 'n', 'e'] := by decide
    rw [Text.NamesNoMethod, Text.lowercase_eq_iff (by rw [letters]; simp)]

/-- A flag that is no truth value beside a method that says none. -/
theorem alone_protects_of_unreadable_flag :
    let rules := FeedOptions.rules { dataSource := "hr", feedType := .contentUrl }
    let d := (PropertyTable.ofPairs
      [(Property.docid, .string "a"), (Property.isPublic, .binary [1]),
        (Property.authMethod, .string " NONE")]).toDocument
    ∃ (bytes : List UInt8) (left : Taken) (record : Record) (fields : RecordFields),
      rules.alone d {} = (.ok 1, bytes, left) ∧
      (rules.elements d {}).1 = .ok [.record record] ∧ fields.attributes = record.attributes ∧
      fields.IsProtectedAs d ∧ ¬ d.IsPublic ∧ record.attributes.authMethod = "httpbasic" ∧
      .authMethod false " NONE" "httpbasic" ∈ fields.replaced := by
  intro rules d
  let record : Record :=
    { attributes :=
        { url := "googleconnector://hr.localhost/doc?docid=a", mimetype := "text/html"
          authMethod := "httpbasic" } }
  have shown : (rules.elements d {}).1.toOption = some [.record record] := by decide +kernel
  have found := Outcome.toOption_eq_some.mp shown
  obtain ⟨bytes, left, built⟩ := exists_alone found
  obtain ⟨elements, same, -, records⟩ := (alone_protects rules d).2.1 _ _ _ _ built
  rw [found, Except.ok.injEq] at same
  obtain ⟨-, fields, attributes, protects, -⟩ := records record (by rw [← same]; simp)
  have flag : ¬ d.IsPublic := (protects.unreadable (.binary [1]) rfl rfl).1
  have none_said : Text.lowercase (Text.trim " NONE") = "none" := by decide +kernel
  refine ⟨bytes, left, record, fields, built, found, attributes, protects, flag, rfl, ?_⟩
  refine (protects.conflict_iff _ _ _).mpr ⟨by simp [flag], by rw [attributes],
    .string " NONE", rfl, rfl, by decide +kernel, ?_⟩
  exact fun agrees => flag (agrees.mpr none_said)

end FeedRules

end IndexFeed
