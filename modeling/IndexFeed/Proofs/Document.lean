import IndexFeed.Document.AclView
import IndexFeed.Document.Table
import IndexFeed.Proofs.Outcome

/-!
What is read of a document and of its views. A view finds under every name what the document finds
under that name or another one, a constant, or nothing; so a document that can be read throughout
can be read throughout in any view.
-/

namespace IndexFeed

theorem PropertyValues.first_of_complete {p : PropertyValues} (complete : p.failure = none) :
    p.first = .ok p.values.head? := by
  obtain ⟨values, failure⟩ := p
  cases complete
  cases values <;> rfl

theorem PropertyValues.head?_of_first {p : PropertyValues} {v : Option Value}
    (h : p.first = .ok v) : p.values.head? = v := by
  obtain ⟨values, failure⟩ := p
  cases values with
  | nil =>
      cases failure with
      | none => exact Except.ok.inj h
      | some e => cases h
  | cons first rest => exact Except.ok.inj h

theorem PropertyValues.first_of_head? {p : PropertyValues} {v : Value}
    (h : p.values.head? = some v) : p.first = .ok (some v) := by
  obtain ⟨values, failure⟩ := p
  cases values with
  | nil => cases h
  | cons first rest => exact congrArg Except.ok h

theorem PropertyValues.all_of_complete {p : PropertyValues} (complete : p.failure = none) :
    p.all = .ok p.values := by
  rw [all, complete]

namespace Document

variable {d d' : Document} {name : String}

theorem nonEmptyText?_eq_some {t : String} :
    d.nonEmptyText? name = .ok (some t) ↔ d.text? name = .ok (some t) ∧ t ≠ "" := by
  rw [nonEmptyText?, Outcome.map_eq_ok]
  constructor
  · rintro ⟨found, read, kept⟩
    obtain ⟨rfl, filled⟩ := Option.filter_eq_some_iff.mp kept
    exact ⟨read, by simpa using filled⟩
  · rintro ⟨read, filled⟩
    exact ⟨some t, read, by simp [Option.filter_some, filled]⟩

theorem filter_of_nonEmptyText? {t : Option String} (read : d.nonEmptyText? name = .ok t) :
    t.filter (· != "") = t := by
  obtain ⟨raw, -, rfl⟩ := Outcome.map_eq_ok.mp read
  rw [Option.filter_filter]
  simp

/-! ## Documents that find the same under a name -/

theorem value?_congr (same : d'.find name = d.find name) : d'.value? name = d.value? name := by
  rw [value?, value?, same]

theorem text?_congr (same : d'.find name = d.find name) : d'.text? name = d.text? name := by
  rw [text?, text?, value?_congr same]

theorem nonEmptyText?_congr (same : d'.find name = d.find name) :
    d'.nonEmptyText? name = d.nonEmptyText? name := by
  rw [nonEmptyText?, nonEmptyText?, text?_congr same]

theorem flag_congr (same : d'.find name = d.find name) (default : Bool) :
    d'.flag name default = d.flag name default := by
  rw [flag, flag, value?_congr same]

theorem values_congr (same : d'.find name = d.find name) : d'.values name = d.values name := by
  rw [values, values, same]

theorem hasAny_congr {names : List String} (same : ∀ name ∈ names, d'.find name = d.find name) :
    d'.hasAny names = d.hasAny names := by
  induction names with
  | nil => rfl
  | cons name names ih =>
      rw [List.forall_mem_cons] at same
      rw [hasAny, hasAny, has, has, same.1, ih same.2]

theorem nonEmptyText?_absent (absent : d.find name = .ok none) :
    d.nonEmptyText? name = .ok none := by
  rw [nonEmptyText?, text?, value?, absent]
  rfl

theorem has_absent (absent : d.find name = .ok none) : d.has name = .ok false := by
  rw [has, absent]
  rfl

theorem text?_constant {s : String} (constant : d.find name = .ok (some ⟨[.string s], none⟩)) :
    d.text? name = .ok (some s) := by
  rw [text?, value?, constant]
  rfl

theorem has_of_text? {t : String} (read : d.text? name = .ok (some t)) :
    d.has name = .ok true := by
  obtain ⟨v, value, text⟩ := Outcome.map_eq_ok.mp read
  obtain ⟨found, property, first⟩ := Outcome.bind_eq_ok.mp value
  cases found with
  | none =>
      cases first
      cases text
  | some p =>
      rw [has, property]
      rfl

/-- Names that are absent do not matter where any of some names is looked for. -/
theorem hasAny_append {names : List String} (absent : ∀ name ∈ names, d.has name = .ok false)
    (rest : List String) : d.hasAny (names ++ rest) = d.hasAny rest := by
  induction names with
  | nil => rfl
  | cons name names ih =>
      rw [List.forall_mem_cons] at absent
      rw [List.cons_append, hasAny, absent.1]
      exact ih absent.2

/-! ## What the views find -/

theorem find_withoutAcl (d : Document) (name : String)
    (other : Property.isAcl name = false) : d.withoutAcl.find name = d.find name := by
  simp only [withoutAcl, other]
  rfl

theorem find_extractedAcl (d : Document) (kept : isKeptInExtract name = true) :
    d.extractedAcl.find name = d.find name := by
  have masked : ∀ other ∈ [Property.documentType, Property.fragment],
      isKeptInExtract other = false := by decide
  have notType : name ≠ Property.documentType := by
    rintro rfl
    simp [masked] at kept
  have notFragment : name ≠ Property.fragment := by
    rintro rfl
    simp [masked] at kept
  simp only [extractedAcl, if_neg notType, if_neg notFragment, kept, if_true]

theorem find_extractedAcl_of_isAcl (d : Document) (acl : Property.isAcl name = true) :
    d.extractedAcl.find name = d.find name :=
  d.find_extractedAcl (by simp [isKeptInExtract, acl])

theorem declaredType_extractedAcl (d : Document) :
    d.extractedAcl.declaredType = .ok (some .acl) := by
  have read : d.extractedAcl.text? Property.documentType = .ok (some DocumentType.acl.wire) :=
    text?_constant (by simp only [extractedAcl, if_true]; rfl)
  have type : DocumentType.find? DocumentType.acl.wire = some .acl := by decide
  rw [declaredType, read]
  exact congrArg Except.ok type

theorem text?_fragment_extractedAcl (d : Document) :
    d.extractedAcl.text? Property.fragment = .ok (some Property.extractedFragment) := by
  have notType : Property.fragment ≠ Property.documentType := by decide
  exact text?_constant (by simp only [extractedAcl, if_neg notType, if_true]; rfl)

theorem find_inheritingExtract_other (d : Document) (other : Property.isAcl name = false) :
    d.inheritingExtract.find name = d.find name := by
  have notDocid : name ≠ Property.aclInheritFromDocid := by
    rintro rfl
    rw [Property.isAcl_accessNames (by simp [Property.accessNames])] at other
    cases other
  have notFragment : name ≠ Property.aclInheritFromFragment := by
    rintro rfl
    rw [Property.isAcl_accessNames (by simp [Property.accessNames])] at other
    cases other
  simp only [inheritingExtract, if_neg notDocid, if_neg notFragment, other]
  rfl

theorem find_inheritingExtract_docid (d : Document) :
    d.inheritingExtract.find Property.aclInheritFromDocid = d.find Property.docid := by
  simp only [inheritingExtract, if_true]

theorem find_inheritingExtract_hidden (d : Document) (acl : Property.isAcl name = true)
    (notDocid : name ≠ Property.aclInheritFromDocid)
    (notFragment : name ≠ Property.aclInheritFromFragment) :
    d.inheritingExtract.find name = .ok none := by
  simp only [inheritingExtract, if_neg notDocid, if_neg notFragment, acl, if_true]

theorem text?_fragment_inheritingExtract (d : Document) :
    d.inheritingExtract.text? Property.aclInheritFromFragment
      = .ok (some Property.extractedFragment) := by
  have notDocid : Property.aclInheritFromFragment ≠ Property.aclInheritFromDocid := by decide
  exact text?_constant (by simp only [inheritingExtract, if_neg notDocid, if_true]; rfl)

/-- The names of the lists and of the address to inherit from are hidden. -/
theorem find_inheritingExtract_lists (d : Document)
    (listed : name ∈ Property.entryLists ++ [Property.aclInheritFrom]) :
    d.inheritingExtract.find name = .ok none := by
  have each : ∀ name ∈ Property.entryLists ++ [Property.aclInheritFrom],
      Property.isAcl name = true ∧ name ≠ Property.aclInheritFromDocid ∧
        name ≠ Property.aclInheritFromFragment := by decide
  obtain ⟨acl, notDocid, notFragment⟩ := each name listed
  exact d.find_inheritingExtract_hidden acl notDocid notFragment

theorem hasAcl_inheritingExtract {docid : String}
    (identified : d.text? Property.docid = .ok (some docid)) :
    d.inheritingExtract.hasAcl = .ok true := by
  have marks : Property.aclMarks
      = (Property.entryLists ++ [Property.aclInheritFrom]) ++ [Property.aclInheritFromDocid] := rfl
  have inherits : d.inheritingExtract.has Property.aclInheritFromDocid = .ok true := by
    rw [has, find_inheritingExtract_docid]
    exact has_of_text? identified
  rw [hasAcl, marks, hasAny_append, hasAny, inherits]
  · rfl
  · intro name listed
    exact has_absent (d.find_inheritingExtract_lists listed)

/-! ## Documents that can be read throughout -/

/-- A document of which nothing fails to be read: it lists its names, and every property that it
finds yields all of its values. -/
structure IsReadable (d : Document) : Prop where
  names : ∃ names, d.names = .ok names
  find : ∀ name, ∃ found, d.find name = .ok found ∧ ∀ p ∈ found, p.failure = none

/-- The first value found under a name. -/
def first? (d : Document) (name : String) : Option Value :=
  match d.find name with
  | .ok (some p) => p.values.head?
  | _ => none

theorem first?_congr (same : d'.find name = d.find name) : d'.first? name = d.first? name := by
  rw [first?, first?, same]

theorem first?_of_value? {v : Option Value} (read : d.value? name = .ok v) :
    d.first? name = v := by
  obtain ⟨found, property, first⟩ := Outcome.bind_eq_ok.mp read
  rw [first?, property]
  cases found with
  | none => exact Except.ok.inj first
  | some p => exact PropertyValues.head?_of_first first

/-- A failure behind the first value is not met by looking for that value. -/
theorem value?_eq_some {v : Value} :
    d.value? name = .ok (some v) ↔ d.first? name = some v := by
  constructor
  · exact first?_of_value?
  · intro first
    rw [first?] at first
    split at first
    · rename_i p property
      exact Outcome.bind_eq_ok.mpr ⟨some p, property, p.first_of_head? first⟩
    · cases first

namespace IsReadable

theorem value? (readable : d.IsReadable) (name : String) : d.value? name = .ok (d.first? name) := by
  obtain ⟨found, property, complete⟩ := readable.find name
  rw [Document.value?, first?, property]
  cases found with
  | none => rfl
  | some p => exact p.first_of_complete (complete p rfl)

theorem text? (readable : d.IsReadable) (name : String) :
    d.text? name = .ok ((d.first? name).map Value.text) := by
  rw [Document.text?, readable.value?]
  rfl

theorem nonEmptyText? (readable : d.IsReadable) (name : String) :
    d.nonEmptyText? name = .ok (((d.first? name).map Value.text).filter (· != "")) := by
  rw [Document.nonEmptyText?, readable.text?]
  rfl

theorem values (readable : d.IsReadable) (name : String) :
    ∃ values, d.values name = .ok values := by
  obtain ⟨found, property, complete⟩ := readable.find name
  rw [Document.values, property]
  cases found with
  | none => exact ⟨[], rfl⟩
  | some p => exact ⟨p.values, p.all_of_complete (complete p rfl)⟩

theorem hasAny (readable : d.IsReadable) (names : List String) :
    ∃ found, d.hasAny names = .ok found := by
  induction names with
  | nil => exact ⟨false, rfl⟩
  | cons name names ih =>
      obtain ⟨found, property, -⟩ := readable.find name
      rw [Document.hasAny, has, property]
      cases found with
      | none => exact ih
      | some p => exact ⟨true, rfl⟩

theorem find_none : ∃ found : Option PropertyValues, (.ok none : Read (Option PropertyValues))
    = .ok found ∧ ∀ p ∈ found, p.failure = none :=
  ⟨none, rfl, by simp⟩

theorem find_constant (s : String) : ∃ found : Option PropertyValues,
    (.ok (some ⟨[.string s], none⟩) : Read (Option PropertyValues)) = .ok found ∧
      ∀ p ∈ found, p.failure = none :=
  ⟨_, rfl, by simp⟩

theorem withoutAcl (readable : d.IsReadable) : d.withoutAcl.IsReadable where
  names := by
    obtain ⟨names, listed⟩ := readable.names
    exact ⟨_, by rw [Document.withoutAcl, listed]; rfl⟩
  find name := by
    simp only [Document.withoutAcl]
    split
    · exact find_none
    · exact readable.find name

theorem extractedAcl (readable : d.IsReadable) : d.extractedAcl.IsReadable where
  names := by
    obtain ⟨names, listed⟩ := readable.names
    exact ⟨_, by rw [Document.extractedAcl, listed]; rfl⟩
  find name := by
    simp only [Document.extractedAcl]
    split
    · exact find_constant _
    · split
      · exact find_constant _
      · split
        · exact readable.find name
        · exact find_none

theorem inheritingExtract (readable : d.IsReadable) : d.inheritingExtract.IsReadable where
  names := by
    obtain ⟨names, listed⟩ := readable.names
    exact ⟨_, by rw [Document.inheritingExtract, listed]; rfl⟩
  find name := by
    simp only [Document.inheritingExtract]
    split
    · exact readable.find _
    · split
      · exact find_constant _
      · split
        · exact find_none
        · exact readable.find name

end IsReadable

end Document

theorem PropertyTable.isReadable_toDocument (t : PropertyTable) : t.toDocument.IsReadable where
  names := ⟨t.names, rfl⟩
  find name := by
    refine ⟨_, rfl, ?_⟩
    intro p member
    obtain ⟨values, -, rfl⟩ := Option.map_eq_some_iff.mp member
    rfl

end IndexFeed
