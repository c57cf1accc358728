import IndexFeed.Proofs.Metadata
import IndexFeed.Proofs.Rules
import IndexFeed.Proofs.Rules.Extract

/-!
What the elements of a document depend on. The content of a document has no part in anything but the
payload of its record: documents that agree on all other properties are fed in the same way, and
come to the same lists and to records with the same head.
-/

namespace IndexFeed

/-- Two documents that differ at most in their content, or in whether they have any. -/
def Document.AgreesBesideContent (d' d : Document) : Prop :=
  Document.AgreesOn (fun name => name != Property.content) d' d

variable {d d' : Document}

namespace Document.AgreesBesideContent

theorem find (agrees : d'.AgreesBesideContent d) {name : String} (other : name ≠ Property.content) :
    d'.find name = d.find name :=
  AgreesOn.find agrees name (by simpa using other)

theorem find_acl (agrees : d'.AgreesBesideContent d) {name : String}
    (acl : Property.isAcl name = true) : d'.find name = d.find name := by
  refine agrees.find ?_
  rintro rfl
  rw [Property.isAcl_withheld (by simp [Property.withheld])] at acl
  cases acl

theorem declaredType (agrees : d'.AgreesBesideContent d) : d'.declaredType = d.declaredType := by
  rw [Document.declaredType, Document.declaredType, text?_congr (agrees.find (by decide))]

theorem hasAcl (agrees : d'.AgreesBesideContent d) : d'.hasAcl = d.hasAcl := by
  have other : ∀ name ∈ Property.aclMarks, name ≠ Property.content := by decide
  exact hasAny_congr fun name listed => agrees.find (other name listed)

theorem shown (agrees : d'.AgreesBesideContent d) (hidden : Bool) :
    Document.AgreesBesideContent (if hidden then d'.withoutAcl else d')
      (if hidden then d.withoutAcl else d) := by
  cases hidden with
  | false => exact agrees
  | true => exact AgreesOn.withoutAcl agrees

end Document.AgreesBesideContent

theorem Location.record_of_agrees (agrees : d'.AgreesBesideContent d) (l : Location) :
    l.record d' = l.record d := by
  have other : ∀ name ∈ addressNames, name ≠ Property.content := by decide
  exact record_congr fun name listed => agrees.find (other name listed)

theorem Acl.ofDocument_of_agrees (agrees : d'.AgreesBesideContent d) (l : Location) :
    Acl.ofDocument l d' = Acl.ofDocument l d := by
  rw [ofDocument_eq, ofDocument_eq, agrees.declaredType, Location.record_of_agrees agrees,
    Document.nonEmptyText?_congr
      (agrees.find (by decide : Property.aclInheritanceType ≠ Property.content)),
    Location.parent?_congr fun _ acl => agrees.find_acl acl,
    listEntries_congr fun _ acl => agrees.find_acl acl]

theorem RecordFields.ofDocument_of_agrees (agrees : d'.AgreesBesideContent d) (l : Location) :
    RecordFields.ofDocument l d' = RecordFields.ofDocument l d := by
  have value {name : String} (other : name ≠ Property.content) : d'.value? name = d.value? name :=
    Document.value?_congr (agrees.find other)
  have text {name : String} (other : name ≠ Property.content) : d'.text? name = d.text? name :=
    Document.text?_congr (agrees.find other)
  have filled {name : String} (other : name ≠ Property.content) :
      d'.nonEmptyText? name = d.nonEmptyText? name :=
    Document.nonEmptyText?_congr (agrees.find other)
  have flag {name : String} (other : name ≠ Property.content) :
      d'.flag name false = d.flag name false :=
    Document.flag_congr (agrees.find other) false
  simp (disch := decide) only [ofDocument, Location.record_of_agrees agrees, agrees.hasAcl, value,
    text, filled, flag]

theorem Metadata.ofDocument_of_agrees (agrees : d'.AgreesBesideContent d) :
    Metadata.ofDocument d' = Metadata.ofDocument d := by
  have content : Property.isWithheld Property.content = true := by decide
  refine ofDocument_congr agrees ?_ (by decide)
  intro name kept
  rw [bne_iff_ne]
  rintro rfl
  rw [content] at kept
  cases kept

namespace FeedRules

variable {r : FeedRules} {taken taken' left left' : Taken}

theorem feeding_of_agrees (agrees : d'.AgreesBesideContent d) : r.feeding d' = r.feeding d := by
  rw [feeding, feeding, agrees.declaredType, agrees.hasAcl]

theorem aclElement_of_agrees (agrees : d'.AgreesBesideContent d) :
    r.aclElement d' = r.aclElement d := by
  rw [aclElement, aclElement, Acl.ofDocument_of_agrees agrees]

theorem heldAcl_of_agrees (agrees : d'.AgreesBesideContent d) (fields : RecordFields) :
    r.heldAcl fields d' = r.heldAcl fields d := by
  rw [heldAcl, heldAcl, Acl.ofDocument_of_agrees agrees]

theorem heldMetadata_of_agrees (agrees : d'.AgreesBesideContent d) (fields : RecordFields) :
    r.heldMetadata fields d' = r.heldMetadata fields d := by
  rw [heldMetadata, heldMetadata, Metadata.ofDocument_of_agrees agrees]

theorem heldContent_of_agrees (agrees : d'.AgreesBesideContent d) (fields : RecordFields) :
    r.heldContent fields d' = r.heldContent fields d := by
  rw [heldContent, heldContent,
    Document.text?_congr (agrees.find (by decide : Property.contentEncoding ≠ Property.content))]

/-- The head of a record does not depend on the content, nor does the plan for it. -/
theorem head_of_agrees (agrees : d'.AgreesBesideContent d) : r.head d' = r.head d := by
  simp only [head, RecordFields.ofDocument_of_agrees agrees, heldAcl_of_agrees agrees,
    fun hidden : Bool => heldMetadata_of_agrees (r := r) (agrees.shown hidden),
    fun hidden : Bool => heldContent_of_agrees (r := r) (agrees.shown hidden)]

theorem record_of_agrees (agrees : d'.AgreesBesideContent d) {record record' : Record}
    (h : r.record d taken = (.ok record, left)) (h' : r.record d' taken' = (.ok record', left')) :
    record' = record ∨
      ∃ (head : Record) (encoding : ContentEncoding) (payload payload' : List UInt8),
        record = { head with content := some ⟨encoding, payload⟩ } ∧
        record' = { head with content := some ⟨encoding, payload'⟩ } := by
  have heads := head_of_agrees (r := r) agrees
  obtain ⟨found, -⟩ | ⟨head, plan, payload, report, found, -, rfl, -⟩ := record_ok h
  · obtain ⟨found', -⟩ | ⟨head', plan', payload', report', found', -⟩ := record_ok h'
    · rw [found, found'] at heads
      cases heads
      exact .inl rfl
    · rw [found, found'] at heads
      cases heads
  · obtain ⟨found', -⟩ | ⟨head', plan', payload', report', found', -, rfl, -⟩ := record_ok h'
    · rw [found, found'] at heads
      cases heads
    · rw [found, found'] at heads
      cases heads
      exact .inr ⟨head, plan.encoding, payload, payload', rfl, rfl⟩

/-- Documents that agree beside their content are fed alike, but for the payload of one record. -/
theorem elements_of_agrees (agrees : d'.AgreesBesideContent d) {elements elements' : List Element}
    (h : r.elements d taken = (.ok elements, left))
    (h' : r.elements d' taken' = (.ok elements', left')) :
    elements' = elements ∨
      ∃ (head : Record) (encoding : ContentEncoding) (payload payload' : List UInt8),
        elements = [.record { head with content := some ⟨encoding, payload⟩ }] ∧
        elements' = [.record { head with content := some ⟨encoding, payload'⟩ }] := by
  have same := feeding_of_agrees (r := r) agrees
  cases feeding : r.feeding d with
  | error e =>
      rw [FeedRules.elements, feeding] at h
      cases h
  | ok kind =>
      rw [feeding] at same
      cases kind with
      | acl =>
          simp only [FeedRules.elements, feeding, same, aclElement_of_agrees agrees, Prod.mk.injEq]
            at h h'
          exact .inl (Except.ok.inj (h'.1.symm.trans h.1))
      | record =>
          simp only [FeedRules.elements, feeding, same, Prod.mk.injEq] at h h'
          obtain ⟨record, found, rfl⟩ := Outcome.map_eq_ok.mp h.1
          obtain ⟨record', found', rfl⟩ := Outcome.map_eq_ok.mp h'.1
          obtain rfl | ⟨head, encoding, payload, payload', rfl, rfl⟩ :=
            record_of_agrees agrees (Prod.ext found rfl) (Prod.ext found' rfl)
          · exact .inl rfl
          · exact .inr ⟨head, encoding, payload, payload', rfl, rfl⟩
      | aclThenRecord =>
          obtain ⟨a, record, list, found, rfl⟩ := elements_ok_of_aclThenRecord feeding h
          obtain ⟨a', record', list', found', rfl⟩ := elements_ok_of_aclThenRecord same h'
          rw [Acl.ofDocument_of_agrees agrees.extractedAcl, list] at list'
          cases list'
          obtain rfl | ⟨head, encoding, payload, payload', rfl, -⟩ :=
            record_of_agrees (agrees.inheritingExtract (by decide)) found found'
          · exact .inl rfl
          · cases content_eq_none found (feedType_of_aclThenRecord feeding)

end FeedRules

end IndexFeed
