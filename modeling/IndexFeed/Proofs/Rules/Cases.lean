import IndexFeed.Proofs.Outcome
import IndexFeed.Rules

/-!
How each step of the rules of a feed can end. Every statement tells everything that an outcome comes
from, so that what holds of records and elements need not be shown by taking the steps apart again.
-/

namespace IndexFeed

theorem ContentPolicy.planFor_error {p : ContentPolicy} {declared : Option String} {e : FeedError}
    (h : p.planFor declared = .error e) : ∃ name, e = .unsupportedEncoding name := by
  unfold planFor at h
  split at h
  · cases h
  · rename_i name _
    refine ⟨name, ?_⟩
    split at h
    · split at h
      · cases h
      · exact (Except.error.inj h).symm
    · exact (Except.error.inj h).symm

theorem ContentPolicy.planFor_ok {p : ContentPolicy} {declared : Option String} {plan : ContentPlan}
    (h : p.planFor declared = .ok plan) :
    plan.alreadyEncoded = declared.any fun name => Text.trim name != "" := by
  unfold planFor at h
  split at h
  · rename_i blank
    cases h
    cases declared with
    | none => rfl
    | some name => simpa using blank
  · rename_i name declares
    split at h
    · split at h
      · cases h
        obtain ⟨trimmed, filled⟩ := Option.filter_eq_some_iff.mp declares
        obtain ⟨raw, rfl, rfl⟩ := Option.map_eq_some_iff.mp trimmed
        exact filled.symm
      · cases h
    · cases h

theorem Acl.ofDocument_eq (l : Location) (d : Document) :
    Acl.ofDocument l d = (d.declaredType >>= fun type =>
      (if type = some .acl then (l.record d).map some else .ok none) >>= fun url => do
        let inheritanceType ← d.nonEmptyText? Property.aclInheritanceType
        let inheritFrom ← l.parent? d
        let entries ← lists.mapM (listEntries d)
        .ok ⟨url, inheritanceType, inheritFrom, entries.flatten⟩) := by
  rw [Acl.ofDocument]
  congr 1
  funext type
  split
  · rfl
  · rfl

theorem Acl.ofDocument_ok {l : Location} {d : Document} {a : Acl} :
    Acl.ofDocument l d = .ok a ↔ ∃ type entries, d.declaredType = .ok type ∧
      (if type = some .acl then (l.record d).map some else .ok none) = .ok a.url ∧
      d.nonEmptyText? Property.aclInheritanceType = .ok a.inheritanceType ∧
      l.parent? d = .ok a.inheritFrom ∧ lists.mapM (listEntries d) = .ok entries ∧
      a.entries = entries.flatten := by
  rw [Acl.ofDocument_eq]
  constructor
  · intro h
    obtain ⟨type, declared, h⟩ := Outcome.bind_eq_ok.mp h
    obtain ⟨url, addressed, h⟩ := Outcome.bind_eq_ok.mp h
    obtain ⟨inheritanceType, inherits, h⟩ := Outcome.bind_eq_ok.mp h
    obtain ⟨inheritFrom, parent, h⟩ := Outcome.bind_eq_ok.mp h
    obtain ⟨entries, listed, h⟩ := Outcome.bind_eq_ok.mp h
    cases h
    exact ⟨type, entries, declared, addressed, inherits, parent, listed, rfl⟩
  · rintro ⟨type, entries, declared, addressed, inherits, parent, listed, flat⟩
    obtain ⟨url, inheritanceType, inheritFrom, flattened⟩ := a
    cases flat
    refine Outcome.bind_eq_ok.mpr ⟨type, declared, Outcome.bind_eq_ok.mpr ⟨url, addressed, ?_⟩⟩
    rw [inherits, parent, listed]
    rfl

/-- What of a record's attributes other steps depend on. -/
theorem RecordFields.ofDocument_ok {l : Location} {d : Document} {fields : RecordFields}
    (h : RecordFields.ofDocument l d = .ok fields) :
    l.record d = .ok fields.attributes.url ∧ d.hasAcl = .ok fields.hasAcl ∧
      ∃ declared, d.text? Property.action = .ok declared ∧
        fields.attributes.action = (Resolved.action declared).value := by
  rw [RecordFields.ofDocument] at h
  obtain ⟨url, addressed, h⟩ := Outcome.bind_eq_ok.mp h
  obtain ⟨action, declared, h⟩ := Outcome.bind_eq_ok.mp h
  obtain ⟨lastModified, -, h⟩ := Outcome.bind_eq_ok.mp h
  obtain ⟨isPublic, -, h⟩ := Outcome.bind_eq_ok.mp h
  obtain ⟨authMethod, -, h⟩ := Outcome.bind_eq_ok.mp h
  obtain ⟨displayUrl, -, h⟩ := Outcome.bind_eq_ok.mp h
  obtain ⟨lock, -, h⟩ := Outcome.bind_eq_ok.mp h
  obtain ⟨crawlImmediately, -, h⟩ := Outcome.bind_eq_ok.mp h
  obtain ⟨crawlOnce, -, h⟩ := Outcome.bind_eq_ok.mp h
  obtain ⟨pageRank, -, h⟩ := Outcome.bind_eq_ok.mp h
  obtain ⟨mimetype, -, h⟩ := Outcome.bind_eq_ok.mp h
  obtain ⟨hasAcl, marked, h⟩ := Outcome.bind_eq_ok.mp h
  cases h
  exact ⟨addressed, marked, action, declared, rfl⟩

namespace FeedRules

variable {r : FeedRules} {d : Document} {taken left : Taken} {e : FeedError}

theorem feeding_eq_aclThenRecord :
    r.feeding d = .ok .aclThenRecord ↔ r.feedType = .contentUrl ∧ d.hasAcl = .ok true ∧
      ∃ type, d.declaredType = .ok type ∧ type ≠ some .acl := by
  rw [feeding, Outcome.bind_eq_ok]
  constructor
  · rintro ⟨type, declared, h⟩
    split at h
    · cases h
    · rename_i notAcl
      split at h
      · rename_i contentUrl
        obtain ⟨marked, found, h⟩ := Outcome.bind_eq_ok.mp h
        cases marked with
        | false => cases h
        | true => exact ⟨contentUrl, found, type, declared, notAcl⟩
      · cases h
  · rintro ⟨contentUrl, marked, type, declared, notAcl⟩
    refine ⟨type, declared, ?_⟩
    rw [if_neg notAcl, if_pos contentUrl, marked]
    rfl

/-- A record behind a list has no content. -/
theorem feedType_of_aclThenRecord (feeding : r.feeding d = .ok .aclThenRecord) :
    r.feedType ≠ .content := by
  simp [(feeding_eq_aclThenRecord.mp feeding).1]

/-- Metadata and content are looked up in a document without the access control that the record
holds already. -/
theorem head_ok {record : Record} {plan : Option ContentPlan}
    (h : r.head d = .ok (record, plan)) :
    ∃ fields acl metadata, RecordFields.ofDocument r.location d = .ok fields ∧
      r.heldAcl fields d = .ok acl ∧
      r.heldMetadata fields (if acl.isSome then d.withoutAcl else d) = .ok metadata ∧
      r.heldContent fields (if acl.isSome then d.withoutAcl else d) = .ok plan ∧
      record = { attributes := fields.attributes, acl, metadata } := by
  unfold head at h
  obtain ⟨fields, first, h⟩ := Outcome.bind_eq_ok.mp h
  obtain ⟨acl, second, h⟩ := Outcome.bind_eq_ok.mp h
  obtain ⟨metadata, third, h⟩ := Outcome.bind_eq_ok.mp h
  obtain ⟨held, content, h⟩ := Outcome.bind_eq_ok.mp h
  cases h
  exact ⟨fields, acl, metadata, Outcome.mapError_eq_ok.mp first, Outcome.mapError_eq_ok.mp second,
    Outcome.mapError_eq_ok.mp third, content, rfl⟩

theorem head_of_parts {fields : RecordFields} {acl : Option Acl} {metadata : Option Metadata}
    {plan : Option ContentPlan} (read : RecordFields.ofDocument r.location d = .ok fields)
    (listed : r.heldAcl fields d = .ok acl)
    (shown : r.heldMetadata fields (if acl.isSome then d.withoutAcl else d) = .ok metadata)
    (held : r.heldContent fields (if acl.isSome then d.withoutAcl else d) = .ok plan) :
    r.head d = .ok ({ attributes := fields.attributes, acl, metadata }, plan) := by
  simp only [head, read, listed, shown, held, Outcome.mapError_ok, Outcome.ok_bind]

theorem heldContent_ok {fields : RecordFields} {plan : ContentPlan}
    (h : r.heldContent fields d = .ok (some plan)) :
    ∃ declared, d.text? Property.contentEncoding = .ok declared ∧
      r.content.planFor declared = .ok plan := by
  unfold heldContent at h
  split at h
  · obtain ⟨declared, found, planned⟩ := Outcome.bind_eq_ok.mp h
    obtain ⟨chosen, planned, same⟩ := Outcome.map_eq_ok.mp planned
    cases same
    exact ⟨declared, Outcome.mapError_eq_ok.mp found, planned⟩
  · cases h

theorem heldContent_error {fields : RecordFields} (h : r.heldContent fields d = .error e) :
    (∃ f, e = .repository f) ∨ ∃ name, e = .unsupportedEncoding name := by
  unfold heldContent at h
  split at h
  · obtain unread | ⟨declared, -, planned⟩ := Outcome.bind_eq_error.mp h
    · obtain ⟨f, -, rfl⟩ := Outcome.mapError_eq_error.mp unread
      exact .inl ⟨f, rfl⟩
    · exact .inr (ContentPolicy.planFor_error (Outcome.map_eq_error.mp planned))
  · cases h

/-- The head of a record fails when the document cannot be read, or when its content is in an
encoding that is not accepted. -/
theorem head_error (h : r.head d = .error e) :
    (∃ f, e = .repository f) ∨ ∃ name, e = .unsupportedEncoding name := by
  have unread {α : Type} {x : Read α} (failed : x.mapError .repository = .error e) :
      ∃ f, e = .repository f := by
    obtain ⟨f, -, rfl⟩ := Outcome.mapError_eq_error.mp failed
    exact ⟨f, rfl⟩
  unfold head at h
  obtain first | ⟨fields, -, h⟩ := Outcome.bind_eq_error.mp h
  · exact .inl (unread first)
  obtain second | ⟨acl, -, h⟩ := Outcome.bind_eq_error.mp h
  · exact .inl (unread second)
  obtain third | ⟨metadata, -, h⟩ := Outcome.bind_eq_error.mp h
  · exact .inl (unread third)
  obtain content | ⟨plan, -, h⟩ := Outcome.bind_eq_error.mp h
  · exact heldContent_error content
  · cases h

theorem payload_ok {plan : ContentPlan} {opened : Read (Option Source)} {written : List UInt8}
    {report : ContentReport} (h : r.payload plan d opened = (written, .ok report)) :
    ∃ source substitute, withSubstitute d opened = .ok (source, substitute) ∧
      r.content.writeWith r.content.codec plan source substitute = (written, .ok report) := by
  unfold payload at h
  cases opening : withSubstitute d opened with
  | error f =>
      simp only [opening] at h
      cases h
  | ok found =>
      obtain ⟨source, substitute⟩ := found
      simp only [opening, Prod.mk.injEq] at h
      obtain ⟨rfl, outcome⟩ := h
      exact ⟨source, substitute, rfl, Prod.ext rfl (Outcome.mapError_eq_ok.mp outcome)⟩

theorem payload_error {plan : ContentPlan} {opened : Read (Option Source)} {written : List UInt8}
    (h : r.payload plan d opened = (written, .error e)) :
    (∃ f, withSubstitute d opened = .error f ∧ e = .repository f ∧ written = []) ∨
      ∃ source substitute f, withSubstitute d opened = .ok (source, substitute) ∧
        r.content.writeWith r.content.codec plan source substitute = (written, .error f) ∧
        e = .input f := by
  unfold payload at h
  cases opening : withSubstitute d opened with
  | error f =>
      simp only [opening] at h
      cases h
      exact .inl ⟨f, rfl, rfl, rfl⟩
  | ok found =>
      obtain ⟨source, substitute⟩ := found
      simp only [opening, Prod.mk.injEq] at h
      obtain ⟨rfl, outcome⟩ := h
      obtain ⟨f, failed, rfl⟩ := Outcome.mapError_eq_error.mp outcome
      exact .inr ⟨source, substitute, f, rfl, Prod.ext rfl failed, rfl⟩

theorem record_ok {record : Record} (h : r.record d taken = (.ok record, left)) :
    (r.head d = .ok (record, none) ∧ left = taken) ∨
      ∃ head plan written report, r.head d = .ok (head, some plan) ∧
        r.payload plan d (openContent d taken).1 = (written, .ok report) ∧
        record = { head with content := some ⟨plan.encoding, written⟩ } ∧
        left = (openContent d taken).2 := by
  unfold FeedRules.record at h
  cases found : r.head d with
  | error f =>
      simp only [found] at h
      cases h
  | ok pair =>
      obtain ⟨head, plan⟩ := pair
      cases plan with
      | none =>
          simp only [found] at h
          cases h
          exact .inl ⟨rfl, rfl⟩
      | some plan =>
          simp only [found, Prod.mk.injEq] at h
          obtain ⟨outcome, rfl⟩ := h
          obtain ⟨report, written, rfl⟩ := Outcome.map_eq_ok.mp outcome
          exact .inr ⟨head, plan, _, report, rfl, Prod.ext rfl written, rfl, rfl⟩

/-- Content is no part of what a record says of its document. -/
theorem record_fields {record : Record} (h : r.record d taken = (.ok record, left)) :
    ∃ fields, RecordFields.ofDocument r.location d = .ok fields ∧
      r.heldAcl fields d = .ok record.acl ∧ record.attributes = fields.attributes := by
  obtain ⟨found, -⟩ | ⟨head, plan, written, report, found, -, rfl, -⟩ := record_ok h
  · obtain ⟨fields, acl, metadata, read, held, -, -, rfl⟩ := head_ok found
    exact ⟨fields, read, held, rfl⟩
  · obtain ⟨fields, acl, metadata, read, held, -, -, rfl⟩ := head_ok found
    exact ⟨fields, read, held, rfl⟩

theorem record_error (h : r.record d taken = (.error e, left)) :
    (r.head d = .error e ∧ left = taken) ∨
      ∃ head plan written, r.head d = .ok (head, some plan) ∧
        r.payload plan d (openContent d taken).1 = (written, .error e) ∧
        left = (openContent d taken).2 := by
  unfold FeedRules.record at h
  cases found : r.head d with
  | error f =>
      simp only [found] at h
      cases h
      exact .inl ⟨rfl, rfl⟩
  | ok pair =>
      obtain ⟨head, plan⟩ := pair
      cases plan with
      | none =>
          simp only [found] at h
          cases h
      | some plan =>
          simp only [found, Prod.mk.injEq] at h
          obtain ⟨outcome, rfl⟩ := h
          exact .inr ⟨head, plan, _, rfl, Prod.ext rfl (Outcome.map_eq_error.mp outcome), rfl⟩

theorem aclElement_ok {element : Element} (h : r.aclElement d = .ok element) :
    ∃ a, Acl.ofDocument r.location d = .ok a ∧ element = .acl a := by
  obtain ⟨a, found, rfl⟩ := Outcome.map_eq_ok.mp (Outcome.mapError_eq_ok.mp h)
  exact ⟨a, found, rfl⟩

theorem aclElement_error (h : r.aclElement d = .error e) :
    ∃ f, Acl.ofDocument r.location d = .error f ∧ e = .repository f := by
  obtain ⟨f, failed, rfl⟩ := Outcome.mapError_eq_error.mp h
  exact ⟨f, Outcome.map_eq_error.mp failed, rfl⟩

/-- The elements of a document: a list that stands alone, a record, or a record behind the list that
was taken out of it. -/
theorem elements_ok {elements : List Element} (h : r.elements d taken = (.ok elements, left)) :
    (∃ a, r.feeding d = .ok .acl ∧ Acl.ofDocument r.location d = .ok a ∧ elements = [.acl a] ∧
        left = taken) ∨
      (∃ record, r.feeding d = .ok .record ∧ r.record d taken = (.ok record, left) ∧
        elements = [.record record]) ∨
      ∃ a record, r.feeding d = .ok .aclThenRecord ∧
        Acl.ofDocument r.location d.extractedAcl = .ok a ∧
        r.record d.inheritingExtract taken = (.ok record, left) ∧
        elements = [.acl a, .record record] := by
  unfold FeedRules.elements at h
  cases feeding : r.feeding d with
  | error f =>
      simp only [feeding] at h
      cases h
  | ok kind =>
      simp only [feeding] at h
      cases kind with
      | acl =>
          simp only [Prod.mk.injEq] at h
          obtain ⟨outcome, rfl⟩ := h
          obtain ⟨list, found, rfl⟩ := Outcome.map_eq_ok.mp outcome
          obtain ⟨a, listed, rfl⟩ := aclElement_ok found
          exact .inl ⟨a, rfl, listed, rfl, rfl⟩
      | record =>
          simp only [Prod.mk.injEq] at h
          obtain ⟨record, found, rfl⟩ := Outcome.map_eq_ok.mp h.1
          exact .inr (.inl ⟨record, rfl, Prod.ext found h.2, rfl⟩)
      | aclThenRecord =>
          cases extracted : r.aclElement d.extractedAcl with
          | error f =>
              simp only [extracted] at h
              cases h
          | ok list =>
              simp only [extracted, Prod.mk.injEq] at h
              obtain ⟨a, listed, rfl⟩ := aclElement_ok extracted
              obtain ⟨record, found, rfl⟩ := Outcome.map_eq_ok.mp h.1
              exact .inr (.inr ⟨a, record, rfl, listed, Prod.ext found h.2, rfl⟩)

theorem elements_ok_of_aclThenRecord {elements : List Element}
    (feeding : r.feeding d = .ok .aclThenRecord) (h : r.elements d taken = (.ok elements, left)) :
    ∃ a record, Acl.ofDocument r.location d.extractedAcl = .ok a ∧
      r.record d.inheritingExtract taken = (.ok record, left) ∧
      elements = [.acl a, .record record] := by
  obtain ⟨a, alone, -⟩ | ⟨record, alone, -⟩ | ⟨a, record, -, listed, recorded, rfl⟩ := elements_ok h
  · cases feeding.symm.trans alone
  · cases feeding.symm.trans alone
  · exact ⟨a, record, listed, recorded, rfl⟩

theorem elements_error (h : r.elements d taken = (.error e, left)) :
    (∃ f, r.feeding d = .error f ∧ e = .repository f ∧ left = taken) ∨
      (r.feeding d = .ok .acl ∧ r.aclElement d = .error e ∧ left = taken) ∨
      (r.feeding d = .ok .record ∧ r.record d taken = (.error e, left)) ∨
      (r.feeding d = .ok .aclThenRecord ∧ r.aclElement d.extractedAcl = .error e ∧
        left = taken) ∨
      r.feeding d = .ok .aclThenRecord ∧ r.record d.inheritingExtract taken = (.error e, left) := by
  unfold FeedRules.elements at h
  cases feeding : r.feeding d with
  | error f =>
      simp only [feeding] at h
      cases h
      exact .inl ⟨f, rfl, rfl, rfl⟩
  | ok kind =>
      simp only [feeding] at h
      cases kind with
      | acl =>
          simp only [Prod.mk.injEq] at h
          exact .inr (.inl ⟨rfl, Outcome.map_eq_error.mp h.1, h.2.symm⟩)
      | record =>
          simp only [Prod.mk.injEq] at h
          exact .inr (.inr (.inl ⟨rfl, Prod.ext (Outcome.map_eq_error.mp h.1) h.2⟩))
      | aclThenRecord =>
          cases extracted : r.aclElement d.extractedAcl with
          | error f =>
              simp only [extracted] at h
              cases h
              exact .inr (.inr (.inr (.inl ⟨rfl, rfl, rfl⟩)))
          | ok list =>
              simp only [extracted, Prod.mk.injEq] at h
              exact .inr (.inr (.inr (.inr
                ⟨rfl, Prod.ext (Outcome.map_eq_error.mp h.1) h.2⟩)))

end FeedRules

end IndexFeed
