import IndexFeed.Document.Sample
import IndexFeed.Feed.Options
import IndexFeed.Proofs.Content
import IndexFeed.Proofs.Feed.Writing
import IndexFeed.Proofs.Markup.Element

/-!
What is written for a document can be read back. Unless a document's content is copied because it is
encoded already, the bytes are elements of the grammar, and a reader finds in them the data that
were written; so no value can pass for an attribute, an element or a principal.
-/

namespace IndexFeed.FeedRules

/-- The content of a document's record is copied, since it is encoded already. -/
def CopiesContent (r : FeedRules) (d : Document) (taken : Taken) : Prop :=
  ∃ record plan report, r.head d = .ok (record, some plan) ∧ plan.alreadyEncoded = true ∧
    (r.payload plan d (openContent d taken).1).2 = .ok report ∧ report.substituted = false

/-- Only content feeds carry content. -/
theorem plan_eq_none {r : FeedRules} {d : Document} {record : Record} {plan : Option ContentPlan}
    (h : r.head d = .ok (record, plan)) (noContent : r.feedType ≠ .content) : plan = none := by
  obtain ⟨fields, acl, metadata, -, -, -, held, -⟩ := head_ok h
  rw [heldContent, if_neg (by simp [noContent])] at held
  exact (Except.ok.inj held).symm

theorem content_eq_none {r : FeedRules} {d : Document} {taken left : Taken} {record : Record}
    (h : r.record d taken = (.ok record, left)) (noContent : r.feedType ≠ .content) :
    record.content = none := by
  obtain ⟨found, -⟩ | ⟨head, plan, written, report, found, -⟩ := record_ok h
  · exact content_of_head found
  · cases plan_eq_none found noContent

theorem isInert_of_mem_encode {b : UInt8}
    (h : b ∈ Base64.alphabet ∨ b = Base64.padding ∨ b = lineFeed) : Markup.isInert b = true := by
  have digits : Base64.alphabet.all Markup.isInert = true := by decide
  obtain digit | rfl | rfl := h
  · exact List.all_eq_true.mp digits b digit
  · decide
  · decide

theorem payload_inert {r : FeedRules} {d : Document} {plan : ContentPlan}
    {opened : Read (Option Source)} {written : List UInt8} {report : ContentReport}
    (lawful : r.content.codec.Lawful) (h : r.payload plan d opened = (written, .ok report))
    (encoded : plan.alreadyEncoded = true → report.substituted = true) :
    ∀ b ∈ written, Markup.isInert b = true := by
  intro b member
  obtain ⟨source, substitute, -, outcome⟩ := payload_ok h
  obtain ⟨already, kept, -⟩ | ⟨-, wraps, pieces, rfl⟩ := ContentPolicy.writeWith_ok outcome
  · rw [encoded already] at kept
    cases kept
  · apply isInert_of_mem_encode
    exact lawful.mem_encode member

theorem record_inert {r : FeedRules} {d : Document} {taken left : Taken} {record : Record}
    (lawful : r.content.codec.Lawful) (h : r.record d taken = (.ok record, left))
    (encoded : ¬ r.CopiesContent d taken) :
    (Element.record record).HasInertPayload := by
  intro c held
  obtain ⟨found, -⟩ | ⟨head, plan, written, report, found, paid, rfl, -⟩ := record_ok h
  · rw [content_of_head found] at held
    cases held
  · cases held
    apply payload_inert lawful paid
    intro already
    cases kept : report.substituted with
    | true => rfl
    | false => exact absurd ⟨head, plan, report, found, already, by rw [paid], kept⟩ encoded

theorem elements_inert {r : FeedRules} {d : Document} {taken left : Taken}
    {elements : List Element} (lawful : r.content.codec.Lawful)
    (h : r.elements d taken = (.ok elements, left)) (encoded : ¬ r.CopiesContent d taken) :
    ∀ e ∈ elements, e.HasInertPayload := by
  obtain ⟨a, -, -, rfl, -⟩ | ⟨record, -, found, rfl⟩ | ⟨a, record, feeding, -, found, rfl⟩ :=
    elements_ok h
  · simp [Element.HasInertPayload]
  · simpa using record_inert lawful found encoded
  · have noContent := feedType_of_aclThenRecord feeding
    simp [Element.HasInertPayload, content_eq_none found noContent]

theorem head_concernsDocument {r : FeedRules} {d : Document} {e : FeedError}
    (h : r.head d = .error e) : e.concernsDocument = true := by
  obtain ⟨f, rfl⟩ | ⟨name, rfl⟩ := head_error h
  · rfl
  · rfl

theorem record_concernsDocument {r : FeedRules} {d : Document} {taken left : Taken} {e : FeedError}
    (h : r.record d taken = (.error e, left)) : e.concernsDocument = true := by
  obtain ⟨found, -⟩ | ⟨head, plan, written, -, paid, -⟩ := record_error h
  · exact head_concernsDocument found
  · obtain ⟨f, -, rfl, -⟩ | ⟨source, substitute, f, -, -, rfl⟩ := payload_error paid
    · rfl
    · rfl

theorem aclElement_concernsDocument {r : FeedRules} {d : Document} {e : FeedError}
    (h : r.aclElement d = .error e) : e.concernsDocument = true := by
  obtain ⟨f, -, rfl⟩ := aclElement_error h
  rfl

/-- Whatever goes wrong with a document's elements, the feed can go on without the document. -/
theorem elements_concernsDocument {r : FeedRules} {d : Document} {taken left : Taken}
    {e : FeedError} (h : r.elements d taken = (.error e, left)) : e.concernsDocument = true := by
  obtain ⟨f, -, rfl, -⟩ | ⟨-, list, -⟩ | ⟨-, record⟩ | ⟨-, list, -⟩ | ⟨-, record⟩ :=
    elements_error h
  · rfl
  · exact aclElement_concernsDocument list
  · exact record_concernsDocument record
  · exact aclElement_concernsDocument list
  · exact record_concernsDocument record

/-- What was written for a document is read back as the data of its elements, so that two documents
for which the same was written hold the same data. The encoders may be any that put out the formats
they are named for. -/
theorem alone_readable (r : FeedRules) (lawful : r.content.codec.Lawful) (d : Document)
    (taken : Taken) {n : Nat} {bytes : List UInt8} {left : Taken}
    (built : r.alone d taken = (.ok n, bytes, left)) (encoded : ¬ r.CopiesContent d taken) :
    ∃ elements, (r.elements d taken).1 = .ok elements ∧ elements.length = n ∧
      ((∃ a, elements = [.acl a]) ∨ (∃ record, elements = [.record record]) ∨
        ∃ a record, elements = [.acl a, .record record]) ∧
      bytes = Markup.write (elements.map Element.data) ∧
      Markup.read? bytes = some (elements.map Element.data) ∧
      ∀ (r' : FeedRules) (d' : Document) (taken' : Taken) (n' : Nat) (left' : Taken)
        (elements' : List Element), r'.content.codec.Lawful →
        r'.alone d' taken' = (.ok n', bytes, left') →
        ¬ r'.CopiesContent d' taken' → (r'.elements d' taken').1 = .ok elements' →
        elements'.map Element.data = elements.map Element.data := by
  have written {r : FeedRules} {d : Document} {taken left : Taken} {elements : List Element}
      (lawful : r.content.codec.Lawful) (found : r.elements d taken = (.ok elements, left))
      (encoded : ¬ r.CopiesContent d taken) :
      Piece.allBytes (Element.allPieces elements) = Markup.write (elements.map Element.data) :=
    Element.allBytes_eq_write (elements_inert lawful found encoded)
  obtain ⟨elements, found, count, rfl⟩ := elements_of_alone built
  refine ⟨elements, by rw [found], count, ?_, written lawful found encoded, ?_, ?_⟩
  · obtain ⟨a, -, -, rfl, -⟩ | ⟨record, -, -, rfl⟩ | ⟨a, record, -, -, -, rfl⟩ := elements_ok found
    · exact .inl ⟨a, rfl⟩
    · exact .inr (.inl ⟨record, rfl⟩)
    · exact .inr (.inr ⟨a, record, rfl⟩)
  · rw [written lawful found encoded, Element.read?_write_data]
  · intro r' d' taken' n' left' elements' lawful' built' encoded' elements_eq
    obtain ⟨others, found', -, same⟩ := elements_of_alone built'
    rw [found', Except.ok.injEq] at elements_eq
    cases elements_eq
    rw [written lawful found encoded, written lawful' found' encoded'] at same
    have read := Element.read?_write_data elements
    rw [same, Element.read?_write_data, Option.some.injEq] at read
    exact read

/-- The name of a principal cannot pass for markup. -/
theorem alone_readable_forged_name :
    let rules := FeedOptions.rules { dataSource := "hr", feedType := .contentUrl }
    let d := ({ docid := "a", users := ["eve\"></acl>&quot;"] } : DocumentDraft).table.toDocument
    rules.content.codec.Lawful ∧
      ∃ bytes left, rules.alone d {} = (.ok 2, bytes, left) ∧ ¬ rules.CopiesContent d {} ∧
      ∃ elements, (rules.elements d {}).1 = .ok elements ∧
        Markup.read? bytes = some (elements.map Element.data) ∧
        ((elements.map Element.data).map fun
          | .acl a => a.principals.map Markup.PrincipalData.name
          | .record _ => []) = [["eve\"></acl>&quot;"], []] := by
  intro rules d
  have count : (rules.alone d {}).1.toOption = some 2 := by decide +kernel
  have built : rules.alone d {} = (.ok 2, (rules.alone d {}).2.1, (rules.alone d {}).2.2) := by
    cases outcome : (rules.alone d {}).1 with
    | error e => simp [outcome, Except.toOption] at count
    | ok n =>
        have same : n = 2 := by simpa [outcome, Except.toOption] using count
        rw [← same, ← outcome]
  have encoded : ¬ rules.CopiesContent d {} := by
    rintro ⟨record, plan, report, head, -⟩
    cases plan_eq_none head (by decide)
  have names : (rules.elements d {}).1.toOption.map (fun elements => elements.map fun e =>
      match e.data with
      | .acl a => a.principals.map Markup.PrincipalData.name
      | .record _ => []) = some [["eve\"></acl>&quot;"], []] := by decide +kernel
  have lawful : rules.content.codec.Lawful := ContentCodec.standard_lawful
  obtain ⟨elements, found, -, -, -, read, -⟩ := alone_readable rules lawful d {} built encoded
  refine ⟨lawful, _, _, built, encoded, elements, found, read, ?_⟩
  rw [found] at names
  rw [List.map_map]
  exact Option.some.inj names

end IndexFeed.FeedRules
