import IndexFeed.Proofs.Metadata
import IndexFeed.Proofs.Rules
import IndexFeed.Proofs.Rules.Refusal

/-!
Which streams are taken while a document is written: none but the one that the first value of its
content is, and that one only when everything in front of the content has been read. So a document
that fails before that, or that is not to be fed with content, can be written again.
-/

namespace IndexFeed

theorem Taken.has_add {taken : Taken} {held s : SharedSource} :
    (taken.add held).has s = true ↔ taken.has s = true ∨ held.number = s.number := by
  rw [has, add, List.contains_cons, Bool.or_eq_true, beq_iff_eq, or_comm, @eq_comm _ s.number, has]

/-- The first value of a document's content is a stream, which bears the number of `s`. -/
def Document.HoldsStream (d : Document) (s : SharedSource) : Prop :=
  ∃ held : SharedSource, d.first? Property.content = some (.stream held) ∧ held.number = s.number

namespace FeedRules

variable {r : FeedRules} {d : Document} {taken : Taken}

theorem openContent_takes (s : SharedSource) :
    (openContent d taken).2.has s = true ↔ taken.has s = true ∨ d.HoldsStream s := by
  cases read : d.value? Property.content with
  | error e =>
      have nothing : ¬ d.HoldsStream s := by
        rintro ⟨held, first, -⟩
        cases read.symm.trans (Document.value?_eq_some.mpr first)
      simp [openContent, read, nothing]
  | ok found =>
      have first := Document.first?_of_value? read
      cases found with
      | none => simp [openContent, read, Document.HoldsStream, first]
      | some v =>
          cases v with
          | stream held =>
              cases gone : taken.has held with
              | false =>
                  simp [openContent, read, Document.HoldsStream, first, Value.openSource, gone,
                    Taken.has_add]
              | true =>
                  have same (number : held.number = s.number) : taken.has s = true := by
                    rwa [Taken.has, ← number]
                  simpa [openContent, read, Document.HoldsStream, first, Value.openSource, gone]
                    using same
          | string _ | boolean _ | integer _ | real _ | date _ | binary _ | principal _ =>
              simp [openContent, read, Document.HoldsStream, first, Value.openSource]

/-- Content is to be written of the document, and all that is read of it before could be read. -/
structure ReachesContent (r : FeedRules) (d : Document) : Prop where
  content : r.feedType = .content
  type : ∃ type, d.declaredType = .ok type ∧ type ≠ some .acl
  kept : ¬ d.IsDelete
  attributes : ∃ fields, RecordFields.ofDocument r.location d = .ok fields
  acl : d.hasAcl = .ok true → ∃ list, Acl.ofDocument r.location d = .ok list
  metadata : ∃ metadata, Metadata.ofDocument d = .ok metadata
  encoding : ∃ declared plan, d.text? Property.contentEncoding = .ok declared ∧
    r.content.planFor declared = .ok plan

theorem feeding_of_content (content : r.feedType = .content) :
    r.feeding d = .ok .record ↔ ∃ type, d.declaredType = .ok type ∧ type ≠ some .acl := by
  rw [feeding, Outcome.bind_eq_ok]
  refine exists_congr fun type => and_congr_right fun _ => ?_
  by_cases acl : type = some .acl
  · simp [acl]
  · simp [acl, content]

theorem metadata_shown (d : Document) (hidden : Bool) :
    Metadata.ofDocument (if hidden then d.withoutAcl else d) = Metadata.ofDocument d := by
  cases hidden with
  | false => rfl
  | true => exact Metadata.ofDocument_withoutAcl d

theorem reachesContent_of_head {record : Record} {plan : ContentPlan}
    (feeding : r.feeding d = .ok .record) (h : r.head d = .ok (record, some plan)) :
    r.ReachesContent d := by
  obtain ⟨kept, content⟩ := (isSome_plan h).mp rfl
  obtain ⟨fields, acl, metadata, read, listed, shown, held, -⟩ := head_ok h
  have notDelete := (RecordFields.isDelete_eq_false read).mpr kept
  rw [heldMetadata, if_pos (by simp [notDelete, content]), metadata_shown] at shown
  obtain ⟨declared, named, planned⟩ := heldContent_ok held
  rw [Document.text?_congr (find_shown d (by simp [Property.withheld]) _)] at named
  refine ⟨content, (feeding_of_content content).mp feeding, kept, ⟨fields, read⟩, ?_, ?_,
    declared, plan, named, planned⟩
  · intro marked
    have has : fields.hasAcl = true :=
      (Except.ok.inj (marked.symm.trans (RecordFields.ofDocument_ok read).2.1)).symm
    rw [heldAcl, if_pos (by simp [notDelete, has])] at listed
    obtain ⟨list, found, -⟩ := Outcome.map_eq_ok.mp listed
    exact ⟨list, found⟩
  · obtain ⟨metadata, found, -⟩ := Outcome.map_eq_ok.mp shown
    exact ⟨metadata, found⟩

theorem ReachesContent.head (h : r.ReachesContent d) :
    ∃ record plan, r.head d = .ok (record, some plan) := by
  obtain ⟨fields, read⟩ := h.attributes
  obtain ⟨metadata, shown⟩ := h.metadata
  obtain ⟨declared, plan, named, planned⟩ := h.encoding
  have notDelete := (RecordFields.isDelete_eq_false read).mpr h.kept
  obtain ⟨acl, listed⟩ : ∃ acl, r.heldAcl fields d = .ok acl := by
    rw [heldAcl]
    split
    · rename_i held
      have marked := (RecordFields.ofDocument_ok read).2.1
      rw [(Bool.and_eq_true_iff.mp held).2] at marked
      obtain ⟨list, found⟩ := h.acl marked
      exact ⟨some list, by rw [found]; rfl⟩
    · exact ⟨none, rfl⟩
  have holdsMetadata : r.heldMetadata fields (if acl.isSome then d.withoutAcl else d)
      = .ok (some metadata) := by
    rw [heldMetadata, if_pos (by simp [notDelete, h.content]), metadata_shown, shown]
    rfl
  have holdsContent : r.heldContent fields (if acl.isSome then d.withoutAcl else d)
      = .ok (some plan) := by
    rw [heldContent, if_pos (by simp [notDelete, h.content]),
      Document.text?_congr (find_shown d (by simp [Property.withheld]) _), named,
      Outcome.mapError_ok, Outcome.ok_bind, planned]
    rfl
  exact ⟨_, plan, head_of_parts read listed holdsMetadata holdsContent⟩

theorem record_left {head : Record} {plan : ContentPlan} (h : r.head d = .ok (head, some plan)) :
    (r.record d taken).2 = (openContent d taken).2 := by
  rw [FeedRules.record, h]

theorem record_left_of_noPlan (h : ∀ head plan, r.head d ≠ .ok (head, some plan)) :
    (r.record d taken).2 = taken := by
  rw [FeedRules.record]
  split
  · rfl
  · rfl
  · rename_i head plan found
    exact absurd found (h head plan)

theorem elements_left (h : r.ReachesContent d) :
    (r.elements d taken).2 = (openContent d taken).2 := by
  obtain ⟨head, plan, found⟩ := h.head
  have feeding := (feeding_of_content h.content).mpr h.type
  simp only [elements, feeding, record_left found]

theorem elements_left_of_not (h : ¬ r.ReachesContent d) : (r.elements d taken).2 = taken := by
  cases feeding : r.feeding d with
  | error e => simp only [elements, feeding]
  | ok kind =>
      cases kind with
      | acl => simp only [elements, feeding]
      | record =>
          simp only [elements, feeding]
          exact record_left_of_noPlan fun head plan found =>
            h (reachesContent_of_head feeding found)
      | aclThenRecord =>
          have noContent := feedType_of_aclThenRecord feeding
          have bare : (r.record d.inheritingExtract taken).2 = taken := by
            apply record_left_of_noPlan
            intro head plan found
            cases plan_eq_none found noContent
          cases list : r.aclElement d.extractedAcl with
          | error e => simp only [elements, feeding, list]
          | ok list' => simp only [elements, feeding, list, bare]

/-- Writing a document takes the stream in the first value of its content if the content is reached,
and no other stream in any case. -/
theorem write_takes (r : FeedRules) (d : Document) (o : FeedOutput) (taken : Taken) :
    let left := (r.write d o taken).2.2
    (∀ s : SharedSource, left.has s = true ↔
      taken.has s = true ∨ r.ReachesContent d ∧ d.HoldsStream s) ∧
    (¬ r.ReachesContent d → left = taken) := by
  obtain ⟨o', written, -⟩ := r.write_becomes d o taken
  simp only [written]
  refine ⟨?_, elements_left_of_not⟩
  intro s
  by_cases reaches : r.ReachesContent d
  · rw [elements_left reaches, openContent_takes]
    simp [reaches]
  · rw [elements_left_of_not reaches]
    simp [reaches]

/-- The title fails when the content has been opened already, an encoding that is not known fails
before. -/
theorem write_takes_of_late_failure :
    let rules := FeedOptions.rules { dataSource := "hr" }
    let first : SharedSource := ⟨3, .ofBytes [65]⟩
    let second : SharedSource := ⟨4, .ofBytes [66]⟩
    let untitled (encoding : String) : Document :=
      { find := ((PropertyTable.ofPairs [(Property.docid, .string "a"),
          (Property.contentEncoding, .string encoding), (Property.content, .stream first),
          (Property.content, .stream second)]).toDocument.failingAt Property.title
            (.document "gone")).find
        names := .ok [] }
    let written (encoding : String) := rules.write (untitled encoding) ⟨.empty 0, none⟩ {}
    ((written "base64binary").1.toOption = none ∧ (written "base64binary").2.2.has first = true ∧
      (written "base64binary").2.2.has second = false) ∧
    (written "rot13").1.toOption = none ∧ (written "rot13").2.2 = {} := by
  intro rules first second untitled written
  have reaches : rules.ReachesContent (untitled "base64binary") := by
    have head : (rules.head (untitled "base64binary")).toOption.map (·.2)
        = some (some ⟨.base64Binary, true⟩) := by decide +kernel
    obtain ⟨⟨record, plan⟩, found, rfl⟩ := Option.map_eq_some_iff.mp head
    exact reachesContent_of_head rfl (Outcome.toOption_eq_some.mp found)
  have stops : ¬ rules.ReachesContent (untitled "rot13") := by
    rintro ⟨-, -, -, -, -, -, declared, plan, read, planned⟩
    cases read
    cases planned
  have fails :
      (written "base64binary").1.toOption = none ∧ (written "rot13").1.toOption = none := by
    decide +kernel
  obtain ⟨takes, -⟩ := write_takes rules (untitled "base64binary") ⟨.empty 0, none⟩ {}
  have keeps := (write_takes rules (untitled "rot13") ⟨.empty 0, none⟩ {}).2 stops
  have opened : (written "base64binary").2.2.has first = true := by
    rw [takes first]
    exact .inr ⟨reaches, first, rfl, rfl⟩
  have kept : (written "base64binary").2.2.has second = false := by
    rw [← Bool.not_eq_true, takes second]
    rintro (gone | ⟨-, held, found, number⟩)
    · cases gone
    · cases found
      cases number
  exact ⟨⟨fails.1, opened, kept⟩, fails.2, keeps⟩

end FeedRules

end IndexFeed
