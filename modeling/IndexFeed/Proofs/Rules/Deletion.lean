import IndexFeed.Proofs.Rules.Extract
import IndexFeed.Proofs.Rules.Refusal

/-!
Records that delete their documents. Such a record holds no access control, no metadata and no
content, and takes no stream. It is all that is fed of its document, unless access control is taken
out of records: then the list is written all the same, and nothing inherits from it.
-/

namespace IndexFeed

theorem Element.allBytes_lists (lists : List Acl) (rest : List Element) :
    Piece.allBytes (allPieces (lists.map acl ++ rest))
      = Utf8.encode (String.join (lists.map Acl.markup)) ++ Piece.allBytes (allPieces rest) := by
  induction lists with
  | nil => rfl
  | cons list lists ih =>
      rw [List.map_cons, List.cons_append, allBytes_cons, ih, List.map_cons, String.join_cons,
        Utf8.encode_append, List.append_assoc]
      simp [pieces, Piece.allBytes, Piece.bytes]

namespace FeedRules

variable {r : FeedRules} {d : Document} {taken left : Taken}

/-- The access control of a document, if it is no list itself, is taken out of its record. -/
def TakesOut (r : FeedRules) (d : Document) : Prop :=
  r.feedType = .contentUrl ∧ d.hasAcl = .ok true

theorem head_delete (deletes : d.IsDelete) {record : Record} {plan : Option ContentPlan}
    (h : r.head d = .ok (record, plan)) :
    plan = none ∧ ∃ attributes : RecordAttributes, attributes.action = some .delete ∧
      record = { attributes } := by
  obtain ⟨fields, acl, metadata, read, noAcl, noMetadata, noContent, rfl⟩ := head_ok h
  have delete := (RecordFields.isDelete_iff read).mpr deletes
  rw [heldAcl, if_neg (by simp [delete])] at noAcl
  rw [heldMetadata, if_neg (by simp [delete])] at noMetadata
  rw [heldContent, if_neg (by simp [delete])] at noContent
  cases noAcl
  cases noMetadata
  cases noContent
  exact ⟨rfl, fields.attributes, by simpa [RecordAttributes.isDelete] using delete, rfl⟩

theorem record_delete (deletes : d.IsDelete) {record : Record}
    (h : r.record d taken = (.ok record, left)) :
    left = taken ∧ ∃ attributes : RecordAttributes, attributes.action = some .delete ∧
      record = { attributes } := by
  obtain ⟨found, rfl⟩ | ⟨head, plan, written, report, found, -⟩ := record_ok h
  · exact ⟨rfl, (head_delete deletes found).2⟩
  · cases (head_delete deletes found).1

/-- What feeds a document that is deleted: its record, and in front of it the list that is taken out
of it, if there is one. -/
theorem elements_delete (notAcl : ¬ d.IsAclTyped) (deletes : d.IsDelete) {elements : List Element}
    (h : r.elements d taken = (.ok elements, left)) :
    left = taken ∧ ∃ (lists : List Acl) (attributes : RecordAttributes),
      attributes.action = some .delete ∧
      elements = lists.map Element.acl ++ [.record { attributes }] ∧
      (¬ r.TakesOut d → lists = []) ∧
      (r.TakesOut d → ∃ list, Acl.ofDocument r.location d.extractedAcl = .ok list ∧
        lists = [list]) := by
  obtain ⟨type, declared⟩ := declaredType_of_elements h
  have other : type ≠ some .acl := by
    rintro rfl
    exact notAcl (Document.isAclTyped_iff.mpr declared)
  obtain ⟨a, feeding, -⟩ | ⟨record, feeding, found, rfl⟩ | ⟨a, record, feeding, list, found, rfl⟩ :=
    elements_ok h
  · exact absurd (feeding_eq_acl.mp feeding) notAcl
  · obtain ⟨same, attributes, delete, rfl⟩ := record_delete deletes found
    refine ⟨same, [], attributes, delete, rfl, fun _ => rfl, ?_⟩
    rintro ⟨contentUrl, marked⟩
    have takesOut := feeding_eq_aclThenRecord.mpr ⟨contentUrl, marked, type, declared, other⟩
    cases feeding.symm.trans takesOut
  · obtain ⟨same, attributes, delete, rfl⟩ :=
      record_delete (isDelete_inheritingExtract.mpr deletes) found
    obtain ⟨contentUrl, marked, -⟩ := feeding_eq_aclThenRecord.mp feeding
    refine ⟨same, [a], attributes, delete, rfl, ?_, fun _ => ⟨a, list, rfl⟩⟩
    exact fun inline => absurd ⟨contentUrl, marked⟩ inline

/-- A document that is deleted is fed as a record with nothing in it, and nothing else can be read
back. Only where access control is taken out of records, a list of the document's own stands in
front of the record. -/
theorem alone_deletes (notAcl : ¬ d.IsAclTyped) (deletes : d.IsDelete) {n : Nat}
    {bytes : List UInt8} (built : r.alone d taken = (.ok n, bytes, left)) :
    left = taken ∧ ∃ (lists : List Acl) (attributes : RecordAttributes),
      attributes.action = some .delete ∧
      (r.elements d taken).1 = .ok (lists.map Element.acl ++ [.record { attributes }]) ∧
      n = lists.length + 1 ∧
      bytes = Utf8.encode
        (String.join (lists.map Acl.markup) ++ (attributes.startTag ++ Markup.endTag "record")) ∧
      Markup.read? bytes = some (lists.map (fun list => .acl list.data)
        ++ [.record ⟨Markup.present attributes.listed, none, none, none⟩]) ∧
      (¬ r.TakesOut d → lists = []) ∧
      (r.TakesOut d → ∃ list, Acl.ofDocument r.location d.extractedAcl = .ok list ∧
        lists = [list]) := by
  obtain ⟨elements, found, rfl, rfl⟩ := elements_of_alone built
  obtain ⟨same, lists, attributes, delete, rfl, without, takenOut⟩ :=
    elements_delete notAcl deletes found
  have inert : ∀ e ∈ lists.map Element.acl ++ [.record { attributes }], e.HasInertPayload := by
    intro e member
    obtain listed | last := List.mem_append.mp member
    · obtain ⟨list, -, rfl⟩ := List.mem_map.mp listed
      trivial
    · rw [List.mem_singleton.mp last]
      simp [Element.HasInertPayload]
  refine ⟨same, lists, attributes, delete, by rw [found], by simp, ?_, ?_, without, takenOut⟩
  · rw [Element.allBytes_lists, Utf8.encode_append]
    simp [Element.allPieces, Element.pieces, Record.pieces, Record.head, Piece.allBytes,
      Piece.bytes]
  · rw [Element.allBytes_eq_write inert, Element.read?_write_data]
    simp [Element.data, Record.data, Function.comp_def]

/-- Access control, metadata and a stream that could not be read are all left alone. -/
theorem alone_deletes_of_broken_content :
    let rules := FeedOptions.rules { dataSource := "hr" }
    let d := ({ docid := "a", action := some "Delete", title := some "gone", users := ["eve"]
                content := some (.stream ⟨0, ⟨[], some ⟨"gone"⟩⟩⟩) } :
        DocumentDraft).table.toDocument
    ¬ d.IsAclTyped ∧ d.IsDelete ∧
    ∃ bytes left, rules.alone d {} = (.ok 1, bytes, left) ∧ left = {} ∧
      Markup.read? bytes = some [.record
        ⟨[("url", "googleconnector://hr.localhost/doc?docid=a"), ("action", "delete"),
          ("mimetype", "text/html"), ("authmethod", "none")], none, none, none⟩] := by
  intro rules d
  let attributes : RecordAttributes :=
    { url := "googleconnector://hr.localhost/doc?docid=a", action := some .delete
      mimetype := "text/html", authMethod := "none" }
  have notAcl : ¬ d.IsAclTyped := by
    rintro ⟨v, first, -⟩
    cases first
  have deletes : d.IsDelete := ⟨.string "Delete", rfl, by decide⟩
  have shown : (rules.elements d {}).1.toOption = some [.record { attributes }] := by decide
  have found := Outcome.toOption_eq_some.mp shown
  obtain ⟨bytes, left, built⟩ := exists_alone found
  obtain ⟨same, lists, attributes', -, elements, -, -, read, without, -⟩ :=
    alone_deletes notAcl deletes built
  rw [without (fun takesOut => nomatch takesOut.1)] at elements read
  rw [found] at elements
  cases elements
  exact ⟨notAcl, deletes, bytes, left, built, same, read⟩

/-- In a content-address feed, the list of a document that is deleted is written in front of the
deletion. -/
theorem alone_delete_writes_list :
    let rules := FeedOptions.rules { dataSource := "hr", feedType := .contentUrl }
    let d := ({ docid := "a", action := some "delete", users := ["eve"] }
      : DocumentDraft).table.toDocument
    ¬ d.IsAclTyped ∧ d.IsDelete ∧
    rules.alone d {} = (.ok 2, Utf8.encode
      ("<acl url=\"googleconnector://hr.localhost/doc?docid=a#generated-acl\">\n"
        ++ "<principal scope=\"user\" access=\"permit\">eve</principal>\n</acl>\n"
        ++ "<record url=\"googleconnector://hr.localhost/doc?docid=a\" action=\"delete\""
        ++ " mimetype=\"text/html\" authmethod=\"none\">\n</record>\n"), {}) := by
  intro rules d
  let list : Acl :=
    { url := some "googleconnector://hr.localhost/doc?docid=a#generated-acl"
      entries := [⟨{ name := "eve" }, .user, .permit⟩] }
  let record : Record :=
    { attributes :=
        { url := "googleconnector://hr.localhost/doc?docid=a", action := some .delete
          mimetype := "text/html", authMethod := "none" } }
  have notAcl : ¬ d.IsAclTyped := by
    rintro ⟨v, first, -⟩
    cases first
  have shown : (rules.elements d {}).1.toOption = some [.acl list, .record record] := by decide
  have found : rules.elements d {} = (.ok [.acl list, .record record], {}) :=
    Prod.ext (Outcome.toOption_eq_some.mp shown) rfl
  refine ⟨notAcl, ⟨.string "delete", rfl, by decide⟩, ?_⟩
  rw [alone_ok found]
  decide +kernel

end FeedRules

end IndexFeed
