import IndexFeed.Proofs.Rules.Extract
import IndexFeed.Proofs.Rules.Refusal

/-!
What becomes of a document's access control. Whether there is any is told by six of its names, and
what is written of it comes from more: an inheritance type alone is not among the six. Everything
else that a list could hold comes from one of them, and so is found again in what is written.
-/

namespace IndexFeed

namespace Document

variable {d : Document}

theorem hasAny_eq_false_iff {names : List String} :
    d.hasAny names = .ok false ↔ ∀ name ∈ names, d.find name = .ok none := by
  induction names with
  | nil => simp [hasAny]
  | cons name names ih =>
      rw [hasAny, List.forall_mem_cons, ← ih, has]
      cases d.find name with
      | error e => simp [Except.map, bind, Except.bind]
      | ok found => cases found <;> simp [Except.map, bind, Except.bind]

end Document

namespace Acl

variable {l : Location} {d : Document} {a : Acl}

/-- A document without any of the marks has no principals and no address to inherit from. -/
theorem ofDocument_unmarked (unmarked : d.hasAcl = .ok false)
    (listed : Acl.ofDocument l d = .ok a) :
    a.inheritFrom = none ∧ a.entries = [] := by
  have absent := Document.hasAny_eq_false_iff.mp unmarked
  obtain ⟨type, entries, -, -, -, parent, lists_read, flat⟩ := ofDocument_ok.mp listed
  have noParent : l.parent? d = .ok none := by
    rw [Location.parent?, Document.nonEmptyText?_absent (absent _ (by simp [Property.aclMarks])),
      Document.nonEmptyText?_absent (absent _ (by simp [Property.aclMarks]))]
    rfl
  have noEntries : lists.mapM (listEntries d) = .ok (lists.map fun _ => []) := by
    apply Outcome.mapM_eq_ok
    intro list member
    have marks : list.1 ∈ Property.aclMarks := by
      revert list
      decide
    rw [listEntries, absent _ marks]
    rfl
  rw [noParent] at parent
  rw [noEntries] at lists_read
  cases lists_read
  exact ⟨(Except.ok.inj parent).symm, by simp [flat]⟩

end Acl

namespace FeedRules

variable {r : FeedRules} {d : Document} {taken left : Taken} {a : Acl}

/-- A list is written inside the only record, or in front of the record with an address of its own.
-/
inductive Writes (r : FeedRules) (a : Acl) : List Element → List UInt8 → Prop where
  | inside {record : Record} {rest : List UInt8} (held : record.acl = some a) :
      Writes r a [.record record] (Utf8.encode (record.attributes.startTag ++ a.markup) ++ rest)
  | inFront {url : String} {record : Record} {rest : List UInt8}
      (contentUrl : r.feedType = .contentUrl) :
      Writes r a [.acl { a with url := some url }, .record record]
        (Utf8.encode { a with url := some url : Acl}.markup ++ rest)

theorem Writes.held {elements : List Element} {bytes : List UInt8} {record : Record}
    (writes : r.Writes a elements bytes) (alone : elements = [.record record]) :
    record.acl = some a := by
  cases writes with
  | inside held =>
      cases alone
      exact held
  | inFront => cases alone

theorem bytes_of_head (record : Record) :
    ∃ rest, Piece.allBytes (Element.allPieces [.record record])
      = Utf8.encode record.head ++ rest := by
  cases held : record.content with
  | none =>
      refine ⟨Utf8.encode (Markup.endTag "record"), ?_⟩
      simp [Element.allPieces, Element.pieces, Record.pieces, held, Piece.allBytes, Piece.bytes,
        Utf8.encode_append]
  | some c =>
      refine ⟨Utf8.encode c.encoding.startTag ++ (c.payload ++ Utf8.encode contentEnd), ?_⟩
      simp [Element.allPieces, Element.pieces, Record.pieces, held, Piece.allBytes, Piece.bytes,
        Utf8.encode_append]

theorem bytes_of_acl {record : Record} (held : record.acl = some a) :
    ∃ rest, Piece.allBytes (Element.allPieces [.record record])
      = Utf8.encode (record.attributes.startTag ++ a.markup) ++ rest := by
  obtain ⟨rest, bytes⟩ := bytes_of_head record
  rw [bytes, Record.head, held, Utf8.encode_append, List.append_assoc]
  exact ⟨_, rfl⟩

/-- What feeds a document that is neither a list nor deleted. -/
theorem elements_keep (notAcl : ¬ d.IsAclTyped) (stays : ¬ d.IsDelete)
    (listed : Acl.ofDocument r.location d = .ok a) {elements : List Element}
    (h : r.elements d taken = (.ok elements, left)) :
    a.url = none ∧
    (d.hasAcl = .ok true ∧
        r.Writes a elements (Piece.allBytes (Element.allPieces elements)) ∨
      d.hasAcl = .ok false ∧ ∃ record, elements = [.record record] ∧ record.acl = none) := by
  obtain ⟨type, declared⟩ := declaredType_of_elements h
  have other : type ≠ some .acl := by
    rintro rfl
    exact notAcl (Document.isAclTyped_iff.mpr declared)
  have bare : a.url = none := by
    obtain ⟨_, _, declared', addressed, -⟩ := Acl.ofDocument_ok.mp listed
    obtain rfl : type = _ := Except.ok.inj (declared.symm.trans declared')
    rw [if_neg other] at addressed
    exact (Except.ok.inj addressed).symm
  refine ⟨bare, ?_⟩
  obtain ⟨_, feeding, -⟩ | ⟨record, feeding, found, rfl⟩ |
    ⟨list, record, feeding, extracted, -, rfl⟩ := elements_ok h
  · exact absurd (feeding_eq_acl.mp feeding) notAcl
  · obtain ⟨fields, read, held, -⟩ := record_fields found
    have marked := (RecordFields.ofDocument_ok read).2.1
    rw [heldAcl, (RecordFields.isDelete_eq_false read).mpr stays, listed] at held
    cases marks : fields.hasAcl with
    | true =>
        rw [marks] at held marked
        obtain ⟨rest, bytes⟩ := bytes_of_acl (Except.ok.inj held).symm
        rw [bytes]
        exact .inl ⟨marked, .inside (Except.ok.inj held).symm⟩
    | false =>
        rw [marks] at held marked
        exact .inr ⟨marked, record, rfl, (Except.ok.inj held).symm⟩
  · obtain ⟨contentUrl, marked, -⟩ := feeding_eq_aclThenRecord.mp feeding
    obtain ⟨url, original, -, listed', -, rfl⟩ :=
      Acl.ofDocument_extractedAcl declared other extracted
    obtain rfl : a = original := Except.ok.inj (listed.symm.trans listed')
    rw [Element.allPieces, List.flatMap_cons, Piece.allBytes_append]
    refine .inl ⟨marked, ?_⟩
    have front : Piece.allBytes (Element.acl { a with url := some url }).pieces
        = Utf8.encode { a with url := some url : Acl}.markup := List.append_nil _
    rw [front]
    exact .inFront contentUrl

/-- Principals and an address to inherit from are never lost: they are written inside the record or
in front of it, with the inheritance type beside them. An inheritance type with neither of them is
written nowhere. -/
theorem alone_keeps (notAcl : ¬ d.IsAclTyped) (stays : ¬ d.IsDelete)
    (listed : Acl.ofDocument r.location d = .ok a) {n : Nat} {bytes : List UInt8}
    (built : r.alone d taken = (.ok n, bytes, left)) :
    a.url = none ∧ ∃ elements, (r.elements d taken).1 = .ok elements ∧
      (a.inheritFrom ≠ none ∨ a.entries ≠ [] → r.Writes a elements bytes) ∧
      (r.Writes a elements bytes ↔ d.hasAcl = .ok true) ∧
      (d.hasAcl = .ok false ↔ ∀ name ∈ Property.aclMarks, d.find name = .ok none) ∧
      (¬ r.Writes a elements bytes → a.inheritFrom = none ∧ a.entries = [] ∧
        ∃ record, elements = [.record record] ∧ record.acl = none) := by
  obtain ⟨elements, found, rfl, rfl⟩ := elements_of_alone built
  obtain ⟨bare, ⟨marked, writes⟩ | ⟨unmarked, record, rfl, unheld⟩⟩ :=
    elements_keep notAcl stays listed found
  · exact ⟨bare, elements, by rw [found], fun _ => writes, iff_of_true writes marked,
      Document.hasAny_eq_false_iff, fun lost => absurd writes lost⟩
  · obtain ⟨noParent, noEntries⟩ := Acl.ofDocument_unmarked unmarked listed
    have lost : ¬ r.Writes a [.record record]
        (Piece.allBytes (Element.allPieces [.record record])) := by
      intro writes
      cases unheld.symm.trans (writes.held rfl)
    refine ⟨bare, _, by rw [found], ?_, iff_of_false lost (by simp [unmarked]),
      Document.hasAny_eq_false_iff, fun _ => ⟨noParent, noEntries, record, rfl, unheld⟩⟩
    rintro (parent | entries)
    · exact absurd noParent parent
    · exact absurd noEntries entries

/-- Principals in a record and in front of one, and an inheritance type that stays beside them. -/
theorem alone_keeps_inheritance_beside_principal :
    let rules := FeedOptions.rules { dataSource := "hr", feedType := .contentUrl }
    let d := (PropertyTable.ofPairs
      [(Property.docid, .string "a"), (Property.aclInheritanceType, .string "parent-overrides"),
        (Property.aclUsers, .string "eve")]).toDocument
    let list : Acl :=
      { inheritanceType := some "parent-overrides"
        entries := [⟨{ name := "eve" }, .user, .permit⟩] }
    ¬ d.IsAclTyped ∧ ¬ d.IsDelete ∧ Acl.ofDocument rules.location d = .ok list ∧
      ∃ bytes left elements, rules.alone d {} = (.ok 2, bytes, left) ∧
        (rules.elements d {}).1 = .ok elements ∧ rules.Writes list elements bytes := by
  intro rules d list
  have notAcl : ¬ d.IsAclTyped := by
    rintro ⟨v, first, -⟩
    cases first
  have stays : ¬ d.IsDelete := by
    rintro ⟨v, first, -⟩
    cases first
  have listed : Acl.ofDocument rules.location d = .ok list := by
    rw [← Outcome.toOption_eq_some]
    decide +kernel
  have count : (rules.elements d {}).1.toOption.map List.length = some 2 := by decide +kernel
  obtain ⟨elements, found, two⟩ := Option.map_eq_some_iff.mp count
  obtain ⟨bytes, left, built⟩ := exists_alone (Outcome.toOption_eq_some.mp found)
  rw [two] at built
  obtain ⟨-, elements', same, keeps, -⟩ := alone_keeps notAcl stays listed built
  exact ⟨notAcl, stays, listed, bytes, left, elements', built, same, keeps (.inr (by simp [list]))⟩

/-- A document whose access control is nothing but an inheritance type is fed without it. -/
theorem alone_loses_inheritance_type :
    let rules := FeedOptions.rules { dataSource := "ds", feedType := .contentUrl }
    let d := (PropertyTable.ofPairs
      [(Property.docid, .string "a"),
        (Property.aclInheritanceType, .string "parent-overrides")]).toDocument
    ¬ d.IsAclTyped ∧ ¬ d.IsDelete ∧
      Acl.ofDocument rules.location d = .ok { inheritanceType := some "parent-overrides" } ∧
      ∃ record left, (rules.elements d {}).1 = .ok [.record record] ∧
        rules.alone d {} = (.ok 1, Utf8.encode ("<record"
          ++ " url=\"googleconnector://ds.localhost/doc?docid=a\" mimetype=\"text/html\""
          ++ " authmethod=\"none\">\n</record>\n"), left) ∧
        ∀ bytes, ¬ rules.Writes { inheritanceType := some "parent-overrides" } [.record record]
          bytes := by
  intro rules d
  let record : Record :=
    { attributes :=
        { url := "googleconnector://ds.localhost/doc?docid=a", mimetype := "text/html"
          authMethod := "none" } }
  have notAcl : ¬ d.IsAclTyped := by
    rintro ⟨v, first, -⟩
    cases first
  have stays : ¬ d.IsDelete := by
    rintro ⟨v, first, -⟩
    cases first
  have listed : Acl.ofDocument rules.location d
      = .ok { inheritanceType := some "parent-overrides" } := by
    rw [← Outcome.toOption_eq_some]
    decide +kernel
  have shown : (rules.elements d {}).1.toOption = some [.record record] := by decide +kernel
  have found := Outcome.toOption_eq_some.mp shown
  obtain ⟨bytes, left, built⟩ := exists_alone found
  obtain ⟨elements, found', -, rfl⟩ := elements_of_alone built
  have same : elements = [.record record] := by
    rw [found'] at found
    exact Except.ok.inj found
  refine ⟨notAcl, stays, listed, record, left, found, ?_,
    fun bytes writes => nomatch writes.held rfl⟩
  rw [built, same]
  have written : Piece.allBytes (Element.allPieces [.record record]) = Utf8.encode ("<record"
      ++ " url=\"googleconnector://ds.localhost/doc?docid=a\" mimetype=\"text/html\""
      ++ " authmethod=\"none\">\n</record>\n") := by decide +kernel
  rw [written]
  rfl

end FeedRules

end IndexFeed
