import IndexFeed.Proofs.Document
import IndexFeed.Proofs.Feed.Outline

/-!
What the payload of a document is made of. The content of a document that declares it to be encoded
already is copied byte for byte, whatever these bytes are. Every other payload has no characters but
those of base64 and line feeds, so that no content can pass for markup.
-/

namespace IndexFeed

/-- Whether a document says that its content is encoded already. -/
def Document.declaresEncoding (d : Document) : Bool :=
  match d.text? Property.contentEncoding with
  | .ok declared => declared.any fun name => Text.trim name != ""
  | .error _ => false

/-- Every payload is what was read of content that was encoded before, or was encoded on the way. -/
theorem ContentPolicy.writeWith_confined {c : ContentCodec} (lawful : c.Lawful) {p : ContentPolicy}
    {plan : ContentPlan} {content : Option Source} {substitute out : List UInt8}
    {report : ContentReport} (h : p.writeWith c plan content substitute = (out, .ok report)) :
    if plan.alreadyEncoded = true ∧ p.firstBytes content ≠ [] then out = p.firstBytes content
    else ∀ b ∈ out, b ∈ Base64.alphabet ∨ b = Base64.padding ∨ b = lineFeed := by
  obtain ⟨already, -, copied, some_byte⟩ | ⟨encodes, wraps, pieces, rfl⟩ := writeWith_ok h
  · rw [if_pos ⟨already, copied ▸ some_byte⟩]
    exact copied
  · have notCopied : ¬ (plan.alreadyEncoded = true ∧ p.firstBytes content ≠ []) := by
      rintro ⟨already, some_byte⟩
      obtain not_yet | none := encodes
      · rw [already] at not_yet
        cases not_yet
      · exact some_byte none
    rw [if_neg notCopied]
    intro b member
    exact lawful.mem_encode member

namespace FeedRules

variable {r : FeedRules} {d : Document} {taken left : Taken}

/-- What is read of a document's content. -/
def contentRead (r : FeedRules) (d : Document) (taken : Taken) : List UInt8 :=
  match (openContent d taken).1 with
  | .ok content => r.content.firstBytes content
  | .error _ => []

theorem alreadyEncoded_of_head {record : Record} {plan : ContentPlan}
    (h : r.head d = .ok (record, some plan)) : plan.alreadyEncoded = d.declaresEncoding := by
  obtain ⟨fields, acl, metadata, -, -, -, held, -⟩ := head_ok h
  obtain ⟨declared, found, planned⟩ := heldContent_ok held
  have shown : (if acl.isSome then d.withoutAcl else d).text? Property.contentEncoding
      = d.text? Property.contentEncoding := by
    split
    · exact Document.text?_congr (d.find_withoutAcl Property.contentEncoding
        (Property.isAcl_withheld (by simp [Property.withheld])))
    · rfl
  rw [shown] at found
  rw [ContentPolicy.planFor_ok planned, Document.declaresEncoding, found]

theorem payload_confined (lawful : r.content.codec.Lawful) {plan : ContentPlan}
    {written : List UInt8} {report : ContentReport}
    (h : r.payload plan d (openContent d taken).1 = (written, .ok report)) :
    if plan.alreadyEncoded = true ∧ r.contentRead d taken ≠ [] then written = r.contentRead d taken
    else ∀ b ∈ written, b ∈ Base64.alphabet ∨ b = Base64.padding ∨ b = lineFeed := by
  obtain ⟨source, substitute, opened, outcome⟩ := payload_ok h
  have content : (openContent d taken).1 = .ok source := by
    obtain ⟨source', opened', rest⟩ := Outcome.bind_eq_ok.mp opened
    obtain ⟨title, -, rest⟩ := Outcome.bind_eq_ok.mp rest
    obtain ⟨mimetype, -, same⟩ := Outcome.bind_eq_ok.mp rest
    cases same
    exact opened'
  have read : r.contentRead d taken = r.content.firstBytes source := by
    rw [contentRead, content]
  rw [read]
  exact ContentPolicy.writeWith_confined lawful outcome

/-- The payload in what is written for a document stands right between the start tag and the end tag
of the content of the one record that the document comes to. If the document says that its content
is encoded already and has any, the payload is what was read of it; otherwise it has no characters
but those of base64 and line feeds, whatever the content. So it is with any encoders that put out
the formats they are named for. -/
theorem alone_payload (r : FeedRules) (lawful : r.content.codec.Lawful) (d : Document)
    (taken : Taken) {n : Nat} {bytes : List UInt8} {left : Taken}
    (built : r.alone d taken = (.ok n, bytes, left)) :
    ∃ elements, (r.elements d taken).1 = .ok elements ∧
      bytes = Piece.allBytes (Element.allPieces elements) ∧
      (∀ e ∈ elements, ∀ payload, e.payload? = some payload →
        (∃ (head : String) (encoding : ContentEncoding), elements = [e] ∧
          bytes = Utf8.encode (head ++ encoding.startTag) ++ payload ++ Utf8.encode contentEnd) ∧
        if d.declaresEncoding = true ∧ r.contentRead d taken ≠ [] then
          payload = r.contentRead d taken
        else ∀ b ∈ payload, b ∈ Base64.alphabet ∨ b = Base64.padding ∨ b = lineFeed) ∧
      ∀ c : ContentCodec, c.Lawful → ∀ plan content substitute out report,
        r.content.writeWith c plan content substitute = (out, .ok report) →
          if plan.alreadyEncoded = true ∧ r.content.firstBytes content ≠ [] then
            out = r.content.firstBytes content
          else ∀ b ∈ out, b ∈ Base64.alphabet ∨ b = Base64.padding ∨ b = lineFeed := by
  obtain ⟨elements, found, -, rfl⟩ := elements_of_alone built
  refine ⟨elements, by rw [found], rfl, ?_, ?_⟩
  · intro e member payload held
    obtain ⟨head, plan, report, -, head_eq, paid, rfl⟩ := payload_cases found member held
    refine ⟨⟨head.head, plan.encoding, ?_, ?_⟩, ?_⟩
    · rw [List.mem_singleton.mp member]
    · simp [Element.allPieces, Element.pieces, Record.pieces, Piece.allBytes, Piece.bytes,
        Record.head]
    · rw [← alreadyEncoded_of_head head_eq]
      exact payload_confined lawful paid
  · intro c lawful plan content substitute out report written
    exact ContentPolicy.writeWith_confined lawful written

/-- Content that looks like markup. -/
theorem alone_payload_of_markup :
    let rules := FeedOptions.rules { dataSource := "hr" }
    let d : Document :=
      ⟨(PropertyTable.ofPairs
          [(Property.docid, .string "a"), (Property.content, .string "<b/>")]).toDocument.find,
        .ok []⟩
    rules.content.codec.Lawful ∧
      ∃ n bytes left, rules.alone d {} = (.ok n, bytes, left) ∧ d.declaresEncoding = false ∧
      ∃ elements, (rules.elements d {}).1 = .ok elements ∧
        elements.filterMap Element.payload? = [Utf8.encode "PGIvPg=="] ∧
        ∀ e ∈ elements, ∀ payload, e.payload? = some payload →
          ∀ b ∈ payload, b ∈ Base64.alphabet ∨ b = Base64.padding ∨ b = lineFeed := by
  intro rules d
  have payloads : (rules.elements d {}).1.toOption.map (·.filterMap Element.payload?)
      = some [Utf8.encode "PGIvPg=="] := by decide +kernel
  have plain : d.declaresEncoding = false := by decide +kernel
  cases found : rules.elements d {} with
  | mk outcome left =>
      cases outcome with
      | error e => simp [found, Except.toOption] at payloads
      | ok elements =>
          have built := alone_ok found
          have lawful : rules.content.codec.Lawful := ContentCodec.standard_lawful
          obtain ⟨elements', same, -, confined, -⟩ := alone_payload rules lawful d {} built
          rw [found, Except.ok.injEq] at same
          rw [found] at payloads
          refine ⟨lawful, _, _, _, built, plain, elements, rfl, Option.some.inj payloads, ?_⟩
          intro e member payload held
          have written := (confined e (same ▸ member) payload held).2
          rwa [if_neg (by simp [plain])] at written

/-- Content that looks like markup is copied if the document says that it is in base64 already. -/
theorem alone_copies_markup :
    let rules := FeedOptions.rules { dataSource := "hr" }
    let d : Document :=
      ⟨(PropertyTable.ofPairs
          [(Property.docid, .string "a"), (Property.contentEncoding, .string "base64binary"),
            (Property.content, .string "<b/>")]).toDocument.find, .ok []⟩
    ∃ elements left, rules.elements d {} = (.ok elements, left) ∧
      (rules.alone d {}).1 = .ok 1 ∧
      ∃ e ∈ elements, ∃ payload, e.payload? = some payload ∧
        ¬ ∀ b ∈ payload, b ∈ Base64.alphabet ∨ b = Base64.padding ∨ b = lineFeed := by
  intro rules d
  have payloads : (rules.elements d {}).1.toOption.map (·.map Element.payload?)
      = some [some (Utf8.encode "<b/>")] := by decide +kernel
  cases found : rules.elements d {} with
  | mk outcome left =>
      cases outcome with
      | error e => simp [found, Except.toOption] at payloads
      | ok elements =>
          rw [found] at payloads
          obtain ⟨e, rest, rfl, held, none⟩ := List.map_eq_cons_iff.mp (Option.some.inj payloads)
          cases List.map_eq_nil_iff.mp none
          refine ⟨[e], left, rfl, ?_, e, List.mem_singleton_self e, _, held, ?_⟩
          · rw [alone_ok found]
            rfl
          · decide +kernel

end FeedRules

end IndexFeed
