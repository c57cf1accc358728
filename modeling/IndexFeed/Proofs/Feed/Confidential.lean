import IndexFeed.Proofs.Feed.Outline
import IndexFeed.Proofs.Rules.Agreement

/-!
What the log of a feed tells of content: nothing. Of two documents that agree on everything else,
the log takes up the same text, and the feed the same bytes but for the payload.
-/

namespace IndexFeed

theorem Record.pieces_of_content (head : Record) (encoding : ContentEncoding)
    (payload : List UInt8) :
    ({ head with content := some ⟨encoding, payload⟩ } : Record).pieces
      = [.text (head.head ++ encoding.startTag), .payload payload, .text contentEnd] := rfl

namespace Feed

variable {f g g' : Feed} {d d' : Document} {taken taken' left left' : Taken} {n n' : Nat}

/-- If two documents that agree beside their content are taken by the same feed, the log grows by
the same text, and the bytes differ at most in the payload between the tags of the content. -/
theorem add_hides_content (agrees : d'.AgreesBesideContent d) {log : String}
    (logged : f.log = some log) (added : f.add d taken = (.ok n, g, left))
    (added' : f.add d' taken' = (.ok n', g', left')) :
    n' = n ∧
    (∃ text, g.log = some (log ++ text) ∧ g'.log = some (log ++ text)) ∧
    (g'.bytes = g.bytes ∨
      ∃ (head : Record) (encoding : ContentEncoding) (payload payload' : List UInt8),
        let start := Utf8.encode (head.head ++ encoding.startTag)
        g.bytes.toList = f.bytes.toList ++ (start ++ payload ++ Utf8.encode contentEnd) ∧
        g'.bytes.toList = f.bytes.toList ++ (start ++ payload' ++ Utf8.encode contentEnd)) := by
  obtain ⟨elements, found, rfl, rfl⟩ := elements_of_add added
  obtain ⟨elements', found', rfl, rfl⟩ := elements_of_add added'
  simp only [log_withProgress, log_write, logged, bytes_withProgress]
  obtain rfl | ⟨head, encoding, payload, payload', rfl, rfl⟩ :=
    FeedRules.elements_of_agrees agrees found found'
  · exact ⟨rfl, ⟨_, rfl, rfl⟩, .inl rfl⟩
  · refine ⟨rfl, ⟨_, rfl, rfl⟩, .inr ⟨head, encoding, payload, payload', ?_, ?_⟩⟩
    · rw [bytes_write]
      simp [Element.allPieces, Element.pieces, Record.pieces_of_content, Piece.allBytes,
        Piece.bytes]
    · rw [bytes_write]
      simp [Element.allPieces, Element.pieces, Record.pieces_of_content, Piece.allBytes,
        Piece.bytes]

/-- A document without content, and one whose content is followed by a failure and is listed among
the names. -/
theorem add_hides_content_of_absent_content :
    let o : FeedOptions := { dataSource := "hr", keepsLog := true }
    let d : Document :=
      ⟨({ docid := "a", users := ["eve"] } : DocumentDraft).table.toDocument.find, .ok []⟩
    let d' : Document :=
      { find := fun name =>
          if name = Property.content then .ok (some ⟨[.binary [60, 38]], some (.document "gone")⟩)
          else d.find name
        names := .ok [Property.content] }
    let payloads (d : Document) :=
      (o.rules.elements d {}).1.toOption.map fun elements => elements.map Element.payload?
    (payloads d = some [some [73, 65, 61, 61]] ∧ payloads d' = some [some [80, 67, 89, 61]]) ∧
    d'.AgreesBesideContent d ∧ ∃ log g g' left left', (openWith o "1").log = some log ∧
      (openWith o "1").add d {} = (.ok 1, g, left) ∧
      (openWith o "1").add d' {} = (.ok 1, g', left') ∧
      ∃ text, g.log = some (log ++ text) ∧ g'.log = some (log ++ text) := by
  intro o d d' payloads
  have agrees : d'.AgreesBesideContent d := by
    refine ⟨?_, .listed rfl rfl ?_⟩
    · intro name other
      exact if_neg (by simpa using other)
    · intro name other
      simpa using other
  have differ : payloads d = some [some [73, 65, 61, 61]] ∧
      payloads d' = some [some [80, 67, 89, 61]] := by decide +kernel
  have takes (d : Document) {payload : List UInt8} (held : payloads d = some [some payload]) :
      ∃ g left, (openWith o "1").add d {} = (.ok 1, g, left) := by
    obtain ⟨elements, found, shown⟩ := Option.map_eq_some_iff.mp held
    have one : elements.length = 1 := by simpa using congrArg List.length shown
    have added := add_ok (openWith_ready o "1") (Prod.ext (Outcome.toOption_eq_some.mp found) rfl)
    rw [one] at added
    exact ⟨_, _, added⟩
  obtain ⟨g, left, added⟩ := takes d differ.1
  obtain ⟨g', left', added'⟩ := takes d' differ.2
  have logged : (openWith o "1").log = some (prolog o) := by
    rw [(openWith_shows o "1").log]
    rfl
  obtain ⟨-, grown, -⟩ := add_hides_content agrees logged added added'
  exact ⟨differ, agrees, _, g, g', left, left', logged, added, added', grown⟩

end Feed

end IndexFeed
