import IndexFeed.Proofs.Inspection.Elements

/-!
Inspecting what was fed. The payloads of a feed are encoded, or else copied from documents whose
content is encoded already; as long as no copied payload holds a bracket, inspection finds in the
feed's text just the elements that were added, and whether the feed is closed.
-/

namespace IndexFeed

open Inspection Markup

theorem Element.length_eq_countP (elements : List Element) :
    elements.length = elements.countP isRecord + elements.countP isAcl := by
  induction elements with
  | nil => rfl
  | cons e rest ih =>
      rw [List.length_cons, List.countP_cons, List.countP_cons, ih]
      cases e with
      | acl a =>
          simp only [isRecord, isAcl, Bool.false_eq_true, if_true, if_false]
          omega
      | record r =>
          simp only [isRecord, isAcl, Bool.false_eq_true, if_true, if_false]
          omega

theorem Markup.not_mem_of_isInert {payload : List UInt8} (inert : ∀ b ∈ payload, isInert b = true) :
    '<'.toUInt8 ∉ payload := by
  intro member
  have bracket : isInert '<'.toUInt8 = false := by decide
  rw [inert _ member] at bracket
  cases bracket

theorem Piece.exists_text {pieces : List Piece}
    (each : ∀ p ∈ pieces, ∃ text, Utf8.encode text = p.bytes) :
    ∃ text, Utf8.encode text = allBytes pieces := by
  induction pieces with
  | nil => exact ⟨"", rfl⟩
  | cons p rest ih =>
      rw [List.forall_mem_cons] at each
      obtain ⟨first, first_bytes⟩ := each.1
      obtain ⟨more, more_bytes⟩ := ih each.2
      refine ⟨first ++ more, ?_⟩
      rw [Utf8.encode_append, first_bytes, more_bytes]
      rfl

theorem Element.mem_pieces {e : Element} {p : Piece} (member : p ∈ e.pieces) :
    (∃ s, p = .text s) ∨ ∃ payload, e.payload? = some payload ∧ p = .payload payload := by
  cases e with
  | acl a => exact .inl ⟨_, List.mem_singleton.mp member⟩
  | record r =>
      cases held : r.content with
      | none =>
          rw [Element.pieces, Record.pieces, held] at member
          exact .inl ⟨_, List.mem_singleton.mp member⟩
      | some content =>
          rw [Element.pieces, Record.pieces, held] at member
          simp only [List.mem_cons, List.not_mem_nil, or_false] at member
          obtain rfl | rfl | rfl := member
          · exact .inl ⟨_, rfl⟩
          · exact .inr ⟨_, by rw [Element.payload?, held]; rfl, rfl⟩
          · exact .inl ⟨_, rfl⟩

namespace FeedOutline

variable {v : FeedOutline}

theorem Accounts.bracketless (accounts : v.Accounts)
    (free : ∀ payload ∈ v.copied, '<'.toUInt8 ∉ payload) :
    ∀ e ∈ v.elements, ∀ payload, e.payload? = some payload → '<'.toUInt8 ∉ payload := by
  intro e member payload held
  obtain inert | copied := accounts e member payload held
  · exact not_mem_of_isInert inert
  · exact free payload copied

/-- If the copied payloads are text, then so is the feed. -/
theorem Accounts.exists_text (accounts : v.Accounts)
    (readable : ∀ payload ∈ v.copied, (Utf8.decode? payload).isSome) (o : FeedOptions) :
    ∃ text, Utf8.encode text = Piece.allBytes (v.pieces o) := by
  apply Piece.exists_text
  intro p member
  simp only [pieces, List.mem_append, List.mem_cons, Element.allPieces, List.mem_flatMap] at member
  obtain (rfl | ⟨e, inside, member⟩) | ending := member
  · exact ⟨Feed.prolog o, rfl⟩
  · obtain ⟨s, rfl⟩ | ⟨payload, held, rfl⟩ := Element.mem_pieces member
    · exact ⟨s, rfl⟩
    · obtain inert | copied := accounts e inside payload held
      · exact ⟨asciiText payload, encode_asciiText inert⟩
      · obtain ⟨text, decoded⟩ := Option.isSome_iff_exists.mp (readable payload copied)
        exact ⟨text, Utf8.decode?_eq_some.mp decoded⟩
  · split at ending
    · rw [List.mem_singleton.mp ending]
      exact ⟨Feed.epilog, rfl⟩
    · cases ending

theorem two_mul_length_le (v : FeedOutline) (o : FeedOptions) :
    2 * v.elements.length ≤ (Piece.allBytes (v.pieces o)).length := by
  have elements := Element.length_le_allBytes v.elements
  rw [allBytes_pieces, List.length_append, List.length_append]
  omega

/-- Inspection of a feed's text, if its payloads hold no bracket. -/
theorem ofText_eq {o : FeedOptions} {text : String}
    (bytes : Utf8.encode text = Piece.allBytes (v.pieces o))
    (free : ∀ e ∈ v.elements, ∀ payload, e.payload? = some payload → '<'.toUInt8 ∉ payload) :
    (ofText text).records = v.elements.countP Element.isRecord ∧
      (ofText text).deletes = v.elements.countP Element.showsDelete ∧
      (ofText text).acls = v.elements.countP Element.isAcl ∧
      (ofText text).contents = v.elements.countP Element.hasContent ∧
      (ofText text).complete = v.closed := by
  have counted : (Text.lines text.toList).foldl Counts.line {} = _ :=
    (scan_text bytes free {}).trans (Counts.foldl_element v.elements {} rfl)
  simp only [ofText, counted, Nat.zero_add, endsFeed_text bytes, and_self]

end FeedOutline

namespace Feed

/-- Whatever documents were added to a feed, and whatever their values hold, inspection of its text
finds every record, every list and every content, as long as no payload that was copied holds a
bracket; and it finds the feed complete if and only if it was closed. The encoders may be any that
put out the formats they are named for. -/
theorem run_inspected (o : FeedOptions) (lawful : o.codec.Lawful) (usable : o.check = .ok ())
    (ids : FeedIds) :
    ∃ f left, create o ids = .ok (f, left) ∧
      ∀ (taken : Taken) (steps : List FeedStep),
        let reached := (f.run taken (steps.map .step)).2.1
        let v := (FeedOutline.run {} o.rules taken steps).2.1
        reached.bytes.toList = Piece.allBytes (v.pieces o) ∧
          ((∀ payload ∈ v.copied, '<'.toUInt8 ∉ payload) →
            ((∀ payload ∈ v.copied, (Utf8.decode? payload).isSome) →
              (Utf8.decode? reached.bytes.toList).isSome) ∧
            ∀ text, Utf8.decode? reached.bytes.toList = some text →
              let found := Inspection.ofText text
              found.records = v.elements.countP Element.isRecord ∧
                found.acls = v.elements.countP Element.isAcl ∧
                found.contents = v.elements.countP Element.hasContent ∧
                found.complete = reached.isClosed ∧
                ((∀ count, .setCount count ∉ steps) →
                  reached.recordCount = .ofNat (found.records + found.acls) ∧
                    (reached.size < 2 ^ 64 →
                      reached.recordCount.toNat = found.records + found.acls))) := by
  refine ⟨_, _, create_ok usable ids, ?_⟩
  intro taken steps reached v
  have followed := openWith_run o ids.next.1 taken steps
  have bytes : reached.bytes.toList = Piece.allBytes (v.pieces o) :=
    openWith_run_bytes o ids.next.1 taken steps
  have accounts : v.Accounts := FeedOutline.accounts_run o.rules lawful taken steps
  refine ⟨bytes, ?_⟩
  intro free
  constructor
  · intro readable
    obtain ⟨text, encoded⟩ := accounts.exists_text readable o
    rw [bytes, ← encoded, Utf8.decode?_encode]
    rfl
  · intro text decoded found
    rw [Utf8.decode?_eq_some, bytes] at decoded
    obtain ⟨records, -, acls, contents, complete⟩ :=
      FeedOutline.ofText_eq decoded (accounts.bracketless free)
    refine ⟨records, acls, contents, complete.trans followed.shows.isClosed.symm, ?_⟩
    intro unset
    have start : ({} : FeedOutline).IsCounted := rfl
    have counted : v.IsCounted := start.run taken unset
    have total : reached.recordCount = .ofNat (found.records + found.acls) := by
      rw [records, acls, ← Element.length_eq_countP, followed.shows.recordCount]
      exact counted
    refine ⟨total, ?_⟩
    intro small
    have size : reached.size = reached.bytes.toList.length := rfl
    have fits := v.two_mul_length_le o
    rw [← bytes, ← size] at fits
    rw [total, UInt64.toNat_ofNat', records, acls, ← Element.length_eq_countP]
    exact Nat.mod_eq_of_lt (by omega)

/-- Data source, payload and principal are all broken into lines of which one looks like a tag. -/
theorem run_inspected_of_lines :
    let o : FeedOptions := { dataSource := "hr\n<record " }
    let copying : Document :=
      ⟨(PropertyTable.ofPairs
          [(Property.docid, .string "a"), (Property.contentEncoding, .string "base64binary"),
            (Property.content, .binary [65, 10, 65])]).toDocument.find, .ok []⟩
    let list : Document :=
      ({ docid := "b", aclAlone := true, users := ["eve\n<acl"] } : DocumentDraft).table.toDocument
    let steps := [.add copying, .add list, .close]
    o.codec.Lawful ∧ o.check = .ok () ∧
      ∃ f left, create o (.sequential "hr") = .ok (f, left) ∧
        let reached := (f.run {} (steps.map .step)).2.1
        let v := (FeedOutline.run {} o.rules {} steps).2.1
        v.copied = [[65, 10, 65]] ∧ (∀ count, .setCount count ∉ steps) ∧
          ∃ text, Utf8.decode? reached.bytes.toList = some text ∧
            let found := Inspection.ofText text
            found.records = 1 ∧ found.acls = 1 ∧ found.contents = 1 ∧ found.complete = true ∧
              reached.recordCount = 2 := by
  have usable : FeedOptions.check { dataSource := "hr\n<record " } = .ok () := rfl
  intro o copying list steps
  have lawful : o.codec.Lawful := ContentCodec.standard_lawful
  obtain ⟨f, left, opened, inspected⟩ := run_inspected o lawful usable (.sequential "hr")
  refine ⟨lawful, usable, f, left, opened, ?_⟩
  intro reached v
  have copied : v.copied = [[65, 10, 65]] := by decide +kernel
  have counts : v.elements.countP Element.isRecord = 1 ∧ v.elements.countP Element.isAcl = 1 ∧
      v.elements.countP Element.hasContent = 1 := by decide +kernel
  have closed : reached.isClosed = true := by
    have first := (Prod.mk.inj (Except.ok.inj (opened.symm.trans (create_ok usable _)))).1
    simp only [reached, first]
    decide +kernel
  have unset : ∀ count, .setCount count ∉ steps := by simp [steps]
  obtain ⟨bytes, inspected⟩ := inspected {} steps
  have free : ∀ payload ∈ v.copied, '<'.toUInt8 ∉ payload := by
    rw [copied]
    decide
  have readable : ∀ payload ∈ v.copied, (Utf8.decode? payload).isSome := by
    rw [copied]
    decide
  obtain ⟨text, decoded⟩ := Option.isSome_iff_exists.mp ((inspected free).1 readable)
  obtain ⟨records, acls, contents, complete, count⟩ := (inspected free).2 text decoded
  have total : reached.recordCount = 2 := by
    rw [(count unset).1, records, acls, counts.1, counts.2.1]
    rfl
  exact ⟨copied, unset, text, decoded, records.trans counts.1, acls.trans counts.2.1,
    contents.trans counts.2.2, complete.trans closed, total⟩

end Feed

end IndexFeed
