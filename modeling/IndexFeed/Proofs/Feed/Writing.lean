import IndexFeed.Feed
import IndexFeed.Proofs.Rules.Cases

/-!
What is written for a document. The elements that feed a document do not depend on what was written
before them. A document that fails may have written some bytes, but has changed nothing in front of
them, so that the output can be restored from a mark.
-/

namespace IndexFeed

/-- The size that the progress tells is that of the bytes. -/
def FeedBody.IsCurrent (b : FeedBody) : Prop := b.progress.size = b.size

theorem FeedBody.isCurrent_append (b : FeedBody) (bytes : List UInt8) :
    (b.append bytes).IsCurrent := rfl

namespace FeedOutput

/-- One output continues another one: bytes and log begin alike, and the progress differs in the
size alone. -/
structure Extends (o' o : FeedOutput) : Prop where
  bytes : ∃ more, o'.body.bytes.toList = o.body.bytes.toList ++ more
  progress : ∃ size, o'.body.progress = { o.body.progress with size }
  log : ∃ more, o'.log = o.log.map (· ++ more)

theorem Extends.refl (o : FeedOutput) : o.Extends o where
  bytes := ⟨[], by simp⟩
  progress := ⟨_, rfl⟩
  log := ⟨"", by cases o.log <;> simp⟩

theorem extends_append (o : FeedOutput) (bytes : List UInt8) : (o.append bytes).Extends o where
  bytes := ⟨bytes, o.body.toList_append bytes⟩
  progress := ⟨_, rfl⟩
  log := ⟨"", by cases h : o.log <;> simp [append, h]⟩

theorem extends_write (o : FeedOutput) (pieces : List Piece) : (o.write pieces).Extends o where
  bytes := ⟨_, o.body.toList_append _⟩
  progress := ⟨_, rfl⟩
  log := ⟨_, rfl⟩

theorem Extends.trans {o o' o'' : FeedOutput} (second : o''.Extends o') (first : o'.Extends o) :
    o''.Extends o where
  bytes := by
    obtain ⟨a, ha⟩ := first.bytes
    obtain ⟨b, hb⟩ := second.bytes
    exact ⟨a ++ b, by rw [hb, ha, List.append_assoc]⟩
  progress := by
    obtain ⟨_, ha⟩ := first.progress
    obtain ⟨n, hb⟩ := second.progress
    exact ⟨n, by rw [hb, ha]⟩
  log := by
    obtain ⟨a, ha⟩ := first.log
    obtain ⟨b, hb⟩ := second.log
    exact ⟨a ++ b, by rw [hb, ha]; cases o.log <;> simp [String.append_assoc]⟩

/-- What an output becomes by a writing that comes to some pieces or to an error: it holds the
pieces behind what it held, or has only grown. -/
def Becomes (o o' : FeedOutput) : Except FeedError (List Piece) → Prop
  | .ok pieces => o' = o.write pieces
  | .error _ => o'.Extends o

theorem Becomes.extends {o o' : FeedOutput} {outcome : Except FeedError (List Piece)}
    (h : o.Becomes o' outcome) : o'.Extends o := by
  cases outcome with
  | error e => exact h
  | ok pieces =>
      cases h
      exact o.extends_write pieces

theorem Becomes.behind {o o' : FeedOutput} {pieces : List Piece}
    {outcome : Except FeedError (List Piece)} (h : (o.write pieces).Becomes o' outcome) :
    o.Becomes o' (outcome.map (pieces ++ ·)) := by
  cases outcome with
  | error e => exact h.extends.trans (o.extends_write pieces)
  | ok more =>
      cases h
      exact o.write_write pieces more

theorem truncate_of_extends {o o' : FeedOutput} (h : o'.Extends o) (current : o.body.IsCurrent) :
    o'.body.truncate o.body.size = .ok o.body := by
  obtain ⟨more, hbytes⟩ := h.bytes
  obtain ⟨_, hprogress⟩ := h.progress
  have grown : ¬ o'.body.size < o.body.size := by
    have := congrArg List.length hbytes
    simp only [List.length_append, Array.length_toList] at this
    simp only [FeedBody.size]
    omega
  have kept : o'.body.bytes.take o.body.size = o.body.bytes := by
    apply Array.toList_inj.mp
    rw [Array.take_eq_extract, Array.toList_extract, hbytes, List.extract_eq_take_drop]
    exact List.take_left' Array.length_toList
  simp only [FeedBody.truncate, if_neg grown, kept, hprogress]
  rw [← current]

/-- Whatever was written behind a mark, restoring drops that and nothing else, and cannot fail. -/
theorem restore_of_extends {o o' : FeedOutput} (h : o'.Extends o) (current : o.body.IsCurrent) :
    o'.restore o.mark = .ok o := by
  obtain ⟨more, hlog⟩ := h.log
  have body : o'.body.truncate o.mark.size = .ok o.body := truncate_of_extends h current
  rw [restore, body, hlog]
  cases o with
  | mk body log => cases log <;> simp [Except.map, mark, Utf8.truncate_append]

end FeedOutput

namespace FeedRules

theorem content_of_head {r : FeedRules} {d : Document} {record : Record}
    {plan : Option ContentPlan} (h : r.head d = .ok (record, plan)) : record.content = none := by
  obtain ⟨fields, acl, metadata, -, -, -, -, rfl⟩ := head_ok h
  rfl

theorem write_pieces_of_noContent (o : FeedOutput) {record : Record} (h : record.content = none) :
    o.write record.pieces
      = ((o.append (Utf8.encode record.head)).append (Utf8.encode (Markup.endTag "record"))).note
          (record.head ++ Markup.endTag "record") := by
  simp [Record.pieces, h, FeedOutput.write, FeedOutput.append_append, Piece.allBytes, Piece.bytes,
    Piece.allLogged, Piece.logged, Utf8.encode_append]

theorem write_pieces_of_content (o : FeedOutput) (record : Record) {content : RecordContent}
    (h : record.content = some content) :
    o.write record.pieces
      = (((o.append (Utf8.encode (record.head ++ content.encoding.startTag))).append
          content.payload).append (Utf8.encode contentEnd)).note
          (record.head ++ content.encoding.startTag ++ payloadMark ++ contentEnd) := by
  simp [Record.pieces, h, FeedOutput.write, FeedOutput.append_append, Piece.allBytes, Piece.bytes,
    Piece.allLogged, Piece.logged, String.append_assoc]

theorem writeAcl_becomes (r : FeedRules) (d : Document) (o : FeedOutput) :
    ∃ o', r.writeAcl d o = ((r.aclElement d).map fun _ => (), o') ∧
      o.Becomes o' ((r.aclElement d).map Element.pieces) := by
  unfold writeAcl
  cases r.aclElement d with
  | error e => exact ⟨o, rfl, .refl o⟩
  | ok list => exact ⟨_, rfl, rfl⟩

/-- A record is written as its pieces, although they reach the output one after the other; if its
content fails, the head and what the content brought before are there. -/
theorem writeRecord_becomes (r : FeedRules) (d : Document) (o : FeedOutput) (taken : Taken) :
    ∃ o', r.writeRecord d o taken
        = ((r.record d taken).1.map fun _ => (), o', (r.record d taken).2) ∧
      o.Becomes o' ((r.record d taken).1.map Record.pieces) := by
  unfold writeRecord FeedRules.record
  cases hhead : r.head d with
  | error e => exact ⟨o, rfl, .refl o⟩
  | ok found =>
      obtain ⟨record, plan⟩ := found
      cases plan with
      | none => exact ⟨_, rfl, (write_pieces_of_noContent o (content_of_head hhead)).symm⟩
      | some plan =>
          cases hpayload : r.payload plan d (openContent d taken).1 with
          | mk written outcome =>
              cases outcome with
              | error e =>
                  let start := Utf8.encode (record.head ++ plan.encoding.startTag)
                  refine ⟨(o.append start).append written, ?_, ?_⟩
                  · simp only [hpayload, Except.map, start]
                  · simp only [hpayload, Except.map]
                    exact (FeedOutput.extends_append _ _).trans (o.extends_append start)
              | ok report =>
                  let whole : Record := { record with content := some ⟨plan.encoding, written⟩ }
                  refine ⟨o.write whole.pieces, ?_, ?_⟩
                  · rw [write_pieces_of_content o whole rfl]
                    simp only [hpayload, Except.map]
                    rfl
                  · simp only [hpayload, Except.map]
                    rfl

/-- Writing a document comes to what its elements are, whatever the output holds. -/
theorem write_becomes (r : FeedRules) (d : Document) (o : FeedOutput) (taken : Taken) :
    ∃ o', r.write d o taken
        = ((r.elements d taken).1.map List.length, o', (r.elements d taken).2) ∧
      o.Becomes o' ((r.elements d taken).1.map Element.allPieces) := by
  unfold write elements
  cases r.feeding d with
  | error e => exact ⟨o, rfl, .refl o⟩
  | ok feeding =>
      cases feeding with
      | acl =>
          obtain ⟨o', hwrite, becomes⟩ := r.writeAcl_becomes d o
          refine ⟨o', ?_, ?_⟩
          · simp only [hwrite]
            cases r.aclElement d <;> rfl
          · revert becomes
            cases r.aclElement d <;> simp [Except.map, Element.allPieces]
      | record =>
          obtain ⟨o', hwrite, becomes⟩ := r.writeRecord_becomes d o taken
          generalize r.record d taken = result at hwrite becomes
          obtain ⟨outcome, left⟩ := result
          refine ⟨o', ?_, ?_⟩
          · simp only [hwrite]
            cases outcome <;> rfl
          · cases outcome with
            | error e => exact becomes
            | ok record => simpa [Except.map, Element.allPieces, Element.pieces] using becomes
      | aclThenRecord =>
          cases hlist : r.aclElement d.extractedAcl with
          | error e => exact ⟨o, by simp [writeAcl, hlist, Except.map], .refl o⟩
          | ok list =>
              -- The list stands complete behind the output before the record is begun.
              obtain ⟨o', hwrite, becomes⟩ :=
                r.writeRecord_becomes d.inheritingExtract (o.write list.pieces) taken
              generalize r.record d.inheritingExtract taken = result at hwrite becomes
              obtain ⟨outcome, left⟩ := result
              refine ⟨o', ?_, ?_⟩
              · simp only [writeAcl, hlist, hwrite]
                cases outcome <;> rfl
              · cases outcome with
                | error e => exact becomes.behind
                | ok record =>
                    simpa [Except.map, Element.allPieces, Element.pieces] using becomes.behind

/-- What a document comes to by itself: how its writing ends, what is written to an empty body, and
which streams are taken then. -/
def alone (r : FeedRules) (d : Document) (taken : Taken) :
    Except FeedError Nat × List UInt8 × Taken :=
  let (outcome, o, taken) := r.write d ⟨.empty 0, none⟩ taken
  (outcome, o.body.bytes.toList, taken)

theorem alone_ok {r : FeedRules} {d : Document} {taken taken' : Taken} {elements : List Element}
    (h : r.elements d taken = (.ok elements, taken')) :
    r.alone d taken
      = (.ok elements.length, Piece.allBytes (Element.allPieces elements), taken') := by
  obtain ⟨o', hwrite, becomes⟩ := r.write_becomes d ⟨.empty 0, none⟩ taken
  simp only [h, Except.map] at hwrite becomes
  cases becomes
  simp only [alone, hwrite, FeedOutput.body_write, FeedBody.toList_append, FeedBody.toList_empty,
    List.nil_append]

theorem exists_alone {r : FeedRules} {d : Document} {taken : Taken} {elements : List Element}
    (h : (r.elements d taken).1 = .ok elements) :
    ∃ bytes left, r.alone d taken = (.ok elements.length, bytes, left) :=
  ⟨_, _, alone_ok (Prod.ext h rfl)⟩

theorem alone_error {r : FeedRules} {d : Document} {taken taken' : Taken} {e : FeedError}
    (h : r.elements d taken = (.error e, taken')) :
    ∃ bytes, r.alone d taken = (.error e, bytes, taken') := by
  obtain ⟨o', hwrite, -⟩ := r.write_becomes d ⟨.empty 0, none⟩ taken
  simp only [h, Except.map] at hwrite
  exact ⟨o'.body.bytes.toList, by simp only [alone, hwrite]⟩

theorem elements_of_alone {r : FeedRules} {d : Document} {taken left : Taken} {n : Nat}
    {bytes : List UInt8} (h : r.alone d taken = (.ok n, bytes, left)) :
    ∃ elements, r.elements d taken = (.ok elements, left) ∧ elements.length = n ∧
      bytes = Piece.allBytes (Element.allPieces elements) := by
  cases found : r.elements d taken with
  | mk outcome taken' =>
      cases outcome with
      | error e =>
          obtain ⟨_, failed⟩ := alone_error found
          cases failed.symm.trans h
      | ok elements =>
          cases (alone_ok found).symm.trans h
          exact ⟨elements, rfl, rfl, rfl⟩

end FeedRules

end IndexFeed
