import IndexFeed.Proofs.Feed.Outline
import IndexFeed.Proofs.Inspection.Markup
import IndexFeed.Proofs.Text.Utf8

/-!
What is counted in the text of a feed. The text falls into the prolog, a text for each element and
the epilog, since every element begins with a bracket; and as long as no payload holds a bracket,
each element counts as what it is.
-/

namespace IndexFeed

open Inspection Markup

namespace Element

def isRecord : Element → Bool
  | acl _ => false
  | record _ => true

def isAcl : Element → Bool
  | acl _ => true
  | record _ => false

def hasContent (e : Element) : Bool := e.payload?.isSome

/-- The first line of the start tag shows a deletion. -/
def showsDelete : Element → Bool
  | acl _ => false
  | record r => Inspection.showsDelete r.attributes.firstLine

end Element

/-- The counts behind an element. -/
def Inspection.Counts.element (c : Counts) : Element → Counts
  | .acl _ => c.meetAcl
  | .record r =>
    let entered := c.enter (showsDelete r.attributes.firstLine)
    (if r.content.isSome then entered.meetContent else entered).leave

/-- Bytes that begin with the bracket of a tag. -/
def BeginsTag (bytes : List UInt8) : Prop := ∃ more, bytes = '<'.toUInt8 :: more

theorem BeginsTag.append {bytes : List UInt8} (begins : BeginsTag bytes) (more : List UInt8) :
    BeginsTag (bytes ++ more) := by
  obtain ⟨rest, rfl⟩ := begins
  exact ⟨rest ++ more, rfl⟩

theorem beginsTag_append {word : String} (tag : word.toList.head? = some '<') (s : String) :
    BeginsTag (Utf8.encode (word ++ s)) := by
  have bracket : String.utf8EncodeChar '<' = ['<'.toUInt8] := by decide
  obtain ⟨more, chars⟩ := List.head?_eq_some_iff.mp tag
  rw [Utf8.encode_append, Utf8.encode_eq_flatMap word, chars, List.flatMap_cons, bracket]
  exact ⟨_, rfl⟩

/-- A text is cut where a tag begins. -/
theorem encode_eq_append_of_tag {t : String} {front back : List UInt8}
    (tag : back = [] ∨ BeginsTag back) (h : Utf8.encode t = front ++ back) :
    ∃ s rest, t = s ++ rest ∧ Utf8.encode s = front ∧ Utf8.encode rest = back := by
  obtain rfl | ⟨more, rfl⟩ := tag
  · exact ⟨t, "", by simp, by simpa using h, rfl⟩
  · exact Utf8.encode_eq_append (by decide) h

theorem RecordAttributes.beginsTag_startTag (r : RecordAttributes) (s : String) :
    BeginsTag (Utf8.encode (r.startTag ++ s)) := by
  rw [startTag, String.append_assoc, String.append_assoc]
  exact beginsTag_append (by decide) _

theorem Element.beginsTag (e : Element) : BeginsTag (Piece.allBytes e.pieces) := by
  cases e with
  | acl a =>
      rw [Element.pieces, Piece.allBytes, List.flatMap_cons, Piece.bytes, Acl.markup,
        String.append_assoc, String.append_assoc, String.append_assoc]
      exact (beginsTag_append (by decide) _).append []
  | record r =>
      have head (s : String) : BeginsTag (Utf8.encode (r.head ++ s)) := by
        rw [Record.head, String.append_assoc, String.append_assoc]
        exact r.attributes.beginsTag_startTag _
      rw [Element.pieces, Record.pieces]
      cases r.content with
      | none => exact (head _).append []
      | some content => exact (head _).append _

theorem beginsTag_allPieces (elements : List Element) :
    Piece.allBytes (Element.allPieces elements) = [] ∨
      BeginsTag (Piece.allBytes (Element.allPieces elements)) := by
  cases elements with
  | nil => exact .inl rfl
  | cons e rest =>
      rw [Element.allBytes_cons]
      exact .inr (e.beginsTag.append _)

theorem Record.allBytes_of_noContent {r : Record} (h : r.content = none) :
    Piece.allBytes r.pieces = Utf8.encode (r.head ++ endTag "record") := by
  simp [Record.pieces, h, Piece.allBytes, Piece.bytes]

theorem Record.allBytes_of_content {r : Record} {content : RecordContent}
    (h : r.content = some content) :
    Piece.allBytes r.pieces = Utf8.encode r.head ++ (Utf8.encode content.encoding.startTag
      ++ (content.payload ++ Utf8.encode contentEnd)) := by
  simp [Record.pieces, h, Piece.allBytes, Piece.bytes, Utf8.encode_append]

/-- An element's text counts as the element, wherever it stands outside a record. -/
theorem Element.scan_text {e : Element} {t : String}
    (bytes : Utf8.encode t = Piece.allBytes e.pieces)
    (free : ∀ payload, e.payload? = some payload → '<'.toUInt8 ∉ payload) (c : Counts)
    (rest : List Char) : c.scan (t.toList ++ rest) = (c.element e).scan rest := by
  cases e with
  | acl a =>
      have text : t = a.markup := by
        rw [← Utf8.encode_inj, bytes]
        simp [Element.pieces, Piece.allBytes, Piece.bytes]
      rw [text, a.scan_markup]
      rfl
  | record r =>
      cases held : r.content with
      | none =>
          have text : t = r.head ++ endTag "record" :=
            Utf8.encode_inj.mp (bytes.trans (Record.allBytes_of_noContent held))
          rw [text, String.toList_append, List.append_assoc, r.scan_head, scan_recordEnd,
            Counts.element, held]
          rfl
      | some content =>
          have parts := bytes.trans (Record.allBytes_of_content held)
          have tag : BeginsTag (Utf8.encode contentEnd) := beginsTag_append (by decide) _
          obtain ⟨behindHead, whole, inside⟩ := Utf8.encode_eq_encode_append parts
          obtain ⟨behindTag, content_text, inside⟩ := Utf8.encode_eq_encode_append inside
          obtain ⟨payload, ending, payload_text, same, last⟩ :=
            encode_eq_append_of_tag (.inr tag) inside
          have bracketless : '<' ∉ payload.toList := by
            intro member
            apply free content.payload (by simp [Element.payload?, held])
            rw [← same]
            exact Utf8.toUInt8_mem_encode (by decide) member
          have text : t.toList ++ rest
              = r.head.toList ++ ((content.encoding.startTag ++ payload ++ contentEnd).toList
                ++ rest) := by
            rw [whole, content_text, payload_text, Utf8.encode_inj.mp last]
            simp only [String.toList_append, List.append_assoc]
          rw [text, r.scan_head, scan_content _ bracketless, Counts.element, held]
          rfl

theorem Element.scan_texts {elements : List Element} {t : String}
    (bytes : Utf8.encode t = Piece.allBytes (Element.allPieces elements))
    (free : ∀ e ∈ elements, ∀ payload, e.payload? = some payload → '<'.toUInt8 ∉ payload)
    (c : Counts) (rest : List Char) :
    c.scan (t.toList ++ rest) = (elements.foldl Counts.element c).scan rest := by
  induction elements generalizing t c with
  | nil =>
      have empty : t = "" := Utf8.encode_inj.mp bytes
      rw [empty]
      rfl
  | cons e others ih =>
      have cut : Utf8.encode t
          = Piece.allBytes e.pieces ++ Piece.allBytes (Element.allPieces others) :=
        bytes.trans (Element.allBytes_cons e others)
      obtain ⟨first, more, rfl, one, others_bytes⟩ :=
        encode_eq_append_of_tag (beginsTag_allPieces others) cut
      rw [List.forall_mem_cons] at free
      rw [String.toList_append, List.append_assoc, Element.scan_text one free.1,
        ih others_bytes free.2]
      rfl

theorem Inspection.Counts.element_eq (c : Counts) (outside : c.inRecord = false) (e : Element) :
    c.element e =
      { records := c.records + if e.isRecord then 1 else 0
        deletes := c.deletes + if e.showsDelete then 1 else 0
        acls := c.acls + if e.isAcl then 1 else 0
        contents := c.contents + if e.hasContent then 1 else 0
        inRecord := false } := by
  obtain ⟨records, deletes, acls, contents, inRecord⟩ := c
  cases outside
  cases e with
  | acl a => rfl
  | record r =>
      have shown : (Inspection.showsDelete r.attributes.firstLine).toNat
          = if (Element.record r).showsDelete then 1 else 0 := by
        rw [Element.showsDelete]
        cases Inspection.showsDelete r.attributes.firstLine <;> rfl
      cases held : r.content <;>
        simp [Counts.element, Counts.enter, Counts.meetContent, Counts.leave, held, shown,
          Element.isRecord, Element.isAcl, Element.hasContent, Element.payload?]

/-- Outside a record, elements are counted by their kinds. -/
theorem Inspection.Counts.foldl_element (elements : List Element) (c : Counts)
    (outside : c.inRecord = false) :
    elements.foldl Counts.element c =
      { records := c.records + elements.countP Element.isRecord
        deletes := c.deletes + elements.countP Element.showsDelete
        acls := c.acls + elements.countP Element.isAcl
        contents := c.contents + elements.countP Element.hasContent
        inRecord := false } := by
  induction elements generalizing c with
  | nil =>
      obtain ⟨records, deletes, acls, contents, inRecord⟩ := c
      cases outside
      rfl
  | cons e rest ih =>
      have sum (count one more : Nat) : count + one + more = count + (more + one) := by omega
      have next : (c.element e).inRecord = false := by rw [c.element_eq outside]
      rw [List.foldl_cons, ih _ next, c.element_eq outside]
      simp only [List.countP_cons, sum]

theorem Text.trimEnd_line (front : List Char) :
    Text.trimEnd (front ++ ['>', '\n']) = front ++ ['>'] := by
  have blank : Text.isBlank '\n' = true := by decide
  have bracket : Text.isBlank '>' = false := by decide
  simp [Text.trimEnd, blank, bracket]

theorem Inspection.endsFeed_line (front : List Char) (word : String) :
    endsFeed (front ++ (word ++ ">\n").toList)
      = "</gsafeed>".toList.isSuffixOf (front ++ (word ++ ">").toList) := by
  have line : front ++ (word ++ ">\n").toList = (front ++ word.toList) ++ ['>', '\n'] := by
    simp [String.toList_append]
  rw [endsFeed, line, Text.trimEnd_line]
  simp [String.toList_append]

/-- The tags, without their last bracket, in which a feed that is not closed may end. -/
def Inspection.lastTags : List String := ["<group", "</acl", "</record"]

theorem Inspection.not_endsFeed {word : String} (last : word ∈ lastTags) (front : List Char) :
    endsFeed (front ++ (word ++ ">\n").toList) = false := by
  have differ : ∀ word ∈ lastTags, ¬ "</gsafeed>".toList <:+ (word ++ ">").toList ∧
      ¬ (word ++ ">").toList <:+ "</gsafeed>".toList := by decide
  rw [endsFeed_line, ← Bool.not_eq_true, List.isSuffixOf_iff_suffix]
  intro ends
  obtain longer | shorter :=
    List.suffix_or_suffix_of_suffix ends (List.suffix_append front (word ++ ">").toList)
  · exact (differ word last).1 longer
  · exact (differ word last).2 shorter

/-- Bytes that end with the line of a last tag. -/
def EndsOpen (bytes : List UInt8) : Prop :=
  ∃ front, ∃ word ∈ lastTags, bytes = front ++ Utf8.encode (word ++ ">\n")

theorem EndsOpen.behind {bytes : List UInt8} (ends : EndsOpen bytes) (front : List UInt8) :
    EndsOpen (front ++ bytes) := by
  obtain ⟨before, word, last, rfl⟩ := ends
  exact ⟨front ++ before, word, last, (List.append_assoc _ _ _).symm⟩

theorem endsOpen_text {word : String} (last : word ∈ lastTags) (s : String) :
    EndsOpen (Utf8.encode (s ++ (word ++ ">\n"))) :=
  ⟨Utf8.encode s, word, last, Utf8.encode_append _ _⟩

theorem endsOpen_recordEnd (s : String) : EndsOpen (Utf8.encode (s ++ endTag "record")) := by
  have tag : endTag "record" = "</record" ++ ">\n" := by decide
  rw [tag]
  exact endsOpen_text (by decide) s

theorem Element.endsOpen (e : Element) : EndsOpen (Piece.allBytes e.pieces) := by
  cases e with
  | acl a =>
      have tag : endTag "acl" = "</acl" ++ ">\n" := by decide
      rw [Element.pieces, Piece.allBytes, List.flatMap_cons, List.flatMap_nil, List.append_nil,
        Piece.bytes, Acl.markup, tag]
      exact endsOpen_text (by decide) _
  | record r =>
      cases held : r.content with
      | none =>
          rw [Element.pieces, Record.allBytes_of_noContent held]
          exact endsOpen_recordEnd r.head
      | some content =>
          have ending : EndsOpen (Utf8.encode contentEnd) := endsOpen_recordEnd (endTag "content")
          rw [Element.pieces, Record.allBytes_of_content held]
          exact ((ending.behind _).behind _).behind _

theorem Feed.endsOpen_prolog (o : FeedOptions) : EndsOpen (Utf8.encode (prolog o)) := by
  have line :
      "</feedtype></header>\n<group>\n" = "</feedtype></header>\n" ++ ("<group" ++ ">\n") := by
    decide
  delta prolog
  rw [line, ← String.append_assoc]
  exact endsOpen_text (by decide) _

/-- The elements of a feed end like its prolog if there are none. -/
theorem endsOpen_allPieces {front : List UInt8} (ends : EndsOpen front) (elements : List Element) :
    EndsOpen (front ++ Piece.allBytes (Element.allPieces elements)) := by
  induction elements generalizing front with
  | nil => simpa [Element.allPieces, Piece.allBytes] using ends
  | cons e rest ih =>
      rw [Element.allBytes_cons, ← List.append_assoc]
      exact ih (e.endsOpen.behind front)

namespace FeedOutline

variable {v : FeedOutline} {o : FeedOptions} {t : String}

theorem scan_text (bytes : Utf8.encode t = Piece.allBytes (v.pieces o))
    (free : ∀ e ∈ v.elements, ∀ payload, e.payload? = some payload → '<'.toUInt8 ∉ payload)
    (c : Counts) : c.scan t.toList = v.elements.foldl Counts.element c := by
  rw [allBytes_pieces] at bytes
  have tag : (if v.closed then Utf8.encode Feed.epilog else []) = [] ∨
      BeginsTag (if v.closed then Utf8.encode Feed.epilog else []) := by
    cases v.closed with
    | true => exact .inr (beginsTag_append (by decide) _)
    | false => exact .inl rfl
  obtain ⟨behind, rfl, inside⟩ := Utf8.encode_eq_encode_append bytes
  obtain ⟨elements, ending, rfl, elements_bytes, ending_bytes⟩ :=
    encode_eq_append_of_tag tag inside
  have skipped : IsSkipped ending := by
    cases closed : v.closed with
    | true =>
        rw [closed, if_pos rfl, Utf8.encode_inj] at ending_bytes
        rw [ending_bytes]
        exact isSkipped_epilog
    | false =>
        rw [closed, if_neg Bool.false_ne_true, ← Utf8.encode_empty, Utf8.encode_inj] at ending_bytes
        rw [ending_bytes]
        exact isSkipped_empty
  have last (c : Counts) : c.scan ending.toList = c := by
    simpa [Counts.scan_nil] using skipped c []
  rw [String.toList_append, String.toList_append, isSkipped_prolog,
    Element.scan_texts elements_bytes free, last]

theorem endsFeed_text (bytes : Utf8.encode t = Piece.allBytes (v.pieces o)) :
    endsFeed t.toList = v.closed := by
  rw [allBytes_pieces] at bytes
  cases closed : v.closed with
  | true =>
      have tag : BeginsTag (Utf8.encode Feed.epilog) := beginsTag_append (by decide) _
      have epilog : Feed.epilog = endTag "group" ++ ("</gsafeed" ++ ">\n") := by decide
      rw [closed, if_pos rfl, ← List.append_assoc] at bytes
      obtain ⟨front, ending, rfl, -, last⟩ := encode_eq_append_of_tag (.inr tag) bytes
      rw [Utf8.encode_inj.mp last, epilog, String.toList_append, String.toList_append,
        ← List.append_assoc, endsFeed_line, List.isSuffixOf_iff_suffix]
      exact List.suffix_append _ _
  | false =>
      rw [closed, if_neg Bool.false_ne_true, List.append_nil] at bytes
      obtain ⟨front, word, last, ends⟩ := endsOpen_allPieces (Feed.endsOpen_prolog o) v.elements
      have tag : BeginsTag (Utf8.encode (word ++ ">\n")) := by
        have begins : ∀ word ∈ lastTags, word.toList.head? = some '<' := by decide
        exact beginsTag_append (begins word last) _
      obtain ⟨before, ending, rfl, -, ending_bytes⟩ :=
        encode_eq_append_of_tag (.inr tag) (bytes.trans ends)
      rw [Utf8.encode_inj.mp ending_bytes, String.toList_append]
      exact not_endsFeed last before.toList

end FeedOutline

end IndexFeed
