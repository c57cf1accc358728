import IndexFeed.Element
import IndexFeed.Proofs.Markup.Grammar

/-!
The data that an element holds. The markup of an element is that of its data, so that a reader of
the grammar finds it again. For the payload of content this takes bytes that need no entities, such
as those of encoded content.
-/

namespace IndexFeed

namespace Markup

def present (attributes : List (String × Option String)) : List (String × String) :=
  attributes.filterMap fun a => a.2.map fun value => (a.1, value)

theorem attrs_eq_present (attributes : List (String × Option String)) :
    attrs attributes = String.join ((present attributes).map fun a => attr a.1 a.2) := by
  rw [attrs]
  induction attributes with
  | nil => rfl
  | cons a rest ih =>
      obtain ⟨name, value⟩ := a
      rw [List.map_cons, String.join_cons, ih]
      cases value with
      | none => exact String.empty_append
      | some value => exact String.join_cons.symm

theorem attrs_cons (name : String) (value : Option String)
    (rest : List (String × Option String)) :
    attrs ((name, value) :: rest) = optionalAttr name value ++ attrs rest := by
  rw [attrs, List.map_cons, String.join_cons, attrs]

/-- No value of an attribute can open or close a tag. -/
theorem not_mem_attrs {attributes : List (String × Option String)}
    (names : ∀ a ∈ attributes, isName a.1 = true) {c : Char} (bracket : c ∈ ['<', '>']) :
    c ∉ (attrs attributes).toList := by
  rw [attrs, String.toList_join, List.mem_flatMap]
  rintro ⟨written, member, inside⟩
  obtain ⟨⟨name, value⟩, listed, rfl⟩ := List.mem_map.mp member
  cases value with
  | none => simp [optionalAttr] at inside
  | some value => exact not_mem_attr (names _ listed) value bracket inside

theorem isName_of_present {attributes : List (String × Option String)}
    (h : ∀ a ∈ attributes, isName a.1 = true) : ∀ a ∈ present attributes, isName a.1 = true := by
  intro a member
  obtain ⟨original, listed, value⟩ := List.mem_filterMap.mp member
  obtain ⟨_, _, rfl⟩ := Option.map_eq_some_iff.mp value
  exact h original listed

theorem escape_lineEnd : escape "\n" = "\n" := by decide

theorem markup_start (word : String) (attributes : List (String × String)) :
    ({ word, attributes } : Token).markup
      = "<" ++ word ++ String.join (attributes.map fun a => attr a.1 a.2) ++ ">\n" := by
  simp only [Token.markup, escape_lineEnd, String.append_assoc]
  rfl

theorem markup_text (word text : String) (attributes : List (String × String)) :
    ({ word, attributes, text } : Token).markup
      = "<" ++ word ++ String.join (attributes.map fun a => attr a.1 a.2) ++ ">"
        ++ escape text := by
  simp only [Token.markup, String.append_assoc]
  rfl

theorem markup_endToken (name : String) : (endToken name).markup = endTag name := by
  rw [endToken, markup_start, endTag, show "</" = "<" ++ "/" from rfl]
  simp only [List.map_nil, String.join_nil, String.append_empty, String.append_assoc]

theorem markup_pairToken (pair : String × String) :
    (pairToken pair).markup = Metadata.pairMarkup pair := by
  rw [pairToken, Token.markup, Metadata.pairMarkup, show "<meta" = "<" ++ "meta" from rfl,
    show "/>\n" = "/" ++ ">" ++ "\n" from rfl]
  simp only [List.map_cons, List.map_nil, String.join_cons, String.join_nil, String.append_empty,
    String.append_assoc, escape_lineEnd, if_true]

theorem Token.allMarkup_cons (t : Token) (rest : List Token) :
    allMarkup (t :: rest) = t.markup ++ allMarkup rest := by
  rw [allMarkup, List.map_cons, String.join_cons, allMarkup]

theorem Token.allMarkup_append (first second : List Token) :
    allMarkup (first ++ second) = allMarkup first ++ allMarkup second := by
  rw [allMarkup, List.map_append, String.join_append, allMarkup, allMarkup]

theorem Token.allMarkup_nil : allMarkup [] = "" := rfl

theorem Token.allMarkup_flatMap {α : Type} (tokens : α → List Token) (markup : α → String)
    (items : List α) (same : ∀ a ∈ items, allMarkup (tokens a) = markup a) :
    allMarkup (items.flatMap tokens) = String.join (items.map markup) := by
  induction items with
  | nil => rfl
  | cons a rest ih =>
      rw [List.flatMap_cons, Token.allMarkup_append, List.map_cons, String.join_cons,
        same a (by simp), ih fun b member => same b (by simp [member])]

end Markup

open Markup

def AclEntry.data (e : AclEntry) : PrincipalData := ⟨present e.attributes, e.principal.name⟩

def Acl.data (a : Acl) : AclData := ⟨present a.attributes, a.entries.map AclEntry.data⟩

def Metadata.data (m : Metadata) : MetadataData := ⟨present m.attributes, m.pairs⟩

def asciiText (bytes : List UInt8) : String :=
  String.ofList (bytes.map fun b => Char.ofNat b.toNat)

def RecordContent.data (c : RecordContent) : ContentData :=
  ⟨[("encoding", c.encoding.wire)], asciiText c.payload⟩

def Record.data (r : Record) : RecordData where
  attributes := present r.attributes.listed
  acl := r.acl.map Acl.data
  metadata := r.metadata.map Metadata.data
  content := r.content.map RecordContent.data

def Element.data : Element → ElementData
  | acl a => .acl a.data
  | record r => .record r.data

theorem AclEntry.markup_data (e : AclEntry) : Token.allMarkup e.data.tokens = e.markup := by
  rw [AclEntry.data, PrincipalData.tokens, Token.allMarkup_cons, Token.allMarkup_cons,
    Token.allMarkup_nil, markup_text, markup_endToken, AclEntry.markup, attrs_eq_present,
    show "<principal" = "<" ++ "principal" from rfl]
  simp only [String.append_assoc, String.append_empty]

theorem Acl.markup_data (a : Acl) : Token.allMarkup a.data.tokens = a.markup := by
  have entries : Token.allMarkup ((a.entries.map AclEntry.data).flatMap PrincipalData.tokens)
      = String.join (a.entries.map AclEntry.markup) := by
    rw [List.flatMap_map]
    exact Token.allMarkup_flatMap _ _ _ fun e _ => e.markup_data
  rw [Acl.data, AclData.tokens, Token.allMarkup_cons, Token.allMarkup_append,
    Token.allMarkup_cons, Token.allMarkup_nil, entries, markup_start, markup_endToken, Acl.markup,
    attrs_eq_present, show "<acl" = "<" ++ "acl" from rfl]
  simp only [String.append_assoc, String.append_empty]

theorem Metadata.markup_data (m : Metadata) : Token.allMarkup m.data.tokens = m.markup := by
  have pairs : Token.allMarkup (m.pairs.map pairToken)
      = String.join (m.pairs.map Metadata.pairMarkup) := by
    rw [Token.allMarkup, List.map_map]
    exact congrArg _ (List.map_congr_left fun pair _ => markup_pairToken pair)
  rw [Metadata.data, MetadataData.tokens, Token.allMarkup_cons, Token.allMarkup_append,
    Token.allMarkup_cons, Token.allMarkup_nil, pairs, markup_start, markup_endToken,
    Metadata.markup, attrs_eq_present, show "<metadata" = "<" ++ "metadata" from rfl]
  simp only [String.append_assoc, String.append_empty]

/-- A byte that is one ASCII character and stands for itself in markup. -/
def Markup.isInert (b : UInt8) : Bool :=
  b < 128 && escapeChar (Char.ofNat b.toNat) == [Char.ofNat b.toNat]

theorem encode_asciiText {bytes : List UInt8} (inert : ∀ b ∈ bytes, isInert b = true) :
    Utf8.encode (asciiText bytes) = bytes := by
  have chars : ∀ n : Fin 128,
      String.utf8EncodeChar (Char.ofNat n.val) = [UInt8.ofNat n.val] := by decide
  have flat : (bytes.map fun b => Char.ofNat b.toNat).flatMap String.utf8EncodeChar = bytes := by
    induction bytes with
    | nil => rfl
    | cons b rest ih =>
        have first := inert b (by simp)
        simp only [isInert, Bool.and_eq_true, decide_eq_true_eq] at first
        have small : b.toNat < 128 := UInt8.lt_iff_toNat_lt.mp first.1
        rw [List.map_cons, List.flatMap_cons, chars ⟨b.toNat, small⟩,
          ih fun b member => inert b (by simp [member])]
        simp
  rw [asciiText, Utf8.encode, String.toUTF8_eq_toByteArray, String.toByteArray_ofList,
    List.utf8Encode, flat]
  exact List.toList_data_toByteArray

theorem escape_asciiText {bytes : List UInt8} (inert : ∀ b ∈ bytes, isInert b = true) :
    escape (asciiText bytes) = asciiText bytes := by
  have flat : (bytes.map fun b => Char.ofNat b.toNat).flatMap escapeChar
      = bytes.map fun b => Char.ofNat b.toNat := by
    induction bytes with
    | nil => rfl
    | cons b rest ih =>
        have first := inert b (by simp)
        simp only [isInert, Bool.and_eq_true, beq_iff_eq] at first
        rw [List.map_cons, List.flatMap_cons, first.2,
          ih fun b member => inert b (by simp [member])]
        rfl
  rw [escape, asciiText, String.toList_ofList, flat]

/-- The payload of an element, if it has one, needs no entities. -/
def Element.HasInertPayload : Element → Prop
  | acl _ => True
  | record r => ∀ c, r.content = some c → ∀ b ∈ c.payload, isInert b = true

theorem Record.head_data (r : Record) :
    ({ word := "record", attributes := r.data.attributes } : Token).markup
        ++ Token.allMarkup ((r.data.acl.map AclData.tokens).getD [])
        ++ Token.allMarkup ((r.data.metadata.map MetadataData.tokens).getD [])
      = r.head := by
  have acl : Token.allMarkup ((r.data.acl.map AclData.tokens).getD [])
      = (r.acl.map Acl.markup).getD "" := by
    rw [Record.data]
    cases r.acl with
    | none => rfl
    | some a => exact a.markup_data
  have metadata : Token.allMarkup ((r.data.metadata.map MetadataData.tokens).getD [])
      = (r.metadata.map Metadata.markup).getD "" := by
    rw [Record.data]
    cases r.metadata with
    | none => rfl
    | some m => exact m.markup_data
  have start : ({ word := "record", attributes := r.data.attributes } : Token).markup
      = r.attributes.startTag := by
    rw [markup_start, Record.data, RecordAttributes.startTag, attrs_eq_present,
      show "<record" = "<" ++ "record" from rfl]
  rw [acl, metadata, start, Record.head]

theorem RecordContent.markup_data (c : RecordContent) (inert : ∀ b ∈ c.payload, isInert b = true) :
    Token.allMarkup c.data.tokens
      = c.encoding.startTag ++ asciiText c.payload ++ endTag "content" := by
  rw [RecordContent.data, ContentData.tokens, Token.allMarkup_cons, Token.allMarkup_cons,
    Token.allMarkup_nil, markup_text, markup_endToken, escape_asciiText inert,
    ContentEncoding.startTag, show "<content" = "<" ++ "content" from rfl]
  simp only [List.map_cons, List.map_nil, String.join_cons, String.join_nil, String.append_assoc,
    String.append_empty]

theorem Element.bytes_data {e : Element} (inert : e.HasInertPayload) :
    Piece.allBytes e.pieces = Utf8.encode (Token.allMarkup e.data.tokens) := by
  cases e with
  | acl a => simp [Element.pieces, Piece.allBytes, Piece.bytes, Element.data, ElementData.tokens,
      a.markup_data]
  | record r =>
      have whole : Token.allMarkup (RecordData.tokens r.data)
          = r.head ++ Token.allMarkup ((r.data.content.map ContentData.tokens).getD [])
            ++ endTag "record" := by
        rw [← r.head_data, RecordData.tokens, Token.allMarkup_cons]
        simp only [Token.allMarkup_append, Token.allMarkup_cons, Token.allMarkup_nil,
          markup_endToken, String.append_assoc, String.append_empty]
      rw [Element.data, ElementData.tokens, whole, Element.pieces, Record.pieces, Record.data]
      cases held : r.content with
      | none =>
          simp [Piece.allBytes, Piece.bytes, Token.allMarkup_nil]
      | some c =>
          have payload := inert c held
          simp only [Option.map_some, Option.getD_some, c.markup_data payload, Piece.allBytes,
            Piece.bytes, List.flatMap_cons, List.flatMap_nil, Utf8.encode_append,
            encode_asciiText payload, contentEnd, List.append_assoc, List.append_nil]

theorem Markup.plain_start {word text : String} {attributes : List (String × String)}
    (word_name : isName word = true) (names : ∀ a ∈ attributes, isName a.1 = true) :
    ({ word, attributes, text } : Token).IsPlain :=
  ⟨word_name, names, fun isWhole => by cases isWhole⟩

theorem Markup.plain_endToken {name : String} (word_name : isName ("/" ++ name) = true) :
    (endToken name).IsPlain :=
  plain_start word_name (by simp)

theorem AclEntry.isName_attributes (e : AclEntry) : ∀ a ∈ e.attributes, isName a.1 = true := by
  simp only [AclEntry.attributes, List.forall_mem_cons]
  exact ⟨by decide, by decide, by decide, by decide, by decide, by simp⟩

theorem Acl.isName_attributes (a : Acl) : ∀ pair ∈ a.attributes, isName pair.1 = true := by
  simp only [Acl.attributes, List.forall_mem_cons]
  exact ⟨by decide, by decide, by decide, by simp⟩

theorem Metadata.isName_attributes (m : Metadata) : ∀ a ∈ m.attributes, isName a.1 = true := by
  simp only [Metadata.attributes, List.forall_mem_cons]
  exact ⟨by decide, by simp⟩

theorem RecordAttributes.isName_listed (r : RecordAttributes) :
    ∀ a ∈ r.listed, isName a.1 = true := by
  simp only [RecordAttributes.listed, List.forall_mem_cons]
  exact ⟨by decide, by decide, by decide, by decide, by decide, by decide, by decide, by decide,
    by decide, by decide, by simp⟩

theorem Acl.plain_data (a : Acl) : ∀ t ∈ a.data.tokens, t.IsPlain := by
  intro t member
  simp only [Acl.data, AclData.tokens, List.flatMap_map, List.mem_cons, List.mem_append,
    List.mem_flatMap, List.not_mem_nil, or_false] at member
  obtain rfl | ⟨e, -, inEntry⟩ | rfl := member
  · exact plain_start (by decide) (isName_of_present a.isName_attributes)
  · simp only [PrincipalData.tokens, AclEntry.data, List.mem_cons, List.not_mem_nil,
      or_false] at inEntry
    obtain rfl | rfl := inEntry
    · exact plain_start (by decide) (isName_of_present e.isName_attributes)
    · exact plain_endToken (by decide)
  · exact plain_endToken (by decide)

theorem Metadata.plain_data (m : Metadata) : ∀ t ∈ m.data.tokens, t.IsPlain := by
  intro t member
  simp only [Metadata.data, MetadataData.tokens, List.mem_cons, List.mem_append, List.mem_map,
    List.not_mem_nil, or_false] at member
  obtain rfl | ⟨pair, -, rfl⟩ | rfl := member
  · exact plain_start (by decide) (isName_of_present m.isName_attributes)
  · have word : isName "meta" = true := by decide
    refine ⟨word, ?_, fun _ => by simp [pairToken]⟩
    simp only [pairToken, List.forall_mem_cons]
    exact ⟨by decide, by decide, by simp⟩
  · exact plain_endToken (by decide)

theorem Record.plain_data (r : Record) : ∀ t ∈ r.data.tokens, t.IsPlain := by
  intro t member
  simp only [Record.data, RecordData.tokens, List.mem_cons, List.mem_append, List.not_mem_nil,
    or_false] at member
  obtain rfl | ((inAcl | inMetadata) | inContent) | rfl := member
  · exact plain_start (by decide) (isName_of_present r.attributes.isName_listed)
  · cases held : r.acl with
    | none => simp [held] at inAcl
    | some a => exact a.plain_data t (by simpa [held] using inAcl)
  · cases held : r.metadata with
    | none => simp [held] at inMetadata
    | some m => exact m.plain_data t (by simpa [held] using inMetadata)
  · cases held : r.content with
    | none => simp [held] at inContent
    | some c =>
        simp only [held, Option.map_some, Option.getD_some, RecordContent.data,
          ContentData.tokens, List.mem_cons, List.not_mem_nil, or_false] at inContent
        obtain rfl | rfl := inContent
        · refine plain_start (by decide) ?_
          simp only [List.forall_mem_cons]
          exact ⟨by decide, by simp⟩
        · exact plain_endToken (by decide)
  · exact plain_endToken (by decide)

theorem Element.plain_data (e : Element) : ∀ t ∈ e.data.tokens, t.IsPlain := by
  cases e with
  | acl a => exact a.plain_data
  | record r => exact r.plain_data

/-- Elements are written as their data. -/
theorem Element.allBytes_eq_write {elements : List Element}
    (inert : ∀ e ∈ elements, e.HasInertPayload) :
    Piece.allBytes (Element.allPieces elements) = Markup.write (elements.map Element.data) := by
  induction elements with
  | nil => rfl
  | cons e rest ih =>
      have first := Element.bytes_data (inert e (by simp))
      have more := ih fun other member => inert other (by simp [member])
      rw [Markup.write] at more ⊢
      rw [List.map_cons, List.flatMap_cons, Token.allMarkup_append, Utf8.encode_append, ← first,
        ← more, ← Piece.allBytes_append]
      rfl

/-- A reader of the grammar gets the data of elements that were written. -/
theorem Element.read?_write_data (elements : List Element) :
    read? (Markup.write (elements.map Element.data)) = some (elements.map Element.data) := by
  apply read?_write
  intro t member
  obtain ⟨data, inData, inTokens⟩ := List.mem_flatMap.mp member
  obtain ⟨e, -, rfl⟩ := List.mem_map.mp inData
  exact e.plain_data t inTokens

end IndexFeed
