import IndexFeed.Proofs.Markup.Element
import IndexFeed.Proofs.Text.Legal

/-!
Which characters markup holds. Escaping replaces the five characters that delimit markup and no
others, so that an element's texts are legal exactly if the data in them are: illegal characters are
neither brought in nor taken out.
-/

namespace IndexFeed

open Text

namespace Markup

theorem legal_escapeChar {c : Char} :
    (∀ e ∈ escapeChar c, isLegalChar e = true) ↔ isLegalChar c = true := by
  by_cases special : c ∈ ['&', '<', '>', '"', '\'']
  · have entities : ['&', '<', '>', '"', '\''].all
        (fun c => (escapeChar c).all isLegalChar && isLegalChar c) = true := by decide
    obtain ⟨entity, itself⟩ := Bool.and_eq_true_iff.mp (List.all_eq_true.mp entities c special)
    exact iff_of_true (List.all_eq_true.mp entity) itself
  · rw [escapeChar_eq_self special]
    simp

@[simp] theorem isLegal_escape {s : String} : IsLegal (escape s) ↔ IsLegal s := by
  rw [escape, isLegal_ofList, IsLegal, List.forall_mem_flatMap]
  exact forall₂_congr fun c _ => legal_escapeChar

theorem isLegal_attr {name value : String} (named : IsLegal name) :
    IsLegal (attr name value) ↔ IsLegal value := by
  have blank : IsLegal " " := by decide
  have opening : IsLegal "=\"" := by decide
  have closing : IsLegal "\"" := by decide
  simp [attr, named, blank, opening, closing]

/-- Attributes with legal values. -/
def HasLegalValues (attributes : List (String × Option String)) : Prop :=
  ∀ a ∈ attributes, ∀ value ∈ a.2, IsLegal value

@[simp] theorem hasLegalValues_nil : HasLegalValues [] := by simp [HasLegalValues]

@[simp] theorem hasLegalValues_cons {name : String} {value : Option String}
    {rest : List (String × Option String)} :
    HasLegalValues ((name, value) :: rest) ↔ (∀ s ∈ value, IsLegal s) ∧ HasLegalValues rest := by
  rw [HasLegalValues, List.forall_mem_cons]
  rfl

theorem isLegal_attrs {attributes : List (String × Option String)}
    (named : ∀ a ∈ attributes, IsLegal a.1) :
    IsLegal (attrs attributes) ↔ HasLegalValues attributes := by
  rw [attrs, isLegal_join, List.forall_mem_map]
  refine forall₂_congr ?_
  rintro ⟨name, value⟩ member
  cases value with
  | none => simp [optionalAttr, IsLegal]
  | some value => simpa [optionalAttr] using isLegal_attr (named _ member)

theorem isLegal_tag {opening closing : String} {attributes : List (String × Option String)}
    (opens : IsLegal opening) (closes : IsLegal closing)
    (named : ∀ a ∈ attributes, IsLegal a.1) :
    IsLegal (opening ++ attrs attributes ++ closing) ↔ HasLegalValues attributes := by
  rw [isLegal_append, isLegal_append, isLegal_attrs named, and_iff_right opens, and_iff_left closes]

theorem isLegal_endTag {name : String} (named : IsLegal name) : IsLegal (endTag name) := by
  have opening : IsLegal "</" := by decide
  have closing : IsLegal ">\n" := by decide
  simp [endTag, named, opening, closing]

end Markup

open Markup

/-- An entry with legal data. -/
def AclEntry.IsLegal (e : AclEntry) : Prop :=
  HasLegalValues e.attributes ∧ Text.IsLegal e.principal.name

/-- An access control list with legal data. -/
def Acl.IsLegal (a : Acl) : Prop :=
  HasLegalValues a.attributes ∧ ∀ e ∈ a.entries, e.IsLegal

/-- Metadata with legal data. -/
def Metadata.IsLegal (m : Metadata) : Prop :=
  HasLegalValues m.attributes ∧ ∀ pair ∈ m.pairs, Text.IsLegal pair.1 ∧ Text.IsLegal pair.2

/-- A record with legal data but for its payload. -/
def Record.IsLegal (r : Record) : Prop :=
  HasLegalValues r.attributes.listed ∧ (∀ a ∈ r.acl, a.IsLegal) ∧ ∀ m ∈ r.metadata, m.IsLegal

/-- An element with legal data but for its payload. -/
def Element.IsLegal : Element → Prop
  | acl a => a.IsLegal
  | record r => r.IsLegal

theorem AclEntry.isLegal_markup {e : AclEntry} : Text.IsLegal e.markup ↔ e.IsLegal := by
  have named : ∀ a ∈ e.attributes, Text.IsLegal a.1 := by
    simp only [attributes, List.forall_mem_cons]
    exact ⟨by decide, by decide, by decide, by decide, by decide, by simp⟩
  have ending : Text.IsLegal (endTag "principal") := isLegal_endTag (by decide)
  rw [markup, isLegal_append, isLegal_append, isLegal_tag (by decide) (by decide) named,
    isLegal_escape, and_iff_left ending, AclEntry.IsLegal]

theorem Acl.isLegal_markup {a : Acl} : Text.IsLegal a.markup ↔ a.IsLegal := by
  have named : ∀ pair ∈ a.attributes, Text.IsLegal pair.1 := by
    simp only [attributes, List.forall_mem_cons]
    exact ⟨by decide, by decide, by decide, by simp⟩
  have entries : Text.IsLegal (String.join (a.entries.map AclEntry.markup)) ↔
      ∀ e ∈ a.entries, e.IsLegal := by
    rw [isLegal_join, List.forall_mem_map]
    exact forall₂_congr fun e _ => e.isLegal_markup
  have ending : Text.IsLegal (endTag "acl") := isLegal_endTag (by decide)
  rw [markup, isLegal_append, isLegal_append, isLegal_tag (by decide) (by decide) named, entries,
    and_iff_left ending, Acl.IsLegal]

theorem Metadata.isLegal_pairMarkup {pair : String × String} :
    Text.IsLegal (pairMarkup pair) ↔ Text.IsLegal pair.1 ∧ Text.IsLegal pair.2 := by
  have tag : Text.IsLegal "<meta" := by decide
  have ending : Text.IsLegal "/>\n" := by decide
  rw [pairMarkup, isLegal_append, isLegal_append, isLegal_append, isLegal_attr (by decide),
    isLegal_attr (by decide), and_iff_right tag, and_iff_left ending]

theorem Metadata.isLegal_markup {m : Metadata} : Text.IsLegal m.markup ↔ m.IsLegal := by
  have named : ∀ a ∈ m.attributes, Text.IsLegal a.1 := by
    simp only [attributes, List.forall_mem_cons]
    exact ⟨by decide, by simp⟩
  have pairs : Text.IsLegal (String.join (m.pairs.map pairMarkup)) ↔
      ∀ pair ∈ m.pairs, Text.IsLegal pair.1 ∧ Text.IsLegal pair.2 := by
    rw [isLegal_join, List.forall_mem_map]
    exact forall₂_congr fun pair _ => isLegal_pairMarkup
  have ending : Text.IsLegal (endTag "metadata") := isLegal_endTag (by decide)
  rw [markup, isLegal_append, isLegal_append, isLegal_tag (by decide) (by decide) named, pairs,
    and_iff_left ending, Metadata.IsLegal]

theorem RecordAttributes.isLegal_startTag {r : RecordAttributes} :
    Text.IsLegal r.startTag ↔ HasLegalValues r.listed := by
  have named : ∀ a ∈ r.listed, Text.IsLegal a.1 := by
    simp only [listed, List.forall_mem_cons]
    exact ⟨by decide, by decide, by decide, by decide, by decide, by decide, by decide, by decide,
      by decide, by decide, by simp⟩
  exact isLegal_tag (by decide) (by decide) named

theorem Text.isLegal_getD {α : Type} {markup : α → String} {IsLegal : α → Prop} {item : Option α}
    (each : ∀ a, Text.IsLegal (markup a) ↔ IsLegal a) :
    Text.IsLegal ((item.map markup).getD "") ↔ ∀ a ∈ item, IsLegal a := by
  cases item with
  | none => simp [Text.IsLegal]
  | some a => simpa using each a

theorem Record.isLegal_head {r : Record} : Text.IsLegal r.head ↔ r.IsLegal := by
  rw [head, isLegal_append, isLegal_append, RecordAttributes.isLegal_startTag,
    isLegal_getD fun a => a.isLegal_markup, isLegal_getD fun m => m.isLegal_markup, and_assoc,
    Record.IsLegal]

theorem ContentEncoding.isLegal_startTag (e : ContentEncoding) : Text.IsLegal e.startTag := by
  cases e <;> decide

/-- The texts of an element are legal exactly if its data are, whatever its payload. -/
theorem Element.isLegal_pieces {e : Element} :
    (∀ s, .text s ∈ e.pieces → Text.IsLegal s) ↔ e.IsLegal := by
  cases e with
  | acl a => simpa [pieces, Element.IsLegal] using a.isLegal_markup
  | record r =>
      have ending : Text.IsLegal (endTag "record") := isLegal_endTag (by decide)
      have contentEnding : Text.IsLegal contentEnd := by decide
      cases held : r.content with
      | none =>
          simp [pieces, Record.pieces, held, Element.IsLegal, r.isLegal_head, ending]
      | some c =>
          simp [pieces, Record.pieces, held, Element.IsLegal, r.isLegal_head, contentEnding,
            c.encoding.isLegal_startTag]

theorem Element.isLegal_allPieces {elements : List Element} :
    (∀ s, .text s ∈ allPieces elements → Text.IsLegal s) ↔ ∀ e ∈ elements, e.IsLegal := by
  simp only [allPieces, List.mem_flatMap, ← isLegal_pieces]
  constructor
  · intro whole e member s inside
    exact whole s ⟨e, member, inside⟩
  · rintro each s ⟨e, member, inside⟩
    exact each e member s inside

end IndexFeed
