import IndexFeed.Feed
import IndexFeed.Proofs.Inspection.Scan
import IndexFeed.Proofs.Markup.Element

/-!
What is counted in the markup of a feed. Each start tag of a record or of a list counts where it
begins a line; escaped values are passed over, however many lines they fill, and so is everything
inside a list and the prolog and epilog around the elements.
-/

namespace IndexFeed

open Inspection Markup

namespace Inspection

/-- Text that changes no counts, whatever stands behind it. -/
def IsSkipped (s : String) : Prop :=
  ∀ (c : Counts) (rest : List Char), c.scan (s.toList ++ rest) = c.scan rest

theorem isSkipped_empty : IsSkipped "" := fun _ _ => rfl

theorem IsSkipped.append {s t : String} (first : IsSkipped s) (second : IsSkipped t) :
    IsSkipped (s ++ t) := by
  intro c rest
  rw [String.toList_append, List.append_assoc, first, second]

theorem isSkipped_join {α : Type} {markup : α → String} (items : List α)
    (each : ∀ a, IsSkipped (markup a)) : IsSkipped (String.join (items.map markup)) := by
  induction items with
  | nil => exact isSkipped_empty
  | cons a rest ih =>
      rw [List.map_cons, String.join_cons]
      exact (each a).append ih

/-- A start tag that ends its line, with attributes of any values. -/
theorem scan_startTag {beginning : String} (first : '\n' ∉ beginning.toList)
    {attributes : List (String × Option String)} (names : ∀ a ∈ attributes, isName a.1 = true)
    (c : Counts) (rest : List Char) :
    c.scan ((beginning ++ attrs attributes ++ ">\n").toList ++ rest)
      = (c.line
          (beginning.toList ++ firstLine ((attrs attributes).toList ++ ['>']))).scan rest := by
  have free : '<' ∉ (attrs attributes).toList ++ ['>'] := by
    simp [not_mem_attrs names]
  have cut : (beginning ++ attrs attributes ++ ">\n").toList ++ rest
      = beginning.toList ++ (((attrs attributes).toList ++ ['>']) ++ ([] ++ '\n' :: rest)) := by
    simp [String.toList_append]
  rw [cut, Counts.scan_block first free isQuiet_nil (by simp), List.append_nil]

theorem scan_endTag {name : String} (whole : '\n' ∉ ("</" ++ name ++ ">").toList) (c : Counts)
    (rest : List Char) :
    c.scan ((endTag name).toList ++ rest) = (c.line ("</" ++ name ++ ">").toList).scan rest := by
  have cut : (endTag name).toList ++ rest = ("</" ++ name ++ ">").toList ++ '\n' :: rest := by
    simp [endTag, String.toList_append]
  rw [cut, Counts.scan_line whole]

theorem isSkipped_endTag {name : String} (whole : '\n' ∉ ("</" ++ name ++ ">").toList)
    (other : isOther ("</" ++ name ++ ">").toList = true) : IsSkipped (endTag name) := by
  intro c rest
  rw [scan_endTag whole, isQuiet_of_isOther other]

theorem isSkipped_startTag {beginning : String} (first : '\n' ∉ beginning.toList)
    (other : isOther beginning.toList = true) {attributes : List (String × Option String)}
    (names : ∀ a ∈ attributes, isName a.1 = true) :
    IsSkipped (beginning ++ attrs attributes ++ ">\n") := by
  intro c rest
  rw [scan_startTag first names, isQuiet_append other]

end Inspection

theorem AclEntry.isSkipped_markup (e : AclEntry) : IsSkipped e.markup := by
  intro c rest
  have free : '<' ∉ (attrs e.attributes).toList ++ '>' :: (escape e.principal.name).toList := by
    simp [not_mem_attrs e.isName_attributes, not_mem_escape (c := '<') (by decide)]
  have cut : e.markup.toList ++ rest
      = "<principal".toList ++ (((attrs e.attributes).toList
          ++ '>' :: (escape e.principal.name).toList)
        ++ ("</principal>".toList ++ '\n' :: rest)) := by
    simp [AclEntry.markup, endTag, String.toList_append]
  have quiet : IsQuiet "</principal>".toList := isQuiet_of_isOther (by decide)
  rw [cut, Counts.scan_block (by decide) free quiet (by decide), isQuiet_append (by decide)]

theorem Acl.scan_markup (a : Acl) (c : Counts) (rest : List Char) :
    c.scan (a.markup.toList ++ rest) = c.meetAcl.scan rest := by
  have entries : IsSkipped (String.join (a.entries.map AclEntry.markup)) :=
    isSkipped_join a.entries AclEntry.isSkipped_markup
  have ending : IsSkipped (endTag "acl") := isSkipped_endTag (by decide) (by decide)
  rw [Acl.markup, String.append_assoc, String.toList_append, List.append_assoc,
    scan_startTag (by decide) a.isName_attributes, Counts.line_acl, entries.append ending]

theorem Metadata.isSkipped_pairMarkup (pair : String × String) :
    IsSkipped (Metadata.pairMarkup pair) := by
  intro c rest
  have free :
      '<' ∉ (attr "name" pair.1).toList ++ (attr "content" pair.2).toList ++ ['/', '>'] := by
    simp [not_mem_attr (show isName "name" = true by decide),
      not_mem_attr (show isName "content" = true by decide)]
  have cut : (Metadata.pairMarkup pair).toList ++ rest
      = "<meta".toList ++ ((attr "name" pair.1).toList ++ (attr "content" pair.2).toList
          ++ ['/', '>'] ++ ([] ++ '\n' :: rest)) := by
    simp [Metadata.pairMarkup, String.toList_append]
  rw [cut, Counts.scan_block (by decide) free isQuiet_nil (by simp), isQuiet_append (by decide)]

theorem Metadata.isSkipped_markup (m : Metadata) : IsSkipped m.markup := by
  have start : IsSkipped ("<metadata" ++ attrs m.attributes ++ ">\n") :=
    isSkipped_startTag (by decide) (by decide) m.isName_attributes
  have ending : IsSkipped (endTag "metadata") := isSkipped_endTag (by decide) (by decide)
  exact (start.append (isSkipped_join m.pairs Metadata.isSkipped_pairMarkup)).append ending

/-- The line of a record's start tag in which its action is looked for. -/
def RecordAttributes.firstLine (r : RecordAttributes) : List Char :=
  Inspection.firstLine r.startTag.toList

theorem RecordAttributes.firstLine_eq (r : RecordAttributes) :
    r.firstLine = "<record".toList ++ Inspection.firstLine ((attrs r.listed).toList ++ ['>']) := by
  have tag :
      r.startTag.toList = "<record".toList ++ ((attrs r.listed).toList ++ ['>']) ++ ['\n'] := by
    simp [RecordAttributes.startTag, String.toList_append]
  rw [RecordAttributes.firstLine, tag, firstLine_concat, firstLine_append (by decide)]

theorem RecordAttributes.scan_startTag (r : RecordAttributes) (c : Counts) (rest : List Char) :
    c.scan (r.startTag.toList ++ rest) = (c.enter (showsDelete r.firstLine)).scan rest := by
  have blank : ∃ more, (attrs r.listed).toList = [' '] ++ more := by
    rw [RecordAttributes.listed, attrs_cons, optionalAttr, String.toList_append, toList_attr,
      List.cons_append, List.cons_append]
    exact ⟨_, List.singleton_append.symm⟩
  have word : "<record ".toList = "<record".toList ++ [' '] := by decide
  obtain ⟨more, begins⟩ := blank
  have entered : c.line r.firstLine = c.enter (showsDelete r.firstLine) := by
    rw [r.firstLine_eq, begins, List.append_assoc, firstLine_append (by decide),
      ← List.append_assoc, ← word, Counts.line_record]
  rw [RecordAttributes.startTag, Inspection.scan_startTag (by decide) r.isName_listed,
    ← r.firstLine_eq, entered]

theorem Record.scan_head (r : Record) (c : Counts) (rest : List Char) :
    c.scan (r.head.toList ++ rest) = (c.enter (showsDelete r.attributes.firstLine)).scan rest := by
  have metadata : IsSkipped ((r.metadata.map Metadata.markup).getD "") := by
    cases r.metadata with
    | none => exact isSkipped_empty
    | some m => exact m.isSkipped_markup
  rw [Record.head, String.toList_append, String.toList_append, List.append_assoc,
    List.append_assoc, RecordAttributes.scan_startTag]
  cases r.acl with
  | none => exact metadata _ rest
  | some a =>
      -- A list does not count within a record.
      rw [Option.map_some, Option.getD_some, a.scan_markup]
      exact metadata _ rest

theorem scan_recordEnd (c : Counts) (rest : List Char) :
    c.scan ((endTag "record").toList ++ rest) = c.leave.scan rest := by
  rw [scan_endTag (by decide)]
  exact congrArg (Counts.scan · rest) (c.line_recordEnd [])

theorem scan_content (e : ContentEncoding) {payload : String} (free : '<' ∉ payload.toList)
    (c : Counts) (rest : List Char) :
    c.scan ((e.startTag ++ payload ++ contentEnd).toList ++ rest)
      = c.meetContent.leave.scan rest := by
  have named : isName "encoding" = true := by decide
  have cut : (e.startTag ++ payload ++ contentEnd).toList ++ rest
      = "<content ".toList ++ (("encoding=\"".toList ++ (escape e.wire).toList ++ "\">".toList
          ++ payload.toList)
          ++ ("</content>".toList ++ '\n' :: ((endTag "record").toList ++ rest))) := by
    simp [ContentEncoding.startTag, contentEnd, attr, endTag, String.toList_append]
  have text : '<' ∉ "encoding=\"".toList ++ (escape e.wire).toList ++ "\">".toList
      ++ payload.toList := by
    simp [free, not_mem_escape (c := '<') (by decide)]
  have quiet : IsQuiet "</content>".toList := isQuiet_of_isOther (by decide)
  rw [cut, Counts.scan_block (by decide) text quiet (by decide), Counts.line_content,
    scan_recordEnd]

theorem isSkipped_line {line : String} (whole : '\n' ∉ line.toList)
    (quiet : IsQuiet line.toList) : IsSkipped (line ++ "\n") := by
  intro c rest
  have cut : (line ++ "\n").toList ++ rest = line.toList ++ '\n' :: rest := by
    simp [String.toList_append]
  rw [cut, Counts.scan_line whole, quiet]

/-- The header, which a data source of several lines may break. -/
theorem isSkipped_header (o : FeedOptions) :
    IsSkipped ("<header><datasource>" ++ escape o.dataSource ++ "</datasource><feedtype>"
      ++ o.feedType.headerName ++ "</feedtype></header>\n") := by
  intro c rest
  let tail := "</datasource><feedtype>".toList ++ (o.feedType.headerName.toList
    ++ "</feedtype></header>".toList)
  have free : '<' ∉ (escape o.dataSource).toList := not_mem_escape (by decide) o.dataSource
  have quiet : IsQuiet tail := isQuiet_append (by decide) _
  have whole : '\n' ∉ tail := by
    have name : '\n' ∉ o.feedType.headerName.toList := by
      cases o.feedType <;> decide
    simp [tail, name]
  have cut : ("<header><datasource>" ++ escape o.dataSource ++ "</datasource><feedtype>"
        ++ o.feedType.headerName ++ "</feedtype></header>\n").toList ++ rest
      = "<header><datasource>".toList ++ ((escape o.dataSource).toList
          ++ (tail ++ '\n' :: rest)) := by
    simp [tail, String.toList_append]
  rw [cut, Counts.scan_block (by decide) free quiet whole, isQuiet_append (by decide)]

theorem isSkipped_prolog (o : FeedOptions) : IsSkipped (Feed.prolog o) := by
  let declaration := "<?xml version='1.0' encoding='UTF-8'?>"
  let doctype := "<!DOCTYPE gsafeed PUBLIC \"-//Google//DTD GSA Feeds//EN\" \"gsafeed.dtd\">"
  have doctype_line : doctype ++ "\n"
      = "<!DOCTYPE gsafeed PUBLIC \"-//Google//DTD GSA Feeds//EN\" \"gsafeed.dtd\">\n" := by decide
  have root_line :
      "<gsafeed>\n<header><datasource>" = "<gsafeed>" ++ "\n" ++ "<header><datasource>" := by
    decide
  have group_line : "</feedtype></header>\n<group>\n"
      = "</feedtype></header>\n" ++ ("<group>" ++ "\n") := by decide
  have lines : Feed.prolog o
      = (declaration ++ doctype ++ "\n") ++ ("<gsafeed>" ++ "\n")
        ++ ("<header><datasource>" ++ escape o.dataSource ++ "</datasource><feedtype>"
          ++ o.feedType.headerName ++ "</feedtype></header>\n") ++ ("<group>" ++ "\n") := by
    delta Feed.prolog
    rw [← doctype_line, root_line, group_line]
    simp only [declaration, String.append_assoc]
  have first : IsSkipped (declaration ++ doctype ++ "\n") :=
    isSkipped_line (by decide) (isQuiet_of_isOther (by decide))
  have second : IsSkipped ("<gsafeed>" ++ "\n") :=
    isSkipped_line (by decide) (isQuiet_of_isOther (by decide))
  have last : IsSkipped ("<group>" ++ "\n") :=
    isSkipped_line (by decide) (isQuiet_of_isOther (by decide))
  rw [lines]
  exact ((first.append second).append (isSkipped_header o)).append last

theorem isSkipped_epilog : IsSkipped Feed.epilog :=
  (isSkipped_endTag (by decide) (by decide)).append (isSkipped_endTag (by decide) (by decide))

end IndexFeed
