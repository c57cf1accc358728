import IndexFeed.Document.Sample
import IndexFeed.Location
import IndexFeed.Proofs.Codec.FormEncoded
import IndexFeed.Proofs.Document
import IndexFeed.Proofs.Text.Search

/-!
What an address tells. Data source and content base are put into an address as they stand, but
identifier and fragment are encoded and come last. So an address is read from its end: the last
equals sign stands in front of the identifier, and a number sign behind it in front of the fragment.
-/

namespace IndexFeed

namespace Location

variable {l l' : Location} {type type' : FeedType}

/-- The part of an address in front of the equals sign behind which the identifier stands. -/
def site (l : Location) (feedType : FeedType) : String :=
  match feedType, l.contentBase with
  | .contentUrl, some base =>
    base ++ "?ConnectorName=" ++ FormEncoded.encode l.dataSource ++ "&docid"
  | _, _ => internalScheme ++ l.dataSource ++ ".localhost/doc?docid"

/-- The part of an address behind the identifier. -/
def fragmentPart : Option String → List Char
  | some fragment => '#' :: (FormEncoded.encode fragment).toList
  | none => []

theorem toList_addFragment (url : String) (fragment : Option String) :
    (addFragment url fragment).toList
      = url.toList ++ fragmentPart (fragment.filter (· != "")) := by
  cases fragment with
  | none => simp [addFragment, fragmentPart]
  | some fragment =>
      by_cases empty : fragment = ""
      · simp [addFragment, fragmentPart, Option.filter_some, empty]
      · simp [addFragment, fragmentPart, Option.filter_some, empty]

theorem toList_ofDocid (l : Location) (docid : String) (feedType : FeedType)
    (fragment : Option String) :
    (l.ofDocid docid feedType fragment).toList
      = (l.site feedType).toList ++ '=' :: ((FormEncoded.encode docid).toList
          ++ fragmentPart (fragment.filter (· != ""))) := by
  unfold ofDocid site
  rw [toList_addFragment]
  cases l.contentBase with
  | none => cases feedType <;> simp
  | some base => cases feedType <;> simp

/-- The data source can be told from what stands in front of the identifier. It is encoded behind a
content base, and then an ampersand stands where there is a question mark otherwise. -/
theorem dataSource_of_site (h : l.site type = l'.site type') : l.dataSource = l'.dataSource := by
  have question : ".localhost/doc?docid".toList = ".localhost/doc".toList ++ "?docid".toList := rfl
  have divided (base source : String) :
      (base ++ "?ConnectorName=" ++ FormEncoded.encode source).toList
        = (base ++ "?ConnectorName").toList ++ '=' :: (FormEncoded.encode source).toList := by
    simp
  have chars := congrArg String.toList h
  unfold site at chars
  split at chars
  · split at chars
    · rw [String.toList_append, String.toList_append (t := "&docid"), List.append_left_inj, divided,
        divided] at chars
      have parts := congrArg (Text.splitLast '=') chars
      rw [Text.splitLast_append (FormEncoded.not_mem_encode (by decide) _),
        Text.splitLast_append (FormEncoded.not_mem_encode (by decide) _), Option.some.injEq,
        Prod.mk.injEq] at parts
      exact FormEncoded.encode_inj.mp (String.toList_inj.mp parts.2)
    · rw [String.toList_append, String.toList_append (t := ".localhost/doc?docid"), question,
        ← List.append_assoc] at chars
      have clash := (List.append_inj' chars (by simp)).2
      simp at clash
  · split at chars
    · rw [String.toList_append, String.toList_append (t := "&docid"), question,
        ← List.append_assoc] at chars
      have clash := (List.append_inj' chars (by simp)).2
      simp at clash
    · rw [String.toList_inj, String.append_left_inj, String.append_right_inj] at chars
      exact chars

theorem fragmentPart_inj {fragment fragment' : Option String} :
    fragmentPart fragment = fragmentPart fragment' ↔ fragment = fragment' := by
  cases fragment with
  | none => cases fragment' <;> simp [fragmentPart]
  | some f => cases fragment' <;> simp [fragmentPart, FormEncoded.encode_inj, String.toList_inj]

theorem equals_not_mem (docid : String) (fragment : Option String) :
    '=' ∉ (FormEncoded.encode docid).toList ++ fragmentPart fragment := by
  have free := FormEncoded.not_mem_encode (c := '=') (by decide)
  cases fragment <;> simp [fragmentPart, free]

theorem takeWhile_fragmentPart (docid : String) (fragment : Option String) :
    ((FormEncoded.encode docid).toList ++ fragmentPart fragment).takeWhile (· != '#')
      = (FormEncoded.encode docid).toList := by
  have passed : ∀ c ∈ (FormEncoded.encode docid).toList, (c != '#') = true := by
    intro c member
    rw [bne_iff_ne]
    rintro rfl
    exact FormEncoded.not_mem_encode (by decide) docid member
  rw [List.takeWhile_append_of_pos passed]
  cases fragment <;> simp [fragmentPart]

/-- Addresses made from an identifier are the same only if they are made from the same data source,
identifier and fragment, whatever kinds of feed they are for and wherever content is fetched. -/
theorem ofDocid_eq {docid docid' : String} {fragment fragment' : Option String}
    (h : l.ofDocid docid type fragment = l'.ofDocid docid' type' fragment') :
    l.dataSource = l'.dataSource ∧ docid = docid' ∧
      fragment.filter (· != "") = fragment'.filter (· != "") := by
  have parts := congrArg (fun url => Text.splitLast '=' url.toList) h
  simp only [toList_ofDocid, Text.splitLast_append (equals_not_mem _ _), Option.some.injEq,
    Prod.mk.injEq] at parts
  obtain ⟨sites, behind⟩ := parts
  have docids := congrArg (List.takeWhile (· != '#')) behind
  rw [takeWhile_fragmentPart, takeWhile_fragmentPart, String.toList_inj,
    FormEncoded.encode_inj] at docids
  rw [docids, List.append_right_inj, fragmentPart_inj] at behind
  exact ⟨dataSource_of_site (String.toList_inj.mp sites), docids, behind⟩

/-! ## The addresses of documents -/

end Location

/-- The identifier and the fragment from which the address of a document is made. An empty fragment
is none. -/
structure Document.IsIdentifiedBy (d : Document) (docid : String) (fragment : Option String) :
    Prop where
  docid : d.text? Property.docid = .ok (some docid)
  fragment : d.nonEmptyText? Property.fragment = .ok fragment

theorem Document.IsIdentifiedBy.filter_fragment {d : Document} {docid : String}
    {fragment : Option String} (h : d.IsIdentifiedBy docid fragment) :
    fragment.filter (· != "") = fragment :=
  Document.filter_of_nonEmptyText? h.fragment

namespace Location

variable {l l' : Location} {d d' : Document} {url : String}

theorem ofDocid_filter (docid : String) (feedType : FeedType) (fragment : Option String) :
    l.ofDocid docid feedType (fragment.filter (· != "")) = l.ofDocid docid feedType fragment := by
  rw [← String.toList_inj, toList_ofDocid, toList_ofDocid, Option.filter_filter]
  simp

theorem record_eq_ok (identified : l.feedType ≠ .web) :
    l.record d = .ok url ↔ ∃ docid fragment, d.IsIdentifiedBy docid fragment ∧ docid ≠ "" ∧
      url = l.ofDocid docid l.feedType fragment := by
  rw [record, Outcome.bind_eq_ok]
  simp only [if_neg identified]
  constructor
  · rintro ⟨raw, read, rest⟩
    obtain ⟨docid, found, rest⟩ := Outcome.bind_eq_ok.mp rest
    cases docid with
    | none => cases rest
    | some docid =>
        obtain ⟨found, filled⟩ := Document.nonEmptyText?_eq_some.mp found
        refine ⟨docid, raw.filter (· != ""), ⟨found, ?_⟩, filled, ?_⟩
        · rw [Document.nonEmptyText?, read]
          rfl
        · rw [ofDocid_filter, Except.ok.inj rest]
  · rintro ⟨docid, fragment, ⟨found, kept⟩, filled, rfl⟩
    obtain ⟨raw, read, rfl⟩ := Outcome.map_eq_ok.mp kept
    refine ⟨raw, read, Outcome.bind_eq_ok.mpr ⟨some docid, ?_, ?_⟩⟩
    · exact Document.nonEmptyText?_eq_some.mpr ⟨found, filled⟩
    · simp only [ofDocid_filter]

/-- The properties that the address of a record is made from. -/
def addressNames : List String :=
  [Property.fragment, Property.searchUrl, Property.docid]

theorem record_congr (same : ∀ name ∈ addressNames, d'.find name = d.find name) :
    l.record d' = l.record d := by
  have text {name : String} (listed : name ∈ addressNames) : d'.text? name = d.text? name :=
    Document.text?_congr (same name listed)
  have filled {name : String} (listed : name ∈ addressNames) :
      d'.nonEmptyText? name = d.nonEmptyText? name :=
    Document.nonEmptyText?_congr (same name listed)
  rw [record, record, text (by simp [addressNames]), filled (by simp [addressNames]),
    filled (by simp [addressNames])]

/-- The address of a document does not depend on its access control. -/
theorem isAcl_addressNames {name : String} (listed : name ∈ addressNames) :
    Property.isAcl name = false := by
  have withheld : ∀ name ∈ addressNames, name ∈ Property.withheld := by
    simp [addressNames, Property.withheld]
  exact Property.isAcl_withheld (withheld name listed)

/-- Where a document inherits from depends on nothing but its access control. -/
theorem parent?_congr (same : ∀ name, Property.isAcl name = true → d'.find name = d.find name) :
    l.parent? d' = l.parent? d := by
  have text {name : String} (acl : name ∈ Property.accessNames) : d'.text? name = d.text? name :=
    Document.text?_congr (same name (Property.isAcl_accessNames acl))
  have filled {name : String} (acl : name ∈ Property.accessNames) :
      d'.nonEmptyText? name = d.nonEmptyText? name :=
    Document.nonEmptyText?_congr (same name (Property.isAcl_accessNames acl))
  rw [parent?, parent?, filled (by simp [Property.accessNames]),
    filled (by simp [Property.accessNames]), text (by simp [Property.accessNames]),
    text (by simp [Property.accessNames])]

/-- The address of the list that is taken out of a document. The fragment of the document itself is
not part of it. -/
def extractUrl (l : Location) (docid : String) : String :=
  l.ofDocid docid l.feedType (some Property.extractedFragment)

theorem record_extractedAcl (identified : l.feedType ≠ .web) :
    l.record d.extractedAcl = .ok url ↔
      ∃ docid, d.text? Property.docid = .ok (some docid) ∧ docid ≠ "" ∧
        url = l.extractUrl docid := by
  have docids : d.extractedAcl.text? Property.docid = d.text? Property.docid :=
    Document.text?_congr (d.find_extractedAcl (by simp [Document.isKeptInExtract]))
  have fragment : d.extractedAcl.nonEmptyText? Property.fragment
      = .ok (some Property.extractedFragment) :=
    Document.nonEmptyText?_eq_some.mpr ⟨d.text?_fragment_extractedAcl, by decide⟩
  rw [record_eq_ok identified]
  constructor
  · rintro ⟨docid, fragment', ⟨found, kept⟩, filled, rfl⟩
    rw [fragment, Except.ok.injEq] at kept
    rw [docids] at found
    exact ⟨docid, found, filled, by rw [extractUrl, kept]⟩
  · rintro ⟨docid, found, filled, rfl⟩
    exact ⟨docid, _, ⟨docids.trans found, fragment⟩, filled, rfl⟩

theorem parent?_inheritingExtract {docid : String}
    (found : d.nonEmptyText? Property.docid = .ok (some docid)) :
    l.parent? d.inheritingExtract = .ok (some (l.extractUrl docid)) := by
  have noAddress : d.inheritingExtract.nonEmptyText? Property.aclInheritFrom = .ok none :=
    Document.nonEmptyText?_absent (d.find_inheritingExtract_lists (by decide))
  have docids : d.inheritingExtract.nonEmptyText? Property.aclInheritFromDocid
      = .ok (some docid) := by
    rw [← found, Document.nonEmptyText?, Document.nonEmptyText?, Document.text?, Document.text?,
      Document.value?, Document.value?, d.find_inheritingExtract_docid]
  have noFeedType : d.inheritingExtract.text? Property.aclInheritFromFeedType = .ok none := by
    rw [Document.text?, Document.value?, d.find_inheritingExtract_hidden
      (Property.isAcl_accessNames (by simp [Property.accessNames])) (by decide) (by decide)]
    rfl
  rw [parent?, noAddress, docids, noFeedType, d.text?_fragment_inheritingExtract]
  rfl

/-- Outside of web feeds, two documents have the same address only if their data sources, their
identifiers and their fragments are the same. The kinds of feed and the places where content is
fetched may differ, and the data source, which is not encoded, may hold anything. -/
theorem record_unique (identified : l.feedType ≠ .web) (identified' : l'.feedType ≠ .web)
    (found : l.record d = .ok url) (found' : l'.record d' = .ok url) :
    l.dataSource = l'.dataSource ∧
      ∃ docid fragment, d.IsIdentifiedBy docid fragment ∧ d'.IsIdentifiedBy docid fragment := by
  obtain ⟨docid, fragment, given, -, rfl⟩ := (record_eq_ok identified).mp found
  obtain ⟨docid', fragment', given', -, same⟩ := (record_eq_ok identified').mp found'
  obtain ⟨sources, rfl, fragments⟩ := ofDocid_eq same
  rw [given.filter_fragment, given'.filter_fragment] at fragments
  exact ⟨sources, docid, fragment, given, fragments ▸ given'⟩

/-- A data source that looks like the rest of an address, in feeds of different kinds, and a
fragment that is empty in one document and absent from the other. -/
theorem record_unique_of_forged_source :
    let l : Location := ⟨"a#.localhost/doc?docid=1", .content, some "http://host?ConnectorName="⟩
    let l' : Location := ⟨"a#.localhost/doc?docid=1", .contentUrl, none⟩
    let d := (PropertyTable.ofPairs
      [(Property.docid, .string "x y/\u00e9"), (Property.fragment, .string "")]).toDocument
    let d' := ({ docid := "x y/\u00e9" } : DocumentDraft).table.toDocument
    let url := "googleconnector://a#.localhost/doc?docid=1.localhost/doc?docid=x+y%2F%C3%A9"
    l.feedType ≠ .web ∧ l'.feedType ≠ .web ∧ l.record d = .ok url ∧ l'.record d' = .ok url ∧
      l.dataSource = l'.dataSource ∧
        ∃ docid fragment, d.IsIdentifiedBy docid fragment ∧ d'.IsIdentifiedBy docid fragment := by
  intro l l' d d' url
  have found : l.record d = .ok url := rfl
  have found' : l'.record d' = .ok url := rfl
  exact ⟨by decide, by decide, found, found', record_unique (by decide) (by decide) found found'⟩

end Location

end IndexFeed
