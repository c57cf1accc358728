import IndexFeed.Proofs.Location
import IndexFeed.Proofs.Rules

/-!
Access control that is taken out of a record. The list that stands alone is the list of the document
under an address of its own, which is made from the document's identifier and one fixed fragment;
the record inherits from that address and has no access control besides. The fragment of the
document plays no part in it, so that the lists of documents with one identifier share an address.
-/

namespace IndexFeed

namespace Acl

variable {l : Location} {d : Document} {a : Acl} {type : Option DocumentType}

theorem listEntries_congr {d' : Document}
    (same : ∀ name, Property.isAcl name = true → d'.find name = d.find name) :
    lists.mapM (listEntries d') = lists.mapM (listEntries d) := by
  have acl : ∀ list ∈ lists, list.1 ∈ Property.accessNames := by
    simp [lists, Property.accessNames, Property.entryLists]
  apply Outcome.mapM_congr
  intro list member
  rw [listEntries, listEntries, same list.1 (Property.isAcl_accessNames (acl list member))]

theorem ofDocument_extractedAcl (declared : d.declaredType = .ok type) (notAcl : type ≠ some .acl)
    (h : Acl.ofDocument l d.extractedAcl = .ok a) :
    ∃ url original, l.record d.extractedAcl = .ok url ∧ Acl.ofDocument l d = .ok original ∧
      original.url = none ∧ a = { original with url := some url } := by
  have kept : ∀ name, Property.isAcl name = true → d.extractedAcl.find name = d.find name :=
    fun _ acl => d.find_extractedAcl_of_isAcl acl
  obtain ⟨_, entries, listed, addressed, inherits, parent, entered, flat⟩ := ofDocument_ok.mp h
  rw [d.declaredType_extractedAcl, Except.ok.injEq] at listed
  rw [← listed, if_pos rfl] at addressed
  obtain ⟨url, found, bears⟩ := Outcome.map_eq_ok.mp addressed
  refine ⟨url, { a with url := none }, found, ?_, rfl, ?_⟩
  · refine ofDocument_ok.mpr ⟨type, entries, declared, if_neg notAcl, ?_, ?_, ?_, flat⟩
    · rw [← inherits, Document.nonEmptyText?_congr
        (kept _ (Property.isAcl_accessNames (by simp [Property.accessNames])))]
    · rw [← parent, Location.parent?_congr kept]
    · rw [← entered, listEntries_congr kept]
  · rw [bears]

theorem ofDocument_inheritingExtract {docid : String} (declared : d.declaredType = .ok type)
    (notAcl : type ≠ some .acl)
    (found : d.nonEmptyText? Property.docid = .ok (some docid)) :
    Acl.ofDocument l d.inheritingExtract = .ok { inheritFrom := some (l.extractUrl docid) } := by
  have sameType : d.inheritingExtract.declaredType = d.declaredType := by
    rw [Document.declaredType, Document.declaredType, Document.text?_congr
      (d.find_inheritingExtract_other (Property.isAcl_withheld (by simp [Property.withheld])))]
  have hidden : ∀ list ∈ lists, list.1 ∈ Property.entryLists ++ [Property.aclInheritFrom] := by
    simp [lists, Property.entryLists]
  have noEntries : lists.mapM (listEntries d.inheritingExtract) = .ok (lists.map fun _ => []) := by
    apply Outcome.mapM_eq_ok
    intro list member
    rw [listEntries, d.find_inheritingExtract_lists (hidden list member)]
    rfl
  refine ofDocument_ok.mpr ⟨type, _, sameType.trans declared, if_neg notAcl, ?_, ?_, noEntries, rfl⟩
  · exact Document.nonEmptyText?_absent (d.find_inheritingExtract_hidden
      (Property.isAcl_accessNames (by simp [Property.accessNames])) (by decide) (by decide))
  · exact Location.parent?_inheritingExtract found

/-- What is written of a list behind its address. -/
def behindUrl (a : Acl) : String :=
  Markup.attrs [("inheritance-type", a.inheritanceType), ("inherit-from", a.inheritFrom)] ++ ">\n"
    ++ String.join (a.entries.map AclEntry.markup) ++ Markup.endTag "acl"

theorem markup_eq (a : Acl) :
    a.markup = "<acl" ++ Markup.optionalAttr "url" a.url ++ a.behindUrl := by
  rw [markup, attributes, Markup.attrs_cons, behindUrl]
  simp only [String.append_assoc]

end Acl

namespace FeedRules

variable {r : FeedRules} {d : Document} {taken left : Taken}

theorem declaredType_of_elements {elements : List Element}
    (h : r.elements d taken = (.ok elements, left)) : ∃ type, d.declaredType = .ok type := by
  cases declared : d.declaredType with
  | ok type => exact ⟨type, rfl⟩
  | error e =>
      have unread : r.feeding d = .error e := by
        rw [feeding, declared]
        rfl
      rw [FeedRules.elements, unread] at h
      cases h

/-- A record in a content-address feed has no metadata and no content. -/
theorem record_contentUrl {record : Record} (contentUrl : r.feedType = .contentUrl)
    (h : r.record d taken = (.ok record, left)) :
    ∃ fields, RecordFields.ofDocument r.location d = .ok fields ∧
      r.heldAcl fields d = .ok record.acl ∧ record.attributes = fields.attributes ∧
      record.metadata = none ∧ record.content = none := by
  have noContent : r.feedType ≠ .content := by simp [contentUrl]
  have bare := content_eq_none h noContent
  obtain ⟨found, -⟩ | ⟨head, plan, written, report, found, -⟩ := record_ok h
  · obtain ⟨fields, acl, metadata, read, held, unshown, -, rfl⟩ := head_ok found
    rw [heldMetadata, if_neg (by simp [contentUrl])] at unshown
    exact ⟨fields, read, held, rfl, (Except.ok.inj unshown).symm, bare⟩
  · cases plan_eq_none found noContent

/-- What feeds a document whose access control is taken out of its record. -/
theorem elements_aclThenRecord {elements : List Element} (identified : r.location.feedType ≠ .web)
    (feeding : r.feeding d = .ok .aclThenRecord)
    (h : r.elements d taken = (.ok elements, left)) :
    ∃ docid fragment original record, d.IsIdentifiedBy docid fragment ∧
      Acl.ofDocument r.location d = .ok original ∧ original.url = none ∧
      elements = [.acl { original with url := some (r.location.extractUrl docid) },
        .record record] ∧
      record.attributes.url = r.location.ofDocid docid r.location.feedType fragment ∧
      record.acl = (if record.attributes.isDelete then none
        else some { inheritFrom := some (r.location.extractUrl docid) }) ∧
      record.metadata = none ∧ record.content = none := by
  obtain ⟨contentUrl, -, type, declared, notAcl⟩ := feeding_eq_aclThenRecord.mp feeding
  obtain ⟨a, record, extracted, recorded, rfl⟩ := elements_ok_of_aclThenRecord feeding h
  obtain ⟨_, original, addressed, listed, bare, rfl⟩ :=
    Acl.ofDocument_extractedAcl declared notAcl extracted
  obtain ⟨docid, found, filled, rfl⟩ := (Location.record_extractedAcl identified).mp addressed
  obtain ⟨fields, read, held, attributes, noMetadata, noContent⟩ :=
    record_contentUrl contentUrl recorded
  obtain ⟨located, marked, -⟩ := RecordFields.ofDocument_ok read
  rw [Location.record_congr fun _ listed =>
    d.find_inheritingExtract_other (Location.isAcl_addressNames listed)] at located
  obtain ⟨docid', fragment, given, -, url⟩ := (Location.record_eq_ok identified).mp located
  have same : docid' = docid := by
    have both := given.docid.symm.trans found
    simpa using both
  subst same
  rw [d.hasAcl_inheritingExtract found, Except.ok.injEq] at marked
  refine ⟨docid', fragment, original, record, given, listed, bare, rfl, attributes ▸ url, ?_,
    noMetadata, noContent⟩
  rw [heldAcl, ← marked] at held
  rw [attributes]
  cases deletes : fields.attributes.isDelete with
  | true =>
      rw [deletes] at held
      exact (Except.ok.inj held).symm
  | false =>
      rw [deletes, Acl.ofDocument_inheritingExtract declared notAcl
        (Document.nonEmptyText?_eq_some.mpr ⟨found, filled⟩)] at held
      exact (Except.ok.inj held).symm

/-- The list that is taken out of a document's record is the list of the document, but for an
address of its own. The record has no access control but that it inherits from this very address,
unless it deletes its document and so has none at all. -/
theorem alone_extracts (identified : r.location.feedType ≠ .web)
    (feeding : r.feeding d = .ok .aclThenRecord) {n : Nat} {bytes : List UInt8}
    (built : r.alone d taken = (.ok n, bytes, left)) :
    ∃ (original : Acl) (record : Record) (url : String),
      (r.elements d taken).1 = .ok [.acl { original with url := some url }, .record record] ∧
      Acl.ofDocument r.location d = .ok original ∧ original.url = none ∧
      record.acl
        = (if record.attributes.isDelete then none else some { inheritFrom := some url }) ∧
      n = 2 ∧ original.markup = "<acl" ++ original.behindUrl ∧
      bytes = Utf8.encode ("<acl" ++ Markup.attr "url" url ++ original.behindUrl
        ++ record.attributes.startTag
        ++ (if record.attributes.isDelete then ""
            else "<acl" ++ Markup.attr "inherit-from" url ++ ">\n" ++ Markup.endTag "acl")
        ++ Markup.endTag "record") := by
  obtain ⟨elements, found, rfl, rfl⟩ := elements_of_alone built
  obtain ⟨docid, fragment, original, record, -, listed, bare, rfl, -, held, noMetadata,
    noContent⟩ := elements_aclThenRecord identified feeding found
  have head : record.head = record.attributes.startTag
      ++ (if record.attributes.isDelete then ""
          else "<acl" ++ Markup.attr "inherit-from" (r.location.extractUrl docid) ++ ">\n"
            ++ Markup.endTag "acl") := by
    rw [Record.head, held, noMetadata]
    split
    · simp
    · simp [Acl.markup, Acl.attributes, Markup.attrs, Markup.optionalAttr, String.join_cons]
  refine ⟨original, record, r.location.extractUrl docid, by rw [found], listed, bare, held, rfl, ?_,
    ?_⟩
  · rw [original.markup_eq, bare]
    simp [Markup.optionalAttr]
  · simp only [Element.allPieces, List.flatMap_cons, List.flatMap_nil, Element.pieces,
      Record.pieces, noContent, Acl.markup_eq, Markup.optionalAttr, head, Piece.allBytes,
      List.cons_append, List.nil_append, Piece.bytes, List.append_nil, ← Utf8.encode_append,
      String.append_assoc]
    rfl

/-- A document that has a fragment and inherits from the address of another one in a feed of another
kind: neither shows in the address of its list, and only the list inherits from that address. -/
theorem alone_extracts_of_heir :
    let rules := FeedOptions.rules
      { dataSource := "hr", feedType := .contentUrl, contentBase := some "https://host/get" }
    let d := (PropertyTable.ofPairs
      [(Property.docid, .string "a b"), (Property.fragment, .string "x"),
        (Property.aclInheritFromDocid, .string "p"),
        (Property.aclInheritFromFeedType, .string "content"),
        (Property.aclInheritFromFragment, .string "q"),
        (Property.aclInheritanceType, .string "child-overrides"),
        (Property.aclUsers, .string "eve"), (Property.aclUsers, .string "bob=reader")]).toDocument
    let list : Acl :=
      { inheritanceType := some "child-overrides"
        inheritFrom := some "googleconnector://hr.localhost/doc?docid=p#q"
        entries := [⟨{ name := "eve" }, .user, .permit⟩, ⟨{ name := "bob" }, .user, .permit⟩] }
    let url := "https://host/get?ConnectorName=hr&docid=a+b#generated-acl"
    rules.location.feedType ≠ .web ∧ rules.feeding d = .ok .aclThenRecord ∧
    ∃ bytes left, rules.alone d {} = (.ok 2, bytes, left) ∧
      Acl.ofDocument rules.location d = .ok list ∧
      ∃ record, (rules.elements d {}).1 = .ok [.acl { list with url := some url }, .record record] ∧
        record.attributes.url = "https://host/get?ConnectorName=hr&docid=a+b#x" ∧
        record.acl = some { inheritFrom := some url } := by
  intro rules d list url
  let record : Record :=
    { attributes :=
        { url := "https://host/get?ConnectorName=hr&docid=a+b#x", mimetype := "text/html"
          authMethod := "none" }
      acl := some { inheritFrom := some url } }
  have web : rules.location.feedType ≠ .web := by decide
  have feeding : rules.feeding d = .ok .aclThenRecord := rfl
  have shown : (rules.elements d {}).1.toOption
      = some [.acl { list with url := some url }, .record record] := by decide
  have found := Outcome.toOption_eq_some.mp shown
  obtain ⟨bytes, left, built⟩ := exists_alone found
  obtain ⟨original, record', address, found', listed, bare, held, -⟩ :=
    alone_extracts web feeding built
  have same : original = list := by
    rw [found] at found'
    cases original
    simp_all [list]
  exact ⟨web, feeding, bytes, left, built, same ▸ listed, record, found, rfl, rfl⟩

/-- What a document is fed as: a list under one address and a record under another one. -/
def FeedsUnder (r : FeedRules) (d : Document) (taken : Taken) (listUrl recordUrl : String) : Prop :=
  ∃ list record, (r.elements d taken).1 = .ok [.acl list, .record record] ∧
    list.url = some listUrl ∧ record.attributes.url = recordUrl

theorem feedsUnder_of_alone {n : Nat} {bytes : List UInt8} (contentUrl : r.feedType = .contentUrl)
    (identified : r.location.feedType ≠ .web) (marked : d.hasAcl = .ok true)
    (notAcl : d.declaredType ≠ .ok (some .acl)) (built : r.alone d taken = (.ok n, bytes, left)) :
    ∃ docid fragment, d.IsIdentifiedBy docid fragment ∧
      r.FeedsUnder d taken (r.location.extractUrl docid)
        (r.location.ofDocid docid r.location.feedType fragment) := by
  obtain ⟨elements, found, -⟩ := elements_of_alone built
  obtain ⟨type, declared⟩ := declaredType_of_elements found
  have feeding : r.feeding d = .ok .aclThenRecord :=
    feeding_eq_aclThenRecord.mpr
      ⟨contentUrl, marked, type, declared, fun acl => notAcl (acl ▸ declared)⟩
  obtain ⟨docid, fragment, original, record, given, -, -, rfl, url, -⟩ :=
    elements_aclThenRecord identified feeding found
  exact ⟨docid, fragment, given, _, record, by rw [found], rfl, url⟩

end FeedRules

theorem Location.extractUrl_inj {l : Location} {docid docid' : String} :
    l.extractUrl docid = l.extractUrl docid' ↔ docid = docid' :=
  ⟨fun same => (ofDocid_eq same).2.1, congrArg l.extractUrl⟩

/-- The address of a list that is taken out of a record is that of a record only if the record has
the fragment that is meant for such lists. -/
theorem Location.extractUrl_eq_ofDocid {l : Location} {d : Document} {docid docid' : String}
    {fragment : Option String} (given : d.IsIdentifiedBy docid' fragment)
    (h : l.extractUrl docid = l.ofDocid docid' l.feedType fragment) :
    docid = docid' ∧ fragment = some Property.extractedFragment := by
  obtain ⟨-, docids, fragments⟩ := ofDocid_eq h
  have reserved : (some Property.extractedFragment).filter (· != "")
      = some Property.extractedFragment := by decide
  rw [given.filter_fragment, reserved] at fragments
  exact ⟨docids, fragments.symm⟩

namespace FeedRules

/-- Of two documents whose access control is taken out of their records, a list meets a record only
where both have one identifier and the record has the fragment that is meant for lists; and two
lists meet exactly if their documents have one identifier. -/
theorem alone_apart {r : FeedRules} {d d' : Document} {taken taken' left left' : Taken}
    {n n' : Nat} {bytes bytes' : List UInt8} (contentUrl : r.feedType = .contentUrl)
    (identified : r.location.feedType ≠ .web) (marked : d.hasAcl = .ok true)
    (marked' : d'.hasAcl = .ok true) (notAcl : d.declaredType ≠ .ok (some .acl))
    (notAcl' : d'.declaredType ≠ .ok (some .acl)) (built : r.alone d taken = (.ok n, bytes, left))
    (built' : r.alone d' taken' = (.ok n', bytes', left')) :
    ∃ docid docid' fragment fragment' listUrl listUrl' recordUrl recordUrl',
      d.IsIdentifiedBy docid fragment ∧ d'.IsIdentifiedBy docid' fragment' ∧
      r.FeedsUnder d taken listUrl recordUrl ∧ r.FeedsUnder d' taken' listUrl' recordUrl' ∧
      (fragment ≠ some Property.extractedFragment → listUrl ≠ recordUrl ∧ listUrl' ≠ recordUrl) ∧
      (fragment' ≠ some Property.extractedFragment →
        listUrl ≠ recordUrl' ∧ listUrl' ≠ recordUrl') ∧
      (docid ≠ docid' → listUrl ≠ recordUrl' ∧ listUrl' ≠ recordUrl) ∧
      (listUrl = listUrl' ↔ docid = docid') ∧
      (recordUrl ≠ recordUrl' → listUrl ≠ listUrl' ∨ docid = docid' ∧ fragment ≠ fragment') := by
  obtain ⟨docid, fragment, given, feeds⟩ :=
    feedsUnder_of_alone contentUrl identified marked notAcl built
  obtain ⟨docid', fragment', given', feeds'⟩ :=
    feedsUnder_of_alone contentUrl identified marked' notAcl' built'
  refine ⟨docid, docid', fragment, fragment', _, _, _, _, given, given', feeds, feeds', ?_, ?_, ?_,
    Location.extractUrl_inj, ?_⟩
  · intro free
    exact ⟨fun same => free (Location.extractUrl_eq_ofDocid given same).2,
      fun same => free (Location.extractUrl_eq_ofDocid given same).2⟩
  · intro free
    exact ⟨fun same => free (Location.extractUrl_eq_ofDocid given' same).2,
      fun same => free (Location.extractUrl_eq_ofDocid given' same).2⟩
  · intro other
    exact ⟨fun same => other (Location.extractUrl_eq_ofDocid given' same).1,
      fun same => other (Location.extractUrl_eq_ofDocid given same).1.symm⟩
  · intro different
    by_cases one : docid = docid'
    · subst one
      exact .inr ⟨rfl, fun same => different (same ▸ rfl)⟩
    · exact .inl fun same => one (Location.extractUrl_inj.mp same)

/-- An identifier that looks like the address of another document's list. -/
theorem alone_apart_of_forged_docid :
    let rules := FeedOptions.rules { dataSource := "hr", feedType := .contentUrl }
    let d := (PropertyTable.ofPairs
      [(Property.docid, .string "a"), (Property.fragment, .string "x"),
        (Property.aclUsers, .string "eve")]).toDocument
    let d' := ({ docid := "a#generated-acl", users := ["eve"] } : DocumentDraft).table.toDocument
    rules.feedType = .contentUrl ∧ rules.location.feedType ≠ .web ∧ d.hasAcl = .ok true ∧
    d'.hasAcl = .ok true ∧ d.declaredType ≠ .ok (some .acl) ∧ d'.declaredType ≠ .ok (some .acl) ∧
    ∃ bytes bytes' left left', rules.alone d {} = (.ok 2, bytes, left) ∧
      rules.alone d' {} = (.ok 2, bytes', left') ∧
      ∃ listUrl listUrl' recordUrl recordUrl', rules.FeedsUnder d {} listUrl recordUrl ∧
        rules.FeedsUnder d' {} listUrl' recordUrl' ∧ listUrl ≠ recordUrl ∧ listUrl ≠ recordUrl' ∧
        listUrl' ≠ recordUrl ∧ listUrl' ≠ recordUrl' ∧ listUrl ≠ listUrl' := by
  intro rules d d'
  have marked : d.hasAcl = .ok true := rfl
  have marked' : d'.hasAcl = .ok true := rfl
  have notAcl : d.declaredType ≠ .ok (some .acl) := nofun
  have notAcl' : d'.declaredType ≠ .ok (some .acl) := nofun
  have count : (rules.elements d {}).1.toOption.map List.length = some 2 := by decide
  have count' : (rules.elements d' {}).1.toOption.map List.length = some 2 := by decide
  obtain ⟨elements, found, two⟩ := Option.map_eq_some_iff.mp count
  obtain ⟨elements', found', two'⟩ := Option.map_eq_some_iff.mp count'
  obtain ⟨bytes, left, built⟩ := exists_alone (Outcome.toOption_eq_some.mp found)
  obtain ⟨bytes', left', built'⟩ := exists_alone (Outcome.toOption_eq_some.mp found')
  rw [two] at built
  rw [two'] at built'
  obtain ⟨docid, docid', fragment, fragment', listUrl, listUrl', recordUrl, recordUrl', given,
    given', feeds, feeds', own, own', other, lists, -⟩ :=
    alone_apart (by decide) (by decide) marked marked' notAcl notAcl' built built'
  have differ : docid ≠ docid' := by
    have docids : Except.ok (some docid) = .ok (some "a") := given.docid.symm
    have docids' : Except.ok (some docid') = .ok (some "a#generated-acl") := given'.docid.symm
    simp_all
  have free : fragment ≠ some Property.extractedFragment := by
    have fragments : Except.ok fragment = .ok (some "x") := given.fragment.symm
    rw [Except.ok.inj fragments]
    decide
  have free' : fragment' ≠ some Property.extractedFragment := by
    have fragments' : Except.ok fragment' = .ok none := given'.fragment.symm
    rw [Except.ok.inj fragments']
    decide
  exact ⟨by decide, by decide, marked, marked', notAcl, notAcl', bytes, bytes', left, left', built,
    built', listUrl, listUrl', recordUrl, recordUrl', feeds, feeds', (own free).1, (other differ).1,
    (own free).2, (own' free').2, fun same => differ (lists.mp same)⟩

/-- Two records of one document have one list, and a record whose fragment is the one that is meant
for lists has the address of its own list. -/
theorem alone_meets :
    let rules := FeedOptions.rules { dataSource := "hr", feedType := .contentUrl }
    let d (fragment : String) := (PropertyTable.ofPairs
      [(Property.docid, .string "a"), (Property.fragment, .string fragment),
        (Property.aclUsers, .string "eve")]).toDocument
    let listUrl := "googleconnector://hr.localhost/doc?docid=a#generated-acl"
    let recordUrl (fragment : String) := "googleconnector://hr.localhost/doc?docid=a#" ++ fragment
    rules.feedType = .contentUrl ∧ rules.location.feedType = .contentUrl ∧
    (∀ fragment ∈ ["x", "y", Property.extractedFragment], (d fragment).hasAcl = .ok true ∧
      (d fragment).declaredType = .ok none ∧
      (∃ bytes left, rules.alone (d fragment) {} = (.ok 2, bytes, left)) ∧
      rules.FeedsUnder (d fragment) {} listUrl (recordUrl fragment)) ∧
    recordUrl "x" ≠ recordUrl "y" ∧ recordUrl Property.extractedFragment = listUrl := by
  intro rules d listUrl recordUrl
  let list : Acl := { url := some listUrl, entries := [⟨{ name := "eve" }, .user, .permit⟩] }
  let record (fragment : String) : Record :=
    { attributes :=
        { url := recordUrl fragment, mimetype := "text/html", authMethod := "none" }
      acl := some { inheritFrom := some listUrl } }
  have shown : ∀ fragment ∈ ["x", "y", Property.extractedFragment],
      (rules.elements (d fragment) {}).1.toOption
        = some [.acl list, .record (record fragment)] := by
    decide
  refine ⟨rfl, rfl, fun fragment member => ?_, by decide, rfl⟩
  have found := Outcome.toOption_eq_some.mp (shown fragment member)
  exact ⟨rfl, rfl, exists_alone found, list, record fragment, found, rfl, rfl⟩

end FeedRules

end IndexFeed
