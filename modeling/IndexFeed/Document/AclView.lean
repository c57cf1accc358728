import IndexFeed.Document

/-!
Three views of a document that reshape its access control. One hides it; one shows nothing else, as
a stand-alone list; and one replaces it by inheritance from that stand-alone list. Every view is a
document again and can be viewed in turn.
-/

namespace IndexFeed

private def constant (s : String) : Read (Option PropertyValues) :=
  .ok (some ⟨[.string s], none⟩)

namespace Document

def withoutAcl (d : Document) : Document where
  find name := if Property.isAcl name then .ok none else d.find name
  names := d.names.map fun names => names.filter fun n => !Property.isAcl n

def isKeptInExtract (name : String) : Bool :=
  Property.isAcl name || name == Property.docid || name == Property.searchUrl

/-- The access control alone, as a stand-alone list with a fragment of its own. -/
def extractedAcl (d : Document) : Document where
  find name :=
    if name = Property.documentType then constant DocumentType.acl.wire
    else if name = Property.fragment then constant Property.extractedFragment
    else if isKeptInExtract name then d.find name
    else .ok none
  names := d.names.map fun names =>
    names.filter isKeptInExtract ++ [Property.documentType, Property.fragment]

/-- With inheritance from the stand-alone list as its only access control. -/
def inheritingExtract (d : Document) : Document where
  find name :=
    if name = Property.aclInheritFromDocid then d.find Property.docid
    else if name = Property.aclInheritFromFragment then constant Property.extractedFragment
    else if Property.isAcl name then .ok none
    else d.find name
  names := d.names.map fun names =>
    names.filter (fun n => !Property.isAcl n)
      ++ (if names.contains Property.docid then [Property.aclInheritFromDocid] else [])
      ++ [Property.aclInheritFromFragment]

end Document

inductive AclView where
  | strip
  | extract
  | inherit
  deriving Repr, DecidableEq

def AclView.apply : AclView → Document → Document
  | strip, d => d.withoutAcl
  | extract, d => d.extractedAcl
  | inherit, d => d.inheritingExtract

/-- A stack of views, the first one next to the document. -/
def Document.viewed (d : Document) (views : List AclView) : Document :=
  views.foldl (fun d view => view.apply d) d

end IndexFeed
