import IndexFeed.Codec.FormEncoded
import IndexFeed.Document
import IndexFeed.Protocol

/-!
The addresses under which records and access control lists are known to the index. In a web feed
that is the document's own address; in any other feed an address is made from the data source and
the document's identifier. A fragment tells several records of one document apart.
-/

namespace IndexFeed

structure Location where
  dataSource : String
  feedType : FeedType
  /-- Where the index fetches content of content-address feeds, if it is not asked for through the
  data source. -/
  contentBase : Option String := none
  deriving Repr, DecidableEq

namespace Location

def internalScheme : String := "googleconnector://"

/-- An address with a fragment behind it, unless there is none or an empty one. -/
def addFragment (url : String) : Option String → String
  | some fragment => if fragment = "" then url else url ++ "#" ++ FormEncoded.encode fragment
  | none => url

def ofDocid (l : Location) (docid : String) (feedType : FeedType) (fragment : Option String) :
    String :=
  let base :=
    match feedType, l.contentBase with
    | .contentUrl, some base =>
      base ++ "?ConnectorName=" ++ FormEncoded.encode l.dataSource ++ "&docid="
        ++ FormEncoded.encode docid
    | _, _ =>
      internalScheme ++ l.dataSource ++ ".localhost/doc?docid=" ++ FormEncoded.encode docid
  addFragment base fragment

def record (l : Location) (d : Document) : Read String := do
  let fragment ← d.text? Property.fragment
  if l.feedType = .web then
    match ← d.nonEmptyText? Property.searchUrl with
    | some url => .ok (addFragment url fragment)
    | none => .error (.document ("web feed document has no " ++ Property.searchUrl))
  else
    match ← d.nonEmptyText? Property.docid with
    | some docid => .ok (l.ofDocid docid l.feedType fragment)
    | none => .error (.document ("document has no " ++ Property.docid))

/-- The address of the list that a document's access control inherits from: the one it gives, or one
made from the identifier it gives. -/
def parent? (l : Location) (d : Document) : Read (Option String) := do
  match ← d.nonEmptyText? Property.aclInheritFrom with
  | some url => .ok (some url)
  | none =>
    match ← d.nonEmptyText? Property.aclInheritFromDocid with
    | none => .ok none
    | some docid =>
      let feedType := ((← d.text? Property.aclInheritFromFeedType).bind FeedType.find?).getD
        l.feedType
      let fragment ← d.text? Property.aclInheritFromFragment
      .ok (some (l.ofDocid docid feedType fragment))

end Location

end IndexFeed
