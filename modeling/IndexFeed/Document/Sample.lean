import IndexFeed.Decimal.Integer
import IndexFeed.Document.Table

/-!
Documents to try the encoder with: drafts that name only the properties they need, and batches of
similar documents of any size.
-/

namespace IndexFeed

structure DocumentDraft where
  docid : String
  content : Option Value := none
  title : Option String := none
  mimetype : Option String := none
  action : Option String := none
  aclAlone : Bool := false
  users : List String := []
  groups : List String := []
  denyUsers : List String := []
  denyGroups : List String := []

namespace DocumentDraft

def texts (name : String) (values : List String) : List (String × Value) :=
  values.map fun s => (name, .string s)

def table (d : DocumentDraft) : PropertyTable :=
  .ofPairs
    (texts Property.docid [d.docid]
      ++ (d.content.map fun v => (Property.content, v)).toList
      ++ texts Property.title d.title.toList
      ++ texts Property.mimetype d.mimetype.toList
      ++ texts Property.action d.action.toList
      ++ texts Property.documentType (if d.aclAlone then [DocumentType.acl.wire] else [])
      ++ texts Property.aclUsers d.users
      ++ texts Property.aclGroups d.groups
      ++ texts Property.aclDenyUsers d.denyUsers
      ++ texts Property.aclDenyGroups d.denyGroups)

end DocumentDraft

namespace Sample

def sentence : String := "the quick brown fox jumps over the lazy dog. "

def content (size : Nat) : List UInt8 :=
  let bytes := Utf8.encode sentence
  ((List.replicate (size / bytes.length + 1) bytes).flatten).take size

/-- A document with a small access control list and `metas` properties of metadata. -/
def document (number metas size : Nat) : PropertyTable :=
  let draft : DocumentDraft :=
    { docid := "doc-" ++ Decimal.ofNat number
      content := some (.binary (content size))
      mimetype := some "text/plain"
      users := ["alice=reader"]
      groups := ["engineering"]
      denyUsers := ["mallory"] }
  draft.table.addAll ((List.range metas).map fun i =>
    ("meta_" ++ Decimal.padded 3 i, .string ("value " ++ Decimal.ofNat i ++ " & <more>")))

def documents (count metas size : Nat) : List PropertyTable :=
  (List.range count).map fun i => document i metas size

end Sample

end IndexFeed
