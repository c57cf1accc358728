import IndexFeed.Batch.Encode
import IndexFeed.Notice

/-!
What is told about a batch. Feeds that are opened, closed and stored and documents that are left out
are told to everyone, each step of a document that is added only in detail.
-/

namespace IndexFeed

private def flagWord (flag : Bool) : String := if flag then "true" else "false"

def Feeding.word : Feeding → String
  | record => "Content"
  | aclThenRecord => "ContentUrlDocument"
  | acl => "AclOnly"

def Action.word : Option Action → String
  | none => "None"
  | some add => "Some(Add)"
  | some delete => "Some(Delete)"

def FeedError.reach (e : FeedError) : String :=
  if e.concernsDocument then "Document" else "Fatal"

namespace Notice

def agreed (p : ContentPolicy) : Notice :=
  ⟨.detail, "negotiated content encoding",
    [("capabilities", p.accepted), ("encoding", p.preferred.wire)]⟩

def opened (o : FeedOptions) (id : String) : Notice :=
  ⟨.information, "opened feed",
    [("feed_id", id), ("data_source", o.dataSource), ("feed_type", o.feedType.wire)]⟩

def content (url : String) (r : ContentReport) : Notice :=
  ⟨.detail, "wrote content",
    [("url", url), ("bytes", Decimal.ofNat r.bytesRead), ("alternate", flagWord r.substituted),
      ("truncated", flagWord r.cutOff)]⟩

def record (feeding : Feeding) (a : RecordAttributes) : Notice :=
  ⟨.detail, "wrote record",
    [("url", a.url), ("kind", feeding.word), ("action", Action.word a.action)]⟩

def list : Notice := ⟨.detail, "wrote stand-alone acl", []⟩

def added (records size : Nat) (total : UInt64) : Notice :=
  ⟨.detail, "added record",
    [("records", Decimal.ofNat records), ("size", Decimal.ofNat size),
      ("total", Decimal.ofNat total.toNat)]⟩

def discarded (e : FeedError) : Notice :=
  ⟨.warning, "discarded record", [("error", e.message), ("kind", e.reach)]⟩

def skipped (position : Nat) (reason : String) : Notice :=
  ⟨.warning, "skipped document", [("index", Decimal.ofNat position), ("error", reason)]⟩

def closed (f : StoredFeed) : Notice :=
  ⟨.information, "closed feed",
    [("feed_id", f.id), ("records", Decimal.ofNat f.records.toNat),
      ("size", Decimal.ofNat f.size)]⟩

def stored (directory : String) (f : StoredFeed) : Notice :=
  ⟨.information, "wrote feed",
    [("path", pathIn directory f.name), ("feed_id", f.id),
      ("records", Decimal.ofNat f.records.toNat), ("size", Decimal.ofNat f.size)]⟩

def onElement (feeding : Feeding) (report : Option ContentReport) : Element → List Notice
  | .acl _ => [list]
  | .record r =>
    (report.map (content r.attributes.url)).toList ++ [record feeding r.attributes]

def onDocument (rules : FeedRules) (d : Document) (size : Nat) (total : UInt64) : List Notice :=
  match rules.feeding d, (rules.elements d {}).1 with
  | .ok feeding, .ok elements =>
    elements.flatMap (onElement feeding (rules.contentReport? d {}))
      ++ [added elements.length size total]
  | _, _ => []

end Notice

end IndexFeed
