import IndexFeed.Feed.Output
import IndexFeed.Rules

/-!
Writing what feeds a document. The head of a record is written before its content is opened, and the
content as it is read, so that a document that fails may leave part of its elements behind. The log
takes up an element once it has been written to its end.
-/

namespace IndexFeed.FeedRules

def writeAcl (r : FeedRules) (d : Document) (o : FeedOutput) : Except FeedError Unit × FeedOutput :=
  match r.aclElement d with
  | .error e => (.error e, o)
  | .ok list => (.ok (), o.write list.pieces)

def writeRecord (r : FeedRules) (d : Document) (o : FeedOutput) (taken : Taken) :
    Except FeedError Unit × FeedOutput × Taken :=
  match r.head d with
  | .error e => (.error e, o, taken)
  | .ok (record, none) =>
    let o := o.append (Utf8.encode record.head)
    let o := o.append (Utf8.encode (Markup.endTag "record"))
    (.ok (), o.note (record.head ++ Markup.endTag "record"), taken)
  | .ok (record, some plan) =>
    let start := record.head ++ plan.encoding.startTag
    let o := o.append (Utf8.encode start)
    let (opened, taken) := openContent d taken
    let (written, outcome) := r.payload plan d opened
    let o := o.append written
    match outcome with
    | .error e => (.error e, o, taken)
    | .ok _ =>
      let o := o.append (Utf8.encode contentEnd)
      (.ok (), o.note (start ++ payloadMark ++ contentEnd), taken)

/-- Writes the elements that feed a document and counts them. -/
def write (r : FeedRules) (d : Document) (o : FeedOutput) (taken : Taken) :
    Except FeedError Nat × FeedOutput × Taken :=
  match r.feeding d with
  | .error e => (.error (.repository e), o, taken)
  | .ok .acl =>
    match r.writeAcl d o with
    | (.error e, o) => (.error e, o, taken)
    | (.ok (), o) => (.ok 1, o, taken)
  | .ok .record =>
    let (outcome, o, taken) := r.writeRecord d o taken
    (outcome.map fun () => 1, o, taken)
  | .ok .aclThenRecord =>
    match r.writeAcl d.extractedAcl o with
    | (.error e, o) => (.error e, o, taken)
    | (.ok (), o) =>
      let (outcome, o, taken) := r.writeRecord d.inheritingExtract o taken
      (outcome.map fun () => 2, o, taken)

end IndexFeed.FeedRules
