import IndexFeed.Batch
import IndexFeed.Feed
import IndexFeed.Json.Writer

/-!
Encoding a batch into feeds. Documents go into the current feed one by one; whenever it is full, the
next one is opened and the full one is closed and stored. Documents that fail are skipped. At the
end the current feed is stored too if it has any record. A run keeps the history of what happened,
from which the report on it is read off.
-/

namespace IndexFeed

def feedFileName (number : Nat) (extension : String) : String :=
  "feed-" ++ Decimal.padded 4 number ++ "." ++ extension

def pathIn (directory name : String) : String :=
  if directory = "" ∨ directory.toList.getLast? = some '/' then directory ++ name
  else directory ++ "/" ++ name

structure StoredFeed where
  number : Nat
  id : String
  records : UInt64
  bytes : Array UInt8
  log : Option String
  deriving Repr, DecidableEq

namespace StoredFeed

def ofFeed (number : Nat) (f : Feed) : StoredFeed :=
  let closed := f.close
  ⟨number, closed.id, closed.recordCount, closed.bytes, closed.log⟩

def name (f : StoredFeed) : String := feedFileName f.number "xml"

def size (f : StoredFeed) : Nat := f.bytes.size

def stored (f : StoredFeed) : List (String × List UInt8) :=
  (f.log.map fun log => (feedFileName f.number "log", Utf8.encode log)).toList
    ++ [(f.name, f.bytes.toList)]

end StoredFeed

/-- What happens while a batch is encoded. Documents go by their position in the batch. -/
inductive BatchEvent where
  | opened (id : String)
  /-- A document was added, and the feed now has this size and this many records. -/
  | added (document : PropertyTable) (size : Nat) (records : UInt64)
  | unreadable (position : Nat) (fault : BatchFault)
  | discarded (position : Nat) (error : FeedError)
  | stored (f : StoredFeed)

namespace BatchEvent

def isSkip : BatchEvent → Bool
  | unreadable _ _ | discarded _ _ => true
  | opened _ | added _ _ _ | stored _ => false

def stored? : BatchEvent → Option StoredFeed
  | stored f => some f
  | opened _ | added _ _ _ | unreadable _ _ | discarded _ _ => none

end BatchEvent

/-- What is known while a batch is encoded: the current feed and the number that it will be stored
under, where the next identifiers come from, and what has happened so far. -/
structure BatchRun where
  options : FeedOptions
  current : Feed
  ids : FeedIds
  number : Nat
  history : Array BatchEvent

namespace BatchRun

def start (o : FeedOptions) (ids : FeedIds) : Except FeedError BatchRun := do
  let (feed, ids) ← Feed.create o ids
  .ok ⟨o, feed, ids, 0, #[.opened feed.id]⟩

def note (r : BatchRun) (e : BatchEvent) : BatchRun :=
  { r with history := r.history.push e }

/-- If the current feed is full, opens the next one and stores the full one. -/
def roll (r : BatchRun) : Except FeedError BatchRun := do
  if r.current.isFull then
    let (feed, ids) ← Feed.create r.options r.ids
    .ok
      ((({ r with current := feed, ids, number := r.number + 1 } : BatchRun).note
        (.opened feed.id)).note (.stored (.ofFeed r.number r.current)))
  else .ok r

/-- Adds the document at a position to the current feed. Documents of a batch hold no streams, so
none is taken. -/
def addDocument (r : BatchRun) (position : Nat) (t : PropertyTable) :
    Except FeedError BatchRun :=
  let ⟨options, feed, ids, number, history⟩ := r
  match feed.add t.toDocument {} with
  | (.ok _, feed, _) =>
    let event := .added t feed.size feed.recordCount
    roll ⟨options, feed, ids, number, history.push event⟩
  | (.error e, feed, _) =>
    if e.concernsDocument then
      roll ⟨options, feed, ids, number, history.push (.discarded position e)⟩
    else .error e

def step (r : BatchRun) (document : BatchDocument × Nat) : Except FeedError BatchRun :=
  match document.1.toTable document.2 with
  | .error fault => .ok (r.note (.unreadable document.2 fault))
  | .ok table => r.addDocument document.2 table

def finish (r : BatchRun) : BatchRun :=
  if r.current.recordCount > 0 then r.note (.stored (.ofFeed r.number r.current)) else r

end BatchRun

/-- What encoding a batch comes to: how many documents it has, and what happened to them. -/
structure BatchReport where
  documents : Nat
  history : List BatchEvent

namespace BatchReport

def ofBatch (o : FeedOptions) (ids : FeedIds) (batch : List BatchDocument) :
    Except FeedError BatchReport := do
  let run ← BatchRun.start o ids
  let run ← batch.zipIdx.foldlM BatchRun.step run
  .ok ⟨batch.length, run.finish.history.toList⟩

def skipped (r : BatchReport) : Nat := r.history.countP BatchEvent.isSkip

def feeds (r : BatchReport) : List StoredFeed := r.history.filterMap BatchEvent.stored?

def files (r : BatchReport) (directory : String) : List (String × List UInt8) :=
  (r.feeds.flatMap StoredFeed.stored).map fun (name, bytes) => (pathIn directory name, bytes)

def json (r : BatchReport) (directory : String) : Json :=
  .object
    [("documents", .integer r.documents),
     ("skipped", .integer r.skipped),
     ("feeds", .list (r.feeds.map fun f =>
       .object
         [("path", .text (pathIn directory f.name)),
          ("feed_id", .text f.id),
          ("records", .integer f.records.toNat),
          ("size", .integer f.size)]))]

def feedLine (directory : String) (f : StoredFeed) : String :=
  "  " ++ pathIn directory f.name ++ " (" ++ Decimal.ofNat f.records.toNat ++ " records, "
    ++ Decimal.ofNat f.size ++ " bytes, id " ++ f.id ++ ")\n"

def text (r : BatchReport) (directory : String) : String :=
  "docfeed Encode\n==============\n\nDocuments: " ++ Decimal.ofNat r.documents
    ++ "\nSkipped:   " ++ Decimal.ofNat r.skipped ++ "\n\nFeeds:\n"
    ++ String.join (r.feeds.map (feedLine directory))

end BatchReport

end IndexFeed
