import IndexFeed.Feed.Ids
import IndexFeed.Feed.Options
import IndexFeed.Rules.Writing

/-!
Feeds while they are written. A feed is opened with its prolog, takes the elements of one document
after the other, and is closed with its epilog, after which it takes no more. What a document that
fails has written is dropped again. The log, if one is kept, follows the feed with a mark in the
place of each payload.
-/

namespace IndexFeed

structure Feed extends FeedOutput where
  options : FeedOptions
  id : String

namespace Feed

def prolog (o : FeedOptions) : String :=
  "<?xml version='1.0' encoding='UTF-8'?>"
    ++ "<!DOCTYPE gsafeed PUBLIC \"-//Google//DTD GSA Feeds//EN\" \"gsafeed.dtd\">\n"
    ++ "<gsafeed>\n<header><datasource>" ++ Markup.escape o.dataSource
    ++ "</datasource><feedtype>" ++ o.feedType.headerName ++ "</feedtype></header>\n<group>\n"

def epilog : String :=
  Markup.endTag "group" ++ Markup.endTag "gsafeed"

def progress (f : Feed) : FeedProgress := f.body.progress

def bytes (f : Feed) : Array UInt8 := f.body.bytes

def size (f : Feed) : Nat := f.body.size

def recordCount (f : Feed) : UInt64 := f.progress.recordCount

def isClosed (f : Feed) : Bool := f.progress.closed

def isFull (f : Feed) : Bool := f.progress.isFull

def withProgress (f : Feed) (change : FeedProgress → FeedProgress) : Feed :=
  { f with body := { f.body with progress := change f.body.progress } }

def write (f : Feed) (pieces : List Piece) : Feed :=
  { f with toFeedOutput := f.toFeedOutput.write pieces }

/-- A feed with usable options, which begins with its prolog. -/
def openWith (o : FeedOptions) (id : String) : Feed :=
  write ⟨⟨.empty o.maxFeedSize, if o.keepsLog then some "" else none⟩, o, id⟩ [.text (prolog o)]

/-- Opens a feed. An identifier is used up only if the options can be used. -/
def create (o : FeedOptions) (ids : FeedIds) : Except FeedError (Feed × FeedIds) := do
  o.check
  let (id, ids) := ids.next
  .ok (openWith o id, ids)

/-- Adds the elements of a document and counts them. A document that fails leaves the feed as it
was, although its content stream may have been taken. -/
def add : Feed → Document → Taken → Except FeedError Nat × Feed × Taken
  | ⟨output, options, id⟩, d, taken =>
    if output.body.progress.closed then (.error .closed, ⟨output, options, id⟩, taken)
    else
      let mark := output.mark
      match options.rules.write d output taken with
      | (.ok count, output, taken) =>
        let written : Feed := ⟨output, options, id⟩
        (.ok count,
          written.withProgress fun p =>
            { p with recordCount := p.recordCount + UInt64.ofNat count },
          taken)
      | (.error e, output, taken) =>
        match output.restore mark with
        | .ok restored => (.error e, ⟨restored, options, id⟩, taken)
        | .error fault => (.error fault, ⟨output, options, id⟩, taken)

/-- Writes the epilog. A feed that is closed already stays as it is. -/
def close (f : Feed) : Feed :=
  if f.isClosed then f
  else (f.write [.text epilog]).withProgress fun p => { p with closed := true }

def withRecordCount (f : Feed) (count : UInt64) : Feed :=
  f.withProgress fun p => { p with recordCount := count }

/-- Cuts an open feed back to its first `size` bytes. Log and count stay as they are. -/
def truncate (f : Feed) (size : Nat) : Except FeedError Feed :=
  if f.isClosed then .error .closed
  else (f.body.truncate size).map fun body => { f with body }

/-- Adds documents one after the other, up to the first one that fails. -/
def addAll (f : Feed) (taken : Taken) : List Document → Except FeedError (Feed × Taken)
  | [] => .ok (f, taken)
  | d :: rest =>
    match f.add d taken with
    | (.ok _, f, taken) => addAll f taken rest
    | (.error e, _, _) => .error e

/-- The closed feed of some documents, all of which have to succeed. -/
def ofDocuments (o : FeedOptions) (ids : FeedIds) (documents : List Document) :
    Except FeedError Feed := do
  let (f, _) ← create o ids
  let (f, _) ← f.addAll {} documents
  .ok f.close

end Feed

end IndexFeed
