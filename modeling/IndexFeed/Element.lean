import IndexFeed.Acl
import IndexFeed.Content
import IndexFeed.Metadata
import IndexFeed.Record

/-!
The elements of a feed: records and stand-alone access control lists. An element is a sequence of
pieces, of which some are text and some are the payload of a record. The feed itself holds both; the
log holds the text and a mark in the place of each payload.
-/

namespace IndexFeed

inductive Piece where
  | text (s : String)
  | payload (bytes : List UInt8)
  deriving Repr, DecidableEq

def payloadMark : String := "...content..."

namespace Piece

def bytes : Piece → List UInt8
  | text s => Utf8.encode s
  | payload bytes => bytes

def logged : Piece → String
  | text s => s
  | payload _ => payloadMark

def allBytes (pieces : List Piece) : List UInt8 := pieces.flatMap bytes

def allLogged (pieces : List Piece) : String := String.join (pieces.map logged)

theorem allBytes_append (a b : List Piece) : allBytes (a ++ b) = allBytes a ++ allBytes b :=
  List.flatMap_append

theorem allLogged_append (a b : List Piece) : allLogged (a ++ b) = allLogged a ++ allLogged b := by
  simp [allLogged, String.join_append]

end Piece

structure RecordContent where
  encoding : ContentEncoding
  payload : List UInt8
  deriving Repr, DecidableEq

/-- A record with what it holds, in the order in which it is written. -/
structure Record where
  attributes : RecordAttributes
  acl : Option Acl := none
  metadata : Option Metadata := none
  content : Option RecordContent := none
  deriving Repr, DecidableEq

inductive Element where
  | acl (a : Acl)
  | record (r : Record)
  deriving Repr, DecidableEq

def Record.head (r : Record) : String :=
  r.attributes.startTag ++ (r.acl.map Acl.markup).getD ""
    ++ (r.metadata.map Metadata.markup).getD ""

def ContentEncoding.startTag (e : ContentEncoding) : String :=
  "<content" ++ Markup.attr "encoding" e.wire ++ ">"

def contentEnd : String := Markup.endTag "content" ++ Markup.endTag "record"

def Record.pieces (r : Record) : List Piece :=
  match r.content with
  | none => [.text (r.head ++ Markup.endTag "record")]
  | some c => [.text (r.head ++ c.encoding.startTag), .payload c.payload, .text contentEnd]

def Element.pieces : Element → List Piece
  | acl a => [.text a.markup]
  | record r => r.pieces

def Element.allPieces (elements : List Element) : List Piece :=
  elements.flatMap pieces

theorem Element.allBytes_cons (e : Element) (rest : List Element) :
    Piece.allBytes (allPieces (e :: rest))
      = Piece.allBytes e.pieces ++ Piece.allBytes (allPieces rest) :=
  Piece.allBytes_append e.pieces (allPieces rest)

end IndexFeed
