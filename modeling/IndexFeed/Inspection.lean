import IndexFeed.Decimal.Rounded
import IndexFeed.Json.Writer
import IndexFeed.Text.Blank
import IndexFeed.Text.Lines
import IndexFeed.Text.Search

/-!
Inspecting a feed's text. Start tags of records and access control lists begin a line, and values
hold no markup of their own, so the elements can be counted line by line. The header's two texts are
found by the tags around them.
-/

namespace IndexFeed

structure Inspection where
  path : String := ""
  size : Nat := 0
  dataSource : Option String := none
  feedType : Option String := none
  records : Nat := 0
  deletes : Nat := 0
  acls : Nat := 0
  contents : Nat := 0
  complete : Bool := false
  deriving Repr, DecidableEq

namespace Inspection

/-- The characters between the first occurrence of one mark and the next one of another. -/
def enclosed (opening closing : String) (cs : List Char) : Option (List Char) := do
  let (_, behind) ← Text.splitFirst opening.toList cs
  let (inside, _) ← Text.splitFirst closing.toList behind
  some inside

/-- Resolves the entities of escaped text, the ampersand's last. -/
def resolveEntities (cs : List Char) : List Char :=
  let replace := fun (mark by_ : String) (cs : List Char) =>
    Text.replaceAll mark.toList by_.toList cs
  replace "&amp;" "&" (replace "&apos;" "'" (replace "&quot;" "\""
    (replace "&gt;" ">" (replace "&lt;" "<" cs))))

def startsWith (start : String) (line : List Char) : Bool :=
  start.toList.isPrefixOf line

structure Counts where
  records : Nat := 0
  deletes : Nat := 0
  acls : Nat := 0
  contents : Nat := 0
  inRecord : Bool := false
  deriving Repr, DecidableEq

def Counts.line (c : Counts) (line : List Char) : Counts :=
  if startsWith "<record " line then
    let deletes := if Text.occursIn " action=\"delete\"".toList line then 1 else 0
    { c with inRecord := true, records := c.records + 1, deletes := c.deletes + deletes }
  else if startsWith "</record>" line then { c with inRecord := false }
  else if startsWith "<acl" line && !c.inRecord then { c with acls := c.acls + 1 }
  else if startsWith "<content " line then { c with contents := c.contents + 1 }
  else c

def endsFeed (cs : List Char) : Bool :=
  "</gsafeed>".toList.isSuffixOf (Text.trimEnd cs)

def ofText (text : String) : Inspection :=
  let cs := text.toList
  let counts := (Text.lines cs).foldl Counts.line {}
  let header := fun opening closing =>
    (enclosed opening closing cs).map fun found => String.ofList (resolveEntities found)
  { dataSource := header "<datasource>" "</datasource>"
    feedType := header "<feedtype>" "</feedtype>"
    records := counts.records
    deletes := counts.deletes
    acls := counts.acls
    contents := counts.contents
    complete := endsFeed cs }

def sizeText (bytes : Nat) : String :=
  if bytes < 1024 then Decimal.ofNat bytes ++ " bytes"
  else if bytes < 1024 * 1024 then Decimal.oneDecimal bytes 1024 ++ " KB"
  else Decimal.oneDecimal bytes (1024 * 1024) ++ " MB"

def json (i : Inspection) : Json :=
  let optional : Option String → Json := fun t => (t.map Json.text).getD .null
  .object
    [("path", .text i.path),
     ("size", .integer i.size),
     ("data_source", optional i.dataSource),
     ("feed_type", optional i.feedType),
     ("record_count", .integer i.records),
     ("delete_count", .integer i.deletes),
     ("acl_count", .integer i.acls),
     ("content_count", .integer i.contents),
     ("complete", .boolean i.complete)]

def text (i : Inspection) : String :=
  "docfeed Feed Inspection\n=======================\n\nPath: " ++ i.path
    ++ "\nSize: " ++ sizeText i.size
    ++ "\n\nHeader:\n  Data source: " ++ i.dataSource.getD "<missing>"
    ++ "\n  Feed type:   " ++ i.feedType.getD "<missing>"
    ++ "\n\nRecords:\n  Records:          " ++ Decimal.ofNat i.records
    ++ "\n  Deletes:          " ++ Decimal.ofNat i.deletes
    ++ "\n  With content:     " ++ Decimal.ofNat i.contents
    ++ "\n  Stand-alone ACLs: " ++ Decimal.ofNat i.acls
    ++ "\n\nComplete: " ++ (if i.complete then "yes" else "no") ++ "\n"

end Inspection

end IndexFeed
