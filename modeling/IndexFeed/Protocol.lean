import IndexFeed.Text.Blank
import IndexFeed.Text.Case

/-!
The closed vocabularies of the feed protocol. Each word has one spelling on the wire; where a word
is looked up in a document's text, blanks around it and the case of its ASCII letters do not matter.
-/

namespace IndexFeed

/-- The first of `all` whose spelling a text has, up to blanks around it and ASCII case. -/
def lookUp {α : Type} (wire : α → String) (all : List α) (tag : String) : Option α :=
  all.find? fun x => Text.sameIgnoringCase (wire x) (Text.trim tag)

inductive Action where
  | add
  | delete
  deriving Repr, DecidableEq

namespace Action

def wire : Action → String
  | add => "add"
  | delete => "delete"

def find? (tag : String) : Option Action :=
  lookUp wire [add, delete] tag

end Action

inductive DocumentType where
  | record
  | acl
  deriving Repr, DecidableEq

namespace DocumentType

def wire : DocumentType → String
  | record => "record"
  | acl => "acl"

def find? (tag : String) : Option DocumentType :=
  lookUp wire [record, acl] tag

end DocumentType

/-- How the index gets at the documents of a feed. -/
inductive FeedType where
  | content
  | web
  | contentUrl
  | acl
  deriving Repr, DecidableEq

namespace FeedType

def wire : FeedType → String
  | content => "content"
  | web => "web"
  | contentUrl => "contenturl"
  | acl => "acl"

def all : List FeedType := [content, web, contentUrl, acl]

def find? (tag : String) : Option FeedType :=
  lookUp wire all tag

/-- The spelling has to be exact. -/
def ofWire? (tag : String) : Option FeedType :=
  all.find? fun t => t.wire == tag

def headerName : FeedType → String
  | content | acl => "incremental"
  | web | contentUrl => "metadata-and-url"

end FeedType

inductive ContentEncoding where
  | base64Binary
  | base64Compressed
  deriving Repr, DecidableEq

namespace ContentEncoding

def wire : ContentEncoding → String
  | base64Binary => "base64binary"
  | base64Compressed => "base64compressed"

def find? (tag : String) : Option ContentEncoding :=
  lookUp wire [base64Binary, base64Compressed] tag

end ContentEncoding

inductive Scope where
  | user
  | group
  deriving Repr, DecidableEq

def Scope.wire : Scope → String
  | user => "user"
  | group => "group"

inductive Access where
  | permit
  | deny
  deriving Repr, DecidableEq

def Access.wire : Access → String
  | permit => "permit"
  | deny => "deny"

/-- What a principal may do, in ascending order. -/
inductive Role where
  | peeker
  | reader
  | writer
  | owner
  deriving Repr, DecidableEq

namespace Role

def wire : Role → String
  | peeker => "peeker"
  | reader => "reader"
  | writer => "writer"
  | owner => "owner"

def all : List Role := [peeker, reader, writer, owner]

def ofWire? (tag : String) : Option Role :=
  all.find? fun r => r.wire == tag

/-- Whether a role says nothing about reading: a permission for less than reading, or a denial of
more than reading. -/
def isBesideReading : Role → Access → Bool
  | peeker, .permit => true
  | writer, .deny => true
  | owner, .deny => true
  | _, _ => false

end Role

end IndexFeed
