import IndexFeed.Codec.Base64
import IndexFeed.Codec.LineWrap
import IndexFeed.Codec.Zlib
import IndexFeed.Feed.Error
import IndexFeed.Markup
import IndexFeed.Protocol
import IndexFeed.Text.Lowercase
import IndexFeed.Text.Search
import IndexFeed.Text.Utf8

/-!
Content on its way into a feed. The encodings that the index accepts are agreed on beforehand.
Content is compressed if the encoding asks for it, written in base64 and broken into lines; content
that a document declares to be encoded already is copied. A document without content, or with empty
content, gets a small payload in its place, so that no payload is ever empty.
-/

namespace IndexFeed

def contentLineLength : Nat := 76

def contentRequestSize : Nat := 65536

/-- Encoders for base64 and for zlib, known by what they put out for a sequence of pieces that ends,
or else breaks off. -/
structure ContentCodec where
  base64 : List (List UInt8) → Bool → List (List UInt8)
  zlib : List (List UInt8) → Bool → List (List UInt8)

namespace ContentCodec

def standard : ContentCodec := ⟨Base64.encoder.encode, Zlib.encoder.encode⟩

/-- What is written for pieces of content that ends, or else breaks off, in lines or all in one. -/
def encode (c : ContentCodec) (encoding : ContentEncoding) (wraps : Bool)
    (pieces : List (List UInt8)) (ends : Bool) : List UInt8 :=
  let packed := match encoding with
    | .base64Binary => pieces
    | .base64Compressed => c.zlib pieces ends
  let written := c.base64 packed ends
  if wraps then LineWriter.writeAll contentLineLength (by decide) written else written.flatten

end ContentCodec

/-- The agreement on content: what the index accepts, whether to break lines, how many bytes of a
document are read, and the encoders that are at hand. -/
structure ContentPolicy where
  accepted : String
  wrapsLines : Bool
  maxDocumentSize : Nat
  codec : ContentCodec := .standard

structure ContentPlan where
  encoding : ContentEncoding
  alreadyEncoded : Bool
  deriving Repr, DecidableEq

structure ContentReport where
  bytesRead : Nat := 0
  substituted : Bool := false
  /-- Whether as many bytes were read as may be. -/
  cutOff : Bool := false
  deriving Repr, DecidableEq

namespace ContentPolicy

/-- The accepted encodings are compared in lower case. -/
def ofAccepted (accepted : String) (wrapsLines : Bool) (maxDocumentSize : Nat)
    (codec : ContentCodec := .standard) : ContentPolicy :=
  ⟨Text.lowercase accepted, wrapsLines, maxDocumentSize, codec⟩

/-- Compression is used wherever it is accepted. -/
def preferred (p : ContentPolicy) : ContentEncoding :=
  if Text.contains p.accepted ContentEncoding.base64Compressed.wire then .base64Compressed
  else .base64Binary

/-- Whether an encoding's name, which must not be blank, occurs in what is accepted. -/
def accepts (p : ContentPolicy) (encoding : String) : Bool :=
  let name := Text.lowercase (Text.trim encoding)
  name != "" && Text.contains p.accepted name

/-- The plan for a document that declares its content to be encoded already, or does not. -/
def planFor (p : ContentPolicy) (declared : Option String) : Except FeedError ContentPlan :=
  match (declared.map Text.trim).filter (· != "") with
  | none => .ok ⟨p.preferred, false⟩
  | some name =>
    match ContentEncoding.find? name with
    | some encoding =>
      if p.accepts name then .ok ⟨encoding, true⟩ else .error (.unsupportedEncoding name)
    | none => .error (.unsupportedEncoding name)

end ContentPolicy

namespace ContentPolicy

/-- What is written of content with given encoders, or of the substitute if there is no content or it
is empty, and what becomes of the content. Content that is encoded already is copied; the substitute
is encoded in any case and never broken into lines. If the source fails, what it brought before has
been written. -/
def writeWith (p : ContentPolicy) (c : ContentCodec) (plan : ContentPlan) (content : Option Source)
    (substitute : List UInt8) : List UInt8 × Except InputFailure ContentReport :=
  let substituted :=
    (c.encode plan.encoding false [substitute] true, .ok { substituted := true })
  match content with
  | none => substituted
  | some source =>
    match source.take contentRequestSize p.maxDocumentSize with
    | ([], none) => substituted
    | ([], some failure) => ([], .error failure)
    | (pieces, failure) =>
      let written :=
        if plan.alreadyEncoded then pieces.flatten
        else c.encode plan.encoding p.wrapsLines pieces failure.isNone
      match failure with
      | some failure => (written, .error failure)
      | none =>
        let bytesRead := pieces.flatten.length
        (written, .ok { bytesRead, cutOff := bytesRead == p.maxDocumentSize })

/-- What is written with the policy's own encoders, if the source does not fail. -/
def write (p : ContentPolicy) (plan : ContentPlan) (content : Option Source)
    (substitute : List UInt8) : Except InputFailure (List UInt8 × ContentReport) :=
  let (written, outcome) := p.writeWith p.codec plan content substitute
  outcome.map fun report => (written, report)

end ContentPolicy

/-- The payload in place of missing content: a page that shows the title, the title alone if the
content is not hypertext, or a single space if there is no title. -/
def substitutePayload (title mimetype : Option String) : List UInt8 :=
  let title := Text.trim (title.getD "")
  if title = "" then Utf8.encode " "
  else if mimetype.any fun m => Text.sameIgnoringCase (Text.trim m) "text/html" then
    Utf8.encode ("<html><title>" ++ Markup.escape title ++ "</title></html>")
  else Utf8.encode title

end IndexFeed
