import IndexFeed.Rules

/-!
What a feed is opened with, the encoders of its content among it. Options can be used if the data
source is not blank and neither limit is zero.
-/

namespace IndexFeed

def standardFeedSize : UInt64 := 10485760

def standardDocumentSize : UInt64 := 31457280

structure FeedOptions where
  dataSource : String := ""
  feedType : FeedType := .content
  maxFeedSize : UInt64 := standardFeedSize
  maxDocumentSize : UInt64 := standardDocumentSize
  accepted : String := ContentEncoding.base64Binary.wire
  contentBase : Option String := none
  wrapsLines : Bool := true
  keepsLog : Bool := false
  codec : ContentCodec := .standard

namespace FeedOptions

/-- The options with other accepted encodings, which are kept in lower case. -/
def accepting (o : FeedOptions) (encodings : String) : FeedOptions :=
  { o with accepted := Text.lowercase encodings }

def fault? (o : FeedOptions) : Option OptionFault :=
  if Text.isBlankText o.dataSource then some .blankDataSource
  else if o.maxFeedSize = 0 then some .zeroFeedSize
  else if o.maxDocumentSize = 0 then some .zeroDocumentSize
  else none

def check (o : FeedOptions) : Except FeedError Unit :=
  match o.fault? with
  | some fault => .error (.options fault)
  | none => .ok ()

def location (o : FeedOptions) : Location :=
  ⟨o.dataSource, o.feedType, o.contentBase⟩

def rules (o : FeedOptions) : FeedRules where
  feedType := o.feedType
  location := o.location
  content := .ofAccepted o.accepted o.wrapsLines o.maxDocumentSize.toNat o.codec

end FeedOptions

end IndexFeed
