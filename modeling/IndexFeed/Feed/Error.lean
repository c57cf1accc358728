import IndexFeed.Decimal.Integer
import IndexFeed.Repository

/-!
What can go wrong while a feed is written. An error concerns either one document, which can be left
out, or the feed as a whole.
-/

namespace IndexFeed

inductive OptionFault where
  | blankDataSource
  | zeroFeedSize
  | zeroDocumentSize
  | other (message : String)
  deriving Repr, DecidableEq

def OptionFault.message : OptionFault → String
  | blankDataSource => "data source must not be empty"
  | zeroFeedSize => "max feed size must be positive"
  | zeroDocumentSize => "max document size must be positive"
  | other message => message

inductive FeedError where
  | repository (e : RepositoryError)
  | unsupportedEncoding (encoding : String)
  | input (failure : InputFailure)
  | prolog (message : String)
  | epilog (message : String)
  | closed
  | truncation (requested current : Nat)
  | options (fault : OptionFault)
  deriving Repr, DecidableEq

namespace FeedError

def message : FeedError → String
  | repository e => "repository error: " ++ e.message
  | unsupportedEncoding encoding => "unsupported content encoding: " ++ encoding
  | input failure => "I/O error: " ++ failure.message
  | prolog message => "failed to write feed prolog: " ++ message
  | epilog message => "failed to write feed epilog: " ++ message
  | closed => "feed is closed"
  | truncation requested current =>
    "cannot truncate feed to " ++ Decimal.ofNat requested ++ " bytes, current size is "
      ++ Decimal.ofNat current
  | options fault => "invalid feed configuration: " ++ fault.message

/-- Whether the error concerns one document only, so that the feed can go on without it. -/
def concernsDocument : FeedError → Bool
  | repository _ | unsupportedEncoding _ | input _ => true
  | prolog _ | epilog _ | closed | truncation _ _ | options _ => false

end FeedError

end IndexFeed
