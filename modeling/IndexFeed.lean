import IndexFeed.Document.Sample
import IndexFeed.Main
import IndexFeed.Proofs.Batch.Empty
import IndexFeed.Text.Difference
import IndexFeed.Proofs.Feed.Lifecycle
import IndexFeed.Proofs.Feed.Outline
import IndexFeed.Proofs.Text.Utf8
import IndexFeed.Proofs.Inspection.Scan
import IndexFeed.Proofs.Inspection.Markup
import IndexFeed.Proofs.Inspection.Elements
import IndexFeed.Proofs.Inspection.Feed
import IndexFeed.Proofs.Inspection.Deletes
import IndexFeed.Proofs.Feed.Payload
import IndexFeed.Proofs.Text.Legal
import IndexFeed.Proofs.Markup.Legal
import IndexFeed.Proofs.Rules.Legal
import IndexFeed.Proofs.Feed.Legal
import IndexFeed.Proofs.Rules.Extract
import IndexFeed.Proofs.Rules.Refusal
import IndexFeed.Proofs.Rules.Deletion
import IndexFeed.Proofs.Rules.Streams
import IndexFeed.Proofs.Feed.Confidential
import IndexFeed.Proofs.Feed.Fullness
import IndexFeed.Proofs.Rules.Order
import IndexFeed.Proofs.Content.Limit
import IndexFeed.Proofs.Content.Negotiation
import IndexFeed.Proofs.Metadata.Pairs
import IndexFeed.Proofs.Rules.Access
import IndexFeed.Proofs.Rules.Kept
import IndexFeed.Proofs.Location.Inheritance
import IndexFeed.Proofs.Inspection.Header
import IndexFeed.Proofs.Batch.Properties
import IndexFeed.Proofs.Codec.LineCalls
