import IndexFeed.Document.AclView
import IndexFeed.Element

/-!
From a document to the elements that feed it. A document is either a record or an access control
list of its own; in a content-address feed, the access control of a record becomes a list beside it,
from which the record inherits.
-/

namespace IndexFeed

/-- How a document is fed: as a record that holds its access control, as a list and a record that
inherits from it, or as a list alone. -/
inductive Feeding where
  | record
  | aclThenRecord
  | acl
  deriving Repr, DecidableEq

structure FeedRules where
  feedType : FeedType
  location : Location
  content : ContentPolicy

namespace FeedRules

def feeding (r : FeedRules) (d : Document) : Read Feeding := do
  if (← d.declaredType) = some .acl then .ok .acl
  else if r.feedType = .contentUrl then
    if ← d.hasAcl then .ok .aclThenRecord else .ok .record
  else .ok .record

/-- The access control that a record holds. A record that deletes its document holds nothing. -/
def heldAcl (r : FeedRules) (fields : RecordFields) (d : Document) : Read (Option Acl) :=
  if !fields.attributes.isDelete && fields.hasAcl then (Acl.ofDocument r.location d).map some
  else .ok none

def heldMetadata (r : FeedRules) (fields : RecordFields) (d : Document) : Read (Option Metadata) :=
  if !fields.attributes.isDelete && r.feedType ≠ .contentUrl then
    (Metadata.ofDocument d).map some
  else .ok none

/-- How the content of a record is to be written, if it has any. Only content feeds carry content.
-/
def heldContent (r : FeedRules) (fields : RecordFields) (d : Document) :
    Except FeedError (Option ContentPlan) :=
  if !fields.attributes.isDelete && r.feedType = .content then do
    let declared ← (d.text? Property.contentEncoding).mapError .repository
    (r.content.planFor declared).map some
  else .ok none

/-- A record up to its content, and how its content is to be written if it has any. -/
def head (r : FeedRules) (d : Document) : Except FeedError (Record × Option ContentPlan) := do
  let fields ← (RecordFields.ofDocument r.location d).mapError .repository
  let acl ← (r.heldAcl fields d).mapError .repository
  let shown := if acl.isSome then d.withoutAcl else d
  let metadata ← (r.heldMetadata fields shown).mapError .repository
  let plan ← r.heldContent fields shown
  .ok ({ attributes := fields.attributes, acl, metadata }, plan)

/-- Opens the first value of the content property, if there is one. -/
def openContent (d : Document) (taken : Taken) : Read (Option Source) × Taken :=
  match d.value? Property.content with
  | .error e => (.error e, taken)
  | .ok none => (.ok none, taken)
  | .ok (some v) =>
    let (source, taken) := v.openSource taken
    (source.map some, taken)

def withSubstitute (d : Document) (opened : Read (Option Source)) :
    Read (Option Source × List UInt8) := do
  let source ← opened
  let title ← d.text? Property.title
  let mimetype ← d.text? Property.mimetype
  .ok (source, substitutePayload title mimetype)

/-- What is written of opened content, and what becomes of the content. -/
def payload (r : FeedRules) (plan : ContentPlan) (d : Document) (opened : Read (Option Source)) :
    List UInt8 × Except FeedError ContentReport :=
  match withSubstitute d opened with
  | .error e => ([], .error (.repository e))
  | .ok (source, substitute) =>
    let (written, outcome) := r.content.writeWith r.content.codec plan source substitute
    (written, outcome.mapError .input)

def record (r : FeedRules) (d : Document) (taken : Taken) : Except FeedError Record × Taken :=
  match r.head d with
  | .error e => (.error e, taken)
  | .ok (head, none) => (.ok head, taken)
  | .ok (head, some plan) =>
    let (opened, taken) := openContent d taken
    let (written, outcome) := r.payload plan d opened
    (outcome.map fun _ => { head with content := some ⟨plan.encoding, written⟩ }, taken)

def contentReport? (r : FeedRules) (d : Document) (taken : Taken) : Option ContentReport :=
  match r.head d with
  | .ok (_, some plan) => (r.payload plan d (openContent d taken).1).2.toOption
  | _ => none

def aclElement (r : FeedRules) (d : Document) : Except FeedError Element :=
  ((Acl.ofDocument r.location d).map Element.acl).mapError .repository

def elements (r : FeedRules) (d : Document) (taken : Taken) :
    Except FeedError (List Element) × Taken :=
  match r.feeding d with
  | .error e => (.error (.repository e), taken)
  | .ok .acl => ((r.aclElement d).map fun list => [list], taken)
  | .ok .record =>
    let (record, taken) := r.record d taken
    (record.map fun record => [.record record], taken)
  | .ok .aclThenRecord =>
    match r.aclElement d.extractedAcl with
    | .error e => (.error e, taken)
    | .ok list =>
      let (record, taken) := r.record d.inheritingExtract taken
      (record.map fun record => [list, .record record], taken)

end FeedRules

end IndexFeed
