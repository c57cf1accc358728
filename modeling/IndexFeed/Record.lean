import IndexFeed.Location
import IndexFeed.Markup
import IndexFeed.Text.Lowercase

/-!
The attributes of a record. Some of a document's values are replaced by a default if they cannot be
used as they stand, and the record keeps note of that; others make the document fail.
-/

namespace IndexFeed

open Calendar (Timestamp)

def openAuthMethod : String := "none"

def closedAuthMethod : String := "httpbasic"

inductive Replacement where
  | timestamp (raw : String)
  | action (raw : String)
  | publicFlag (raw : String)
  | authMethod (isPublic : Bool) (declared resolved : String)
  deriving Repr, DecidableEq

def Replacement.message : Replacement → String
  | timestamp raw =>
    "malformed last-modified value " ++ Text.quoted raw ++ ", attribute omitted"
  | action raw => "unknown action " ++ Text.quoted raw ++ ", treated as absent"
  | publicFlag raw =>
    "invalid ispublic value " ++ Text.quoted raw ++ ", treated as not public"
  | authMethod isPublic declared resolved =>
    "security conflict: ispublic=" ++ (if isPublic then "true" else "false") ++ " and authmethod="
      ++ Text.quoted declared ++ "; using " ++ Text.quoted resolved

structure Resolved (α : Type) where
  value : α
  replaced : Option Replacement := none
  deriving Repr, DecidableEq

namespace Resolved

/-- An action that is not known counts as none. -/
def action : Option String → Resolved (Option Action)
  | none => ⟨none, none⟩
  | some raw =>
    match Action.find? raw with
    | some action => ⟨some action, none⟩
    | none => ⟨none, some (.action raw)⟩

def lastModified : Option Value → Resolved (Option Timestamp)
  | none => ⟨none, none⟩
  | some v =>
    match v.toTimestamp with
    | .ok t => ⟨some t, none⟩
    | .error _ => ⟨none, some (.timestamp v.text)⟩

/-- A document is public unless it says otherwise; a flag that cannot be read says otherwise. -/
def isPublic : Option Value → Resolved Bool
  | none => ⟨true, none⟩
  | some v =>
    match v.toBool with
    | .ok flag => ⟨flag, none⟩
    | .error _ => ⟨false, some (.publicFlag v.text)⟩

/-- A method other than none stands as declared. Without one, the public flag decides; a declared
method that disagrees with the flag is noted. -/
def authMethod (isPublic : Bool) (declared : Option String) : Resolved String :=
  let declared := declared.getD ""
  let method := Text.lowercase (Text.trim declared)
  let resolved :=
    if method = "" ∨ method = openAuthMethod then
      if isPublic then openAuthMethod else closedAuthMethod
    else declared
  if method ≠ "" ∧ isPublic ≠ (method == openAuthMethod) then
    ⟨resolved, some (.authMethod isPublic declared resolved)⟩
  else ⟨resolved, none⟩

end Resolved

structure RecordAttributes where
  url : String
  displayUrl : Option String := none
  action : Option Action := none
  lock : Bool := false
  crawlImmediately : Bool := false
  crawlOnce : Bool := false
  pageRank : Option String := none
  mimetype : String
  lastModified : Option Timestamp := none
  authMethod : String
  deriving Repr, DecidableEq

namespace RecordAttributes

def isDelete (r : RecordAttributes) : Bool := r.action == some .delete

def listed (r : RecordAttributes) : List (String × Option String) :=
  [("url", some r.url),
   ("displayurl", r.displayUrl),
   ("action", r.action.map Action.wire),
   ("lock", Markup.flagValue r.lock),
   ("crawl-immediately", Markup.flagValue r.crawlImmediately),
   ("crawl-once", Markup.flagValue r.crawlOnce),
   ("pagerank", r.pageRank),
   ("mimetype", some r.mimetype),
   ("last-modified", r.lastModified.map Timestamp.modificationText),
   ("authmethod", some r.authMethod)]

def startTag (r : RecordAttributes) : String :=
  "<record" ++ Markup.attrs r.listed ++ ">\n"

end RecordAttributes

structure RecordFields where
  attributes : RecordAttributes
  hasAcl : Bool
  replaced : List Replacement
  deriving Repr, DecidableEq

def RecordFields.ofDocument (l : Location) (d : Document) : Read RecordFields := do
  let url ← l.record d
  let action := Resolved.action (← d.text? Property.action)
  let lastModified := Resolved.lastModified (← d.value? Property.lastModified)
  let isPublic := Resolved.isPublic (← d.value? Property.isPublic)
  let authMethod := Resolved.authMethod isPublic.value (← d.text? Property.authMethod)
  let displayUrl ← d.nonEmptyText? Property.displayUrl
  let lock ← d.flag Property.lock false
  let crawlImmediately ← d.flag Property.crawlImmediately false
  let crawlOnce ← d.flag Property.crawlOnce false
  let pageRank ← d.nonEmptyText? Property.pageRank
  let mimetype ← d.nonEmptyText? Property.mimetype
  let hasAcl ← d.hasAcl
  .ok
    { attributes :=
        { url, displayUrl, action := action.value, lock, crawlImmediately, crawlOnce, pageRank
          mimetype := mimetype.getD Property.defaultMimetype
          lastModified := lastModified.value
          authMethod := authMethod.value }
      hasAcl
      replaced :=
        [action.replaced, lastModified.replaced, isPublic.replaced, authMethod.replaced].filterMap
          id }

end IndexFeed
