import IndexFeed.Location
import IndexFeed.Markup
import IndexFeed.Text.Search

/-!
Access control lists. A list names the principals that are granted or denied access, and where it
inherits from; one that stands alone bears an address. A principal's name may end in a role, which
decides whether the principal is kept and is not written.
-/

namespace IndexFeed

/-- The name without the role at its end, if a principal of this name is to be written: names
whose role says nothing about reading are not. A name without a role is kept whole. -/
def nameForReading? (name : String) (access : Access) : Option String :=
  match Text.splitLast '=' name.toList with
  | none => some name
  | some (base, suffix) =>
    match Role.ofWire? (String.ofList suffix) with
    | none => some name
    | some role => if role.isBesideReading access then none else some (String.ofList base)

structure AclEntry where
  principal : Principal
  scope : Scope
  access : Access
  deriving Repr, DecidableEq

namespace AclEntry

/-- The principal that a property value names: itself, or the value's text without blanks around
it. -/
def principalOf : Value → Principal
  | .principal p => p
  | v => { name := Text.trim v.text }

/-- The entry for a value, unless its role or an empty name drops it. -/
def ofValue? (scope : Scope) (access : Access) (v : Value) : Option AclEntry :=
  let p := principalOf v
  match nameForReading? p.name access with
  | some name => if name = "" then none else some ⟨{ p with name := name }, scope, access⟩
  | none => none

/-- The attributes of an entry; those are absent that would hold a default. -/
def attributes (e : AclEntry) : List (String × Option String) :=
  let p := e.principal
  [("principaltype", if p.type = .unqualified then some p.type.wire else none),
   ("namespace", if p.namespace = "" then none else some p.namespace),
   ("case-sensitivity-type",
    if p.caseSensitivity = .sensitive then none else some p.caseSensitivity.wire),
   ("scope", some e.scope.wire),
   ("access", some e.access.wire)]

def markup (e : AclEntry) : String :=
  "<principal" ++ Markup.attrs e.attributes ++ ">"
    ++ Markup.escape e.principal.name ++ Markup.endTag "principal"

def ofProperty (scope : Scope) (access : Access) (p : PropertyValues) : Read (List AclEntry) :=
  p.all.map fun values => values.filterMap (ofValue? scope access)

end AclEntry

structure Acl where
  url : Option String := none
  inheritanceType : Option String := none
  inheritFrom : Option String := none
  entries : List AclEntry := []
  deriving Repr, DecidableEq

namespace Acl

def lists : List (String × Scope × Access) :=
  [(Property.aclUsers, .user, .permit), (Property.aclGroups, .group, .permit),
   (Property.aclDenyUsers, .user, .deny), (Property.aclDenyGroups, .group, .deny)]

def listEntries (d : Document) (list : String × Scope × Access) : Read (List AclEntry) := do
  match ← d.find list.1 with
  | some p => AclEntry.ofProperty list.2.1 list.2.2 p
  | none => .ok []

/-- The access control of a document. It bears an address if the document declares itself a list. -/
def ofDocument (l : Location) (d : Document) : Read Acl := do
  let type ← d.declaredType
  let url ← if type = some .acl then (l.record d).map some else .ok none
  let inheritanceType ← d.nonEmptyText? Property.aclInheritanceType
  let inheritFrom ← l.parent? d
  let entries ← lists.mapM (listEntries d)
  .ok ⟨url, inheritanceType, inheritFrom, entries.flatten⟩

def attributes (a : Acl) : List (String × Option String) :=
  [("url", a.url), ("inheritance-type", a.inheritanceType), ("inherit-from", a.inheritFrom)]

def markup (a : Acl) : String :=
  "<acl" ++ Markup.attrs a.attributes ++ ">\n" ++ String.join (a.entries.map AclEntry.markup)
    ++ Markup.endTag "acl"

end Acl

end IndexFeed
