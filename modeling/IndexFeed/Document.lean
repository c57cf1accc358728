import IndexFeed.Property
import IndexFeed.Protocol
import IndexFeed.Value

/-!
Documents as the encoder sees them. A document names its properties and finds a property by its
name; both may fail. A property yields its values in order and may fail instead of ending. Nothing
is assumed about how the names listed and the names found agree.
-/

namespace IndexFeed

structure PropertyValues where
  values : List Value
  failure : Option RepositoryError := none

namespace PropertyValues

/-- A failure shows only if there is no value before it. -/
def first (p : PropertyValues) : Read (Option Value) :=
  match p.values, p.failure with
  | v :: _, _ => .ok (some v)
  | [], some e => .error e
  | [], none => .ok none

def all (p : PropertyValues) : Read (List Value) :=
  match p.failure with
  | some e => .error e
  | none => .ok p.values

/-- The property that breaks off after `count` values, if it has that many. -/
def failingAfter (p : PropertyValues) (count : Nat) (e : RepositoryError) : PropertyValues :=
  if count ≤ p.values.length then ⟨p.values.take count, some e⟩ else p

end PropertyValues

structure Document where
  find : String → Read (Option PropertyValues)
  names : Read (List String)

namespace Document

def has (d : Document) (name : String) : Read Bool :=
  (d.find name).map Option.isSome

def value? (d : Document) (name : String) : Read (Option Value) := do
  match ← d.find name with
  | some p => p.first
  | none => .ok none

def text? (d : Document) (name : String) : Read (Option String) :=
  (d.value? name).map fun v => v.map Value.text

/-- The text of a property if it has one that is not empty. -/
def nonEmptyText? (d : Document) (name : String) : Read (Option String) :=
  (d.text? name).map fun t => t.filter (· != "")

def flag (d : Document) (name : String) (default : Bool) : Read Bool := do
  match ← d.value? name with
  | some v => v.toBool
  | none => .ok default

def values (d : Document) (name : String) : Read (List Value) := do
  match ← d.find name with
  | some p => p.all
  | none => .ok []

/-- Whether the document has any of some properties. They are looked for in order, and no further
than the first one found or the first failure. -/
def hasAny (d : Document) : List String → Read Bool
  | [] => .ok false
  | name :: rest => do
    if ← d.has name then .ok true else d.hasAny rest

def hasAcl (d : Document) : Read Bool :=
  d.hasAny Property.aclMarks

def declaredType (d : Document) : Read (Option DocumentType) :=
  (d.text? Property.documentType).map fun t => t.bind DocumentType.find?

/-- The document whose property `name` cannot be read, although it is listed. -/
def failingAt (d : Document) (name : String) (e : RepositoryError) : Document where
  find n := if n = name then .error e else d.find n
  names := d.names.map (name :: ·)

/-- The document that lists some more names, without having properties of these names. -/
def listing (d : Document) (more : List String) : Document where
  find := d.find
  names := d.names.map (· ++ more)

/-- The document whose property `name` breaks off after `count` values. -/
def breakingOff (d : Document) (name : String) (count : Nat) (e : RepositoryError) : Document where
  find n := (d.find n).map fun p =>
    if n = name then p.map (·.failingAfter count e) else p
  names := d.names

end Document

/-- A set of names in the order of their code points, each once. -/
def sortedNames (names : List String) : List String :=
  names.eraseDups.mergeSort fun a b => decide (a ≤ b)

end IndexFeed
