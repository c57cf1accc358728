import IndexFeed.Document.Table
import IndexFeed.Json.Reader

/-!
Batches of documents in JSON. A batch is a list of objects that map property names to values. Texts,
truth values and numbers are values of these kinds, an object is a principal, and a list gives a
property several values. A list that cannot be read item by item may still be a principal, whose
fields then stand in a fixed order.
-/

namespace IndexFeed

inductive BatchValue where
  | single (v : Value)
  | list (items : List BatchValue)

namespace BatchValue

/-- An integer as a value. One that takes all 64 bits becomes a floating-point number. -/
def ofInteger (n : Int) : Value :=
  if Int64.minValue.toInt ≤ n ∧ n ≤ Int64.maxValue.toInt then .integer (Int64.ofInt n)
  else .real (UInt64.ofInt n).toFloat

/-- The namespace of a principal, which may be given as null. -/
def namespaceOf? : Json → Option String
  | .null => some ""
  | .text s => some s
  | _ => none

def flagOf? : Json → Option Bool
  | .boolean flag => some flag
  | _ => none

def principal? (name : Json) (space unqualified caseInsensitive : Option Json) :
    Option Principal := do
  let .text name := name | none
  let «namespace» ← (space.map namespaceOf?).getD (some "")
  let unqualified ← (unqualified.map flagOf?).getD (some false)
  let caseInsensitive ← (caseInsensitive.map flagOf?).getD (some false)
  some
    { name, «namespace»
      type := if unqualified then .unqualified else .unknown
      caseSensitivity := if caseInsensitive then .insensitive else .sensitive }

def principalFields : List String :=
  ["name", "namespace", "unqualified", "case_insensitive"]

/-- A principal from its fields in order, of which those at the end may be left out. -/
def principalOfItems? : List Json → Option Principal
  | [] => none
  | name :: rest =>
    if rest.length < principalFields.length then principal? name rest[0]? rest[1]? rest[2]?
    else none

/-- A principal from its fields by name, each of them at most once. -/
def principalOfMembers? (members : List (String × Json)) : Option Principal :=
  let names := members.map (·.1)
  if names.all principalFields.contains && names.eraseDups.length == names.length then
    (members.lookup "name").bind fun name =>
      principal? name (members.lookup "namespace") (members.lookup "unqualified")
        (members.lookup "case_insensitive")
  else none

mutual

def ofJson? : Json → Option BatchValue
  | .null => none
  | .boolean flag => some (.single (.boolean flag))
  | .integer n => some (.single (ofInteger n))
  | .real x => some (.single (.real x))
  | .text s => some (.single (.string s))
  | .list items =>
    match ofItems? items with
    | some values => some (.list values)
    | none => (principalOfItems? items).map fun p => .single (.principal p)
  | .object members => (principalOfMembers? members).map fun p => .single (.principal p)

def ofItems? : List Json → Option (List BatchValue)
  | [] => some []
  | j :: rest =>
    match ofJson? j with
    | none => none
    | some v => (ofItems? rest).map (v :: ·)

end

def value? : BatchValue → Option Value
  | single v => some v
  | list _ => none

/-- The values that a property gets; none if a list contains a list. -/
def values? : BatchValue → Option (List Value)
  | single v => some [v]
  | list items => items.mapM value?

end BatchValue

/-- A document of a batch: its properties in ascending order of their names, each name once. -/
structure BatchDocument where
  entries : List (String × BatchValue)

namespace BatchDocument

/-- The document of an object. Of a repeated name the last value counts, but all have to be
readable. -/
def ofMembers? (members : List (String × Json)) : Option BatchDocument := do
  let read ← members.mapM fun (name, j) => (BatchValue.ofJson? j).map fun v => (name, v)
  let latest := read.reverse
  some ⟨(sortedNames (read.map (·.1))).filterMap fun name =>
    (latest.lookup name).map fun v => (name, v)⟩

def ofJson? : Json → Option BatchDocument
  | .object members => ofMembers? members
  | _ => none

end BatchDocument

inductive BatchFault where
  | unopened (path : String) (failure : InputFailure)
  | malformed
  | nestedList (document : Nat) (property : String)
  deriving Repr, DecidableEq

def BatchFault.message : BatchFault → String
  | unopened path failure => "cannot open " ++ path ++ ": " ++ failure.message
  | malformed => "malformed batch"
  | nestedList document property =>
    "document " ++ Decimal.ofNat document ++ ": property " ++ property ++ " nests arrays"

namespace BatchDocument

def addTo (index : Nat) (t : PropertyTable) :
    List (String × BatchValue) → Except BatchFault PropertyTable
  | [] => .ok t
  | (name, v) :: rest =>
    match v.values? with
    | none => .error (.nestedList index name)
    | some values => addTo index (t.append name values) rest

def toTable (index : Nat) (d : BatchDocument) : Except BatchFault PropertyTable :=
  addTo index {} d.entries

end BatchDocument

def BatchDocument.readAll (bytes : List UInt8) : Except BatchFault (List BatchDocument) :=
  match Json.read? bytes with
  | some (.list items) =>
    match items.mapM BatchDocument.ofJson? with
    | some documents => .ok documents
    | none => .error .malformed
  | _ => .error .malformed

end IndexFeed
