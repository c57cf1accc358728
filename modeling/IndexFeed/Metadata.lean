import IndexFeed.Document
import IndexFeed.Markup

/-!
The metadata of a record: a pair of name and text for every value of every property that is neither
reserved nor part of the access control. The names ascend, and the values of a name keep their
order; values without a text, or with a blank one, are left out.
-/

namespace IndexFeed

structure Metadata where
  /-- Whether the record's access control replaces one that the index has. -/
  overwritesAcl : Bool := true
  pairs : List (String × String) := []
  deriving Repr, DecidableEq

namespace Metadata

def textOf? (v : Value) : Option String :=
  v.metadataText?.filter fun t => !Text.isBlankText t

def pairsOf (d : Document) (name : String) : Read (List (String × String)) :=
  (d.values name).map fun values => values.filterMap fun v => (textOf? v).map fun t => (name, t)

def ofDocument (d : Document) : Read Metadata := do
  let overwrites ← d.flag Property.overwriteAcls true
  let names ← d.names
  let shown := (sortedNames names).filter fun n => !Property.isWithheld n
  let pairs ← shown.mapM (pairsOf d)
  .ok ⟨overwrites, pairs.flatten⟩

/-- How many pairs are written. -/
def count (m : Metadata) : Nat := m.pairs.length

def pairMarkup (pair : String × String) : String :=
  "<meta" ++ Markup.attr "name" pair.1 ++ Markup.attr "content" pair.2 ++ "/>\n"

def attributes (m : Metadata) : List (String × Option String) :=
  [("overwrite-acls", if m.overwritesAcl then none else some "false")]

def markup (m : Metadata) : String :=
  "<metadata" ++ Markup.attrs m.attributes ++ ">\n" ++ String.join (m.pairs.map pairMarkup)
    ++ Markup.endTag "metadata"

end Metadata

end IndexFeed
