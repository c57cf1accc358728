import IndexFeed.Document

/-!
Documents held in memory: a table of property names, each with its values in the order in which they
were added. A name may be there without a value.
-/

namespace IndexFeed

structure PropertyTable where
  entries : List (String × List Value) := []

namespace PropertyTable

def values? (t : PropertyTable) (name : String) : Option (List Value) :=
  t.entries.lookup name

def has (t : PropertyTable) (name : String) : Bool :=
  (t.values? name).isSome

def set (t : PropertyTable) (name : String) (values : List Value) : PropertyTable :=
  if t.has name then
    ⟨t.entries.map fun e => if e.1 == name then (name, values) else e⟩
  else ⟨t.entries ++ [(name, values)]⟩

/-- Adds values behind those that a property has; adding none leaves the table as it is. -/
def append (t : PropertyTable) (name : String) (values : List Value) : PropertyTable :=
  if values.isEmpty then t else t.set name ((t.values? name).getD [] ++ values)

def add (t : PropertyTable) (name : String) (v : Value) : PropertyTable :=
  t.append name [v]

def remove (t : PropertyTable) (name : String) : PropertyTable :=
  ⟨t.entries.filter (·.1 != name)⟩

def addAll (t : PropertyTable) (pairs : List (String × Value)) : PropertyTable :=
  pairs.foldl (fun t pair => t.add pair.1 pair.2) t

def ofPairs (pairs : List (String × Value)) : PropertyTable :=
  addAll {} pairs

def names (t : PropertyTable) : List String :=
  t.entries.map (·.1)

def toDocument (t : PropertyTable) : Document where
  find name := .ok ((t.values? name).map fun values => ⟨values, none⟩)
  names := .ok t.names

end PropertyTable

end IndexFeed
