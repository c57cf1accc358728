import IndexFeed.Document.Table

/-!
What a table holds after values were added. Under every name it holds the values that were added
under that name, in their order; how additions under different names were interleaved shows in the
order of the names and nowhere else.
-/

namespace IndexFeed.PropertyTable

/-- The values that some pairs give to a name, in order. -/
def given (name : String) (pairs : List (String × Value)) : List Value :=
  pairs.filterMap fun pair => if pair.1 = name then some pair.2 else none

theorem given_cons (name : String) (pair : String × Value) (rest : List (String × Value)) :
    given name (pair :: rest)
      = if pair.1 = name then pair.2 :: given name rest else given name rest := by
  by_cases named : pair.1 = name
  · simp [given, named]
  · simp [given, named]

theorem lookup_replaced (entries : List (String × List Value)) (name other : String)
    (values : List Value) :
    (entries.map fun e => if e.1 == name then (name, values) else e).lookup other
      = if other = name then (entries.lookup name).map fun _ => values
        else entries.lookup other := by
  induction entries with
  | nil => simp
  | cons e rest ih =>
      obtain ⟨key, held⟩ := e
      rw [List.map_cons]
      by_cases keyed : key = name
      · subst keyed
        by_cases same : other = key
        · simp [same]
        · simp only [beq_self_eq_true, if_true, List.lookup_cons, ih, if_neg same,
            beq_false_of_ne same]
      · have kept : (key == name) = false := beq_false_of_ne keyed
        by_cases same : other = name
        · subst same
          simp only [kept, Bool.false_eq_true, if_false, List.lookup_cons, ih, if_true,
            beq_false_of_ne (Ne.symm keyed)]
        · simp only [kept, Bool.false_eq_true, if_false, List.lookup_cons, ih, if_neg same]

theorem values?_set (t : PropertyTable) (name other : String) (values : List Value) :
    (t.set name values).values? other
      = if other = name then some values else t.values? other := by
  rw [set]
  cases held : t.values? name with
  | some old =>
      have has : t.has name = true := by rw [PropertyTable.has, held]; rfl
      rw [if_pos has, values?, lookup_replaced, ← values?, ← values?, held]
      rfl
  | none =>
      have absent : ¬ t.has name = true := by rw [PropertyTable.has, held]; simp
      rw [if_neg absent, values?, List.lookup_append, ← values?]
      by_cases same : other = name
      · subst same
        simp [held]
      · simp [same, List.lookup_cons, beq_false_of_ne same]

theorem values?_append (t : PropertyTable) (name other : String) (values : List Value) :
    (t.append name values).values? other
      = if other = name ∧ values ≠ [] then some ((t.values? name).getD [] ++ values)
        else t.values? other := by
  cases values with
  | nil => simp [append]
  | cons v rest =>
      rw [append, if_neg (by simp), values?_set]
      simp

theorem values?_add (t : PropertyTable) (name other : String) (v : Value) :
    (t.add name v).values? other
      = if other = name then some ((t.values? name).getD [] ++ [v]) else t.values? other := by
  rw [add, values?_append]
  simp

/-- A name holds what it held before and what was added under it; a name without additions is as it
was. -/
theorem values?_addAll (t : PropertyTable) (pairs : List (String × Value)) (name : String) :
    (t.addAll pairs).values? name
      = if given name pairs = [] then t.values? name
        else some ((t.values? name).getD [] ++ given name pairs) := by
  induction pairs generalizing t with
  | nil => rfl
  | cons pair rest ih =>
      rw [addAll, List.foldl_cons, ← addAll, ih, values?_add, given_cons]
      by_cases named : pair.1 = name
      · subst named
        by_cases last : given pair.1 rest = []
        · simp [last]
        · simp [last]
      · simp [named, Ne.symm named]

theorem values?_ofPairs (pairs : List (String × Value)) (name : String) :
    (ofPairs pairs).values? name
      = if given name pairs = [] then none else some (given name pairs) := by
  rw [ofPairs, values?_addAll]
  rfl

theorem mem_names {t : PropertyTable} {name : String} : name ∈ t.names ↔ t.has name = true := by
  rw [names, has, values?]
  induction t.entries with
  | nil => simp
  | cons e rest ih =>
      obtain ⟨key, held⟩ := e
      rw [List.map_cons, List.mem_cons, List.lookup_cons, ih]
      by_cases same : name = key
      · simp [same]
      · simp [same, beq_false_of_ne same]

end IndexFeed.PropertyTable
