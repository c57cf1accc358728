import IndexFeed.Markup
import IndexFeed.Proofs.Text.Search

/-!
Entities that are resolved one kind after the other, each over the whole text. That takes back the
escaping because the ampersand comes last: until then every ampersand of the text begins an entity,
and no entity is made that the escaping did not write.
-/

namespace IndexFeed.Markup

/-- What stands for a character of that name. -/
def entity (name : List Char) : List Char := '&' :: name ++ [';']

/-- A character as it is written if those of a table are written as entities. -/
def writeChar : List (Char × List Char) → Char → List Char
  | [], c => [c]
  | (listed, name) :: table, c => if c = listed then entity name else writeChar table c

def characters (table : List (Char × List Char)) : List Char := table.map Prod.fst

/-- A name that can be told where it ends. -/
def IsEntityName (name : List Char) : Prop := '&' ∉ name ∧ ';' ∉ name

/-- The entities of a table can be resolved one after the other: it has each character and each name
once, and the ampersand last. -/
inductive IsResolvable : List (Char × List Char) → Prop
  | ampersand {name : List Char} (named : IsEntityName name) : IsResolvable [('&', name)]
  | cons {c : Char} {name : List Char} {table : List (Char × List Char)} (named : IsEntityName name)
      (other : c ≠ '&') (unlisted : c ∉ characters table)
      (apart : ∀ entry ∈ table, entry.2 ≠ name) (rest : IsResolvable table) :
      IsResolvable ((c, name) :: table)

theorem misses_entity {name other : List Char} (named : IsEntityName name)
    (otherNamed : IsEntityName other) (apart : other ≠ name) :
    Text.misses (entity name) (entity other) = true := by
  have differs {name other : List Char} (named : IsEntityName name)
      (otherNamed : IsEntityName other) (apart : name ≠ other) :
      ¬ entity name <+: entity other := by
    intro begins
    have ends := (List.cons_prefix_cons.mp begins).2
    exact apart ((Text.prefix_cut named.2 otherNamed.2).mp ends).1
  have free : '&' ∉ other ++ [';'] := by simp [otherNamed.1]
  exact Text.misses_cons.mpr ⟨differs named otherNamed apart.symm, differs otherNamed named apart,
    Text.misses_of_not_mem free⟩

theorem writeChar_unlisted {table : List (Char × List Char)} {c : Char}
    (unlisted : c ∉ characters table) : writeChar table c = [c] := by
  induction table with
  | nil => rfl
  | cons entry table ih =>
      rw [characters, List.map_cons, List.mem_cons, not_or] at unlisted
      rw [writeChar, if_neg unlisted.1, ih unlisted.2]

/-- An entity of another name passes over a written character, which is no ampersand itself. -/
theorem misses_writeChar {name : List Char} {table : List (Char × List Char)} {c : Char}
    (named : IsEntityName name) (others : ∀ entry ∈ table, IsEntityName entry.2 ∧ entry.2 ≠ name)
    (listed : c ≠ '&' ∨ '&' ∈ characters table) :
    Text.misses (entity name) (writeChar table c) = true := by
  induction table with
  | nil =>
      have other : c ≠ '&' := listed.resolve_right List.not_mem_nil
      exact Text.misses_of_not_mem (by simpa [writeChar] using other.symm)
  | cons entry table ih =>
      rw [List.forall_mem_cons] at others
      rw [writeChar]
      split
      · exact misses_entity named others.1.1 others.1.2
      · rename_i apart
        refine ih others.2 ?_
        rw [characters, List.map_cons, List.mem_cons] at listed
        obtain other | first | later := listed
        · exact .inl other
        · exact .inl (first ▸ apart)
        · exact .inr later

/-- Resolving the entities of one character leaves a text in which only the others are written as
entities, if every ampersand in it begins one. -/
theorem replaceAll_entity {c : Char} {name : List Char} {table : List (Char × List Char)}
    (named : IsEntityName name) (others : ∀ entry ∈ table, IsEntityName entry.2 ∧ entry.2 ≠ name)
    (unlisted : c ∉ characters table) (listed : c = '&' ∨ '&' ∈ characters table)
    (cs : List Char) :
    Text.replaceAll (entity name) [c] (cs.flatMap (writeChar ((c, name) :: table)))
      = cs.flatMap (writeChar table) := by
  apply Text.replaceAll_flatMap (by simp [entity])
  intro d _
  by_cases same : d = c
  · left
    rw [same, writeChar, if_pos rfl, writeChar_unlisted unlisted]
    exact ⟨rfl, rfl⟩
  · right
    rw [writeChar, if_neg same]
    refine ⟨rfl, misses_writeChar named others ?_⟩
    obtain rfl | listed := listed
    · exact .inl same
    · exact .inr listed

/-- Resolves the entities of a table one after the other. -/
def resolveInTurn (table : List (Char × List Char)) (cs : List Char) : List Char :=
  table.foldl (fun cs entry => Text.replaceAll (entity entry.2) [entry.1] cs) cs

namespace IsResolvable

variable {table : List (Char × List Char)}

theorem named (h : IsResolvable table) : ∀ entry ∈ table, IsEntityName entry.2 := by
  induction h with
  | ampersand named => simpa using named
  | cons named other unlisted apart rest ih => exact List.forall_mem_cons.mpr ⟨named, ih⟩

theorem ampersand_mem (h : IsResolvable table) : '&' ∈ characters table := by
  induction h with
  | ampersand named => exact List.mem_singleton_self _
  | cons named other unlisted apart rest ih => exact List.mem_cons_of_mem _ ih

theorem resolveInTurn_flatMap (h : IsResolvable table) (cs : List Char) :
    resolveInTurn table (cs.flatMap (writeChar table)) = cs := by
  induction h with
  | ampersand named =>
      rw [resolveInTurn, List.foldl_cons, List.foldl_nil,
        replaceAll_entity named (by simp) List.not_mem_nil (.inl rfl)]
      exact List.flatMap_singleton' cs
  | cons named other unlisted apart rest ih =>
      have others := fun entry member => And.intro (rest.named entry member) (apart entry member)
      have resolved := replaceAll_entity named others unlisted (.inr rest.ampersand_mem) cs
      rw [resolveInTurn, List.foldl_cons, resolved]
      exact ih

end IsResolvable

/-- The characters that escaping writes as entities, in the order in which they are resolved. -/
def entities : List (Char × List Char) :=
  [('<', "lt".toList), ('>', "gt".toList), ('"', "quot".toList), ('\'', "apos".toList),
    ('&', "amp".toList)]

theorem isResolvable_entities : IsResolvable entities := by
  refine .cons ⟨?_, ?_⟩ ?_ ?_ ?_ (.cons ⟨?_, ?_⟩ ?_ ?_ ?_ (.cons ⟨?_, ?_⟩ ?_ ?_ ?_
    (.cons ⟨?_, ?_⟩ ?_ ?_ ?_ (.ampersand ⟨?_, ?_⟩))))
  all_goals decide

theorem escapeChar_eq (c : Char) : escapeChar c = writeChar entities c := by
  unfold escapeChar
  split
  · subst c; rfl
  split
  · subst c; rfl
  split
  · subst c; rfl
  split
  · subst c; rfl
  split
  · subst c; rfl
  · simp_all [writeChar, entities]

/-- Resolving the entities in turn takes back the escaping of any text. -/
theorem resolveInTurn_escape (s : String) :
    resolveInTurn entities (escape s).toList = s.toList := by
  have written : (escape s).toList = s.toList.flatMap (writeChar entities) := by
    rw [escape, String.toList_ofList]
    exact congrArg (fun write => s.toList.flatMap write) (funext escapeChar_eq)
  rw [written]
  exact isResolvable_entities.resolveInTurn_flatMap s.toList

end IndexFeed.Markup
