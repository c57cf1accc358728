import IndexFeed.Proofs.Batch.Value
import IndexFeed.Proofs.Document.Table
import IndexFeed.Proofs.Text.Order

/-!
What the documents of a batch come to. A document has a property for every name that its object
gives values to, with the values of the last member of that name; an empty list gives none. There is
no document if a list nests another one, and then the fault is found at the least name for which it
does.
-/

namespace IndexFeed

/-- The member that counts for a name: the last one of that name. -/
def IsLatest {α : Type} (members : List (String × α)) (name : String) (a : α) : Prop :=
  ∃ front back, members = front ++ (name, a) :: back ∧ ∀ m ∈ back, m.1 ≠ name

theorem lookup_reverse_eq_some_iff {α : Type} {members : List (String × α)} {name : String}
    {a : α} : members.reverse.lookup name = some a ↔ IsLatest members name a := by
  rw [List.lookup_eq_some_iff]
  constructor
  · rintro ⟨back, front, whole, other⟩
    refine ⟨front.reverse, back.reverse, ?_, fun m member => ?_⟩
    · rw [← List.reverse_reverse members, whole]
      simp
    · exact (bne_iff_ne.mp (other m (List.mem_reverse.mp member))).symm
  · rintro ⟨front, back, rfl, other⟩
    refine ⟨back.reverse, front.reverse, by simp, fun m member => ?_⟩
    exact bne_iff_ne.mpr (other m (List.mem_reverse.mp member)).symm

theorem IsLatest.mem {α : Type} {members : List (String × α)} {name : String} {a : α}
    (latest : IsLatest members name a) : (name, a) ∈ members := by
  obtain ⟨front, back, rfl, -⟩ := latest
  simp

theorem IsLatest.unique {α : Type} {members : List (String × α)} {name : String} {a b : α}
    (first : IsLatest members name a) (second : IsLatest members name b) : a = b := by
  have same := (lookup_reverse_eq_some_iff.mpr first).symm.trans
    (lookup_reverse_eq_some_iff.mpr second)
  exact Option.some.inj same

namespace BatchDocument

open BatchValue (Gives NestsList IsList)

variable {members : List (String × Json)} {d : BatchDocument} {name : String} {j : Json}
variable {v : BatchValue} {values : List Value}

/-- The members of an object, each with what its value is read as. -/
def ReadEach : List (String × Json) → List (String × BatchValue) → Prop :=
  List.Forall₂ fun m r => r.1 = m.1 ∧ BatchValue.ofJson? m.2 = some r.2

theorem ReadEach.lookup {read : List (String × BatchValue)} (each : ReadEach members read) :
    read.lookup name = (members.lookup name).bind BatchValue.ofJson? := by
  induction each with
  | nil => rfl
  | @cons m r members read first _ ih =>
      rw [List.lookup_cons, List.lookup_cons, ih, first.1]
      cases name == m.1 with
      | true => exact first.2.symm
      | false => rfl

theorem ReadEach.readable {read : List (String × BatchValue)} (each : ReadEach members read)
    {m : String × Json} (member : m ∈ members) : ∃ v, BatchValue.ofJson? m.2 = some v := by
  induction each with
  | nil => cases member
  | cons first _ ih =>
      obtain rfl | later := List.mem_cons.mp member
      · exact ⟨_, first.2⟩
      · exact ih later

/-- A document that is read has an entry for each name, for the member that counts. -/
structure IsReadFrom (members : List (String × Json)) (d : BatchDocument) : Prop where
  ascend : d.entries.Pairwise fun e e' => e.1 < e'.1
  mem_iff : ∀ name v, (name, v) ∈ d.entries ↔
    ∃ j, IsLatest members name j ∧ BatchValue.ofJson? j = some v
  readable : ∀ name j, IsLatest members name j → ∃ v, BatchValue.ofJson? j = some v

theorem sortedNames_ascend (names : List String) : (sortedNames names).Pairwise (· < ·) := by
  simpa using filter_sortedNames_ascend (fun _ => true) names

theorem isReadFrom_of_ofMembers? (h : ofMembers? members = some d) : IsReadFrom members d := by
  obtain ⟨read, each, made⟩ := Option.bind_eq_some_iff.mp h
  cases made
  have read_each : ReadEach members read := by
    refine (mapM_eq_some_iff.mp each).imp fun m r first => ?_
    obtain ⟨v, value, rfl⟩ := Option.map_eq_some_iff.mp first
    exact ⟨rfl, value⟩
  have latest (name : String) : read.reverse.lookup name
      = (members.reverse.lookup name).bind BatchValue.ofJson? :=
    ReadEach.lookup (List.forall₂_reverse_iff.mpr read_each)
  refine ⟨?_, ?_, fun name j counted => read_each.readable counted.mem⟩
  · refine List.pairwise_filterMap.mpr ((sortedNames_ascend (read.map (·.1))).imp ?_)
    intro name name' below e made e' made'
    obtain ⟨v, -, rfl⟩ := Option.map_eq_some_iff.mp made
    obtain ⟨v', -, rfl⟩ := Option.map_eq_some_iff.mp made'
    exact below
  · intro name v
    have counted : read.reverse.lookup name = some v ↔
        ∃ j, IsLatest members name j ∧ BatchValue.ofJson? j = some v := by
      rw [latest, Option.bind_eq_some_iff]
      simp only [lookup_reverse_eq_some_iff]
    rw [← counted, List.mem_filterMap]
    constructor
    · rintro ⟨other, -, made⟩
      obtain ⟨w, found, same⟩ := Option.map_eq_some_iff.mp made
      cases same
      exact found
    · intro found
      refine ⟨name, ?_, Option.map_eq_some_iff.mpr ⟨v, found, rfl⟩⟩
      have held := (lookup_reverse_eq_some_iff.mp found).mem
      exact mem_sortedNames.mpr (List.mem_map.mpr ⟨_, held, rfl⟩)

/-! Adding the entries of a document to a table. -/

variable {index : Nat} {t table : PropertyTable} {entries : List (String × BatchValue)}

theorem addTo_cons_ok (given : v.values? = some values) (rest : List (String × BatchValue)) :
    addTo index t ((name, v) :: rest) = addTo index (t.append name values) rest := by
  rw [addTo, given]

theorem addTo_cons_error (nests : v.values? = none) (rest : List (String × BatchValue)) :
    addTo index t ((name, v) :: rest) = .error (.nestedList index name) := by
  rw [addTo, nests]

/-- Adding stops at the first entry without values. -/
theorem addTo_eq_error_iff {fault : BatchFault} :
    addTo index t entries = .error fault ↔
      ∃ e, entries.find? (fun e => e.2.values?.isNone) = some e ∧
        fault = .nestedList index e.1 := by
  induction entries generalizing t with
  | nil => simp [addTo]
  | cons e rest ih =>
      obtain ⟨key, v⟩ := e
      cases given : v.values? with
      | none => simp [addTo_cons_error given, given, eq_comm]
      | some values => simp [addTo_cons_ok given, ih, given]

/-- In ascending entries, the first one of a kind is the least of its kind. -/
theorem find?_eq_some_iff_least {α : Type} {entries : List (String × α)}
    (ascend : entries.Pairwise fun e e' => e.1 < e'.1) {p : String × α → Bool} {e : String × α} :
    entries.find? p = some e ↔
      e ∈ entries ∧ p e = true ∧ ∀ e' ∈ entries, p e' = true → e' = e ∨ e.1 < e'.1 := by
  have least {e : String × α} (found : entries.find? p = some e) :
      ∀ e' ∈ entries, p e' = true → e' = e ∨ e.1 < e'.1 := by
    obtain ⟨-, front, back, rfl, before⟩ := List.find?_eq_some_iff_append.mp found
    obtain ⟨-, behind, -⟩ := List.pairwise_append.mp ascend
    intro e' member kind
    obtain front | rest := List.mem_append.mp member
    · have other := before e' front
      rw [kind] at other
      cases other
    · obtain same | back := List.mem_cons.mp rest
      · exact .inl same
      · exact .inr ((List.pairwise_cons.mp behind).1 e' back)
  constructor
  · intro found
    exact ⟨List.mem_of_find?_eq_some found, List.find?_some found, least found⟩
  · rintro ⟨member, kind, below⟩
    obtain ⟨e', found⟩ := Option.isSome_iff_exists.mp (List.find?_isSome.mpr ⟨e, member, kind⟩)
    obtain same | above := least found e member kind
    · rwa [same]
    · obtain same | under := below e' (List.mem_of_find?_eq_some found) (List.find?_some found)
      · rwa [← same]
      · exact absurd above (String.lt_asymm under)

/-- What a table holds once all entries are added to it, if it held nothing under their names. -/
theorem addTo_values? (added : addTo index t entries = .ok table)
    (ascend : entries.Pairwise fun e e' => e.1 < e'.1)
    (fresh : ∀ e ∈ entries, t.values? e.1 = none) {name : String} {values : List Value} :
    table.values? name = some values ↔ t.values? name = some values ∨
      values ≠ [] ∧ ∃ v, (name, v) ∈ entries ∧ v.values? = some values := by
  induction entries generalizing t with
  | nil =>
      cases added
      simp
  | cons e rest ih =>
      obtain ⟨key, v⟩ := e
      cases given : v.values? with
      | none =>
          rw [addTo_cons_error given] at added
          cases added
      | some first =>
          rw [addTo_cons_ok given] at added
          rw [List.pairwise_cons] at ascend
          rw [List.forall_mem_cons] at fresh
          have others : ∀ e ∈ rest, e.1 ≠ key := by
            rintro e member rfl
            exact String.lt_irrefl _ (ascend.1 e member)
          have still_fresh : ∀ e ∈ rest, (t.append key first).values? e.1 = none := by
            intro e member
            rw [PropertyTable.values?_append, if_neg fun same => others e member same.1]
            exact fresh.2 e member
          rw [ih added ascend.2 still_fresh, PropertyTable.values?_append, fresh.1]
          obtain rfl | other := Decidable.em (name = key)
          · have absent : ∀ w, (name, w) ∉ rest := fun w member => others _ member rfl
            by_cases empty : first = []
            · simp [absent, given, empty, fresh.1, eq_comm]
            · have kept : values = first → values ≠ [] := fun same => same ▸ empty
              simpa [absent, given, empty, fresh.1, eq_comm] using kept
          · simp [other]

/-- The value of a property is a list that has a list among its items. -/
def Nests (d : BatchDocument) (name : String) : Prop :=
  ∃ items inner, (name, BatchValue.list items) ∈ d.entries ∧ .list inner ∈ items

theorem nests_iff_values? : d.Nests name ↔ ∃ v, (name, v) ∈ d.entries ∧ v.values? = none := by
  simp only [BatchValue.values?_eq_none_iff]
  constructor
  · rintro ⟨items, inner, held, member⟩
    exact ⟨_, held, items, inner, rfl, member⟩
  · rintro ⟨_, held, items, inner, rfl, member⟩
    exact ⟨items, inner, held, member⟩

namespace IsReadFrom

theorem unique (h : IsReadFrom members d) {w : BatchValue} (first : (name, v) ∈ d.entries)
    (second : (name, w) ∈ d.entries) : v = w := by
  obtain ⟨j, latest, read⟩ := (h.mem_iff name v).mp first
  obtain ⟨j', latest', read'⟩ := (h.mem_iff name w).mp second
  rw [latest.unique latest', read'] at read
  exact (Option.some.inj read).symm

theorem nests_iff (h : IsReadFrom members d) :
    d.Nests name ↔ ∃ j, IsLatest members name j ∧ NestsList j := by
  rw [nests_iff_values?]
  constructor
  · rintro ⟨v, member, none⟩
    obtain ⟨j, latest, read⟩ := (h.mem_iff name v).mp member
    exact ⟨j, latest, (BatchValue.nestsList_iff read).mpr none⟩
  · rintro ⟨j, latest, nests⟩
    obtain ⟨v, read⟩ := h.readable name j latest
    exact ⟨v, (h.mem_iff name v).mpr ⟨j, latest, read⟩, (BatchValue.nestsList_iff read).mp nests⟩

theorem toTable_eq_error_iff (h : IsReadFrom members d) {fault : BatchFault} :
    d.toTable index = .error fault ↔ ∃ name, fault = .nestedList index name ∧
      d.Nests name ∧ ∀ other, d.Nests other → other = name ∨ name < other := by
  rw [toTable, addTo_eq_error_iff]
  simp only [find?_eq_some_iff_least h.ascend, Option.isNone_iff_eq_none, nests_iff_values?]
  constructor
  · rintro ⟨⟨name, v⟩, ⟨member, none, least⟩, rfl⟩
    refine ⟨name, rfl, ⟨v, member, none⟩, ?_⟩
    rintro other ⟨w, member, none⟩
    obtain same | above := least (other, w) member none
    · exact .inl (congrArg Prod.fst same)
    · exact .inr above
  · rintro ⟨name, rfl, ⟨v, member, none⟩, least⟩
    refine ⟨(name, v), ⟨member, none, ?_⟩, rfl⟩
    rintro ⟨other, w⟩ held none'
    obtain rfl | above := least other ⟨w, held, none'⟩
    · exact .inl (congrArg _ (h.unique held member))
    · exact .inr above

theorem toTable_isOk_iff (h : IsReadFrom members d) :
    (∃ table, d.toTable index = .ok table) ↔ ∀ name, ¬ d.Nests name := by
  cases made : d.toTable index with
  | ok table =>
      refine iff_of_true ⟨table, rfl⟩ fun name nests => ?_
      obtain ⟨v, member, none⟩ := nests_iff_values?.mp nests
      have some_none : ∃ e ∈ d.entries, e.2.values?.isNone = true :=
        ⟨(name, v), member, Option.isNone_iff_eq_none.mpr none⟩
      obtain ⟨e, found⟩ := Option.isSome_iff_exists.mp (List.find?_isSome.mpr some_none)
      have failed : d.toTable index = .error (.nestedList index e.1) :=
        addTo_eq_error_iff.mpr ⟨e, found, rfl⟩
      cases made.symm.trans failed
  | error fault =>
      refine iff_of_false nofun fun flat => ?_
      obtain ⟨name, -, nests, -⟩ := h.toTable_eq_error_iff.mp made
      exact flat name nests

theorem table_values? (h : IsReadFrom members d) (made : d.toTable index = .ok table) :
    table.values? name = some values ↔
      values ≠ [] ∧ ∃ j, IsLatest members name j ∧ Gives j values := by
  rw [addTo_values? made h.ascend (fun _ _ => rfl)]
  have fresh : ¬ PropertyTable.values? {} name = some values := nofun
  simp only [fresh, false_or, h.mem_iff]
  refine and_congr_right fun _ => ?_
  constructor
  · rintro ⟨v, ⟨j, latest, read⟩, given⟩
    exact ⟨j, latest, (BatchValue.gives_iff read).mpr given⟩
  · rintro ⟨j, latest, gives⟩
    obtain ⟨v, read⟩ := h.readable name j latest
    exact ⟨v, ⟨j, latest, read⟩, (BatchValue.gives_iff read).mp gives⟩

/-- What the document of a table finds under a name for which a member counts. -/
theorem gives_of_latest (h : IsReadFrom members d) (made : d.toTable index = .ok table)
    (latest : IsLatest members name j) : ∃ values, (∀ given, Gives j given ↔ given = values) ∧
      table.values? name = if values = [] then none else some values := by
  obtain ⟨v, read⟩ := h.readable name j latest
  have member : (name, v) ∈ d.entries := (h.mem_iff name v).mpr ⟨j, latest, read⟩
  have flat : v.values? ≠ none := fun none =>
    h.toTable_isOk_iff.mp ⟨table, made⟩ name (nests_iff_values?.mpr ⟨v, member, none⟩)
  obtain ⟨values, held⟩ := Option.ne_none_iff_exists'.mp flat
  have only : ∀ given, Gives j given ↔ given = values := by
    intro given
    rw [BatchValue.gives_iff read, held, Option.some.injEq, eq_comm]
  refine ⟨values, only, ?_⟩
  ext given
  rw [h.table_values? made]
  have counted : (∃ j, IsLatest members name j ∧ Gives j given) ↔ given = values := by
    constructor
    · rintro ⟨j', latest', gives⟩
      rw [latest'.unique latest] at gives
      exact (only given).mp gives
    · intro same
      exact ⟨j, latest, (only given).mpr same⟩
  rw [counted]
  by_cases empty : values = []
  · simp +contextual [empty]
  · have kept : given = values → given ≠ [] := fun same => same ▸ empty
    simpa [empty, eq_comm] using kept

end IsReadFrom

theorem gives_nil_iff : Gives j [] ↔ j = .list [] := by
  constructor
  · intro gives
    cases gives with
    | list each =>
        cases each
        rfl
  · rintro rfl
    exact .list .nil

/-- The document of an object. It fails just if some property's value is a list with a list among
its items, and then for the first such property in the order of the bytes of their names. Otherwise
it has the properties whose values are not the empty list, and each of them has the values that are
given to it: one for each item of a list, and one for anything else. -/
theorem toTable_of_object (read : ofMembers? members = some d) (index : Nat) :
    (∀ fault, d.toTable index = .error fault ↔ ∃ name, fault = .nestedList index name ∧
      d.Nests name ∧ ∀ other, d.Nests other →
        other = name ∨ Utf8.encode name < Utf8.encode other) ∧
    ((∃ table, d.toTable index = .ok table) ↔ ∀ name, ¬ d.Nests name) ∧
    (∀ name, d.Nests name ↔ ∃ j, IsLatest members name j ∧ NestsList j) ∧
    ∀ table, d.toTable index = .ok table →
      (∃ names, table.toDocument.names = .ok names ∧
        ∀ name, name ∈ names ↔ ∃ j, IsLatest members name j ∧ j ≠ .list []) ∧
      ∀ name j, IsLatest members name j →
        ∃ values, (∀ given, Gives j given ↔ given = values) ∧
          table.toDocument.find name
            = .ok (if values = [] then none else some ⟨values, none⟩) := by
  have h := isReadFrom_of_ofMembers? read
  simp only [Utf8.encode_lt_encode_iff]
  refine ⟨fun fault => h.toTable_eq_error_iff, h.toTable_isOk_iff, fun name => h.nests_iff,
    fun table made => ⟨?_, ?_⟩⟩
  · refine ⟨table.names, rfl, fun name => ?_⟩
    rw [PropertyTable.mem_names, PropertyTable.has, Option.isSome_iff_exists]
    simp only [h.table_values? made]
    constructor
    · rintro ⟨values, some_value, j, latest, gives⟩
      refine ⟨j, latest, ?_⟩
      rintro rfl
      obtain ⟨values', only, -⟩ := h.gives_of_latest made latest
      exact some_value (((only values).mp gives).trans ((only []).mp (gives_nil_iff.mpr rfl)).symm)
    · rintro ⟨j, latest, filled⟩
      obtain ⟨values, only, -⟩ := h.gives_of_latest made latest
      have gives := (only values).mpr rfl
      refine ⟨values, ?_, j, latest, gives⟩
      rintro rfl
      exact filled (gives_nil_iff.mp gives)
  · intro name j latest
    obtain ⟨values, only, held⟩ := h.gives_of_latest made latest
    refine ⟨values, only, ?_⟩
    simp only [PropertyTable.toDocument, held]
    split <;> rfl

/-- An object that gives one name twice, and a principal as an object and as a list; and one that
nests lists under names out of order. -/
theorem toTable_of_object_mixed :
    let bob : Json := .object [("name", .text "bob"), ("unqualified", .boolean true)]
    let eve : Json := .list [.text "eve", .null, .boolean false, .boolean true]
    let nested : Json := .list [.text "x", .list [.text "y"]]
    ∃ d d' table,
      ofMembers? [("tags", .list [.text "old"]),
        (Property.aclUsers, .list [.text "alice", bob, eve]), ("tags", .list [])] = some d ∧
      d.toTable 3 = .ok table ∧ table.toDocument.find "tags" = .ok none ∧
      table.toDocument.find Property.aclUsers = .ok (some ⟨[.string "alice",
        .principal { name := "bob", type := .unqualified },
        .principal { name := "eve", caseSensitivity := .insensitive }], none⟩) ∧
      ofMembers? [("b", nested), ("a", nested), ("B", .list [])] = some d' ∧
      d'.toTable 3 = .error (.nestedList 3 "a") := by
  intro bob eve nested
  let members : List (String × Json) := [("tags", .list [.text "old"]),
    (Property.aclUsers, .list [.text "alice", bob, eve]), ("tags", .list [])]
  let members' : List (String × Json) := [("b", nested), ("a", nested), ("B", .list [])]
  let d : BatchDocument := (ofMembers? members).getD ⟨[]⟩
  let d' : BatchDocument := (ofMembers? members').getD ⟨[]⟩
  have read : ofMembers? members = some d := by rfl
  have read' : ofMembers? members' = some d' := by rfl
  obtain ⟨-, made, nests, properties⟩ := toTable_of_object read 3
  obtain ⟨failed, -, deep_other, -⟩ := toTable_of_object read' 3
  have flat : ∀ name, ¬ d.Nests name := by
    intro name deep
    obtain ⟨_, latest, items, rfl, -, _, member, inner, rfl, no_null⟩ := (nests name).mp deep
    have held := latest.mem
    simp only [members, List.mem_cons, Prod.mk.injEq, Json.list.injEq, List.not_mem_nil,
      or_false] at held
    obtain ⟨-, rfl⟩ | ⟨-, rfl⟩ | ⟨-, rfl⟩ := held
    · simp at member
    · simp [bob, eve] at member
      simp [member] at no_null
    · cases member
  have tags : IsLatest members "tags" (.list []) := ⟨_ :: [_], [], rfl, by simp⟩
  have users : IsLatest members Property.aclUsers (.list [.text "alice", bob, eve]) :=
    ⟨[_], [_], rfl, by simp [Property.aclUsers]⟩
  obtain ⟨table, made⟩ := made.mpr flat
  obtain ⟨-, finds⟩ := properties table made
  refine ⟨d, d', table, read, made, ?_, ?_, read', ?_⟩
  · obtain ⟨values, only, found⟩ := finds _ _ tags
    have none_given := (only []).mp (gives_nil_iff.mpr rfl)
    rwa [← none_given] at found
  · obtain ⟨values, only, found⟩ := finds _ _ users
    have given : Gives (.list [.text "alice", bob, eve]) [.string "alice",
        .principal { name := "bob", type := .unqualified },
        .principal { name := "eve", caseSensitivity := .insensitive }] := by
      refine .list (.cons (.text "alice") (.cons (.object ?_) (.cons (.row ?_ ?_ ?_) .nil)))
      · refine ⟨by decide, by decide, .text "bob", rfl, rfl, .inr ⟨.inl rfl, rfl⟩, .inl rfl, ?_⟩
        exact .inr ⟨rfl, rfl⟩
      · simp
      · decide
      · exact ⟨rfl, .inr ⟨.inr rfl, rfl⟩, .inl rfl, .inl rfl⟩
    rwa [← (only _).mp given] at found
  · have first : IsLatest members' "a" nested := ⟨[_], [_], rfl, by simp⟩
    refine (failed _).mpr ⟨"a", rfl, (deep_other "a").mpr ⟨nested, first, ?_⟩, ?_⟩
    · exact ⟨_, rfl, by simp, .list [.text "y"], by simp, _, rfl, by simp⟩
    · intro other deep
      obtain ⟨_, latest, items, rfl, -, _, member, -⟩ := (deep_other other).mp deep
      have held := latest.mem
      simp only [members', List.mem_cons, Prod.mk.injEq, List.not_mem_nil, or_false] at held
      obtain ⟨rfl, -⟩ | ⟨rfl, -⟩ | ⟨-, none⟩ := held
      · exact .inr (Utf8.encode_lt_encode (by decide))
      · exact .inl rfl
      · cases none
        cases member

end BatchDocument

end IndexFeed
