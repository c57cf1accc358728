import IndexFeed.Batch
import IndexFeed.Proofs.Metadata
import Mathlib.Data.List.Forall2
import Mathlib.Data.List.Perm.Subperm

/-!
What the JSON values of a batch come to. A text, a truth value or a number is one value, and so is a
principal; a list has the values of its items, unless one of these is a list again. Principals are
mostly objects. One may also be a list of its fields, but a list is read item by item where it can
be, and the only field that is no value is a null for the namespace.
-/

namespace IndexFeed

theorem length_eraseDups_eq_iff {names : List String} :
    names.eraseDups.length = names.length ↔ names.Nodup := by
  have within : List.Subperm names.eraseDups names :=
    List.subperm_of_subset (nodup_eraseDups names) fun _ member => List.mem_eraseDups.mp member
  constructor
  · intro same
    exact (within.perm_of_length_le (Nat.le_of_eq same.symm)).nodup_iff.mp (nodup_eraseDups names)
  · intro distinct
    have back : List.Subperm names names.eraseDups :=
      List.subperm_of_subset distinct fun _ member => List.mem_eraseDups.mpr member
    exact Nat.le_antisymm within.length_le back.length_le

theorem mapM_eq_some_iff {α β : Type} {f : α → Option β} {items : List α} {results : List β} :
    items.mapM f = some results ↔ List.Forall₂ (fun a b => f a = some b) items results := by
  induction items generalizing results with
  | nil => simp [eq_comm]
  | cons a rest ih =>
      rw [List.mapM_cons, List.forall₂_cons_left_iff]
      simp only [Option.bind_eq_bind, Option.bind_eq_some_iff, Option.pure_def,
        Option.some.injEq, ih]
      exact exists_congr fun b => by simp [eq_comm]

theorem mapM_eq_none_iff {α β : Type} {f : α → Option β} {items : List α} :
    items.mapM f = none ↔ ∃ a ∈ items, f a = none := by
  induction items with
  | nil => simp
  | cons a rest ih =>
      rw [List.mapM_cons]
      cases first : f a with
      | none => simp [first]
      | some b => cases more : rest.mapM f <;> simp_all

theorem exists_mem_iff_of_forall₂ {α β : Type} {R : α → β → Prop} {p : α → Prop} {q : β → Prop}
    {items : List α} {results : List β} (each : List.Forall₂ R items results)
    (same : ∀ a b, R a b → (p a ↔ q b)) : (∃ a ∈ items, p a) ↔ ∃ b ∈ results, q b := by
  induction each with
  | nil => simp
  | cons first _ ih =>
      simp only [List.mem_cons, exists_eq_or_imp]
      exact or_congr (same _ _ first) ih

namespace BatchValue

/-- A flag is given as a truth value, or it is left out and not set. -/
def GivesFlag (field : Option Json) (set : Bool) : Prop :=
  field = some (.boolean set) ∨ field = none ∧ set = false

/-- What the fields of a principal tell about it. Only its name has to be there. -/
structure Describes (name : Json) (space unqualified caseInsensitive : Option Json)
    (p : Principal) : Prop where
  name : name = .text p.name
  space : space = some (.text p.namespace) ∨ (space = none ∨ space = some .null) ∧ p.namespace = ""
  unqualified : GivesFlag unqualified (decide (p.type = .unqualified))
  caseInsensitive : GivesFlag caseInsensitive (decide (p.caseSensitivity = .insensitive))

/-- An object with the fields of a principal, each of them at most once, and no others. -/
structure HasFields (members : List (String × Json)) (p : Principal) : Prop where
  known : ∀ m ∈ members, m.1 ∈ principalFields
  distinct : (members.map Prod.fst).Nodup
  described : ∃ name, members.lookup "name" = some name ∧
    Describes name (members.lookup "namespace") (members.lookup "unqualified")
      (members.lookup "case_insensitive") p

/-- The value that a JSON value comes to on its own. -/
inductive Converts : Json → Value → Prop
  | boolean (flag : Bool) : Converts (.boolean flag) (.boolean flag)
  | integer (n : Int64) : Converts (.integer n.toInt) (.integer n)
  | large {n : Int} (large : n < Int64.minValue.toInt ∨ Int64.maxValue.toInt < n) :
      Converts (.integer n) (.real (UInt64.ofInt n).toFloat)
  | real (x : Float) : Converts (.real x) (.real x)
  | text (s : String) : Converts (.text s) (.string s)
  | object {members : List (String × Json)} {p : Principal} (fields : HasFields members p) :
      Converts (.object members) (.principal p)
  | row {name : Json} {rest : List Json} {p : Principal} (null : .null ∈ rest)
      (short : rest.length ≤ 3) (fields : Describes name rest[0]? rest[1]? rest[2]? p) :
      Converts (.list (name :: rest)) (.principal p)

/-- A list that is read item by item. None of its items is null, which would be no value. -/
def IsList (j : Json) : Prop := ∃ items, j = .list items ∧ .null ∉ items

/-- A list read item by item that has such a list among its items. -/
def NestsList (j : Json) : Prop :=
  ∃ items, j = .list items ∧ .null ∉ items ∧ ∃ item ∈ items, IsList item

/-- The values that a JSON value gives to a property, in order. -/
inductive Gives : Json → List Value → Prop
  | single {j : Json} {v : Value} (converted : Converts j v) : Gives j [v]
  | list {items : List Json} {values : List Value} (each : List.Forall₂ Converts items values) :
      Gives (.list items) values

variable {name : Json} {space unqualified caseInsensitive : Option Json} {p : Principal}

theorem namespace_eq_some_iff {s : String} :
    (space.map namespaceOf?).getD (some "") = some s ↔
      space = some (.text s) ∨ (space = none ∨ space = some .null) ∧ s = "" := by
  cases space with
  | none => simp [eq_comm]
  | some j => cases j <;> simp [namespaceOf?, eq_comm]

theorem flag_eq_some_iff {field : Option Json} {set : Bool} :
    (field.map flagOf?).getD (some false) = some set ↔ GivesFlag field set := by
  cases field with
  | none => simp [GivesFlag, eq_comm]
  | some j => cases j <;> simp [flagOf?, GivesFlag]

theorem principal?_eq_some_iff :
    principal? name space unqualified caseInsensitive = some p ↔
      Describes name space unqualified caseInsensitive p := by
  constructor
  · intro read
    cases name with
    | text s =>
        simp only [principal?, Option.bind_eq_bind, Option.bind_eq_some_iff,
          namespace_eq_some_iff, flag_eq_some_iff, Option.some.injEq] at read
        obtain ⟨given, space, literal, unqualified, exact, insensitive, rfl⟩ := read
        refine ⟨rfl, space, ?_, ?_⟩
        · cases literal <;> exact unqualified
        · cases exact <;> exact insensitive
    | _ => cases read
  · rintro ⟨rfl, space, unqualified, insensitive⟩
    rw [principal?]
    simp only [namespace_eq_some_iff.mpr space, flag_eq_some_iff.mpr unqualified,
      flag_eq_some_iff.mpr insensitive, Option.bind_eq_bind, Option.bind_some]
    obtain ⟨name, given, type, caseSensitivity⟩ := p
    cases type <;> cases caseSensitivity <;> rfl

theorem principalOfMembers?_eq_some_iff {members : List (String × Json)} :
    principalOfMembers? members = some p ↔ HasFields members p := by
  have once : (members.map Prod.fst).eraseDups.length = (members.map Prod.fst).length ↔
      (members.map Prod.fst).Nodup := length_eraseDups_eq_iff
  have known : (members.map Prod.fst).all principalFields.contains = true ↔
      ∀ m ∈ members, m.1 ∈ principalFields := by
    simp
  rw [principalOfMembers?]
  constructor
  · intro read
    split at read
    · rename_i allowed
      obtain ⟨name, named, told⟩ := Option.bind_eq_some_iff.mp read
      rw [Bool.and_eq_true, beq_iff_eq, known, once] at allowed
      exact ⟨allowed.1, allowed.2, name, named, principal?_eq_some_iff.mp told⟩
    · cases read
  · rintro ⟨fields, distinct, name, named, told⟩
    rw [if_pos]
    · exact Option.bind_eq_some_iff.mpr ⟨name, named, principal?_eq_some_iff.mpr told⟩
    · rw [Bool.and_eq_true, beq_iff_eq, known, once]
      exact ⟨fields, distinct⟩

theorem principalOfItems?_eq_some_iff {items : List Json} :
    principalOfItems? items = some p ↔ ∃ name rest, items = name :: rest ∧ rest.length ≤ 3 ∧
      Describes name rest[0]? rest[1]? rest[2]? p := by
  cases items with
  | nil => simp [principalOfItems?]
  | cons name rest =>
      have few : principalFields.length = 4 := rfl
      by_cases short : rest.length ≤ 3
      · rw [principalOfItems?, if_pos (by omega), principal?_eq_some_iff]
        simp [short]
      · rw [principalOfItems?, if_neg (by omega)]
        simp [short]

theorem ofItems?_eq_some_iff {items : List Json} {values : List BatchValue} :
    ofItems? items = some values ↔
      List.Forall₂ (fun j v => ofJson? j = some v) items values := by
  induction items generalizing values with
  | nil => simp [ofItems?, eq_comm]
  | cons j rest ih =>
      rw [ofItems?, List.forall₂_cons_left_iff]
      cases ofJson? j with
      | none => simp
      | some v =>
          simp only [Option.map_eq_some_iff, ih, Option.some.injEq]
          simp [eq_comm]

theorem ofItems?_eq_none_iff {items : List Json} :
    ofItems? items = none ↔ ∃ j ∈ items, ofJson? j = none := by
  induction items with
  | nil => simp [ofItems?]
  | cons j rest ih =>
      rw [ofItems?]
      cases read : ofJson? j with
      | none => simp [read]
      | some v => simp [ih, read]

/-- Of the fields of a principal, only a namespace that is null is no value. -/
theorem Describes.readable {rest : List Json}
    (fields : Describes name rest[0]? rest[1]? rest[2]? p) (short : rest.length ≤ 3)
    {j : Json} (member : j ∈ name :: rest) : j = .null ∨ ofJson? j ≠ none := by
  obtain ⟨rfl, space, unqualified, insensitive⟩ := fields
  obtain rfl | member := List.mem_cons.mp member
  · exact .inr nofun
  · obtain ⟨i, inside, rfl⟩ := List.mem_iff_getElem.mp member
    have at_most : i = 0 ∨ i = 1 ∨ i = 2 := by omega
    obtain rfl | rfl | rfl := at_most
    · rw [List.getElem?_eq_getElem inside] at space
      obtain given | ⟨absent | null, -⟩ := space
      · exact .inr (Option.some.inj given ▸ nofun)
      · cases absent
      · exact .inl (Option.some.inj null)
    · rw [List.getElem?_eq_getElem inside] at unqualified
      obtain given | ⟨absent, -⟩ := unqualified
      · exact .inr (Option.some.inj given ▸ nofun)
      · cases absent
    · rw [List.getElem?_eq_getElem inside] at insensitive
      obtain given | ⟨absent, -⟩ := insensitive
      · exact .inr (Option.some.inj given ▸ nofun)
      · cases absent

variable {j : Json} {b : BatchValue} {v : Value} {values : List Value}

theorem ofJson?_list {items : List Json} {values : List BatchValue} :
    ofJson? (.list items) = some (.list values) ↔
      List.Forall₂ (fun j v => ofJson? j = some v) items values := by
  rw [ofJson?, ← ofItems?_eq_some_iff]
  cases ofItems? items with
  | none => simp
  | some read => simp

theorem ofJson?_row {items : List Json} :
    ofJson? (.list items) = some (.single v) ↔ Converts (.list items) v := by
  have as_row : ofJson? (.list items) = some (.single v) ↔
      ofItems? items = none ∧ ∃ p, principalOfItems? items = some p ∧ v = .principal p := by
    rw [ofJson?]
    cases ofItems? items with
    | none =>
        simp only [Option.map_eq_some_iff, single.injEq, true_and]
        exact exists_congr fun p => and_congr_right' eq_comm
    | some read => simp
  rw [as_row, ofItems?_eq_none_iff]
  constructor
  · rintro ⟨⟨j, member, unreadable⟩, p, row, rfl⟩
    obtain ⟨name, rest, rfl, short, fields⟩ := principalOfItems?_eq_some_iff.mp row
    obtain rfl | readable := fields.readable short member
    · obtain null | null := List.mem_cons.mp member
      · exact absurd (null.trans fields.name) nofun
      · exact .row null short fields
    · exact absurd unreadable readable
  · intro converts
    cases converts with
    | row null short fields =>
        exact ⟨⟨.null, List.mem_cons_of_mem _ null, rfl⟩, _,
          principalOfItems?_eq_some_iff.mpr ⟨_, _, rfl, short, fields⟩, rfl⟩

theorem ofInteger_eq_iff {n : Int} : ofInteger n = v ↔ Converts (.integer n) v := by
  constructor
  · rintro rfl
    rw [ofInteger]
    split
    · rename_i fits
      have exact := Int64.toInt_ofInt_of_le fits.1 (Int.lt_add_one_of_le fits.2)
      have read := Converts.integer (Int64.ofInt n)
      rwa [exact] at read
    · exact .large (by omega)
  · intro converts
    generalize whole : Json.integer n = j at converts
    cases converts with
    | integer m =>
        cases whole
        rw [ofInteger, if_pos ⟨Int64.le_toInt m, Int64.toInt_le m⟩, Int64.ofInt_toInt]
    | large large =>
        cases whole
        rw [ofInteger, if_neg (by omega)]
    | _ => cases whole

/-- Reading makes one value of just what converts to one. -/
theorem ofJson?_single : ofJson? j = some (.single v) ↔ Converts j v := by
  cases j with
  | null => exact iff_of_false nofun nofun
  | boolean flag =>
      constructor
      · rintro ⟨⟩
        exact .boolean flag
      · rintro ⟨⟩
        rfl
  | integer n => simp [ofJson?, ofInteger_eq_iff]
  | real x =>
      constructor
      · rintro ⟨⟩
        exact .real x
      · rintro ⟨⟩
        rfl
  | text s =>
      constructor
      · rintro ⟨⟩
        exact .text s
      · rintro ⟨⟩
        rfl
  | list items => exact ofJson?_row
  | object members =>
      simp only [ofJson?, Option.map_eq_some_iff, principalOfMembers?_eq_some_iff,
        single.injEq]
      constructor
      · rintro ⟨p, fields, rfl⟩
        exact .object fields
      · intro converts
        cases converts with
        | object fields => exact ⟨_, fields, rfl⟩

theorem ofJson?_eq_list_iff {values : List BatchValue} :
    ofJson? j = some (.list values) ↔
      ∃ items, j = .list items ∧ List.Forall₂ (fun j v => ofJson? j = some v) items values := by
  cases j with
  | list items => simp [ofJson?_list]
  | object members => simp [ofJson?]
  | _ => simp [ofJson?]

theorem null_not_mem {items : List Json} {values : List BatchValue}
    (read : List.Forall₂ (fun j v => ofJson? j = some v) items values) : .null ∉ items := by
  intro null
  have unread := ofItems?_eq_none_iff.mpr ⟨.null, null, rfl⟩
  rw [ofItems?_eq_some_iff.mpr read] at unread
  cases unread

/-- A list that can be read is one of values, unless it is a principal. -/
theorem isList_iff (read : ofJson? j = some b) : IsList j ↔ ∃ values, b = .list values := by
  constructor
  · rintro ⟨items, rfl, no_null⟩
    cases b with
    | list values => exact ⟨values, rfl⟩
    | single v =>
        cases ofJson?_row.mp read with
        | row null => exact absurd (List.mem_cons_of_mem _ null) no_null
  · rintro ⟨values, rfl⟩
    obtain ⟨items, rfl, each⟩ := ofJson?_eq_list_iff.mp read
    exact ⟨items, rfl, null_not_mem each⟩

theorem value?_eq_some_iff : b.value? = some v ↔ b = .single v := by
  cases b with
  | single w => simp [value?]
  | list items => simp [value?]

theorem value?_eq_none_iff : b.value? = none ↔ ∃ items, b = .list items := by
  cases b with
  | single w => simp [value?]
  | list items => simp [value?]

theorem values?_list {items : List BatchValue} :
    values? (.list items) = some values ↔ items = values.map .single := by
  rw [values?, mapM_eq_some_iff]
  simp only [value?_eq_some_iff]
  rw [← List.forall₂_eq_eq_eq, List.forall₂_map_right_iff]

theorem ofJson?_list_of_converts {items : List Json} (each : List.Forall₂ Converts items values) :
    ofJson? (.list items) = some (.list (values.map .single)) := by
  rw [ofJson?_list, List.forall₂_map_right_iff]
  exact each.imp fun _ _ converted => ofJson?_single.mpr converted

theorem values?_eq_none_iff :
    b.values? = none ↔ ∃ items inner, b = .list items ∧ .list inner ∈ items := by
  cases b with
  | single v => exact iff_of_false nofun nofun
  | list items =>
      rw [values?, mapM_eq_none_iff]
      simp only [value?_eq_none_iff]
      constructor
      · rintro ⟨_, member, inner, rfl⟩
        exact ⟨items, inner, rfl, member⟩
      · rintro ⟨_, inner, ⟨⟩, member⟩
        exact ⟨_, member, inner, rfl⟩

/-- What was read gives no values just if it nests a list in a list. -/
theorem nestsList_iff (read : ofJson? j = some b) : NestsList j ↔ b.values? = none := by
  cases b with
  | single v =>
      refine iff_of_false ?_ nofun
      rintro ⟨items, rfl, no_null, -⟩
      obtain ⟨values, list⟩ := (isList_iff read).mp ⟨items, rfl, no_null⟩
      cases list
  | list values =>
      obtain ⟨items, rfl, each⟩ := ofJson?_eq_list_iff.mp read
      have nested : NestsList (.list items) ↔ ∃ item ∈ items, IsList item := by
        simp [NestsList, null_not_mem each]
      rw [nested, values?, mapM_eq_none_iff]
      exact exists_mem_iff_of_forall₂ each fun item b read =>
        (isList_iff read).trans value?_eq_none_iff.symm

/-- What was read gives the values that the JSON value converts to, item by item if it is a list. -/
theorem gives_iff (read : ofJson? j = some b) : Gives j values ↔ b.values? = some values := by
  constructor
  · intro gives
    cases gives with
    | single converted =>
        cases read.symm.trans (ofJson?_single.mpr converted)
        rfl
    | list each =>
        cases read.symm.trans (ofJson?_list_of_converts each)
        exact values?_list.mpr rfl
  · intro given
    cases b with
    | single v =>
        cases given
        exact .single (ofJson?_single.mp read)
    | list items =>
        cases values?_list.mp given
        obtain ⟨items, rfl, each⟩ := ofJson?_eq_list_iff.mp read
        rw [List.forall₂_map_right_iff] at each
        exact .list (each.imp fun _ _ read => ofJson?_single.mp read)

end BatchValue

end IndexFeed
