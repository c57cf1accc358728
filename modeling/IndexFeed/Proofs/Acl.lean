import IndexFeed.Document.Sample
import IndexFeed.Proofs.Markup.Element
import IndexFeed.Proofs.Rules.Cases
import IndexFeed.Proofs.Text.Search

/-!
Whom an access control list names. Each of a document's four lists is read to its end, value by
value; a value either gives one principal or is dropped, and which of the two depends on its name
and on nothing else. A list that cannot be read to its end is never written in part.
-/

namespace IndexFeed

/-- What a name comes to in a list that grants or denies access. A role at the end is taken off, and
with it go the names that are permitted less than reading or denied more than reading. -/
inductive NameWritten (access : Access) : String → String → Prop where
  | role {base : String} {role : Role} (some_char : base ≠ "")
      (permitted : access = .permit → role ≠ .peeker)
      (denied : access = .deny → role ≠ .writer ∧ role ≠ .owner) :
      NameWritten access (base ++ "=" ++ role.wire) base
  | whole {name : String} (some_char : name ≠ "")
      (plain : ∀ (base : String) (role : Role), name ≠ base ++ "=" ++ role.wire) :
      NameWritten access name name

namespace Role

theorem ofWire?_eq_some_iff {tag : String} {role : Role} :
    ofWire? tag = some role ↔ tag = role.wire := by
  constructor
  · intro found
    have spelt := List.find?_some found
    exact (beq_iff_eq.mp spelt).symm
  · rintro rfl
    cases role <;> decide

theorem equals_not_mem_wire (role : Role) : '=' ∉ role.wire.toList := by
  cases role <;> decide

theorem isBesideReading_eq_false_iff {role : Role} {access : Access} :
    role.isBesideReading access = false ↔
      (access = .permit → role ≠ .peeker) ∧ (access = .deny → role ≠ .writer ∧ role ≠ .owner) := by
  cases role <;> cases access <;> decide

end Role

theorem nameForReading?_role (base : String) (role : Role) (access : Access) :
    nameForReading? (base ++ "=" ++ role.wire) access
      = if role.isBesideReading access then none else some base := by
  have chars : (base ++ "=" ++ role.wire).toList = base.toList ++ '=' :: role.wire.toList := by simp
  have known : Role.ofWire? role.wire = some role := Role.ofWire?_eq_some_iff.mpr rfl
  rw [nameForReading?, chars, Text.splitLast_append role.equals_not_mem_wire]
  simp only [String.ofList_toList, known]

theorem nameForReading?_plain {name : String}
    (plain : ∀ (base : String) (role : Role), name ≠ base ++ "=" ++ role.wire) (access : Access) :
    nameForReading? name access = some name := by
  rw [nameForReading?]
  split
  · rfl
  · rename_i base suffix cut
    cases known : Role.ofWire? (String.ofList suffix) with
    | none => rfl
    | some role =>
        have suffix_wire := Role.ofWire?_eq_some_iff.mp known
        refine absurd ?_ (plain (String.ofList base) role)
        apply String.toList_inj.mp
        rw [(Text.splitLast_eq_some_iff.mp cut).1, ← suffix_wire]
        simp

theorem nameWritten_iff {access : Access} {name written : String} :
    NameWritten access name written ↔
      nameForReading? name access = some written ∧ written ≠ "" := by
  constructor
  · intro h
    cases h with
    | role some_char permitted denied =>
        have kept := Role.isBesideReading_eq_false_iff.mpr ⟨permitted, denied⟩
        rw [nameForReading?_role, kept]
        exact ⟨rfl, some_char⟩
    | whole some_char plain => exact ⟨nameForReading?_plain plain access, some_char⟩
  · rintro ⟨found, some_char⟩
    by_cases ends : ∃ (base : String) (role : Role), name = base ++ "=" ++ role.wire
    · obtain ⟨base, role, rfl⟩ := ends
      rw [nameForReading?_role] at found
      cases beside : role.isBesideReading access with
      | true => simp [beside] at found
      | false =>
          obtain ⟨permitted, denied⟩ := Role.isBesideReading_eq_false_iff.mp beside
          rw [beside] at found
          cases found
          exact .role some_char permitted denied
    · simp only [not_exists] at ends
      rw [nameForReading?_plain ends] at found
      cases found
      exact .whole some_char ends

/-- The entry that a value gives, if any: a principal is named by its own name, every other value by
its text without the blanks around it. -/
inductive GivesEntry (scope : Scope) (access : Access) : Value → AclEntry → Prop where
  | principal {p : Principal} {written : String} (name : NameWritten access p.name written) :
      GivesEntry scope access (.principal p) ⟨{ p with name := written }, scope, access⟩
  | text {v : Value} {written : String} (other : ∀ p, v ≠ .principal p)
      (name : NameWritten access (Text.trim v.text) written) :
      GivesEntry scope access v ⟨{ name := written }, scope, access⟩

/-- The entries that values give, in their order: one for every value that gives any. -/
inductive GiveEntries (scope : Scope) (access : Access) : List Value → List AclEntry → Prop where
  | nil : GiveEntries scope access [] []
  | kept {v : Value} {e : AclEntry} {values : List Value} {entries : List AclEntry}
      (first : GivesEntry scope access v e) (rest : GiveEntries scope access values entries) :
      GiveEntries scope access (v :: values) (e :: entries)
  | dropped {v : Value} {values : List Value} {entries : List AclEntry}
      (first : ∀ e, ¬ GivesEntry scope access v e)
      (rest : GiveEntries scope access values entries) :
      GiveEntries scope access (v :: values) entries

namespace AclEntry

variable {scope : Scope} {access : Access}

theorem principalOf_of_other {v : Value} (other : ∀ p, v ≠ .principal p) :
    principalOf v = { name := Text.trim v.text } := by
  cases v with
  | principal p => exact absurd rfl (other p)
  | _ => rfl

theorem ofValue?_eq_some {v : Value} {e : AclEntry} :
    ofValue? scope access v = some e ↔ ∃ written,
      NameWritten access (principalOf v).name written ∧
        e = ⟨{ principalOf v with name := written }, scope, access⟩ := by
  rw [ofValue?]
  simp only [nameWritten_iff]
  cases nameForReading? (principalOf v).name access with
  | none => simp
  | some name =>
      by_cases empty : name = ""
      · simp [empty]
      · simp [empty, eq_comm]

theorem ofValue?_eq_some_iff {v : Value} {e : AclEntry} :
    ofValue? scope access v = some e ↔ GivesEntry scope access v e := by
  rw [ofValue?_eq_some]
  constructor
  · rintro ⟨written, name, rfl⟩
    by_cases structured : ∃ p, v = .principal p
    · obtain ⟨p, rfl⟩ := structured
      exact .principal name
    · simp only [not_exists] at structured
      rw [principalOf_of_other structured] at name ⊢
      exact .text structured name
  · intro gives
    cases gives with
    | principal name => exact ⟨_, name, rfl⟩
    | text other name =>
        rw [principalOf_of_other other]
        exact ⟨_, name, rfl⟩

theorem filterMap_eq_iff {values : List Value} {entries : List AclEntry} :
    values.filterMap (ofValue? scope access) = entries ↔
      GiveEntries scope access values entries := by
  constructor
  · rintro rfl
    induction values with
    | nil => exact .nil
    | cons v values ih =>
        cases given : ofValue? scope access v with
        | none =>
            rw [List.filterMap_cons_none given]
            refine .dropped ?_ ih
            intro e gives
            rw [ofValue?_eq_some_iff.mpr gives] at given
            cases given
        | some e =>
            rw [List.filterMap_cons_some given]
            exact .kept (ofValue?_eq_some_iff.mp given) ih
  · intro give
    induction give with
    | nil => rfl
    | kept first rest ih =>
        rw [List.filterMap_cons_some (ofValue?_eq_some_iff.mpr first), ih]
    | dropped first rest ih =>
        rename_i v values entries
        cases given : ofValue? scope access v with
        | none => rw [List.filterMap_cons_none given, ih]
        | some e => exact absurd (ofValue?_eq_some_iff.mp given) (first e)

/-- An entry as it is written. What holds a default is left out. -/
theorem markup_eq (e : AclEntry) :
    e.markup = "<principal"
      ++ (if e.principal.type = .unknown then ""
        else Markup.attr "principaltype" e.principal.type.wire)
      ++ (if e.principal.namespace = "" then "" else Markup.attr "namespace" e.principal.namespace)
      ++ (if e.principal.caseSensitivity = .sensitive then ""
        else Markup.attr "case-sensitivity-type" e.principal.caseSensitivity.wire)
      ++ Markup.attr "scope" e.scope.wire ++ Markup.attr "access" e.access.wire ++ ">"
      ++ Markup.escape e.principal.name ++ "</principal>\n" := by
  obtain ⟨⟨name, space, type, caseSensitivity⟩, scope, access⟩ := e
  by_cases empty : space = ""
  · subst empty
    cases type <;> cases caseSensitivity <;>
      simp [markup, attributes, Markup.attrs, Markup.optionalAttr, Markup.endTag,
        String.append_assoc]
  · cases type <;> cases caseSensitivity <;>
      simp [markup, attributes, Markup.attrs, Markup.optionalAttr, Markup.endTag,
        String.append_assoc, empty]

end AclEntry

namespace Acl

/-- The entries of one of a document's lists, which has to be read to its end. -/
def HasList (d : Document) (name : String) (scope : Scope) (access : Access)
    (entries : List AclEntry) : Prop :=
  ∃ values, d.values name = .ok values ∧ GiveEntries scope access values entries

variable {l : Location} {d : Document}

theorem listEntries_eq (d : Document) (list : String × Scope × Access) :
    listEntries d list
      = (d.values list.1).map (List.filterMap (AclEntry.ofValue? list.2.1 list.2.2)) := by
  rw [listEntries, Document.values]
  cases d.find list.1 with
  | error e => rfl
  | ok found => cases found <;> rfl

theorem listEntries_eq_ok_iff {name : String} {scope : Scope} {access : Access}
    {entries : List AclEntry} :
    listEntries d (name, scope, access) = .ok entries ↔ HasList d name scope access entries := by
  rw [listEntries_eq, Outcome.map_eq_ok]
  simp only [HasList, ← AclEntry.filterMap_eq_iff]

/-- A list is written from all four lists of the document, in their order. -/
theorem entries_of_ok {a : Acl} (written : Acl.ofDocument l d = .ok a) :
    ∃ users groups denyUsers denyGroups,
      HasList d Property.aclUsers .user .permit users ∧
      HasList d Property.aclGroups .group .permit groups ∧
      HasList d Property.aclDenyUsers .user .deny denyUsers ∧
      HasList d Property.aclDenyGroups .group .deny denyGroups ∧
      a.entries = users ++ groups ++ denyUsers ++ denyGroups := by
  obtain ⟨type, entries, -, -, -, -, listed, flat⟩ := ofDocument_ok.mp written
  obtain ⟨users, _, inUsers, three, rfl⟩ := Outcome.mapM_cons_eq_ok.mp listed
  obtain ⟨groups, _, inGroups, two, rfl⟩ := Outcome.mapM_cons_eq_ok.mp three
  obtain ⟨denyUsers, _, inDenyUsers, one, rfl⟩ := Outcome.mapM_cons_eq_ok.mp two
  obtain ⟨denyGroups, _, inDenyGroups, none_left, rfl⟩ := Outcome.mapM_cons_eq_ok.mp one
  cases none_left
  refine ⟨users, groups, denyUsers, denyGroups, listEntries_eq_ok_iff.mp inUsers,
    listEntries_eq_ok_iff.mp inGroups, listEntries_eq_ok_iff.mp inDenyUsers,
    listEntries_eq_ok_iff.mp inDenyGroups, ?_⟩
  simp [flat]

/-- A list fails if a part of its tag does or one of the document's lists cannot be read to its
end. -/
theorem fails_ofDocument_iff :
    Outcome.Fails (Acl.ofDocument l d) ↔ Outcome.Fails d.declaredType ∨
      (d.declaredType = .ok (some .acl) ∧ Outcome.Fails (l.record d)) ∨
      Outcome.Fails (d.nonEmptyText? Property.aclInheritanceType) ∨ Outcome.Fails (l.parent? d) ∨
      ∃ name ∈ Property.entryLists, Outcome.Fails (d.values name) := by
  have listed : Outcome.Fails (lists.mapM (listEntries d)) ↔
      ∃ name ∈ Property.entryLists, Outcome.Fails (d.values name) := by
    rw [Outcome.fails_mapM]
    simp [listEntries_eq, lists, Property.entryLists]
  rw [ofDocument_eq]
  refine Outcome.fails_bind fun type declared => ?_
  have addressed : Outcome.Fails (if type = some .acl then (l.record d).map some else .ok none) ↔
      d.declaredType = .ok (some .acl) ∧ Outcome.Fails (l.record d) := by
    rw [declared, Except.ok.injEq]
    split
    · rename_i alone
      simp [alone]
    · rename_i nested
      simp [nested]
  rw [← addressed, ← listed]
  refine Outcome.fails_bind fun url _ => Outcome.fails_bind fun inheritanceType _ =>
    Outcome.fails_bind fun inheritFrom _ => ?_
  refine (Outcome.fails_bind fun entries _ => iff_of_false (Outcome.not_fails_ok _) id).trans ?_
  exact or_iff_left id

/-- A list that breaks off after however many values cannot be read to its end. -/
theorem fails_values {name : String} {values : List Value} {failure : RepositoryError}
    (found : d.find name = .ok (some ⟨values, some failure⟩)) : Outcome.Fails (d.values name) := by
  rw [Document.values, found]
  exact ⟨failure, rfl⟩

theorem read_markup (a : Acl) :
    (Markup.tokens? a.markup).bind Markup.acl? = some (a.data, []) := by
  rw [← a.markup_data, Markup.tokens?_allMarkup a.plain_data, Option.bind_some]
  simpa using Markup.acl?_tokens a.data []

/-- Whom an access control list names. The principals are those of the document's four lists in
order, in each list one for every value that gives any; each is written as its name, with what does
not hold a default; and a reader of the markup finds just these. Nothing but a list that breaks off,
or a part of the tag, makes it fail. -/
theorem ofDocument_names (l : Location) (d : Document) :
    (∀ a, Acl.ofDocument l d = .ok a →
      ∃ users groups denyUsers denyGroups,
        HasList d Property.aclUsers .user .permit users ∧
        HasList d Property.aclGroups .group .permit groups ∧
        HasList d Property.aclDenyUsers .user .deny denyUsers ∧
        HasList d Property.aclDenyGroups .group .deny denyGroups ∧
        let entries := users ++ groups ++ denyUsers ++ denyGroups
        a.entries = entries ∧
        a.markup = "<acl" ++ Markup.attrs a.attributes ++ ">\n"
          ++ String.join (entries.map AclEntry.markup) ++ "</acl>\n" ∧
        (∀ e ∈ entries, e.markup = "<principal"
          ++ (if e.principal.type = .unknown then ""
            else Markup.attr "principaltype" e.principal.type.wire)
          ++ (if e.principal.namespace = "" then ""
            else Markup.attr "namespace" e.principal.namespace)
          ++ (if e.principal.caseSensitivity = .sensitive then ""
            else Markup.attr "case-sensitivity-type" e.principal.caseSensitivity.wire)
          ++ Markup.attr "scope" e.scope.wire ++ Markup.attr "access" e.access.wire ++ ">"
          ++ Markup.escape e.principal.name ++ "</principal>\n") ∧
        (Markup.tokens? a.markup).bind Markup.acl?
          = some (⟨Markup.present a.attributes, entries.map AclEntry.data⟩, [])) ∧
    (∀ name ∈ Property.entryLists, ∀ values failure,
      d.find name = .ok (some ⟨values, some failure⟩) → Outcome.Fails (Acl.ofDocument l d)) ∧
    (Outcome.Fails (Acl.ofDocument l d) ↔ Outcome.Fails d.declaredType ∨
      (d.declaredType = .ok (some .acl) ∧ Outcome.Fails (l.record d)) ∨
      Outcome.Fails (d.nonEmptyText? Property.aclInheritanceType) ∨ Outcome.Fails (l.parent? d) ∨
      ∃ name ∈ Property.entryLists, Outcome.Fails (d.values name)) := by
  refine ⟨?_, ?_, fails_ofDocument_iff⟩
  · intro a written
    obtain ⟨users, groups, denyUsers, denyGroups, inUsers, inGroups, inDenyUsers, inDenyGroups,
      whole⟩ := entries_of_ok written
    refine ⟨users, groups, denyUsers, denyGroups, inUsers, inGroups, inDenyUsers, inDenyGroups,
      whole, ?_, fun e _ => e.markup_eq, ?_⟩
    · rw [← whole]
      rfl
    · rw [a.read_markup, Acl.data, whole]
  · intro name listed values failure found
    apply fails_ofDocument_iff.mpr
    exact .inr (.inr (.inr (.inr ⟨name, listed, fails_values found⟩)))

/-- Names with a role, with more than one equals sign and with blanks, and a list that breaks off.
-/
theorem ofDocument_names_with_roles :
    let l : Location := { dataSource := "hr", feedType := .content }
    let pairs : List (String × Value) :=
      [(Property.aclDenyUsers, .string "mallory=owner"),
        (Property.aclDenyUsers, .string "eve=reader "),
        (Property.aclUsers, .string "ann=peeker"), (Property.aclUsers, .string "=reader"),
        (Property.aclUsers, .principal { name := " bob=x=owner", «namespace» := "n" })]
    let d := (PropertyTable.ofPairs pairs).toDocument
    let broken : Document :=
      { d with find := fun _ => .ok (some ⟨[.string "ann"], some (.document "lost")⟩) }
    Outcome.Fails (Acl.ofDocument l broken) ∧
      ∃ a users groups denyUsers denyGroups, Acl.ofDocument l d = .ok a ∧
        HasList d Property.aclUsers .user .permit users ∧
        HasList d Property.aclDenyUsers .user .deny denyUsers ∧
        (users ++ groups ++ denyUsers ++ denyGroups).map (fun e => e.principal.name)
          = [" bob=x", "eve"] := by
  intro l pairs d broken
  have names : (Acl.ofDocument l d).toOption.map (fun a => a.entries.map fun e => e.principal.name)
      = some [" bob=x", "eve"] := by decide +kernel
  obtain ⟨a, found, written⟩ := Option.map_eq_some_iff.mp names
  rw [Outcome.toOption_eq_some] at found
  obtain ⟨users, groups, denyUsers, denyGroups, inUsers, -, inDenyUsers, -, whole, -⟩ :=
    (ofDocument_names l d).1 a found
  refine ⟨?_, a, users, groups, denyUsers, denyGroups, found, inUsers, inDenyUsers, ?_⟩
  · exact (ofDocument_names l broken).2.1 Property.aclUsers (by decide) _ _ rfl
  · rw [← whole, written]

end Acl

end IndexFeed
