import IndexFeed.Proofs.Calendar
import IndexFeed.Proofs.Document.Views
import IndexFeed.Proofs.Markup.Element
import IndexFeed.Proofs.Metadata
import IndexFeed.Proofs.Text.Normalize

/-!
What metadata holds. Every name that is listed and may be shown is looked up once, in ascending
order, and every one of its values that has a text is a pair. Of a stack of views it matters only
whether there is one among them that shows access control alone, since that leaves nothing for
metadata.
-/

namespace IndexFeed

open Calendar (Timestamp)

/-- The text of a value in metadata. Bytes and streams have none. -/
inductive Value.ShownAs : Value → String → Prop where
  | string (s : String) : ShownAs (.string s) s
  | boolean (flag : Bool) : ShownAs (.boolean flag) (if flag then "true" else "false")
  | integer (n : Int64) : ShownAs (.integer n) (Decimal.ofInt n.toInt)
  | real (x : Float) : ShownAs (.real x) (Decimal.ofFloat x)
  | date {t : Timestamp} {text : String} (written : t.date.WrittenAs text) : ShownAs (.date t) text
  | principal (p : Principal) : ShownAs (.principal p) p.name

theorem Value.metadataText?_eq_some_iff {v : Value} {text : String} :
    v.metadataText? = some text ↔ v.ShownAs text := by
  constructor
  · intro shown
    cases v with
    | date t =>
        cases shown
        exact .date ((Calendar.Date.writtenAs_iff (Calendar.ofDays_spec _).1).mpr rfl)
    | binary bytes => cases shown
    | stream s => cases shown
    | string s =>
        cases shown
        exact .string s
    | boolean flag =>
        cases shown
        exact .boolean flag
    | integer n =>
        cases shown
        exact .integer n
    | real x =>
        cases shown
        exact .real x
    | principal p =>
        cases shown
        exact .principal p
  · intro shown
    cases shown with
    | date written =>
        rw [(Calendar.Date.writtenAs_iff (Calendar.ofDays_spec _).1).mp written]
        rfl
    | _ => rfl

theorem Document.flag_eq_false_iff {d : Document} {name : String} {flag : Bool}
    (read : d.flag name true = .ok flag) :
    flag = false ↔ ∃ v, d.value? name = .ok (some v) ∧ v.toBool = .ok false := by
  obtain ⟨v?, first, value⟩ := Outcome.bind_eq_ok.mp read
  rw [first]
  cases v? with
  | none =>
      cases value
      simp
  | some v =>
      have value : v.toBool = .ok flag := value
      simp [value]

namespace AclView

variable {view : AclView} {d : Document} {below : String → Prop} {name : String}

/-- What no view takes away, except the one that shows access control alone. -/
theorem keeps_of_plain (other : view ≠ .extract) (plain : Property.isAcl name = false) :
    view.keeps name = true := by
  cases view with
  | extract => exact absurd rfl other
  | strip => simp [keeps, plain]
  | inherit => simp [keeps, plain]

/-- No view adds a name that metadata may hold. -/
theorem below_of_shows (shows : view.Shows below name) (plain : Property.isWithheld name = false) :
    below name := by
  cases view with
  | strip => exact shows.2
  | extract =>
      obtain ⟨-, below⟩ | rfl | rfl := shows
      · exact below
      · exact absurd plain (by decide)
      · exact absurd plain (by decide)
  | inherit =>
      obtain ⟨-, below⟩ | ⟨rfl, -⟩ | rfl := shows
      · exact below
      · exact absurd plain (by decide)
      · exact absurd plain (by decide)

theorem names_apply_map (view : AclView) (d : Document) {α : Type} (a : α) :
    ((view.apply d).names.map fun _ => a) = d.names.map fun _ => a := by
  obtain ⟨listing, lists, -⟩ := view.names_apply
  rw [lists]
  cases d.names <;> rfl

end AclView

/-- A document of which metadata can hold nothing, not even that access control is kept. -/
structure Document.HasNoMetadata (d : Document) : Prop where
  names : ∀ listed, d.names = .ok listed → ∀ name ∈ listed, Property.isWithheld name = true
  overwrites : d.find Property.overwriteAcls = .ok none

namespace Document.HasNoMetadata

variable {d : Document}

theorem extractedAcl (d : Document) : d.extractedAcl.HasNoMetadata where
  names listed read name member := by
    obtain ⟨below, -, rfl⟩ := Outcome.map_eq_ok.mp read
    have others : ∀ name ∈ [Property.docid, Property.searchUrl, Property.documentType,
        Property.fragment], Property.isWithheld name = true := by decide
    simp only [List.mem_append, List.mem_filter, isKeptInExtract, Bool.or_eq_true, beq_iff_eq,
      List.mem_cons, List.not_mem_nil, or_false] at member
    obtain ⟨-, (acl | rfl) | rfl⟩ | rfl | rfl := member
    · simp [Property.isWithheld, acl]
    all_goals exact others _ (by simp)
  overwrites := rfl

theorem apply (h : d.HasNoMetadata) (view : AclView) : (view.apply d).HasNoMetadata where
  names listed read name member := by
    obtain ⟨listing, lists, shows⟩ := view.names_apply
    rw [lists] at read
    obtain ⟨below, below_read, rfl⟩ := Outcome.map_eq_ok.mp read
    by_contra plain
    rw [Bool.not_eq_true] at plain
    have listed := AclView.below_of_shows ((shows below name).mp member) plain
    rw [h.names below below_read name listed] at plain
    cases plain
  overwrites := by
    by_cases extract : view = .extract
    · rw [extract]
      exact (extractedAcl d).overwrites
    · rw [AclView.find_apply_of_keeps (AclView.keeps_of_plain extract (by decide)), h.overwrites]

theorem viewed (h : d.HasNoMetadata) (views : List AclView) : (d.viewed views).HasNoMetadata := by
  induction views generalizing d with
  | nil => exact h
  | cons view views ih => exact ih (h.apply view)

end Document.HasNoMetadata

theorem Document.names_viewed_map (d : Document) (views : List AclView) {α : Type} (a : α) :
    ((d.viewed views).names.map fun _ => a) = d.names.map fun _ => a := by
  induction views generalizing d with
  | nil => rfl
  | cons view views ih => exact (ih (view.apply d)).trans (view.names_apply_map d a)

namespace Metadata

variable {d : Document} {m : Metadata}

theorem textOf?_eq_some_iff {v : Value} {text : String} :
    textOf? v = some text ↔ v.ShownAs text ∧ Text.trim text ≠ "" := by
  rw [textOf?, Option.filter_eq_some_iff, Value.metadataText?_eq_some_iff, Bool.not_eq_true',
    ← Bool.not_eq_true, Text.isBlankText_iff]

theorem pairMarkup_eq (pair : String × String) :
    pairMarkup pair = "<meta name=\"" ++ Markup.escape pair.1 ++ "\" content=\""
      ++ Markup.escape pair.2 ++ "\"/>\n" := by
  rw [← String.toList_inj]
  simp [pairMarkup, Markup.attr]

theorem markup_eq (m : Metadata) :
    m.markup = "<metadata" ++ (if m.overwritesAcl then "" else " overwrite-acls=\"false\"") ++ ">\n"
      ++ String.join (m.pairs.map pairMarkup) ++ "</metadata>\n" := by
  have tag : Markup.attrs m.attributes
      = if m.overwritesAcl then "" else " overwrite-acls=\"false\"" := by
    cases overwrites : m.overwritesAcl <;> simp [attributes, overwrites] <;> decide
  rw [markup, tag]
  rfl

theorem read_markup (m : Metadata) :
    (Markup.tokens? m.markup).bind Markup.metadata? = some (m.data, []) := by
  rw [← m.markup_data, Markup.tokens?_allMarkup m.plain_data, Option.bind_some]
  simpa using Markup.metadata?_tokens m.data []

/-- There is one tag for every pair. -/
theorem count_markup (m : Metadata) :
    (Markup.tokens? m.markup).map (List.countP fun t => t.word == "meta") = some m.count := by
  have pairs : (m.pairs.map Markup.pairToken).countP (fun t => t.word == "meta") = m.count := by
    rw [List.countP_map]
    exact List.countP_eq_length.mpr fun _ _ => rfl
  have start : ("metadata" == "meta") = false := by decide
  rw [← m.markup_data, Markup.tokens?_allMarkup m.plain_data, Option.map_some]
  simp [data, Markup.MetadataData.tokens, Markup.endToken, pairs, start]

/-- The names that are looked up for metadata. -/
theorem mem_shown_iff {listed : List String} {name : String} :
    name ∈ (sortedNames listed).filter (fun n => !Property.isWithheld n) ↔
      name ∈ listed ∧ name ∉ Property.withheld ∧ name ∉ Property.accessNames := by
  simp [mem_sortedNames, Property.isWithheld, Property.isAcl]

theorem ofDocument_ok (written : Metadata.ofDocument d = .ok m) :
    ∃ listed, d.flag Property.overwriteAcls true = .ok m.overwritesAcl ∧ d.names = .ok listed ∧
      let shown := (sortedNames listed).filter fun n => !Property.isWithheld n
      (∀ name ∈ shown, ∃ values, d.values name = .ok values) ∧
      m.pairs = shown.flatMap fun name =>
        (((d.values name).toOption.getD []).filterMap textOf?).map fun text => (name, text) := by
  obtain ⟨overwrites, flag, written⟩ := Outcome.bind_eq_ok.mp written
  obtain ⟨listed, names, written⟩ := Outcome.bind_eq_ok.mp written
  obtain ⟨pairs, read, written⟩ := Outcome.bind_eq_ok.mp written
  cases written
  refine ⟨listed, flag, names, ?_⟩
  intro shown
  have each : ∀ name ∈ shown, ∃ values, d.values name = .ok values := by
    intro name member
    cases held : d.values name with
    | ok values => exact ⟨values, rfl⟩
    | error e =>
        have fails : Outcome.Fails (shown.mapM (pairsOf d)) :=
          Outcome.fails_mapM.mpr ⟨name, member, by simp [pairsOf, held]⟩
        exact absurd fails (Outcome.not_fails_of_ok read)
  refine ⟨each, ?_⟩
  have given : shown.mapM (pairsOf d) = .ok (shown.map fun name =>
      (((d.values name).toOption.getD []).filterMap textOf?).map fun text => (name, text)) := by
    apply Outcome.mapM_eq_ok
    intro name member
    obtain ⟨values, held⟩ := each name member
    rw [pairsOf, held, List.map_filterMap]
    rfl
  rw [given] at read
  cases read
  rw [List.flatMap_def]

theorem ofDocument_apply {view : AclView} (other : view ≠ .extract) (d : Document) :
    Metadata.ofDocument (view.apply d) = Metadata.ofDocument d := by
  refine ofDocument_congr (view.apply_agreesOn d) ?_ (AclView.keeps_of_plain other (by decide))
  intro name plain
  rw [Property.isWithheld, Bool.or_eq_false_iff] at plain
  exact AclView.keeps_of_plain other plain.2

theorem ofDocument_of_hasNoMetadata (h : d.HasNoMetadata) :
    Metadata.ofDocument d = d.names.map fun _ => {} := by
  have flag : d.flag Property.overwriteAcls true = .ok true := by
    rw [Document.flag, Document.value?, h.overwrites]
    rfl
  rw [ofDocument, flag]
  cases read : d.names with
  | error e => rfl
  | ok listed =>
      have none_shown : (sortedNames listed).filter (fun n => !Property.isWithheld n) = [] := by
        rw [List.filter_eq_nil_iff]
        intro name member
        simp [h.names listed read name (mem_sortedNames.mp member)]
      simp only [Outcome.ok_bind, none_shown]
      rfl

theorem ofDocument_viewed (d : Document) (views : List AclView) :
    Metadata.ofDocument (d.viewed views)
      = if .extract ∈ views then d.names.map fun _ => {} else Metadata.ofDocument d := by
  induction views generalizing d with
  | nil => rfl
  | cons view views ih =>
      by_cases extract : view = .extract
      · subst extract
        have bare := (Document.HasNoMetadata.extractedAcl d).viewed views
        rw [if_pos (by simp), ← d.names_viewed_map (.extract :: views)]
        exact ofDocument_of_hasNoMetadata bare
      · have later : AclView.extract ∈ view :: views ↔ AclView.extract ∈ views := by
          simp [Ne.symm extract]
        have below : Metadata.ofDocument (d.viewed (view :: views))
            = Metadata.ofDocument ((view.apply d).viewed views) := rfl
        simp only [below, ih, later, ofDocument_apply extract, view.names_apply_map]

/-- What metadata holds under any stack of views. It has a pair for every value with a text that is
not blank, of every name that is listed, found and not reserved; the names ascend, and the values of
a name keep their order. A reader of the markup finds just these pairs. One view leaves nothing for
metadata, and the others have no effect on it. -/
theorem ofDocument_pairs (d : Document) (views : List AclView) :
    (Metadata.ofDocument (d.viewed views)
      = if .extract ∈ views then d.names.map fun _ => {} else Metadata.ofDocument d) ∧
    (∀ v text, textOf? v = some text ↔ v.ShownAs text ∧ Text.trim text ≠ "") ∧
    (∀ t : Timestamp, t.date.isValid = true ∧ t.date.toDays = t.days) ∧
    ∀ m, Metadata.ofDocument (d.viewed views) = .ok m →
      ∃ (listed names : List String) (values : String → List Value),
        (d.viewed views).names = .ok listed ∧
        names.Pairwise (· < ·) ∧
        (∀ name, name ∈ names ↔
          name ∈ listed ∧ name ∉ Property.withheld ∧ name ∉ Property.accessNames) ∧
        (∀ name ∈ names,
          (∃ p, (d.viewed views).find name = .ok (some p) ∧ p.all = .ok (values name)) ∨
          (d.viewed views).find name = .ok none ∧ values name = []) ∧
        m.pairs = names.flatMap (fun name =>
          ((values name).filterMap textOf?).map fun text => (name, text)) ∧
        (∀ pair ∈ m.pairs, pair.1 ∉ Property.withheld ∧ pair.1 ∉ Property.accessNames) ∧
        m.markup = "<metadata" ++ (if m.overwritesAcl then "" else " overwrite-acls=\"false\"")
          ++ ">\n" ++ String.join (m.pairs.map fun pair => "<meta name=\"" ++ Markup.escape pair.1
            ++ "\" content=\"" ++ Markup.escape pair.2 ++ "\"/>\n") ++ "</metadata>\n" ∧
        (m.overwritesAcl = false ↔ ∃ v,
          (d.viewed views).value? Property.overwriteAcls = .ok (some v) ∧ v.toBool = .ok false) ∧
        (Markup.tokens? m.markup).bind Markup.metadata?
          = some (⟨Markup.present m.attributes, m.pairs⟩, []) ∧
        (Markup.tokens? m.markup).map (List.countP fun t => t.word == "meta") = some m.count := by
  refine ⟨ofDocument_viewed d views, fun v text => textOf?_eq_some_iff,
    fun t => Calendar.ofDays_spec t.days, fun m written => ?_⟩
  obtain ⟨listed, flag, names, each, pairs⟩ := ofDocument_ok written
  refine ⟨listed, _, fun name => ((d.viewed views).values name).toOption.getD [], names,
    filter_sortedNames_ascend _ listed, fun name => mem_shown_iff, ?_, pairs, ?_, ?_,
    Document.flag_eq_false_iff flag, m.read_markup, m.count_markup⟩
  · intro name member
    obtain ⟨values, held⟩ := each name member
    obtain ⟨found, property, all⟩ := Outcome.bind_eq_ok.mp held
    simp only [held]
    cases found with
    | none =>
        cases all
        exact .inr ⟨property, rfl⟩
    | some p => exact .inl ⟨p, property, all⟩
  · intro pair member
    rw [pairs] at member
    obtain ⟨name, shown, given⟩ := List.mem_flatMap.mp member
    obtain ⟨text, -, rfl⟩ := List.mem_map.mp given
    exact (mem_shown_iff.mp shown).2
  · rw [markup_eq, show pairMarkup = _ from funext pairMarkup_eq]

/-- Values of every kind under names that are listed out of order, one of them without a property.
-/
theorem ofDocument_pairs_of_mixed_values :
    let d := (PropertyTable.ofPairs
      [(Property.docid, .string "a"), ("b", .string " x "), ("b", .binary [65]), ("b", .string " "),
        ("b", .date ⟨1709164800, 0⟩), ("b", .boolean true), (Property.aclUsers, .string "eve"),
        (Property.overwriteAcls, .string "no"), ("B", .integer 7)]).toDocument.listing ["absent"]
    let views : List AclView := [.inherit, .strip]
    ∃ (m : Metadata) (listed names : List String), Metadata.ofDocument (d.viewed views) = .ok m ∧
      m.pairs = [("B", "7"), ("b", " x "), ("b", "2024-02-29"), ("b", "true")] ∧
      m.overwritesAcl = false ∧ m.count = 4 ∧ (d.viewed views).names = .ok listed ∧
      "absent" ∈ names ∧ names.Pairwise (· < ·) ∧
      (Markup.tokens? m.markup).map (List.countP fun t => t.word == "meta") = some 4 := by
  intro d views
  let listed := [Property.docid, "b", Property.overwriteAcls, "B", "absent"]
  have shown : (sortedNames listed).filter (fun n => !Property.isWithheld n)
      = ["B", "absent", "b"] := by
    refine filter_sortedNames_eq (fun name => ⟨fun member => ?_, fun member => ?_⟩) (by decide)
    · exact (by decide : ∀ n ∈ ["B", "absent", "b"],
        n ∈ listed.filter fun n => !Property.isWithheld n) name member
    · exact (by decide : ∀ n ∈ listed.filter fun n => !Property.isWithheld n,
        n ∈ ["B", "absent", "b"]) name member
  have pairs : (["B", "absent", "b"].mapM (pairsOf (d.viewed views))).toOption
      = some [[("B", "7")], [], [("b", " x "), ("b", "2024-02-29"), ("b", "true")]] := by
    decide +kernel
  have written : Metadata.ofDocument (d.viewed views) = .ok
      ⟨false, [("B", "7"), ("b", " x "), ("b", "2024-02-29"), ("b", "true")]⟩ := by
    have flag : (d.viewed views).flag Property.overwriteAcls true = .ok false := rfl
    have names : (d.viewed views).names = .ok listed := rfl
    rw [ofDocument, flag, names]
    simp only [Outcome.ok_bind, shown, Outcome.toOption_eq_some.mp pairs]
    rfl
  obtain ⟨listed, names, values, read, ascend, shown, -, -, -, -, -, -, count⟩ :=
    (ofDocument_pairs d views).2.2.2 _ written
  refine ⟨_, listed, names, written, rfl, rfl, rfl, read, ?_, ascend, count⟩
  refine (shown "absent").mpr ⟨?_, by decide, by decide⟩
  cases read
  decide

end Metadata

end IndexFeed
