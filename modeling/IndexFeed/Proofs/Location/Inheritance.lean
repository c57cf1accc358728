import IndexFeed.Proofs.Location
import IndexFeed.Proofs.Protocol

/-!
Inheriting by identifier. A document may name the one whose access control it inherits by identifier
and fragment, and the kind of feed it is found in. Nothing checks that there is such a document; but
if there is, then the address made for the heir is the one under which the other is fed, in whatever
feed the heir is written.
-/

namespace IndexFeed

/-- The kind of feed that is meant by a text, or by none, in a feed of the kind `own`. -/
inductive FeedType.IsMeant (own : FeedType) : Option String → FeedType → Prop
  | named {tag : String} {type : FeedType} (names : type.IsNamedBy tag) :
      IsMeant own (some tag) type
  | unnamed {tag : String} (unknown : ∀ type : FeedType, ¬ type.IsNamedBy tag) :
      IsMeant own (some tag) own
  | absent : IsMeant own none own

theorem FeedType.isMeant_iff {own type : FeedType} {tag : Option String} :
    own.IsMeant tag type ↔ type = (tag.bind find?).getD own := by
  constructor
  · intro meant
    cases meant with
    | named names => rw [Option.bind_some, find?_eq_some_iff.mpr names, Option.getD_some]
    | @unnamed tag unknown =>
        cases found : find? tag with
        | none => rw [Option.bind_some, found, Option.getD_none]
        | some type => exact absurd (find?_eq_some_iff.mp found) (unknown type)
    | absent => rfl
  · rintro rfl
    cases tag with
    | none => exact .absent
    | some tag =>
        cases found : find? tag with
        | none =>
            rw [Option.bind_some, found, Option.getD_none]
            refine .unnamed fun type names => ?_
            rw [find?_eq_some_iff.mpr names] at found
            cases found
        | some type =>
            rw [Option.bind_some, found, Option.getD_some]
            exact .named (find?_eq_some_iff.mp found)

/-- What a document tells about the one that it inherits from, if it gives no address for it. -/
structure Document.InheritsFrom (d : Document) (docid fragment tag : Option String) : Prop where
  unaddressed : d.nonEmptyText? Property.aclInheritFrom = .ok none
  docid : d.text? Property.aclInheritFromDocid = .ok docid
  fragment : d.nonEmptyText? Property.aclInheritFromFragment = .ok fragment
  feedType : d.text? Property.aclInheritFromFeedType = .ok tag

namespace Location

variable {l : Location} {d parent child : Document} {docid fragment tag : Option String}

theorem parent?_eq_ok (named : d.InheritsFrom docid fragment tag) :
    l.parent? d = .ok ((docid.filter (· != "")).map fun docid =>
      l.ofDocid docid ((tag.bind FeedType.find?).getD l.feedType) fragment) := by
  have found : d.nonEmptyText? Property.aclInheritFromDocid = .ok (docid.filter (· != "")) :=
    Outcome.map_eq_ok.mpr ⟨docid, named.docid, rfl⟩
  obtain ⟨raw, read, rfl⟩ := Outcome.map_eq_ok.mp named.fragment
  rw [parent?, named.unaddressed, Outcome.ok_bind, found, Outcome.ok_bind]
  cases docid.filter (· != "") with
  | none => rfl
  | some docid =>
      simp only [named.feedType, read, Outcome.ok_bind, ofDocid_filter, Option.map_some]

/-- A document that inherits by identifier, in a feed of any kind, gets the address that its parent
has in the kind of feed it means, if it names identifier and fragment of that parent; and it gets no
address of a document with another identifier or fragment. -/
theorem heir_meets_record {docid : String} {fragment docid' fragment' tag : Option String}
    (identified : parent.IsIdentifiedBy docid fragment) (filled : docid ≠ "")
    (named : child.InheritsFrom docid' fragment' tag) :
    ∃ type, l.feedType.IsMeant tag type ∧
      (type ≠ .web → ∃ url, ({ l with feedType := type } : Location).record parent = .ok url ∧
        (l.parent? child = .ok (some url) ↔ docid' = some docid ∧ fragment' = fragment)) := by
  refine ⟨_, FeedType.isMeant_iff.mpr rfl, ?_⟩
  rw [parent?_eq_ok named]
  generalize (tag.bind FeedType.find?).getD l.feedType = type
  intro derived
  have fed : ({ l with feedType := type } : Location).record parent
      = .ok (l.ofDocid docid type fragment) :=
    (record_eq_ok derived).mpr ⟨docid, fragment, identified, filled, rfl⟩
  refine ⟨_, fed, ?_⟩
  rw [Except.ok.injEq]
  constructor
  · intro same
    obtain ⟨given, kept, addressed⟩ := Option.map_eq_some_iff.mp same
    obtain ⟨rfl, -⟩ := Option.filter_eq_some_iff.mp kept
    obtain ⟨-, rfl, fragments⟩ := ofDocid_eq addressed
    rw [identified.filter_fragment, Document.filter_of_nonEmptyText? named.fragment] at fragments
    exact ⟨rfl, fragments⟩
  · rintro ⟨rfl, rfl⟩
    simp [Option.filter_some, filled]

/-- The heir is in a web feed and means a content-address feed. Its fragment is empty, the parent
has none, and the values behind the first ones are passed over. -/
theorem heir_meets_record_across_feeds :
    let l : Location := ⟨"hr", .web, some "http://host/get"⟩
    let parent := ({ docid := "x y" } : DocumentDraft).table.toDocument
    let child := (PropertyTable.ofPairs
      [(Property.aclInheritFromDocid, .string "x y"), (Property.aclInheritFromDocid, .string "z"),
        (Property.aclInheritFromFragment, .string ""),
        (Property.aclInheritFromFeedType, .string " ContentURL\n")]).toDocument
    let url := "http://host/get?ConnectorName=hr&docid=x+y"
    parent.IsIdentifiedBy "x y" none ∧
      child.InheritsFrom (some "x y") none (some " ContentURL\n") ∧
      ({ l with feedType := .contentUrl } : Location).record parent = .ok url ∧
        l.parent? child = .ok (some url) := by
  intro l parent child url
  have identified : parent.IsIdentifiedBy "x y" none := ⟨rfl, rfl⟩
  have named : child.InheritsFrom (some "x y") none (some " ContentURL\n") := ⟨rfl, rfl, rfl, rfl⟩
  obtain ⟨type, meant, meets⟩ :=
    heir_meets_record (l := l) identified (by decide) named
  have contentUrl : type = .contentUrl := (FeedType.isMeant_iff.mp meant).trans (by decide)
  subst contentUrl
  obtain ⟨url', fed, inherits⟩ := meets (by decide)
  have same : url' = url := Except.ok.inj (fed.symm.trans rfl)
  subst same
  exact ⟨identified, named, fed, inherits.mpr ⟨rfl, rfl⟩⟩

end Location

end IndexFeed
