import IndexFeed.Proofs.Document.Agreement
import IndexFeed.Proofs.Document.Table

/-!
Stacks of views. Which names a view shows follows from the names that are there below it, and the
rule is the same for listing names and for finding properties; so a stack of views lists what it
finds if the document does. What a view depends on it shows as it is; so a view over another one
that keeps as much comes to the same as that view alone.
-/

namespace IndexFeed

namespace Document

def Finds (d : Document) (name : String) : Prop := ∃ p, d.find name = .ok (some p)

/-- The names of the document can be listed, and are those under which it finds a property. -/
def ListsWhatItFinds (d : Document) : Prop :=
  ∃ names, d.names = .ok names ∧ ∀ name, name ∈ names ↔ d.Finds name

end Document

open Document (AgreesOn ListsAlike isKeptInExtract)

namespace AclView

variable {view : AclView} {d d' : Document} {below below' : String → Prop} {name : String}

/-- Whether a view shows a name, given the names that are there below it. -/
def Shows (below : String → Prop) (name : String) : AclView → Prop
  | strip => Property.isAcl name = false ∧ below name
  | extract =>
    (isKeptInExtract name = true ∧ below name) ∨ name = Property.documentType ∨
      name = Property.fragment
  | inherit =>
    (Property.isAcl name = false ∧ below name) ∨
      (name = Property.aclInheritFromDocid ∧ below Property.docid) ∨
      name = Property.aclInheritFromFragment

theorem finds_apply (view : AclView) (d : Document) (name : String) :
    (view.apply d).Finds name ↔ view.Shows d.Finds name := by
  cases view with
  | strip =>
      cases acl : Property.isAcl name <;>
        simp [Document.Finds, apply, Document.withoutAcl, Shows, acl]
  | extract =>
      by_cases type : name = Property.documentType
      · subst type
        exact iff_of_true ⟨_, rfl⟩ (.inr (.inl rfl))
      · by_cases fragment : name = Property.fragment
        · subst fragment
          exact iff_of_true ⟨_, rfl⟩ (.inr (.inr rfl))
        · cases kept : isKeptInExtract name <;>
            simp [Document.Finds, apply, Document.extractedAcl, Shows, type, fragment, kept]
  | inherit =>
      by_cases docid : name = Property.aclInheritFromDocid
      · subst docid
        have acl : Property.isAcl Property.aclInheritFromDocid = true := by decide
        have other : Property.aclInheritFromDocid ≠ Property.aclInheritFromFragment := by decide
        simp [Document.Finds, apply, d.find_inheritingExtract_docid, Shows, acl, other]
      · by_cases fragment : name = Property.aclInheritFromFragment
        · subst fragment
          exact iff_of_true ⟨_, rfl⟩ (.inr (.inr rfl))
        · cases acl : Property.isAcl name <;>
            simp [Document.Finds, apply, Document.inheritingExtract, Shows, docid, fragment, acl]

theorem names_apply (view : AclView) : ∃ listing : List String → List String,
    (∀ d, (view.apply d).names = d.names.map listing) ∧
      ∀ names name, name ∈ listing names ↔ view.Shows (· ∈ names) name := by
  cases view with
  | strip => exact ⟨_, fun d => rfl, by simp [Shows, and_comm]⟩
  | extract => exact ⟨_, fun d => rfl, by simp [Shows, and_comm]⟩
  | inherit =>
      refine ⟨_, fun d => rfl, fun names name => ?_⟩
      by_cases docid : Property.docid ∈ names <;> simp [Shows, docid, and_comm]

end AclView

theorem Document.ListsWhatItFinds.viewed {d : Document} (h : d.ListsWhatItFinds)
    (views : List AclView) : (d.viewed views).ListsWhatItFinds := by
  induction views generalizing d with
  | nil => exact h
  | cons view views ih =>
      obtain ⟨names, listed, same⟩ := h
      obtain ⟨listing, lists, shows⟩ := view.names_apply
      refine ih ⟨listing names, by rw [lists, listed]; rfl, fun name => ?_⟩
      rw [shows, view.finds_apply, show (· ∈ names) = d.Finds from funext fun n => propext (same n)]

namespace AclView

variable {view : AclView} {d d' : Document} {below below' : String → Prop} {name : String}

/-- The names under which a view shows what the document below it has. -/
def keeps : AclView → String → Bool
  | strip, name | inherit, name => !Property.isAcl name
  | extract, name => isKeptInExtract name

theorem shows_congr (same : ∀ name, view.keeps name = true → (below' name ↔ below name)) :
    view.Shows below' name ↔ view.Shows below name := by
  cases view with
  | strip => exact and_congr_right fun plain => same name (by simp [keeps, plain])
  | extract => exact or_congr_left (and_congr_right fun kept => same name kept)
  | inherit =>
      refine or_congr (and_congr_right fun plain => same name (by simp [keeps, plain]))
        (or_congr_left (and_congr_right fun _ => same Property.docid (by decide)))

theorem shows_of_keeps (kept : view.keeps name = true) : view.Shows below name ↔ below name := by
  cases view with
  | strip => simp_all [keeps, Shows]
  | extract =>
      have added : ¬ (name = Property.documentType ∨ name = Property.fragment) := by
        rintro (rfl | rfl) <;> (revert kept; decide)
      rw [Shows, or_iff_left added, and_iff_right (show isKeptInExtract name = true from kept)]
  | inherit =>
      have added : ¬ (name = Property.aclInheritFromDocid ∨
          name = Property.aclInheritFromFragment) := by
        rintro (rfl | rfl) <;> (revert kept; decide)
      simp_all [keeps, Shows]

theorem find_apply_of_keeps (kept : view.keeps name = true) :
    (view.apply d).find name = d.find name := by
  cases view with
  | strip => exact d.find_withoutAcl name (by simpa [keeps] using kept)
  | extract => exact d.find_extractedAcl kept
  | inherit => exact d.find_inheritingExtract_other (by simpa [keeps] using kept)

/-- A view shows as it is what it keeps. -/
theorem apply_agreesOn (view : AclView) (d : Document) : AgreesOn view.keeps (view.apply d) d where
  find name kept := find_apply_of_keeps kept
  names := by
    obtain ⟨listing, lists, shows⟩ := view.names_apply
    cases read : d.names with
    | error e => exact .failed (by rw [lists, read]; rfl) read
    | ok names =>
        refine .listed (by rw [lists, read]; rfl) read fun name kept => ?_
        rw [shows, shows_of_keeps kept]

/-- A view depends on nothing but what it keeps. -/
theorem apply_congr (agrees : AgreesOn view.keeps d' d) :
    AgreesOn (fun _ => true) (view.apply d') (view.apply d) where
  find name _ := by
    cases view with
    | strip =>
        simp only [apply, Document.withoutAcl]
        split
        · rfl
        · rename_i plain
          exact agrees.find name (by simp [keeps, plain])
    | extract =>
        simp only [apply, Document.extractedAcl]
        split
        · rfl
        · split
          · rfl
          · split
            · rename_i kept
              exact agrees.find name kept
            · rfl
    | inherit =>
        simp only [apply, Document.inheritingExtract]
        split
        · exact agrees.find Property.docid (by decide)
        · split
          · rfl
          · split
            · rfl
            · rename_i plain
              exact agrees.find name (by simp [keeps, plain])
  names := by
    obtain ⟨listing, lists, shows⟩ := view.names_apply
    refine agrees.names.map (lists d') (lists d) fun names' names same name _ => ?_
    rw [shows, shows]
    exact shows_congr same

/-- Over a view that keeps as much, a view comes to the same as by itself. -/
theorem apply_apply (upper lower : AclView) (d : Document)
    (within : ∀ name, upper.keeps name = true → lower.keeps name = true) :
    AgreesOn (fun _ => true) (upper.apply (lower.apply d)) (upper.apply d) :=
  apply_congr ((lower.apply_agreesOn d).of_fewer within)

end AclView

namespace Document

theorem find_withoutAcl_hidden (d : Document) {name : String} (acl : Property.isAcl name = true) :
    d.withoutAcl.find name = .ok none := by
  simp only [withoutAcl, acl, if_true]

theorem not_mem_names_withoutAcl {d : Document} {names : List String} {name : String}
    (listed : d.withoutAcl.names = .ok names) (acl : Property.isAcl name = true) :
    name ∉ names := by
  obtain ⟨below, -, rfl⟩ := Outcome.map_eq_ok.mp listed
  simp [acl]

/-- A document lists what it finds in every stack of views. A view applied twice comes to the same
as applied once, and of hiding access control and inheriting it only the outer one shows; where it
is hidden above a stack, none of it is listed or found. -/
theorem viewed_lists_and_collapses (d : Document) :
    (d.ListsWhatItFinds → ∀ views, (d.viewed views).ListsWhatItFinds) ∧
    (∀ view : AclView, AgreesOn (fun _ => true) (view.apply (view.apply d)) (view.apply d)) ∧
    AgreesOn (fun _ => true) d.inheritingExtract.withoutAcl d.withoutAcl ∧
    AgreesOn (fun _ => true) d.withoutAcl.inheritingExtract d.inheritingExtract ∧
    ∀ views name, Property.isAcl name = true →
      (d.viewed views).withoutAcl.find name = .ok none ∧
        ∀ names, (d.viewed views).withoutAcl.names = .ok names → name ∉ names := by
  refine ⟨fun lists => lists.viewed, fun view => ?_, ?_, ?_, fun views name acl => ⟨?_, ?_⟩⟩
  · exact AclView.apply_apply view view d fun _ kept => kept
  · exact AclView.apply_apply .strip .inherit d fun _ kept => kept
  · exact AclView.apply_apply .inherit .strip d fun _ kept => kept
  · exact (d.viewed views).find_withoutAcl_hidden acl
  · exact fun names listed => not_mem_names_withoutAcl listed acl

end Document

theorem PropertyTable.listsWhatItFinds (t : PropertyTable) : t.toDocument.ListsWhatItFinds := by
  refine ⟨t.names, rfl, fun name => ?_⟩
  rw [mem_names, has, Document.Finds, toDocument]
  cases held : t.values? name <;> simp [held]

/-- A document with access control, seen through inheritance of the list that is taken out of it. -/
theorem Document.viewed_lists_and_collapses_of_heir :
    let d := (PropertyTable.ofPairs
      [(Property.docid, .string "a"), (Property.aclUsers, .string "eve"),
        ("author", .string "bob")]).toDocument
    let views : List AclView := [.strip, .inherit, .extract, .inherit]
    d.ListsWhatItFinds ∧ (d.viewed views).ListsWhatItFinds ∧
      (d.viewed views).Finds Property.aclInheritFromDocid ∧
      ¬ (d.viewed views).Finds Property.aclUsers ∧ ¬ (d.viewed views).Finds "author" ∧
      AgreesOn (fun _ => true) d.extractedAcl.extractedAcl d.extractedAcl ∧
      (d.viewed views).withoutAcl.find Property.aclInheritFromDocid = .ok none := by
  intro d views
  have lists : d.ListsWhatItFinds := PropertyTable.listsWhatItFinds _
  obtain ⟨viewed, twice, -, -, hidden⟩ := d.viewed_lists_and_collapses
  refine ⟨lists, viewed lists views, ⟨_, rfl⟩, ?_, ?_, twice .extract, (hidden views _ rfl).1⟩
  · rintro ⟨p, found⟩
    cases found
  · rintro ⟨p, found⟩
    cases found

end IndexFeed
