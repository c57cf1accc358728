import IndexFeed.Proofs.Document

/-!
Documents that agree on some of their properties. They find the same under those names, and list the
same of those names, in whatever order and however often. Agreement passes on to the views of two
documents, so that what is read of a view depends on no more than what is read of the document.
-/

namespace IndexFeed.Document

variable {shown : String → Bool} {d d' : Document}

/-- Two documents list the same of the names that are shown, or fail to list their names alike. -/
inductive ListsAlike (shown : String → Bool) (d' d : Document) : Prop where
  | listed {names' names : List String} (read' : d'.names = .ok names') (read : d.names = .ok names)
      (same : ∀ name, shown name = true → (name ∈ names' ↔ name ∈ names))
  | failed {e : RepositoryError} (read' : d'.names = .error e) (read : d.names = .error e)

/-- Names that are made from those of two documents in a way that looks only at the names shown. -/
theorem ListsAlike.map (h : ListsAlike shown d' d) {shown' : String → Bool} {v' v : Document}
    {change : List String → List String} (read' : v'.names = d'.names.map change)
    (read : v.names = d.names.map change)
    (kept : ∀ names' names, (∀ name, shown name = true → (name ∈ names' ↔ name ∈ names)) →
      ∀ name, shown' name = true → (name ∈ change names' ↔ name ∈ change names)) :
    ListsAlike shown' v' v := by
  cases h with
  | listed listed' listed same =>
      rw [listed'] at read'
      rw [listed] at read
      exact .listed read' read (kept _ _ same)
  | failed failed' failed =>
      rw [failed'] at read'
      rw [failed] at read
      exact .failed read' read

/-- Two documents cannot be told apart by the properties that are shown. -/
structure AgreesOn (shown : String → Bool) (d' d : Document) : Prop where
  find : ∀ name, shown name = true → d'.find name = d.find name
  names : ListsAlike shown d' d

namespace AgreesOn

/-- Documents that agree on some names agree on fewer. -/
theorem of_fewer (h : AgreesOn shown d' d) {fewer : String → Bool}
    (within : ∀ name, fewer name = true → shown name = true) : AgreesOn fewer d' d where
  find name kept := h.find name (within name kept)
  names := by
    cases h.names with
    | listed read' read same =>
        exact .listed read' read fun name kept => same name (within name kept)
    | failed read' read => exact .failed read' read

theorem withoutAcl (h : AgreesOn shown d' d) : AgreesOn shown d'.withoutAcl d.withoutAcl where
  find name kept := by simp only [Document.withoutAcl, h.find name kept]
  names := by
    refine h.names.map rfl rfl ?_
    intro names' names same name kept
    rw [List.mem_filter, List.mem_filter, same name kept]

theorem extractedAcl (h : AgreesOn shown d' d) : AgreesOn shown d'.extractedAcl d.extractedAcl where
  find name kept := by simp only [Document.extractedAcl, h.find name kept]
  names := by
    refine h.names.map rfl rfl ?_
    intro names' names same name kept
    simp only [List.mem_append, List.mem_filter, same name kept]

/-- A record inherits by the document's identifier, which has to be shown. -/
theorem inheritingExtract (h : AgreesOn shown d' d) (docid : shown Property.docid = true) :
    AgreesOn shown d'.inheritingExtract d.inheritingExtract where
  find name kept := by
    simp only [Document.inheritingExtract, h.find name kept, h.find _ docid]
  names := by
    refine h.names.map rfl rfl ?_
    intro names' names same name kept
    have identified : names'.contains Property.docid = names.contains Property.docid := by
      rw [Bool.eq_iff_iff, List.contains_iff_mem, List.contains_iff_mem, same _ docid]
    simp only [identified, List.mem_append, List.mem_filter, same name kept]

end AgreesOn

/-- Hiding the access control of a document changes nothing else. -/
theorem withoutAcl_agreesOn (d : Document) :
    AgreesOn (fun name => !Property.isAcl name) d.withoutAcl d where
  find name kept := d.find_withoutAcl name (by simpa using kept)
  names := by
    cases read : d.names with
    | error e => exact .failed (by rw [withoutAcl, read]; rfl) read
    | ok names =>
        refine .listed (by rw [withoutAcl, read]; rfl) read ?_
        intro name kept
        simp [kept]

end IndexFeed.Document
