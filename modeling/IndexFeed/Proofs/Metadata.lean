import IndexFeed.Metadata
import IndexFeed.Proofs.Document.Agreement

/-!
What metadata depends on. The names of a document are put in order, so that it does not matter how
they were listed; and neither reserved names nor those of access control are looked up.
-/

namespace IndexFeed

open Document (AgreesOn)

theorem nodup_eraseDups : (names : List String) → names.eraseDups.Nodup
  | [] => by simp
  | name :: rest => by
    rw [List.eraseDups_cons, List.nodup_cons]
    have shorter := List.length_filter_le (fun other => !other == name) rest
    refine ⟨?_, nodup_eraseDups (rest.filter fun other => !other == name)⟩
    simp [List.mem_eraseDups]
termination_by names => names.length

theorem mem_sortedNames {names : List String} {name : String} :
    name ∈ sortedNames names ↔ name ∈ names := by
  rw [sortedNames, List.mem_mergeSort, List.mem_eraseDups]

theorem nodup_sortedNames (names : List String) : (sortedNames names).Nodup :=
  (List.mergeSort_perm _ _).nodup_iff.mpr (nodup_eraseDups names)

theorem filter_sortedNames_ascend (shown : String → Bool) (names : List String) :
    ((sortedNames names).filter shown).Pairwise (· < ·) := by
  have ascend : (sortedNames names).Pairwise fun a b => decide (a ≤ b) = true := by
    apply List.pairwise_mergeSort
    · intro a b c below above
      rw [decide_eq_true_eq] at below above ⊢
      exact String.le_trans below above
    · intro a b
      rw [Bool.or_eq_true, decide_eq_true_eq, decide_eq_true_eq]
      exact String.le_total a b
  refine ((ascend.and (nodup_sortedNames names)).filter shown).imp fun {a b} below => ?_
  apply Decidable.byContradiction
  intro above
  exact below.2 (String.le_antisymm (of_decide_eq_true below.1) (String.not_lt.mp above))

/-- There is one way to put the names that are shown in ascending order. -/
theorem filter_sortedNames_eq {shown : String → Bool} {names sorted : List String}
    (same : ∀ name, name ∈ sorted ↔ name ∈ names.filter shown) (ascend : sorted.Pairwise (· < ·)) :
    (sortedNames names).filter shown = sorted := by
  have members : ∀ name, name ∈ (sortedNames names).filter shown ↔ name ∈ sorted := by
    intro name
    rw [same, List.mem_filter, List.mem_filter, mem_sortedNames]
  have distinct : sorted.Nodup := by
    refine ascend.imp fun {a b} below => ?_
    rintro rfl
    exact String.lt_irrefl a below
  have permuted := (List.perm_ext_iff_of_nodup ((nodup_sortedNames names).filter shown)
    distinct).mpr members
  refine permuted.eq_of_pairwise ?_ (filter_sortedNames_ascend shown names) ascend
  intro a b _ _ below above
  exact absurd above (String.lt_asymm below)

/-- What of the sorted names is shown depends only on which of the shown names there are. -/
theorem filter_sortedNames_congr {shown : String → Bool} {names' names : List String}
    (same : ∀ name, shown name = true → (name ∈ names' ↔ name ∈ names)) :
    (sortedNames names').filter shown = (sortedNames names).filter shown := by
  refine filter_sortedNames_eq (fun name => ?_) (filter_sortedNames_ascend shown names)
  rw [List.mem_filter, List.mem_filter, mem_sortedNames]
  exact and_congr_left fun kept => (same name kept).symm

namespace Metadata

variable {shown : String → Bool} {d d' : Document}

theorem pairsOf_congr {name : String} (same : d'.find name = d.find name) :
    pairsOf d' name = pairsOf d name := by
  rw [pairsOf, pairsOf, Document.values_congr same]

/-- Metadata is the same for documents that agree on all names that appear in it, and on whether
access control is overwritten. -/
theorem ofDocument_congr (agrees : AgreesOn shown d' d)
    (covers : ∀ name, Property.isWithheld name = false → shown name = true)
    (overwrites : shown Property.overwriteAcls = true) :
    Metadata.ofDocument d' = Metadata.ofDocument d := by
  rw [ofDocument, ofDocument, Document.flag_congr (agrees.find _ overwrites)]
  cases agrees.names with
  | failed read' read =>
      rw [read', read]
      cases d.flag Property.overwriteAcls true <;> rfl
  | @listed names' names read' read same =>
      have listed : (sortedNames names').filter (fun n => !Property.isWithheld n)
          = (sortedNames names).filter fun n => !Property.isWithheld n :=
        filter_sortedNames_congr fun name kept => same name (covers name (by simpa using kept))
      have pairs : ((sortedNames names).filter fun n => !Property.isWithheld n).mapM (pairsOf d')
          = ((sortedNames names).filter fun n => !Property.isWithheld n).mapM (pairsOf d) := by
        apply Outcome.mapM_congr
        intro name member
        have kept := (List.mem_filter.mp member).2
        exact pairsOf_congr (agrees.find name (covers name (by simpa using kept)))
      rw [read', read]
      simp only [Outcome.ok_bind, listed, pairs]

/-- Metadata holds nothing of the access control, hidden or not. -/
theorem ofDocument_withoutAcl (d : Document) :
    Metadata.ofDocument d.withoutAcl = Metadata.ofDocument d := by
  refine ofDocument_congr d.withoutAcl_agreesOn ?_ ?_
  · intro name kept
    simp_all [Property.isWithheld]
  · rw [Property.isAcl_withheld (by simp [Property.withheld])]
    rfl

end Metadata

end IndexFeed
