import IndexFeed.Proofs.Markup.Legal
import IndexFeed.Proofs.Rules
import IndexFeed.Proofs.Text.Search

/-!
Which characters the elements of a document hold. If the names and the values of a document are
legal, but for its content, and so are the data source and the base of content addresses, then so
are the data of the elements that the document comes to.
-/

namespace IndexFeed

open Markup Outcome

/-- A document whose names are legal and whose values are, those of its content aside. -/
structure Document.IsLegal (d : Document) : Prop where
  names : Gives d.names fun names => ∀ name ∈ names, Text.IsLegal name
  values : ∀ name, name ≠ Property.content →
    Gives (d.find name) fun found => ∀ p ∈ found, ∀ v ∈ p.values, v.IsLegal

/-- A location whose data source and base of content addresses are legal. -/
structure Location.IsLegal (l : Location) : Prop where
  dataSource : Text.IsLegal l.dataSource
  contentBase : ∀ base ∈ l.contentBase, Text.IsLegal base

/-- The values of a property that are looked at are those that it lists. -/
theorem PropertyValues.gives_all (p : PropertyValues) :
    Gives p.all fun values => values = p.values := by
  intro values h
  obtain ⟨listed, failure⟩ := p
  cases failure with
  | some e => cases h
  | none => exact (Except.ok.inj h).symm

theorem PropertyValues.gives_first (p : PropertyValues) :
    Gives p.first fun v => ∀ found ∈ v, found ∈ p.values := by
  intro v h
  obtain ⟨listed, failure⟩ := p
  cases listed with
  | nil => cases failure <;> cases h; simp
  | cons first rest =>
      cases h
      simp

namespace Document.IsLegal

variable {d : Document} {name : String}

theorem value? (legal : d.IsLegal) (other : name ≠ Property.content) :
    Gives (d.value? name) fun v => ∀ found ∈ v, found.IsLegal := by
  refine (legal.values name other).bind ?_
  intro property values
  cases property with
  | none => exact gives_ok (by simp)
  | some p =>
      intro v first found member
      exact values p rfl found (p.gives_first v first found member)

theorem text? (legal : d.IsLegal) (other : name ≠ Property.content) :
    Gives (d.text? name) fun t => ∀ s ∈ t, Text.IsLegal s := by
  refine (legal.value? other).map ?_
  intro v found s member
  obtain ⟨v, rfl, rfl⟩ := Option.map_eq_some_iff.mp member
  exact (found v rfl).text

theorem nonEmptyText? (legal : d.IsLegal) (other : name ≠ Property.content) :
    Gives (d.nonEmptyText? name) fun t => ∀ s ∈ t, Text.IsLegal s := by
  refine (legal.text? other).map ?_
  intro t found s member
  exact found s (Option.filter_eq_some_iff.mp member).1

theorem allValues (legal : d.IsLegal) (other : name ≠ Property.content) :
    Gives (d.values name) fun values => ∀ v ∈ values, v.IsLegal := by
  refine (legal.values name other).bind ?_
  intro property values
  cases property with
  | none => exact gives_ok (by simp)
  | some p =>
      intro listed all
      rw [p.gives_all listed all]
      exact values p rfl

theorem withoutAcl (legal : d.IsLegal) : d.withoutAcl.IsLegal where
  names := legal.names.map fun names each name member => each name (List.mem_filter.mp member).1
  values name other := by
    simp only [Document.withoutAcl]
    split
    · exact gives_ok (by simp)
    · exact legal.values name other

/-- The property that holds one legal text. -/
theorem gives_constant {s : String} (legal : Text.IsLegal s) :
    Gives (.ok (some ⟨[.string s], none⟩) : Read (Option PropertyValues)) fun found =>
      ∀ p ∈ found, ∀ v ∈ p.values, v.IsLegal := by
  apply gives_ok
  rintro p ⟨⟩ v member
  rw [List.mem_singleton.mp member]
  exact legal

theorem extractedAcl (legal : d.IsLegal) : d.extractedAcl.IsLegal where
  names := by
    refine legal.names.map fun names each => List.forall_mem_append.mpr ⟨?_, ?_⟩
    · intro name member
      exact each name (List.mem_filter.mp member).1
    · rw [List.forall_mem_cons, List.forall_mem_singleton]
      exact ⟨by decide, by decide⟩
  values name other := by
    simp only [Document.extractedAcl]
    split
    · exact gives_constant (by decide)
    · split
      · exact gives_constant (by decide)
      · split
        · exact legal.values name other
        · exact gives_ok (by simp)

theorem inheritingExtract (legal : d.IsLegal) : d.inheritingExtract.IsLegal where
  names := by
    refine legal.names.map fun names each => ?_
    refine List.forall_mem_append.mpr ⟨List.forall_mem_append.mpr ⟨?_, ?_⟩, ?_⟩
    · intro name member
      exact each name (List.mem_filter.mp member).1
    · split
      · rw [List.forall_mem_singleton]
        decide
      · simp
    · rw [List.forall_mem_singleton]
      decide
  values name other := by
    simp only [Document.inheritingExtract]
    split
    · exact legal.values _ (by decide)
    · split
      · exact gives_constant (by decide)
      · split
        · exact gives_ok (by simp)
        · exact legal.values name other

end Document.IsLegal

namespace Location

variable {l : Location} {d : Document}

theorem isLegal_addFragment {url : String} (legal : Text.IsLegal url) (fragment : Option String) :
    Text.IsLegal (addFragment url fragment) := by
  have hash : Text.IsLegal "#" := by decide
  cases fragment with
  | none => exact legal
  | some fragment =>
      rw [addFragment]
      split
      · exact legal
      · simp [legal, hash]

theorem IsLegal.ofDocid (legal : l.IsLegal) (docid : String) (feedType : FeedType)
    (fragment : Option String) : Text.IsLegal (l.ofDocid docid feedType fragment) := by
  apply isLegal_addFragment
  split
  · rename_i base given
    have connector : Text.IsLegal "?ConnectorName=" := by decide
    have docid : Text.IsLegal "&docid=" := by decide
    simp [legal.contentBase base given, connector, docid]
  · have scheme : Text.IsLegal internalScheme := by decide
    have host : Text.IsLegal ".localhost/doc?docid=" := by decide
    simp [legal.dataSource, scheme, host]

theorem IsLegal.record (legal : l.IsLegal) (readable : d.IsLegal) :
    Gives (l.record d) Text.IsLegal := by
  refine (readable.text? (by decide)).bind fun fragment _ => ?_
  split
  · refine (readable.nonEmptyText? (by decide)).bind fun url found => ?_
    cases url with
    | none => exact gives_error _
    | some url => exact gives_ok (isLegal_addFragment (found url rfl) fragment)
  · refine (readable.nonEmptyText? (by decide)).bind fun docid _ => ?_
    cases docid with
    | none => exact gives_error _
    | some docid => exact gives_ok (legal.ofDocid docid l.feedType fragment)

theorem IsLegal.parent? (legal : l.IsLegal) (readable : d.IsLegal) :
    Gives (l.parent? d) fun url => ∀ s ∈ url, Text.IsLegal s := by
  refine (readable.nonEmptyText? (by decide)).bind fun url found => ?_
  cases url with
  | some url => exact gives_ok found
  | none =>
      refine (readable.nonEmptyText? (by decide)).bind fun docid _ => ?_
      cases docid with
      | none => exact gives_ok (by simp)
      | some docid =>
          refine (readable.text? (by decide)).bind fun feedType _ => ?_
          refine (readable.text? (by decide)).bind fun fragment _ => gives_ok ?_
          rintro s ⟨⟩
          exact legal.ofDocid docid _ fragment

end Location

theorem isLegal_nameForReading {name kept : String} {access : Access} (legal : Text.IsLegal name)
    (h : nameForReading? name access = some kept) : Text.IsLegal kept := by
  rw [nameForReading?] at h
  split at h
  · cases h
    exact legal
  · rename_i base suffix split_name
    split at h
    · cases h
      exact legal
    · split at h
      · cases h
      · cases h
        apply legal.of_subset
        rw [String.toList_ofList]
        rw [(Text.splitLast_eq_some_iff.mp split_name).1]
        exact List.subset_append_left _ _

namespace AclEntry

theorem isLegal_principalOf {v : Value} (legal : v.IsLegal) :
    Text.IsLegal (principalOf v).name ∧ Text.IsLegal (principalOf v).namespace := by
  have empty : Text.IsLegal "" := by decide
  cases v with
  | principal p => exact legal
  | string s | boolean flag | integer n | real x | date t | binary bytes | stream s =>
      exact ⟨legal.text.trim, empty⟩

/-- Of the values of an entry's attributes only the namespace is not a word of the protocol. -/
theorem hasLegalValues_attributes {e : AclEntry} (legal : Text.IsLegal e.principal.namespace) :
    HasLegalValues e.attributes := by
  have type : ∀ form : PrincipalForm, Text.IsLegal form.wire := by rintro (_ | _) <;> decide
  have case_ : ∀ c : CaseSensitivity, Text.IsLegal c.wire := by rintro (_ | _) <;> decide
  have scope : Text.IsLegal e.scope.wire := by cases e.scope <;> decide
  have access : Text.IsLegal e.access.wire := by cases e.access <;> decide
  simp [attributes, type, case_, scope, access, legal]

theorem isLegal_ofValue {scope : Scope} {access : Access} {v : Value} {e : AclEntry}
    (legal : v.IsLegal) (h : ofValue? scope access v = some e) : e.IsLegal := by
  obtain ⟨name, space⟩ := isLegal_principalOf legal
  rw [ofValue?] at h
  split at h
  · rename_i kept found
    split at h
    · cases h
    · cases h
      exact ⟨hasLegalValues_attributes space, isLegal_nameForReading name found⟩
  · cases h

end AclEntry

namespace Acl

theorem gives_listEntries {d : Document} (readable : d.IsLegal) {list : String × Scope × Access}
    (other : list.1 ≠ Property.content) :
    Gives (listEntries d list) fun entries => ∀ e ∈ entries, e.IsLegal := by
  refine (readable.values _ other).bind ?_
  intro property values
  cases property with
  | none => exact gives_ok (by simp)
  | some p =>
      refine p.gives_all.map ?_
      rintro _ rfl e member
      obtain ⟨v, listed, entry⟩ := List.mem_filterMap.mp member
      exact AclEntry.isLegal_ofValue (values p rfl v listed) entry

theorem gives_ofDocument {l : Location} {d : Document} (legal : l.IsLegal) (readable : d.IsLegal) :
    Gives (ofDocument l d) Acl.IsLegal := by
  have others : ∀ list ∈ lists, list.1 ≠ Property.content := by decide
  have behind {url : Option String} (url_legal : ∀ s ∈ url, Text.IsLegal s) :
      Gives (do
        let inheritanceType ← d.nonEmptyText? Property.aclInheritanceType
        let inheritFrom ← l.parent? d
        let entries ← lists.mapM (listEntries d)
        .ok (⟨url, inheritanceType, inheritFrom, entries.flatten⟩ : Acl)) Acl.IsLegal := by
    refine (readable.nonEmptyText? (by decide)).bind fun inheritanceType type_legal => ?_
    refine (legal.parent? readable).bind fun inheritFrom parent_legal => ?_
    refine (Gives.mapM fun list member => gives_listEntries readable (others list member)).bind ?_
    intro entries entries_legal
    refine gives_ok ⟨?_, ?_⟩
    · simp only [attributes, hasLegalValues_cons, hasLegalValues_nil, and_true]
      exact ⟨url_legal, type_legal, parent_legal⟩
    · intro e member
      obtain ⟨part, listed, inside⟩ := List.mem_flatten.mp member
      exact entries_legal part listed e inside
  refine (gives_any _).bind fun type _ => ?_
  split
  · refine ((legal.record readable).map fun url found => ?_).bind fun url => behind
    rintro s ⟨⟩
    exact found
  · exact (gives_ok (by simp)).bind fun url => behind

end Acl

namespace Metadata

theorem gives_pairsOf {d : Document} (readable : d.IsLegal) {name : String}
    (legal : Text.IsLegal name) (other : name ≠ Property.content) :
    Gives (pairsOf d name) fun pairs =>
      ∀ pair ∈ pairs, Text.IsLegal pair.1 ∧ Text.IsLegal pair.2 := by
  refine (readable.allValues other).map ?_
  intro values each pair member
  obtain ⟨v, listed, shown⟩ := List.mem_filterMap.mp member
  obtain ⟨t, text, rfl⟩ := Option.map_eq_some_iff.mp shown
  exact ⟨legal, (each v listed).metadataText (Option.filter_eq_some_iff.mp text).1⟩

theorem gives_ofDocument {d : Document} (readable : d.IsLegal) :
    Gives (ofDocument d) Metadata.IsLegal := by
  refine (gives_any _).bind fun overwrites _ => ?_
  refine readable.names.bind fun names names_legal => ?_
  have each : ∀ name ∈ (sortedNames names).filter fun n => !Property.isWithheld n,
      Text.IsLegal name ∧ name ≠ Property.content := by
    intro name member
    obtain ⟨listed, shown⟩ := List.mem_filter.mp member
    rw [sortedNames, List.mem_mergeSort, List.mem_eraseDups] at listed
    refine ⟨names_legal name listed, ?_⟩
    rintro rfl
    exact absurd shown (by decide)
  refine (Gives.mapM fun name member =>
    gives_pairsOf readable (each name member).1 (each name member).2).bind ?_
  intro pairs pairs_legal
  refine gives_ok ⟨?_, ?_⟩
  · have no : Text.IsLegal "false" := by decide
    simp [attributes, no]
  · intro pair member
    obtain ⟨part, listed, inside⟩ := List.mem_flatten.mp member
    exact pairs_legal part listed pair inside

end Metadata

theorem Resolved.isLegal_authMethod (isPublic : Bool) {declared : Option String}
    (legal : ∀ s ∈ declared, Text.IsLegal s) :
    Text.IsLegal (authMethod isPublic declared).value := by
  simp only [authMethod, apply_ite Resolved.value, ite_self]
  split
  · split <;> decide
  · cases declared with
    | none => decide
    | some s => exact legal s rfl

/-- Of the values of a record's attributes, those that are listed here are not words of the protocol
or points of time. -/
theorem RecordAttributes.hasLegalValues_listed {r : RecordAttributes} (url : Text.IsLegal r.url)
    (displayUrl : ∀ s ∈ r.displayUrl, Text.IsLegal s) (pageRank : ∀ s ∈ r.pageRank, Text.IsLegal s)
    (mimetype : Text.IsLegal r.mimetype) (authMethod : Text.IsLegal r.authMethod) :
    HasLegalValues r.listed := by
  have action : ∀ a : Action, Text.IsLegal a.wire := by rintro (_ | _) <;> decide
  have flag : ∀ b, ∀ s ∈ Markup.flagValue b, Text.IsLegal s := by decide
  simp only [listed, hasLegalValues_cons, hasLegalValues_nil, and_true, Option.mem_def,
    Option.some.injEq, forall_eq', Option.map_eq_some_iff, forall_exists_index, and_imp,
    forall_apply_eq_imp_iff₂]
  exact ⟨url, displayUrl, fun a _ => action a, flag _, flag _, flag _, pageRank, mimetype,
    fun t _ => t.isLegal_modificationText, authMethod⟩

theorem RecordFields.gives_ofDocument {l : Location} {d : Document} (legal : l.IsLegal)
    (readable : d.IsLegal) :
    Gives (ofDocument l d) fun fields => HasLegalValues fields.attributes.listed := by
  refine (legal.record readable).bind fun url url_legal => ?_
  refine (gives_any _).bind fun action _ => ?_
  refine (gives_any _).bind fun lastModified _ => ?_
  refine (gives_any _).bind fun isPublic _ => ?_
  refine (readable.text? (by decide)).bind fun declared declared_legal => ?_
  refine (readable.nonEmptyText? (by decide)).bind fun displayUrl displayUrl_legal => ?_
  refine (gives_any _).bind fun lock _ => ?_
  refine (gives_any _).bind fun crawlImmediately _ => ?_
  refine (gives_any _).bind fun crawlOnce _ => ?_
  refine (readable.nonEmptyText? (by decide)).bind fun pageRank pageRank_legal => ?_
  refine (readable.nonEmptyText? (by decide)).bind fun mimetype mimetype_legal => ?_
  refine (gives_any _).bind fun hasAcl _ => gives_ok ?_
  have method := Resolved.isLegal_authMethod (Resolved.isPublic isPublic).value declared_legal
  have type : Text.IsLegal (mimetype.getD Property.defaultMimetype) := by
    cases mimetype with
    | none => decide
    | some mimetype => exact mimetype_legal mimetype rfl
  apply RecordAttributes.hasLegalValues_listed
  all_goals dsimp only
  · exact url_legal
  · exact displayUrl_legal
  · exact pageRank_legal
  · exact type
  · exact method

namespace FeedRules

variable {r : FeedRules} {d : Document} {taken : Taken}

theorem gives_head (legal : r.location.IsLegal) (readable : d.IsLegal) :
    Gives (r.head d) fun head => head.1.IsLegal := by
  rintro ⟨record, plan⟩ h
  obtain ⟨fields, acl, metadata, fields_eq, acl_eq, metadata_eq, -, rfl⟩ := head_ok h
  refine ⟨RecordFields.gives_ofDocument legal readable fields fields_eq, ?_, ?_⟩
  · have held : Gives (r.heldAcl fields d) fun acl => ∀ a ∈ acl, a.IsLegal := by
      rw [heldAcl]
      split
      · refine (Acl.gives_ofDocument legal readable).map ?_
        rintro a a_legal _ ⟨⟩
        exact a_legal
      · exact gives_ok (by simp)
    exact held acl acl_eq
  · have shown : (if acl.isSome then d.withoutAcl else d).IsLegal := by
      split
      · exact readable.withoutAcl
      · exact readable
    have held : Gives (r.heldMetadata fields (if acl.isSome then d.withoutAcl else d))
        fun metadata => ∀ m ∈ metadata, m.IsLegal := by
      rw [heldMetadata]
      split
      · refine (Metadata.gives_ofDocument shown).map ?_
        rintro m m_legal _ ⟨⟩
        exact m_legal
      · exact gives_ok (by simp)
    exact held metadata metadata_eq

theorem gives_record (legal : r.location.IsLegal) (readable : d.IsLegal) :
    Gives (r.record d taken).1 Record.IsLegal := by
  intro record found
  obtain ⟨head_eq, -⟩ | ⟨head, plan, written, report, head_eq, -, rfl, -⟩ :=
    record_ok (Prod.ext found rfl)
  · exact gives_head legal readable _ head_eq
  · exact gives_head legal readable _ head_eq

/-- The elements of a legal document are legal. -/
theorem gives_elements (legal : r.location.IsLegal) (readable : d.IsLegal) :
    Gives (r.elements d taken).1 fun elements => ∀ e ∈ elements, e.IsLegal := by
  intro elements found
  obtain ⟨a, -, a_eq, rfl, -⟩ | ⟨record, -, record_eq, rfl⟩ |
    ⟨a, record, -, a_eq, record_eq, rfl⟩ := elements_ok (Prod.ext found rfl)
  · rw [List.forall_mem_singleton]
    exact Acl.gives_ofDocument legal readable a a_eq
  · rw [List.forall_mem_singleton]
    exact gives_record legal readable record (congrArg Prod.fst record_eq)
  · rw [List.forall_mem_cons, List.forall_mem_singleton]
    exact ⟨Acl.gives_ofDocument legal readable.extractedAcl a a_eq,
      gives_record legal readable.inheritingExtract record (congrArg Prod.fst record_eq)⟩

end FeedRules

end IndexFeed
