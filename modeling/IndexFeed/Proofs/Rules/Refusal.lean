import IndexFeed.Document.Sample
import IndexFeed.Feed.Options
import IndexFeed.Proofs.Acl
import IndexFeed.Proofs.Document
import IndexFeed.Proofs.Feed.Writing
import IndexFeed.Proofs.Stream

/-!
When a document fails. Of a document that can be read throughout, the first values of a few
properties decide whether it can be fed; all others are used as they are or replaced by a default.
-/

namespace IndexFeed

open Outcome (Fails)

namespace Value

variable {v : Value}

/-- Whether a value can be read as a truth value. -/
def isFlag : Value → Bool
  | string _ | boolean _ | integer _ => true
  | _ => false

theorem fails_toBool : Fails v.toBool ↔ v.isFlag = false := by
  cases v <;> simp [toBool, isFlag]

/-- A value that is no content, a stream that has been taken, or one that fails before `limit` bytes
have come. -/
def IsUnreadable (limit : Nat) (taken : Taken) : Value → Prop
  | string _ | binary _ => False
  | stream s =>
    taken.has s = true ∨ s.source.failure.isSome = true ∧ s.source.delivered.length < limit
  | _ => True

theorem failure_ofBytes (bytes : List UInt8) : (Source.ofBytes bytes).failure = none := by
  cases bytes <;> rfl

end Value

namespace ContentPolicy

variable {p : ContentPolicy} {c : ContentCodec} {plan : ContentPlan}

theorem fails_writeWith {content : Option Source} {substitute : List UInt8} :
    Fails (p.writeWith c plan content substitute).2 ↔
      ∃ s ∈ content, s.failure.isSome = true ∧ s.delivered.length < p.maxDocumentSize := by
  cases content with
  | none => simp [writeWith]
  | some s =>
      cases read : s.take contentRequestSize p.maxDocumentSize with
      | mk pieces failure =>
          have outcome : Fails (p.writeWith c plan (some s) substitute).2
              ↔ failure.isSome = true := by
            rw [writeWith, read]
            cases pieces <;> cases failure <;> simp
          have met : failure
              = if s.delivered.length < p.maxDocumentSize then s.failure else none := by
            rw [← s.take_failure contentRequestSize, read]
          rw [outcome, met]
          split <;> simp_all

/-- The content is declared to be in an encoding that is not known or not accepted. -/
def RefusesDeclared (p : ContentPolicy) (declared : Option String) : Prop :=
  ∃ raw ∈ declared, Text.trim raw ≠ "" ∧
    (ContentEncoding.find? (Text.trim raw) = none ∨ p.accepts (Text.trim raw) = false)

theorem fails_planFor {declared : Option String} :
    Fails (p.planFor declared) ↔ p.RefusesDeclared declared := by
  cases declared with
  | none => simp [planFor, RefusesDeclared]
  | some raw =>
      by_cases blank : Text.trim raw = ""
      · simp [planFor, RefusesDeclared, blank, Option.filter_some]
      · cases known : ContentEncoding.find? (Text.trim raw) with
        | none => simp [planFor, RefusesDeclared, blank, known, Option.filter_some]
        | some encoding =>
            cases accepted : p.accepts (Text.trim raw) <;>
              simp [planFor, RefusesDeclared, blank, known, accepted, Option.filter_some]

end ContentPolicy

namespace Document

variable {d d' : Document} {name : String}

/-- The first value of a property is there but cannot be read as a truth value. -/
def IsNoFlag (d : Document) (name : String) : Prop :=
  ∃ v ∈ d.first? name, v.isFlag = false

/-- The document declares itself an access control list. -/
def IsAclTyped (d : Document) : Prop :=
  ∃ v ∈ d.first? Property.documentType, DocumentType.find? v.text = some .acl

def IsDelete (d : Document) : Prop :=
  ∃ v ∈ d.first? Property.action, Action.find? v.text = some .delete

theorem isAclTyped_iff : d.IsAclTyped ↔ d.declaredType = .ok (some .acl) := by
  simp only [IsAclTyped, declaredType, Outcome.map_eq_ok, Option.bind_eq_some_iff]
  constructor
  · rintro ⟨v, first, known⟩
    have read : d.text? Property.documentType = .ok (some v.text) :=
      Outcome.map_eq_ok.mpr ⟨some v, value?_eq_some.mpr first, rfl⟩
    exact ⟨some v.text, read, v.text, rfl, known⟩
  · rintro ⟨found, read, t, rfl, known⟩
    obtain ⟨v, value, text⟩ := Outcome.map_eq_ok.mp read
    obtain ⟨v, rfl, rfl⟩ := Option.map_eq_some_iff.mp text
    exact ⟨v, value?_eq_some.mp value, known⟩

namespace IsReadable

variable (readable : d.IsReadable)
include readable

theorem fails_flag {default : Bool} : Fails (d.flag name default) ↔ d.IsNoFlag name := by
  rw [flag, readable.value?]
  cases found : d.first? name with
  | none => simp [IsNoFlag, found, bind, Except.bind]
  | some v => simp [IsNoFlag, found, bind, Except.bind, Value.fails_toBool]

theorem not_fails_nonEmptyText? : ¬ Fails (d.nonEmptyText? name) :=
  Outcome.not_fails_of_ok (readable.nonEmptyText? name)

theorem not_fails_values : ¬ Fails (d.values name) := by
  obtain ⟨values, found⟩ := readable.values name
  exact Outcome.not_fails_of_ok found

theorem declaredType : d.declaredType
    = .ok ((d.first? Property.documentType).bind fun v => DocumentType.find? v.text) := by
  rw [Document.declaredType, readable.text?]
  cases d.first? Property.documentType <;> rfl

end IsReadable

end Document

namespace Location

variable {l : Location} {d : Document}

/-- The property that a document's address is made from. -/
def addressName (l : Location) : String :=
  if l.feedType = .web then Property.searchUrl else Property.docid

/-- The property that a document's address is made from is absent or has an empty text. -/
def LacksAddress (l : Location) (d : Document) : Prop :=
  ∀ v ∈ d.first? l.addressName, v.text = ""

theorem filter_text_eq_none {found : Option Value} :
    (found.map Value.text).filter (· != "") = none ↔ ∀ v ∈ found, v.text = "" := by
  cases found <;> simp [Option.filter_some]

theorem fails_record (readable : d.IsReadable) : Fails (l.record d) ↔ l.LacksAddress d := by
  rw [record, readable.text?, Outcome.ok_bind, LacksAddress, addressName]
  split
  · rw [readable.nonEmptyText?, Outcome.ok_bind, ← filter_text_eq_none]
    cases ((d.first? Property.searchUrl).map Value.text).filter (· != "") <;> simp
  · rw [readable.nonEmptyText?, Outcome.ok_bind, ← filter_text_eq_none]
    cases ((d.first? Property.docid).map Value.text).filter (· != "") <;> simp

theorem not_fails_parent? (readable : d.IsReadable) : ¬ Fails (l.parent? d) := by
  simp only [parent?, readable.nonEmptyText?, readable.text?, Outcome.ok_bind]
  split
  · exact Outcome.not_fails_ok _
  · split
    · exact Outcome.not_fails_ok _
    · exact Outcome.not_fails_ok _

end Location

namespace Acl

variable {l : Location} {d : Document}

/-- A list fails only where it stands alone and has no address. -/
theorem fails_ofDocument (readable : d.IsReadable) :
    Fails (Acl.ofDocument l d) ↔ d.IsAclTyped ∧ l.LacksAddress d := by
  rw [fails_ofDocument_iff, Location.fails_record readable, Document.isAclTyped_iff,
    readable.declaredType, Except.ok.injEq]
  simp [readable.not_fails_nonEmptyText?, Location.not_fails_parent? readable,
    readable.not_fails_values]

end Acl

/-- The properties of a record that are switched on or off. -/
def Property.switches : List String := [lock, crawlImmediately, crawlOnce]

/-- The properties whose first value may make a document fail. -/
def Property.decisive : List String :=
  [searchUrl, docid, documentType, contentEncoding, content, overwriteAcls] ++ switches

namespace RecordFields

variable {l : Location} {d : Document}

theorem fails_ofDocument (readable : d.IsReadable) :
    Fails (RecordFields.ofDocument l d) ↔
      l.LacksAddress d ∨ ∃ name ∈ Property.switches, d.IsNoFlag name := by
  obtain ⟨marked, found⟩ := readable.hasAny Property.aclMarks
  simp only [ofDocument, readable.text?, readable.value?, readable.nonEmptyText?, Document.hasAcl,
    found, Outcome.ok_bind]
  -- What is left to fail is the address and the three flags.
  rw [Outcome.fails_bind fun _ _ => Outcome.fails_bind fun _ _ => Outcome.fails_bind fun _ _ =>
    Outcome.fails_bind fun _ _ => iff_false_intro (Outcome.not_fails_ok _),
    Location.fails_record readable]
  simp [readable.fails_flag, Property.switches]

theorem isDelete_iff {fields : RecordFields} (h : RecordFields.ofDocument l d = .ok fields) :
    fields.attributes.isDelete = true ↔ d.IsDelete := by
  obtain ⟨-, -, declared, read, action⟩ := ofDocument_ok h
  obtain ⟨v, value, rfl⟩ := Outcome.map_eq_ok.mp read
  rw [RecordAttributes.isDelete, action, Document.IsDelete, Document.first?_of_value? value]
  cases v with
  | none => simp [Resolved.action]
  | some v =>
      cases known : Action.find? v.text <;> simp [Resolved.action, known]

theorem isDelete_eq_false {fields : RecordFields} (h : RecordFields.ofDocument l d = .ok fields) :
    fields.attributes.isDelete = false ↔ ¬ d.IsDelete := by
  rw [← isDelete_iff h, Bool.not_eq_true]

end RecordFields

theorem Metadata.fails_ofDocument {d : Document} (readable : d.IsReadable) :
    Fails (Metadata.ofDocument d) ↔ d.IsNoFlag Property.overwriteAcls := by
  obtain ⟨names, listed⟩ := readable.names
  have shown (some_names : List String) : ¬ Fails (some_names.mapM (pairsOf d)) :=
    Outcome.not_fails_mapM fun name _ => by simpa [pairsOf] using readable.not_fails_values
  simp only [ofDocument, listed, Outcome.ok_bind]
  rw [Outcome.fails_bind fun _ _ => Outcome.fails_bind fun _ _ =>
    iff_false_intro (Outcome.not_fails_ok _), readable.fails_flag]
  simp [shown]

namespace FeedRules

variable {r : FeedRules} {d : Document} {taken : Taken}

/-- What makes a record fail whose attributes can be read. Nothing of it is looked at in a record
that deletes its document. -/
def RefusesHeld (r : FeedRules) (d : Document) (taken : Taken) : Prop :=
  ¬ d.IsDelete ∧
    (r.feedType ≠ .contentUrl ∧ d.IsNoFlag Property.overwriteAcls ∨
      r.feedType = .content ∧
        (r.content.RefusesDeclared ((d.first? Property.contentEncoding).map Value.text) ∨
          ∃ v ∈ d.first? Property.content, v.IsUnreadable r.content.maxDocumentSize taken))

/-- Why a document fails: it has no address; or else it is no list, and one of its flags cannot be
read, or its record is not a deletion and cannot hold what it is to hold. -/
def Refuses (r : FeedRules) (d : Document) (taken : Taken) : Prop :=
  r.location.LacksAddress d ∨
    ¬ d.IsAclTyped ∧ ((∃ name ∈ Property.switches, d.IsNoFlag name) ∨ r.RefusesHeld d taken)

theorem not_fails_heldAcl (readable : d.IsReadable) (notAcl : ¬ d.IsAclTyped)
    (fields : RecordFields) : ¬ Fails (r.heldAcl fields d) := by
  rw [heldAcl]
  split
  · simp [Acl.fails_ofDocument readable, notAcl]
  · exact Outcome.not_fails_ok none

theorem fails_heldMetadata (readable : d.IsReadable) (fields : RecordFields) :
    Fails (r.heldMetadata fields d) ↔ fields.attributes.isDelete = false ∧
      r.feedType ≠ .contentUrl ∧ d.IsNoFlag Property.overwriteAcls := by
  rw [heldMetadata]
  split
  · simp_all [Metadata.fails_ofDocument readable]
  · simp_all

theorem fails_heldContent (readable : d.IsReadable) (fields : RecordFields) :
    Fails (r.heldContent fields d) ↔ fields.attributes.isDelete = false ∧ r.feedType = .content ∧
      r.content.RefusesDeclared ((d.first? Property.contentEncoding).map Value.text) := by
  rw [heldContent, readable.text?, Outcome.mapError_ok, Outcome.ok_bind]
  split
  · simp_all [ContentPolicy.fails_planFor]
  · simp_all

theorem isSome_of_heldContent {fields : RecordFields} {plan : Option ContentPlan}
    (h : r.heldContent fields d = .ok plan) :
    plan.isSome = true ↔ fields.attributes.isDelete = false ∧ r.feedType = .content := by
  rw [heldContent] at h
  split at h
  · obtain ⟨declared, -, h⟩ := Outcome.bind_eq_ok.mp h
    obtain ⟨chosen, -, rfl⟩ := Outcome.map_eq_ok.mp h
    simp_all
  · cases h
    simp_all

/-- Only a record that does not delete its document is written with content, and only in a content
feed. -/
theorem isSome_plan {record : Record} {plan : Option ContentPlan}
    (h : r.head d = .ok (record, plan)) :
    plan.isSome = true ↔ ¬ d.IsDelete ∧ r.feedType = .content := by
  obtain ⟨fields, acl, metadata, read, -, -, held, -⟩ := head_ok h
  rw [isSome_of_heldContent held, RecordFields.isDelete_eq_false read]

/-- What is shown of a document whose access control its record holds already. -/
theorem find_shown (d : Document) {name : String} (other : name ∈ Property.withheld)
    (hidden : Bool) : (if hidden then d.withoutAcl else d).find name = d.find name := by
  cases hidden with
  | false => rfl
  | true => exact d.find_withoutAcl name (Property.isAcl_withheld other)

theorem fails_head (readable : d.IsReadable) (notAcl : ¬ d.IsAclTyped) :
    Fails (r.head d) ↔ (r.location.LacksAddress d ∨ ∃ name ∈ Property.switches, d.IsNoFlag name) ∨
      ¬ d.IsDelete ∧ (r.feedType ≠ .contentUrl ∧ d.IsNoFlag Property.overwriteAcls ∨
        r.feedType = .content ∧
          r.content.RefusesDeclared ((d.first? Property.contentEncoding).map Value.text)) := by
  rw [head, ← RecordFields.fails_ofDocument readable, Outcome.fails_bind, Outcome.fails_mapError]
  intro fields read
  have delete := RecordFields.isDelete_eq_false (Outcome.mapError_eq_ok.mp read)
  rw [Outcome.fails_bind, Outcome.fails_mapError,
    iff_false_intro (not_fails_heldAcl readable notAcl fields), false_or]
  intro acl _
  -- The names that are looked up from here on have no part in the access control.
  let shown := if acl.isSome then d.withoutAcl else d
  have shownReadable : shown.IsReadable := by
    simp only [shown]
    split
    · exact readable.withoutAcl
    · exact readable
  rw [Outcome.fails_bind fun _ _ => Outcome.fails_bind fun _ _ =>
    iff_false_intro (Outcome.not_fails_ok _), Outcome.fails_mapError,
    fails_heldMetadata shownReadable, fails_heldContent shownReadable, Document.IsNoFlag,
    Document.first?_congr (find_shown d (by simp [Property.withheld]) _),
    Document.first?_congr (find_shown d (by simp [Property.withheld]) _),
    ← delete, or_false, ← and_or_left]
  rfl

theorem fails_payload (readable : d.IsReadable) (plan : ContentPlan)
    (opened : Read (Option Source)) :
    Fails (r.payload plan d opened).2 ↔ Fails opened ∨ ∃ s, opened = .ok (some s) ∧
      s.failure.isSome = true ∧ s.delivered.length < r.content.maxDocumentSize := by
  cases opened with
  | error e => simp [payload, withSubstitute, bind, Except.bind]
  | ok source =>
      simp only [payload, withSubstitute, readable.text?, Outcome.ok_bind, Outcome.fails_mapError,
        ContentPolicy.fails_writeWith]
      cases source <;> simp

theorem fails_openedPayload (readable : d.IsReadable) (plan : ContentPlan) :
    Fails (r.payload plan d (openContent d taken).1).2 ↔
      ∃ v ∈ d.first? Property.content, v.IsUnreadable r.content.maxDocumentSize taken := by
  rw [fails_payload readable, openContent, readable.value?]
  cases d.first? Property.content with
  | none => simp
  | some v =>
      cases v with
      | string s => simp [Value.openSource, Value.IsUnreadable, Value.failure_ofBytes, Except.map]
      | binary bytes =>
          simp [Value.openSource, Value.IsUnreadable, Value.failure_ofBytes, Except.map]
      | stream s =>
          cases gone : taken.has s <;>
            simp [Value.openSource, Value.IsUnreadable, Except.map, gone]
      | boolean _ | integer _ | real _ | date _ | principal _ =>
          simp [Value.openSource, Value.IsUnreadable]

theorem fails_record (readable : d.IsReadable) (notAcl : ¬ d.IsAclTyped) :
    Fails (r.record d taken).1 ↔ r.Refuses d taken := by
  have parts : r.Refuses d taken ↔ Fails (r.head d) ∨ ¬ d.IsDelete ∧ r.feedType = .content ∧
      ∃ v ∈ d.first? Property.content, v.IsUnreadable r.content.maxDocumentSize taken := by
    rw [fails_head readable notAcl, Refuses, RefusesHeld]
    grind
  rw [parts, FeedRules.record]
  cases found : r.head d with
  | error e => simp
  | ok pair =>
      obtain ⟨record, plan⟩ := pair
      have kept := isSome_plan found
      cases plan with
      | none =>
          have bare : ¬ (¬ d.IsDelete ∧ r.feedType = .content) := by simpa using kept
          simp [← and_assoc, bare]
      | some plan =>
          have holds : ¬ d.IsDelete ∧ r.feedType = .content := by simpa using kept
          simp [holds, fails_openedPayload readable]

/-- Apart from whether it deletes its document, a record fails for what stands first under the names
that decide about it. -/
theorem refuses_congr {d' : Document}
    (same : ∀ name ∈ Property.decisive, d'.first? name = d.first? name)
    (deletes : d'.IsDelete ↔ d.IsDelete) : r.Refuses d' taken ↔ r.Refuses d taken := by
  have flags {name : String} (decides : name ∈ Property.decisive) :
      d'.IsNoFlag name ↔ d.IsNoFlag name := by
    rw [Document.IsNoFlag, Document.IsNoFlag, same name decides]
  have address : r.location.addressName ∈ Property.decisive := by
    rw [Location.addressName]
    split
    · simp [Property.decisive]
    · simp [Property.decisive]
  have switches : (∃ name ∈ Property.switches, d'.IsNoFlag name)
      ↔ ∃ name ∈ Property.switches, d.IsNoFlag name := by
    have decisive : ∀ name ∈ Property.switches, name ∈ Property.decisive :=
      fun name member => List.mem_append_right _ member
    exact exists_congr fun name => and_congr_right fun member => flags (decisive name member)
  have typed : d'.IsAclTyped ↔ d.IsAclTyped := by
    rw [Document.IsAclTyped, Document.IsAclTyped, same _ (by simp [Property.decisive])]
  have held : r.RefusesHeld d' taken ↔ r.RefusesHeld d taken := by
    rw [RefusesHeld, RefusesHeld, deletes, flags (by simp [Property.decisive]),
      same Property.contentEncoding (by simp [Property.decisive]),
      same Property.content (by simp [Property.decisive])]
  rw [Refuses, Refuses, Location.LacksAddress, Location.LacksAddress, same _ address, typed,
    switches, held]

theorem feeding_eq_acl : r.feeding d = .ok .acl ↔ d.IsAclTyped := by
  rw [feeding, Outcome.bind_eq_ok, Document.isAclTyped_iff]
  constructor
  · rintro ⟨type, declared, h⟩
    split at h
    · rename_i acl
      rw [declared, acl]
    · split at h
      · obtain ⟨marked, -, h⟩ := Outcome.bind_eq_ok.mp h
        cases marked <;> cases h
      · cases h
  · intro declared
    exact ⟨some .acl, declared, if_pos rfl⟩

theorem feeding_of_readable (readable : d.IsReadable) :
    ∃ feeding, r.feeding d = .ok feeding ∧ (feeding = .acl ↔ d.IsAclTyped) := by
  obtain ⟨marked, found⟩ := readable.hasAny Property.aclMarks
  rw [feeding, Document.isAclTyped_iff, readable.declaredType, Outcome.ok_bind, Document.hasAcl,
    found, Outcome.ok_bind]
  split
  · exact ⟨.acl, rfl, by simp_all⟩
  · split
    · cases marked with
      | true => exact ⟨.aclThenRecord, rfl, by simp_all⟩
      | false => exact ⟨.record, rfl, by simp_all⟩
    · exact ⟨.record, rfl, by simp_all⟩

theorem fails_aclElement (readable : d.IsReadable) :
    Fails (r.aclElement d) ↔ d.IsAclTyped ∧ r.location.LacksAddress d := by
  rw [aclElement, Outcome.fails_mapError, Outcome.fails_map, Acl.fails_ofDocument readable]

theorem isAclTyped_extractedAcl (d : Document) : d.extractedAcl.IsAclTyped :=
  Document.isAclTyped_iff.mpr d.declaredType_extractedAcl

theorem lacksAddress_extractedAcl {l : Location} :
    l.LacksAddress d.extractedAcl ↔ l.LacksAddress d := by
  have kept : Document.isKeptInExtract l.addressName = true := by
    rw [Location.addressName]
    split <;> simp [Document.isKeptInExtract]
  rw [Location.LacksAddress, Location.LacksAddress,
    Document.first?_congr (d.find_extractedAcl kept)]

theorem first?_inheritingExtract {name : String} (other : name ∈ Property.withheld) :
    d.inheritingExtract.first? name = d.first? name :=
  Document.first?_congr (d.find_inheritingExtract_other (Property.isAcl_withheld other))

theorem isDelete_inheritingExtract : d.inheritingExtract.IsDelete ↔ d.IsDelete := by
  rw [Document.IsDelete, Document.IsDelete, first?_inheritingExtract (by simp [Property.withheld])]

/-- A record fails for the same reasons once its access control has been taken out. -/
theorem refuses_inheritingExtract : r.Refuses d.inheritingExtract taken ↔ r.Refuses d taken := by
  have other : ∀ name ∈ Property.decisive, name ∈ Property.withheld := by
    simp [Property.decisive, Property.switches, Property.withheld]
  exact refuses_congr (fun name decides => first?_inheritingExtract (other name decides))
    isDelete_inheritingExtract

theorem fails_elements (readable : d.IsReadable) :
    Fails (r.elements d taken).1 ↔ r.Refuses d taken := by
  obtain ⟨feeding, found, acl⟩ := feeding_of_readable (r := r) readable
  rw [elements, found]
  cases feeding with
  | acl =>
      have typed : d.IsAclTyped := acl.mp rfl
      simp [fails_aclElement readable, Refuses, typed]
  | record =>
      have notAcl : ¬ d.IsAclTyped := fun typed => nomatch acl.mpr typed
      simp [fails_record readable notAcl]
  | aclThenRecord =>
      have notAcl : ¬ d.IsAclTyped := fun typed => nomatch acl.mpr typed
      have notAcl' : ¬ d.inheritingExtract.IsAclTyped := by
        rwa [Document.IsAclTyped, first?_inheritingExtract (by simp [Property.withheld])]
      -- The list needs an address and nothing else, and its address is made as the record's is.
      have list := fails_aclElement (r := r) readable.extractedAcl
      rw [lacksAddress_extractedAcl, iff_true_intro (isAclTyped_extractedAcl d), true_and]
        at list
      cases extracted : r.aclElement d.extractedAcl with
      | error e =>
          have lacks : r.location.LacksAddress d := list.mp ⟨e, extracted⟩
          simp [Refuses, lacks]
      | ok list =>
          simp [fails_record readable.inheritingExtract notAcl', refuses_inheritingExtract]

/-- A document that can be read throughout fails exactly for the reasons told; nothing else that
stands in it can make it fail, whatever has been written before. -/
theorem write_fails_iff (readable : d.IsReadable) (r : FeedRules) (o : FeedOutput) (taken : Taken) :
    (Fails (r.write d o taken).1 ↔ r.Refuses d taken) ∧
      ∀ d' : Document, d'.IsReadable →
        (∀ name ∈ Property.decisive, d'.first? name = d.first? name) →
        (d'.IsDelete ↔ d.IsDelete) →
        (Fails (r.write d' o taken).1 ↔ Fails (r.write d o taken).1) := by
  have reasons {d : Document} (readable : d.IsReadable) :
      Fails (r.write d o taken).1 ↔ r.Refuses d taken := by
    obtain ⟨o', written, -⟩ := r.write_becomes d o taken
    rw [written, ← fails_elements readable]
    exact Outcome.fails_map
  refine ⟨reasons readable, ?_⟩
  intro d' readable' same deletes
  rw [reasons readable', reasons readable, refuses_congr same deletes]

/-- A stream that fails behind its third byte makes its document fail if four bytes may be read, and
not if three may; an action and a time that cannot be used change nothing. -/
theorem write_fails_iff_below_limit :
    let rules (limit : UInt64) :=
      FeedOptions.rules { dataSource := "hr", maxDocumentSize := limit }
    let stream : Value :=
      .stream ⟨0, ⟨[.interruption, .bytes 1 [2], .bytes 3 []], some ⟨"broken"⟩⟩⟩
    let table : PropertyTable := ⟨[(Property.docid, [.string "a"]), (Property.content, [stream])]⟩
    let table' : PropertyTable := ⟨table.entries
      ++ [(Property.action, [.string "destroy"]), (Property.lastModified, [.string "soon"])]⟩
    let d := table.toDocument
    let d' := table'.toDocument
    d.IsReadable ∧ d'.IsReadable ∧
    (∀ name ∈ Property.decisive, d'.first? name = d.first? name) ∧ (d'.IsDelete ↔ d.IsDelete) ∧
    ∀ o, Fails ((rules 4).write d o {}).1 ∧ Fails ((rules 4).write d' o {}).1 ∧
      ¬ Fails ((rules 3).write d o {}).1 ∧ ¬ Fails ((rules 3).write d' o {}).1 := by
  intro rules stream table table' d d'
  have readable : d.IsReadable := table.isReadable_toDocument
  have readable' : d'.IsReadable := table'.isReadable_toDocument
  have same : ∀ name ∈ Property.decisive, d'.first? name = d.first? name := by
    intro name member
    simp only [Property.decisive, Property.switches, List.cons_append, List.nil_append,
      List.mem_cons, List.not_mem_nil, or_false] at member
    obtain rfl | rfl | rfl | rfl | rfl | rfl | rfl | rfl | rfl := member <;> rfl
  have action : d.first? Property.action = none := rfl
  have action' : d'.first? Property.action = some (.string "destroy") := rfl
  have kept : ¬ d.IsDelete := by simp [Document.IsDelete, action]
  have kept' : ¬ d'.IsDelete := by
    have unknown : Action.find? "destroy" = none := by decide
    simp [Document.IsDelete, action', Value.text, unknown]
  have deletes : d'.IsDelete ↔ d.IsDelete := iff_of_false kept' kept
  have content : d.first? Property.content = some stream := rfl
  have refuses : (rules 4).Refuses d {} := by
    have type : d.first? Property.documentType = none := rfl
    have notAcl : ¬ d.IsAclTyped := by simp [Document.IsAclTyped, type]
    have unreadable : stream.IsUnreadable 4 {} := .inr ⟨rfl, by decide⟩
    exact .inr ⟨notAcl, .inr ⟨kept, .inr ⟨rfl, .inr ⟨stream, content, unreadable⟩⟩⟩⟩
  have feeds : ¬ (rules 3).Refuses d {} := by
    have docid : d.first? Property.docid = some (.string "a") := rfl
    have noFlag : ∀ name ∈ Property.overwriteAcls :: Property.switches, d.first? name = none := by
      intro name member
      simp only [Property.switches, List.mem_cons, List.not_mem_nil, or_false] at member
      obtain rfl | rfl | rfl | rfl := member <;> rfl
    have encoding : d.first? Property.contentEncoding = none := rfl
    rintro (lacks | ⟨-, ⟨name, member, v, found, -⟩ | ⟨-, ⟨-, v, found, -⟩ | ⟨-, refused⟩⟩⟩)
    · exact absurd (lacks _ docid) (by decide)
    · rw [noFlag name (List.mem_cons_of_mem _ member)] at found
      cases found
    · rw [noFlag _ List.mem_cons_self] at found
      cases found
    · rw [encoding, content] at refused
      obtain ⟨raw, declared, -⟩ | ⟨v, found, unreadable⟩ := refused
      · cases declared
      · cases found
        obtain gone | ⟨-, below⟩ := unreadable
        · cases gone
        · exact absurd below (by decide)
  refine ⟨readable, readable', same, deletes, fun o => ?_⟩
  obtain ⟨four, four'⟩ := write_fails_iff readable (rules 4) o {}
  obtain ⟨three, three'⟩ := write_fails_iff readable (rules 3) o {}
  have broken := four.mpr refuses
  have whole := mt three.mp feeds
  exact ⟨broken, (four' d' readable' same deletes).mpr broken, whole,
    mt (three' d' readable' same deletes).mp whole⟩

end FeedRules

end IndexFeed
