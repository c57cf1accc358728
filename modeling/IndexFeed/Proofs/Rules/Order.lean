import IndexFeed.Feed.Options
import IndexFeed.Proofs.Document.Table
import IndexFeed.Proofs.Rules.Agreement

/-!
The order in which a document is put together does not matter. Values under different names may be
added in any interleaving, and the names may be listed in any order: what is written for the
document stays the same, to the last byte and also where the document fails.
-/

namespace IndexFeed

/-- Two documents that find the same under every name and list the same names. -/
def Document.AgreesThroughout (d' d : Document) : Prop :=
  Document.AgreesOn (fun _ => true) d' d

/-- The document with its names in another order. -/
def Document.listedAs (d : Document) (order : List String) : Document where
  find := d.find
  names := .ok order

variable {d d' : Document}

namespace Document.AgreesThroughout

theorem find (agrees : d'.AgreesThroughout d) (name : String) : d'.find name = d.find name :=
  AgreesOn.find agrees name rfl

theorem besideContent (agrees : d'.AgreesThroughout d) : d'.AgreesBesideContent d :=
  AgreesOn.of_fewer agrees fun _ _ => rfl

theorem extractedAcl (agrees : d'.AgreesThroughout d) :
    d'.extractedAcl.AgreesThroughout d.extractedAcl :=
  AgreesOn.extractedAcl agrees

theorem inheritingExtract (agrees : d'.AgreesThroughout d) :
    d'.inheritingExtract.AgreesThroughout d.inheritingExtract :=
  AgreesOn.inheritingExtract agrees rfl

end Document.AgreesThroughout

namespace FeedRules

theorem openContent_of_agrees (agrees : d'.AgreesThroughout d) (taken : Taken) :
    openContent d' taken = openContent d taken := by
  rw [openContent, openContent, Document.value?_congr (agrees.find Property.content)]

theorem payload_of_agrees (agrees : d'.AgreesThroughout d) (r : FeedRules) (plan : ContentPlan)
    (opened : Read (Option Source)) : r.payload plan d' opened = r.payload plan d opened := by
  have substituted : withSubstitute d' opened = withSubstitute d opened := by
    rw [withSubstitute, withSubstitute, Document.text?_congr (agrees.find Property.title),
      Document.text?_congr (agrees.find Property.mimetype)]
  rw [payload, payload, substituted]

theorem writeAcl_of_agrees (agrees : d'.AgreesThroughout d) (r : FeedRules) (o : FeedOutput) :
    r.writeAcl d' o = r.writeAcl d o := by
  rw [writeAcl, writeAcl, aclElement_of_agrees agrees.besideContent]

theorem writeRecord_of_agrees (agrees : d'.AgreesThroughout d) (r : FeedRules) (o : FeedOutput)
    (taken : Taken) : r.writeRecord d' o taken = r.writeRecord d o taken := by
  simp only [writeRecord, head_of_agrees agrees.besideContent, openContent_of_agrees agrees,
    payload_of_agrees agrees]

/-- Documents that agree throughout are written alike, whether or not they fail. -/
theorem write_of_agrees (agrees : d'.AgreesThroughout d) (r : FeedRules) (o : FeedOutput)
    (taken : Taken) : r.write d' o taken = r.write d o taken := by
  simp only [write, feeding_of_agrees agrees.besideContent, writeAcl_of_agrees agrees,
    writeAcl_of_agrees agrees.extractedAcl, writeRecord_of_agrees agrees,
    writeRecord_of_agrees agrees.inheritingExtract]

end FeedRules

namespace PropertyTable

variable {pairs pairs' : List (String × Value)} {order order' : List String}

/-- Two tables to which every name was given the same values hold the same. -/
theorem ofPairs_agrees (same : ∀ name, given name pairs' = given name pairs)
    (listed' : order'.Perm (ofPairs pairs').names) (listed : order.Perm (ofPairs pairs).names) :
    ((ofPairs pairs').toDocument.listedAs order').AgreesThroughout
      ((ofPairs pairs).toDocument.listedAs order) where
  find name _ := by
    simp only [Document.listedAs, toDocument, values?_ofPairs, same name]
  names := by
    refine .listed rfl rfl fun name _ => ?_
    rw [listed'.mem_iff, listed.mem_iff, mem_names, mem_names, has, has, values?_ofPairs,
      values?_ofPairs, same name]

/-- What is written for a document in memory, with its outcome, bytes and log, is determined by the
values that every name was given, in their order: neither the interleaving of the names nor the
order in which they are listed has a part in it. -/
theorem write_ofPairs (same : ∀ name, given name pairs' = given name pairs)
    (listed' : order'.Perm (ofPairs pairs').names) (listed : order.Perm (ofPairs pairs).names)
    (r : FeedRules) (o : FeedOutput) (taken : Taken) :
    r.write ((ofPairs pairs').toDocument.listedAs order') o taken
      = r.write ((ofPairs pairs).toDocument.listedAs order) o taken :=
  FeedRules.write_of_agrees (ofPairs_agrees same listed' listed) r o taken

/-- Two interleavings of the same values and two orders of the names, in a feed that writes a list
and a record for the document. -/
theorem write_ofPairs_interleaved :
    let rules := FeedOptions.rules { dataSource := "hr", feedType := .contentUrl }
    let pairs : List (String × Value) :=
      [(Property.docid, .string "a"), ("k", .string "1"), (Property.aclUsers, .string "eve"),
        ("k", .integer 2)]
    let pairs' : List (String × Value) :=
      [("k", .string "1"), (Property.aclUsers, .string "eve"), ("k", .integer 2),
        (Property.docid, .string "a")]
    let order := ["k", Property.aclUsers, Property.docid]
    let order' := [Property.docid, "k", Property.aclUsers]
    let o : FeedOutput := ⟨.empty 0, some ""⟩
    (∀ name, given name pairs' = given name pairs) ∧ order'.Perm (ofPairs pairs').names ∧
      order.Perm (ofPairs pairs).names ∧
      rules.write ((ofPairs pairs').toDocument.listedAs order') o {}
        = rules.write ((ofPairs pairs).toDocument.listedAs order) o {} ∧
      (rules.write ((ofPairs pairs).toDocument.listedAs order) o {}).1.toOption = some 2 := by
  intro rules pairs pairs' order order' o
  have same : ∀ name, given name pairs' = given name pairs := by
    have others : Property.docid ≠ "k" ∧ Property.docid ≠ Property.aclUsers := by decide
    intro name
    by_cases docid : Property.docid = name
    · subst docid
      simp [pairs, pairs', given_cons, others.1.symm, others.2.symm]
    · simp [pairs, pairs', given_cons, docid]
  have listed' : order'.Perm (ofPairs pairs').names := by decide
  have listed : order.Perm (ofPairs pairs).names := by decide
  exact ⟨same, listed', listed, write_ofPairs same listed' listed rules o {}, by decide +kernel⟩

end PropertyTable

end IndexFeed
