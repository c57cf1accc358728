import IndexFeed.Proofs.Inspection.Feed

/-!
Counting the records that delete. The action is looked for in the first line of a record's start
tag, but the two addresses stand in front of it and may hold line feeds. Apart from that nothing can
be mistaken for the action, since no value holds a quotation mark.
-/

namespace IndexFeed

open Inspection Markup

namespace Markup

theorem escape_inj {s t : String} : escape s = escape t ↔ s = t := by
  constructor
  · intro same
    have read := value?_escape s
    rw [same, value?_escape t, Option.some.injEq] at read
    exact read.symm
  · rintro rfl
    rfl

theorem lineFeed_mem_escape {s : String} : '\n' ∈ (escape s).toList ↔ '\n' ∈ s.toList := by
  have chars (c : Char) : '\n' ∈ escapeChar c ↔ '\n' = c := by
    have entities : ∀ c ∈ ['&', '<', '>', '"', '\''], '\n' ∉ escapeChar c ∧ '\n' ≠ c := by
      simp [escapeChar]
    by_cases special : c ∈ ['&', '<', '>', '"', '\'']
    · obtain ⟨absent, other⟩ := entities c special
      simp [absent, other]
    · rw [escapeChar_eq_self special, List.mem_singleton]
  simp [escape, List.mem_flatMap, chars]

/-- What stands in front of an attribute's value. -/
def namePart (name : String) : List Char := ' ' :: (name.toList ++ ['='])

theorem toList_attr_append (name value : String) (rest : List Char) :
    (attr name value).toList ++ rest
      = namePart name ++ '"' :: ((escape value).toList ++ '"' :: rest) := by
  simp [toList_attr, namePart]

theorem quote_not_mem_namePart {name : String} (named : isName name = true) :
    '"' ∉ namePart name := by
  have free : '"' ∉ name.toList := fun member => (isName_iff.mp named _ member).2.2 (by decide)
  simp [namePart, free]

theorem namePart_suffix {name name' : String} (named : isName name' = true) :
    namePart name <:+ namePart name' ↔ name = name' := by
  have blankless : ' ' ∉ name'.toList ++ ['='] := by
    simpa using fun member => (isName_iff.mp named _ member).1 rfl
  constructor
  · intro ends
    rw [namePart, namePart, List.suffix_cons_iff] at ends
    obtain same | inside := ends
    · rw [List.cons.injEq, List.append_cancel_right_eq, String.toList_inj] at same
      exact same.2
    · exact absurd (inside.subset (by simp)) blankless
  · rintro rfl
    exact List.suffix_refl _

end Markup

namespace Inspection

def deleteMark : List Char := namePart "action" ++ '"' :: ("delete".toList ++ ['"'])

theorem showsDelete_iff {line : List Char} : showsDelete line = true ↔ deleteMark <:+: line := by
  have mark : " action=\"delete\"".toList = deleteMark := by decide
  rw [showsDelete, Text.occursIn_iff, mark]

/-- Within an attribute the mark is the attribute itself. -/
theorem deleteMark_attr {name : String} (named : isName name = true) (value : String)
    {rest : List Char} (behind : rest.head? ≠ some 'd') :
    deleteMark <:+: (attr name value).toList ++ rest ↔
      (name = "action" ∧ value = "delete") ∨ deleteMark <:+: rest := by
  have unmarked : '"' ∉ namePart "action" := by decide
  have word : '"' ∉ "delete".toList := by decide
  have quoteless : '"' ∉ (escape value).toList := not_mem_escape (by decide) value
  have escaped : "delete".toList = (escape value).toList ↔ value = "delete" := by
    have itself : escape "delete" = "delete" := by decide
    rw [← itself, String.toList_inj, escape_inj, itself]
    exact eq_comm
  have outside : ¬ "delete".toList ++ ['"'] <+: rest := by
    intro begins
    obtain ⟨more, rfl⟩ := begins
    exact behind rfl
  rw [toList_attr_append, deleteMark, Text.infix_cut unmarked (quote_not_mem_namePart named),
    namePart_suffix named, Text.infix_cut unmarked quoteless, Text.prefix_cut word quoteless,
    escaped]
  simp only [List.nil_prefix, and_true, outside, and_false, false_or, eq_comm]

theorem head?_attrs (attributes : List (String × Option String)) {rest : List Char}
    (behind : rest.head? ≠ some 'd') : ((attrs attributes).toList ++ rest).head? ≠ some 'd' := by
  induction attributes with
  | nil => simpa [attrs] using behind
  | cons a others ih =>
      obtain ⟨name, value⟩ := a
      rw [attrs_cons, String.toList_append, List.append_assoc]
      cases value with
      | none => simpa [optionalAttr] using ih
      | some value =>
          rw [optionalAttr, toList_attr_append]
          simp [namePart]

theorem deleteMark_attrs {attributes : List (String × Option String)}
    (names : ∀ a ∈ attributes, isName a.1 = true) {rest : List Char}
    (behind : rest.head? ≠ some 'd') :
    deleteMark <:+: (attrs attributes).toList ++ rest ↔
      ("action", some "delete") ∈ attributes ∨ deleteMark <:+: rest := by
  induction attributes with
  | nil => simp [attrs]
  | cons a others ih =>
      obtain ⟨name, value⟩ := a
      rw [List.forall_mem_cons] at names
      have later := ih names.2
      rw [attrs_cons, String.toList_append, List.append_assoc, List.mem_cons, or_assoc]
      cases value with
      | none => simpa [optionalAttr] using later
      | some value =>
          rw [optionalAttr, deleteMark_attr names.1 value (head?_attrs others behind), later]
          simp [Prod.mk.injEq, eq_comm]

theorem deleteMark_quote {line : List Char} (occurs : deleteMark <:+: line) : '"' ∈ line :=
  occurs.subset (by decide)

/-- The mark cannot be cut out of an attribute of another name that the line breaks off in. -/
theorem not_deleteMark_cut {name : String} (named : isName name = true) (other : name ≠ "action")
    {cs : List Char} (quoteless : '"' ∉ cs) : ¬ deleteMark <:+: namePart name ++ '"' :: cs := by
  have unmarked : '"' ∉ namePart "action" := by decide
  rw [deleteMark, Text.infix_cut unmarked (quote_not_mem_namePart named), namePart_suffix named]
  rintro (⟨same, -⟩ | inside)
  · exact other same.symm
  · exact quoteless (deleteMark_quote inside)

theorem firstLine_append_of_mem {cs : List Char} (broken : '\n' ∈ cs) (rest : List Char) :
    firstLine (cs ++ rest) = firstLine cs := by
  obtain ⟨line, more, rfl, unbroken⟩ := List.eq_append_cons_of_mem broken
  rw [List.append_assoc, firstLine_append unbroken, firstLine_append unbroken, List.cons_append,
    firstLine_lineFeed, firstLine_lineFeed]

theorem firstLine_attr_of_not_mem {name value : String} (named : '\n' ∉ name.toList)
    (whole : '\n' ∉ value.toList) (rest : List Char) :
    firstLine ((attr name value).toList ++ rest) = (attr name value).toList ++ firstLine rest := by
  apply firstLine_append
  simp [toList_attr, named, lineFeed_mem_escape, whole]

theorem firstLine_attr_of_mem {name value : String} (named : '\n' ∉ name.toList)
    (broken : '\n' ∈ value.toList) (rest : List Char) :
    firstLine ((attr name value).toList ++ rest)
      = namePart name ++ '"' :: firstLine (escape value).toList := by
  have front : '\n' ∉ namePart name ++ ['"'] := by simp [namePart, named]
  have cut : (attr name value).toList ++ rest
      = (namePart name ++ ['"']) ++ ((escape value).toList ++ '"' :: rest) := by
    rw [toList_attr_append, List.append_assoc, List.singleton_append]
  rw [cut, firstLine_append front, firstLine_append_of_mem (lineFeed_mem_escape.mpr broken),
    List.append_assoc, List.singleton_append]

theorem head?_firstLine {rest : List Char} (behind : rest.head? ≠ some 'd') :
    (firstLine rest).head? ≠ some 'd' := by
  cases rest with
  | nil => exact behind
  | cons c rest =>
      rw [firstLine, List.takeWhile_cons]
      split
      · exact behind
      · simp

/-- An attribute in front of the action hides it if its value is broken into lines. -/
theorem deleteMark_firstLine {name : String} (named : isName name = true)
    (unbroken : '\n' ∉ name.toList) (other : name ≠ "action") (value : Option String)
    {rest : List Char} (behind : rest.head? ≠ some 'd') :
    deleteMark <:+: firstLine ((optionalAttr name value).toList ++ rest) ↔
      (∀ v, value = some v → '\n' ∉ v.toList) ∧ deleteMark <:+: firstLine rest := by
  cases value with
  | none => simp [optionalAttr]
  | some value =>
      rw [optionalAttr]
      by_cases broken : '\n' ∈ value.toList
      · have quoteless : '"' ∉ firstLine (escape value).toList := by
          intro member
          exact not_mem_escape (by decide) value ((prefix_firstLine _).subset member)
        rw [firstLine_attr_of_mem unbroken broken]
        simp [not_deleteMark_cut named other quoteless, broken]
      · rw [firstLine_attr_of_not_mem unbroken broken,
          deleteMark_attr named value (head?_firstLine behind)]
        simp [other, broken]

/-- The action shows in what is left of the line in front of it. -/
theorem deleteMark_firstLine_action (action : Option Action)
    {others : List (String × Option String)} (names : ∀ a ∈ others, isName a.1 = true)
    (other : ∀ a ∈ others, a.1 ≠ "action") :
    deleteMark <:+: firstLine ((optionalAttr "action" (action.map Action.wire)).toList
        ++ ((attrs others).toList ++ ['>'])) ↔ action = some .delete := by
  have absent : ¬ deleteMark <:+: firstLine ((attrs others).toList ++ ['>']) := by
    intro occurs
    have whole := occurs.trans (prefix_firstLine _).isInfix
    rw [deleteMark_attrs names (by decide)] at whole
    obtain listed | bracket := whole
    · exact other _ listed rfl
    · exact absurd (deleteMark_quote bracket) (by decide)
  cases action with
  | none => simpa [optionalAttr] using absent
  | some action =>
      have unbroken : '\n' ∉ action.wire.toList := by cases action <;> decide
      have wire : action.wire = "delete" ↔ action = .delete := by cases action <;> decide
      rw [Option.map_some, optionalAttr, firstLine_attr_of_not_mem (by decide) unbroken,
        deleteMark_attr (by decide) action.wire (head?_firstLine (head?_attrs others (by decide)))]
      simp [absent, wire]

end Inspection

/-- A line feed stands in an address in front of the action. -/
def RecordAttributes.hasBrokenAddress (r : RecordAttributes) : Bool :=
  r.url.toList.contains '\n' || r.displayUrl.any fun u => u.toList.contains '\n'

theorem RecordAttributes.deleteMark_firstLine_iff (r : RecordAttributes) :
    deleteMark <:+: r.firstLine ↔
      deleteMark <:+: Inspection.firstLine ((attrs r.listed).toList ++ ['>']) := by
  have blank : deleteMark = ' ' :: "action=\"delete\"".toList := by decide
  rw [r.firstLine_eq, blank]
  exact Text.infix_append_of_not_mem (by decide) _

/-- A deletion shows in the first line of the tag unless an address breaks that line. -/
theorem RecordAttributes.showsDelete_firstLine (r : RecordAttributes) :
    showsDelete r.firstLine = (r.isDelete && !r.hasBrokenAddress) := by
  let others : List (String × Option String) := r.listed.drop 3
  have listed : r.listed = ("url", some r.url) :: ("displayurl", r.displayUrl)
      :: ("action", r.action.map Action.wire) :: others := rfl
  have names : ∀ a ∈ others, isName a.1 = true := fun a member =>
    r.isName_listed a (List.mem_of_mem_drop member)
  have other : ∀ a ∈ others, a.1 ≠ "action" := by
    simp [others, RecordAttributes.listed]
  have behind (attributes : List (String × Option String)) :
      ((attrs attributes).toList ++ ['>']).head? ≠ some 'd' := head?_attrs attributes (by decide)
  have cut (name : String) (value : Option String) (attributes : List (String × Option String)) :
      (attrs ((name, value) :: attributes)).toList ++ ['>']
        = (optionalAttr name value).toList ++ ((attrs attributes).toList ++ ['>']) := by
    rw [attrs_cons, String.toList_append, List.append_assoc]
  rw [Bool.eq_iff_iff, showsDelete_iff, r.deleteMark_firstLine_iff, listed, cut,
    deleteMark_firstLine (by decide) (by decide) (by decide) _ (behind _), cut,
    deleteMark_firstLine (by decide) (by decide) (by decide) _ (behind _), cut,
    deleteMark_firstLine_action r.action names other, RecordAttributes.isDelete,
    RecordAttributes.hasBrokenAddress]
  cases r.displayUrl with
  | none =>
      simp [and_comm]
  | some u =>
      simp [and_comm, and_assoc]

namespace Element

def isDelete : Element → Bool
  | acl _ => false
  | record r => r.attributes.isDelete

def hasBrokenAddress : Element → Bool
  | acl _ => false
  | record r => r.attributes.hasBrokenAddress

theorem showsDelete_eq (e : Element) : e.showsDelete = (e.isDelete && !e.hasBrokenAddress) := by
  cases e with
  | acl a => rfl
  | record r => exact r.attributes.showsDelete_firstLine

/-- All deletions show if and only if no address breaks a line of one of them. -/
theorem countP_unbroken_iff (elements : List Element) :
    elements.countP (fun e => e.isDelete && !e.hasBrokenAddress) = elements.countP isDelete ↔
      ∀ e ∈ elements, e.isDelete = true → e.hasBrokenAddress = false := by
  induction elements with
  | nil => simp
  | cons e rest ih =>
      have fewer : rest.countP (fun e => e.isDelete && !e.hasBrokenAddress)
          ≤ rest.countP isDelete := by
        apply List.countP_mono_left
        intro e _ unbroken
        exact (Bool.and_eq_true_iff.mp unbroken).1
      rw [List.countP_cons, List.countP_cons, List.forall_mem_cons, ← ih]
      cases e.isDelete with
      | false => simp
      | true =>
          cases e.hasBrokenAddress with
          | false => simp
          | true =>
              simp
              omega

end Element

namespace Feed

theorem openWith_deletes {o : FeedOptions} (lawful : o.codec.Lawful) (id : String) (taken : Taken)
    (steps : List FeedStep)
    (uncopied : (FeedOutline.run {} o.rules taken steps).2.1.copied = []) :
    ∃ text, Utf8.decode? ((openWith o id).run taken (steps.map .step)).2.1.bytes.toList
        = some text ∧
      (Inspection.ofText text).deletes
        = (FeedOutline.run {} o.rules taken steps).2.1.elements.countP
            fun e => e.isDelete && !e.hasBrokenAddress := by
  have accounts := FeedOutline.accounts_run o.rules lawful taken steps
  obtain ⟨text, bytes⟩ := accounts.exists_text (by simp [uncopied]) o
  refine ⟨text, ?_, ?_⟩
  · rw [openWith_run_bytes, Utf8.decode?_eq_some, bytes]
  · have shown := (FeedOutline.ofText_eq bytes (accounts.bracketless (by simp [uncopied]))).2.1
    rw [shown]
    exact List.countP_congr fun e _ => by rw [e.showsDelete_eq]

/-- Of the deletions in a feed without copied payloads, inspection finds those whose addresses hold
no line feed. The encoders may be any that put out the formats they are named for. -/
theorem run_deletes (o : FeedOptions) (lawful : o.codec.Lawful) (usable : o.check = .ok ())
    (ids : FeedIds) :
    ∃ f left, create o ids = .ok (f, left) ∧
      ∀ (taken : Taken) (steps : List FeedStep),
        let reached := (f.run taken (steps.map .step)).2.1
        let v := (FeedOutline.run {} o.rules taken steps).2.1
        v.copied = [] →
          ∃ text, Utf8.decode? reached.bytes.toList = some text ∧
            let found := Inspection.ofText text
            found.deletes = v.elements.countP (fun e => e.isDelete && !e.hasBrokenAddress) ∧
              (found.deletes = v.elements.countP Element.isDelete ↔
                ∀ e ∈ v.elements, e.isDelete = true → e.hasBrokenAddress = false) := by
  refine ⟨_, _, create_ok usable ids, ?_⟩
  intro taken steps reached v uncopied
  obtain ⟨text, decoded, deletes⟩ := openWith_deletes lawful ids.next.1 taken steps uncopied
  refine ⟨text, decoded, deletes, ?_⟩
  rw [deletes]
  exact Element.countP_unbroken_iff v.elements

/-- One address looks like the beginning of an action, the other one is broken into two lines. -/
theorem run_deletes_of_two :
    let o : FeedOptions := { dataSource := "hr" }
    let deletion (shown : String) : Document :=
      (PropertyTable.ofPairs
        [(Property.docid, .string "a"), (Property.action, .string "delete"),
          (Property.displayUrl, .string shown)]).toDocument
    let steps := [.add (deletion "x action="), .add (deletion "x\ny"), .close]
    o.codec.Lawful ∧ o.check = .ok () ∧
      ∃ f left, create o (.sequential "hr") = .ok (f, left) ∧
        let v := (FeedOutline.run {} o.rules {} steps).2.1
        v.copied = [] ∧ v.elements.countP Element.isDelete = 2 ∧
          ∃ text, Utf8.decode? (f.run {} (steps.map .step)).2.1.bytes.toList = some text ∧
            (Inspection.ofText text).deletes = 1 := by
  have usable : FeedOptions.check { dataSource := "hr" } = .ok () := rfl
  intro o deletion steps
  have lawful : o.codec.Lawful := ContentCodec.standard_lawful
  obtain ⟨f, left, opened, deletes⟩ := run_deletes o lawful usable (.sequential "hr")
  refine ⟨lawful, usable, f, left, opened, ?_⟩
  intro v
  have uncopied : v.copied = [] := by decide +kernel
  have deletions : v.elements.countP Element.isDelete = 2 ∧
      v.elements.countP (fun e => e.isDelete && !e.hasBrokenAddress) = 1 := by decide +kernel
  obtain ⟨text, decoded, found, -⟩ := deletes {} steps uncopied
  exact ⟨uncopied, deletions.1, text, decoded, found.trans deletions.2⟩

/-- A record that deletes is not counted if its address for display is broken into two lines. -/
theorem missed_delete_of_broken_address :
    let o : FeedOptions := { dataSource := "hr" }
    let d := (PropertyTable.ofPairs
      [(Property.docid, .string "a"), (Property.action, .string "delete"),
        (Property.displayUrl, .string "x\ny")]).toDocument
    let steps := [.add d, .close]
    ∃ f left, create o (.sequential "hr") = .ok (f, left) ∧
      let run := f.run {} (steps.map .step)
      let v := (FeedOutline.run {} o.rules {} steps).2.1
      run.1.map Except.toOption = [some 1, some 0] ∧
        run.2.1.bytes.toList = Piece.allBytes (v.pieces o) ∧ v.copied = [] ∧
        v.elements.countP Element.isDelete = 1 ∧
        ∃ text, Utf8.decode? run.2.1.bytes.toList = some text ∧
          (Inspection.ofText text).deletes = 0 := by
  have usable : FeedOptions.check { dataSource := "hr" } = .ok () := rfl
  intro o d steps
  refine ⟨_, _, create_ok usable _, ?_⟩
  intro run v
  have outcomes :
      (FeedOutline.run {} o.rules {} steps).1.map Except.toOption = [some 1, some 0] := by
    decide +kernel
  have uncopied : v.copied = [] := by decide +kernel
  have deletions : v.elements.countP Element.isDelete = 1 ∧
      v.elements.countP (fun e => e.isDelete && !e.hasBrokenAddress) = 0 := by decide +kernel
  have lawful : o.codec.Lawful := ContentCodec.standard_lawful
  obtain ⟨text, decoded, found⟩ := openWith_deletes lawful _ {} steps uncopied
  refine ⟨?_, openWith_run_bytes o _ {} steps, uncopied, deletions.1, text, decoded,
    found.trans deletions.2⟩
  rw [(openWith_run o _ {} steps).outcome]
  exact outcomes

end Feed

end IndexFeed
