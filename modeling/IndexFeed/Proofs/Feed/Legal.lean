import IndexFeed.Proofs.Feed.Outline
import IndexFeed.Proofs.Rules.Legal

/-!
Which characters a feed holds outside its payloads. Nothing in the encoder looks for characters that
XML 1.0 does not have: those of the data source and of the data written are in the feed, and no
others. So a feed of legal documents is legal, and one document that is not makes it illegal.
-/

namespace IndexFeed

open Outcome

/-- Documents held in memory are legal if their properties are. -/
theorem PropertyTable.isLegal_toDocument {t : PropertyTable}
    (legal : ∀ e ∈ t.entries, Text.IsLegal e.1 ∧
      (e.1 ≠ Property.content → ∀ v ∈ e.2, v.IsLegal)) : t.toDocument.IsLegal where
  names := by
    refine gives_ok fun name member => ?_
    obtain ⟨e, listed, rfl⟩ := List.mem_map.mp member
    exact (legal e listed).1
  values name other := by
    refine gives_ok ?_
    rintro p found v member
    obtain ⟨values, held, rfl⟩ := Option.map_eq_some_iff.mp found
    obtain ⟨front, back, split, -⟩ := List.lookup_eq_some_iff.mp held
    exact (legal (name, values) (by rw [split]; simp)).2 other v member

namespace Feed

theorem isLegal_prolog {o : FeedOptions} : Text.IsLegal (prolog o) ↔ Text.IsLegal o.dataSource := by
  have type : Text.IsLegal o.feedType.headerName := by cases o.feedType <;> decide
  have declaration : Text.IsLegal "<?xml version='1.0' encoding='UTF-8'?>" := by decide
  have doctype : Text.IsLegal
      "<!DOCTYPE gsafeed PUBLIC \"-//Google//DTD GSA Feeds//EN\" \"gsafeed.dtd\">\n" := by decide
  have header : Text.IsLegal "<gsafeed>\n<header><datasource>" := by decide
  have between : Text.IsLegal "</datasource><feedtype>" := by decide
  have group : Text.IsLegal "</feedtype></header>\n<group>\n" := by decide
  delta prolog
  simp only [Text.isLegal_append, Markup.isLegal_escape, type, declaration, doctype, header,
    between, group, true_and, and_true]

theorem isLegal_epilog : Text.IsLegal epilog := by decide

end Feed

namespace FeedOutline

variable {v : FeedOutline} {r : FeedRules} {d : Document}

/-- An outline whose elements have legal data. -/
def IsLegal (v : FeedOutline) : Prop := ∀ e ∈ v.elements, e.IsLegal

theorem isLegal_pieces {o : FeedOptions} :
    (∀ s, .text s ∈ v.pieces o → Text.IsLegal s) ↔ Text.IsLegal o.dataSource ∧ v.IsLegal := by
  rw [← Feed.isLegal_prolog, IsLegal, ← Element.isLegal_allPieces]
  constructor
  · intro whole
    exact ⟨whole _ (by simp [pieces]), fun s member => whole s (by simp [pieces, member])⟩
  · rintro ⟨first, each⟩ s member
    simp only [pieces, List.mem_append, List.mem_cons, Piece.text.injEq] at member
    obtain (rfl | inside) | ending := member
    · exact first
    · exact each s inside
    · split at ending
      · rw [List.mem_singleton, Piece.text.injEq] at ending
        exact ending ▸ Feed.isLegal_epilog
      · cases ending

theorem IsLegal.add (legal : v.IsLegal) (location : r.location.IsLegal) (readable : d.IsLegal)
    (taken : Taken) : (v.add r d taken).2.1.IsLegal := by
  obtain same | ⟨elements, left, found, grown⟩ := v.add_cases r d taken
  · rwa [same]
  · rw [grown, IsLegal, List.forall_mem_append]
    exact ⟨legal, FeedRules.gives_elements location readable elements (congrArg Prod.fst found)⟩

theorem IsLegal.run (legal : v.IsLegal) (location : r.location.IsLegal) (taken : Taken)
    {steps : List FeedStep} (readable : ∀ d, .add d ∈ steps → d.IsLegal) :
    (v.run r taken steps).2.1.IsLegal := by
  apply run_keeps _ legal
  intro s member v taken legal
  cases s with
  | add d => exact legal.add location (readable d member) taken
  | close => exact legal
  | setCount count => exact legal

end FeedOutline

namespace Feed

/-- However documents are added, a feed is closed and its count is set, the texts of the feed, which
are all of it but the payloads, are legal exactly if the data source and the data of its elements
are. They are if the data source, the base of content addresses and the names and values of the
documents added are, the values of their content aside. -/
theorem run_legal (o : FeedOptions) (usable : o.check = .ok ()) (ids : FeedIds) :
    ∃ f ids', create o ids = .ok (f, ids') ∧
      ∀ (taken : Taken) (steps : List FeedStep),
        let reached := (f.run taken (steps.map .step)).2.1
        let v := (FeedOutline.run {} o.rules taken steps).2.1
        reached.bytes.toList = Piece.allBytes (v.pieces o) ∧
          ((∀ s, .text s ∈ v.pieces o → Text.IsLegal s) ↔
            Text.IsLegal o.dataSource ∧ ∀ e ∈ v.elements, e.IsLegal) ∧
          (Text.IsLegal o.dataSource → (∀ base ∈ o.contentBase, Text.IsLegal base) →
            (∀ d, .add d ∈ steps → d.IsLegal) → ∀ s, .text s ∈ v.pieces o → Text.IsLegal s) := by
  refine ⟨_, _, create_ok usable ids, ?_⟩
  intro taken steps reached v
  refine ⟨openWith_run_bytes o _ taken steps, FeedOutline.isLegal_pieces, ?_⟩
  intro dataSource contentBase readable
  have nothing : ({} : FeedOutline).IsLegal := by simp [FeedOutline.IsLegal]
  have location : o.rules.location.IsLegal := ⟨dataSource, contentBase⟩
  exact FeedOutline.isLegal_pieces.mpr ⟨dataSource, nothing.run location taken readable⟩

/-- A document whose identifier and whose reader hold markup and letters outside ASCII. -/
theorem run_legal_of_markup :
    let o : FeedOptions := { dataSource := "h&r", feedType := .contentUrl }
    let table : PropertyTable :=
      ⟨[(Property.docid, [.string "<é>"]), (Property.aclUsers, [.string "eve\"\t>"])]⟩
    let steps := [.add table.toDocument, .close]
    o.check = .ok () ∧ table.toDocument.IsLegal ∧
      ∃ f ids', create o (.sequential "hr") = .ok (f, ids') ∧
        let v := (FeedOutline.run {} o.rules {} steps).2.1
        v.elements.length = 2 ∧
          (f.run {} (steps.map .step)).2.1.bytes.toList = Piece.allBytes (v.pieces o) ∧
          ∀ s, .text s ∈ v.pieces o → Text.IsLegal s := by
  have usable : FeedOptions.check { dataSource := "h&r", feedType := .contentUrl } = .ok () := rfl
  intro o table steps
  have readable : table.toDocument.IsLegal := by
    apply PropertyTable.isLegal_toDocument
    have docid : Text.IsLegal "<é>" := by decide
    have user : Text.IsLegal "eve\"\t>" := by decide
    simp only [table, List.forall_mem_cons, Value.IsLegal, docid, user]
    exact ⟨⟨by decide, by simp⟩, ⟨by decide, by simp⟩, by simp⟩
  obtain ⟨f, ids', opened, holds⟩ := run_legal o usable (.sequential "hr")
  obtain ⟨bytes, -, legal⟩ := holds {} steps
  refine ⟨usable, readable, f, ids', opened, by decide +kernel, bytes, ?_⟩
  have added : ∀ d, .add d ∈ steps → d.IsLegal := by
    intro d member
    simp only [steps, List.mem_cons, FeedStep.add.injEq, reduceCtorEq, List.not_mem_nil,
      or_false] at member
    exact member ▸ readable
  exact legal (by decide) (by simp [o]) added

/-- A control character in the address that a record shows is in the feed. -/
theorem run_illegal_of_control_character :
    let o : FeedOptions := { dataSource := "hr", feedType := .contentUrl }
    let d := (PropertyTable.mk
      [(Property.docid, [.string "a"]), (Property.displayUrl, [.string "\x01"])]).toDocument
    let steps := [.add d, .close]
    o.check = .ok () ∧
      ∃ f ids', create o (.sequential "hr") = .ok (f, ids') ∧
        let v := (FeedOutline.run {} o.rules {} steps).2.1
        (f.run {} (steps.map .step)).2.1.bytes.toList = Piece.allBytes (v.pieces o) ∧
          ∃ s, .text s ∈ v.pieces o ∧ ¬ Text.IsLegal s := by
  have usable : FeedOptions.check { dataSource := "hr", feedType := .contentUrl } = .ok () := rfl
  intro o d steps
  refine ⟨usable, _, _, create_ok usable _, openWith_run_bytes o _ {} steps, ?_⟩
  have found : (Element.allPieces (FeedOutline.run {} o.rules {} steps).2.1.elements).any
      (fun p => p.logged.toList.contains '\x01') = true := by
    decide +kernel
  obtain ⟨piece, member, control⟩ := List.any_eq_true.mp found
  cases piece with
  | text s =>
      refine ⟨s, by simp [FeedOutline.pieces, member], ?_⟩
      intro legal
      exact absurd (legal '\x01' (List.contains_iff_mem.mp control)) (by decide)
  | payload bytes =>
      have absent : payloadMark.toList.contains '\x01' = false := by decide
      rw [Piece.logged, absent] at control
      cases control

end Feed

end IndexFeed
