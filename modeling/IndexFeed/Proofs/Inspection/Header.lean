import IndexFeed.Proofs.Inspection.Feed
import IndexFeed.Proofs.Markup.Entity

/-!
The header of a feed under inspection. Its texts stand between tags that begin with a bracket, which
escaped text does not hold, so the first tags of that kind are the header's own, and what stands
between them is the escaped text whole.
-/

namespace IndexFeed

open Inspection Markup

namespace Inspection

theorem resolveEntities_escape (s : String) : resolveEntities (escape s).toList = s.toList :=
  resolveInTurn_escape s

/-- Both marks are found where they stand if each passes over the text in front of it. -/
theorem enclosed_eq {opening closing : String} (some_opening : opening.toList ≠ [])
    (some_closing : closing.toList ≠ []) {front inside : List Char}
    (before : Text.misses opening.toList front = true)
    (between : Text.misses closing.toList inside = true) (back : List Char) :
    enclosed opening closing
      (front ++ (opening.toList ++ (inside ++ (closing.toList ++ back)))) = some inside := by
  simp only [enclosed, Text.splitFirst_append some_opening before,
    Text.splitFirst_append some_closing between, Option.bind_eq_bind, Option.bind_some]

end Inspection

namespace Feed

/-- The text of a prolog in front of the header's first tag. -/
def declaration : String :=
  "<?xml version='1.0' encoding='UTF-8'?>"
    ++ "<!DOCTYPE gsafeed PUBLIC \"-//Google//DTD GSA Feeds//EN\" \"gsafeed.dtd\">\n"
    ++ "<gsafeed>\n<header>"

theorem misses_declaration {tag : String} (listed : tag = "<datasource>" ∨ tag = "<feedtype>") :
    Text.misses tag.toList declaration.toList = true := by
  obtain rfl | rfl := listed
  · decide +kernel
  · decide +kernel

theorem escape_headerName (type : FeedType) : escape type.headerName = type.headerName := by
  cases type <;> decide

theorem toList_prolog (o : FeedOptions) :
    (prolog o).toList = declaration.toList ++ ("<datasource>".toList
      ++ ((escape o.dataSource).toList ++ ("</datasource>".toList ++ ("<feedtype>".toList
        ++ ((escape o.feedType.headerName).toList ++ ("</feedtype>".toList
          ++ "</header>\n<group>\n".toList)))))) := by
  have opened : "<gsafeed>\n<header><datasource>" = "<gsafeed>\n<header>" ++ "<datasource>" := by
    decide
  have between : "</datasource><feedtype>" = "</datasource>" ++ "<feedtype>" := by decide
  have closed : "</feedtype></header>\n<group>\n" = "</feedtype>" ++ "</header>\n<group>\n" := by
    decide
  rw [escape_headerName]
  delta prolog declaration
  rw [opened, between, closed]
  simp only [String.toList_append, List.append_assoc]

/-- A tag's name does not matter here: its bracket is not in escaped text. -/
theorem misses_escape {tag : String} {name : List Char} (bracket : tag.toList = '<' :: name)
    (s : String) : Text.misses tag.toList (escape s).toList = true := by
  rw [bracket]
  exact Text.misses_of_not_mem (not_mem_escape (by decide) s)

theorem enclosed_datasource (o : FeedOptions) (rest : String) :
    enclosed "<datasource>" "</datasource>" (prolog o ++ rest).toList
      = some (escape o.dataSource).toList := by
  rw [String.toList_append, toList_prolog]
  simp only [List.append_assoc]
  exact enclosed_eq (by decide) (by decide) (misses_declaration (.inl rfl)) (misses_escape rfl _) _

theorem enclosed_feedtype (o : FeedOptions) (rest : String) :
    enclosed "<feedtype>" "</feedtype>" (prolog o ++ rest).toList
      = some (escape o.feedType.headerName).toList := by
  have front : (prolog o ++ rest).toList
      = (declaration.toList ++ "<datasource>".toList ++ (escape o.dataSource).toList
          ++ "</datasource>".toList) ++ ("<feedtype>".toList
        ++ ((escape o.feedType.headerName).toList ++ ("</feedtype>".toList
          ++ ("</header>\n<group>\n".toList ++ rest.toList)))) := by
    rw [String.toList_append, toList_prolog]
    simp only [List.append_assoc]
  rw [front]
  refine enclosed_eq (by decide) (by decide) ?_ (misses_escape rfl _) _
  have datasource : Text.misses "<feedtype>".toList "<datasource>".toList = true := by decide
  have ending : Text.misses "<feedtype>".toList "</datasource>".toList = true := by decide
  have opened := Text.misses_append (misses_declaration (.inr rfl)) datasource
  exact Text.misses_append (Text.misses_append opened (misses_escape rfl _)) ending

/-- Inspection finds the texts of the header, whatever follows it. -/
theorem header_of_prolog (o : FeedOptions) (rest : String) :
    (ofText (prolog o ++ rest)).dataSource = some o.dataSource ∧
      (ofText (prolog o ++ rest)).feedType = some o.feedType.headerName := by
  have resolved (s : String) : String.ofList (resolveEntities (escape s).toList) = s := by
    rw [resolveEntities_escape, String.ofList_toList]
  constructor
  · simp only [ofText, enclosed_datasource, Option.map_some, resolved]
  · simp only [ofText, enclosed_feedtype, Option.map_some, resolved]

end Feed

/-- The text of a feed begins with its prolog. -/
theorem FeedOutline.exists_rest {v : FeedOutline} {o : FeedOptions} {text : String}
    (bytes : Utf8.encode text = Piece.allBytes (v.pieces o)) :
    ∃ rest, text = Feed.prolog o ++ rest := by
  rw [v.allBytes_pieces o] at bytes
  obtain ⟨rest, whole, -⟩ := Utf8.encode_eq_encode_append bytes
  exact ⟨rest, whole⟩

namespace Feed

/-- Whatever documents were added to a feed, inspection of its text reports the data source and
the kind of feed that the feed was opened with: what it finds between the tags of the data source is
the escaped text, and resolving the entities in turn gives back the data source itself. The encoders
may be any that put out the formats they are named for. -/
theorem run_header (o : FeedOptions) (lawful : o.codec.Lawful) (usable : o.check = .ok ())
    (ids : FeedIds) :
    ∃ f left, create o ids = .ok (f, left) ∧
      ∀ (taken : Taken) (steps : List FeedStep),
        let reached := (f.run taken (steps.map .step)).2.1
        let v := (FeedOutline.run {} o.rules taken steps).2.1
        ((∀ payload ∈ v.copied, (Utf8.decode? payload).isSome) →
          (Utf8.decode? reached.bytes.toList).isSome) ∧
        ∀ text, Utf8.decode? reached.bytes.toList = some text →
          let found := Inspection.ofText text
          found.dataSource = some o.dataSource ∧
            found.feedType = some o.feedType.headerName ∧
            enclosed "<datasource>" "</datasource>" text.toList
              = some (escape o.dataSource).toList ∧
            resolveEntities (escape o.dataSource).toList = o.dataSource.toList := by
  refine ⟨_, _, create_ok usable ids, ?_⟩
  intro taken steps reached v
  have bytes : reached.bytes.toList = Piece.allBytes (v.pieces o) :=
    openWith_run_bytes o ids.next.1 taken steps
  have accounts : v.Accounts := FeedOutline.accounts_run o.rules lawful taken steps
  rw [bytes]
  constructor
  · intro readable
    obtain ⟨text, encoded⟩ := accounts.exists_text readable o
    rw [← encoded, Utf8.decode?_encode]
    rfl
  · intro text decoded found
    obtain ⟨rest, whole⟩ := FeedOutline.exists_rest (Utf8.decode?_eq_some.mp decoded)
    obtain ⟨source, type⟩ := header_of_prolog o rest
    simp only [found, whole]
    exact ⟨source, type, enclosed_datasource o rest, resolveEntities_escape o.dataSource⟩

/-- The data source looks like a header itself, holds an entity whose escaping holds another one,
and is broken into lines. The payload that is copied opens a tag. -/
theorem run_header_of_markup :
    let o : FeedOptions := { dataSource := "\"h&r\"</datasource>\n<feedtype>&amp;lt;" }
    let copying : Document :=
      ⟨(PropertyTable.ofPairs
          [(Property.docid, .string "a"), (Property.contentEncoding, .string "base64binary"),
            (Property.content, .binary [60, 100])]).toDocument.find, .ok []⟩
    let steps := [.add copying, .close]
    o.codec.Lawful ∧ o.check = .ok () ∧
      ∃ f left, create o (.sequential "hr") = .ok (f, left) ∧
        let reached := (f.run {} (steps.map .step)).2.1
        (FeedOutline.run {} o.rules {} steps).2.1.copied = [[60, 100]] ∧
          ∃ text, Utf8.decode? reached.bytes.toList = some text ∧
            let found := Inspection.ofText text
            found.dataSource = some "\"h&r\"</datasource>\n<feedtype>&amp;lt;" ∧
              found.feedType = some "incremental" := by
  intro o copying steps
  have usable : o.check = .ok () := by decide
  have lawful : o.codec.Lawful := ContentCodec.standard_lawful
  obtain ⟨f, left, opened, inspected⟩ := run_header o lawful usable (.sequential "hr")
  refine ⟨lawful, usable, f, left, opened, ?_⟩
  intro reached
  have copied : (FeedOutline.run {} o.rules {} steps).2.1.copied = [[60, 100]] := by
    decide +kernel
  obtain ⟨decodes, reports⟩ := inspected {} steps
  have readable : ∀ payload ∈ (FeedOutline.run {} o.rules {} steps).2.1.copied,
      (Utf8.decode? payload).isSome := by
    rw [copied]
    decide
  obtain ⟨text, decoded⟩ := Option.isSome_iff_exists.mp (decodes readable)
  obtain ⟨source, type, -⟩ := reports text decoded
  exact ⟨copied, text, decoded, source, type⟩

end Feed

end IndexFeed
