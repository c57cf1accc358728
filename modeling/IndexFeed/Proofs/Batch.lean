import IndexFeed.Batch.Encode
import IndexFeed.Proofs.Feed.Fragment

/-!
What encoding a batch comes to. At every moment the feeds that were stored and the current one hold
the fragments of the documents so far, each of them once and in the order of the batch; so do the
stored feeds at the end.
-/

namespace IndexFeed

theorem feedFileName_injective {extension : String} {a b : Nat}
    (h : feedFileName a extension = feedFileName b extension) : a = b := by
  have digits (n : Nat) : Nat.ofDigitChars 10 (Decimal.padded 4 n).toList 0 = n := by
    simp [Decimal.padded, Nat.ofDigitChars_append]
  have same : Decimal.padded 4 a = Decimal.padded 4 b := by
    have chars := congrArg String.toList h
    simp only [feedFileName, String.toList_append, List.append_assoc, List.append_cancel_left_eq,
      List.append_cancel_right_eq, String.toList_inj] at chars
    exact chars
  rw [← digits a, same, digits]

/-- The fragment of the document at a position of a batch, if the document can be read and written.
-/
def BatchDocument.fragment? (o : FeedOptions) (d : BatchDocument × Nat) : Option Fragment :=
  match d.1.toTable d.2 with
  | .ok table => o.rules.fragment? table.toDocument
  | .error _ => none

/-- A feed stored under a number, which holds some fragments between its prolog and its epilog. -/
structure StoredFeed.Holds (o : FeedOptions) (stem : String) (number : Nat) (f : StoredFeed)
    (fragments : List Fragment) : Prop where
  name : f.name = "feed-" ++ Decimal.padded 4 number ++ ".xml"
  id : f.id = stem ++ "-" ++ Decimal.ofNat number
  bytes : f.bytes.toList
    = Utf8.encode (Feed.prolog o) ++ fragments.flatMap Fragment.bytes ++ Utf8.encode Feed.epilog
  size : f.size = f.bytes.toList.length
  records : f.records.toNat = (fragments.map Fragment.count).sum
  file : (f.name, f.bytes.toList) ∈ f.stored

/-- Feeds that were stored one after the other, with the fragments that each of them holds. -/
def AreStored (o : FeedOptions) (stem : String) (feeds : List StoredFeed)
    (parts : List (List Fragment)) : Prop :=
  feeds.length = parts.length ∧
    ∀ (i : Nat) (f : StoredFeed) (part : List Fragment),
      feeds[i]? = some f → parts[i]? = some part → f.Holds o stem i part

variable {o : FeedOptions} {stem : String}

theorem AreStored.snoc {feeds : List StoredFeed} {parts : List (List Fragment)}
    (h : AreStored o stem feeds parts) {f : StoredFeed} {part : List Fragment}
    (next : f.Holds o stem parts.length part) :
    AreStored o stem (feeds ++ [f]) (parts ++ [part]) := by
  refine ⟨by simp [h.1], ?_⟩
  intro i g p found foundPart
  obtain below | rfl | above := Nat.lt_trichotomy i parts.length
  · rw [List.getElem?_append_left (h.1 ▸ below)] at found
    rw [List.getElem?_append_left below] at foundPart
    exact h.2 i g p found foundPart
  · rw [← h.1, List.getElem?_concat_length, Option.some.injEq] at found
    rw [List.getElem?_concat_length, Option.some.injEq] at foundPart
    exact found ▸ foundPart ▸ next
  · rw [List.getElem?_eq_none (by simp; omega)] at foundPart
    cases foundPart

@[simp] theorem StoredFeed.records_ofFeed (number : Nat) (f : Feed) :
    (StoredFeed.ofFeed number f).records = f.recordCount :=
  f.recordCount_close

theorem StoredFeed.bytes_ofFeed {id : String} {f : Feed} {fragments : List Fragment}
    (h : f.Holds o id fragments) (number : Nat) :
    (StoredFeed.ofFeed number f).bytes.toList
      = Utf8.encode (Feed.prolog o) ++ Fragment.allBytes fragments ++ Utf8.encode Feed.epilog := by
  have bytes : f.close.bytes.toList = _ := Feed.bytes_close h.ready
  rwa [h.bytes] at bytes

theorem StoredFeed.ofFeed_holds {number : Nat} {f : Feed} {fragments : List Fragment}
    (h : f.Holds o (stem ++ "-" ++ Decimal.ofNat number) fragments)
    (bounded : Fragment.total fragments < 2 ^ 64) :
    (StoredFeed.ofFeed number f).Holds o stem number fragments := by
  refine ⟨?_, f.id_close.trans h.id, bytes_ofFeed h number, (Array.length_toList).symm, ?_, ?_⟩
  · rw [StoredFeed.name, feedFileName, String.append_assoc]
    rfl
  · rw [records_ofFeed]
    exact h.recordCount_toNat bounded
  · rw [StoredFeed.stored]
    exact List.mem_append_right _ (List.mem_singleton_self _)

namespace BatchRun

/-- A run behind some documents of the batch. The fragments of these documents are those of the
feeds stored so far and behind them those of the current feed. -/
structure Holds (o : FeedOptions) (stem : String) (r : BatchRun)
    (done : List (BatchDocument × Nat)) (parts : List (List Fragment)) (current : List Fragment) :
    Prop where
  options : r.options = o
  ids : r.ids = { FeedIds.sequential stem with used := r.number + 1 }
  number : r.number = parts.length
  feed : r.current.Holds o (stem ++ "-" ++ Decimal.ofNat r.number) current
  bounded : Fragment.total current < 2 ^ 64
  stored : AreStored o stem (r.history.toList.filterMap BatchEvent.stored?) parts
  fragments : parts.flatten ++ current = done.filterMap (BatchDocument.fragment? o)
  skipped : r.history.toList.countP BatchEvent.isSkip
    = done.countP fun d => (BatchDocument.fragment? o d).isNone

/-- The current feed has room for a byte, or no records yet. -/
def HasRoom (o : FeedOptions) (r : BatchRun) (current : List Fragment) : Prop :=
  current = [] ∨ r.current.size < o.maxFeedSize.toNat

variable {r : BatchRun} {done : List (BatchDocument × Nat)} {parts : List (List Fragment)}
  {current : List Fragment}

theorem start_holds (usable : o.check = .ok ()) (stem : String) :
    ∃ r, start o (.sequential stem) = .ok r ∧ r.Holds o stem [] [] [] ∧ r.HasRoom o [] := by
  refine ⟨⟨o, Feed.openWith o (stem ++ "-" ++ Decimal.ofNat 0),
    { FeedIds.sequential stem with used := 1 }, 0, #[.opened (stem ++ "-" ++ Decimal.ofNat 0)]⟩,
    ?_, ?_, .inl rfl⟩
  · rw [start, Feed.create_ok usable]
    rfl
  · exact
      { options := rfl
        ids := rfl
        number := rfl
        feed := Feed.openWith_holds o _
        bounded := by decide
        stored := ⟨rfl, by simp⟩
        fragments := rfl
        skipped := rfl }

/-- The run behind a full feed, which was stored, with the next feed open. -/
def rolled (r : BatchRun) : BatchRun :=
  { r with
    current := Feed.openWith r.options r.ids.next.1
    ids := r.ids.next.2
    number := r.number + 1
    history := (r.history.push (.opened r.ids.next.1)).push (.stored (.ofFeed r.number r.current)) }

theorem roll_eq (usable : r.options.check = .ok ()) :
    r.roll = .ok (if r.current.isFull then r.rolled else r) := by
  cases full : r.current.isFull with
  | false => simp [roll, full]
  | true =>
      simp only [roll, full, if_true, Feed.create_ok usable, bind, Except.bind, note, rolled]
      rfl

/-- The three ways in which a document leaves a run: it cannot be read, it cannot be written, or the
current feed has gained its fragment. -/
theorem step_cases {id : String} (feed : r.current.Holds o id current) (d : BatchDocument × Nat) :
    (∃ fault, d.1.toTable d.2 = .error fault ∧ r.step d = .ok (r.note (.unreadable d.2 fault))) ∨
      (∃ table e, d.1.toTable d.2 = .ok table ∧ o.rules.fragment? table.toDocument = none ∧
        r.step d = (r.note (.discarded d.2 e)).roll) ∨
      ∃ table fragment f, d.1.toTable d.2 = .ok table ∧
        o.rules.fragment? table.toDocument = some fragment ∧ f.Holds o id (current ++ [fragment]) ∧
        r.step d = roll
          { r with
            current := f
            history := r.history.push (.added table f.size f.recordCount) } := by
  cases readable : d.1.toTable d.2 with
  | error fault => exact .inl ⟨fault, rfl, by simp only [step, readable]⟩
  | ok table =>
      right
      cases written : o.rules.fragment? table.toDocument with
      | none =>
          obtain ⟨e, taken, added, concerns⟩ := feed.add_nothing written
          refine .inl ⟨table, e, rfl, written, ?_⟩
          simp only [step, readable, addDocument, added, concerns, if_true, note]
      | some fragment =>
          obtain ⟨f, taken, added, holds⟩ := feed.add_fragment written
          refine .inr ⟨table, fragment, f, rfl, written, holds, ?_⟩
          simp only [step, readable, addDocument, added]

theorem Holds.roll (usable : o.check = .ok ()) (h : r.Holds o stem done parts current) :
    ∃ r' parts' current', r.roll = .ok r' ∧ r'.Holds o stem done parts' current' ∧
      r'.HasRoom o current' := by
  have rolls := roll_eq (r := r) (h.options ▸ usable)
  cases full : r.current.isFull with
  | false =>
      refine ⟨r, parts, current, ?_, h, Or.inr (h.feed.room h.bounded full)⟩
      rw [rolls, full, if_neg (by simp)]
  | true =>
      have whole : (StoredFeed.ofFeed r.number r.current).Holds o stem r.number current :=
        StoredFeed.ofFeed_holds h.feed h.bounded
      have next : r.ids.next = (stem ++ "-" ++ Decimal.ofNat (r.number + 1),
          { FeedIds.sequential stem with used := r.number + 2 }) := by
        rw [h.ids]
        rfl
      refine ⟨r.rolled, parts ++ [current], [], ?_, ?_, .inl rfl⟩
      · rw [rolls, full, if_pos rfl]
      · exact
          { options := by simpa only [rolled] using h.options
            ids := by simp only [rolled, next]
            number := by simp [rolled, h.number]
            feed := by
              simp only [rolled, next, h.options]
              exact Feed.openWith_holds o _
            bounded := by decide
            stored := by
              have stored := h.stored.snoc (by rwa [← h.number])
              simpa [rolled, List.filterMap_cons, BatchEvent.stored?] using stored
            fragments := by simpa using h.fragments
            skipped := by simpa [rolled, BatchEvent.isSkip] using h.skipped }

theorem Holds.note_skip (h : r.Holds o stem done parts current) {e : BatchEvent}
    {d : BatchDocument × Nat} (skip : e.isSkip = true) (storesNothing : e.stored? = none)
    (failed : BatchDocument.fragment? o d = none) :
    (r.note e).Holds o stem (done ++ [d]) parts current where
  options := h.options
  ids := h.ids
  number := h.number
  feed := h.feed
  bounded := h.bounded
  stored := by simpa [BatchRun.note, storesNothing] using h.stored
  fragments := by simpa [failed] using h.fragments
  skipped := by simp [BatchRun.note, h.skipped, skip, failed]

/-- A document is skipped, or its fragment is added to the current feed. -/
theorem Holds.step (usable : o.check = .ok ()) (h : r.Holds o stem done parts current)
    (room : r.HasRoom o current) (d : BatchDocument × Nat) :
    ∃ r' parts' current', r.step d = .ok r' ∧ r'.Holds o stem (done ++ [d]) parts' current' ∧
      r'.HasRoom o current' := by
  obtain ⟨fault, readable, stepped⟩ | ⟨table, e, readable, written, stepped⟩ |
    ⟨table, fragment, f, readable, written, holds, stepped⟩ := step_cases h.feed d
  · have failed : BatchDocument.fragment? o d = none := by
      simp only [BatchDocument.fragment?, readable]
    exact ⟨_, parts, current, stepped, h.note_skip rfl rfl failed, room⟩
  · have failed : BatchDocument.fragment? o d = none := by
      simp only [BatchDocument.fragment?, readable, written]
    rw [stepped]
    exact (h.note_skip (e := .discarded d.2 e) rfl rfl failed).roll usable
  · have fragment_eq : BatchDocument.fragment? o d = some fragment := by
      simp only [BatchDocument.fragment?, readable, written]
    let next : BatchRun :=
      { r with
        current := f
        history := r.history.push (.added table f.size f.recordCount) }
    have noted : next.Holds o stem (done ++ [d]) parts (current ++ [fragment]) :=
      { options := h.options
        ids := h.ids
        number := h.number
        feed := holds
        bounded := h.feed.total_append_lt room (holds.proper fragment (by simp))
        stored := by simpa [next, List.filterMap_cons, BatchEvent.stored?] using h.stored
        fragments := by
          rw [← List.append_assoc, h.fragments, List.filterMap_append]
          simp [fragment_eq]
        skipped := by simpa [next, BatchEvent.isSkip, fragment_eq] using h.skipped }
    rw [stepped]
    exact noted.roll usable

/-- What every step keeps, for the documents so far, holds behind a run over any documents. -/
theorem foldlM_step {holds : BatchRun → List (BatchDocument × Nat) → Prop}
    (kept : ∀ r done d, holds r done → ∃ r', r.step d = .ok r' ∧ holds r' (done ++ [d]))
    (first : holds r done) (documents : List (BatchDocument × Nat)) :
    ∃ r', documents.foldlM BatchRun.step r = .ok r' ∧ holds r' (done ++ documents) := by
  induction documents generalizing r done with
  | nil => exact ⟨r, rfl, by simpa using first⟩
  | cons d rest ih =>
      obtain ⟨r', stepped, next⟩ := kept r done d first
      obtain ⟨r'', run, last⟩ := ih next
      refine ⟨r'', ?_, by simpa using last⟩
      rw [List.foldlM_cons, stepped]
      exact run

theorem Holds.foldlM (usable : o.check = .ok ()) (h : r.Holds o stem done parts current)
    (room : r.HasRoom o current) (documents : List (BatchDocument × Nat)) :
    ∃ r' parts' current', documents.foldlM BatchRun.step r = .ok r' ∧
      r'.Holds o stem (done ++ documents) parts' current' := by
  let holds (r : BatchRun) (done : List (BatchDocument × Nat)) : Prop :=
    ∃ parts current, r.Holds o stem done parts current ∧ r.HasRoom o current
  have kept (r : BatchRun) (done : List (BatchDocument × Nat)) (d : BatchDocument × Nat) :
      holds r done → ∃ r', r.step d = .ok r' ∧ holds r' (done ++ [d]) := by
    rintro ⟨parts, current, h, room⟩
    obtain ⟨r', parts', current', stepped, h', room'⟩ := h.step usable room d
    exact ⟨r', stepped, parts', current', h', room'⟩
  obtain ⟨r', run, parts', current', h', -⟩ :=
    foldlM_step kept ⟨parts, current, h, room⟩ documents
  exact ⟨r', parts', current', run, h'⟩

theorem Holds.finish (h : r.Holds o stem done parts current) :
    ∃ parts', AreStored o stem (r.finish.history.toList.filterMap BatchEvent.stored?) parts' ∧
      parts'.flatten = done.filterMap (BatchDocument.fragment? o) ∧
      r.finish.history.toList.countP BatchEvent.isSkip
        = done.countP fun d => (BatchDocument.fragment? o d).isNone := by
  have counts := h.feed.recordCount_eq_zero_iff h.bounded
  by_cases none : current = []
  · have zero : ¬ r.current.recordCount > 0 := by
      rw [counts.mpr none]
      decide
    rw [BatchRun.finish, if_neg zero]
    refine ⟨parts, h.stored, ?_, h.skipped⟩
    simpa [none] using h.fragments
  · have pos : r.current.recordCount > 0 := UInt64.pos_iff_ne_zero.mpr (mt counts.mp none)
    have whole : (StoredFeed.ofFeed r.number r.current).Holds o stem r.number current :=
      StoredFeed.ofFeed_holds h.feed h.bounded
    rw [BatchRun.finish, if_pos pos]
    refine ⟨parts ++ [current], ?_, by simpa using h.fragments, ?_⟩
    · have stored := h.stored.snoc (by rwa [← h.number])
      simpa [BatchRun.note, List.filterMap_cons, BatchEvent.stored?] using stored
    · simpa [BatchRun.note, BatchEvent.isSkip] using h.skipped

end BatchRun

theorem AreStored.nodup_names {feeds : List StoredFeed} {parts : List (List Fragment)}
    (h : AreStored o stem feeds parts) : (feeds.map StoredFeed.name).Nodup := by
  have named (i : Nat) (inside : i < feeds.length) : feeds[i].name = feedFileName i "xml" := by
    have holds := h.2 i _ _ (List.getElem?_eq_getElem inside)
      (List.getElem?_eq_getElem (h.1 ▸ inside))
    rw [holds.name, feedFileName, String.append_assoc, String.append_assoc, String.append_assoc]
    rfl
  rw [List.Nodup, List.pairwise_map, List.pairwise_iff_getElem]
  intro i j insideI insideJ below same
  rw [named i insideI, named j insideJ] at same
  exact Nat.ne_of_lt below (feedFileName_injective same)

/-- Encoding a batch succeeds whenever the options can be used. The feeds stored bear ascending
numbers and hold, taken together, the fragments of the documents that can be read and written; the
other documents are skipped. -/
theorem BatchReport.ofBatch_sequential (o : FeedOptions) (usable : o.check = .ok ()) (stem : String)
    (batch : List BatchDocument) :
    ∃ report, BatchReport.ofBatch o (.sequential stem) batch = .ok report ∧
      report.documents = batch.length ∧
      report.skipped = batch.zipIdx.countP (fun d => (BatchDocument.fragment? o d).isNone) ∧
      (report.feeds.map StoredFeed.name).Nodup ∧
      ∃ parts, AreStored o stem report.feeds parts ∧
        parts.flatten = batch.zipIdx.filterMap (BatchDocument.fragment? o) := by
  obtain ⟨r, started, h, room⟩ := BatchRun.start_holds usable stem
  obtain ⟨r', parts, current, run, h'⟩ := h.foldlM usable room batch.zipIdx
  obtain ⟨parts', stored, whole, skipped⟩ := h'.finish
  refine ⟨⟨batch.length, r'.finish.history.toList⟩, ?_, rfl, skipped, stored.nodup_names, parts',
    stored, whole⟩
  rw [BatchReport.ofBatch, started]
  simp [run, bind, Except.bind]

/-- A batch whose second document nests a list in a list. -/
theorem BatchReport.ofBatch_sequential_nested :
    let o : FeedOptions := { dataSource := "hr", feedType := .contentUrl, maxFeedSize := 300 }
    let first : BatchDocument := ⟨[(Property.docid, .single (.string "a"))]⟩
    let nested : BatchDocument := ⟨[("x", .list [.list []])]⟩
    let last : BatchDocument := ⟨[(Property.docid, .single (.string "b"))]⟩
    o.check = .ok () ∧
      ∃ report, BatchReport.ofBatch o (.sequential "hr") [first, nested, last] = .ok report ∧
        report.documents = 3 ∧ report.skipped = 1 ∧
        ∃ parts, AreStored o "hr" report.feeds parts ∧
          parts.flatten.map Fragment.count = [1, 1] := by
  have usable :
      FeedOptions.check { dataSource := "hr", feedType := .contentUrl, maxFeedSize := 300 }
        = .ok () := rfl
  intro o first nested last
  obtain ⟨report, encoded, documents, skipped, -, parts, stored, fragments⟩ :=
    ofBatch_sequential o usable "hr" [first, nested, last]
  refine ⟨usable, report, encoded, documents, ?_, parts, stored, ?_⟩
  · rw [skipped]
    decide +kernel
  · rw [fragments]
    decide +kernel

end IndexFeed
