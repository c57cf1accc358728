import IndexFeed.Proofs.Batch

/-!
Which of the feeds that a batch is stored in have no record. The last feed is stored only if it has
one. A feed that is full is stored in any case, and one without records is full if its prolog
already takes all the room; then every document that is read but not written has a feed of its own
stored, without any record in it.
-/

namespace IndexFeed

/-- Whether the prolog leaves room for a byte behind it. -/
def FeedOptions.hasRoom (o : FeedOptions) : Bool :=
  (Utf8.encode (Feed.prolog o)).length < o.maxFeedSize.toNat

/-- Whether a document of a batch can be read and yet not be written. -/
def BatchDocument.isDiscarded (o : FeedOptions) (d : BatchDocument × Nat) : Bool :=
  match d.1.toTable d.2 with
  | .ok table => (o.rules.fragment? table.toDocument).isNone
  | .error _ => false

/-- Fragments that documents come to. -/
def AreFragments (o : FeedOptions) (fragments : List Fragment) : Prop :=
  ∀ g ∈ fragments, ∃ d, o.rules.fragment? d = some g

/-- A stored feed counts the elements of some documents, and holds these and nothing else between
its prolog and its epilog. -/
def StoredFeed.IsWhole (o : FeedOptions) (f : StoredFeed) : Prop :=
  ∃ fragments, AreFragments o fragments ∧
    f.bytes.toList
      = Utf8.encode (Feed.prolog o) ++ Fragment.allBytes fragments ++ Utf8.encode Feed.epilog ∧
    f.records.toNat = Fragment.total fragments

variable {o : FeedOptions}

theorem AreFragments.snoc {fragments : List Fragment} (made : AreFragments o fragments)
    {d : Document} {fragment : Fragment} (written : o.rules.fragment? d = some fragment) :
    AreFragments o (fragments ++ [fragment]) := by
  intro g member
  obtain old | new := List.mem_append.mp member
  · exact made g old
  · exact ⟨d, List.mem_singleton.mp new ▸ written⟩

namespace Feed

variable {id : String} {f : Feed} {fragments : List Fragment}

/-- A feed without records is full if its prolog has taken all the room. -/
theorem Holds.isFull_nil (h : f.Holds o id []) : f.isFull = !o.hasRoom := by
  have count : f.progress.recordCount.toNat = 0 := h.recordCount_toNat (by decide)
  have size : f.progress.size = (Utf8.encode (prolog o)).length := by
    have sizes : f.progress.size = f.bytes.toList.length := h.ready.current
    rw [sizes, h.bytes]
    simp [Fragment.allBytes]
  rw [isFull, FeedProgress.isFull, h.capacity, count, size, FeedOptions.hasRoom, Bool.eq_iff_iff,
    isFull_zero]
  simp [Nat.sub_eq_zero_iff_le]

theorem Holds.isWhole_ofFeed (h : f.Holds o id fragments)
    (bounded : Fragment.total fragments < 2 ^ 64) (made : AreFragments o fragments) (number : Nat) :
    (StoredFeed.ofFeed number f).IsWhole o := by
  refine ⟨fragments, made, StoredFeed.bytes_ofFeed h number, ?_⟩
  rw [StoredFeed.records_ofFeed]
  exact h.recordCount_toNat bounded

end Feed

namespace BatchRun

def stored (r : BatchRun) : List StoredFeed := r.history.toList.filterMap BatchEvent.stored?

/-- A run whose current feed holds some fragments. The feeds stored so far are whole, and so many of
them have no records. -/
structure StoresEmpty (o : FeedOptions) (r : BatchRun) (current : List Fragment) (empty : Nat) :
    Prop where
  options : r.options = o
  feed : r.current.Holds o r.current.id current
  bounded : Fragment.total current < 2 ^ 64
  made : AreFragments o current
  whole : ∀ f ∈ r.stored, f.IsWhole o
  empty : r.stored.countP (fun f => f.records == 0) = empty

variable {r : BatchRun} {current : List Fragment} {empty : Nat}

@[simp] theorem stored_note (r : BatchRun) (e : BatchEvent) :
    (r.note e).stored = r.stored ++ e.stored?.toList := by
  cases held : e.stored? with
  | none => simp [stored, note, held]
  | some f => simp [stored, note, held]

@[simp] theorem stored_rolled (r : BatchRun) :
    r.rolled.stored = r.stored ++ [.ofFeed r.number r.current] := by
  simp [stored, rolled, List.filterMap_cons, BatchEvent.stored?]

/-- Without room behind the prolog, a feed with room left has no records. -/
theorem HasRoom.eq_nil (room : r.HasRoom o current) {id : String}
    (feed : r.current.Holds o id current) (none : o.hasRoom = false) : current = [] := by
  obtain h | below := room
  · exact h
  · have size : r.current.size = r.current.bytes.toList.length := rfl
    rw [FeedOptions.hasRoom, decide_eq_false_iff_not] at none
    rw [size, feed.bytes, List.length_append] at below
    omega

theorem start_storesEmpty (usable : o.check = .ok ()) (ids : FeedIds) :
    ∃ r, start o ids = .ok r ∧ r.StoresEmpty o [] 0 ∧ r.HasRoom o [] := by
  refine ⟨⟨o, Feed.openWith o ids.next.1, ids.next.2, 0, #[.opened ids.next.1]⟩, ?_, ?_, .inl rfl⟩
  · rw [start, Feed.create_ok usable]
    rfl
  · exact
      { options := rfl
        feed := Feed.openWith_holds o _
        bounded := by decide
        made := by simp [AreFragments]
        whole := by simp [stored, BatchEvent.stored?]
        empty := rfl }

/-- What the stored feeds are once the current one is among them. -/
theorem StoresEmpty.store (h : r.StoresEmpty o current empty) :
    let stored := r.stored ++ [StoredFeed.ofFeed r.number r.current]
    (∀ f ∈ stored, f.IsWhole o) ∧
      stored.countP (fun f => f.records == 0) = if current = [] then empty + 1 else empty := by
  constructor
  · intro f member
    obtain old | new := List.mem_append.mp member
    · exact h.whole f old
    · exact List.mem_singleton.mp new ▸ h.feed.isWhole_ofFeed h.bounded h.made r.number
  · have counts := h.feed.recordCount_eq_zero_iff h.bounded
    rw [List.countP_append, h.empty, List.countP_singleton]
    by_cases none : current = [] <;> simp [counts, none]

/-- A roll stores a feed without records only if there is no room behind the prolog. -/
theorem StoresEmpty.roll (usable : o.check = .ok ()) (h : r.StoresEmpty o current empty) :
    ∃ r' current', r.roll = .ok r' ∧
      r'.StoresEmpty o current' (if current = [] ∧ o.hasRoom = false then empty + 1 else empty) ∧
      r'.HasRoom o current' := by
  have rolls := roll_eq (r := r) (h.options ▸ usable)
  cases full : r.current.isFull with
  | false =>
      refine ⟨r, current, ?_, ?_, Or.inr (h.feed.room h.bounded full)⟩
      · rw [rolls, full, if_neg (by simp)]
      · have keeps : ¬ (current = [] ∧ o.hasRoom = false) := by
          rintro ⟨rfl, none⟩
          rw [h.feed.isFull_nil, none] at full
          cases full
        rwa [if_neg keeps]
  | true =>
      obtain ⟨whole, count⟩ := h.store
      have empties : (current = [] ∧ o.hasRoom = false) ↔ current = [] := by
        refine and_iff_left_of_imp ?_
        rintro rfl
        rw [h.feed.isFull_nil] at full
        simpa using full
      refine ⟨r.rolled, [], ?_, ?_, .inl rfl⟩
      · rw [rolls, full, if_pos rfl]
      · exact
          { options := by simpa only [rolled] using h.options
            feed := by
              simp only [rolled, h.options]
              exact Feed.openWith_holds o _
            bounded := by decide
            made := by simp [AreFragments]
            whole := by rwa [stored_rolled]
            empty := by simp only [stored_rolled, count, empties] }

theorem StoresEmpty.note (h : r.StoresEmpty o current empty) {e : BatchEvent}
    (storesNothing : e.stored? = none) : (r.note e).StoresEmpty o current empty where
  options := h.options
  feed := h.feed
  bounded := h.bounded
  made := h.made
  whole := by simpa [storesNothing] using h.whole
  empty := by simpa [storesNothing] using h.empty

/-- Where there is no room behind the prolog, each document that is discarded makes a feed without
records. -/
theorem StoresEmpty.step (usable : o.check = .ok ()) (h : r.StoresEmpty o current empty)
    (room : r.HasRoom o current) (d : BatchDocument × Nat) :
    ∃ r' current', r.step d = .ok r' ∧
      r'.StoresEmpty o current'
        (if BatchDocument.isDiscarded o d ∧ o.hasRoom = false then empty + 1 else empty) ∧
      r'.HasRoom o current' := by
  obtain ⟨fault, readable, stepped⟩ | ⟨table, e, readable, written, stepped⟩ |
    ⟨table, fragment, f, readable, written, holds, stepped⟩ := step_cases h.feed d
  · have kept : BatchDocument.isDiscarded o d = false := by
      simp only [BatchDocument.isDiscarded, readable]
    rw [kept, if_neg (by simp)]
    exact ⟨_, current, stepped, h.note rfl, room⟩
  · have discarded : BatchDocument.isDiscarded o d = true := by
      simp [BatchDocument.isDiscarded, readable, written]
    have empties : (current = [] ∧ o.hasRoom = false) ↔
        (BatchDocument.isDiscarded o d = true ∧ o.hasRoom = false) := by
      refine and_congr_left ?_
      intro none
      exact iff_of_true (room.eq_nil h.feed none) discarded
    rw [stepped]
    simpa only [empties] using (h.note (e := .discarded d.2 e) rfl).roll usable
  · have kept : BatchDocument.isDiscarded o d = false := by
      simp [BatchDocument.isDiscarded, readable, written]
    let next : BatchRun :=
      { r with
        current := f
        history := r.history.push (.added table f.size f.recordCount) }
    have noted : next.StoresEmpty o (current ++ [fragment]) empty :=
      { options := h.options
        feed := holds.id ▸ holds
        bounded := h.feed.total_append_lt room (holds.proper fragment (by simp))
        made := h.made.snoc written
        whole := by simpa [next, stored, List.filterMap_cons, BatchEvent.stored?] using h.whole
        empty := by simpa [next, stored, List.filterMap_cons, BatchEvent.stored?] using h.empty }
    rw [stepped, kept]
    simpa using noted.roll usable

/-- How many feeds without records are stored for some documents. -/
def emptyCount (o : FeedOptions) (done : List (BatchDocument × Nat)) : Nat :=
  if o.hasRoom then 0 else done.countP (BatchDocument.isDiscarded o)

theorem emptyCount_concat (done : List (BatchDocument × Nat)) (d : BatchDocument × Nat) :
    emptyCount o (done ++ [d])
      = if BatchDocument.isDiscarded o d = true ∧ o.hasRoom = false then emptyCount o done + 1
        else emptyCount o done := by
  rw [emptyCount, emptyCount, List.countP_append, List.countP_singleton]
  cases o.hasRoom with
  | true => simp
  | false => cases BatchDocument.isDiscarded o d <;> simp

theorem StoresEmpty.foldlM (usable : o.check = .ok ()) (h : r.StoresEmpty o [] 0)
    (room : r.HasRoom o []) (documents : List (BatchDocument × Nat)) :
    ∃ r' current', documents.foldlM BatchRun.step r = .ok r' ∧
      r'.StoresEmpty o current' (emptyCount o documents) := by
  let holds (r : BatchRun) (done : List (BatchDocument × Nat)) : Prop :=
    ∃ current, r.StoresEmpty o current (emptyCount o done) ∧ r.HasRoom o current
  have kept (r : BatchRun) (done : List (BatchDocument × Nat)) (d : BatchDocument × Nat) :
      holds r done → ∃ r', r.step d = .ok r' ∧ holds r' (done ++ [d]) := by
    rintro ⟨current, h, room⟩
    obtain ⟨r', current', stepped, h', room'⟩ := h.step usable room d
    exact ⟨r', stepped, current', emptyCount_concat done d ▸ h', room'⟩
  have first : holds r [] := ⟨[], by simpa [emptyCount] using h, room⟩
  obtain ⟨r', run, current', h', -⟩ := foldlM_step kept first documents
  exact ⟨r', current', run, h'⟩

/-- The feed that is stored at the end has a record. -/
theorem StoresEmpty.finish (h : r.StoresEmpty o current empty) :
    (∀ f ∈ r.finish.stored, f.IsWhole o) ∧
      r.finish.stored.countP (fun f => f.records == 0) = empty := by
  by_cases some_record : r.current.recordCount > 0
  · obtain ⟨whole, count⟩ := h.store
    have filled : current ≠ [] := by
      intro none
      rw [(h.feed.recordCount_eq_zero_iff h.bounded).mpr none] at some_record
      exact absurd some_record (by decide)
    rw [BatchRun.finish, if_pos some_record, stored_note]
    exact ⟨whole, by rw [BatchEvent.stored?]; simpa [filled] using count⟩
  · rw [BatchRun.finish, if_neg some_record]
    exact ⟨h.whole, h.empty⟩

end BatchRun

/-- Encoding a batch succeeds whenever the options can be used. Each feed stored counts the records
that it holds. If the prolog leaves room, all of them have records; if it does not, those without
are as many as the documents that can be read and not be written. -/
theorem BatchReport.ofBatch_empty (o : FeedOptions) (usable : o.check = .ok ()) (ids : FeedIds)
    (batch : List BatchDocument) :
    ∃ report, BatchReport.ofBatch o ids batch = .ok report ∧
      (∀ f ∈ report.feeds, f.IsWhole o) ∧
      report.feeds.countP (fun f => f.records == 0)
        = (if o.hasRoom then 0 else batch.zipIdx.countP (BatchDocument.isDiscarded o)) ∧
      ((∀ f ∈ report.feeds, 0 < f.records) ↔
        o.hasRoom = true ∨ ∀ d ∈ batch.zipIdx, BatchDocument.isDiscarded o d = false) := by
  obtain ⟨r, started, h, room⟩ := BatchRun.start_storesEmpty usable ids
  obtain ⟨r', current, run, h'⟩ := h.foldlM usable room batch.zipIdx
  obtain ⟨whole, count⟩ := h'.finish
  refine ⟨⟨batch.length, r'.finish.history.toList⟩, ?_, whole, count, ?_⟩
  · rw [BatchReport.ofBatch, started]
    simp [run, bind, Except.bind]
  · have none_empty : (∀ f ∈ r'.finish.stored, 0 < f.records) ↔
        r'.finish.stored.countP (fun f => f.records == 0) = 0 := by
      simp [UInt64.pos_iff_ne_zero]
    refine none_empty.trans ?_
    rw [count, BatchRun.emptyCount]
    cases o.hasRoom with
    | true => simp
    | false => simp

/-- Options under which the prolog already takes all the room, and two documents without identifier,
which cannot be written, around one that can. -/
theorem BatchReport.ofBatch_empty_of_small_feeds :
    let o : FeedOptions := { dataSource := "hr", feedType := .contentUrl, maxFeedSize := 1 }
    let nameless : BatchDocument := ⟨[]⟩
    let named : BatchDocument := ⟨[(Property.docid, .single (.string "a"))]⟩
    o.check = .ok () ∧
      ∃ report, BatchReport.ofBatch o (.sequential "hr") [nameless, named, nameless] = .ok report ∧
        report.feeds.countP (fun f => f.records == 0) = 2 := by
  have usable :
      FeedOptions.check { dataSource := "hr", feedType := .contentUrl, maxFeedSize := 1 }
        = .ok () := rfl
  intro o nameless named
  obtain ⟨report, encoded, -, empty, -⟩ :=
    ofBatch_empty o usable (.sequential "hr") [nameless, named, nameless]
  refine ⟨usable, report, encoded, ?_⟩
  rw [empty]
  decide +kernel

/-- A batch of one document without identifier is stored in a feed without records, since the prolog
takes more than the one byte that a feed may have. -/
theorem BatchReport.ofBatch_stores_empty_feed :
    let o : FeedOptions := { dataSource := "ds", maxFeedSize := 1 }
    o.check = .ok () ∧
      ∃ report, BatchReport.ofBatch o (.sequential "f") [⟨[]⟩] = .ok report ∧
        report.feeds.map StoredFeed.records = [0] := by
  let o : FeedOptions := { dataSource := "ds", maxFeedSize := 1 }
  have stored : (BatchReport.ofBatch o (.sequential "f") [⟨[]⟩]).toOption.map
      (fun report => report.feeds.map StoredFeed.records) = some [0] := by
    decide +kernel
  cases encoded : BatchReport.ofBatch o (.sequential "f") [⟨[]⟩] with
  | error e =>
      rw [encoded] at stored
      cases stored
  | ok report =>
      rw [encoded] at stored
      exact ⟨rfl, report, encoded, Option.some.inj stored⟩

end IndexFeed
