import IndexFeed.Document.Sample
import IndexFeed.Proofs.Feed.Writing
import Mathlib.Algebra.GroupWithZero.Nat

/-!
What adding documents does to an open feed. A document adds the bytes that it comes to when it is
written by itself, and a document that fails adds none; so a feed that was opened, given any
documents and closed is its prolog, the bytes of the documents that can be written, and its epilog.
-/

namespace IndexFeed

namespace FeedRules

def eachAlone (r : FeedRules) (taken : Taken) :
    List Document → List (Except FeedError Nat × List UInt8)
  | [] => []
  | d :: rest =>
    let (outcome, bytes, taken) := r.alone d taken
    (outcome, bytes) :: r.eachAlone taken rest

/-- The bytes that a document contributes to a feed: none if it fails. -/
def contribution : Except FeedError Nat × List UInt8 → List UInt8
  | (.ok _, bytes) => bytes
  | (.error _, _) => []

def contributed : Except FeedError Nat → Nat
  | .ok count => count
  | .error _ => 0

end FeedRules

namespace Feed

/-- A feed that takes documents. -/
structure IsReady (f : Feed) : Prop where
  isOpen : f.isClosed = false
  current : f.body.IsCurrent

/-- A feed that takes documents has taken some more elements of some bytes. -/
structure Gains (f f' : Feed) (bytes : List UInt8) (count : Nat) : Prop where
  ready : f'.IsReady
  options : f'.options = f.options
  id : f'.id = f.id
  capacity : f'.progress.capacity = f.progress.capacity
  bytes : f'.bytes.toList = f.bytes.toList ++ bytes
  count : f'.recordCount = f.recordCount + UInt64.ofNat count

theorem write_ready {f : Feed} (h : f.isClosed = false) (pieces : List Piece) :
    (f.write pieces).IsReady :=
  ⟨h, FeedBody.isCurrent_append f.body _⟩

theorem IsReady.gains_nothing {f : Feed} (ready : f.IsReady) : f.Gains f [] 0 where
  ready := ready
  options := rfl
  id := rfl
  capacity := rfl
  bytes := by simp
  count := by simp

theorem Gains.trans {f f' f'' : Feed} {first second : List UInt8} {m n : Nat}
    (one : f.Gains f' first m) (two : f'.Gains f'' second n) :
    f.Gains f'' (first ++ second) (m + n) where
  ready := two.ready
  options := two.options.trans one.options
  id := two.id.trans one.id
  capacity := two.capacity.trans one.capacity
  bytes := by rw [two.bytes, one.bytes, List.append_assoc]
  count := by rw [two.count, one.count, UInt64.ofNat_add, UInt64.add_assoc]

theorem add_ok {f : Feed} (ready : f.IsReady) {d : Document} {taken taken' : Taken}
    {elements : List Element} (h : f.options.rules.elements d taken = (.ok elements, taken')) :
    f.add d taken
      = (.ok elements.length,
        (f.write (Element.allPieces elements)).withProgress fun p =>
          { p with recordCount := p.recordCount + UInt64.ofNat elements.length },
        taken') := by
  obtain ⟨output, options, id⟩ := f
  have opened : ¬ output.body.progress.closed = true := by
    simpa [isClosed, progress] using ready.isOpen
  obtain ⟨o', hwrite, becomes⟩ := options.rules.write_becomes d output taken
  simp only [h, Except.map] at hwrite becomes
  cases becomes
  simp only [add, if_neg opened, hwrite]
  rfl

/-- A document that fails leaves the feed as it was. -/
theorem add_error {f : Feed} (ready : f.IsReady) {d : Document} {taken taken' : Taken}
    {e : FeedError} (h : f.options.rules.elements d taken = (.error e, taken')) :
    f.add d taken = (.error e, f, taken') := by
  obtain ⟨output, options, id⟩ := f
  have opened : ¬ output.body.progress.closed = true := by
    simpa [isClosed, progress] using ready.isOpen
  obtain ⟨o', hwrite, becomes⟩ := options.rules.write_becomes d output taken
  simp only [h, Except.map] at hwrite becomes
  have restored : o'.restore output.mark = .ok output :=
    FeedOutput.restore_of_extends becomes ready.current
  simp only [add, if_neg opened, hwrite, restored]

/-- A document that is taken has left its elements behind what was there. -/
theorem elements_of_add {f g : Feed} {d : Document} {taken left : Taken} {n : Nat}
    (h : f.add d taken = (.ok n, g, left)) :
    ∃ elements, f.options.rules.elements d taken = (.ok elements, left) ∧ n = elements.length ∧
      g = (f.write (Element.allPieces elements)).withProgress fun p =>
        { p with recordCount := p.recordCount + UInt64.ofNat elements.length } := by
  obtain ⟨output, options, id⟩ := f
  obtain ⟨o', hwrite, becomes⟩ := options.rules.write_becomes d output taken
  rw [add] at h
  split at h
  · cases h
  · cases found : (options.rules.elements d taken).1 with
    | error e =>
        simp only [hwrite, found, Except.map] at h
        split at h
        · cases h
        · cases h
    | ok elements =>
        rw [found] at becomes
        cases becomes
        simp only [hwrite, found, Except.map] at h
        cases h
        exact ⟨elements, Prod.ext found rfl, rfl, rfl⟩

/-- A document added to a feed comes to what it comes to by itself. -/
theorem add_eq_alone {f : Feed} (ready : f.IsReady) (d : Document) (taken : Taken) :
    ∃ f', f.add d taken
        = ((f.options.rules.alone d taken).1, f', (f.options.rules.alone d taken).2.2) ∧
      f.Gains f'
        (FeedRules.contribution
          ((f.options.rules.alone d taken).1, (f.options.rules.alone d taken).2.1))
        (FeedRules.contributed (f.options.rules.alone d taken).1) := by
  cases h : f.options.rules.elements d taken with
  | mk outcome left =>
      cases outcome with
      | ok elements =>
          refine ⟨_, by rw [add_ok ready h, FeedRules.alone_ok h], ?_⟩
          rw [FeedRules.alone_ok h]
          exact
            { ready := ⟨ready.isOpen, FeedBody.isCurrent_append f.body _⟩
              options := rfl
              id := rfl
              capacity := rfl
              bytes := f.body.toList_append _
              count := rfl }
      | error e =>
          obtain ⟨bytes, alone⟩ := FeedRules.alone_error h
          refine ⟨f, by rw [add_error ready h, alone], ?_⟩
          rw [alone]
          exact ready.gains_nothing

/-- Adds documents one after the other, those behind one that fails too. -/
def addEach (f : Feed) (taken : Taken) :
    List Document → List (Except FeedError Nat) × Feed × Taken
  | [] => ([], f, taken)
  | d :: rest =>
    let (outcome, f, taken) := f.add d taken
    let (outcomes, f, taken) := f.addEach taken rest
    (outcome :: outcomes, f, taken)

theorem addEach_eq_alone {f : Feed} (ready : f.IsReady) (documents : List Document)
    (taken : Taken) :
    let alone := f.options.rules.eachAlone taken documents
    (f.addEach taken documents).1 = alone.map (·.1) ∧
      f.Gains (f.addEach taken documents).2.1 (alone.flatMap FeedRules.contribution)
        (alone.map fun a => FeedRules.contributed a.1).sum := by
  induction documents generalizing f taken with
  | nil => exact ⟨rfl, ready.gains_nothing⟩
  | cons d rest ih =>
      obtain ⟨f', hadd, gains⟩ := add_eq_alone ready d taken
      obtain ⟨outcomes, gained⟩ := ih gains.ready (f.options.rules.alone d taken).2.2
      rw [gains.options] at outcomes gained
      simp only [addEach, hadd, FeedRules.eachAlone, List.map_cons, List.flatMap_cons,
        List.sum_cons]
      exact ⟨congrArg _ outcomes, gains.trans gained⟩

theorem bytes_write (f : Feed) (pieces : List Piece) :
    (f.write pieces).bytes.toList = f.bytes.toList ++ Piece.allBytes pieces :=
  f.body.toList_append _

theorem bytes_write_text (f : Feed) (text : String) :
    (f.write [.text text]).bytes.toList = f.bytes.toList ++ Utf8.encode text := by
  rw [bytes_write]
  simp [Piece.allBytes, Piece.bytes]

theorem openWith_ready (o : FeedOptions) (id : String) : (openWith o id).IsReady :=
  write_ready rfl _

theorem bytes_openWith (o : FeedOptions) (id : String) :
    (openWith o id).bytes.toList = Utf8.encode (prolog o) := by
  rw [openWith, bytes_write_text]
  simp [bytes, FeedBody.empty]

theorem create_ok {o : FeedOptions} (usable : o.check = .ok ()) (ids : FeedIds) :
    create o ids = .ok (openWith o ids.next.1, ids.next.2) := by
  simp [create, usable, bind, Except.bind]

theorem close_open {f : Feed} (h : f.isClosed = false) :
    f.close = (f.write [.text epilog]).withProgress fun p => { p with closed := true } := by
  rw [close, if_neg (by simp [h])]

theorem bytes_withProgress (f : Feed) (change : FeedProgress → FeedProgress) :
    (f.withProgress change).bytes = f.bytes := rfl

theorem id_withProgress (f : Feed) (change : FeedProgress → FeedProgress) :
    (f.withProgress change).id = f.id := rfl

theorem progress_withProgress (f : Feed) (change : FeedProgress → FeedProgress) :
    (f.withProgress change).progress = change f.progress := rfl

theorem bytes_close {f : Feed} (ready : f.IsReady) :
    f.close.bytes.toList = f.bytes.toList ++ Utf8.encode epilog := by
  rw [close_open ready.isOpen, bytes_withProgress, bytes_write_text]

theorem id_write (f : Feed) (pieces : List Piece) : (f.write pieces).id = f.id := rfl

theorem id_close (f : Feed) : f.close.id = f.id := by
  cases h : f.isClosed with
  | true => rw [close, if_pos h]
  | false => rw [close_open h, id_withProgress, id_write]

theorem recordCount_write (f : Feed) (pieces : List Piece) :
    (f.write pieces).recordCount = f.recordCount := rfl

theorem recordCount_openWith (o : FeedOptions) (id : String) : (openWith o id).recordCount = 0 := by
  rw [openWith, recordCount_write]
  rfl

theorem recordCount_close (f : Feed) : f.close.recordCount = f.recordCount := by
  cases h : f.isClosed with
  | true => rw [close, if_pos h]
  | false =>
      simp only [close_open h, recordCount, progress_withProgress]
      rw [← recordCount, recordCount_write, recordCount]

/-- A feed that is opened, given documents and closed consists of its prolog, of what those
documents that can be written come to by themselves, and of its epilog. Each addition ends as the
document by itself, and the feed counts the elements modulo `2 ^ 64`. -/
theorem close_addEach (o : FeedOptions) (usable : o.check = .ok ()) (ids : FeedIds)
    (documents : List Document) (taken : Taken) :
    ∃ f ids', create o ids = .ok (f, ids') ∧
      let alone := o.rules.eachAlone taken documents
      let run := f.addEach taken documents
      run.1 = alone.map (·.1) ∧
        run.2.1.close.bytes.toList
          = Utf8.encode (prolog o) ++ alone.flatMap FeedRules.contribution
            ++ Utf8.encode epilog ∧
        run.2.1.close.recordCount.toNat
          = (run.1.map FeedRules.contributed).sum % 2 ^ 64 := by
  refine ⟨_, _, create_ok usable ids, ?_⟩
  obtain ⟨outcomes, gained⟩ :=
    addEach_eq_alone (openWith_ready o ids.next.1) documents taken
  refine ⟨outcomes, ?_, ?_⟩
  · rw [bytes_close gained.ready, gained.bytes, bytes_openWith]
    rfl
  · rw [recordCount_close, gained.count, outcomes, List.map_map]
    rw [recordCount_openWith, UInt64.zero_add, UInt64.toNat_ofNat']
    rfl

/-- The middle one of three documents fails when its list of access control stands in the feed
already. -/
theorem close_addEach_of_failing_record :
    let o : FeedOptions := { dataSource := "hr", feedType := .contentUrl }
    let shared := ({ docid := "a", users := ["alice"] } : DocumentDraft).table.toDocument
    let failing := shared.failingAt Property.pageRank (.document "gone")
    let documents := [shared, failing, shared]
    o.check = .ok () ∧
      ∃ f ids', create o (.sequential "hr") = .ok (f, ids') ∧
        let run := f.addEach {} documents
        run.1.map Except.toOption = [some 2, none, some 2] ∧
          run.2.1.close.bytes.toList
            = Utf8.encode (prolog o)
              ++ (o.rules.eachAlone {} documents).flatMap FeedRules.contribution
              ++ Utf8.encode epilog ∧
          run.2.1.close.recordCount.toNat = 4 := by
  have usable : FeedOptions.check { dataSource := "hr", feedType := .contentUrl } = .ok () := rfl
  intro o shared failing documents
  obtain ⟨f, ids', opened, outcomes, bytes, count⟩ :=
    close_addEach o usable (.sequential "hr") documents {}
  have each : (o.rules.eachAlone {} documents).map (·.1.toOption) = [some 2, none, some 2] := by
    decide +kernel
  have sum : ((o.rules.eachAlone {} documents).map fun a => FeedRules.contributed a.1).sum = 4 := by
    decide +kernel
  refine ⟨usable, f, ids', opened, ?_, bytes, ?_⟩
  · rw [outcomes, List.map_map]
    exact each
  · rw [count, outcomes, List.map_map]
    exact congrArg (· % 2 ^ 64) sum

end Feed

end IndexFeed
