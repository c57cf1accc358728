import IndexFeed.Proofs.Feed.Fragment

/-!
Runs of a feed: calls that add documents, close the feed, set its count or cut it back, in any
order. Whatever was called before, the size that is made known is that of the bytes. A document that
fails can therefore be taken back at any time, and leaves the feed as it was.
-/

namespace IndexFeed

/-- What can be done with a feed, apart from cutting it back. -/
inductive FeedStep where
  | add (d : Document)
  | close
  | setCount (count : UInt64)

inductive FeedCall where
  | step (s : FeedStep)
  | truncate (size : Nat)

theorem FeedBody.isCurrent_truncate {b b' : FeedBody} {size : Nat}
    (h : b.truncate size = .ok b') : b'.IsCurrent := by
  unfold truncate at h
  split at h
  · cases h
  · rename_i fits
    cases h
    simp only [IsCurrent, FeedBody.size, Array.take_eq_extract, Array.size_extract] at fits ⊢
    omega

namespace Feed

/-- Carries out a step, and tells how many elements it added or why it failed. -/
def step (f : Feed) (taken : Taken) : FeedStep → Except FeedError Nat × Feed × Taken
  | .add d => f.add d taken
  | .close => (.ok 0, f.close, taken)
  | .setCount count => (.ok 0, f.withRecordCount count, taken)

def call (f : Feed) (taken : Taken) : FeedCall → Except FeedError Nat × Feed × Taken
  | .step s => f.step taken s
  | .truncate size =>
    match f.truncate size with
    | .ok shorter => (.ok 0, shorter, taken)
    | .error e => (.error e, f, taken)

/-- Carries out calls one after the other, those behind one that fails too. -/
def run (f : Feed) (taken : Taken) :
    List FeedCall → List (Except FeedError Nat) × Feed × Taken
  | [] => ([], f, taken)
  | c :: rest =>
    let (outcome, f, taken) := f.call taken c
    let (outcomes, f, taken) := f.run taken rest
    (outcome :: outcomes, f, taken)

variable {f f' : Feed} {d : Document} {taken left : Taken}

theorem withProgress_current (current : f.body.IsCurrent) {change : FeedProgress → FeedProgress}
    (kept : ∀ p, (change p).size = p.size) : (f.withProgress change).body.IsCurrent :=
  (kept _).trans current

theorem add_closed (closed : f.isClosed = true) (d : Document) (taken : Taken) :
    f.add d taken = (.error .closed, f, taken) := by
  obtain ⟨output, options, id⟩ := f
  have refused : output.body.progress.closed = true := closed
  simp only [add, if_pos refused]

/-- A document that fails leaves an open feed as it was, and the feed can go on without it. -/
theorem add_error_concernsDocument (ready : f.IsReady) {e : FeedError}
    (h : f.add d taken = (.error e, f', left)) : f' = f ∧ e.concernsDocument = true := by
  cases found : f.options.rules.elements d taken with
  | mk outcome taken' =>
      cases outcome with
      | ok elements =>
          cases (add_ok ready found).symm.trans h
      | error e' =>
          cases (add_error ready found).symm.trans h
          exact ⟨rfl, FeedRules.elements_concernsDocument found⟩

theorem add_current (current : f.body.IsCurrent) (d : Document) (taken : Taken) :
    (f.add d taken).2.1.body.IsCurrent := by
  cases closed : f.isClosed with
  | true => rwa [add_closed closed]
  | false =>
      obtain ⟨f', added, gains⟩ := add_eq_alone ⟨closed, current⟩ d taken
      rw [added]
      exact gains.ready.current

theorem close_current (current : f.body.IsCurrent) : f.close.body.IsCurrent := by
  cases closed : f.isClosed with
  | true => rwa [close, if_pos closed]
  | false =>
      rw [close_open closed]
      exact withProgress_current (write_ready closed [.text epilog]).current fun _ => rfl

theorem truncate_current {size : Nat} (h : f.truncate size = .ok f') : f'.body.IsCurrent := by
  unfold truncate at h
  split at h
  · cases h
  · obtain ⟨body, cut, rfl⟩ := Outcome.map_eq_ok.mp h
    exact FeedBody.isCurrent_truncate cut

theorem call_current (current : f.body.IsCurrent) (taken : Taken) (c : FeedCall) :
    (f.call taken c).2.1.body.IsCurrent := by
  cases c with
  | step s =>
      cases s with
      | add d => exact add_current current d taken
      | close => exact close_current current
      | setCount count => exact current
  | truncate size =>
      simp only [call]
      cases cut : f.truncate size with
      | ok shorter => exact truncate_current cut
      | error e => exact current

theorem run_current (current : f.body.IsCurrent) (taken : Taken) (calls : List FeedCall) :
    (f.run taken calls).2.1.body.IsCurrent := by
  induction calls generalizing f taken with
  | nil => exact current
  | cons c rest ih => exact ih (call_current current taken c) (f.call taken c).2.2

theorem options_write (f : Feed) (pieces : List Piece) :
    (f.write pieces).options = f.options := rfl

theorem options_withProgress (f : Feed) (change : FeedProgress → FeedProgress) :
    (f.withProgress change).options = f.options := rfl

theorem options_openWith (o : FeedOptions) (id : String) : (openWith o id).options = o := rfl

theorem options_add (f : Feed) (d : Document) (taken : Taken) :
    (f.add d taken).2.1.options = f.options := by
  obtain ⟨output, options, id⟩ := f
  simp only [add]
  split
  · rfl
  · split
    · rfl
    · split <;> rfl

theorem options_close (f : Feed) : f.close.options = f.options := by
  cases closed : f.isClosed with
  | true => rw [Feed.close, if_pos closed]
  | false =>
      rw [close_open closed, options_withProgress, options_write]

theorem options_truncate {size : Nat} (h : f.truncate size = .ok f') : f'.options = f.options := by
  unfold truncate at h
  split at h
  · cases h
  · obtain ⟨body, -, rfl⟩ := Outcome.map_eq_ok.mp h
    rfl

theorem options_call (f : Feed) (taken : Taken) (c : FeedCall) :
    (f.call taken c).2.1.options = f.options := by
  cases c with
  | step s =>
      cases s with
      | add d => exact options_add f d taken
      | close => exact options_close f
      | setCount count => exact options_withProgress f _
  | truncate size =>
      simp only [call]
      cases cut : f.truncate size with
      | ok shorter => exact options_truncate cut
      | error e => rfl

theorem options_run (f : Feed) (taken : Taken) (calls : List FeedCall) :
    (f.run taken calls).2.1.options = f.options := by
  induction calls generalizing f taken with
  | nil => rfl
  | cons c rest ih =>
      have next := ih (f.call taken c).2.1 (f.call taken c).2.2
      exact next.trans (options_call f taken c)

/-- Whatever was done with a feed before, a closed feed refuses a document without taking its
content stream, and in an open one a document that fails changes nothing: neither bytes, log, size
nor count. Its error never concerns the feed. -/
theorem run_add_error (o : FeedOptions) (usable : o.check = .ok ()) (ids : FeedIds) :
    ∃ f ids', create o ids = .ok (f, ids') ∧
      ∀ (taken : Taken) (calls : List FeedCall) (d : Document) (now : Taken),
        let reached := (f.run taken calls).2.1
        (reached.isClosed = true → reached.add d now = (.error .closed, reached, now)) ∧
          (reached.isClosed = false → ∀ e f' left, reached.add d now = (.error e, f', left) →
            f' = reached ∧ e.concernsDocument = true) := by
  refine ⟨_, _, create_ok usable ids, ?_⟩
  intro taken calls d now reached
  have current : reached.body.IsCurrent :=
    run_current (openWith_ready o ids.next.1).current taken calls
  constructor
  · intro closed
    exact add_closed closed d now
  · intro isOpen e f' left failed
    exact add_error_concernsDocument ⟨isOpen, current⟩ failed

/-- A document that fails when its list of access control has been written already, in a feed whose
count was set. -/
theorem run_add_error_of_failing_record :
    let o : FeedOptions := { dataSource := "hr", feedType := .contentUrl, keepsLog := true }
    let shared := ({ docid := "a", users := ["alice"] } : DocumentDraft).table.toDocument
    let failing := shared.failingAt Property.pageRank (.document "gone")
    let calls := [.step (.add shared), .step (.setCount 7)]
    o.check = .ok () ∧
      ∃ f ids', create o (.sequential "hr") = .ok (f, ids') ∧
        let reached := (f.run {} calls).2.1
        reached.isClosed = false ∧ reached.recordCount = 7 ∧
          ∃ e left, reached.add failing {} = (.error e, reached, left) ∧
            e.concernsDocument = true := by
  have usable : FeedOptions.check { dataSource := "hr", feedType := .contentUrl, keepsLog := true }
      = .ok () := rfl
  intro o shared failing calls
  obtain ⟨f, ids', opened, leaves⟩ := run_add_error o usable (.sequential "hr")
  have first := (Prod.mk.inj (Except.ok.inj (opened.symm.trans (create_ok usable _)))).1
  let reached := (f.run {} calls).2.1
  have isOpen : reached.isClosed = false := by
    simp only [reached, first]
    decide +kernel
  have count : reached.recordCount = 7 := by
    simp only [reached, first]
    decide +kernel
  have options : reached.options = o := by
    simp only [reached, first]
    exact options_run (openWith o _) {} calls
  have current : reached.body.IsCurrent := by
    simp only [reached, first]
    exact run_current (openWith_ready o _).current {} calls
  cases found : o.rules.elements failing {} with
  | mk outcome left =>
      have fails : (o.rules.elements failing {}).1.toOption.isNone = true := by decide +kernel
      cases outcome with
      | ok elements => simp [found, Except.toOption] at fails
      | error e =>
          rw [← options] at found
          have failed := add_error ⟨isOpen, current⟩ found
          have concerns := ((leaves {} calls failing {}).2 isOpen e reached left failed).2
          exact ⟨usable, f, ids', opened, isOpen, count, e, left, failed, concerns⟩

end Feed

end IndexFeed
