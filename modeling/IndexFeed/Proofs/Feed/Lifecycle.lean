import IndexFeed.Proofs.Feed.Run

/-!
The life of a feed. An open feed grows at its end or is cut back, so that it can be restored to any
earlier size that it was not cut below since. A feed that was closed ends with its epilog, and from
then on a call can set its count and nothing else.
-/

namespace IndexFeed.Feed

variable {f : Feed} {taken : Taken}

/-- Cutting back is refused by a closed feed and beyond the end of an open one. -/
theorem truncate_cases (f : Feed) (size : Nat) :
    (f.isClosed = true ∧ f.truncate size = .error .closed) ∨
      (f.isClosed = false ∧ f.size < size ∧
        f.truncate size = .error (.truncation size f.size)) ∨
      f.isClosed = false ∧ size ≤ f.size ∧
        ∃ shorter, f.truncate size = .ok shorter ∧
          shorter.bytes.toList = f.bytes.toList.take size ∧
          shorter.progress = { f.progress with size } := by
  cases closed : f.isClosed with
  | true => exact .inl ⟨rfl, by rw [truncate, if_pos closed]⟩
  | false =>
      right
      by_cases beyond : f.size < size
      · have refused : f.body.size < size := beyond
        refine .inl ⟨rfl, beyond, ?_⟩
        rw [truncate, if_neg (by simp [closed]), FeedBody.truncate, if_pos refused]
        rfl
      · have fits : ¬ f.body.size < size := beyond
        refine .inr ⟨rfl, Nat.le_of_not_lt beyond, ?_⟩
        rw [truncate, if_neg (by simp [closed]), FeedBody.truncate, if_neg fits]
        refine ⟨_, rfl, ?_, rfl⟩
        simp [bytes]

theorem call_truncate_error {size : Nat} {e : FeedError} (h : f.truncate size = .error e)
    (taken : Taken) : f.call taken (.truncate size) = (.error e, f, taken) := by
  simp only [call, h]

theorem call_truncate_ok {f' : Feed} {size : Nat} (h : f.truncate size = .ok f')
    (taken : Taken) : f.call taken (.truncate size) = (.ok 0, f', taken) := by
  simp only [call, h]

/-- Cutting back leaves the count as it is, and an open feed open. -/
theorem call_truncate_keeps (f : Feed) (taken : Taken) (size : Nat) :
    let after := (f.call taken (.truncate size)).2.1
    after.recordCount = f.recordCount ∧ after.isClosed = f.isClosed := by
  obtain ⟨-, refused⟩ | ⟨-, -, refused⟩ | ⟨-, -, shorter, cut, -, progress⟩ := f.truncate_cases size
  · rw [call_truncate_error refused]
    exact ⟨rfl, rfl⟩
  · rw [call_truncate_error refused]
    exact ⟨rfl, rfl⟩
  · rw [call_truncate_ok cut]
    exact ⟨by rw [recordCount, progress]; rfl, by rw [isClosed, progress]; rfl⟩

/-- What a call can do with a closed feed is to set its count. -/
theorem call_closed (closed : f.isClosed = true) (taken : Taken) (c : FeedCall) :
    ∃ count, (f.call taken c).2 = (f.withRecordCount count, taken) := by
  cases c with
  | step s =>
      cases s with
      | add d => exact ⟨f.recordCount, by rw [call, step, add_closed closed]; rfl⟩
      | close => exact ⟨f.recordCount, by rw [call, step, close, if_pos closed]; rfl⟩
      | setCount count => exact ⟨count, rfl⟩
  | truncate size =>
      have refused : f.truncate size = .error .closed := by rw [truncate, if_pos closed]
      exact ⟨f.recordCount, by rw [call_truncate_error refused]; rfl⟩

/-- What a call can do with an open feed: write behind its end and leave it open, close it, or cut
it back. -/
theorem call_open (ready : f.IsReady) (taken : Taken) (c : FeedCall) :
    let after := (f.call taken c).2.1
    (after.isClosed = false ∧ ∃ more, after.bytes.toList = f.bytes.toList ++ more) ∨
      after.bytes.toList = f.bytes.toList ++ Utf8.encode epilog ∨
      ∃ size, c = .truncate size ∧ size ≤ f.size ∧ after.isClosed = false ∧
        after.bytes.toList = f.bytes.toList.take size := by
  cases c with
  | step s =>
      cases s with
      | add d =>
          obtain ⟨f', added, gains⟩ := add_eq_alone ready d taken
          left
          rw [call, step, added]
          exact ⟨gains.ready.isOpen, _, gains.bytes⟩
      | close => exact .inr (.inl (bytes_close ready))
      | setCount count => exact .inl ⟨ready.isOpen, [], (List.append_nil _).symm⟩
  | truncate size =>
      have stays : _ = f.isClosed := (call_truncate_keeps f taken size).2
      rw [ready.isOpen] at stays
      obtain ⟨closed, -⟩ | ⟨-, -, refused⟩ | ⟨-, fits, shorter, cut, bytes, -⟩ :=
        f.truncate_cases size
      · rw [ready.isOpen] at closed
        cases closed
      · left
        refine ⟨stays, [], ?_⟩
        rw [call_truncate_error refused, List.append_nil]
      · right
        right
        refine ⟨size, rfl, fits, stays, ?_⟩
        rw [call_truncate_ok cut]
        exact bytes

/-- A closed feed ends with its epilog. -/
def IsSealed (f : Feed) : Prop :=
  f.isClosed = true → Utf8.encode epilog <:+ f.bytes.toList

theorem IsSealed.call (isSealed : f.IsSealed) (current : f.body.IsCurrent) (taken : Taken)
    (c : FeedCall) : (f.call taken c).2.1.IsSealed := by
  cases closed : f.isClosed with
  | true =>
      obtain ⟨count, called⟩ := call_closed closed taken c
      rw [called]
      exact isSealed
  | false =>
      intro closes
      obtain ⟨stays, -⟩ | ends | ⟨_, -, -, stays, -⟩ := call_open ⟨closed, current⟩ taken c
      · rw [stays] at closes
        cases closes
      · exact ends ▸ List.suffix_append _ _
      · rw [stays] at closes
        cases closes

theorem IsSealed.run (isSealed : f.IsSealed) (current : f.body.IsCurrent) (taken : Taken)
    (calls : List FeedCall) : (f.run taken calls).2.1.IsSealed := by
  induction calls generalizing f taken with
  | nil => exact isSealed
  | cons c rest ih =>
      exact ih (isSealed.call current taken c) (call_current current taken c)
        (f.call taken c).2.2

end IndexFeed.Feed
