import IndexFeed.Proofs.Feed.Fragment

/-!
How much room a feed has that is not reported full. Every element takes some bytes, so that the
average size of a record is never rounded down to nothing; a feed that is not full has then room for
three more records of that size, and only a document that is larger can take it past its capacity.
-/

namespace IndexFeed

/-- The elements that a document adds are no more than their bytes. -/
theorem FeedRules.contributed_le (r : FeedRules) (d : Document) (taken : Taken) :
    contributed (r.alone d taken).1
      ≤ (contribution ((r.alone d taken).1, (r.alone d taken).2.1)).length := by
  cases found : r.elements d taken with
  | mk outcome left =>
      cases outcome with
      | error e =>
          obtain ⟨bytes, alone⟩ := alone_error found
          rw [alone]
          exact Nat.zero_le _
      | ok elements =>
          have enough := Element.length_le_allBytes elements
          rw [alone_ok found]
          simp only [contributed, contribution]
          omega

namespace Feed

variable {o : FeedOptions} {f : Feed}

/-- A feed of some options that takes documents and counts no more records than it has bytes. -/
structure IsDense (o : FeedOptions) (f : Feed) : Prop where
  ready : f.IsReady
  options : f.options = o
  capacity : f.progress.capacity = o.maxFeedSize
  dense : f.recordCount.toNat ≤ f.size

theorem openWith_dense (o : FeedOptions) (id : String) : IsDense o (openWith o id) where
  ready := openWith_ready o id
  options := rfl
  capacity := rfl
  dense := by
    rw [recordCount_openWith]
    exact Nat.zero_le _

theorem size_eq (f : Feed) : f.size = f.bytes.toList.length := rfl

/-- A document adds its bytes to a feed and leaves it dense. -/
theorem IsDense.add (h : IsDense o f) (d : Document) (taken : Taken) :
    (f.add d taken).2.1.bytes.toList = f.bytes.toList
        ++ FeedRules.contribution ((o.rules.alone d taken).1, (o.rules.alone d taken).2.1) ∧
      IsDense o (f.add d taken).2.1 := by
  obtain ⟨f', added, gains⟩ := add_eq_alone h.ready d taken
  rw [h.options] at added gains
  have grown : f'.size = f.size
      + (FeedRules.contribution
          ((o.rules.alone d taken).1, (o.rules.alone d taken).2.1)).length := by
    rw [size_eq, gains.bytes, List.length_append, ← size_eq]
  rw [added]
  refine ⟨gains.bytes, gains.ready, gains.options.trans h.options,
    gains.capacity.trans h.capacity, ?_⟩
  have few := o.rules.contributed_le d taken
  have dense := h.dense
  -- The count may wrap around, and only becomes smaller by that.
  have count : f'.recordCount.toNat
      ≤ f.recordCount.toNat + FeedRules.contributed (o.rules.alone d taken).1 := by
    rw [gains.count, UInt64.toNat_add, UInt64.toNat_ofNat', Nat.add_mod_mod]
    exact Nat.mod_le _ _
  simp only [grown]
  omega

theorem IsDense.addEach (h : IsDense o f) (documents : List Document) (taken : Taken) :
    IsDense o (f.addEach taken documents).2.1 := by
  induction documents generalizing f taken with
  | nil => exact h
  | cons d rest ih => exact ih (h.add d taken).2 (f.add d taken).2.2

theorem IsDense.isFull_eq (h : IsDense o f) :
    f.isFull = IndexFeed.isFull o.maxFeedSize.toNat f.size f.recordCount.toNat := by
  have size : f.progress.size = f.size := h.ready.current
  rw [Feed.isFull, FeedProgress.isFull, h.capacity, size, recordCount]

/-- However documents are added to a feed with usable options: one that is not full has room for a
byte, and for three more records of its average size if it has records. So a feed that has reached
its capacity is full, and only a document larger than those three records can take a feed past its
capacity that has records and is not full. -/
theorem addEach_room (o : FeedOptions) (usable : o.check = .ok ()) (ids : FeedIds) :
    ∃ f ids', create o ids = .ok (f, ids') ∧ ∀ (taken : Taken) (documents : List Document),
      let reached := (f.addEach taken documents).2.1
      let capacity := o.maxFeedSize.toNat
      let count := reached.recordCount.toNat
      (reached.isFull = false → reached.size < capacity ∧
        (0 < count → reached.size + 3 * (reached.size / count) ≤ capacity)) ∧
      (capacity ≤ reached.size → reached.isFull = true) ∧
      ∀ (d : Document) (left : Taken),
        let alone := o.rules.alone d left
        let added := FeedRules.contribution (alone.1, alone.2.1)
        let after := (reached.add d left).2.1
        after.bytes.toList = reached.bytes.toList ++ added ∧
        (reached.isFull = false → 0 < count → capacity < after.size →
          3 * (reached.size / count) < added.length) := by
  refine ⟨_, _, create_ok usable ids, ?_⟩
  intro taken documents reached capacity count
  have dense : IsDense o reached := (openWith_dense o ids.next.1).addEach documents taken
  have room (notFull : reached.isFull = false) : reached.size < capacity ∧
      (0 < count → reached.size + 3 * (reached.size / count) ≤ capacity) := by
    rw [dense.isFull_eq] at notFull
    exact room_of_not_full o.maxFeedSize.toNat_lt dense.dense notFull
  refine ⟨room, ?_, ?_⟩
  · intro reaches
    rw [← Bool.not_eq_false]
    intro notFull
    exact Nat.not_lt_of_le reaches (room notFull).1
  · intro d left alone added after
    have bytes := (dense.add d left).1
    refine ⟨bytes, ?_⟩
    intro notFull counted past
    have fits := (room notFull).2 counted
    have grown : after.size = reached.size + added.length := by
      rw [size_eq, bytes, List.length_append, ← size_eq]
    omega

/-- Two records, and a document between them that fails, leave a feed with room for just three more
records of the average size. A document of more than that is taken, past the capacity. -/
theorem addEach_room_of_large_document :
    let o : FeedOptions := { dataSource := "hr", maxFeedSize := 1125 }
    let draft (pairs : List (String × Value)) : Document :=
      ⟨(PropertyTable.ofPairs pairs).toDocument.find, .ok []⟩
    let small := draft [(Property.docid, .string "a"), (Property.action, .string "delete")]
    let failing := small.failingAt Property.pageRank (.document "gone")
    let large := draft
      [(Property.docid, .string "b"), (Property.contentEncoding, .string "base64binary"),
        (Property.content, .binary (List.replicate 600 65))]
    o.check = .ok () ∧
      ∃ f ids', create o (.fixed "1") = .ok (f, ids') ∧
        let reached := (f.addEach {} [small, failing, small]).2.1
        let alone := o.rules.alone large {}
        let added := FeedRules.contribution (alone.1, alone.2.1)
        (reached.isFull = false ∧ reached.size = 450 ∧ reached.recordCount.toNat = 2 ∧
          (reached.add large {}).2.1.size = 1224) ∧
        reached.size + 3 * (reached.size / 2) ≤ 1125 ∧ 3 * (reached.size / 2) < added.length := by
  have usable : FeedOptions.check { dataSource := "hr", maxFeedSize := 1125 } = .ok () := rfl
  intro o draft small failing large
  obtain ⟨f, ids', opened, room⟩ := addEach_room o usable (.fixed "1")
  have same : f = openWith o "1" :=
    (congrArg Prod.fst (Except.ok.inj ((create_ok usable (.fixed "1")).symm.trans opened))).symm
  let documents := [small, failing, small]
  have taken : ((o.rules.eachAlone {} documents).flatMap FeedRules.contribution).length = 246 ∧
      ((o.rules.eachAlone {} documents).map fun a => FeedRules.contributed a.1).sum = 2 := by
    decide +kernel
  have prologSize : (Utf8.encode (prolog o)).length = 204 := by decide +kernel
  have ready : f.IsReady := same ▸ openWith_ready o "1"
  obtain ⟨-, gained⟩ := addEach_eq_alone ready documents {}
  have dense : IsDense o (f.addEach {} documents).2.1 :=
    (same ▸ openWith_dense o "1" : IsDense o f).addEach documents {}
  have size : (f.addEach {} documents).2.1.size = 450 := by
    rw [size_eq, gained.bytes, List.length_append, same, bytes_openWith, prologSize]
    exact congrArg (204 + ·) taken.1
  have count : (f.addEach {} documents).2.1.recordCount.toNat = 2 := by
    rw [gained.count, same, recordCount_openWith]
    exact congrArg (fun n => (0 + UInt64.ofNat n).toNat) taken.2
  have notFull : (f.addEach {} documents).2.1.isFull = false := by
    rw [dense.isFull_eq, size, count]
    decide
  have large_ok : (o.rules.elements large {}).1.toOption.map (fun elements =>
      (Piece.allBytes (Element.allPieces elements)).length) = some 774 := by decide +kernel
  obtain ⟨elements, found, length⟩ := Option.map_eq_some_iff.mp large_ok
  have built := FeedRules.alone_ok (Prod.ext (Outcome.toOption_eq_some.mp found) rfl)
  obtain ⟨fits, -, each⟩ := room {} documents
  obtain ⟨bytes, past⟩ := each large {}
  rw [built] at bytes
  have after : ((f.addEach {} documents).2.1.add large {}).2.1.size = 1224 := by
    rw [size_eq, bytes, List.length_append, ← size_eq, size]
    exact congrArg (450 + ·) length
  have left := (fits notFull).2 (by rw [count]; decide)
  have larger := past notFull (by rw [count]; decide) (by rw [after]; decide)
  rw [count] at left larger
  exact ⟨usable, f, ids', opened, ⟨notFull, size, count, after⟩, left, larger⟩

end Feed

end IndexFeed
