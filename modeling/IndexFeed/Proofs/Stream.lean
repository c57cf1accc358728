import IndexFeed.Stream

/-!
Reading a source up to a limit. However the source delivers its bytes, and however often it is
interrupted, the pieces read are the first bytes that it delivers.
-/

namespace IndexFeed.Source

theorem flatMap_content_leftover (bytes : List UInt8) (rest : List Delivery) :
    (leftover bytes ++ rest).flatMap Delivery.content = bytes ++ rest.flatMap Delivery.content := by
  cases bytes <;> rfl

/-- A request takes the first bytes of a delivery and leaves the others. -/
theorem flatMap_content_request (first : UInt8) (tail : List UInt8) (rest : List Delivery)
    (count : Nat) :
    (Delivery.bytes first tail :: rest).flatMap Delivery.content
      = first :: tail.take count
        ++ (leftover (tail.drop count) ++ rest).flatMap Delivery.content := by
  rw [flatMap_content_leftover, List.flatMap_cons, Delivery.content, List.cons_append,
    List.cons_append, ← List.append_assoc, List.take_append_drop]

theorem length_request_le (first : UInt8) (tail : List UInt8) (size limit : Nat) :
    (first :: tail.take (min size limit)).length ≤ limit + 1 := by
  simp only [List.length_cons, List.length_take]
  omega

theorem takeAfter_flatten (failure : Option InputFailure) (size : Nat) (done : List (List UInt8))
    (limit : Nat) (deliveries : List Delivery) :
    (takeAfter failure size done limit deliveries).1.flatten
      = done.reverse.flatten ++ (deliveries.flatMap Delivery.content).take limit := by
  induction done, limit, deliveries using takeAfter.induct size with
  | case1 done deliveries => simp [takeAfter]
  | case2 done limit => simp [takeAfter]
  | case3 done limit rest ih =>
      rw [takeAfter, ih]
      rfl
  | case4 done limit first tail rest piece ih =>
      have fits : piece.length ≤ limit + 1 := length_request_le first tail size limit
      have cut (more : List UInt8) : (piece ++ more).take (limit + 1)
          = piece ++ more.take (limit + 1 - piece.length) := by
        rw [List.take_append, List.take_of_length_le fits]
      rw [takeAfter, ih, flatMap_content_request first tail rest (min size limit), cut]
      simp [piece]

/-- A failure is met only if the source comes to its end before the limit. -/
theorem takeAfter_failure (failure : Option InputFailure) (size : Nat) (done : List (List UInt8))
    (limit : Nat) (deliveries : List Delivery) :
    (takeAfter failure size done limit deliveries).2
      = if (deliveries.flatMap Delivery.content).length < limit then failure else none := by
  induction done, limit, deliveries using takeAfter.induct size with
  | case1 done deliveries => simp [takeAfter]
  | case2 done limit => simp [takeAfter]
  | case3 done limit rest ih =>
      rw [takeAfter, ih]
      rfl
  | case4 done limit first tail rest piece ih =>
      have fits : piece.length ≤ limit + 1 := length_request_le first tail size limit
      rw [takeAfter, ih, flatMap_content_request first tail rest (min size limit),
        List.length_append]
      congr 1
      exact propext Nat.lt_sub_iff_add_lt'

theorem takeAfter_ne_nil (failure : Option InputFailure) (size : Nat) (done : List (List UInt8))
    (limit : Nat) (deliveries : List Delivery) (h : ∀ piece ∈ done, piece ≠ []) :
    ∀ piece ∈ (takeAfter failure size done limit deliveries).1, piece ≠ [] := by
  induction done, limit, deliveries using takeAfter.induct size with
  | case1 done deliveries => simpa [takeAfter] using h
  | case2 done limit => simpa [takeAfter] using h
  | case3 done limit rest ih =>
      rw [takeAfter]
      exact ih h
  | case4 done limit first tail rest piece ih =>
      rw [takeAfter]
      apply ih
      intro p member
      obtain rfl | old := List.mem_cons.mp member
      · exact List.cons_ne_nil _ _
      · exact h p old

theorem take_ne_nil {s : Source} {size limit : Nat} {piece : List UInt8}
    (h : piece ∈ (s.take size limit).1) : piece ≠ [] :=
  takeAfter_ne_nil s.failure (size - 1) [] limit s.deliveries (by simp) piece h

/-- The bytes of the pieces read are the first ones delivered. -/
theorem take_flatten (s : Source) (size limit : Nat) :
    (s.take size limit).1.flatten = s.delivered.take limit :=
  takeAfter_flatten s.failure (size - 1) [] limit s.deliveries

/-- No piece is read if no byte is delivered, and some piece is if there is one within the limit. -/
theorem take_eq_nil_iff (s : Source) (size : Nat) {limit : Nat} (positive : 0 < limit) :
    (s.take size limit).1 = [] ↔ s.delivered = [] := by
  have flat := s.take_flatten size limit
  constructor
  · intro nil
    rw [nil, List.flatten_nil] at flat
    obtain zero | nil := List.take_eq_nil_iff.mp flat.symm
    · omega
    · exact nil
  · intro nil
    rw [nil, List.take_nil] at flat
    apply List.eq_nil_iff_forall_not_mem.mpr
    intro piece member
    exact take_ne_nil member (List.flatten_eq_nil_iff.mp flat piece member)

theorem take_failure (s : Source) (size limit : Nat) :
    (s.take size limit).2 = if s.delivered.length < limit then s.failure else none :=
  takeAfter_failure s.failure (size - 1) [] limit s.deliveries

theorem take_complete {s : Source} (complete : s.failure = none) (size limit : Nat) :
    (s.take size limit).2 = none := by
  rw [take_failure, complete, ite_self]

end IndexFeed.Source
