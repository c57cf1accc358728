import IndexFeed.Proofs.Content
import IndexFeed.Proofs.Stream.Exchange

/-!
The limit on content. A document's content is read up to a limit and no further: a source that has
reached the limit has succeeded, and neither more bytes nor a failure behind it make a difference.
-/

namespace IndexFeed.ContentPolicy

section Outcome

variable (p : ContentPolicy) (c : ContentCodec) (plan : ContentPlan) (s : Source)
  (substitute : List UInt8)

/-- What becomes of content depends on what its source was asked for and what it answered. -/
theorem writeWith_eq_of_exchanges {s s' : Source}
    (same : s'.exchanges (fun _ => contentRequestSize) p.maxDocumentSize
      = s.exchanges (fun _ => contentRequestSize) p.maxDocumentSize) :
    p.writeWith c plan (some s') substitute = p.writeWith c plan (some s) substitute := by
  have taken : s'.take contentRequestSize p.maxDocumentSize
      = s.take contentRequestSize p.maxDocumentSize := by
    rw [Source.take_eq_exchanges, Source.take_eq_exchanges, same]
  simp only [writeWith, taken]

/-- The outcome of content in terms of what was read of it. -/
theorem outcome_of_take :
    (p.writeWith c plan (some s) substitute).2
      = match (s.take contentRequestSize p.maxDocumentSize).2 with
        | some failure => .error failure
        | none =>
          let pieces := (s.take contentRequestSize p.maxDocumentSize).1
          .ok { bytesRead := pieces.flatten.length, substituted := pieces.isEmpty,
                cutOff := !pieces.isEmpty && pieces.flatten.length == p.maxDocumentSize } := by
  cases taken : s.take contentRequestSize p.maxDocumentSize with
  | mk pieces failure => cases pieces <;> cases failure <;> simp [writeWith, taken]

/-- How the reading of content turns out: it fails if the source fails before the limit, and is cut
off if the limit is reached. -/
theorem writeWith_outcome (positive : 0 < p.maxDocumentSize) :
    (p.writeWith c plan (some s) substitute).2
      = if s.delivered.length < p.maxDocumentSize then
          match s.failure with
          | some failure => .error failure
          | none => .ok { bytesRead := s.delivered.length, substituted := s.delivered.isEmpty }
        else .ok { bytesRead := p.maxDocumentSize, cutOff := true } := by
  have length : (s.take contentRequestSize p.maxDocumentSize).1.flatten.length
      = min p.maxDocumentSize s.delivered.length := by
    rw [s.take_flatten, List.length_take]
  have empty : (s.take contentRequestSize p.maxDocumentSize).1.isEmpty = s.delivered.isEmpty := by
    rw [Bool.eq_iff_iff, List.isEmpty_iff, List.isEmpty_iff, s.take_eq_nil_iff _ positive]
  rw [p.outcome_of_take, s.take_failure]
  simp only [length, empty]
  by_cases below : s.delivered.length < p.maxDocumentSize
  · rw [if_pos below, if_pos below, Nat.min_eq_right (Nat.le_of_lt below)]
    cases s.failure with
    | none => simp [Nat.ne_of_lt below]
    | some failure => rfl
  · have some_byte : s.delivered ≠ [] := by
      intro nil
      rw [nil] at below
      exact below positive
    rw [if_neg below, if_neg below, Nat.min_eq_left (Nat.not_lt.mp below)]
    simp [some_byte]

/-- Content that is encoded already is copied, up to the limit. -/
theorem writeWith_copies (positive : 0 < p.maxDocumentSize) (encoded : plan.alreadyEncoded = true)
    (some_byte : s.delivered ≠ []) :
    (p.writeWith c plan (some s) substitute).1 = s.delivered.take p.maxDocumentSize := by
  have flat := s.take_flatten contentRequestSize p.maxDocumentSize
  have some_piece := (not_congr (s.take_eq_nil_iff contentRequestSize positive)).mpr some_byte
  cases taken : s.take contentRequestSize p.maxDocumentSize with
  | mk pieces failure =>
      rw [taken] at flat some_piece
      obtain ⟨first, rest, rfl⟩ := List.exists_cons_of_ne_nil some_piece
      rw [← flat]
      cases failure <;> simp only [writeWith, taken, encoded, if_true]

end Outcome

/-- Content is read up to a limit of at least one byte. No request reaches beyond it, whatever the
sizes of the requests; content that reaches the limit succeeds, whatever would come next; content
that ends before it is read in full, and has a substitute if there is nothing in it; and content
that fails before it is a failure of the input. -/
theorem writeWith_limited (p : ContentPolicy) (c : ContentCodec) (plan : ContentPlan) (s : Source)
    (substitute : List UInt8) (positive : 1 ≤ p.maxDocumentSize) :
    let limit := p.maxDocumentSize
    let result := p.writeWith c plan (some s) substitute
    (∀ room, (Exchange.pieces (s.exchanges room limit)).flatten = s.delivered.take limit ∧
      ∀ before e after, s.exchanges room limit = before ++ e :: after →
        (Exchange.pieces before).flatten.length + e.asked ≤ limit) ∧
    (∀ s' : Source,
      s'.exchanges (fun _ => contentRequestSize) limit
        = s.exchanges (fun _ => contentRequestSize) limit →
      p.writeWith c plan (some s') substitute = result) ∧
    (limit ≤ s.delivered.length →
      result.2 = .ok ⟨limit, false, true⟩ ∧
      ∀ more failure,
        p.writeWith c plan (some ⟨s.deliveries ++ more, failure⟩) substitute = result) ∧
    (s.delivered ≠ [] → s.delivered.length < limit → s.failure = none →
      result.2 = .ok ⟨s.delivered.length, false, false⟩) ∧
    (s.delivered = [] → s.failure = none → result.2 = .ok ⟨0, true, false⟩) ∧
    (∀ failure, s.delivered.length < limit → s.failure = some failure →
      result.2.mapError FeedError.input = .error (.input failure)) ∧
    (plan.alreadyEncoded = true → s.delivered ≠ [] → result.1 = s.delivered.take limit) := by
  intro limit result
  have outcome := p.writeWith_outcome c plan s substitute positive
  refine ⟨?_, ?_, ?_, ?_, ?_, ?_, ?_⟩
  · intro room
    refine ⟨Source.exchangesAfter_flatten _ _ _ _ _, ?_⟩
    intro before e after split
    exact (Source.exchangesAfter_within _ _ _ _ _ split).1
  · intro s' same
    exact p.writeWith_eq_of_exchanges c plan substitute same
  · intro reached
    refine ⟨outcome.trans (if_neg (Nat.not_lt.mpr reached)), ?_⟩
    intro more failure
    apply p.writeWith_eq_of_exchanges
    exact Source.exchangesAfter_append s.failure _ failure 0 limit s.deliveries more reached
  · intro some_byte below complete
    refine outcome.trans ?_
    rw [if_pos below, complete]
    simp [some_byte]
  · intro empty complete
    refine outcome.trans ?_
    rw [if_pos (by rw [empty]; exact positive), complete]
    simp [empty]
  · intro failure below failed
    have fails : result.2 = .error failure := by
      refine outcome.trans ?_
      rw [if_pos below, failed]
    rw [fails]
    rfl
  · intro encoded some_byte
    exact p.writeWith_copies c plan s substitute positive encoded some_byte

/-- A source that would fail right behind the limit. -/
theorem writeWith_limited_at_limit :
    let p : ContentPolicy := ⟨"base64binary", true, 4, .standard⟩
    let s : Source :=
      ⟨[.interruption, .bytes 97 [98], .bytes 99 [100]], some ⟨"stalled"⟩⟩
    1 ≤ p.maxDocumentSize ∧
      p.writeWith .standard ⟨.base64Binary, true⟩ (some s) []
        = ([97, 98, 99, 100], .ok ⟨4, false, true⟩) := by
  intro p s
  obtain ⟨-, -, reaches, -, -, -, copies⟩ :=
    p.writeWith_limited .standard ⟨.base64Binary, true⟩ s [] (by decide)
  refine ⟨by decide, Prod.ext (copies rfl (by decide)) (reaches (by decide)).1⟩

end IndexFeed.ContentPolicy
