import IndexFeed.Proofs.Stream

/-!
What passes between a reader and its source. A source is asked for a number of bytes at a time, and
what it answers is all that is learnt of it. However large the requests are, none of them reaches
beyond the limit, and no request is made once the limit has been reached; so what a source would do
behind the limit has no effect.
-/

namespace IndexFeed

/-- What a source answers to one request. -/
inductive Reply where
  | bytes (piece : List UInt8)
  | interruption
  | ended
  | failed (failure : InputFailure)
  deriving Repr, DecidableEq

namespace Reply

def piece? : Reply → Option (List UInt8)
  | bytes piece => some piece
  | _ => none

def failure? : Reply → Option InputFailure
  | failed failure => some failure
  | _ => none

/-- The answer of a source from which nothing more is to come. -/
def ofEnd : Option InputFailure → Reply
  | none => ended
  | some failure => failed failure

end Reply

/-- One request for at most `asked` bytes, and its answer. -/
structure Exchange where
  asked : Nat
  reply : Reply
  deriving Repr, DecidableEq

namespace Exchange

/-- The pieces that some exchanges brought. -/
def pieces (exchanges : List Exchange) : List (List UInt8) :=
  exchanges.filterMap fun e => e.reply.piece?

/-- The failure that some exchanges met. -/
def failure? (exchanges : List Exchange) : Option InputFailure :=
  exchanges.findSome? fun e => e.reply.failure?

@[simp] theorem pieces_nil : pieces [] = [] := rfl

@[simp] theorem pieces_bytes (asked : Nat) (piece : List UInt8) (later : List Exchange) :
    pieces (⟨asked, .bytes piece⟩ :: later) = piece :: pieces later := rfl

@[simp] theorem pieces_ofEnd (asked : Nat) (failure : Option InputFailure) :
    pieces [⟨asked, .ofEnd failure⟩] = [] := by
  cases failure <;> rfl

@[simp] theorem failure?_ofEnd (asked : Nat) (failure : Option InputFailure) :
    failure? [⟨asked, .ofEnd failure⟩] = failure := by
  cases failure <;> rfl

end Exchange

namespace Source

/-- The exchanges with a source that fails with `failure`, if at all, until `limit` bytes have come.
The room for an answer is one byte more than `room` says, and may depend on how many bytes have come
before. -/
def exchangesAfter (failure : Option InputFailure) (room : Nat → Nat) (came : Nat) :
    Nat → List Delivery → List Exchange
  | 0, _ => []
  | limit + 1, [] => [⟨min (room came) limit + 1, .ofEnd failure⟩]
  | limit + 1, .interruption :: rest =>
    ⟨min (room came) limit + 1, .interruption⟩
      :: exchangesAfter failure room came (limit + 1) rest
  | limit + 1, .bytes first tail :: rest =>
    let piece := first :: tail.take (min (room came) limit)
    ⟨min (room came) limit + 1, .bytes piece⟩
      :: exchangesAfter failure room (came + piece.length) (limit + 1 - piece.length)
        (leftover (tail.drop (min (room came) limit)) ++ rest)
termination_by _ deliveries => remaining deliveries
decreasing_by
  · simp only [remaining]
    omega
  · simp only [remaining, remaining_leftover, List.length_drop]
    omega

/-- The exchanges with a source up to a limit, if the room for an answer is `room` bytes, at least
one, where the number of bytes that have come before may make a difference. -/
def exchanges (s : Source) (room : Nat → Nat) (limit : Nat) : List Exchange :=
  exchangesAfter s.failure (fun came => room came - 1) 0 limit s.deliveries

variable (failure : Option InputFailure) (room : Nat → Nat)

/-- Reading a source is making these exchanges. -/
theorem takeAfter_eq_exchanges (size came : Nat) (done : List (List UInt8)) (limit : Nat)
    (deliveries : List Delivery) :
    let exchanges := exchangesAfter failure (fun _ => size) came limit deliveries
    takeAfter failure size done limit deliveries
      = (done.reverse ++ Exchange.pieces exchanges, Exchange.failure? exchanges) := by
  induction done, limit, deliveries using takeAfter.induct size generalizing came with
  | case1 done deliveries => simp [takeAfter, exchangesAfter, Exchange.failure?]
  | case2 done limit => simp [takeAfter, exchangesAfter]
  | case3 done limit rest ih =>
      rw [takeAfter, exchangesAfter, ih came]
      rfl
  | case4 done limit first tail rest piece ih =>
      rw [takeAfter, exchangesAfter, ih (came + piece.length), List.reverse_cons,
        List.append_assoc]
      rfl

theorem take_eq_exchanges (s : Source) (size limit : Nat) :
    s.take size limit = (Exchange.pieces (s.exchanges (fun _ => size) limit),
      Exchange.failure? (s.exchanges (fun _ => size) limit)) :=
  takeAfter_eq_exchanges s.failure (size - 1) 0 [] limit s.deliveries

theorem first_request_le (size limit : Nat) :
    (Exchange.pieces []).flatten.length + (min size limit + 1) ≤ limit + 1 := by
  simp only [Exchange.pieces_nil, List.flatten_nil, List.length_nil]
  omega

/-- A request leaves room for at least one byte, asks for none beyond the limit, and is answered
with no more than it asks for. -/
theorem exchangesAfter_within (came limit : Nat) (deliveries : List Delivery) :
    ∀ {before after : List Exchange} {e : Exchange},
      exchangesAfter failure room came limit deliveries = before ++ e :: after →
      (Exchange.pieces before).flatten.length + e.asked ≤ limit ∧ 0 < e.asked ∧
        ∀ piece, e.reply = .bytes piece → piece.length ≤ e.asked := by
  induction came, limit, deliveries using exchangesAfter.induct room with
  | case1 came deliveries =>
      intro before after e h
      rw [exchangesAfter] at h
      simp at h
  | case2 came limit =>
      intro before after e h
      rw [exchangesAfter] at h
      obtain ⟨rfl, single⟩ : before = [] ∧ e = ⟨min (room came) limit + 1, .ofEnd failure⟩ := by
        cases before <;> simp_all
      subst single
      refine ⟨first_request_le _ _, Nat.succ_pos _, ?_⟩
      intro piece answered
      cases failure <;> cases answered
  | case3 came limit rest ih =>
      intro before after e h
      rw [exchangesAfter] at h
      cases before with
      | nil =>
          obtain ⟨rfl, -⟩ := List.cons.inj h
          exact ⟨first_request_le _ _, Nat.succ_pos _, nofun⟩
      | cons first before =>
          obtain ⟨rfl, later⟩ := List.cons.inj h
          -- An interruption brings no piece, so the bound is the same with and without it.
          have within := ih later
          exact within
  | case4 came limit first tail rest piece =>
      rename_i ih
      intro before after e h
      rw [exchangesAfter] at h
      have fits : piece.length ≤ limit + 1 := length_request_le first tail (room came) limit
      cases before with
      | nil =>
          obtain ⟨rfl, -⟩ := List.cons.inj h
          refine ⟨first_request_le _ _, Nat.succ_pos _, ?_⟩
          rintro _ ⟨⟩
          simp only [List.length_cons, List.length_take]
          omega
      | cons answered before =>
          obtain ⟨rfl, later⟩ := List.cons.inj h
          obtain ⟨within, asks, answers⟩ := ih later
          refine ⟨?_, asks, answers⟩
          change (piece ++ (Exchange.pieces before).flatten).length + e.asked ≤ limit + 1
          rw [List.length_append]
          omega

/-- What comes behind the limit is never asked for. -/
theorem exchangesAfter_append (failure' : Option InputFailure) (came limit : Nat)
    (deliveries more : List Delivery)
    (reached : limit ≤ (deliveries.flatMap Delivery.content).length) :
    exchangesAfter failure' room came limit (deliveries ++ more)
      = exchangesAfter failure room came limit deliveries := by
  induction came, limit, deliveries using exchangesAfter.induct room with
  | case1 came deliveries => rw [exchangesAfter, exchangesAfter]
  | case2 came limit => simp at reached
  | case3 came limit rest ih =>
      rw [List.cons_append, exchangesAfter, exchangesAfter, ih reached]
  | case4 came limit first tail rest piece ih =>
      have fits : piece.length ≤ limit + 1 := length_request_le first tail (room came) limit
      have came_first : (Delivery.bytes first tail :: rest).flatMap Delivery.content
          = piece ++ (leftover (tail.drop (min (room came) limit)) ++ rest).flatMap
              Delivery.content :=
        flatMap_content_request first tail rest (min (room came) limit)
      rw [came_first, List.length_append] at reached
      rw [List.cons_append, exchangesAfter, exchangesAfter, ← List.append_assoc, ih (by omega)]

/-- However much room there is for the answers, they are made up of the first bytes delivered. -/
theorem exchangesAfter_flatten (came limit : Nat) (deliveries : List Delivery) :
    (Exchange.pieces (exchangesAfter failure room came limit deliveries)).flatten
      = (deliveries.flatMap Delivery.content).take limit := by
  induction came, limit, deliveries using exchangesAfter.induct room with
  | case1 came deliveries => simp [exchangesAfter]
  | case2 came limit => simp [exchangesAfter]
  | case3 came limit rest ih =>
      rw [exchangesAfter]
      exact ih
  | case4 came limit first tail rest piece ih =>
      have fits : piece.length ≤ limit + 1 := length_request_le first tail (room came) limit
      rw [exchangesAfter, Exchange.pieces_bytes, List.flatten_cons, ih,
        flatMap_content_request first tail rest (min (room came) limit), List.take_append,
        List.take_of_length_le fits]

end Source

end IndexFeed
