import IndexFeed.Proofs.Feed.Run

/-!
What a feed consists of: its prolog, the elements of the documents that could be written, and its
epilog once it is closed. As long as a feed is not cut back, bytes and log both show this outline,
in whatever order documents are added, the feed is closed and its count is set. So the log keeps up
with the feed, and keeping one changes nothing else.
-/

namespace IndexFeed

open Markup (isInert)

def Element.payload? : Element → Option (List UInt8)
  | acl _ => none
  | record r => r.content.map RecordContent.payload

namespace FeedRules

/-- The payload that a document brings into a feed as it is, since it is encoded already. -/
def copied? (r : FeedRules) (d : Document) (taken : Taken) : Option (List UInt8) :=
  match r.feeding d, r.head d with
  | .ok .record, .ok (_, some plan) =>
    match r.payload plan d (openContent d taken).1 with
    | (written, .ok report) =>
      if plan.alreadyEncoded && !report.substituted then some written else none
    | _ => none
  | _, _ => none

/-- A payload is what is written of a document's content, in the one record that the document comes
to. -/
theorem payload_cases {r : FeedRules} {d : Document} {taken left : Taken} {elements : List Element}
    (h : r.elements d taken = (.ok elements, left)) {e : Element} (member : e ∈ elements)
    {payload : List UInt8} (held : e.payload? = some payload) :
    ∃ head plan report, r.feeding d = .ok .record ∧ r.head d = .ok (head, some plan) ∧
      r.payload plan d (openContent d taken).1 = (payload, .ok report) ∧
      elements = [.record { head with content := some ⟨plan.encoding, payload⟩ }] := by
  obtain ⟨a, -, -, rfl, -⟩ | ⟨record, feeding, found, rfl⟩ | ⟨a, record, feeding, -, found, rfl⟩ :=
    elements_ok h
  · rw [List.mem_singleton.mp member] at held
    cases held
  · rw [List.mem_singleton.mp member] at held
    obtain ⟨head, -⟩ | ⟨head, plan, written, report, head_eq, paid, rfl, -⟩ := record_ok found
    · simp [Element.payload?, content_of_head head] at held
    · cases held
      exact ⟨head, plan, report, feeding, head_eq, paid, rfl⟩
  · have noContent := feedType_of_aclThenRecord feeding
    simp only [List.mem_cons, List.not_mem_nil, or_false] at member
    obtain rfl | rfl := member
    · cases held
    · simp [Element.payload?, content_eq_none found noContent] at held

/-- A payload was encoded, or was copied from the document. -/
theorem payload_of_elements {r : FeedRules} {d : Document} {taken left : Taken}
    {elements : List Element} (lawful : r.content.codec.Lawful)
    (h : r.elements d taken = (.ok elements, left)) :
    ∀ e ∈ elements, ∀ payload, e.payload? = some payload →
      (∀ b ∈ payload, isInert b = true) ∨ r.copied? d taken = some payload := by
  intro e member payload held
  obtain ⟨head, plan, report, feeding, head_eq, paid, -⟩ := payload_cases h member held
  by_cases copied : plan.alreadyEncoded = true ∧ report.substituted = false
  · right
    simp [copied?, feeding, head_eq, paid, copied]
  · left
    refine payload_inert lawful paid fun already => ?_
    rw [← Bool.not_eq_false]
    exact fun kept => copied ⟨already, kept⟩

end FeedRules

/-- What a feed holds behind its prolog. -/
structure FeedOutline where
  elements : List Element := []
  /-- Those payloads of the elements that were encoded already. -/
  copied : List (List UInt8) := []
  recordCount : UInt64 := 0
  closed : Bool := false

namespace FeedOutline

def pieces (v : FeedOutline) (o : FeedOptions) : List Piece :=
  .text (Feed.prolog o) :: Element.allPieces v.elements
    ++ if v.closed then [.text Feed.epilog] else []

theorem allBytes_pieces (v : FeedOutline) (o : FeedOptions) :
    Piece.allBytes (v.pieces o)
      = Utf8.encode (Feed.prolog o) ++ (Piece.allBytes (Element.allPieces v.elements)
          ++ if v.closed then Utf8.encode Feed.epilog else []) := by
  rw [pieces, Piece.allBytes_append, Piece.allBytes, List.flatMap_cons, List.append_assoc]
  cases v.closed with
  | true => simp [Piece.allBytes, Piece.bytes]
  | false => rfl

def add (v : FeedOutline) (r : FeedRules) (d : Document) (taken : Taken) :
    Except FeedError Nat × FeedOutline × Taken :=
  if v.closed then (.error .closed, v, taken)
  else
    match r.elements d taken with
    | (.error e, left) => (.error e, v, left)
    | (.ok elements, left) =>
      (.ok elements.length,
        { v with
          elements := v.elements ++ elements
          copied := v.copied ++ (r.copied? d taken).toList
          recordCount := v.recordCount + .ofNat elements.length },
        left)

def step (v : FeedOutline) (r : FeedRules) (taken : Taken) :
    FeedStep → Except FeedError Nat × FeedOutline × Taken
  | .add d => v.add r d taken
  | .close => (.ok 0, { v with closed := true }, taken)
  | .setCount count => (.ok 0, { v with recordCount := count }, taken)

def run (v : FeedOutline) (r : FeedRules) (taken : Taken) :
    List FeedStep → List (Except FeedError Nat) × FeedOutline × Taken
  | [] => ([], v, taken)
  | s :: rest =>
    let (outcome, v, taken) := v.step r taken s
    let (outcomes, v, taken) := v.run r taken rest
    (outcome :: outcomes, v, taken)

variable {v : FeedOutline} {r : FeedRules} {taken : Taken}

theorem add_cases (v : FeedOutline) (r : FeedRules) (d : Document) (taken : Taken) :
    (v.add r d taken).2.1 = v ∨
      ∃ elements left, r.elements d taken = (.ok elements, left) ∧
        (v.add r d taken).2.1 =
          { v with
            elements := v.elements ++ elements
            copied := v.copied ++ (r.copied? d taken).toList
            recordCount := v.recordCount + .ofNat elements.length } := by
  unfold add
  split
  · exact .inl rfl
  · cases found : r.elements d taken with
    | mk outcome left =>
        cases outcome with
        | error e => exact .inl rfl
        | ok elements => exact .inr ⟨elements, left, rfl, rfl⟩

/-- What every step keeps holds of a run. -/
theorem run_keeps {holds : FeedOutline → Prop} {steps : List FeedStep}
    (kept : ∀ s ∈ steps, ∀ v taken, holds v → holds (v.step r taken s).2.1) (first : holds v)
    (taken : Taken) : holds (v.run r taken steps).2.1 := by
  induction steps generalizing v taken with
  | nil => exact first
  | cons s rest ih =>
      rw [List.forall_mem_cons] at kept
      exact ih kept.2 (kept.1 v taken first) (v.step r taken s).2.2

/-- Each payload was encoded, or is one of those that were copied. -/
def Accounts (v : FeedOutline) : Prop :=
  ∀ e ∈ v.elements, ∀ payload, e.payload? = some payload →
    (∀ b ∈ payload, isInert b = true) ∨ payload ∈ v.copied

theorem Accounts.add (lawful : r.content.codec.Lawful) (accounts : v.Accounts) (d : Document)
    (taken : Taken) :
    (v.add r d taken).2.1.Accounts := by
  obtain same | ⟨elements, left, found, grown⟩ := v.add_cases r d taken
  · rwa [same]
  · rw [grown]
    intro e member payload held
    simp only [List.mem_append] at member ⊢
    obtain before | added := member
    · exact (accounts e before payload held).imp_right .inl
    · exact (FeedRules.payload_of_elements lawful found e added payload held).imp_right
        fun copied => .inr (by simp [copied])

theorem Accounts.run (lawful : r.content.codec.Lawful) (accounts : v.Accounts) (taken : Taken)
    (steps : List FeedStep) : (v.run r taken steps).2.1.Accounts := by
  apply run_keeps _ accounts
  intro s _ v taken accounts
  cases s with
  | add d => exact accounts.add lawful d taken
  | close => exact accounts
  | setCount count => exact accounts

theorem accounts_run (r : FeedRules) (lawful : r.content.codec.Lawful) (taken : Taken)
    (steps : List FeedStep) : (run {} r taken steps).2.1.Accounts := by
  have nothing : ({} : FeedOutline).Accounts := by simp [Accounts]
  exact nothing.run lawful taken steps

/-- The count is that of the elements, modulo `2 ^ 64`. -/
def IsCounted (v : FeedOutline) : Prop := v.recordCount = .ofNat v.elements.length

theorem IsCounted.add (counted : v.IsCounted) (d : Document) (taken : Taken) :
    (v.add r d taken).2.1.IsCounted := by
  obtain same | ⟨elements, left, found, grown⟩ := v.add_cases r d taken
  · rwa [same]
  · rw [grown, IsCounted, counted, List.length_append, UInt64.ofNat_add]

theorem IsCounted.run (counted : v.IsCounted) (taken : Taken) {steps : List FeedStep}
    (unset : ∀ count, .setCount count ∉ steps) : (v.run r taken steps).2.1.IsCounted := by
  apply run_keeps _ counted
  intro s member v taken counted
  cases s with
  | add d => exact counted.add d taken
  | close => exact counted
  | setCount count => exact absurd member (unset count)

end FeedOutline

namespace Feed

/-- A feed consists of what an outline says, and its log, if it has to keep one, of the same with a
mark in the place of each payload. -/
structure Shows (f : Feed) (v : FeedOutline) : Prop where
  bytes : f.bytes.toList = Piece.allBytes (v.pieces f.options)
  log : f.log = if f.options.keepsLog then some (Piece.allLogged (v.pieces f.options)) else none
  progress : f.progress
    = ⟨f.options.maxFeedSize, f.bytes.size, v.recordCount, v.closed⟩

/-- What was done with a feed comes out as it does for an outline. -/
structure Follows {α : Type} (f : Feed) (done : α × Feed × Taken)
    (outlined : α × FeedOutline × Taken) : Prop where
  outcome : done.1 = outlined.1
  shows : done.2.1.Shows outlined.2.1
  options : done.2.1.options = f.options
  left : done.2.2 = outlined.2.2

variable {f : Feed} {v : FeedOutline}

theorem Shows.isClosed (shows : f.Shows v) : f.isClosed = v.closed := by
  rw [Feed.isClosed, shows.progress]

theorem Shows.recordCount (shows : f.Shows v) : f.recordCount = v.recordCount := by
  rw [Feed.recordCount, shows.progress]

theorem Shows.current (shows : f.Shows v) : f.body.IsCurrent := by
  have progress : f.body.progress = _ := shows.progress
  rw [FeedBody.IsCurrent, progress]
  rfl

theorem log_withProgress (f : Feed) (change : FeedProgress → FeedProgress) :
    (f.withProgress change).log = f.log := rfl

theorem log_write (f : Feed) (pieces : List Piece) :
    (f.write pieces).log = f.log.map (· ++ Piece.allLogged pieces) := rfl

theorem progress_write (f : Feed) (pieces : List Piece) :
    (f.write pieces).progress = { f.progress with size := (f.write pieces).bytes.size } := rfl

/-- Pieces are written behind everything, and the count or the state of the feed changes with
them. -/
theorem Shows.write (shows : f.Shows v) {v' : FeedOutline} (more : List Piece)
    (change : FeedProgress → FeedProgress)
    (grown : v'.pieces f.options = v.pieces f.options ++ more)
    (changed : ∀ size, change ⟨f.options.maxFeedSize, size, v.recordCount, v.closed⟩
      = ⟨f.options.maxFeedSize, size, v'.recordCount, v'.closed⟩) :
    ((f.write more).withProgress change).Shows v' where
  bytes := by
    rw [bytes_withProgress, bytes_write, options_withProgress, options_write, grown,
      Piece.allBytes_append, shows.bytes]
  log := by
    rw [log_withProgress, log_write, options_withProgress, options_write, grown,
      Piece.allLogged_append, shows.log]
    split <;> rfl
  progress := by
    rw [progress_withProgress, progress_write, shows.progress, changed, bytes_withProgress,
      options_withProgress, options_write]

theorem openWith_shows (o : FeedOptions) (id : String) : (openWith o id).Shows {} where
  bytes := by
    simp [bytes_openWith, options_openWith, FeedOutline.pieces, Element.allPieces, Piece.allBytes,
      Piece.bytes]
  log := by
    rw [options_openWith, openWith, log_write]
    cases o.keepsLog <;>
      simp [FeedOutline.pieces, Element.allPieces, Piece.allLogged, Piece.logged]
  progress := rfl

theorem Shows.add (shows : f.Shows v) (d : Document) (taken : Taken) :
    f.Follows (f.add d taken) (v.add f.options.rules d taken) := by
  cases closed : v.closed with
  | true =>
      rw [add_closed (shows.isClosed.trans closed), FeedOutline.add, if_pos closed]
      exact ⟨rfl, shows, rfl, rfl⟩
  | false =>
      have ready : f.IsReady := ⟨shows.isClosed.trans closed, shows.current⟩
      rw [FeedOutline.add, if_neg (by simp [closed])]
      cases found : f.options.rules.elements d taken with
      | mk outcome left =>
          cases outcome with
          | error e =>
              rw [add_error ready found]
              exact ⟨rfl, shows, rfl, rfl⟩
          | ok elements =>
              rw [add_ok ready found]
              refine ⟨rfl, ?_, rfl, rfl⟩
              let change : FeedProgress → FeedProgress := fun p =>
                { p with recordCount := p.recordCount + .ofNat elements.length }
              refine shows.write (Element.allPieces elements) change ?_ fun _ => rfl
              simp [FeedOutline.pieces, closed, Element.allPieces]

theorem Shows.close (shows : f.Shows v) : f.close.Shows { v with closed := true } := by
  cases closed : v.closed with
  | true =>
      have same : ({ v with closed := true } : FeedOutline) = v := by rw [← closed]
      rwa [same, Feed.close, if_pos (shows.isClosed.trans closed)]
  | false =>
      rw [close_open (shows.isClosed.trans closed)]
      refine shows.write [.text epilog] (fun p => { p with closed := true }) ?_ fun _ => rfl
      simp [FeedOutline.pieces, closed]

theorem Shows.withRecordCount (shows : f.Shows v) (count : UInt64) :
    (f.withRecordCount count).Shows { v with recordCount := count } where
  bytes := shows.bytes
  log := shows.log
  progress := by
    rw [Feed.withRecordCount, progress_withProgress, shows.progress, bytes_withProgress,
      options_withProgress]

theorem Shows.step (shows : f.Shows v) (taken : Taken) (s : FeedStep) :
    f.Follows (f.step taken s) (v.step f.options.rules taken s) := by
  cases s with
  | add d => exact shows.add d taken
  | close => exact ⟨rfl, shows.close, options_close f, rfl⟩
  | setCount count => exact ⟨rfl, shows.withRecordCount count, rfl, rfl⟩

theorem Shows.run (shows : f.Shows v) (taken : Taken) (steps : List FeedStep) :
    f.Follows (f.run taken (steps.map .step)) (v.run f.options.rules taken steps) := by
  induction steps generalizing f v taken with
  | nil => exact ⟨rfl, shows, rfl, rfl⟩
  | cons s rest ih =>
      have next := shows.step taken s
      have later := ih next.shows (f.step taken s).2.2
      rw [next.left, next.options] at later
      simp only [List.map_cons, Feed.run, Feed.call, FeedOutline.run, next.left]
      exact
        { outcome := by rw [next.outcome, later.outcome]
          shows := later.shows
          options := later.options.trans next.options
          left := later.left }

theorem openWith_run (o : FeedOptions) (id : String) (taken : Taken) (steps : List FeedStep) :
    (openWith o id).Follows ((openWith o id).run taken (steps.map .step))
      (FeedOutline.run {} o.rules taken steps) := by
  have shown := (openWith_shows o id).run taken steps
  rwa [options_openWith] at shown

theorem openWith_run_bytes (o : FeedOptions) (id : String) (taken : Taken)
    (steps : List FeedStep) :
    ((openWith o id).run taken (steps.map .step)).2.1.bytes.toList
      = Piece.allBytes ((FeedOutline.run {} o.rules taken steps).2.1.pieces o) := by
  have followed := openWith_run o id taken steps
  rw [followed.shows.bytes, followed.options, options_openWith]

/-- However documents are added, a feed is closed and its count is set, the feed's bytes and its log
are made of the same texts and payloads, with a mark in the log for each payload. A feed that keeps
no log differs in nothing else. -/
theorem run_log (o : FeedOptions) (usable : o.check = .ok ()) (ids ids' : FeedIds) :
    ∃ f g left left', create { o with keepsLog := true } ids = .ok (f, left) ∧
      create { o with keepsLog := false } ids' = .ok (g, left') ∧
      ∀ (taken : Taken) (steps : List FeedStep),
        let logged := f.run taken (steps.map .step)
        let silent := g.run taken (steps.map .step)
        let outlined := FeedOutline.run {} o.rules taken steps
        let pieces := outlined.2.1.pieces o
        (logged.1 = outlined.1 ∧ logged.2.1.bytes.toList = Piece.allBytes pieces ∧
          logged.2.1.log = some (Piece.allLogged pieces)) ∧
          silent.1 = logged.1 ∧ silent.2.2 = logged.2.2 ∧ silent.2.1.bytes = logged.2.1.bytes ∧
          silent.2.1.progress = logged.2.1.progress ∧ silent.2.1.log = none := by
  have check (keepsLog : Bool) : ({ o with keepsLog } : FeedOptions).check = .ok () := usable
  refine ⟨_, _, _, _, create_ok (check true) ids, create_ok (check false) ids', ?_⟩
  intro taken steps logged silent outlined pieces
  have one := openWith_run { o with keepsLog := true } ids.next.1 taken steps
  have other := openWith_run { o with keepsLog := false } ids'.next.1 taken steps
  have bytes : silent.2.1.bytes = logged.2.1.bytes := by
    apply Array.toList_inj.mp
    rw [one.shows.bytes, other.shows.bytes, one.options, other.options]
    rfl
  refine ⟨⟨one.outcome, ?_, ?_⟩, ?_, ?_, bytes, ?_, ?_⟩
  · rw [one.shows.bytes, one.options]
    rfl
  · rw [one.shows.log, one.options]
    rfl
  · exact other.outcome.trans one.outcome.symm
  · exact other.left.trans one.left.symm
  · rw [one.shows.progress, other.shows.progress, one.options, other.options, bytes]
    rfl
  · rw [other.shows.log, other.options]
    rfl

/-- The content of the second document breaks off, and the last document comes too late. -/
theorem run_log_of_interrupted_content :
    let o : FeedOptions := { dataSource := "hr" }
    let draft (content : Value) : Document :=
      ⟨({ docid := "a", content, users := ["eve"] } : DocumentDraft).table.toDocument.find, .ok []⟩
    let whole := draft (.binary [60, 38])
    let broken := draft (.stream ⟨0, ⟨[.bytes 65 [66]], some ⟨"gone"⟩⟩⟩)
    let steps := [.add whole, .add broken, .setCount 7, .close, .add whole]
    o.check = .ok () ∧
      ∃ f left, create { o with keepsLog := true } (.sequential "hr") = .ok (f, left) ∧
        let logged := f.run {} (steps.map .step)
        logged.1.map Except.toOption = [some 1, none, some 0, some 0, none] ∧
          ∃ pieces, logged.2.1.bytes.toList = Piece.allBytes pieces ∧
            logged.2.1.log = some (Piece.allLogged pieces) ∧
            pieces.filterMap (fun | .payload bytes => some bytes | .text _ => none)
              = [[80, 67, 89, 61]] := by
  have usable : FeedOptions.check { dataSource := "hr" } = .ok () := rfl
  intro o draft whole broken steps
  obtain ⟨f, g, left, left', opened, -, shows⟩ :=
    run_log o usable (.sequential "hr") (.sequential "hr")
  obtain ⟨⟨outcomes, bytes, log⟩, -⟩ := shows {} steps
  have ends : (FeedOutline.run {} o.rules {} steps).1.map Except.toOption
      = [some 1, none, some 0, some 0, none] := by decide +kernel
  have payloads : ((FeedOutline.run {} o.rules {} steps).2.1.pieces o).filterMap
      (fun | .payload bytes => some bytes | .text _ => none) = [[80, 67, 89, 61]] := by
    decide +kernel
  refine ⟨usable, f, left, opened, ?_, _, bytes, log, payloads⟩
  rw [outcomes]
  exact ends

end Feed

end IndexFeed
