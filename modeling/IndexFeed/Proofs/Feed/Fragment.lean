import IndexFeed.Proofs.Feed.Addition
import IndexFeed.Proofs.Feed.Progress
import IndexFeed.Proofs.Rules

/-!
What a feed holds while it takes documents: its prolog and a fragment for every document that could
be written. Every error that a document causes concerns that document alone. A feed with room left
is far from wrapping its count around, since every element takes some bytes.
-/

namespace IndexFeed

/-- What a document adds to a feed: a number of elements and their bytes. -/
structure Fragment where
  count : Nat
  bytes : List UInt8
  deriving Repr, DecidableEq

namespace Fragment

def total (fragments : List Fragment) : Nat := (fragments.map count).sum

def allBytes (fragments : List Fragment) : List UInt8 := fragments.flatMap bytes

/-- A fragment has one or two elements, of two bytes at least. -/
structure IsProper (f : Fragment) : Prop where
  pos : 0 < f.count
  le_two : f.count ≤ 2
  le_bytes : 2 * f.count ≤ f.bytes.length

theorem total_append (a b : List Fragment) : total (a ++ b) = total a + total b := by
  simp [total]

theorem allBytes_append (a b : List Fragment) : allBytes (a ++ b) = allBytes a ++ allBytes b :=
  List.flatMap_append

theorem total_le_length {fragments : List Fragment} (proper : ∀ f ∈ fragments, f.IsProper) :
    2 * total fragments ≤ (allBytes fragments).length := by
  induction fragments with
  | nil => simp [total]
  | cons f rest ih =>
      have first := (proper f (by simp)).le_bytes
      have more := ih fun g member => proper g (by simp [member])
      simp only [total, allBytes, List.map_cons, List.sum_cons, List.flatMap_cons,
        List.length_append] at more ⊢
      omega

theorem total_eq_zero_iff {fragments : List Fragment} (proper : ∀ f ∈ fragments, f.IsProper) :
    total fragments = 0 ↔ fragments = [] := by
  cases fragments with
  | nil => simp [total]
  | cons f rest =>
      have first := (proper f (by simp)).pos
      simp only [total, List.map_cons, List.sum_cons, reduceCtorEq, iff_false]
      omega

end Fragment

theorem Element.two_le_bytes (e : Element) : 2 ≤ (Piece.allBytes e.pieces).length := by
  have tag (s name : String) : 2 ≤ (Utf8.encode (s ++ Markup.endTag name)).length := by
    have open_bracket : (Utf8.encode "</").length = 2 := by decide
    simp only [Markup.endTag, Utf8.encode_append, List.length_append, open_bracket]
    omega
  cases e with
  | acl a =>
      have last := tag
        ("<acl" ++ Markup.attrs a.attributes ++ ">\n"
          ++ String.join (a.entries.map AclEntry.markup))
        "acl"
      simpa [Element.pieces, Piece.allBytes, Piece.bytes, Acl.markup] using last
  | record r =>
      cases held : r.content with
      | none =>
          have last := tag r.head "record"
          simpa [Element.pieces, Record.pieces, held, Piece.allBytes, Piece.bytes] using last
      | some c =>
          have last := tag (Markup.endTag "content") "record"
          simp only [Element.pieces, Record.pieces, held, Piece.allBytes, Piece.bytes, contentEnd,
            List.flatMap_cons, List.flatMap_nil, List.length_append, List.append_nil] at last ⊢
          omega

theorem Element.length_le_allBytes (elements : List Element) :
    2 * elements.length ≤ (Piece.allBytes (Element.allPieces elements)).length := by
  induction elements with
  | nil => simp
  | cons e rest ih =>
      have first := e.two_le_bytes
      simp only [Element.allPieces, List.flatMap_cons, Piece.allBytes_append, List.length_cons,
        List.length_append] at ih ⊢
      omega

namespace FeedRules

/-- What a document without streams comes to by itself, if it can be written. -/
def fragment? (r : FeedRules) (d : Document) : Option Fragment :=
  match r.alone d {} with
  | (.ok count, bytes, _) => some ⟨count, bytes⟩
  | (.error _, _, _) => none

theorem fragment?_ok {r : FeedRules} {d : Document} {taken : Taken} {elements : List Element}
    (h : r.elements d {} = (.ok elements, taken)) :
    r.fragment? d = some ⟨elements.length, Piece.allBytes (Element.allPieces elements)⟩ := by
  rw [fragment?, alone_ok h]

theorem fragment?_error {r : FeedRules} {d : Document} {taken : Taken} {e : FeedError}
    (h : r.elements d {} = (.error e, taken)) : r.fragment? d = none := by
  obtain ⟨bytes, alone⟩ := alone_error h
  rw [fragment?, alone]

theorem proper_of_elements {r : FeedRules} {d : Document} {taken : Taken}
    {elements : List Element} (h : r.elements d {} = (.ok elements, taken)) :
    (⟨elements.length, Piece.allBytes (Element.allPieces elements)⟩ : Fragment).IsProper := by
  have few : 0 < elements.length ∧ elements.length ≤ 2 := by
    obtain ⟨a, -, -, rfl, -⟩ | ⟨record, -, -, rfl⟩ | ⟨a, record, -, -, -, rfl⟩ := elements_ok h
    · simp
    · simp
    · simp
  exact ⟨few.1, few.2, Element.length_le_allBytes elements⟩

end FeedRules

/-- A feed that is not full has room for a byte, and for some records of the average size if it has
records. -/
theorem room_of_not_full {capacity size count : Nat} (fits : capacity < UInt64.size)
    (dense : count ≤ size) (notFull : isFull capacity size count = false) :
    size < capacity ∧ (0 < count → size + tightRecords * (size / count) ≤ capacity) := by
  have undue : ¬ IsDue capacity size count := by
    rw [← isFull_iff fits, notFull]
    exact Bool.false_ne_true
  by_cases none : count = 0
  · have room : capacity - size ≠ 0 := fun nothing => undue (.noRoom none nothing)
    omega
  · have pos : 0 < count := Nat.pos_of_ne_zero none
    have average : 0 < size / count := Nat.div_pos dense pos
    have room : ¬ capacity - size < 3 * (size / count) := fun few => undue (.fewRecords pos few)
    rw [tightRecords]
    omega

namespace Feed

/-- A feed that takes documents and holds some fragments so far. -/
structure Holds (o : FeedOptions) (id : String) (f : Feed) (fragments : List Fragment) : Prop where
  ready : f.IsReady
  options : f.options = o
  id : f.id = id
  capacity : f.progress.capacity = o.maxFeedSize
  bytes : f.bytes.toList = Utf8.encode (prolog o) ++ Fragment.allBytes fragments
  count : f.recordCount = UInt64.ofNat (Fragment.total fragments)
  proper : ∀ g ∈ fragments, g.IsProper

theorem openWith_holds (o : FeedOptions) (id : String) : (openWith o id).Holds o id [] where
  ready := openWith_ready o id
  options := rfl
  id := rfl
  capacity := rfl
  bytes := by rw [bytes_openWith]; simp [Fragment.allBytes]
  count := recordCount_openWith o id
  proper := by simp

variable {o : FeedOptions} {id : String} {f : Feed} {fragments : List Fragment}

theorem Holds.add_fragment (h : f.Holds o id fragments) {d : Document} {fragment : Fragment}
    (written : o.rules.fragment? d = some fragment) :
    ∃ f' taken, f.add d {} = (.ok fragment.count, f', taken) ∧
      f'.Holds o id (fragments ++ [fragment]) := by
  cases found : o.rules.elements d {} with
  | mk outcome taken =>
      cases outcome with
      | error e =>
          rw [FeedRules.fragment?_error found] at written
          cases written
      | ok elements =>
          have proper := FeedRules.proper_of_elements found
          rw [FeedRules.fragment?_ok found, Option.some.injEq] at written
          cases written
          obtain ⟨f', added, gains⟩ := add_eq_alone h.ready d {}
          rw [h.options, FeedRules.alone_ok found] at added gains
          refine ⟨f', taken, added, gains.ready, gains.options.trans h.options, gains.id.trans h.id,
            gains.capacity.trans h.capacity, ?_, ?_, ?_⟩
          · rw [gains.bytes, h.bytes, Fragment.allBytes_append, List.append_assoc]
            simp [Fragment.allBytes, FeedRules.contribution]
          · rw [gains.count, h.count, Fragment.total_append, UInt64.ofNat_add]
            simp [Fragment.total, FeedRules.contributed]
          · intro g member
            obtain old | new := List.mem_append.mp member
            · exact h.proper g old
            · exact List.mem_singleton.mp new ▸ proper

theorem Holds.add_nothing (h : f.Holds o id fragments) {d : Document}
    (failed : o.rules.fragment? d = none) :
    ∃ e taken, f.add d {} = (.error e, f, taken) ∧ e.concernsDocument = true := by
  cases found : o.rules.elements d {} with
  | mk outcome taken =>
      cases outcome with
      | ok elements =>
          rw [FeedRules.fragment?_ok found] at failed
          cases failed
      | error e =>
          have concerns := FeedRules.elements_concernsDocument found
          rw [← h.options] at found
          exact ⟨e, taken, add_error h.ready found, concerns⟩

theorem Holds.total_le_size (h : f.Holds o id fragments) :
    2 * Fragment.total fragments ≤ f.size := by
  have size : f.size = f.bytes.toList.length := rfl
  have enough := Fragment.total_le_length h.proper
  rw [size, h.bytes, List.length_append]
  omega

theorem Holds.recordCount_toNat (h : f.Holds o id fragments)
    (bounded : Fragment.total fragments < 2 ^ 64) :
    f.recordCount.toNat = Fragment.total fragments := by
  rw [h.count, UInt64.toNat_ofNat_of_lt' bounded]

theorem Holds.recordCount_eq_zero_iff (h : f.Holds o id fragments)
    (bounded : Fragment.total fragments < 2 ^ 64) : f.recordCount = 0 ↔ fragments = [] := by
  rw [← UInt64.toNat_inj, h.recordCount_toNat bounded, ← Fragment.total_eq_zero_iff h.proper]
  rfl

/-- A feed that is not full has room for a byte. -/
theorem Holds.room (h : f.Holds o id fragments) (bounded : Fragment.total fragments < 2 ^ 64)
    (notFull : f.isFull = false) : f.size < o.maxFeedSize.toNat := by
  have count : f.progress.recordCount.toNat = Fragment.total fragments :=
    h.recordCount_toNat bounded
  have size : f.progress.size = f.size := h.ready.current
  have dense := h.total_le_size
  rw [isFull, FeedProgress.isFull, h.capacity, count, size] at notFull
  exact (room_of_not_full o.maxFeedSize.toNat_lt (by omega) notFull).1

/-- One more fragment does not wrap the count around if there was room for a byte. -/
theorem Holds.total_append_lt (h : f.Holds o id fragments)
    (room : fragments = [] ∨ f.size < o.maxFeedSize.toNat) {fragment : Fragment}
    (proper : fragment.IsProper) : Fragment.total (fragments ++ [fragment]) < 2 ^ 64 := by
  have few := proper.le_two
  have one : Fragment.total [fragment] = fragment.count := by simp [Fragment.total]
  rw [Fragment.total_append, one]
  obtain rfl | below := room
  · simp only [Fragment.total, List.map_nil, List.sum_nil]
    omega
  · have dense := h.total_le_size
    have capacity := o.maxFeedSize.toNat_lt
    omega

end Feed

end IndexFeed
