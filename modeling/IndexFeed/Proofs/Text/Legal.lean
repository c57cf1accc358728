import IndexFeed.Proofs.Codec.FormEncoded
import IndexFeed.Value

/-!
Which characters may stand in a document of XML 1.0, and which texts have no others. Numbers, points
of time and addresses in form encoding never have another one, whatever they stand for; a text that
is cut at its ends or taken apart keeps to the characters that it had.
-/

namespace IndexFeed

namespace Text

/-- The characters of XML 1.0: tab, line feed, carriage return, and everything from the space on but
the surrogates and the last two code points of the first plane. -/
def isLegalChar (c : Char) : Bool :=
  let n := c.toNat
  n == 9 || n == 10 || n == 13 || (0x20 ≤ n && n ≤ 0xD7FF) || (0xE000 ≤ n && n ≤ 0xFFFD)
    || (0x10000 ≤ n && n ≤ 0x10FFFF)

/-- A text of legal characters. -/
def IsLegal (s : String) : Prop := ∀ c ∈ s.toList, isLegalChar c = true

instance (s : String) : Decidable (IsLegal s) :=
  decidable_of_iff (s.toList.all isLegalChar = true) List.all_eq_true

@[simp] theorem isLegal_append {s t : String} : IsLegal (s ++ t) ↔ IsLegal s ∧ IsLegal t := by
  rw [IsLegal, String.toList_append, List.forall_mem_append]
  rfl

@[simp] theorem isLegal_ofList {cs : List Char} :
    IsLegal (String.ofList cs) ↔ ∀ c ∈ cs, isLegalChar c = true := by
  rw [IsLegal, String.toList_ofList]

theorem isLegal_join {texts : List String} :
    IsLegal (String.join texts) ↔ ∀ s ∈ texts, IsLegal s := by
  simp only [IsLegal, String.toList_join, List.mem_flatMap]
  constructor
  · intro whole s member c inside
    exact whole c ⟨s, member, inside⟩
  · rintro each c ⟨s, member, inside⟩
    exact each s member c inside

/-- A text with no other characters than a legal one is legal. -/
theorem IsLegal.of_subset {s t : String} (legal : IsLegal s) (sub : t.toList ⊆ s.toList) :
    IsLegal t := fun c member => legal c (sub member)

theorem IsLegal.trim {s : String} (legal : IsLegal s) : IsLegal (trim s) := by
  apply legal.of_subset
  intro c member
  rw [Text.trim, String.toList_ofList, trimEnd, List.mem_reverse] at member
  have front := List.mem_reverse.mp ((List.dropWhile_sublist _).mem member)
  exact (List.dropWhile_sublist _).mem front

theorem isLegalChar_of_isDigit {c : Char} (digit : c.isDigit = true) : isLegalChar c = true := by
  simp only [Char.isDigit, Bool.and_eq_true, decide_eq_true_eq, ge_iff_le, UInt32.le_iff_toNat_le]
    at digit
  simp only [isLegalChar, Bool.or_eq_true, Bool.and_eq_true, decide_eq_true_eq, Char.toNat]
  have low : 48 ≤ c.val.toNat := digit.1
  have high : c.val.toNat ≤ 57 := digit.2
  omega

end Text

open Text

namespace Decimal

theorem legal_digits (n : Nat) : ∀ c ∈ Nat.toDigits 10 n, isLegalChar c = true := by
  intro c member
  exact isLegalChar_of_isDigit (Nat.isDigit_of_mem_toDigits (by decide) (by decide) member)

theorem legal_zeros (n : Nat) : ∀ c ∈ List.replicate n '0', isLegalChar c = true := by
  intro c member
  rw [List.eq_of_mem_replicate member]
  decide

@[simp] theorem isLegal_ofNat (n : Nat) : IsLegal (ofNat n) :=
  isLegal_ofList.mpr (legal_digits n)

@[simp] theorem isLegal_ofInt (n : Int) : IsLegal (ofInt n) := by
  cases n with
  | ofNat n => exact isLegal_ofNat n
  | negSucc n => exact isLegal_append.mpr ⟨by decide, isLegal_ofNat (n + 1)⟩

@[simp] theorem isLegal_padded (width n : Nat) : IsLegal (padded width n) :=
  isLegal_ofList.mpr (List.forall_mem_append.mpr ⟨legal_zeros _, legal_digits n⟩)

theorem Shortest.isLegal_positional (d : Shortest) : IsLegal d.positional := by
  have digits := legal_digits d.digits
  simp only [positional]
  split
  · exact isLegal_ofList.mpr (List.forall_mem_append.mpr ⟨digits, legal_zeros _⟩)
  · split
    · rw [isLegal_ofList, List.forall_mem_append, List.forall_mem_cons]
      exact ⟨fun c member => digits c (List.mem_of_mem_take member), by decide,
        fun c member => digits c (List.mem_of_mem_drop member)⟩
    · rw [isLegal_ofList, List.cons_append, List.cons_append, List.forall_mem_cons,
        List.forall_mem_cons, List.forall_mem_append]
      exact ⟨by decide, by decide, legal_zeros _, digits⟩

@[simp] theorem isLegal_ofFloat (x : Float) : IsLegal (ofFloat x) := by
  rw [ofFloat]
  split
  · split
    · decide
    · split <;> decide
  · rename_i b _
    have sign : IsLegal (if b.negative then "-" else "") := by split <;> decide
    simp only
    split
    · exact isLegal_append.mpr ⟨sign, by decide⟩
    · exact isLegal_append.mpr ⟨sign, Shortest.isLegal_positional _⟩

end Decimal

namespace Calendar

@[simp] theorem isLegal_yearText (year : Int) : IsLegal (yearText year) := by
  rw [yearText]
  split
  · exact Decimal.isLegal_padded _ _
  · exact isLegal_append.mpr ⟨by split <;> decide, Decimal.isLegal_padded _ _⟩

@[simp] theorem Date.isLegal_text (d : Date) : IsLegal d.text := by
  have dash : IsLegal "-" := by decide
  simp [Date.text, dash]

namespace Timestamp

@[simp] theorem isLegal_clockText (t : Timestamp) : IsLegal t.clockText := by
  have colon : IsLegal ":" := by decide
  simp [clockText, colon]

@[simp] theorem isLegal_fractionText (t : Timestamp) : IsLegal t.fractionText := by
  have point : IsLegal "." := by decide
  simp only [fractionText]
  split
  · decide
  · split
    · simp [point]
    · split <;> simp [point]

@[simp] theorem isLegal_text (t : Timestamp) : IsLegal t.text := by
  have separator : IsLegal "T" := by decide
  have zone : IsLegal "+00:00" := by decide
  simp [text, separator, zone]

theorem isLegal_getD (names : List String) (legal : ∀ name ∈ names, IsLegal name) (i : Nat) :
    IsLegal (names.getD i "") := by
  rw [List.getD_eq_getElem?_getD]
  cases found : names[i]? with
  | none => decide
  | some name => exact legal name (List.mem_of_getElem? found)

@[simp] theorem isLegal_modificationText (t : Timestamp) : IsLegal t.modificationText := by
  have weekday := isLegal_getD weekdayNames (by decide) (weekday t.days)
  have month := isLegal_getD monthNames (by decide) (t.date.month - 1)
  have comma : IsLegal ", " := by decide
  have blank : IsLegal " " := by decide
  have zone : IsLegal " GMT" := by decide
  simp only [modificationText, isLegal_append, weekday, month, comma, blank, zone,
    Decimal.isLegal_padded, isLegal_yearText, isLegal_clockText, and_self]

end Timestamp

end Calendar

namespace FormEncoded

theorem legal_encodeByte (b : UInt8) : ∀ c ∈ encodeByte b, isLegalChar c = true := by
  have legal : ∀ b : UInt8, (encodeByte b).all isLegalChar = true :=
    forall_byte (by decide +kernel)
  exact List.all_eq_true.mp (legal b)

@[simp] theorem isLegal_encode (s : String) : IsLegal (encode s) := by
  rw [encode, isLegal_ofList]
  intro c member
  obtain ⟨b, -, inside⟩ := List.mem_flatMap.mp member
  exact legal_encodeByte b c inside

end FormEncoded

namespace Value

/-- A value with legal texts. Numbers, truth values and points of time always are. -/
def IsLegal : Value → Prop
  | string s => Text.IsLegal s
  | binary bytes => Text.IsLegal (Utf8.decodeLossy bytes)
  | principal p => Text.IsLegal p.name ∧ Text.IsLegal p.namespace
  | boolean _ | integer _ | real _ | date _ | stream _ => True

theorem IsLegal.text {v : Value} (legal : v.IsLegal) : Text.IsLegal v.text := by
  cases v with
  | string s => exact legal
  | boolean flag => cases flag <;> decide
  | integer n => exact Decimal.isLegal_ofInt n.toInt
  | real x => exact Decimal.isLegal_ofFloat x
  | date t => exact t.isLegal_text
  | binary bytes => exact legal
  | principal p => exact legal.1
  | stream s =>
      have empty : Text.IsLegal "" := by decide
      exact empty

theorem IsLegal.metadataText {v : Value} (legal : v.IsLegal) {t : String}
    (h : v.metadataText? = some t) : Text.IsLegal t := by
  cases v with
  | date d =>
      cases h
      exact d.date.isLegal_text
  | binary bytes => cases h
  | stream s => cases h
  | string s | boolean flag | integer n | real x | principal p =>
      cases h
      exact legal.text

end Value

end IndexFeed
