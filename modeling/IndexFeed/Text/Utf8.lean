/-!
Texts and their UTF-8 bytes. `encode` and `decode?` go between a text and its bytes. `decodeLossy`
reads any bytes: each longest run of bytes that starts a character and cannot be continued becomes
one replacement character.
-/

namespace IndexFeed.Utf8

def encode (s : String) : List UInt8 :=
  s.toUTF8.data.toList

theorem encode_append (s t : String) : encode (s ++ t) = encode s ++ encode t := by
  simp [encode, String.toByteArray_append]

def decode? (bytes : List UInt8) : Option String :=
  String.fromUTF8? ⟨bytes.toArray⟩

theorem decode?_encode (s : String) : decode? (encode s) = some s := by
  have bytes : (⟨(encode s).toArray⟩ : ByteArray) = s.toByteArray := by simp [encode]
  rw [decode?, bytes, String.fromUTF8?, dif_pos s.isValidUTF8]
  rfl

/-- A text up to its first `size` bytes, if a character ends there. -/
def truncate (s : String) (size : Nat) : String :=
  match s.pos? ⟨size⟩ with
  | some p => (s.sliceTo p).copy
  | none => s

theorem truncate_append (s t : String) : truncate (s ++ t) s.utf8ByteSize = s := by
  have h : (s ++ t).pos? s.rawEndPos
      = some ((s ++ t).pos s.rawEndPos (String.Pos.Raw.isValid_rawEndPos.append_right t)) := by
    have valid := (String.Pos.Raw.isValid_rawEndPos (s := s)).append_right t
    simp [String.pos?, String.pos, String.Slice.pos?, valid.toSlice]
  simp only [truncate]
  rw [show (⟨s.utf8ByteSize⟩ : String.Pos.Raw) = s.rawEndPos from rfl, h]
  exact String.Pos.splits_append_rawEndPos.copy_sliceTo_eq

def replacement : Char := '\uFFFD'

private def isContinuation (b : UInt8) : Bool :=
  0x80 ≤ b && b ≤ 0xBF

/-- The bytes that may follow a first byte of a three-byte or four-byte character. -/
def secondIsValid (first second : UInt8) : Bool :=
  if first == 0xE0 then 0xA0 ≤ second && second ≤ 0xBF
  else if first == 0xED then 0x80 ≤ second && second ≤ 0x9F
  else if first == 0xF0 then 0x90 ≤ second && second ≤ 0xBF
  else if first == 0xF4 then 0x80 ≤ second && second ≤ 0x8F
  else isContinuation second

private def low (b : UInt8) : Nat :=
  b.toNat % 64

/-- Reads one character, or one run of bytes that is none, off the front of `first :: rest`. The
second component is how many bytes of `rest` belong to it. -/
def readChar (first : UInt8) (rest : List UInt8) : Char × Nat :=
  if first < 0x80 then (Char.ofNat first.toNat, 0)
  else if 0xC2 ≤ first && first ≤ 0xDF then
    match rest with
    | b :: _ =>
      if isContinuation b then (Char.ofNat (first.toNat % 32 * 64 + low b), 1)
      else (replacement, 0)
    | [] => (replacement, 0)
  else if 0xE0 ≤ first && first ≤ 0xEF then
    match rest with
    | b :: c :: _ =>
      if !secondIsValid first b then (replacement, 0)
      else if !isContinuation c then (replacement, 1)
      else (Char.ofNat ((first.toNat % 16 * 64 + low b) * 64 + low c), 2)
    | [b] => (replacement, if secondIsValid first b then 1 else 0)
    | [] => (replacement, 0)
  else if 0xF0 ≤ first && first ≤ 0xF4 then
    match rest with
    | b :: tail =>
      if !secondIsValid first b then (replacement, 0)
      else
        match tail with
        | c :: d :: _ =>
          if !isContinuation c then (replacement, 1)
          else if !isContinuation d then (replacement, 2)
          else (Char.ofNat (((first.toNat % 8 * 64 + low b) * 64 + low c) * 64 + low d), 3)
        | [c] => (replacement, if isContinuation c then 2 else 1)
        | [] => (replacement, 1)
    | [] => (replacement, 0)
  else (replacement, 0)

/-- Reads all bytes, in front of which the characters `seen` have been read, the last one first. -/
def decodeAfter (seen : List Char) : List UInt8 → List Char
  | [] => seen.reverse
  | first :: rest =>
    let (c, used) := readChar first rest
    decodeAfter (c :: seen) (rest.drop used)
termination_by bytes => bytes.length
decreasing_by simp only [List.length_drop, List.length_cons]; omega

def decodeLossy (bytes : List UInt8) : String :=
  String.ofList (decodeAfter [] bytes)

end IndexFeed.Utf8
