import IndexFeed.Codec.FormEncoded
import IndexFeed.Proofs.Text.Utf8

/-!
The form encoding can be read back, so that two texts with the same encoding are the same, and it
holds none of the characters that divide the parts of an address.
-/

namespace IndexFeed.FormEncoded

/-- The value of a hexadecimal digit. -/
def digitValue (c : Char) : Nat :=
  if c.toNat < 65 then c.toNat - 48 else c.toNat - 55

/-- The bytes that an encoded text stands for. -/
def read : List Char → List UInt8
  | '%' :: high :: low :: rest => .ofNat (16 * digitValue high + digitValue low) :: read rest
  | '+' :: rest => 32 :: read rest
  | c :: rest => .ofNat c.toNat :: read rest
  | [] => []

/-- What holds of every number of a byte holds of every byte. -/
theorem forall_byte {p : UInt8 → Prop} (each : ∀ n : Fin 256, p (.ofNat n.val)) (b : UInt8) :
    p b := by
  have found := each ⟨b.toNat, b.toNat_lt⟩
  rwa [UInt8.ofNat_toNat] at found

theorem read_unchanged {b : UInt8} (h : isUnchanged b = true) (rest : List Char) :
    read (Char.ofNat b.toNat :: rest) = b :: read rest := by
  have plain : ∀ b : UInt8, isUnchanged b = true →
      Char.ofNat b.toNat ≠ '%' ∧ Char.ofNat b.toNat ≠ '+' ∧
        UInt8.ofNat (Char.ofNat b.toNat).toNat = b := forall_byte (by decide +kernel)
  obtain ⟨percent, plus, value⟩ := plain b h
  rw [read, value]
  · intro high low tail same
    exact absurd same percent
  · exact plus

theorem read_digits (b : UInt8) (rest : List Char) :
    read ('%' :: hexDigit (b.toNat / 16) :: hexDigit (b.toNat % 16) :: rest) = b :: read rest := by
  have value : ∀ b : UInt8, UInt8.ofNat (16 * digitValue (hexDigit (b.toNat / 16))
      + digitValue (hexDigit (b.toNat % 16))) = b := forall_byte (by decide +kernel)
  rw [read, value]

theorem read_encodeByte (b : UInt8) (rest : List Char) :
    read (encodeByte b ++ rest) = b :: read rest := by
  rw [encodeByte]
  split
  · rename_i unchanged
    exact read_unchanged unchanged rest
  · split
    · rename_i blank
      rw [beq_iff_eq.mp blank]
      rfl
    · exact read_digits b rest

theorem read_flatMap (bytes : List UInt8) : read (bytes.flatMap encodeByte) = bytes := by
  induction bytes with
  | nil => rfl
  | cons b bytes ih => rw [List.flatMap_cons, read_encodeByte, ih]

theorem read_encode (s : String) : read (encode s).toList = Utf8.encode s := by
  rw [encode, String.toList_ofList, read_flatMap]
  rfl

theorem encode_inj {s t : String} : encode s = encode t ↔ s = t := by
  constructor
  · intro same
    rw [← Utf8.encode_inj, ← read_encode s, same, read_encode]
  · rintro rfl
    rfl

/-- The characters that divide the parts of an address. -/
def dividers : List Char := ['=', '#', '&', '?']

theorem not_mem_encode {c : Char} (divides : c ∈ dividers) (s : String) :
    c ∉ (encode s).toList := by
  have free : ∀ b : UInt8, (encodeByte b).all (!dividers.contains ·) = true :=
    forall_byte (by decide +kernel)
  intro member
  rw [encode, String.toList_ofList] at member
  obtain ⟨b, -, inside⟩ := List.mem_flatMap.mp member
  have other := List.all_eq_true.mp (free b) c inside
  simp [divides] at other

end IndexFeed.FormEncoded
