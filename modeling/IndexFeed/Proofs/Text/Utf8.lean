import IndexFeed.Text.Utf8

/-!
Taking the bytes of a text apart. Behind a known text, and in front of an ASCII character, the parts
of the bytes are the bytes of parts of the text.
-/

namespace IndexFeed.Utf8

theorem toByteArray_eq (s : String) : s.toByteArray = ⟨(encode s).toArray⟩ := by simp [encode]

theorem encode_inj {s t : String} : encode s = encode t ↔ s = t := by
  constructor
  · intro same
    rw [← String.toByteArray_inj, toByteArray_eq, toByteArray_eq, same]
  · rintro rfl
    rfl

theorem decode?_eq_some {bytes : List UInt8} {s : String} :
    decode? bytes = some s ↔ encode s = bytes := by
  constructor
  · intro decoded
    simp only [decode?, String.fromUTF8?] at decoded
    split at decoded
    · cases decoded
      simp [encode, String.fromUTF8]
    · cases decoded
  · rintro rfl
    exact decode?_encode s

theorem encode_ofList (cs : List Char) : encode (String.ofList cs) = cs.utf8Encode.data.toList := by
  simp [encode]

theorem encode_eq_flatMap (s : String) : encode s = s.toList.flatMap String.utf8EncodeChar := by
  have chars : s = String.ofList s.toList := String.ofList_toList.symm
  rw [chars, encode_ofList, List.utf8Encode]
  simp

theorem toUInt8_mem_encode {s : String} {c : Char} (ascii : String.utf8EncodeChar c = [c.toUInt8])
    (h : c ∈ s.toList) : c.toUInt8 ∈ encode s := by
  rw [encode_eq_flatMap]
  exact List.mem_flatMap.mpr ⟨c, h, by simp [ascii]⟩

theorem encode_empty : encode "" = [] := rfl

/-- What follows a text. -/
theorem encode_eq_encode_append {t s : String} {bytes : List UInt8}
    (h : encode t = encode s ++ bytes) : ∃ rest, t = s ++ rest ∧ encode rest = bytes := by
  have begins : s.toList.utf8Encode ++ ⟨bytes.toArray⟩ = t.toList.utf8Encode := by
    rw [String.utf8Encode_toList, String.utf8Encode_toList, toByteArray_eq, toByteArray_eq, h]
    ext1
    simp
  obtain ⟨more, chars⟩ := List.isPrefix_of_utf8Encode_append_eq_utf8Encode _ begins
  have whole : t = s ++ String.ofList more := by
    rw [← String.toList_inj, String.toList_append, String.toList_ofList, chars]
  refine ⟨String.ofList more, whole, ?_⟩
  rw [whole, encode_append] at h
  exact List.append_cancel_left h

/-- An ASCII character begins where its byte stands. -/
theorem encode_eq_append {t : String} {front back : List UInt8} {first : UInt8}
    (ascii : first &&& 128 = 0) (h : encode t = front ++ first :: back) :
    ∃ s rest, t = s ++ rest ∧ encode s = front ∧ encode rest = first :: back := by
  have bytes : t.toByteArray = ⟨(front ++ first :: back).toArray⟩ := by rw [toByteArray_eq, h]
  have within : (⟨front.length⟩ : String.Pos.Raw) < t.rawEndPos := by
    simp [String.Pos.Raw.lt_iff, ← String.size_toByteArray, bytes, ByteArray.size]
  have valid : String.Pos.Raw.IsValid t ⟨front.length⟩ := by
    apply String.Pos.Raw.isValid_iff_isUTF8FirstByte.mpr
    refine .inr ⟨within, .inl ?_⟩
    have byte : t.getUTF8Byte ⟨front.length⟩ within = first := by
      simp [String.getUTF8Byte, bytes, ByteArray.getElem_eq_getElem_data]
    rw [byte, ascii]
  obtain ⟨before, behind, begins, chars⟩ := valid.exists
  have front_eq : encode (String.ofList before) = front := by
    rw [encode_ofList, begins, bytes]
    simp
  have whole : t = String.ofList before ++ String.ofList behind := by
    rw [← chars, String.ofList_append]
  refine ⟨_, _, whole, front_eq, ?_⟩
  rw [whole, encode_append, front_eq] at h
  exact List.append_cancel_left h

end IndexFeed.Utf8
