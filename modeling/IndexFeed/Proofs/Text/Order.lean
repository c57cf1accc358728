import IndexFeed.Proofs.Text.Utf8
import Mathlib.Tactic.SplitIfs

/-!
The order of texts. Texts are compared character by character, and that is how their bytes in UTF-8
compare: the code of a lesser character does not begin that of a greater one, and has a lesser byte
where the two differ first.
-/

namespace IndexFeed.Utf8

/-- Bytes are compared at the first place where they differ. -/
theorem byte_cons_lt {a b : Nat} (least : a ≤ b) (byte : b < 256) {s t : List UInt8}
    (rest : a = b → s < t) : UInt8.ofNat a :: s < UInt8.ofNat b :: t := by
  rw [List.cons_lt_cons_iff, UInt8.lt_iff_toNat_lt,
    UInt8.toNat_ofNat_of_lt' (Nat.lt_of_le_of_lt least byte), UInt8.toNat_ofNat_of_lt' byte]
  obtain less | same := Nat.lt_or_eq_of_le least
  · exact .inl less
  · exact .inr ⟨congrArg _ same, rest same⟩

theorem encodeChar_append_lt {c d : Char} (below : c < d) (s t : List UInt8) :
    String.utf8EncodeChar c ++ s < String.utf8EncodeChar d ++ t := by
  have order : c.val.toNat < d.val.toNat := below
  have bound : d.val.toNat < 1114112 := by
    have valid := d.valid
    simp only [UInt32.isValidChar, Nat.isValidChar] at valid
    omega
  simp only [String.utf8EncodeChar]
  split_ifs
  all_goals simp only [List.cons_append, List.nil_append]
  -- With as many bytes each, all of them being the same would make the characters the same; with
  -- fewer bytes, already the first one is less.
  all_goals repeat' refine byte_cons_lt (by omega) (by omega) fun _ => ?_
  all_goals omega

theorem encodeChars_lt {cs ds : List Char} (below : cs < ds) :
    cs.flatMap String.utf8EncodeChar < ds.flatMap String.utf8EncodeChar := by
  induction List.lex_lt.mpr below with
  | @nil d ds =>
      obtain ⟨b, rest, code⟩ := List.exists_cons_of_ne_nil (String.utf8EncodeChar_ne_nil (c := d))
      rw [List.flatMap_cons, code]
      exact List.nil_lt_cons _ _
  | cons rest ih =>
      rw [List.flatMap_cons, List.flatMap_cons]
      exact List.append_left_lt (ih (List.lex_lt.mp rest))
  | rel first =>
      rw [List.flatMap_cons, List.flatMap_cons]
      exact encodeChar_append_lt first _ _

theorem encode_lt_encode {s t : String} (below : s < t) : encode s < encode t := by
  rw [encode_eq_flatMap, encode_eq_flatMap]
  exact encodeChars_lt (String.lt_iff.mp below)

/-- The order of texts is that of their bytes. -/
theorem encode_lt_encode_iff {s t : String} : encode s < encode t ↔ s < t := by
  refine ⟨fun below => ?_, encode_lt_encode⟩
  apply Decidable.byContradiction
  intro not_below
  obtain rfl | other := Decidable.em (s = t)
  · exact List.lt_irrefl _ below
  · have above : t < s := Decidable.byContradiction fun not_above =>
      other (String.le_antisymm (String.not_lt.mp not_above) (String.not_lt.mp not_below))
    exact List.lt_asymm below (encode_lt_encode above)

end IndexFeed.Utf8
