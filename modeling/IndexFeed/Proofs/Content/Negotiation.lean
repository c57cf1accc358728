import IndexFeed.Content
import IndexFeed.Proofs.Protocol
import IndexFeed.Proofs.Text.Normalize
import IndexFeed.Proofs.Text.Search

/-!
Agreeing on an encoding. What the index accepts is a list of tokens held together by commas, but it
is searched as a text: an encoding counts as accepted if its name is a part of some token, even
where no token is that name. The default and the plans for declared encodings agree with each other
in this, and with the list itself as long as no token has a name in it that is not the whole token.
-/

namespace IndexFeed

namespace ContentEncoding

theorem find?_eq_some_iff {tag : String} {e : ContentEncoding} :
    find? tag = some e ↔ Text.asciiLower (Text.trim tag) = e.wire := by
  have listed (e : ContentEncoding) : e ∈ [base64Binary, base64Compressed] := by cases e <;> simp
  have lower : ∀ e ∈ [base64Binary, base64Compressed], Text.asciiLower e.wire = e.wire := by decide
  have distinct : ∀ e e' : ContentEncoding, e'.wire = e.wire → e' = e := by
    intro e e' same
    cases e <;> cases e' <;> first | rfl | exact absurd same (by decide)
  exact lookUp_eq_some_iff (listed e) lower fun e' _ => distinct e e'

theorem ascii_wire (e : ContentEncoding) : ∀ c ∈ e.wire.toList, c.toNat < 128 := by
  have checked : e.wire.toList.all (fun c => decide (c.toNat < 128)) = true := by
    cases e <;> decide
  intro c member
  exact of_decide_eq_true (List.all_eq_true.mp checked c member)

theorem comma_not_mem_wire (e : ContentEncoding) : ',' ∉ e.wire.toList := by
  cases e <;> decide

theorem wire_ne_empty (e : ContentEncoding) : e.wire ≠ "" := by
  cases e <;> decide

end ContentEncoding

namespace ContentPolicy

/-- Whether a word is a part of some token, or all of it, if case does not matter. -/
def Mentions (tokens : List String) (word : String) : Prop :=
  ∃ token ∈ tokens, Text.contains (Text.lowercase token) word = true

theorem mentions_of_mem {tokens : List String} {word : String}
    (listed : word ∈ tokens.map Text.lowercase) : Mentions tokens word := by
  obtain ⟨token, member, rfl⟩ := List.mem_map.mp listed
  exact ⟨token, member, Text.contains_iff.mpr (List.infix_refl _)⟩

theorem contains_intercalate (tokens : List String) {word : String} (free : ',' ∉ word.toList)
    (some_char : word ≠ "") :
    Text.contains (Text.lowercase (",".intercalate tokens)) word = true ↔ Mentions tokens word := by
  have some_char : word.toList ≠ [] := by simpa using some_char
  rw [Text.lowercase_intercalate, Text.contains_iff, String.toList_intercalate]
  refine (Text.infix_intercalate free some_char _).trans ?_
  simp [Mentions, Text.contains_iff]

theorem preferred_iff (tokens : List String) (wraps : Bool) (limit : Nat) :
    (ofAccepted (",".intercalate tokens) wraps limit).preferred = .base64Compressed ↔
      Mentions tokens ContentEncoding.base64Compressed.wire := by
  rw [← contains_intercalate tokens (ContentEncoding.comma_not_mem_wire _)
    (ContentEncoding.wire_ne_empty _), preferred, ofAccepted]
  split
  · simp [*]
  · simp [*]

theorem accepts_iff {p : ContentPolicy} {declared : String} :
    p.accepts declared = true ↔ Text.lowercase (Text.trim declared) ≠ "" ∧
      Text.contains p.accepted (Text.lowercase (Text.trim declared)) = true := by
  rw [accepts, Bool.and_eq_true, bne_iff_ne]

/-- An encoding that is looked up is accepted if its name on the wire is found. -/
theorem accepts_of_find? (p : ContentPolicy) {declared : String} {e : ContentEncoding}
    (known : ContentEncoding.find? declared = some e) :
    p.accepts declared = Text.contains p.accepted e.wire := by
  have name : Text.lowercase (Text.trim declared) = e.wire :=
    Text.lowercase_eq_of_asciiLower e.ascii_wire (ContentEncoding.find?_eq_some_iff.mp known)
  rw [accepts, name, bne_iff_ne.mpr e.wire_ne_empty, Bool.true_and]

theorem planFor_some (p : ContentPolicy) {declared : String} (named : Text.trim declared ≠ "") :
    p.planFor (some declared) = match ContentEncoding.find? declared with
      | some e => if Text.contains p.accepted e.wire then .ok ⟨e, true⟩
          else .error (.unsupportedEncoding (Text.trim declared))
      | none => .error (.unsupportedEncoding (Text.trim declared)) := by
  have same : ContentEncoding.find? (Text.trim declared) = ContentEncoding.find? declared := by
    rw [ContentEncoding.find?, ContentEncoding.find?, lookUp, lookUp, Text.trim_trim]
  have kept : ((some declared).map Text.trim).filter (· != "") = some (Text.trim declared) := by
    simp [Option.filter_some, named]
  rw [planFor, kept]
  simp only [same]
  cases known : ContentEncoding.find? declared with
  | none => rfl
  | some e => simp only [p.accepts_of_find? (same.trans known)]

theorem planFor_eq_ok_iff {p : ContentPolicy} {declared : String} {plan : ContentPlan}
    (named : Text.trim declared ≠ "") :
    p.planFor (some declared) = .ok plan ↔
      plan.alreadyEncoded = true ∧ ContentEncoding.find? declared = some plan.encoding ∧
        Text.contains p.accepted plan.encoding.wire = true := by
  rw [p.planFor_some named]
  constructor
  · intro planned
    split at planned
    · rename_i e known
      split at planned
      · rename_i accepted
        cases planned
        exact ⟨rfl, known, accepted⟩
      · cases planned
    · cases planned
  · rintro ⟨encoded, known, accepted⟩
    rw [known]
    simp only [accepted, if_true, ← encoded]

theorem planFor_eq_error_iff {p : ContentPolicy} {declared : String} {error : FeedError}
    (named : Text.trim declared ≠ "") :
    p.planFor (some declared) = .error error ↔
      error = .unsupportedEncoding (Text.trim declared) ∧
        ∀ e, ContentEncoding.find? declared = some e → Text.contains p.accepted e.wire ≠ true := by
  rw [p.planFor_some named]
  cases ContentEncoding.find? declared with
  | none =>
      rw [Except.error.injEq, eq_comm]
      simp
  | some e =>
      by_cases accepted : Text.contains p.accepted e.wire = true
      · simp [accepted]
      · simp only [accepted]
        rw [if_neg Bool.false_ne_true, Except.error.injEq, eq_comm]
        simp [accepted]

/-- What is agreed on if the index accepts some tokens. A token that has a name in it will do; so
the default and the declared encodings are those listed if no token has more in it than a name. -/
theorem ofAccepted_negotiates (tokens : List String) (wraps : Bool) (limit : Nat) :
    let p := ContentPolicy.ofAccepted (",".intercalate tokens) wraps limit
    let names := tokens.map Text.lowercase
    (p.preferred = .base64Compressed ↔ Mentions tokens ContentEncoding.base64Compressed.wire) ∧
    (∀ declared,
      let name := Text.lowercase (Text.trim declared)
      (p.accepts declared = true ↔ name ≠ "" ∧ Text.contains (",".intercalate names) name = true) ∧
      (',' ∉ name.toList → (p.accepts declared = true ↔ name ≠ "" ∧ Mentions tokens name))) ∧
    (∀ declared, Text.trim declared ≠ "" →
      (∀ plan, p.planFor (some declared) = .ok plan ↔
        plan.alreadyEncoded = true ∧ Text.asciiLower (Text.trim declared) = plan.encoding.wire ∧
          Mentions tokens plan.encoding.wire) ∧
      (∀ error, p.planFor (some declared) = .error error ↔
        error = .unsupportedEncoding (Text.trim declared) ∧
          ∀ e : ContentEncoding, Text.asciiLower (Text.trim declared) = e.wire →
            ¬ Mentions tokens e.wire)) ∧
    (∀ word, (∀ name ∈ names, Text.contains name word = true → name = word) →
      (Mentions tokens word ↔ word ∈ names)) := by
  intro p names
  refine ⟨preferred_iff tokens wraps limit, ?_, ?_, ?_⟩
  · intro declared name
    have found : p.accepts declared = true ↔
        name ≠ "" ∧ Text.contains (Text.lowercase (",".intercalate tokens)) name = true :=
      accepts_iff
    refine ⟨?_, ?_⟩
    · rw [found, Text.lowercase_intercalate]
    · intro free
      rw [found]
      exact and_congr_right fun some_char => contains_intercalate tokens free some_char
  · intro declared named
    have mentioned (e : ContentEncoding) :
        Text.contains p.accepted e.wire = true ↔ Mentions tokens e.wire :=
      contains_intercalate tokens e.comma_not_mem_wire e.wire_ne_empty
    refine ⟨?_, ?_⟩
    · intro plan
      rw [planFor_eq_ok_iff named, ContentEncoding.find?_eq_some_iff, mentioned]
    · intro error
      simp only [planFor_eq_error_iff named, ContentEncoding.find?_eq_some_iff, ne_eq, mentioned]
  · intro word whole
    refine ⟨?_, mentions_of_mem⟩
    rintro ⟨token, member, mentioned⟩
    have listed : Text.lowercase token ∈ names := List.mem_map_of_mem member
    rwa [← whole _ listed mentioned]

theorem ofAccepted_negotiates_both :
    let tokens := ["Base64Binary", "BASE64compressed"]
    let p := ofAccepted (",".intercalate tokens) true 10
    Text.trim " base64BINARY " ≠ "" ∧ p.preferred = .base64Compressed ∧
      p.planFor (some " base64BINARY ") = .ok ⟨.base64Binary, true⟩ ∧
      p.planFor (some "base64") = .error (.unsupportedEncoding "base64") := by
  intro tokens p
  obtain ⟨default, -, plans, whole⟩ := ofAccepted_negotiates tokens true 10
  have trimmed : Text.trim " base64BINARY " = "base64BINARY" := by decide +kernel
  have trimmed' : Text.trim "base64" = "base64" := by decide +kernel
  have compressed := (whole "base64compressed" (by decide +kernel)).mpr (by decide +kernel)
  have binary := (whole "base64binary" (by decide +kernel)).mpr (by decide +kernel)
  have unknown : ∀ e : ContentEncoding, Text.asciiLower (Text.trim "base64") ≠ e.wire := by
    rw [trimmed']
    rintro (_ | _) <;> decide +kernel
  refine ⟨by rw [trimmed]; decide, default.mpr compressed, ?_, ?_⟩
  · exact ((plans _ (by rw [trimmed]; decide)).1 _).mpr ⟨rfl, by decide +kernel, binary⟩
  · refine ((plans "base64" (by rw [trimmed']; decide)).2 _).mpr ⟨by rw [trimmed'], ?_⟩
    exact fun e same => absurd same (unknown e)

/-- A name that is listed nowhere is accepted as a part of a longer one. -/
theorem accepts_part_of_token :
    (ofAccepted (",".intercalate ["base64binary"]) true 10).accepts "base64" = true ∧
      Text.lowercase (Text.trim "base64") ∉ ["base64binary"].map Text.lowercase ∧
      (ofAccepted (",".intercalate ["base64compressed2"]) true 10).preferred = .base64Compressed ∧
      "base64compressed" ∉ ["base64compressed2"].map Text.lowercase := by
  decide +kernel

end ContentPolicy

end IndexFeed
