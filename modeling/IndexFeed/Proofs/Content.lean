import IndexFeed.Content
import IndexFeed.Proofs.Codec.Base64
import IndexFeed.Proofs.Codec.LineWrap
import IndexFeed.Proofs.Codec.Zlib
import IndexFeed.Proofs.Stream

/-!
What the payload of a record holds. Whatever encoders are used, as long as they implement the
formats they are named for, a payload stands for the content up to its limit, or for what stands in
for missing content; and it is laid out in lines exactly if it comes from content that is to be
wrapped.
-/

namespace IndexFeed

/-- Encoders that put out the formats they are named for, whatever pieces they are given. -/
structure ContentCodec.Lawful (c : ContentCodec) : Prop where
  base64 : ∀ pieces, (c.base64 pieces true).flatten = Base64.standardForm pieces.flatten
  zlib : ∀ pieces, Zlib.decode? (c.zlib pieces true).flatten = some pieces.flatten

theorem ContentCodec.standard_lawful : standard.Lawful :=
  ⟨Base64.flatten_encode_encoder, Zlib.decode?_encode_encoder⟩

/-- What a payload without line feeds stands for in an encoding. -/
def ContentEncoding.Represents (payload content : List UInt8) : ContentEncoding → Prop
  | base64Binary => payload = Base64.standardForm content
  | base64Compressed =>
    ∃ stream, payload = Base64.standardForm stream ∧ Zlib.decode? stream = some content

namespace ContentEncoding

theorem Represents.ne_nil {e : ContentEncoding} {payload content : List UInt8}
    (h : e.Represents payload content) (some_byte : content ≠ []) : payload ≠ [] := by
  cases e with
  | base64Binary =>
      rw [h]
      exact Base64.standardForm_ne_nil some_byte
  | base64Compressed =>
      obtain ⟨stream, rfl, decoded⟩ := h
      apply Base64.standardForm_ne_nil
      intro nil
      rw [nil] at decoded
      cases decoded

theorem Represents.mem {e : ContentEncoding} {payload content : List UInt8}
    (h : e.Represents payload content) {b : UInt8} (member : b ∈ payload) :
    b ∈ Base64.alphabet ∨ b = Base64.padding := by
  cases e with
  | base64Binary =>
      rw [h] at member
      exact Base64.mem_standardForm member
  | base64Compressed =>
      obtain ⟨stream, rfl, -⟩ := h
      exact Base64.mem_standardForm member

theorem Represents.no_feed {e : ContentEncoding} {payload content : List UInt8}
    (h : e.Represents payload content) : lineFeed ∉ payload := by
  intro feed
  have outside : ¬ (lineFeed ∈ Base64.alphabet ∨ lineFeed = Base64.padding) := by decide
  exact outside (h.mem feed)

theorem Represents.filter {e : ContentEncoding} {payload content : List UInt8}
    (h : e.Represents payload content) : payload.filter (· != lineFeed) = payload := by
  apply List.filter_eq_self.mpr
  intro b member
  apply bne_iff_ne.mpr
  rintro rfl
  exact h.no_feed member

/-- Breaking a payload into lines changes nothing but the line feeds. -/
theorem Represents.laidOut {e : ContentEncoding} {payload content : List UInt8}
    (h : e.Represents payload content) (some_byte : payload ≠ []) (wraps : Bool) :
    let out := if wraps then wrapped contentLineLength payload else payload
    out ≠ [] ∧ out.filter (· != lineFeed) = payload ∧
      (if wraps then ∃ full last, InLines 76 out full last else lineFeed ∉ out) := by
  cases wraps with
  | false => exact ⟨some_byte, h.filter, h.no_feed⟩
  | true =>
      have pos : 0 < contentLineLength := by decide
      have filtered := filter_wrapped pos h.no_feed
      refine ⟨fun nil => some_byte ?_, filtered, wrapped_inLines pos some_byte h.no_feed⟩
      have nil : wrapped contentLineLength payload = [] := nil
      rw [← filtered, nil]
      rfl

end ContentEncoding

/-- Encoded content is broken into lines after it has been encoded as a whole. -/
theorem ContentCodec.Lawful.encode_eq {c : ContentCodec} (lawful : c.Lawful)
    (encoding : ContentEncoding) (pieces : List (List UInt8)) :
    ∃ payload, encoding.Represents payload pieces.flatten ∧
      ∀ wraps, c.encode encoding wraps pieces true
        = if wraps then wrapped contentLineLength payload else payload := by
  cases encoding with
  | base64Binary =>
      refine ⟨_, rfl, ?_⟩
      intro wraps
      simp only [encode, LineWriter.writeAll_eq_wrapped, lawful.base64]
  | base64Compressed =>
      refine ⟨_, ⟨_, rfl, lawful.zlib pieces⟩, ?_⟩
      intro wraps
      simp only [encode, LineWriter.writeAll_eq_wrapped, lawful.base64]

theorem ContentCodec.Lawful.mem_encode {c : ContentCodec} (lawful : c.Lawful)
    {encoding : ContentEncoding} {wraps : Bool} {pieces : List (List UInt8)} {b : UInt8}
    (member : b ∈ c.encode encoding wraps pieces true) :
    b ∈ Base64.alphabet ∨ b = Base64.padding ∨ b = lineFeed := by
  obtain ⟨payload, represents, encoded⟩ := lawful.encode_eq encoding pieces
  by_cases feed : b = lineFeed
  · exact .inr (.inr feed)
  · have inPayload : b ∈ payload := by
      rw [encoded] at member
      cases wraps with
      | false => exact member
      | true =>
          have pos : 0 < contentLineLength := by decide
          rw [← filter_wrapped pos represents.no_feed]
          exact List.mem_filter.mpr ⟨member, bne_iff_ne.mpr feed⟩
    obtain digit | padding := represents.mem inPayload
    · exact .inl digit
    · exact .inr (.inl padding)

theorem Utf8.encode_ne_nil {s : String} (h : s ≠ "") : Utf8.encode s ≠ [] := by
  intro nil
  have size : s.utf8ByteSize = 0 := congrArg List.length nil
  exact h (String.utf8ByteSize_eq_zero_iff.mp size)

theorem substitutePayload_ne_nil (title mimetype : Option String) :
    substitutePayload title mimetype ≠ [] := by
  simp only [substitutePayload]
  split
  · exact Utf8.encode_ne_nil (s := " ") (by decide)
  · rename_i titled
    split
    · apply Utf8.encode_ne_nil
      intro empty
      simp at empty
    · exact Utf8.encode_ne_nil titled

namespace ContentPolicy

variable {p : ContentPolicy} {plan : ContentPlan} {s : Source}

theorem writeWith_of_empty (c : ContentCodec) (empty : s.delivered = [])
    (complete : s.failure = none) (positive : 0 < p.maxDocumentSize) (substitute : List UInt8) :
    p.writeWith c plan (some s) substitute
      = (c.encode plan.encoding false [substitute] true, .ok { substituted := true }) := by
  have pieces := (s.take_eq_nil_iff contentRequestSize positive).mpr empty
  have failure := Source.take_complete complete contentRequestSize p.maxDocumentSize
  have taken : s.take contentRequestSize p.maxDocumentSize = ([], none) := Prod.ext pieces failure
  rw [writeWith, taken]

theorem writeWith_of_content (c : ContentCodec) (some_byte : s.delivered ≠ [])
    (complete : s.failure = none) (positive : 0 < p.maxDocumentSize)
    (encodes : plan.alreadyEncoded = false) (substitute : List UInt8) :
    ∃ pieces, pieces.flatten = s.delivered.take p.maxDocumentSize ∧
      p.writeWith c plan (some s) substitute
        = (c.encode plan.encoding p.wrapsLines pieces true,
          .ok { bytesRead := pieces.flatten.length
                cutOff := pieces.flatten.length == p.maxDocumentSize }) := by
  have flat := s.take_flatten contentRequestSize p.maxDocumentSize
  have pieces := (not_congr (s.take_eq_nil_iff contentRequestSize positive)).mpr some_byte
  have failure := Source.take_complete complete contentRequestSize p.maxDocumentSize
  cases taken : s.take contentRequestSize p.maxDocumentSize with
  | mk read failed =>
      rw [taken] at flat pieces failure
      cases failure
      obtain ⟨first, rest, rfl⟩ := List.exists_cons_of_ne_nil pieces
      refine ⟨first :: rest, flat, ?_⟩
      simp only [writeWith, taken, encodes]
      rfl

/-- What is read of content: its first bytes, as many as may be. -/
def firstBytes (p : ContentPolicy) : Option Source → List UInt8
  | none => []
  | some s => s.delivered.take p.maxDocumentSize

/-- What is written for content that succeeds is what was read of it, if that was encoded before,
and is encoded otherwise. -/
theorem writeWith_ok {c : ContentCodec} {content : Option Source} {substitute out : List UInt8}
    {report : ContentReport}
    (h : p.writeWith c plan content substitute = (out, .ok report)) :
    (plan.alreadyEncoded = true ∧ report.substituted = false ∧ out = p.firstBytes content ∧
        out ≠ []) ∨
      (plan.alreadyEncoded = false ∨ p.firstBytes content = []) ∧
        ∃ wraps pieces, out = c.encode plan.encoding wraps pieces true := by
  unfold writeWith at h
  cases content with
  | none =>
      cases h
      exact .inr ⟨.inr rfl, _, _, rfl⟩
  | some source =>
      have flat := source.take_flatten contentRequestSize p.maxDocumentSize
      cases taken : source.take contentRequestSize p.maxDocumentSize with
      | mk pieces failure =>
          rw [taken] at flat
          simp only [taken] at h
          cases pieces with
          | nil =>
              cases failure with
              | none =>
                  cases h
                  exact .inr ⟨.inr flat.symm, _, _, rfl⟩
              | some failure => cases h
          | cons first rest =>
              cases failure with
              | some failure => cases h
              | none =>
                  cases encoded : plan.alreadyEncoded with
                  | true =>
                      simp only [encoded] at h
                      cases h
                      have some_byte : first ≠ [] := source.take_ne_nil (by rw [taken]; simp)
                      refine .inl ⟨rfl, rfl, flat, ?_⟩
                      simp [some_byte]
                  | false =>
                      simp only [encoded] at h
                      cases h
                      exact .inr ⟨.inl rfl, _, _, rfl⟩

/-- What is written of a source that does not fail. Freed of line feeds, it stands for the first
bytes delivered, or for the substitute if there are none; only what was delivered is broken into
lines. In base64 without compression it depends on nothing but the bytes delivered. -/
theorem writeWith_represents {c : ContentCodec} (lawful : c.Lawful) (p : ContentPolicy)
    (positive : 1 ≤ p.maxDocumentSize) (plan : ContentPlan)
    (encodes : plan.alreadyEncoded = false) (s : Source) (complete : s.failure = none)
    (title mimetype : Option String) :
    let substitute := substitutePayload title mimetype
    let content := if s.delivered = [] then substitute else s.delivered.take p.maxDocumentSize
    ∃ out report, p.writeWith c plan (some s) substitute = (out, .ok report) ∧ out ≠ [] ∧
      plan.encoding.Represents (out.filter (· != lineFeed)) content ∧
      (if p.wrapsLines ∧ s.delivered ≠ [] then ∃ full last, InLines 76 out full last
        else lineFeed ∉ out) ∧
      (plan.encoding = .base64Binary → ∀ s' : Source, s'.failure = none →
        s'.delivered = s.delivered →
        p.writeWith c plan (some s') substitute = (out, .ok report)) := by
  intro substitute content
  by_cases empty : s.delivered = []
  · obtain ⟨payload, represents, written⟩ := lawful.encode_eq plan.encoding [substitute]
    have unwrapped : c.encode plan.encoding false [substitute] true = payload := written false
    have standsFor : plan.encoding.Represents payload content := by
      simpa [content, empty] using represents
    refine ⟨payload, { substituted := true }, ?_, ?_, ?_, ?_, ?_⟩
    · rw [writeWith_of_empty c empty complete positive, unwrapped]
    · exact represents.ne_nil (by simpa using substitutePayload_ne_nil title mimetype)
    · rwa [represents.filter]
    · rw [if_neg (by simp [empty])]
      exact represents.no_feed
    · intro _ s' complete' same
      rw [writeWith_of_empty c (same.trans empty) complete' positive, unwrapped]
  · obtain ⟨pieces, flat, written⟩ :=
      writeWith_of_content c empty complete positive encodes substitute
    obtain ⟨payload, represents, encoded⟩ := lawful.encode_eq plan.encoding pieces
    have standsFor : plan.encoding.Represents payload content := by
      simpa [content, empty, flat] using represents
    have some_byte : payload ≠ [] := standsFor.ne_nil (by
      have : p.maxDocumentSize ≠ 0 := by omega
      simp [content, empty, this])
    obtain ⟨out_some, filtered, layout⟩ := standsFor.laidOut some_byte p.wrapsLines
    rw [encoded] at written
    refine ⟨_, _, written, out_some, ?_, ?_, ?_⟩
    · rwa [filtered]
    · simpa [empty] using layout
    · intro binary s' complete' same
      obtain ⟨pieces', flat', written'⟩ :=
        writeWith_of_content c (same ▸ empty) complete' positive encodes substitute
      obtain ⟨payload', represents', encoded'⟩ := lawful.encode_eq plan.encoding pieces'
      have pieces_eq : pieces'.flatten = pieces.flatten := by rw [flat', flat, same]
      rw [binary] at represents represents'
      have payload_eq : payload' = payload := by rw [represents, represents', pieces_eq]
      rw [written', encoded', payload_eq, pieces_eq]

/-- Content that arrives in two pieces, with an interruption in front of each and between them. -/
theorem writeWith_represents_interrupted :
    let p : ContentPolicy := ⟨"base64binary", true, 5, .standard⟩
    let s : Source :=
      ⟨[.interruption, .bytes 77 [97], .interruption, .interruption, .bytes 110 []], none⟩
    ContentCodec.standard.Lawful ∧ 1 ≤ p.maxDocumentSize ∧ s.failure = none ∧
      ∃ out report,
        p.writeWith .standard ⟨.base64Binary, false⟩ (some s) (substitutePayload none none)
          = (out, .ok report) ∧
        out.filter (· != lineFeed) = [84, 87, 70, 117] := by
  intro p s
  obtain ⟨out, report, written, -, represents, -, -⟩ :=
    writeWith_represents ContentCodec.standard_lawful p (by decide) ⟨.base64Binary, false⟩ rfl s rfl
      none none
  refine ⟨ContentCodec.standard_lawful, by decide, rfl, out, report, written, ?_⟩
  rw [represents]
  decide +kernel

end ContentPolicy

end IndexFeed
