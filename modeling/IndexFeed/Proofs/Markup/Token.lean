import IndexFeed.Markup

/-!
Feed markup as tokens: a tag with its attributes, and the text behind it up to the next tag. The
reader splits at the characters that delimit markup and decodes the five entities. Since an escaped
value holds none of these characters, the tokens that were written are read.
-/

namespace IndexFeed.Markup

/-- A tag and the text behind it. The word of a tag is its name, in an end tag with the slash in
front. -/
structure Token where
  word : String
  attributes : List (String × String) := []
  isWhole : Bool := false
  text : String := "\n"
  deriving Repr, DecidableEq

def Token.markup (t : Token) : String :=
  "<" ++ t.word ++ String.join (t.attributes.map fun a => attr a.1 a.2)
    ++ (if t.isWhole then "/" else "") ++ ">" ++ escape t.text

def Token.allMarkup (tokens : List Token) : String :=
  String.join (tokens.map markup)

/-- A text with its entities decoded. An ampersand is only ever the beginning of one. -/
def unescape? : List Char → Option (List Char)
  | '&' :: 'a' :: 'm' :: 'p' :: ';' :: rest => (unescape? rest).map ('&' :: ·)
  | '&' :: 'l' :: 't' :: ';' :: rest => (unescape? rest).map ('<' :: ·)
  | '&' :: 'g' :: 't' :: ';' :: rest => (unescape? rest).map ('>' :: ·)
  | '&' :: 'q' :: 'u' :: 'o' :: 't' :: ';' :: rest => (unescape? rest).map ('"' :: ·)
  | '&' :: 'a' :: 'p' :: 'o' :: 's' :: ';' :: rest => (unescape? rest).map ('\'' :: ·)
  | '&' :: _ => none
  | c :: rest => (unescape? rest).map (c :: ·)
  | [] => some []

def value? (cs : List Char) : Option String :=
  (unescape? cs).map String.ofList

/-- The name in front of an attribute's value: a blank, the name and an equals sign. -/
def attributeName? : List Char → Option String
  | ' ' :: rest =>
    match rest.splitOn '=' with
    | [name, []] => some (String.ofList name)
    | _ => none
  | _ => none

/-- The attributes of a tag, which is split at its quotation marks, and whether a slash ends it. -/
def attributes? : List (List Char) → Option (List (String × String) × Bool)
  | [[]] => some ([], false)
  | [['/']] => some ([], true)
  | name :: value :: rest => do
    let name ← attributeName? name
    let value ← value? value
    let (more, isWhole) ← attributes? rest
    some ((name, value) :: more, isWhole)
  | _ => none

/-- The token of a tag without its brackets and the text behind it. -/
def token? (tag text : List Char) : Option Token := do
  let word := tag.takeWhile (· != ' ')
  let (attributes, isWhole) ← attributes? ((tag.dropWhile (· != ' ')).splitOn '"')
  let text ← value? text
  some ⟨String.ofList word, attributes, isWhole, text⟩

/-- The tokens of what stands between the opening brackets of a text. -/
def segments? : List (List Char) → Option (List Token)
  | [] => some []
  | segment :: rest =>
    match segment.splitOn '>' with
    | [tag, text] => do
      let t ← token? tag text
      let more ← segments? rest
      some (t :: more)
    | _ => none

/-- The tokens of a text, which begins with a tag unless it is empty. -/
def tokens? (s : String) : Option (List Token) :=
  match s.toList.splitOn '<' with
  | [] :: segments => segments? segments
  | _ => none

def delimiters : List Char := ['<', '>', '"']

theorem unescape?_escapeChar (c : Char) (rest : List Char) :
    unescape? (escapeChar c ++ rest) = (unescape? rest).map (c :: ·) := by
  by_cases amp : c = '&'
  · subst amp; rfl
  by_cases lt : c = '<'
  · subst lt; rfl
  by_cases gt : c = '>'
  · subst gt; rfl
  by_cases quot : c = '"'
  · subst quot; rfl
  by_cases apos : c = '\''
  · subst apos; rfl
  have itself : escapeChar c = [c] := by simp [escapeChar, amp, lt, gt, quot, apos]
  rw [itself, List.singleton_append, unescape?]
  all_goals simp_all

theorem unescape?_escape (s : String) : unescape? (escape s).toList = some s.toList := by
  have chars : ∀ cs : List Char, unescape? (cs.flatMap escapeChar) = some cs := by
    intro cs
    induction cs with
    | nil => rfl
    | cons c rest ih => rw [List.flatMap_cons, unescape?_escapeChar, ih, Option.map_some]
  rw [escape, String.toList_ofList, chars]

theorem value?_escape (s : String) : value? (escape s).toList = some s := by
  rw [value?, unescape?_escape, Option.map_some, String.ofList_toList]

theorem escapeChar_eq_self {c : Char} (h : c ∉ ['&', '<', '>', '"', '\'']) :
    escapeChar c = [c] := by
  simp only [List.mem_cons, List.not_mem_nil, or_false, not_or] at h
  simp [escapeChar, h]

theorem not_mem_escapeChar {c : Char} (h : c ∈ delimiters) (original : Char) :
    c ∉ escapeChar original := by
  let escaped := ['&', '<', '>', '"', '\'']
  by_cases special : original ∈ escaped
  · have entities : (escaped.all fun o => delimiters.all fun d => d ∉ escapeChar o) = true := by
      decide
    exact of_decide_eq_true
      (List.all_eq_true.mp (List.all_eq_true.mp entities original special) c h)
  · intro member
    have itself : escapeChar original = [original] := escapeChar_eq_self special
    have delimits : (delimiters.all fun d => d ∈ escaped) = true := by decide
    rw [itself, List.mem_singleton] at member
    apply special
    rw [← member]
    exact of_decide_eq_true (List.all_eq_true.mp delimits c h)

/-- No escaped text holds a character at which markup is split. -/
theorem not_mem_escape {c : Char} (h : c ∈ delimiters) (s : String) : c ∉ (escape s).toList := by
  rw [escape, String.toList_ofList, List.mem_flatMap]
  rintro ⟨original, -, member⟩
  exact not_mem_escapeChar h original member

/-- Names can be told from what stands around them. -/
def isName (s : String) : Bool :=
  s.toList.all fun c => c != ' ' && c != '=' && !delimiters.contains c

structure Token.IsPlain (t : Token) : Prop where
  word : isName t.word = true
  names : ∀ a ∈ t.attributes, isName a.1 = true
  whole : t.isWhole = true → t.attributes ≠ []

theorem isName_iff {s : String} :
    isName s = true ↔ ∀ c ∈ s.toList, c ≠ ' ' ∧ c ≠ '=' ∧ c ∉ delimiters := by
  simp [isName, and_assoc]

theorem splitOn_append {a : Char} {cs : List Char} (h : a ∉ cs) (more : List Char) :
    (cs ++ more).splitOn a = (more.splitOn a).modifyHead (cs ++ ·) := by
  induction cs with
  | nil =>
      obtain ⟨first, rest, split⟩ := List.exists_cons_of_ne_nil (List.splitOn_ne_nil a more)
      simp [split]
  | cons c cs ih =>
      rw [List.mem_cons, not_or] at h
      obtain ⟨first, rest, split⟩ := List.exists_cons_of_ne_nil (List.splitOn_ne_nil a more)
      rw [List.cons_append, List.splitOn_cons_eq_if_modifyHead, ih h.2, split,
        if_neg (by simp [Ne.symm h.1])]
      rfl

theorem toList_attr (name value : String) :
    (attr name value).toList
      = ' ' :: (name.toList ++ ['=']) ++ '"' :: ((escape value).toList ++ ['"']) := by
  simp [attr, String.toList_append]

theorem attributeName?_name {name : String} (h : isName name = true) :
    attributeName? (' ' :: (name.toList ++ ['='])) = some name := by
  have free : '=' ∉ name.toList := fun member => (isName_iff.mp h _ member).2.1 rfl
  simp only [attributeName?]
  rw [List.splitOn_append_cons_self_of_not_mem free, List.splitOn_nil]
  simp

theorem attributes?_attrs {attributes : List (String × String)}
    (h : ∀ a ∈ attributes, isName a.1 = true) (isWhole : Bool) :
    attributes? ((attributes.flatMap (fun a => (attr a.1 a.2).toList)
      ++ if isWhole then ['/'] else []).splitOn '"') = some (attributes, isWhole) := by
  induction attributes with
  | nil =>
      cases isWhole with
      | true => rfl
      | false => rfl
  | cons a rest ih =>
      have name := h a (by simp)
      have name_free : '"' ∉ ' ' :: (a.1.toList ++ ['=']) := by
        have free : '"' ∉ a.1.toList := fun member =>
          (isName_iff.mp name _ member).2.2 (by decide)
        simp [free]
      have value_free : '"' ∉ (escape a.2).toList := not_mem_escape (by decide) a.2
      have split (more : List Char) : ((attr a.1 a.2).toList ++ more).splitOn '"'
          = (' ' :: (a.1.toList ++ ['='])) :: (escape a.2).toList :: more.splitOn '"' := by
        have cut : (attr a.1 a.2).toList ++ more
            = ' ' :: (a.1.toList ++ ['=']) ++ '"' :: ((escape a.2).toList ++ '"' :: more) := by
          rw [toList_attr]
          simp
        rw [cut, List.splitOn_append_cons_self_of_not_mem name_free,
          List.splitOn_append_cons_self_of_not_mem value_free]
      rw [List.flatMap_cons, List.append_assoc, split, attributes?, attributeName?_name name,
        value?_escape, ih fun b member => h b (by simp [member])]
      rfl

def Token.tagChars (t : Token) : List Char :=
  t.word.toList ++ (t.attributes.flatMap (fun a => (attr a.1 a.2).toList)
    ++ if t.isWhole then ['/'] else [])

/-- What stands between the opening bracket of a token and that of the next one. -/
def Token.segment (t : Token) : List Char :=
  t.tagChars ++ '>' :: (escape t.text).toList

theorem toList_markup (t : Token) : t.markup.toList = '<' :: t.segment := by
  have whole : (if t.isWhole then "/" else "").toList = if t.isWhole then ['/'] else [] := by
    cases t.isWhole <;> rfl
  simp [Token.markup, Token.segment, Token.tagChars, String.toList_append, String.toList_join,
    whole, List.flatMap_map]

theorem token?_tagChars {t : Token} (h : t.IsPlain) :
    token? t.tagChars (escape t.text).toList = some t := by
  let more := t.attributes.flatMap (fun a => (attr a.1 a.2).toList)
    ++ if t.isWhole then ['/'] else []
  have blankless : ∀ c ∈ t.word.toList, (c != ' ') = true := fun c member =>
    bne_iff_ne.mpr (isName_iff.mp h.word c member).1
  -- What follows the word is nothing, or begins with the blank of the first attribute.
  have stops : more.takeWhile (· != ' ') = [] ∧ more.dropWhile (· != ' ') = more := by
    cases attributes : t.attributes with
    | nil =>
        have notWhole : t.isWhole = false := Bool.eq_false_iff.mpr fun isWhole =>
          h.whole isWhole attributes
        simp [more, attributes, notWhole]
    | cons a rest => simp [more, attributes, toList_attr]
  have word : t.tagChars.takeWhile (· != ' ') = t.word.toList := by
    rw [Token.tagChars, List.takeWhile_append_of_pos blankless, stops.1, List.append_nil]
  have behind : t.tagChars.dropWhile (· != ' ') = more := by
    rw [Token.tagChars, List.dropWhile_append_of_pos blankless, stops.2]
  rw [token?, word, behind, attributes?_attrs h.names, value?_escape]
  simp

/-- The brackets are none of the other characters around a name or a value. -/
theorem bracket_ne {c : Char} (h : c ∈ ['<', '>']) :
    c ∈ delimiters ∧ c ≠ ' ' ∧ c ≠ '=' ∧ c ≠ '"' ∧ c ≠ '/' := by
  simp only [List.mem_cons, List.not_mem_nil, or_false] at h
  obtain rfl | rfl := h
  · decide
  · decide

theorem not_mem_attr {name : String} (h : isName name = true) (value : String) {c : Char}
    (bracket : c ∈ ['<', '>']) : c ∉ (attr name value).toList := by
  obtain ⟨delimits, blank, equals, quote, -⟩ := bracket_ne bracket
  have named : c ∉ name.toList := fun member => (isName_iff.mp h c member).2.2 delimits
  simp [toList_attr, blank, equals, quote, named, not_mem_escape delimits]

theorem not_mem_tagChars {t : Token} (h : t.IsPlain) {c : Char} (bracket : c ∈ ['<', '>']) :
    c ∉ t.tagChars := by
  obtain ⟨delimits, -, -, -, slash⟩ := bracket_ne bracket
  have word : c ∉ t.word.toList := fun member => (isName_iff.mp h.word c member).2.2 delimits
  rw [Token.tagChars, List.mem_append, List.mem_append, List.mem_flatMap]
  rintro (inWord | ⟨a, member, inAttr⟩ | inEnd)
  · exact word inWord
  · exact not_mem_attr (h.names a member) a.2 bracket inAttr
  · split at inEnd
    · exact slash (List.mem_singleton.mp inEnd)
    · cases inEnd

theorem splitOn_allMarkup {tokens : List Token} (h : ∀ t ∈ tokens, t.IsPlain) :
    (Token.allMarkup tokens).toList.splitOn '<' = [] :: tokens.map Token.segment := by
  induction tokens with
  | nil => rfl
  | cons t rest ih =>
      have first : '<' ∉ t.segment := by
        have tag := not_mem_tagChars (h t (by simp)) (c := '<') (by decide)
        have text := not_mem_escape (c := '<') (by decide) t.text
        simp [Token.segment, tag, text]
      have chars : (Token.allMarkup (t :: rest)).toList
          = '<' :: (t.segment ++ (Token.allMarkup rest).toList) := by
        simp [Token.allMarkup, String.join_cons, String.toList_append, toList_markup]
      rw [chars, List.splitOn_cons_eq_if_modifyHead, if_pos (by decide), splitOn_append first,
        ih fun t member => h t (by simp [member])]
      simp

theorem segments?_segment {tokens : List Token} (h : ∀ t ∈ tokens, t.IsPlain) :
    segments? (tokens.map Token.segment) = some tokens := by
  induction tokens with
  | nil => rfl
  | cons t rest ih =>
      have plain := h t (by simp)
      have split : t.segment.splitOn '>' = [t.tagChars, (escape t.text).toList] := by
        rw [Token.segment,
          List.splitOn_append_cons_self_of_not_mem (not_mem_tagChars plain (by decide)),
          List.splitOn_eq_singleton (not_mem_escape (by decide) t.text)]
      rw [List.map_cons, segments?, split]
      simp only [token?_tagChars plain, ih fun t member => h t (by simp [member])]
      rfl

/-- The tokens that were written are read. -/
theorem tokens?_allMarkup {tokens : List Token} (h : ∀ t ∈ tokens, t.IsPlain) :
    tokens? (Token.allMarkup tokens) = some tokens := by
  rw [tokens?, splitOn_allMarkup h]
  exact segments?_segment h

end IndexFeed.Markup
