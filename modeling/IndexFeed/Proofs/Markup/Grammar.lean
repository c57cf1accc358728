import IndexFeed.Proofs.Markup.Token
import IndexFeed.Text.Utf8

/-!
The grammar of feed elements over tokens, as data: attributes in the order in which they stand, the
principals of a list, the pairs of the metadata, and the payload. A reader that knows nothing but
the grammar gets back the data of whatever elements were written.
-/

namespace IndexFeed.Markup

structure PrincipalData where
  attributes : List (String × String)
  name : String
  deriving Repr, DecidableEq

structure AclData where
  attributes : List (String × String)
  principals : List PrincipalData
  deriving Repr, DecidableEq

structure MetadataData where
  attributes : List (String × String)
  pairs : List (String × String)
  deriving Repr, DecidableEq

structure ContentData where
  attributes : List (String × String)
  payload : String
  deriving Repr, DecidableEq

structure RecordData where
  attributes : List (String × String)
  acl : Option AclData
  metadata : Option MetadataData
  content : Option ContentData
  deriving Repr, DecidableEq

inductive ElementData where
  | acl (a : AclData)
  | record (r : RecordData)
  deriving Repr, DecidableEq

def endToken (name : String) : Token := { word := "/" ++ name }

def PrincipalData.tokens (p : PrincipalData) : List Token :=
  [{ word := "principal", attributes := p.attributes, text := p.name }, endToken "principal"]

def AclData.tokens (a : AclData) : List Token :=
  { word := "acl", attributes := a.attributes }
    :: (a.principals.flatMap PrincipalData.tokens ++ [endToken "acl"])

def pairToken (pair : String × String) : Token :=
  { word := "meta", attributes := [("name", pair.1), ("content", pair.2)], isWhole := true }

def MetadataData.tokens (m : MetadataData) : List Token :=
  { word := "metadata", attributes := m.attributes }
    :: (m.pairs.map pairToken ++ [endToken "metadata"])

def ContentData.tokens (c : ContentData) : List Token :=
  [{ word := "content", attributes := c.attributes, text := c.payload }, endToken "content"]

def RecordData.tokens (r : RecordData) : List Token :=
  { word := "record", attributes := r.attributes }
    :: ((r.acl.map AclData.tokens).getD [] ++ (r.metadata.map MetadataData.tokens).getD []
      ++ (r.content.map ContentData.tokens).getD [] ++ [endToken "record"])

def ElementData.tokens : ElementData → List Token
  | acl a => a.tokens
  | record r => r.tokens

def principals : List Token → List PrincipalData × List Token
  | ⟨"principal", attributes, false, name⟩ :: ⟨"/principal", [], false, "\n"⟩ :: rest =>
    let (more, rest) := principals rest
    (⟨attributes, name⟩ :: more, rest)
  | rest => ([], rest)

def pairs : List Token → List (String × String) × List Token
  | ⟨"meta", [("name", name), ("content", content)], true, "\n"⟩ :: rest =>
    let (more, rest) := pairs rest
    ((name, content) :: more, rest)
  | rest => ([], rest)

/-- The list in front, if there is one, and the tokens behind it. -/
def acl? : List Token → Option (AclData × List Token)
  | ⟨"acl", attributes, false, "\n"⟩ :: rest =>
    match principals rest with
    | (principals, ⟨"/acl", [], false, "\n"⟩ :: rest) => some (⟨attributes, principals⟩, rest)
    | _ => none
  | _ => none

def metadata? : List Token → Option (MetadataData × List Token)
  | ⟨"metadata", attributes, false, "\n"⟩ :: rest =>
    match pairs rest with
    | (pairs, ⟨"/metadata", [], false, "\n"⟩ :: rest) => some (⟨attributes, pairs⟩, rest)
    | _ => none
  | _ => none

def content? : List Token → Option (ContentData × List Token)
  | ⟨"content", attributes, false, payload⟩ :: ⟨"/content", [], false, "\n"⟩ :: rest =>
    some (⟨attributes, payload⟩, rest)
  | _ => none

/-- What a reader finds in front, which need not be there. -/
def optional {α : Type} (reader : List Token → Option (α × List Token)) (tokens : List Token) :
    Option α × List Token :=
  match reader tokens with
  | some (found, rest) => (some found, rest)
  | none => (none, tokens)

def record? : List Token → Option (RecordData × List Token)
  | ⟨"record", attributes, false, "\n"⟩ :: rest =>
    let (acl, rest) := optional acl? rest
    let (metadata, rest) := optional metadata? rest
    let (content, rest) := optional content? rest
    match rest with
    | ⟨"/record", [], false, "\n"⟩ :: rest => some (⟨attributes, acl, metadata, content⟩, rest)
    | _ => none
  | _ => none

def element? (tokens : List Token) : Option (ElementData × List Token) :=
  match acl? tokens with
  | some (a, rest) => some (.acl a, rest)
  | none => (record? tokens).map fun (r, rest) => (.record r, rest)

/-- Elements up to the end. Every element takes at least one token, so as many steps as there are
tokens suffice. -/
def elements? : Nat → List Token → Option (List ElementData)
  | _, [] => some []
  | 0, _ :: _ => none
  | steps + 1, t :: rest => do
    let (e, rest) ← element? (t :: rest)
    let more ← elements? steps rest
    some (e :: more)

def write (elements : List ElementData) : List UInt8 :=
  Utf8.encode (Token.allMarkup (elements.flatMap ElementData.tokens))

/-- The elements of a text in UTF-8. -/
def read? (bytes : List UInt8) : Option (List ElementData) := do
  let s ← Utf8.decode? bytes
  let tokens ← tokens? s
  elements? tokens.length tokens

theorem principals_tokens (ps : List PrincipalData) (rest : List Token) :
    principals (ps.flatMap PrincipalData.tokens ++ endToken "acl" :: rest)
      = (ps, endToken "acl" :: rest) := by
  induction ps with
  | nil => rfl
  | cons p ps ih =>
      have step : ∀ more, principals (p.tokens ++ more)
          = ((p :: (principals more).1), (principals more).2) := fun _ => rfl
      rw [List.flatMap_cons, List.append_assoc, step, ih]

theorem pairs_tokens (ps : List (String × String)) (rest : List Token) :
    pairs (ps.map pairToken ++ endToken "metadata" :: rest)
      = (ps, endToken "metadata" :: rest) := by
  induction ps with
  | nil => rfl
  | cons p ps ih =>
      have step : ∀ more, pairs (pairToken p :: more)
          = ((p :: (pairs more).1), (pairs more).2) := fun _ => rfl
      rw [List.map_cons, List.cons_append, step, ih]

theorem acl?_tokens (a : AclData) (rest : List Token) :
    acl? (a.tokens ++ rest) = some (a, rest) := by
  have step : ∀ more, acl? ({ word := "acl", attributes := a.attributes } :: more)
      = match principals more with
        | (principals, ⟨"/acl", [], false, "\n"⟩ :: rest) => some (⟨a.attributes, principals⟩, rest)
        | _ => none := fun _ => rfl
  rw [AclData.tokens, List.cons_append, step, List.append_assoc, List.singleton_append,
    principals_tokens]
  rfl

theorem metadata?_tokens (m : MetadataData) (rest : List Token) :
    metadata? (m.tokens ++ rest) = some (m, rest) := by
  have step : ∀ more, metadata? ({ word := "metadata", attributes := m.attributes } :: more)
      = match pairs more with
        | (pairs, ⟨"/metadata", [], false, "\n"⟩ :: rest) => some (⟨m.attributes, pairs⟩, rest)
        | _ => none := fun _ => rfl
  rw [MetadataData.tokens, List.cons_append, step, List.append_assoc, List.singleton_append,
    pairs_tokens]
  rfl

theorem content?_tokens (c : ContentData) (rest : List Token) :
    content? (c.tokens ++ rest) = some (c, rest) := rfl

theorem optional_tokens {α : Type} {reader : List Token → Option (α × List Token)}
    {tokens : α → List Token} (reads : ∀ a rest, reader (tokens a ++ rest) = some (a, rest))
    (a : Option α) {rest : List Token} (absent : reader rest = none) :
    optional reader ((a.map tokens).getD [] ++ rest) = (a, rest) := by
  cases a with
  | none => simp [optional, absent]
  | some a => simp [optional, reads]

theorem record?_tokens (r : RecordData) (rest : List Token) :
    record? (r.tokens ++ rest) = some (r, rest) := by
  obtain ⟨attributes, acl, metadata, content⟩ := r
  let contentOn := (content.map ContentData.tokens).getD [] ++ endToken "record" :: rest
  let metadataOn := (metadata.map MetadataData.tokens).getD [] ++ contentOn
  let aclOn := (acl.map AclData.tokens).getD [] ++ metadataOn
  have whole : RecordData.tokens ⟨attributes, acl, metadata, content⟩ ++ rest
      = { word := "record", attributes } :: aclOn := by
    simp [RecordData.tokens, aclOn, metadataOn, contentOn]
  -- A part that is absent is not taken for one of the parts behind it.
  have noAcl : acl? metadataOn = none := by cases metadata <;> cases content <;> rfl
  have noMetadata : metadata? contentOn = none := by cases content <;> rfl
  have noContent : content? (endToken "record" :: rest) = none := rfl
  rw [whole, record?, optional_tokens acl?_tokens acl noAcl]
  simp only [metadataOn, optional_tokens metadata?_tokens metadata noMetadata]
  simp only [contentOn, optional_tokens content?_tokens content noContent]
  rfl

theorem element?_tokens (e : ElementData) (rest : List Token) :
    element? (e.tokens ++ rest) = some (e, rest) := by
  cases e with
  | acl a => rw [element?, ElementData.tokens, acl?_tokens]
  | record r =>
      have noAcl : acl? (r.tokens ++ rest) = none := rfl
      rw [element?, ElementData.tokens, noAcl, record?_tokens]
      rfl

theorem elements?_tokens (elements : List ElementData) {steps : Nat}
    (enough : elements.length ≤ steps) :
    elements? steps (elements.flatMap ElementData.tokens) = some elements := by
  induction elements generalizing steps with
  | nil => cases steps <;> rfl
  | cons e more ih =>
      obtain ⟨steps, rfl⟩ := Nat.exists_eq_succ_of_ne_zero (Nat.ne_zero_of_lt enough)
      obtain ⟨t, rest, tokens⟩ : ∃ t rest, e.tokens = t :: rest := by
        cases e with
        | acl a => exact ⟨_, _, rfl⟩
        | record r => exact ⟨_, _, rfl⟩
      have read := element?_tokens e (more.flatMap ElementData.tokens)
      rw [tokens, List.cons_append] at read
      rw [List.flatMap_cons, tokens, List.cons_append, elements?, read]
      simp [ih (Nat.le_of_succ_le_succ enough)]

theorem length_le_tokens (elements : List ElementData) :
    elements.length ≤ (elements.flatMap ElementData.tokens).length := by
  induction elements with
  | nil => simp
  | cons e more ih =>
      have some_token : 0 < e.tokens.length := by cases e <;> exact Nat.succ_pos _
      simp only [List.flatMap_cons, List.length_append, List.length_cons]
      omega

/-- The reader gets back the elements that were written. -/
theorem read?_write (elements : List ElementData)
    (plain : ∀ t ∈ elements.flatMap ElementData.tokens, t.IsPlain) :
    read? (write elements) = some elements := by
  rw [read?, write, Utf8.decode?_encode, Option.bind_eq_bind, Option.bind_some,
    tokens?_allMarkup plain]
  exact elements?_tokens elements (length_le_tokens elements)

end IndexFeed.Markup
