import IndexFeed.Json.Token
import IndexFeed.Text.Utf8

/-!
Reading JSON from its tokens. The reader keeps the containers that are still open, the innermost one
first, and what may come next. Containers nest only so deep.
-/

namespace IndexFeed.Json

def maxDepth : Nat := 127

/-- A container that is still open, with what it holds so far, the last first. An object also has
the name of the member that is being read. -/
inductive Frame where
  | list (items : List Json)
  | object (members : List (String × Json)) (name : String)

def Frame.value : Frame → Json
  | list items => .list items.reverse
  | object members _ => .object members.reverse

inductive Expected where
  | value
  /-- A value, or the end of the list that was just opened. -/
  | firstItem
  /-- A name, or the end of the object that was just opened. -/
  | firstName
  | name
  | colon
  /-- A comma, or the end of the innermost container. -/
  | next
  | nothing (read : Json)

structure Place where
  frames : List Frame := []
  expected : Expected := .value

namespace Place

def deliver (p : Place) (j : Json) : Place :=
  match p.frames with
  | [] => ⟨[], .nothing j⟩
  | .list items :: outer => ⟨.list (j :: items) :: outer, .next⟩
  | .object members name :: outer => ⟨.object ((name, j) :: members) name :: outer, .next⟩

def close (p : Place) : Option Place :=
  match p.frames with
  | [] => none
  | frame :: outer => some (deliver ⟨outer, p.expected⟩ frame.value)

def enter (p : Place) (frame : Frame) (expected : Expected) : Option Place :=
  if p.frames.length < maxDepth then some ⟨frame :: p.frames, expected⟩ else none

def begin? (p : Place) : Token → Option Place
  | .text s => some (p.deliver (.text s))
  | .word j => some (p.deliver j)
  | .openList => p.enter (.list []) .firstItem
  | .openObject => p.enter (.object [] "") .firstName
  | .closeList | .closeObject | .comma | .colon => none

def named? (p : Place) : Token → Option Place
  | .text s =>
    match p.frames with
    | .object members _ :: outer => some ⟨.object members s :: outer, .colon⟩
    | _ => none
  | _ => none

def continue? (p : Place) (t : Token) : Option Place :=
  match p.frames, t with
  | .list _ :: _, .comma => some { p with expected := .value }
  | .list _ :: _, .closeList => p.close
  | .object _ _ :: _, .comma => some { p with expected := .name }
  | .object _ _ :: _, .closeObject => p.close
  | _, _ => none

def step (p : Place) (t : Token) : Option Place :=
  match p.expected, t with
  | .value, t => p.begin? t
  | .firstItem, .closeList => p.close
  | .firstItem, t => p.begin? t
  | .firstName, .closeObject => p.close
  | .firstName, t => p.named? t
  | .name, t => p.named? t
  | .colon, .colon => some { p with expected := .value }
  | .next, t => p.continue? t
  | _, _ => none

end Place

def ofTokens? (tokens : List Token) : Option Json :=
  match tokens.foldlM Place.step {} with
  | some ⟨_, .nothing j⟩ => some j
  | _ => none

/-- Reads one value, around which only spaces may stand. -/
def read? (bytes : List UInt8) : Option Json := do
  let text ← Utf8.decode? bytes
  let tokens ← tokens? text.toList
  ofTokens? tokens

end IndexFeed.Json
