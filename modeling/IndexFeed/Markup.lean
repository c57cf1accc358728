/-!
Text inside feed markup. The five characters that delimit markup are written as entities, so that no
value can end the attribute or element it stands in.
-/

namespace IndexFeed.Markup

/-- The entity of a character that delimits markup, or the character itself. -/
def escapeChar (c : Char) : List Char :=
  if c = '&' then ['&', 'a', 'm', 'p', ';']
  else if c = '<' then ['&', 'l', 't', ';']
  else if c = '>' then ['&', 'g', 't', ';']
  else if c = '"' then ['&', 'q', 'u', 'o', 't', ';']
  else if c = '\'' then ['&', 'a', 'p', 'o', 's', ';']
  else [c]

def escape (s : String) : String :=
  String.ofList (s.toList.flatMap escapeChar)

def attr (name value : String) : String :=
  " " ++ name ++ "=\"" ++ escape value ++ "\""

def optionalAttr (name : String) : Option String → String
  | some value => attr name value
  | none => ""

/-- The attributes of a tag in order, without those that are absent. -/
def attrs (attributes : List (String × Option String)) : String :=
  String.join (attributes.map fun a => optionalAttr a.1 a.2)

/-- The value of an attribute that is there only if something holds. -/
def flagValue (flag : Bool) : Option String :=
  if flag then some "true" else none

/-- An end tag, which ends its line. -/
def endTag (name : String) : String :=
  "</" ++ name ++ ">\n"

end IndexFeed.Markup
