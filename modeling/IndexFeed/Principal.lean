/-!
Users and groups that may be granted or denied access to a document.
-/

namespace IndexFeed

/-- Whether a name is to be completed before it is looked up. -/
inductive PrincipalForm where
  | unknown
  | unqualified
  deriving Repr, DecidableEq

def PrincipalForm.wire : PrincipalForm → String
  | unknown => "unknown"
  | unqualified => "unqualified"

/-- Whether the case of a name matters. -/
inductive CaseSensitivity where
  | sensitive
  | insensitive
  deriving Repr, DecidableEq

def CaseSensitivity.wire : CaseSensitivity → String
  | sensitive => "everything-case-sensitive"
  | insensitive => "everything-case-insensitive"

structure Principal where
  name : String
  «namespace» : String := ""
  type : PrincipalForm := .unknown
  caseSensitivity : CaseSensitivity := .sensitive
  deriving Repr, DecidableEq

end IndexFeed
