import IndexFeed.Stream
import IndexFeed.Text.Quoted

/-!
What can go wrong while a document is read from its repository.
-/

namespace IndexFeed

inductive ValueForm where
  | boolean
  | integer
  | timestamp
  | stream
  deriving Repr, DecidableEq

def ValueForm.text : ValueForm → String
  | boolean => "boolean"
  | integer => "integer"
  | timestamp => "timestamp"
  | stream => "stream"

inductive RepositoryError where
  | access (message : String)
  | document (message : String)
  | invalidValue (expected : ValueForm) (actual : String)
  | input (failure : InputFailure)
  deriving Repr, DecidableEq

def RepositoryError.message : RepositoryError → String
  | access message => "repository access failed: " ++ message
  | document message => "repository document error: " ++ message
  | invalidValue expected actual =>
    "invalid value: expected " ++ expected.text ++ ", got " ++ Text.quoted actual
  | input failure => "I/O error: " ++ failure.message

abbrev Read (α : Type) := Except RepositoryError α

end IndexFeed
