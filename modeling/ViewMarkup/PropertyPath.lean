import ViewMarkup.Failure
import ViewMarkup.Text.Identifier

/-!
# Property paths

A path such as `layer.cornerRadius` leads from an object through its attributes. Its segments are
identifiers, and there is at least one.
-/

namespace ViewMarkup

open Text

/-- The segments of a path, refused unless all are identifiers. -/
def pathSegments (path : String) : Except BindingFault (List String) :=
  let segments := splitOn '.' path
  if segments.all isIdentifier then .ok segments else .error (.invalidPath path)

end ViewMarkup
