/-!
# Events of a document

Reading a document gives a list of events in document order: where elements start and end, which
prefixes are declared, instructions, and the text between them. Names are expanded: they carry the
namespace that their prefix, or the default namespace, stands for.
-/

namespace ViewMarkup.Xml

/-- A name with its namespace, if it is in one. -/
structure ExpandedName where
  space : Option String
  tail : String
deriving DecidableEq, Repr

/-- One event. -/
inductive Event where
  | declares (pre space : String)
  | starts (name : ExpandedName) (attributes : List (ExpandedName × String))
  | ends
  | instructs (target data : String)
  | characters (text : String)
deriving DecidableEq, Repr

end ViewMarkup.Xml
