import ViewMarkup.Text.Identifier.Table

/-!
# Identifiers

Segments of property paths, outlet fields and names of constants are identifiers: a start
character followed by continuing ones. The ASCII part is decided without the tables.
-/

namespace ViewMarkup.Text

/-- Whether the character may start an identifier. -/
def isIdentifierStart (c : Char) : Bool :=
  if c.toNat < 0x80 then c.isAlpha || c == '_' else identifierStart.contains c

/-- Whether the character may continue an identifier. -/
def isIdentifierContinue (c : Char) : Bool :=
  if c.toNat < 0x80 then c.isAlphanum || c == '_' else identifierContinue.contains c

/-- Whether the text is one identifier. -/
def isIdentifier (s : String) : Bool :=
  match s.toList with
  | [] => false
  | c :: cs => isIdentifierStart c && cs.all isIdentifierContinue

end ViewMarkup.Text
