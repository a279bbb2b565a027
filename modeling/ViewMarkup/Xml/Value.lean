import ViewMarkup.Xml.Scan

/-!
# Tokens of values

An attribute value, in a tag or as a default, and the replacement text of an entity consist of runs
of characters, blanks and references. They are read token by token, so that the first problem in a
value is the one that is told. The closing quote ends a value, also in the middle of a reference; a
replacement text that stands for a part of a value ends with its last character.
-/

namespace ViewMarkup.Xml

/-- A token of a value. A reference or character that is not well-formed comes with what was left of
the text where that shows. -/
inductive ValueToken where
  | run (cs : List Char)
  | blank
  | number (c : Option Char)
  | predefined (c : Char)
  | entity (name : String)
  | broken (place : List Char)

/-- The token of a reference, of which `text` is left and which has been looked at with the
outcome. One that the end of its value cuts off is broken at its start. -/
def referenceToken (quote : Option Char) (text : List Char) :
    Scan (Reference × List Char) → ValueToken × List Char
  | .ok (.number c, rest) => (.number c, rest)
  | .ok (.predefined c, rest) => (.predefined c, rest)
  | .ok (.entity name, rest) => (.entity name, rest)
  | .error (.invalid rest) =>
    (.broken (if rest.head? == quote then text else rest), [])
  | .error _ => (.broken text, [])

/-- The first token of an attribute value, if there is one before the closing quote. -/
def valueToken? (a : Alphabet) (quote : Option Char) : List Char → Option (ValueToken × List Char)
  | [] => none
  | c :: cs =>
    if some c == quote then none
    else if c == '<' then some (.broken (c :: cs), [])
    else if c == '&' then some (referenceToken quote (c :: cs) (reference a cs))
    else if c == '\r' && a.foldsLines && cs.head? == some '\n' then some (.blank, cs.drop 1)
    else if isSpace c then some (.blank, cs)
    else
      let isPlain (c : Char) : Bool := some c != quote && c != '<' && c != '&' && !isSpace c
      let (inside, rest) := cs.span isPlain
      some (.run (c :: inside), rest)

/-- Whether reading an attribute value token by token could give anything but the value as it
stands. -/
def isPlainValue (quote : Char) (inside : List Char) : Bool :=
  match inside with
  | ' ' :: _ => false
  | _ => go inside
where
  /-- Blanks stand alone and inside, and there are no references. -/
  go : List Char → Bool
    | [] => true
    | [c] => c != '&' && !isSpace c
    | c :: d :: cs =>
      if c == quote then true
      else if c == '&' then false
      else if isSpace c then c == ' ' && d != ' ' && d != quote && go (d :: cs)
      else go (d :: cs)

/-- A value as it stands in the text, up to its closing quote. -/
def valueText (quote : Char) (inside : List Char) : List Char := inside.takeWhile (· != quote)

end ViewMarkup.Xml
