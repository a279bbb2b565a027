/-!
# Problems of a document

What can be wrong with the text of a document, where it is, and how the place is told.

A problem that shows only because the text ends is told at its place. Any other problem is met
twice, once while the text is taken in and once when it is closed; the second time goes over a part
of the text again, from what was completed last (a character data section or an entity, or else from
the beginning), and counts on from the first, so that lines and columns of that part count twice.
The first count stops at the first reference that was let pass, if there was one.
-/

namespace ViewMarkup.Xml

/-- What is wrong. -/
inductive Problem where
  | invalidToken
  | unclosedToken
  | partialCharacter
  | noElement
  | mismatchedTag
  | junkAfterRoot
  | duplicateAttribute
  | undefinedEntity
  | skippedEntity (name : String)
  | recursiveEntity
  | asynchronousEntity
  | binaryEntity
  | externalEntityInAttribute
  | amplification
  | entityDeclaredElsewhere
  | parameterEntity
  | badCharacterReference
  | unclosedSection
  | misplacedDeclaration
  | malformedDeclaration
  | unknownEncoding
  | multiByteEncoding
  | wrongEncoding
  | badPublicId
  | unboundPrefix
  | undeclaredPrefix
  | reservedPrefix
  | reservedNamespacePrefix
  | reservedNamespace
  | unexpected
deriving DecidableEq, Repr

/-- What of a text fits into so many bytes. A character that fits only in part is replaced. -/
def withinBytes : Nat → List Char → List Char
  | _, [] => []
  | 0, _ => []
  | n, c :: cs =>
    if c.utf8Size ≤ n then c :: withinBytes (n - c.utf8Size) cs else [Char.ofNat 0xfffd]

/-- The wording of a problem. Of a reference that was let pass the first hundred bytes are told. -/
def Problem.message : Problem → String
  | invalidToken => "not well-formed (invalid token)"
  | unclosedToken => "unclosed token"
  | partialCharacter => "partial character"
  | noElement => "no element found"
  | mismatchedTag => "mismatched tag"
  | junkAfterRoot => "junk after document element"
  | duplicateAttribute => "duplicate attribute"
  | undefinedEntity => "undefined entity"
  | skippedEntity name =>
    "undefined entity " ++ String.ofList (withinBytes 100 ('&' :: name.toList ++ [';']))
  | recursiveEntity => "recursive entity reference"
  | asynchronousEntity => "asynchronous entity"
  | binaryEntity => "reference to binary entity"
  | externalEntityInAttribute => "reference to external entity in attribute"
  | amplification => "limit on input amplification factor (from DTD and entities) breached"
  | entityDeclaredElsewhere => "entity declared in parameter entity"
  | parameterEntity => "illegal parameter entity reference"
  | badCharacterReference => "reference to invalid character number"
  | unclosedSection => "unclosed CDATA section"
  | misplacedDeclaration => "XML or text declaration not at start of entity"
  | malformedDeclaration => "XML declaration not well-formed"
  | unknownEncoding => "unknown encoding"
  | multiByteEncoding => "multi-byte encodings are not supported"
  | wrongEncoding => "encoding specified in XML declaration is incorrect"
  | badPublicId => "illegal character(s) in public id"
  | unboundPrefix => "unbound prefix"
  | undeclaredPrefix => "must not undeclare prefix"
  | reservedPrefix =>
    "reserved prefix (xml) must not be undeclared or bound to another namespace name"
  | reservedNamespacePrefix => "reserved prefix (xmlns) must not be declared or undeclared"
  | reservedNamespace => "prefix must not be bound to one of the reserved namespace names"
  | unexpected => "syntax error"

/-- A problem with its place, given by what was left of the text there. -/
structure Stop where
  problem : Problem
  rest : List Char
  /-- What was left of the text where the first count stopped, if that is another place. -/
  first : Option (List Char) := none
  /-- What was left of the text where the second count starts; there is none for a problem that
  only the end shows, or that is inside of an entity. -/
  again : Option (List Char) := none

/-- A line, from 1, and a column in characters, from 0. -/
structure Place where
  line : Nat := 1
  column : Nat := 0
deriving DecidableEq, Repr

/-- Counts lines and columns over some text: line feeds, carriage returns and the two together end
a line. -/
def Place.after (p : Place) : List Char → Place
  | [] => p
  | '\r' :: '\n' :: cs => Place.after ⟨p.line + 1, 0⟩ cs
  | c :: cs =>
    if c = '\n' ∨ c = '\r' then Place.after ⟨p.line + 1, 0⟩ cs
    else Place.after ⟨p.line, p.column + 1⟩ cs

/-- The part of a text between two places, given by what is left there. -/
def between (start stop : List Char) : List Char := start.take (start.length - stop.length)

/-- Where the problem is told to be. -/
def Stop.place (s : Stop) (text : List Char) : Place :=
  let met := Place.after {} (between text (s.first.getD s.rest))
  match s.again with
  | none => met
  | some start => met.after (between start s.rest)

end ViewMarkup.Xml
