import ViewMarkup.Xml.Character

/-!
# Alphabets

How a text is written decides more than its characters: which of them are letters of names, which
are recognised as markup before their class is known, how many bytes they take, and whether a
carriage return ends a line. An alphabet holds what is known of the characters of one text.

Where a unit of the encoding is enough to tell a character (one of the first 256), its class comes
from a table of the units, which counts the micro sign and the ordinal indicators as letters. The
standard's own tables do not.
-/

namespace ViewMarkup.Xml

/-- What is known of the characters of a text. -/
structure Alphabet where
  /-- A name may start with the character. -/
  isStart : Char → Bool
  /-- A name may go on with the character. -/
  isInner : Char → Bool
  /-- The character is a letter that its first unit tells. -/
  isLetter : Char → Bool
  /-- The first unit of the character does not tell what it is. -/
  isWide : Char → Bool
  /-- The number of bytes of the character. -/
  width : Char → Nat
  /-- The number of bytes of a unit. -/
  unit : Nat := 1
  /-- A carriage return, with a line feed after it or not, ends a line. -/
  foldsLines : Bool := true

namespace Alphabet

/-- Letters among the first 256 characters by the table of units. -/
def isLatinStart (c : Char) : Bool :=
  isNameStart c || c.toNat == 0xaa || c.toNat == 0xb5 || c.toNat == 0xba

/-- Text in units of one byte with characters of up to four. Of bytes that are no character each one
has its own mark. -/
def utf8 : Alphabet where
  isStart := isNameStart
  isInner := isNameChar
  isLetter c := c.toNat < 0x80 && isNameStart c
  isWide c := 0x80 ≤ c.toNat
  width c := if c == brokenMark then 1 else c.utf8Size

/-- Text in units of two bytes with characters of one or two of them. -/
def utf16 : Alphabet where
  isStart c := if c.toNat < 0x100 then isLatinStart c else isNameStart c
  isInner c := (c.toNat < 0x100 && isLatinStart c) || isNameChar c
  isLetter c := c.toNat < 0x100 && isLatinStart c
  isWide c := 0x100 ≤ c.toNat
  width c := if c.toNat < 0x10000 then 2 else 4
  unit := 2

/-- Text in bytes that stand for the first 256 characters, by the table of units. -/
def latin : Alphabet where
  isStart := isLatinStart
  isInner c := isLatinStart c || isNameChar c
  isLetter := isLatinStart
  isWide _ := false
  width _ := 1

/-- Text in bytes that stand for some characters, by the standard's tables. -/
def singleByte : Alphabet where
  isStart := isNameStart
  isInner := isNameChar
  isLetter := isNameStart
  isWide _ := false
  width _ := 1

/-- What entities stand for: lines have been folded when they were declared, so that a carriage
return is a blank as any other. -/
def replacement : Alphabet := { utf8 with foldsLines := false }

/-- Whether `<` in front of the character opens an element, outside of the root element. -/
def opensElement (a : Alphabet) (c : Char) : Bool := a.isLetter c || a.isWide c

/-- The number of bytes of some text. -/
def textWidth (a : Alphabet) (cs : List Char) : Nat := cs.foldl (fun n c => n + a.width c) 0

end Alphabet

end ViewMarkup.Xml
