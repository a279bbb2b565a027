import ViewMarkup.Text.Case.Table

/-!
# Lower and upper case

Full case conversion of a text: a character may become several, and a capital sigma at the end of
a word becomes the final form. The ASCII part is decided without the tables.
-/

namespace ViewMarkup.Text

/-- The first run that maps the code point decides. -/
def CaseRun.lookup? (runs : List CaseRun) (n : Nat) : Option Nat :=
  runs.findSome? (·.image? n)

/-- The lower-case form of one character, context left aside. -/
def lowerChar (c : Char) : List Char :=
  if c.toNat < 0x80 then [c.toLower] else
  match lowerSequences.lookup c.toNat with
  | some ns => ns.map Char.ofNat
  | none => [((CaseRun.lookup? lowerRuns c.toNat).map Char.ofNat).getD c]

/-- The upper-case form of one character. -/
def upperChar (c : Char) : List Char :=
  if c.toNat < 0x80 then [c.toUpper] else
  match upperSequences.lookup c.toNat with
  | some ns => ns.map Char.ofNat
  | none => [((CaseRun.lookup? upperRuns c.toNat).map Char.ofNat).getD c]

/-- The next character that a capital sigma does not skip has case. -/
def nextIsCased (cs : List Char) : Bool :=
  match cs.dropWhile caseIgnorable.contains with
  | [] => false
  | c :: _ => cased.contains c

/-- A capital sigma is written in its final form when a letter with case stands before it and none
follows it. -/
def isFinalSigma (before after : List Char) : Bool :=
  nextIsCased before && !nextIsCased after

/-- Lower case of `cs`, where `before` holds the characters before it, last first. -/
def lowerList (before : List Char) : List Char → List Char
  | [] => []
  | c :: cs =>
    (if c == 'Σ' then [if isFinalSigma before cs then 'ς' else 'σ'] else lowerChar c) ++
      lowerList (c :: before) cs

/-- The text in lower case. -/
def lower (s : String) : String := String.ofList (lowerList [] s.toList)

/-- The text in upper case. -/
def upper (s : String) : String := String.ofList (s.toList.flatMap upperChar)

/-- Puts an underscore between a small ASCII letter or digit and a following ASCII capital. -/
def separateWords : List Char → List Char
  | [] => []
  | [c] => [c]
  | c :: d :: cs =>
    if (c.isLower || c.isDigit) && d.isUpper then c :: '_' :: separateWords (d :: cs)
    else c :: separateWords (d :: cs)

/-- A camel-case name written in snake case: words separated by underscores, in lower case. -/
def snakeCase (s : String) : String :=
  String.ofList (lowerList [] (separateWords s.toList))

end ViewMarkup.Text
