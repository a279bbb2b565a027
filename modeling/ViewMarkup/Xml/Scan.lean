import ViewMarkup.Xml.Alphabet

/-!
# Tokens of markup

Scanners for the single tokens of a document: names, references, comments, instructions, tags and
character data. A scanner takes what is left of the text and gives the token with what is left after
it. It halts at the first character that does not fit, where a character is cut off by the end, or
where the text ends inside the token.

A character that is cut off shows as such only where its class is asked for, as in names and in
data. Where certain characters are expected it just does not fit.
-/

namespace ViewMarkup.Xml

/-- Why a scanner gives no token. -/
inductive Halt where
  | invalid (rest : List Char)
  | cut
  | ended

/-- What a scanner gives. -/
abbrev Scan := Except Halt

/-- Halts where one of certain characters is expected. -/
def halt {α : Type} : List Char → Scan α
  | [] => .error .ended
  | rest => .error (.invalid rest)

/-- Halts where a character of some class is expected. -/
def haltClass {α : Type} : List Char → Scan α
  | [] => .error .ended
  | c :: cs => if c == cutMark then .error .cut else .error (.invalid (c :: cs))

/-- The characters of a class that the text starts with. -/
def run (p : Char → Bool) (cs : List Char) : Scan (List Char × List Char) :=
  let (inside, rest) := cs.span p
  if rest.head? == some cutMark then .error .cut else .ok (inside, rest)

/-- A name without a colon. -/
def simpleName (a : Alphabet) : List Char → Scan (List Char × List Char)
  | [] => halt []
  | c :: cs =>
    if a.isStart c then do
      let (inside, rest) ← run a.isInner cs
      return (c :: inside, rest)
    else haltClass (c :: cs)

/-- A name with at most one colon inside. -/
def qualifiedName (a : Alphabet) (cs : List Char) : Scan (List Char × List Char) := do
  let (name, rest) ← simpleName a cs
  match rest with
  | ':' :: rest =>
    let (tail, rest) ← simpleName a rest
    return (name ++ ':' :: tail, rest)
  | rest => return (name, rest)

/-- The rest of a comment, after its opening and the first hyphen of `<!--`. Two hyphens end it. -/
def comment : List Char → Scan (List Char)
  | '-' :: cs => body cs
  | cs => halt cs
where
  /-- The text of the comment up to its end. -/
  body : List Char → Scan (List Char)
    | '-' :: '-' :: '>' :: rest => .ok rest
    | '-' :: '-' :: rest => halt rest
    | [] => halt []
    | c :: cs => if isAllowed c then body cs else haltClass (c :: cs)

/-- An instruction: its target and its data. -/
structure Instruction where
  target : List Char
  data : List Char

/-- The data of an instruction up to `?>`; `out` holds what is read, last character first. -/
def instructionData (out : List Char) : List Char → Scan (List Char × List Char)
  | '?' :: '>' :: rest => .ok (out.reverse, rest)
  | [] => halt []
  | c :: cs => if isAllowed c then instructionData (c :: out) cs else haltClass (c :: cs)

/-- Whether a target is the word of the declaration in another letter case, which is forbidden. -/
def isForbiddenTarget (target : List Char) : Bool :=
  target.map Char.toLower == "xml".toList && target != "xml".toList

/-- An instruction after `<?`. Blanks before the data are skipped. -/
def instruction (a : Alphabet) (cs : List Char) : Scan (Instruction × List Char) := do
  let (target, rest) ← simpleName a cs
  match rest with
  | [] => halt []
  | c :: after =>
    if isForbiddenTarget target && (isSpace c || c == '?') then halt rest
    else if isSpace c then
      let (data, rest) ← instructionData [] after
      return ({ target, data := normalizeLines (data.dropWhile isSpace) }, rest)
    else if c == '?' then
      match after with
      | '>' :: rest => return ({ target, data := [] }, rest)
      | after => halt after
    else halt rest

/-- What a reference stands for: a character by its number (nothing for a number that is none), one
of the characters with a name, or an entity. -/
inductive Reference where
  | number (c : Option Char)
  | predefined (c : Char)
  | entity (name : String)

/-- The character with a number, if a document may contain it. -/
def characterOf? (n : Nat) : Option Char :=
  if h : n.isValidChar then
    let c := Char.ofNatAux n h
    if isAllowed c then some c else none
  else none

/-- Digits up to a semicolon, at least one. -/
def digitsToSemicolon (digit? : Char → Option Nat) (base : Nat) (cs : List Char) :
    Scan (Nat × List Char) :=
  go false 0 cs
where
  /-- `n` is the value of the digits so far; `some` says whether there was one. -/
  go (any : Bool) (n : Nat) : List Char → Scan (Nat × List Char)
    | [] => halt []
    | c :: cs =>
      match digit? c with
      | some d => go true (if n < 0x110000 then base * n + d else n) cs
      | none => if c == ';' && any then .ok (n, cs) else halt (c :: cs)

/-- The value of a decimal digit. -/
def decimalDigit? (c : Char) : Option Nat := if c.isDigit then some (c.toNat - 48) else none

/-- The value of a hexadecimal digit. -/
def hexadecimalDigit? (c : Char) : Option Nat :=
  if c.isDigit then some (c.toNat - 48)
  else if 'a' ≤ c ∧ c ≤ 'f' then some (c.toNat - 87)
  else if 'A' ≤ c ∧ c ≤ 'F' then some (c.toNat - 55)
  else none

/-- The entities that every document has. -/
def predefinedEntity? : String → Option Char
  | "lt" => some '<'
  | "gt" => some '>'
  | "amp" => some '&'
  | "apos" => some '\''
  | "quot" => some '"'
  | _ => none

/-- A reference after `&`. -/
def reference (a : Alphabet) : List Char → Scan (Reference × List Char)
  | '#' :: 'x' :: cs => do
    let (n, rest) ← digitsToSemicolon hexadecimalDigit? 16 cs
    return (.number (characterOf? n), rest)
  | '#' :: cs => do
    let (n, rest) ← digitsToSemicolon decimalDigit? 10 cs
    return (.number (characterOf? n), rest)
  | cs => do
    let (name, rest) ← simpleName a cs
    match rest with
    | ';' :: rest =>
      let name := String.ofList name
      match predefinedEntity? name with
      | some c => return (.predefined c, rest)
      | none => return (.entity name, rest)
    | rest => halt rest

/-- What is left after the closing quote of an attribute value. -/
def afterValue (a : Alphabet) (quote : Char) : (fuel : Nat) → List Char → Scan (List Char)
  | 0, rest => halt rest
  | _, [] => halt []
  | fuel + 1, c :: cs =>
    if c == quote then .ok cs
    else if c == '<' then halt (c :: cs)
    else if c == '&' then
      match reference a cs with
      | .ok (_, rest) => afterValue a quote fuel rest
      | .error h => .error h
    else if isAllowed c then afterValue a quote fuel cs
    else haltClass (c :: cs)

/-- An attribute as it stands in a tag: `place` is what was left of the text at its name, `inside`
what was left in the quotes. -/
structure RawAttribute where
  name : String
  place : List Char
  quote : Char
  inside : List Char

/-- A start tag as it stands in the text. -/
structure RawTag where
  name : String
  attributes : List RawAttribute
  isEmpty : Bool

/-- One attribute, after the blanks in front of it. `bound` is more than the length of the text. -/
def rawAttribute (a : Alphabet) (bound : Nat) (text : List Char) :
    Scan (RawAttribute × List Char) := do
  let (name, afterName) ← qualifiedName a text
  match afterName.dropWhile isSpace with
  | '=' :: afterSign =>
    match afterSign.dropWhile isSpace with
    | quote :: inside =>
      if quote == '"' || quote == '\'' then
        let rest ← afterValue a quote bound inside
        return ({ name := String.ofList name, place := text, quote, inside }, rest)
      else halt (quote :: inside)
    | [] => halt []
  | other => halt other

/-- The attributes and the end of a tag, after its name or after an attribute. -/
def tagRest (a : Alphabet) (bound : Nat) : (fuel : Nat) → List Char →
    Scan ((List RawAttribute × Bool) × List Char)
  | 0, rest => halt rest
  | fuel + 1, cs =>
    match cs.dropWhile isSpace with
    | '>' :: rest => .ok (([], false), rest)
    | '/' :: '>' :: rest => .ok (([], true), rest)
    | '/' :: rest => halt rest
    | text =>
      if (cs.head?.map isSpace).getD false then do
        let (first, rest) ← rawAttribute a bound text
        let ((others, isEmpty), rest) ← tagRest a bound fuel rest
        return ((first :: others, isEmpty), rest)
      else halt text

/-- A start tag after `<`. `bound` is more than the length of the text. -/
def startTag (a : Alphabet) (bound : Nat) (cs : List Char) : Scan (RawTag × List Char) := do
  let (name, rest) ← qualifiedName a cs
  let ((attributes, isEmpty), rest) ← tagRest a bound bound rest
  return ({ name := String.ofList name, attributes, isEmpty }, rest)

/-- An end tag after `</`. Its name may have any number of colons, since it only has to be equal to
the name of the start tag. -/
def endTag (a : Alphabet) (cs : List Char) : Scan (String × List Char) := do
  let (first, rest) ← simpleName a cs
  let (others, rest) ← run (fun c => a.isInner c || c == ':') rest
  match rest.dropWhile isSpace with
  | '>' :: rest => return (String.ofList (first ++ others), rest)
  | other => halt other

end ViewMarkup.Xml
