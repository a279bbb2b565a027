import ViewMarkup.Xml.Problem
import ViewMarkup.Xml.Scan

/-!
# Tokens before and after the root element

Outside of the root element a document consists of blanks, comments, instructions and at most one
document type declaration. The scanner here gives one token at a time, also inside of that
declaration.
-/

namespace ViewMarkup.Xml

/-- A token outside of the root element. -/
inductive Token where
  | space
  | comment
  | instruction (i : Instruction)
  | declaration
  | openDeclaration (name : String)
  | rootStart
  | literal (quote : Char) (inside : List Char)
  | name (s : String) (hasColon : Bool)
  | nameToken
  | repeatedName
  | percent
  | parameterEntity
  | pound (name : String)
  | comma
  | openBracket
  | closeBracket
  | openSection
  | closeSection
  | openParen
  | closeParen
  | closeParenStar
  | closeParenOther
  | bar
  | close

/-- A token that is complete, or complete only because the text ends; then nothing is left of the
text, not even of a character that is cut off. -/
structure Scanned where
  token : Token
  onlyAtEnd : Bool := false

/-- Characters that may follow a name in a declaration. -/
def endsName (c : Char) : Bool :=
  isSpace c || c == '>' || c == ')' || c == ',' || c == '|' || c == '[' || c == '%'

/-- What a run of name characters is: a name, a name with one colon inside, or neither. -/
inductive NameShape where
  | simple
  | prefixed
  | token
deriving DecidableEq

/-- The rest of a name or name token, of which `read` (last character first) is read. -/
def nameRest (a : Alphabet) (shape : NameShape) (read : List Char) :
    List Char → Scan (Scanned × List Char)
  | [] => .ok (⟨token shape, true⟩, [])
  | c :: cs =>
    if a.isInner c then nameRest a shape (c :: read) cs
    else if c == ':' then
      match shape with
      | .simple =>
        match cs with
        | [] => halt []
        | d :: _ => nameRest a (if a.isInner d then .prefixed else .token) (c :: read) cs
      | _ => nameRest a .token (c :: read) cs
    else if endsName c then .ok (⟨token shape, false⟩, c :: cs)
    else if (c == '+' || c == '*' || c == '?') && shape != .token then
      .ok (⟨.repeatedName, false⟩, cs)
    else haltClass (c :: cs)
where
  /-- The token of what has been read. -/
  token (shape : NameShape) : Token :=
    match shape with
    | .simple => .name (String.ofList read.reverse) false
    | .prefixed => .name (String.ofList read.reverse) true
    | .token => .nameToken

/-- The end of a literal and what follows it. -/
def literalEnd (quote : Char) : List Char → Scan (Bool × List Char)
  | [] => halt []
  | c :: cs =>
    if c == quote then
      match cs with
      | [] => .ok (true, [])
      | d :: _ =>
        if isSpace d || d == '>' || d == '%' || d == '[' then .ok (false, cs) else halt cs
    else if isAllowed c then literalEnd quote cs
    else haltClass (c :: cs)

/-- A token that is a name with something in front, which has to be followed by one of some
characters. -/
def followedName (a : Alphabet) (follows : Char → Bool) (cs : List Char) :
    Scan ((String × Bool) × List Char) := do
  let (name, rest) ← simpleName a cs
  match rest with
  | [] => return ((String.ofList name, true), [])
  | c :: _ => if follows c then return ((String.ofList name, false), rest) else halt rest

/-- What follows `<!` outside of the root element. -/
def afterBang (a : Alphabet) : List Char → Scan (Scanned × List Char)
  | '-' :: rest => do
    let rest ← comment rest
    return (⟨.comment, false⟩, rest)
  | '[' :: rest => .ok (⟨.openSection, false⟩, rest)
  | text =>
    let (name, rest) := text.span a.isLetter
    let opened : Scan (Scanned × List Char) :=
      .ok (⟨.openDeclaration (String.ofList name), false⟩, rest)
    if name.isEmpty then halt text
    else
      match rest with
      | [] | ['%'] => halt []
      | '%' :: d :: _ => if isSpace d || d == '%' then halt rest else opened
      | d :: _ => if isSpace d then opened else halt rest

/-- A percent sign, alone or with the name of an entity; `cs` is what follows it. -/
def afterPercent (a : Alphabet) (cs : List Char) : Scan (Token × List Char) :=
  match cs with
  | [] => halt []
  | d :: _ =>
    if isSpace d || d == '%' then .ok (.percent, cs)
    else do
      let ((_, atEnd), rest) ← followedName a (· == ';') cs
      if atEnd then halt [] else return (.parameterEntity, rest.drop 1)

/-- Blanks. A carriage return at the end of the text might be only the first half of a line end. -/
def blanks (cs : List Char) : Scanned × List Char :=
  let (inside, rest) := cs.span isSpace
  (⟨.space, rest.isEmpty && inside.getLast? == some '\r'⟩, rest)

/-- The token that the text starts with. -/
def scanToken (a : Alphabet) (text : List Char) : Scan (Scanned × List Char) :=
  match text with
  | [] => halt []
  | c :: cs =>
    let one (t : Token) : Scan (Scanned × List Char) := .ok (⟨t, false⟩, cs)
    match c with
    | '"' | '\'' => do
      let (onlyAtEnd, rest) ← literalEnd c cs
      return (⟨.literal c cs, onlyAtEnd⟩, rest)
    | '<' =>
      match cs with
      | '!' :: rest => afterBang a rest
      | '?' :: rest => do
        let (i, rest) ← instruction a rest
        return (⟨if i.target == "xml".toList then .declaration else .instruction i, false⟩, rest)
      | [] => halt []
      | d :: _ => if a.opensElement d then .ok (⟨.rootStart, false⟩, text) else halt cs
    | '%' => do
      let (t, rest) ← afterPercent a cs
      return (⟨t, false⟩, rest)
    | ',' => one .comma
    | '[' => one .openBracket
    | ']' =>
      match cs with
      | ']' :: '>' :: rest => .ok (⟨.closeSection, false⟩, rest)
      | [']'] => halt []
      | _ => .ok (⟨.closeBracket, cs.isEmpty⟩, cs)
    | '(' => one .openParen
    | ')' =>
      match cs with
      | [] => .ok (⟨.closeParen, true⟩, [])
      | '*' :: rest => .ok (⟨.closeParenStar, false⟩, rest)
      | '?' :: rest | '+' :: rest => .ok (⟨.closeParenOther, false⟩, rest)
      | d :: _ =>
        if isSpace d || d == '>' || d == ',' || d == '|' || d == ')' then one .closeParen
        else halt cs
    | '|' => one .bar
    | '>' => one .close
    | '#' => do
      let follows (c : Char) : Bool := isSpace c || c == ')' || c == '>' || c == '%' || c == '|'
      let ((name, atEnd), rest) ← followedName a follows cs
      return (⟨.pound name, atEnd⟩, rest)
    | c =>
      if isSpace c then .ok (blanks text)
      else if a.isStart c then nameRest a .simple [c] cs
      else if a.isInner c || c == ':' then nameRest a .token [c] cs
      else haltClass text

/-- The problem of a halted scanner, for a token that starts at `start`: what does not fit is found
as the text is taken in, all else only at its end. -/
def Halt.stop (h : Halt) (start : List Char) (first again : Option (List Char)) : Stop :=
  match h with
  | .invalid rest => { problem := .invalidToken, rest, first, again }
  | .cut => { problem := .partialCharacter, rest := start }
  | .ended => { problem := .unclosedToken, rest := start }

end ViewMarkup.Xml
